import Limbo.Lib.Run
import Limbo.Drawing.Overlap

/-!
# `RectList`

The list of rectangles and its three operations. The entries of the object pool are the
rectangles themselves: which pool entry carries a rectangle does not influence any comparison.
`recursiveAdd` restarts from index `0` after a merge or a cut, so it takes a bound on the depth of
the recursion and returns `none` when the bound is reached; `RectList.step` is one call on the
list.
-/

namespace Limbo.Drawing

/-- `recursiveAdd(toAdd, level)`. -/
def recursiveAdd : ℕ → List Rect → Rect → ℕ → Option (List Rect)
  | 0, _, _, _ => none
  | fuel + 1, list, toAdd, level =>
    match list[level]? with
    | none => some (list ++ [toAdd])
    | some thisRect =>
      match overlap thisRect toAdd with
      | .none => recursiveAdd fuel list toAdd (level + 1)
      | .same | .contains => some list
      | .containedBy => recursiveAdd fuel (list.eraseIdx level) toAdd level
      | .coalescible =>
        recursiveAdd fuel (list.eraseIdx level) (coalesced thisRect toAdd) 0
      | .partialOverlap =>
        Lib.run (fun l r => recursiveAdd fuel l r 0) list (populate (.of thisRect toAdd) .r2)

/-- Re-adding a list of rectangles one after the other, each from level `0`. -/
def addAll (fuel : ℕ) (list : List Rect) (rects : List Rect) : Option (List Rect) :=
  Lib.run (fun l r => recursiveAdd fuel l r 0) list rects

namespace RectList

/-- `add(toAdd)`. -/
def add (fuel : ℕ) (list : List Rect) (toAdd : Rect) : Option (List Rect) :=
  recursiveAdd fuel list toAdd 0

/-- `intersect(bounds)`. -/
def intersect (fuel : ℕ) (list : List Rect) (bounds : Rect) : Option (List Rect) :=
  addAll fuel [] (list.filterMap (·.intersect bounds))

/-- Where the scan of `subtract` ends: it returns early on an equal rectangle, or it leaves the
rectangles that stay and the pieces to add again. -/
inductive Scan where
  | returned (list : List Rect)
  | finished (list newList : List Rect)

/-- The scan of `subtract`: `kept` is the part of the list in front of the index `i`, `rest` the
part from `i` on. -/
def scan (toSubtract : Rect) : List Rect → List Rect → List Rect → Scan
  | kept, [], newList => .finished kept newList
  | kept, rect :: rest, newList =>
    let p := NonOverlappingPortion.of rect toSubtract
    let cut := scan toSubtract kept rest (newList ++ populate p .r1)
    match overlap rect toSubtract with
    | .same => .returned (kept ++ rest)
    | .containedBy => scan toSubtract kept rest newList
    | .none => scan toSubtract (kept ++ [rect]) rest newList
    | .coalescible =>
      if ¬ p.verticalOverlap ∨ ¬ p.horizontalOverlap
      then scan toSubtract (kept ++ [rect]) rest newList
      else cut
    | .contains => cut
    | .partialOverlap => cut

/-- `subtract(toSubtract)`. -/
def subtract (fuel : ℕ) (list : List Rect) (toSubtract : Rect) : Option (List Rect) :=
  match scan toSubtract [] list [] with
  | .returned list => some list
  | .finished list newList => addAll fuel list newList

/-- A call on the list. -/
inductive Op where
  | add (toAdd : Rect)
  | subtract (toSubtract : Rect)
  | intersect (bounds : Rect)
deriving DecidableEq, Repr

/-- The rectangle a call is made with. -/
def Op.rect : Op → Rect
  | add r | subtract r | intersect r => r

/-- One call, `none` when the recursion is deeper than `fuel`. -/
def step (fuel : ℕ) (list : List Rect) : Op → Option (List Rect)
  | .add r => add fuel list r
  | .subtract r => subtract fuel list r
  | .intersect r => intersect fuel list r

/-! ### The bound on the recursion

Where a call returns, a larger bound does not change its result. -/

lemma recursiveAdd_succ {fuel : ℕ} {list list' : List Rect} {toAdd : Rect} {level : ℕ}
    (h : recursiveAdd fuel list toAdd level = some list') :
    recursiveAdd (fuel + 1) list toAdd level = some list' := by
  induction fuel generalizing list list' toAdd level with
  | zero => simp [recursiveAdd] at h
  | succ fuel ih =>
    rw [recursiveAdd] at h ⊢
    split at h
    next => exact h
    next thisRect _ =>
      split at h
      next => exact ih h
      next => exact h
      next => exact h
      next => exact ih h
      next => exact ih h
      next => exact Lib.run_mono (fun _ _ _ => ih) h

lemma recursiveAdd_mono {fuel fuel' : ℕ} (hle : fuel ≤ fuel') {list list' : List Rect}
    {toAdd : Rect} {level : ℕ} (h : recursiveAdd fuel list toAdd level = some list') :
    recursiveAdd fuel' list toAdd level = some list' := by
  induction hle with
  | refl => exact h
  | step _ ih => exact recursiveAdd_succ ih

/-- Two bounds that are both large enough give the same list. -/
theorem step_unique {fuel fuel' : ℕ} {list l l' : List Rect} {op : Op}
    (h : step fuel list op = some l) (h' : step fuel' list op = some l') : l = l' := by
  have hmono {f : ℕ} {m : List Rect} (hf : f ≤ max fuel fuel') (hm : step f list op = some m) :
      step (max fuel fuel') list op = some m := by
    have hadd (k rects m : List Rect) (hk : addAll f k rects = some m) :
        addAll (max fuel fuel') k rects = some m :=
      Lib.run_mono (fun _ _ _ => recursiveAdd_mono hf) hk
    cases op with
    | add r => exact recursiveAdd_mono hf hm
    | subtract r =>
      simp only [step, subtract] at hm ⊢
      split at hm
      next => exact hm
      next => exact hadd _ _ _ hm
    | intersect r => exact hadd _ _ _ hm
  exact Option.some.inj ((hmono (le_max_left _ _) h).symm.trans (hmono (le_max_right _ _) h'))

end RectList

end Limbo.Drawing
