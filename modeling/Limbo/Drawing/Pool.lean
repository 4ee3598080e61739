import Limbo.Lib.Meets
import Limbo.Drawing.RectList

/-!
# The entries of the pool

`RectList` keeps its rectangles in entries of an `ObjectPool` that it shares with other lists and
with the code that calls it. Here the entries are told apart: every operation reserves and releases
them as the source does. The model adds that the entries in local variables of the code are `held`,
and that `reserve` and `release` fail on an entry that is in use or free already.
-/

namespace Limbo.Drawing

open Lib

/-! ### `ObjectPool` -/

/-- An entry, by the order in which the pool has made them. -/
abbrev Entry := ℕ

inductive Fault where
  /-- The recursion is deeper than the bound. -/
  | outOfFuel
  /-- An entry is released that is in the free list already. -/
  | releasedTwice
  /-- An entry is reserved that is in a list or held by the code. -/
  | stillUsed
  | indexOutOfBounds
deriving DecidableEq, Repr

/-- The pool, the rectangles in its entries and the lists that share it. -/
structure Pool (ι : Type) where
  /-- The chain of `next`. -/
  free : List Entry
  created : ℕ
  item : Entry → Rect
  lists : ι → List Entry
  held : List Entry

/-- A pool that has made no entry yet. -/
def Pool.init (ι : Type) : Pool ι := ⟨[], 0, fun _ => ⟨0, 0, 0, 0⟩, fun _ => [], []⟩

abbrev PoolM (ι : Type) := EStateM Fault (Pool ι)

variable {ι : Type}

/-- The entry is in a list or held by the code. -/
def Pool.Used (s : Pool ι) (entry : Entry) : Prop := entry ∈ s.held ∨ ∃ l, entry ∈ s.lists l

instance [Fintype ι] (s : Pool ι) (entry : Entry) : Decidable (s.Used entry) :=
  inferInstanceAs (Decidable (_ ∨ _))

/-- `reserve()`. -/
def reserve [Fintype ι] : PoolM ι Entry := do
  let s ← get
  match s.free with
  | [] =>
    set { s with
      created := s.created + 1
      item := Function.update s.item s.created ⟨0, 0, 0, 0⟩
      held := s.created :: s.held }
    return s.created
  | entry :: next =>
    if s.Used entry then throw .stillUsed
    set { s with
      free := next
      held := entry :: s.held }
    return entry

/-- `release(entry)`. -/
def release (entry : Entry) : PoolM ι Unit := do
  let s ← get
  if entry ∈ s.free then throw .releasedTwice
  else set { s with
    free := entry :: s.free
    held := s.held.erase entry }

/-- `entry.get()`. -/
def getItem (entry : Entry) : PoolM ι Rect := do
  return (← get).item entry

/-- `entry.get().set(r)`. -/
def setItem (entry : Entry) (r : Rect) : PoolM ι Unit :=
  modify fun s => { s with item := Function.update s.item entry r }

/-! ### `RectList` -/

section Lists

variable [DecidableEq ι]

/-- A list is changed. -/
def Pool.setList (s : Pool ι) (l : ι) (list : List Entry) : Pool ι :=
  { s with lists := Function.update s.lists l list }

@[simp] lemma Pool.setList_self (s : Pool ι) (l : ι) (list : List Entry) :
    (s.setList l list).lists l = list := by
  simp [setList]

lemma Pool.setList_of_ne (s : Pool ι) {l l' : ι} (h : l' ≠ l) (list : List Entry) :
    (s.setList l list).lists l' = s.lists l' := by
  simp [setList, h]

variable [Fintype ι]

/-- `list.add(entry)`. -/
def listAdd (l : ι) (entry : Entry) : PoolM ι Unit :=
  modify fun s => { s.setList l (s.lists l ++ [entry]) with held := s.held.erase entry }

/-- `list.remove(i)`. -/
def listRemove (l : ι) (i : ℕ) : PoolM ι Unit :=
  modify fun s => s.setList l ((s.lists l).eraseIdx i)

/-- `Populate(p, pool, owner)`, with the rectangles of the portions. -/
def reserveAll : List Rect → PoolM ι (List Entry)
  | [] => return []
  | r :: rects => do
    let entry ← reserve
    setItem entry r
    let entries ← reserveAll rects
    return entry :: entries

/-- `recursiveAdd(toAdd, level)`. -/
def recursiveAddEntry (l : ι) : ℕ → Entry → ℕ → PoolM ι Unit
  | 0, _, _ => throw .outOfFuel
  | fuel + 1, toAdd, level => do
    match ((← get).lists l)[level]? with
    | none => listAdd l toAdd
    | some thisEntry =>
      let addRect ← getItem toAdd
      let thisRect ← getItem thisEntry
      match overlap thisRect addRect with
      | .none => recursiveAddEntry l fuel toAdd (level + 1)
      | .same | .contains => release toAdd
      | .containedBy => do
        release thisEntry
        listRemove l level
        recursiveAddEntry l fuel toAdd level
      | .coalescible => do
        release thisEntry
        listRemove l level
        setItem toAdd (coalesced thisRect addRect)
        recursiveAddEntry l fuel toAdd 0
      | .partialOverlap => do
        release toAdd
        let rects ← reserveAll (populate (.of thisRect addRect) .r2)
        rects.forM fun entry => recursiveAddEntry l fuel entry 0

/-- `add(toAdd)`. -/
def addRect (l : ι) (fuel : ℕ) (toAdd : Rect) : PoolM ι Unit := do
  let entry ← reserve
  setItem entry toAdd
  recursiveAddEntry l fuel entry 0

/-- The first loop of `intersect`, over the entries of the list. -/
def clip (bounds : Rect) : List Entry → PoolM ι (List Entry)
  | [] => return []
  | entry :: list => do
    match (← getItem entry).intersect bounds with
    | some r =>
      setItem entry r
      let newList ← clip bounds list
      return entry :: newList
    | none =>
      release entry
      clip bounds list

/-- The entries that the code has taken out of a list. -/
def Pool.taking (s : Pool ι) (l : ι) (entries : List Entry) : Pool ι :=
  { s.setList l [] with held := entries ++ s.held }

/-- `list.clear()`, with the entries that the code still has in `newList`. -/
def listClear (l : ι) (newList : List Entry) : PoolM ι Unit :=
  modify fun s => s.taking l newList

/-- `intersect(bounds)`. -/
def intersectRect (l : ι) (fuel : ℕ) (bounds : Rect) : PoolM ι Unit := do
  let newList ← clip bounds ((← get).lists l)
  listClear l newList
  newList.forM fun entry => recursiveAddEntry l fuel entry 0

/-- `newList.clear()`: the code forgets the entries. -/
def forget (entries : List Entry) : PoolM ι Unit :=
  modify fun s => { s with held := s.held.diff entries }

/-- The first loop of `subtract`, with `size - i` turns to go; `none` when it returns early. -/
def cut (l : ι) (toSubtract : Rect) : ℕ → ℕ → List Entry → PoolM ι (Option (List Entry))
  | 0, _, newList => return some newList
  | n + 1, i, newList => do
    match ((← get).lists l)[i]? with
    | none => throw .indexOutOfBounds
    | some entry =>
      let rect ← getItem entry
      let p := NonOverlappingPortion.of rect toSubtract
      let replace : PoolM ι (Option (List Entry)) := do
        let rects ← reserveAll (populate p .r1)
        release entry
        listRemove l i
        cut l toSubtract n i (newList ++ rects)
      match overlap rect toSubtract with
      | .same => do
        release entry
        forget newList
        listRemove l i
        return none
      | .containedBy => do
        release entry
        listRemove l i
        cut l toSubtract n i newList
      | .none => cut l toSubtract n (i + 1) newList
      | .coalescible =>
        if ¬ p.verticalOverlap ∨ ¬ p.horizontalOverlap then cut l toSubtract n (i + 1) newList
        else replace
      | .contains => replace
      | .partialOverlap => replace

/-- `subtract(toSubtract)`. -/
def subtractRect (l : ι) (fuel : ℕ) (toSubtract : Rect) : PoolM ι Unit := do
  match ← cut l toSubtract ((← get).lists l).length 0 [] with
  | none => return ()
  | some newList => newList.forM fun entry => recursiveAddEntry l fuel entry 0

/-- One call on a list. -/
def call (l : ι) (fuel : ℕ) : RectList.Op → PoolM ι Unit
  | .add r => addRect l fuel r
  | .subtract r => subtractRect l fuel r
  | .intersect r => intersectRect l fuel r

end Lists

end Limbo.Drawing
