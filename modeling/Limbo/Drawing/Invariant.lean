import Limbo.Drawing.RectList

/-!
# The representation invariant of `RectList`

The class comment promises that no two rectangles of the list overlap and that none share a
complete side. `WellFormed` says it through the comparison of the code: every pair compares as
`NONE`, in the order in which the list holds it. A rectangle is only ever appended after it has
been compared with every entry, so each operation keeps it, together with any property of single
rectangles that merging, cutting and clipping keep.
-/

namespace Limbo.Drawing

open RectList

/-- The comparison finds two rectangles unrelated. -/
def Unrelated (r1 r2 : Rect) : Prop := overlap r1 r2 = .none

/-- A list of pairwise unrelated rectangles that all meet `P`. With `Rect.Nonempty` for `P` it is
the promise of the class comment, as the comparison of the code sees it. -/
structure WellFormed (P : Rect → Prop) (list : List Rect) : Prop where
  pairwise : list.Pairwise Unrelated
  all : ∀ r ∈ list, P r

namespace Rect

/-- The points inside a rectangle, its sides left out. -/
def interior (r : Rect) : Set (ℝ × ℝ) :=
  Set.Ioo (r.left : ℝ) r.right ×ˢ Set.Ioo (r.top : ℝ) r.bottom

/-- The four sides, each from its upper or left end to the other. -/
def sides (r : Rect) : List ((ℤ × ℤ) × (ℤ × ℤ)) :=
  [((r.left, r.top), (r.left, r.bottom)), ((r.right, r.top), (r.right, r.bottom)),
    ((r.left, r.top), (r.right, r.top)), ((r.left, r.bottom), (r.right, r.bottom))]

/-- A complete side of one rectangle is a complete side of the other. -/
def SharesSide (a b : Rect) : Prop := ∃ s ∈ a.sides, s ∈ b.sides

end Rect

/-! ### What the comparison says about non-empty rectangles -/

section Unrelated

variable {a b : Rect}

/-- Unrelated non-empty rectangles are apart on one of the axes. -/
lemma Unrelated.apart (h : Unrelated a b) (ha : a.Nonempty) (hb : b.Nonempty) :
    (a.right ≤ b.left ∨ b.right ≤ a.left) ∨ (a.bottom ≤ b.top ∨ b.bottom ≤ a.top) := by
  have hno := (overlap_eq_none.mp h).2.2.2
  rw [Bool.and_eq_true] at hno
  by_contra hc
  push Not at hc
  obtain ⟨⟨h1, h2⟩, h3, h4⟩ := hc
  exact hno ⟨axis_overlap_of_mem (x := max a.top b.top) (by have := ha.2; omega)
      (by have := hb.2; omega),
    axis_overlap_of_mem (x := max a.left b.left) (by have := ha.1; omega)
      (by have := hb.1; omega)⟩

lemma Unrelated.disjoint_interior (h : Unrelated a b) (ha : a.Nonempty) (hb : b.Nonempty) :
    Disjoint a.interior b.interior := by
  rw [Set.disjoint_left]
  rintro ⟨x, y⟩ ⟨⟨hx1, hx2⟩, hy1, hy2⟩ ⟨⟨hx3, hx4⟩, hy3, hy4⟩
  dsimp only at *
  rcases h.apart ha hb with (h | h) | (h | h)
  · have : (a.right : ℝ) ≤ b.left := by exact_mod_cast h
    linarith
  · have : (b.right : ℝ) ≤ a.left := by exact_mod_cast h
    linarith
  · have : (a.bottom : ℝ) ≤ b.top := by exact_mod_cast h
    linarith
  · have : (b.bottom : ℝ) ≤ a.top := by exact_mod_cast h
    linarith

/-- Two rectangles with the same top and bottom that touch at a vertical side are coalescible. -/
lemma Unrelated.not_touch_horizontal (h : Unrelated a b) (ht : a.top = b.top)
    (hbot : a.bottom = b.bottom) (hl : a.left < a.right) (hr : b.left < b.right) :
    a.right ≠ b.left ∧ a.left ≠ b.right := by
  have hno := (overlap_eq_none.mp h).2.2.1
  rw [commonVertical_of] at hno
  constructor <;> intro hc <;> refine hno ⟨⟨ht, hbot⟩, ?_⟩ <;>
    simp only [NonOverlappingPortion.adjacentHorizontal, NonOverlappingPortion.of,
      Bool.or_eq_true (NonOverlappingPortion.horizontalOverlap _)] <;>
    exact .inr (axis_adjacent.mpr (by omega))

/-- Two rectangles with the same left and right that touch at a horizontal side are
coalescible. -/
lemma Unrelated.not_touch_vertical (h : Unrelated a b) (hl : a.left = b.left)
    (hr : a.right = b.right) (ht : a.top < a.bottom) (hbot : b.top < b.bottom) :
    a.bottom ≠ b.top ∧ a.top ≠ b.bottom := by
  have hno := (overlap_eq_none.mp h).2.1
  rw [commonHorizontal_of] at hno
  constructor <;> intro hc <;> refine hno ⟨⟨hl, hr⟩, ?_⟩ <;>
    simp only [NonOverlappingPortion.adjacentVertical, NonOverlappingPortion.of,
      Bool.or_eq_true (NonOverlappingPortion.verticalOverlap _)] <;>
    exact .inr (axis_adjacent.mpr (by omega))

/-- Unrelated non-empty rectangles share no complete side. -/
lemma Unrelated.not_sharesSide (h : Unrelated a b) (ha : a.Nonempty) (hb : b.Nonempty) :
    ¬ a.SharesSide b := by
  have hap := h.apart ha hb
  have hh := h.not_touch_horizontal
  have hv := h.not_touch_vertical
  obtain ⟨ha1, ha2⟩ := ha
  obtain ⟨hb1, hb2⟩ := hb
  simp only [Rect.SharesSide, Rect.sides, List.mem_cons, List.not_mem_nil, or_false, not_exists,
    not_and]
  rintro s (rfl | rfl | rfl | rfl) <;> simp only [Prod.mk.injEq] <;> omega

end Unrelated

/-! ### Properties of single rectangles -/

/-- `P` carries over to the rectangles that the operations make of two rectangles. -/
structure Preserved (P : Rect → Prop) : Prop where
  coalesced : ∀ {a b}, P a → P b → P (coalesced a b)
  cut : ∀ {a b o}, P a → P b → o ≠ .common →
    (NonOverlappingPortion.of a b).horizontalOverlap = true →
    (NonOverlappingPortion.of a b).verticalOverlap = true →
    ∀ r ∈ populate (.of a b) o, P r
  intersect : ∀ {r bounds s}, P r → P bounds → r.intersect bounds = some s → P s

lemma Preserved.true : Preserved fun _ => True := ⟨fun _ _ => trivial, by simp, by simp⟩

lemma Preserved.nonempty : Preserved Rect.Nonempty where
  coalesced := by
    intro a b ⟨ha1, ha2⟩ ⟨hb1, hb2⟩
    simp only [Drawing.coalesced, NonOverlappingPortion.topPortion,
      NonOverlappingPortion.bottomPortion, NonOverlappingPortion.leftPortion,
      NonOverlappingPortion.rightPortion]
    split_ifs <;> simp only [Rect.Nonempty, NonOverlappingPortion.of, lowSide_outer,
      highSide_outer] <;> omega
  cut ha hb ho hh hv := populate_nonempty ha hb hh hv ho
  intersect := by
    intro r bounds s ⟨hr1, hr2⟩ ⟨hb1, hb2⟩ h
    unfold Rect.intersect at h
    split_ifs at h with hc
    rw [Option.some.injEq] at h
    subst h
    simp only [Rect.Nonempty]
    omega

/-! ### The operations keep the invariant -/

variable {P : Rect → Prop}

lemma WellFormed.nil : WellFormed P [] := ⟨List.Pairwise.nil, by simp⟩

lemma WellFormed.sublist {l l' : List Rect} (h : WellFormed P l) (hs : l'.Sublist l) :
    WellFormed P l' :=
  ⟨h.pairwise.sublist hs, fun r hr => h.all r (hs.subset hr)⟩

/-- A rectangle unrelated to every entry may be appended. -/
lemma WellFormed.append {l : List Rect} {r : Rect} (h : WellFormed P l) (hr : P r)
    (hun : ∀ e ∈ l, Unrelated e r) : WellFormed P (l ++ [r]) := by
  refine ⟨?_, ?_⟩
  · rw [List.pairwise_append]
    exact ⟨h.pairwise, List.pairwise_singleton _ _, fun e he s hs => by
      rw [List.mem_singleton] at hs; exact hs ▸ hun e he⟩
  · intro s hs
    rcases List.mem_append.mp hs with hs | hs
    · exact h.all s hs
    · rw [List.mem_singleton] at hs; exact hs ▸ hr

/-- What `recursiveAdd` has compared so far is unrelated to the rectangle it adds. -/
def ComparedBelow (list : List Rect) (toAdd : Rect) (level : ℕ) : Prop :=
  ∀ i e, i < level → list[i]? = some e → Unrelated e toAdd

lemma ComparedBelow.zero (list : List Rect) (toAdd : Rect) : ComparedBelow list toAdd 0 :=
  fun _ _ hi => absurd hi (Nat.not_lt_zero _)

lemma ComparedBelow.succ {list : List Rect} {toAdd thisRect : Rect} {level : ℕ}
    (h : ComparedBelow list toAdd level) (hthis : list[level]? = some thisRect)
    (hun : Unrelated thisRect toAdd) : ComparedBelow list toAdd (level + 1) := by
  intro i e hi he
  rcases Nat.lt_succ_iff_lt_or_eq.mp hi with hi | rfl
  · exact h i e hi he
  · rw [hthis, Option.some.injEq] at he
    exact he ▸ hun

lemma ComparedBelow.eraseIdx {list : List Rect} {toAdd : Rect} {level : ℕ}
    (h : ComparedBelow list toAdd level) : ComparedBelow (list.eraseIdx level) toAdd level := by
  intro i e hi he
  rw [List.getElem?_eraseIdx_of_lt hi] at he
  exact h i e hi he

/-- Adding a rectangle keeps the invariant, however often it is merged and cut. -/
theorem recursiveAdd_wellFormed (hP : Preserved P) {fuel : ℕ} {list list' : List Rect}
    {toAdd : Rect} {level : ℕ} (h : WellFormed P list) (hr : P toAdd)
    (hlt : ComparedBelow list toAdd level) (hadd : recursiveAdd fuel list toAdd level = some list') :
    WellFormed P list' := by
  induction fuel generalizing list list' toAdd level with
  | zero => simp [recursiveAdd] at hadd
  | succ fuel ih =>
    rw [recursiveAdd] at hadd
    have hsub := List.eraseIdx_sublist list level
    split at hadd
    next hend =>
      rw [List.getElem?_eq_none_iff] at hend
      rw [Option.some.injEq] at hadd
      subst hadd
      refine h.append hr fun e he => ?_
      obtain ⟨i, hi, rfl⟩ := List.getElem_of_mem he
      exact hlt i _ (hi.trans_le hend) (List.getElem?_eq_getElem hi)
    next thisRect hthis =>
      have hthisP := h.all thisRect (List.mem_of_getElem? hthis)
      split at hadd
      next hov => exact ih h hr (hlt.succ hthis hov) hadd
      next => exact Option.some.inj hadd ▸ h
      next => exact Option.some.inj hadd ▸ h
      next => exact ih (h.sublist hsub) hr hlt.eraseIdx hadd
      next => exact ih (h.sublist hsub) (hP.coalesced hthisP hr) (.zero _ _) hadd
      next hov =>
        obtain ⟨hh, hv⟩ := overlap_eq_partialOverlap hov
        exact Lib.run_invariant_of_args (P := P) (fun l r l' hl hr' => ih hl hr' (.zero _ _)) h
          (hP.cut hthisP hr Owner.noConfusion hh hv) hadd

lemma addAll_wellFormed (hP : Preserved P) {fuel : ℕ} {list rects list' : List Rect}
    (h : WellFormed P list) (hall : ∀ r ∈ rects, P r) (hadd : addAll fuel list rects = some list') :
    WellFormed P list' :=
  Lib.run_invariant_of_args (P := P)
    (fun _ _ _ hl hr => recursiveAdd_wellFormed hP hl hr (.zero _ _)) h hall hadd

namespace RectList

/-- What the scan of `subtract` leaves behind, wherever it ends. -/
def Scan.WellFormed (P : Rect → Prop) : Scan → Prop
  | .returned list => Drawing.WellFormed P list
  | .finished list newList => Drawing.WellFormed P list ∧ ∀ r ∈ newList, P r

/-- The scan takes rectangles out of the list and collects pieces of them. -/
lemma scan_wellFormed (hP : Preserved P) {toSubtract : Rect} (hs : P toSubtract)
    {kept rest newList : List Rect} (h : WellFormed P (kept ++ rest)) (hnew : ∀ r ∈ newList, P r) :
    (scan toSubtract kept rest newList).WellFormed P := by
  induction rest generalizing kept newList with
  | nil =>
    rw [List.append_nil] at h
    exact ⟨h, hnew⟩
  | cons rect rest ih =>
    have hrect := h.all rect (by simp)
    have hdrop : WellFormed P (kept ++ rest) :=
      h.sublist ((List.sublist_cons_self rect rest).append_left kept)
    have hkeep : (scan toSubtract (kept ++ [rect]) rest newList).WellFormed P :=
      ih (by rwa [List.append_assoc, List.singleton_append]) hnew
    have hcut (hh : (NonOverlappingPortion.of rect toSubtract).horizontalOverlap = true)
        (hv : (NonOverlappingPortion.of rect toSubtract).verticalOverlap = true) :
        (scan toSubtract kept rest
          (newList ++ populate (.of rect toSubtract) .r1)).WellFormed P := by
      refine ih hdrop fun r hr => ?_
      rcases List.mem_append.mp hr with hr | hr
      · exact hnew r hr
      · exact hP.cut hrect hs (by decide) hh hv r hr
    rw [scan]
    split
    next => exact hdrop
    next => exact ih hdrop hnew
    next => exact hkeep
    next =>
      split_ifs with hno
      · exact hkeep
      · push Not at hno
        exact hcut hno.2 hno.1
    next hov =>
      obtain ⟨⟨hh, hv⟩, -⟩ := overlap_eq_contains hov
      exact hcut hh hv
    next hov =>
      obtain ⟨hh, hv⟩ := overlap_eq_partialOverlap hov
      exact hcut hh hv

/-- Every operation keeps the invariant. -/
theorem step_wellFormed (hP : Preserved P) {fuel : ℕ} {list list' : List Rect} {op : Op}
    (h : WellFormed P list) (hop : P op.rect) (hstep : step fuel list op = some list') :
    WellFormed P list' := by
  cases op with
  | add r => exact recursiveAdd_wellFormed hP h hop (.zero _ _) hstep
  | subtract r =>
    simp only [step, subtract] at hstep
    have hscan : (scan r [] list []).WellFormed P := scan_wellFormed hP hop h (by simp)
    split at hstep
    next l hl =>
      rw [hl] at hscan
      exact Option.some.inj hstep ▸ hscan
    next l new hl =>
      rw [hl] at hscan
      exact addAll_wellFormed hP hscan.1 hscan.2 hstep
  | intersect r =>
    refine addAll_wellFormed hP .nil (fun s hs => ?_) hstep
    obtain ⟨e, he, hes⟩ := List.mem_filterMap.mp hs
    exact hP.intersect (h.all e he) hop hes

/-- The promise of the class comment, in terms of points and sides. -/
theorem operations_keep_promise (fuel : ℕ) (ops : List Op) (hops : ∀ op ∈ ops, op.rect.Nonempty)
    (list : List Rect) (hrun : Lib.run (step fuel) [] ops = some list) :
    list.Pairwise (fun a b => Disjoint a.interior b.interior ∧ ¬ a.SharesSide b) ∧
      ∀ r ∈ list, r.Nonempty := by
  have h : WellFormed Rect.Nonempty list :=
    Lib.run_invariant_of_args (P := fun op : Op => op.rect.Nonempty)
      (fun _ _ _ hl hop => step_wellFormed .nonempty hl hop) .nil hops hrun
  refine ⟨?_, h.all⟩
  refine h.pairwise.imp_of_mem fun ha hb hun => ⟨?_, ?_⟩
  · exact hun.disjoint_interior (h.all _ ha) (h.all _ hb)
  · exact hun.not_sharesSide (h.all _ ha) (h.all _ hb)

/-- Two rectangles that cross, a cut out of their middle and a clip. -/
theorem operations_keep_promise_cross :
    [Rect.mk 5 10 8 12, ⟨1, 3, 9, 10⟩, ⟨1, 0, 2, 3⟩].Pairwise
        (fun a b => Disjoint a.interior b.interior ∧ ¬ a.SharesSide b) ∧
      ∀ r ∈ [Rect.mk 5 10 8 12, ⟨1, 3, 9, 10⟩, ⟨1, 0, 2, 3⟩], r.Nonempty :=
  operations_keep_promise 20 [.add ⟨0, 0, 10, 10⟩, .add ⟨5, -5, 8, 15⟩, .subtract ⟨2, -7, 20, 3⟩,
    .intersect ⟨1, -2, 9, 12⟩] (by decide) _ (by decide)

end RectList

end Limbo.Drawing
