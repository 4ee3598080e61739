import Limbo.Drawing.Invariant

/-!
# The region of a `RectList`

A list of rectangles stands for the set of points it covers, and the three operations are meant as
union, difference and intersection. Three branches of the code lose points: a rectangle that
contains an entry is dropped (`CONTAINS`), an entry that contains the rectangle is dropped
(`CONTAINED_BY`), and a cut drops the portion to the right (`Populate`). `AddSafe`, `CutSafe` and
`Op.Safe` say that none of them is taken; then each operation does what it is meant to do.
-/

namespace Limbo.Drawing

open RectList

/-- The points a list of rectangles covers. -/
def cover (list : List Rect) : Set (ℤ × ℤ) := {q | ∃ r ∈ list, q ∈ r.cells}

@[simp] lemma mem_cover {list : List Rect} {q : ℤ × ℤ} :
    q ∈ cover list ↔ ∃ r ∈ list, q ∈ r.cells := Iff.rfl

@[simp] lemma cover_nil : cover [] = ∅ := by
  ext q; simp

@[simp] lemma cover_cons {r : Rect} {list : List Rect} :
    cover (r :: list) = r.cells ∪ cover list := by
  ext q; simp [-Rect.mem_cells]

@[simp] lemma cover_append {l1 l2 : List Rect} : cover (l1 ++ l2) = cover l1 ∪ cover l2 := by
  ext q; simp [-Rect.mem_cells, or_and_right, exists_or]

/-- An entry and the list without it. -/
lemma cover_eraseIdx {list : List Rect} {level : ℕ} {r : Rect} (h : list[level]? = some r) :
    cover (list.eraseIdx level) ∪ r.cells = cover list := by
  obtain ⟨hlt, rfl⟩ := List.getElem?_eq_some_iff.mp h
  conv_rhs => rw [← List.take_append_drop level list, List.drop_eq_getElem_cons hlt]
  rw [List.eraseIdx_eq_take_drop_succ, cover_append, cover_append, cover_cons, Set.union_assoc,
    Set.union_comm (cover _) list[level].cells]

/-- What the operations are meant to do with the region. -/
def RectList.Op.denote (region : Set (ℤ × ℤ)) : Op → Set (ℤ × ℤ)
  | .add r => region ∪ r.cells
  | .subtract r => region \ r.cells
  | .intersect r => region ∩ r.cells

/-! ### The pieces of two rectangles -/

section Pieces

variable {r1 r2 : Rect}

lemma axis_union {lo1 hi1 lo2 hi2 : ℤ}
    (h : ((lowSide lo1 hi1 lo2 hi2).overlap || (highSide lo1 hi1 lo2 hi2).overlap) = true ∨
      ((lowSide lo1 hi1 lo2 hi2).adjacent || (highSide lo1 hi1 lo2 hi2).adjacent) = true) (x : ℤ) :
    min lo1 lo2 ≤ x ∧ x < max hi1 hi2 ↔ (lo1 ≤ x ∧ x < hi1) ∨ (lo2 ≤ x ∧ x < hi2) := by
  rw [axis_overlap, axis_adjacent] at h
  omega

lemma overlap_eq_coalescible (h : overlap r1 r2 = .coalescible) :
    let p := NonOverlappingPortion.of r1 r2
    (p.commonHorizontal ∧ (p.verticalOverlap || p.adjacentVertical) = true) ∨
      (¬ (p.commonHorizontal ∧ (p.verticalOverlap || p.adjacentVertical) = true) ∧
        p.commonVertical ∧ (p.horizontalOverlap || p.adjacentHorizontal) = true) := by
  unfold overlap at h
  dsimp only at h
  split_ifs at h <;> simp_all

/-- Coalescing neither adds nor loses a point. -/
lemma cells_coalesced (h : overlap r1 r2 = .coalescible) :
    (coalesced r1 r2).cells = r1.cells ∪ r2.cells := by
  ext q
  rw [Set.mem_union, Rect.mem_cells, Rect.mem_cells, Rect.mem_cells]
  unfold coalesced
  rcases overlap_eq_coalescible h with hc | ⟨hno, hc⟩
  · have hu := axis_union (Bool.or_eq_true _ _ ▸ hc.2) q.2
    obtain ⟨hl, hr⟩ := commonHorizontal_of.mp hc.1
    rw [if_pos hc]
    simp only [NonOverlappingPortion.topPortion, NonOverlappingPortion.bottomPortion,
      NonOverlappingPortion.of, lowSide_outer, highSide_outer]
    rw [hu, ← hl, ← hr, and_or_left]
  · have hu := axis_union (Bool.or_eq_true _ _ ▸ hc.2) q.1
    obtain ⟨ht, hb⟩ := commonVertical_of.mp hc.1
    rw [if_neg hno]
    simp only [NonOverlappingPortion.leftPortion, NonOverlappingPortion.rightPortion,
      NonOverlappingPortion.of, lowSide_outer, highSide_outer]
    rw [hu, ← ht, ← hb, or_and_right]

/-- A cut of the second rectangle loses no point of it unless it sticks out to the right. -/
lemma cover_populate_snd (h : overlap r1 r2 = .partialOverlap) (hr : r2.right ≤ r1.right) :
    r1.cells ∪ cover (populate (.of r1 r2) .r2) = r1.cells ∪ r2.cells := by
  obtain ⟨hh, hv⟩ := overlap_eq_partialOverlap h
  ext q
  exact mem_populate_snd hh hv hr q

lemma cover_populate_fst (hh : (NonOverlappingPortion.of r1 r2).horizontalOverlap = true)
    (hv : (NonOverlappingPortion.of r1 r2).verticalOverlap = true) (hr : r1.right ≤ r2.right) :
    cover (populate (.of r1 r2) .r1) = r1.cells \ r2.cells := by
  ext q
  exact mem_populate_fst hh hv hr q

/-- A rectangle is clipped to its points in the bounds. -/
lemma cells_intersect (r bounds : Rect) :
    cover (r.intersect bounds).toList = r.cells ∩ bounds.cells := by
  ext q
  rw [Set.mem_inter_iff, Rect.mem_cells, Rect.mem_cells]
  unfold Rect.intersect
  split_ifs <;> simp <;> omega

end Pieces

/-! ### Adding -/

/-- No call of `recursiveAdd` that adding a rectangle leads to takes a branch that loses points. -/
def AddSafe : ℕ → List Rect → Rect → ℕ → Prop
  | 0, _, _, _ => True
  | fuel + 1, list, toAdd, level =>
    match list[level]? with
    | none => True
    | some thisRect =>
      match overlap thisRect toAdd with
      | .none => AddSafe fuel list toAdd (level + 1)
      | .same => True
      | .contains => False
      | .containedBy => False
      | .coalescible => AddSafe fuel (list.eraseIdx level) (coalesced thisRect toAdd) 0
      | .partialOverlap =>
        toAdd.right ≤ thisRect.right ∧
          Lib.Guarded (fun l r => recursiveAdd fuel l r 0) (fun l r => AddSafe fuel l r 0) list
            (populate (.of thisRect toAdd) .r2)

instance AddSafe.decidable : (fuel : ℕ) → (list : List Rect) → (toAdd : Rect) → (level : ℕ) →
    Decidable (AddSafe fuel list toAdd level)
  | 0, _, _, _ => .isTrue trivial
  | fuel + 1, list, toAdd, level =>
    have ih := AddSafe.decidable fuel
    match h : list[level]? with
    | none => .isTrue (by simp [AddSafe, h])
    | some thisRect =>
      match hov : overlap thisRect toAdd with
      | .none => decidable_of_iff (AddSafe fuel list toAdd (level + 1)) (by simp [AddSafe, h, hov])
      | .same => .isTrue (by simp [AddSafe, h, hov])
      | .contains => .isFalse (by simp [AddSafe, h, hov])
      | .containedBy => .isFalse (by simp [AddSafe, h, hov])
      | .coalescible =>
        decidable_of_iff (AddSafe fuel (list.eraseIdx level) (coalesced thisRect toAdd) 0)
          (by simp [AddSafe, h, hov])
      | .partialOverlap =>
        decidable_of_iff (toAdd.right ≤ thisRect.right ∧
          Lib.Guarded (fun l r => recursiveAdd fuel l r 0) (fun l r => AddSafe fuel l r 0) list
            (populate (.of thisRect toAdd) .r2)) (by simp [AddSafe, h, hov])

/-- The same for a list of rectangles that are added one after the other. -/
def AddAllSafe (fuel : ℕ) (list rects : List Rect) : Prop :=
  Lib.Guarded (fun l r => recursiveAdd fuel l r 0) (fun l r => AddSafe fuel l r 0) list rects

instance (fuel : ℕ) (list rects : List Rect) : Decidable (AddAllSafe fuel list rects) :=
  inferInstanceAs (Decidable (Lib.Guarded _ _ _ _))

/-- Adding rectangle after rectangle, once each of them is added as a union, adds their cover. -/
lemma cover_run {f : List Rect → Rect → Option (List Rect)} {ok : List Rect → Rect → Prop}
    (hf : ∀ l r l', ok l r → f l r = some l' → cover l' = cover l ∪ r.cells)
    {list rects list' : List Rect} (hok : Lib.Guarded f ok list rects)
    (h : Lib.run f list rects = some list') : cover list' = cover list ∪ cover rects := by
  have hfold (region : Set (ℤ × ℤ)) :
      rects.foldl (fun s r => s ∪ r.cells) region = region ∪ cover rects := by
    clear hok h
    induction rects generalizing region with
    | nil => simp
    | cons r rects ih => rw [List.foldl_cons, ih, cover_cons, Set.union_assoc]
  rw [← hfold]
  exact Lib.run_simulates (I := fun _ => True) (fun _ _ _ _ _ => trivial)
    (fun l r l' _ => hf l r l') trivial hok h

/-- A safe addition is a union. -/
theorem cover_recursiveAdd {fuel : ℕ} {list list' : List Rect} {toAdd : Rect} {level : ℕ}
    (hsafe : AddSafe fuel list toAdd level)
    (hadd : recursiveAdd fuel list toAdd level = some list') :
    cover list' = cover list ∪ toAdd.cells := by
  induction fuel generalizing list list' toAdd level with
  | zero => simp [recursiveAdd] at hadd
  | succ fuel ih =>
    rw [recursiveAdd] at hadd
    rw [AddSafe] at hsafe
    split at hadd
    next =>
      rw [← Option.some.inj hadd, cover_append, cover_cons, cover_nil, Set.union_empty]
    next thisRect hthis =>
      have herase := cover_eraseIdx hthis
      split at hadd <;> simp only [*] at hsafe
      next => exact ih hsafe hadd
      next hov =>
        rw [← Option.some.inj hadd, ← herase, ← eq_of_overlap_same hov, Set.union_assoc,
          Set.union_self]
      next hov =>
        rw [ih hsafe hadd, cells_coalesced hov, ← herase, Set.union_assoc]
      next hov =>
        have hcut := cover_populate_snd hov hsafe.1
        rw [cover_run (fun l r l' => ih) hsafe.2 hadd, ← herase, Set.union_assoc, hcut,
          Set.union_assoc]

lemma cover_addAll {fuel : ℕ} {list rects list' : List Rect} (hsafe : AddAllSafe fuel list rects)
    (hadd : addAll fuel list rects = some list') : cover list' = cover list ∪ cover rects :=
  cover_run (fun _ _ _ => cover_recursiveAdd) hsafe hadd

namespace RectList

/-! ### Subtracting and clipping -/

/-- The scan of `subtract` loses no point of an entry: it does not remove it as a whole for a
rectangle inside it, and where it cuts it, it does not stick out to the right. -/
def CutSafe (toSubtract e : Rect) : Prop :=
  match overlap e toSubtract with
  | .containedBy => False
  | .coalescible =>
    (¬ (NonOverlappingPortion.of e toSubtract).verticalOverlap ∨
      ¬ (NonOverlappingPortion.of e toSubtract).horizontalOverlap) ∨ e.right ≤ toSubtract.right
  | .partialOverlap => e.right ≤ toSubtract.right
  | .none | .same | .contains => True

instance (toSubtract e : Rect) : Decidable (CutSafe toSubtract e) := by
  unfold CutSafe; cases overlap e toSubtract <;> dsimp only <;> infer_instance

/-- Rectangles that do not overlap on both axes have no point in common. -/
lemma sdiff_cells_of_not_overlap {a b : Rect}
    (h : ¬ (NonOverlappingPortion.of a b).verticalOverlap ∨
      ¬ (NonOverlappingPortion.of a b).horizontalOverlap) : a.cells \ b.cells = a.cells := by
  refine sdiff_eq_left.mpr (Set.disjoint_left.mpr fun q h1 h2 => ?_)
  obtain ⟨hh, hv⟩ := overlaps_of_mem h1 h2
  rcases h with h | h
  · exact h hv
  · exact h hh

/-- A safe scan that meets no equal rectangle keeps exactly the points outside the rectangle, in
the entries that stay and in the pieces. -/
lemma cover_scan {toSubtract : Rect} {rest : List Rect} (hsafe : ∀ e ∈ rest, CutSafe toSubtract e)
    (hne : toSubtract ∉ rest) (kept newList : List Rect) :
    ∃ l n, scan toSubtract kept rest newList = .finished l n ∧
      cover l ∪ cover n = cover kept ∪ cover newList ∪ (cover rest \ toSubtract.cells) := by
  induction rest generalizing kept newList with
  | nil => exact ⟨kept, newList, rfl, by simp⟩
  | cons rect rest ih =>
    have hrect := hsafe rect List.mem_cons_self
    have hsafe' : ∀ e ∈ rest, CutSafe toSubtract e := fun e he =>
      hsafe e (List.mem_cons_of_mem _ he)
    have hne' : toSubtract ∉ rest := fun h => hne (List.mem_cons_of_mem _ h)
    have hkeep (hdis : rect.cells \ toSubtract.cells = rect.cells) :
        ∃ l n, scan toSubtract (kept ++ [rect]) rest newList = .finished l n ∧
          cover l ∪ cover n =
            cover kept ∪ cover newList ∪ (cover (rect :: rest) \ toSubtract.cells) := by
      obtain ⟨l, n, hs, hc⟩ := ih hsafe' hne' (kept ++ [rect]) newList
      refine ⟨l, n, hs, hc.trans ?_⟩
      rw [cover_append, cover_cons, cover_cons, cover_nil, Set.union_sdiff_distrib, hdis,
        Set.union_empty]
      ac_rfl
    have hcut (hh : (NonOverlappingPortion.of rect toSubtract).horizontalOverlap = true)
        (hv : (NonOverlappingPortion.of rect toSubtract).verticalOverlap = true)
        (hr : rect.right ≤ toSubtract.right) :
        ∃ l n, scan toSubtract kept rest (newList ++ populate (.of rect toSubtract) .r1) =
            .finished l n ∧
          cover l ∪ cover n =
            cover kept ∪ cover newList ∪ (cover (rect :: rest) \ toSubtract.cells) := by
      obtain ⟨l, n, hs, hc⟩ := ih hsafe' hne' kept
        (newList ++ populate (.of rect toSubtract) .r1)
      refine ⟨l, n, hs, hc.trans ?_⟩
      rw [cover_append, cover_cons, Set.union_sdiff_distrib, cover_populate_fst hh hv hr]
      ac_rfl
    rw [scan]
    unfold CutSafe at hrect
    split <;> simp only [*] at hrect
    next hov => exact absurd (eq_of_overlap_same hov ▸ List.mem_cons_self) hne
    next hov => exact hkeep (sdiff_eq_left.mpr (disjoint_of_overlap_none hov))
    next hov =>
      split_ifs with hno
      · exact hkeep (sdiff_cells_of_not_overlap hno)
      · push Not at hno
        exact hcut hno.2 hno.1 (hrect.resolve_left (by simp [hno.1, hno.2]))
    next hov =>
      obtain ⟨⟨hh, hv⟩, ho⟩ := overlap_eq_contains hov
      rw [owns_r1_of] at ho
      exact hcut hh hv (by omega)
    next hov =>
      obtain ⟨hh, hv⟩ := overlap_eq_partialOverlap hov
      exact hcut hh hv hrect

/-- Unrelated entries stay in the list. -/
lemma scan_append_of_unrelated {toSubtract : Rect} {front : List Rect}
    (hfront : ∀ e ∈ front, Unrelated e toSubtract) (kept rest newList : List Rect) :
    scan toSubtract kept (front ++ rest) newList =
      scan toSubtract (kept ++ front) rest newList := by
  induction front generalizing kept with
  | nil => simp
  | cons e front ih =>
    rw [List.cons_append, scan, hfront e List.mem_cons_self]
    dsimp only
    rw [ih (fun a ha => hfront a (List.mem_cons_of_mem _ ha)), List.append_assoc,
      List.singleton_append]

lemma overlap_self (r : Rect) : overlap r r = .same := by
  unfold overlap
  exact if_pos ⟨commonHorizontal_of.mpr ⟨rfl, rfl⟩, commonVertical_of.mpr ⟨rfl, rfl⟩⟩

/-- An entry equal to the rectangle is removed; no other entry has a point of it. -/
lemma cover_scan_of_mem {toSubtract : Rect} {list : List Rect} (h : list.Pairwise Unrelated)
    (hmem : toSubtract ∈ list) :
    ∃ l, scan toSubtract [] list [] = .returned l ∧ cover l = cover list \ toSubtract.cells := by
  obtain ⟨front, back, rfl⟩ := List.append_of_mem hmem
  obtain ⟨-, hback, hfront⟩ := List.pairwise_append.mp h
  have hfront' : ∀ e ∈ front, Unrelated e toSubtract := fun e he =>
    hfront e he toSubtract List.mem_cons_self
  have hback' : ∀ e ∈ back, Unrelated toSubtract e := (List.pairwise_cons.mp hback).1
  refine ⟨front ++ back, ?_, ?_⟩
  · rw [scan_append_of_unrelated hfront', scan, overlap_self, List.nil_append]
  · have hdis : Disjoint (cover front ∪ cover back) toSubtract.cells := by
      rw [Set.disjoint_left]
      rintro q (⟨e, he, hq⟩ | ⟨e, he, hq⟩) hq'
      · exact Set.disjoint_left.mp (disjoint_of_overlap_none (hfront' e he)) hq hq'
      · exact Set.disjoint_left.mp (disjoint_of_overlap_none (hback' e he)) hq' hq
    rw [cover_append, cover_append, cover_cons, Set.union_left_comm, Set.union_sdiff_left,
      sdiff_eq_left.mpr hdis]

/-- Subtracting takes no branch that loses points. An entry equal to the rectangle ends the scan
before anything is cut. -/
def SubtractSafe (fuel : ℕ) (list : List Rect) (toSubtract : Rect) : Prop :=
  toSubtract ∈ list ∨ (∀ e ∈ list, CutSafe toSubtract e) ∧
    match scan toSubtract [] list [] with
    | .returned _ => True
    | .finished list newList => AddAllSafe fuel list newList

instance (fuel : ℕ) (list : List Rect) (toSubtract : Rect) :
    Decidable (SubtractSafe fuel list toSubtract) :=
  have : Decidable (match scan toSubtract [] list [] with
    | .returned _ => True
    | .finished list newList => AddAllSafe fuel list newList) :=
    match scan toSubtract [] list [] with
    | .returned _ => .isTrue trivial
    | .finished list newList => inferInstanceAs (Decidable (AddAllSafe fuel list newList))
  inferInstanceAs (Decidable (_ ∨ _ ∧ _))

/-- A call takes no branch that loses points. -/
def Op.Safe (fuel : ℕ) (list : List Rect) : Op → Prop
  | .add r => AddSafe fuel list r 0
  | .subtract r => SubtractSafe fuel list r
  | .intersect r => AddAllSafe fuel [] (list.filterMap (·.intersect r))

instance (fuel : ℕ) (list : List Rect) : (op : Op) → Decidable (op.Safe fuel list)
  | .add _ => inferInstanceAs (Decidable (AddSafe _ _ _ _))
  | .subtract _ => inferInstanceAs (Decidable (SubtractSafe _ _ _))
  | .intersect _ => inferInstanceAs (Decidable (AddAllSafe _ _ _))

lemma cover_subtract {fuel : ℕ} {list list' : List Rect} {toSubtract : Rect}
    (h : list.Pairwise Unrelated) (hsafe : SubtractSafe fuel list toSubtract)
    (hsub : subtract fuel list toSubtract = some list') :
    cover list' = cover list \ toSubtract.cells := by
  unfold subtract at hsub
  by_cases hmem : toSubtract ∈ list
  · obtain ⟨l, hscan, hc⟩ := cover_scan_of_mem h hmem
    rw [hscan] at hsub
    rw [← Option.some.inj hsub, hc]
  · obtain ⟨hcut, hadd⟩ := hsafe.resolve_left hmem
    obtain ⟨l, n, hscan, hc⟩ := cover_scan hcut hmem [] []
    rw [hscan] at hsub hadd
    rw [cover_addAll hadd hsub, hc, cover_nil, Set.union_empty, Set.empty_union]

lemma cover_clipped (list : List Rect) (bounds : Rect) :
    cover (list.filterMap (·.intersect bounds)) = cover list ∩ bounds.cells := by
  induction list with
  | nil => simp
  | cons r list ih =>
    have hr := cells_intersect r bounds
    rw [cover_cons, Set.union_inter_distrib_right, ← ih, ← hr]
    cases hi : r.intersect bounds <;> simp [hi]

/-- A safe call is the union, the difference or the intersection it is meant to be. -/
theorem cover_step {fuel : ℕ} {list list' : List Rect} {op : Op} (h : list.Pairwise Unrelated)
    (hsafe : op.Safe fuel list) (hstep : step fuel list op = some list') :
    cover list' = op.denote (cover list) := by
  cases op with
  | add r => exact cover_recursiveAdd hsafe hstep
  | subtract r => exact cover_subtract h hsafe hstep
  | intersect r =>
    rw [cover_addAll hsafe hstep, cover_clipped, cover_nil, Set.empty_union]
    rfl

/-- A list built by calls that are all safe covers the region that unions, differences and
intersections make of the empty set. -/
theorem operations_cover (fuel : ℕ) (ops : List Op)
    (hsafe : Lib.Guarded (step fuel) (fun list op => op.Safe fuel list) [] ops) (list : List Rect)
    (hrun : Lib.run (step fuel) [] ops = some list) : cover list = ops.foldl Op.denote ∅ := by
  have hkeep (l : List Rect) (op : Op) (l' : List Rect) (hl : WellFormed (fun _ => True) l)
      (hs : step fuel l op = some l') : WellFormed (fun _ => True) l' :=
    step_wellFormed .true hl trivial hs
  rw [← cover_nil]
  exact Lib.run_simulates hkeep (fun l op l' hl => cover_step hl.pairwise) .nil hsafe hrun

/-- Two rectangles that cross, a cut and a clip, none of which loses a point. -/
theorem operations_cover_cross :
    cover [⟨5, 10, 8, 12⟩, ⟨1, 3, 9, 10⟩, ⟨1, 0, 2, 3⟩] =
      [Op.add ⟨0, 0, 10, 10⟩, .add ⟨5, -5, 8, 15⟩, .subtract ⟨2, -7, 20, 3⟩,
        .intersect ⟨1, -2, 9, 12⟩].foldl Op.denote ∅ :=
  operations_cover 20 _ (by decide) _ (by decide)

/-- A rectangle inside an entry replaces it. -/
theorem add_inside_loses :
    Lib.run (step 20) [] [.add ⟨0, 0, 10, 10⟩, .add ⟨2, 2, 5, 5⟩] = some [⟨2, 2, 5, 5⟩] ∧
      cover [⟨2, 2, 5, 5⟩] ≠
        [Op.add ⟨0, 0, 10, 10⟩, .add ⟨2, 2, 5, 5⟩].foldl Op.denote ∅ := by
  refine ⟨by decide, fun h => ?_⟩
  have hq : ((0, 0) : ℤ × ℤ) ∈ cover [⟨2, 2, 5, 5⟩] := by
    rw [h]
    exact .inl (.inr (by simp))
  simp at hq

/-! ### Calls that are always safe -/

/-- Non-empty rectangles that overlap on both axes have a point in common. -/
lemma exists_mem_of_overlaps {a b : Rect} (ha : a.Nonempty) (hb : b.Nonempty)
    (hh : (NonOverlappingPortion.of a b).horizontalOverlap = true)
    (hv : (NonOverlappingPortion.of a b).verticalOverlap = true) : ¬ Disjoint a.cells b.cells := by
  have hx := axis_overlap.mp hh
  have hy := axis_overlap.mp hv
  have ha' := ha
  have hb' := hb
  simp only [Rect.Nonempty] at ha' hb'
  refine Set.not_disjoint_iff.mpr ⟨(max a.left b.left, max a.top b.top), ?_, ?_⟩ <;>
    rw [Rect.mem_cells] <;> dsimp only <;> omega

lemma disjoint_eraseIdx {list : List Rect} {level : ℕ} {r : Rect} (h : list.Pairwise Unrelated)
    (hr : list[level]? = some r) : Disjoint (cover (list.eraseIdx level)) r.cells := by
  obtain ⟨hlt, rfl⟩ := List.getElem?_eq_some_iff.mp hr
  rw [← List.take_append_drop level list, List.drop_eq_getElem_cons hlt] at h
  obtain ⟨-, hback, hfront⟩ := List.pairwise_append.mp h
  rw [List.eraseIdx_eq_take_drop_succ, cover_append, Set.disjoint_union_left]
  refine ⟨Set.disjoint_left.mpr ?_, Set.disjoint_left.mpr ?_⟩
  · rintro q ⟨e, he, hq⟩ hq'
    have hun := hfront e he _ List.mem_cons_self
    exact Set.disjoint_left.mp (disjoint_of_overlap_none hun) hq hq'
  · rintro q ⟨e, he, hq⟩ hq'
    have hun := (List.pairwise_cons.mp hback).1 e he
    exact Set.disjoint_left.mp (disjoint_of_overlap_none hun) hq' hq

/-- A rectangle that shares no point with the entries is only merged, never cut or dropped. -/
lemma addSafe_of_disjoint {fuel : ℕ} {list : List Rect} {toAdd : Rect} {level : ℕ}
    (h : WellFormed Rect.Nonempty list) (hr : toAdd.Nonempty)
    (hdis : Disjoint (cover list) toAdd.cells) : AddSafe fuel list toAdd level := by
  induction fuel generalizing list toAdd level with
  | zero => trivial
  | succ fuel ih =>
    rw [AddSafe]
    split
    next => trivial
    next thisRect hthis =>
      have hmem := List.mem_of_getElem? hthis
      have hthisDis : Disjoint thisRect.cells toAdd.cells :=
        hdis.mono_left (cover_eraseIdx hthis ▸ Set.subset_union_right)
      have hapart (hh : (NonOverlappingPortion.of thisRect toAdd).horizontalOverlap = true)
          (hv : (NonOverlappingPortion.of thisRect toAdd).verticalOverlap = true) : False :=
        exists_mem_of_overlaps (h.all _ hmem) hr hh hv hthisDis
      split
      next => exact ih h hr hdis
      next => trivial
      next hov => exact hapart (overlap_eq_contains hov).1.1 (overlap_eq_contains hov).1.2
      next hov => exact hapart (overlap_eq_containedBy hov).1 (overlap_eq_containedBy hov).2
      next hov =>
        refine ih (h.sublist (List.eraseIdx_sublist _ _))
          (Preserved.nonempty.coalesced (h.all _ hmem) hr) ?_
        rw [cells_coalesced hov, Set.disjoint_union_right]
        exact ⟨disjoint_eraseIdx h.pairwise hthis,
          hdis.mono_left (cover_eraseIdx hthis ▸ Set.subset_union_left)⟩
      next hov =>
        exact (hapart (overlap_eq_partialOverlap hov).1 (overlap_eq_partialOverlap hov).2).elim

/-- Disjoint rectangles can be added one after the other. -/
lemma addAllSafe_of_disjoint {fuel : ℕ} {list rects : List Rect}
    (h : WellFormed Rect.Nonempty list) (hne : ∀ r ∈ rects, r.Nonempty)
    (hpair : rects.Pairwise fun a b => Disjoint a.cells b.cells)
    (hdis : Disjoint (cover list) (cover rects)) : AddAllSafe fuel list rects := by
  induction rects generalizing list with
  | nil => trivial
  | cons r rects ih =>
    obtain ⟨hr, hpair'⟩ := List.pairwise_cons.mp hpair
    rw [cover_cons, Set.disjoint_union_right] at hdis
    have hrNe := hne r List.mem_cons_self
    have hsafe : AddSafe fuel list r 0 := addSafe_of_disjoint h hrNe hdis.1
    refine ⟨hsafe, fun list' hadd => ?_⟩
    refine ih (recursiveAdd_wellFormed .nonempty h hrNe (.zero _ _) hadd)
      (fun s hs => hne s (List.mem_cons_of_mem _ hs)) hpair' ?_
    rw [cover_recursiveAdd hsafe hadd, Set.disjoint_union_left]
    refine ⟨hdis.2, Set.disjoint_left.mpr ?_⟩
    rintro q hq ⟨s, hs, hq'⟩
    exact Set.disjoint_left.mp (hr s hs) hq hq'

/-- `intersect` never loses a point. -/
theorem intersect_safe (fuel : ℕ) {list : List Rect} (h : WellFormed Rect.Nonempty list)
    {bounds : Rect} (hb : bounds.Nonempty) : (Op.intersect bounds).Safe fuel list := by
  have hsub {r s : Rect} (hs : r.intersect bounds = some s) : s.cells ⊆ r.cells := by
    have hc := cells_intersect r bounds
    rw [hs, Option.toList_some, cover_cons, cover_nil, Set.union_empty] at hc
    exact hc ▸ Set.inter_subset_left
  refine addAllSafe_of_disjoint .nil (fun s hs => ?_) ?_ (by simp)
  · obtain ⟨r, hr, hrs⟩ := List.mem_filterMap.mp hs
    exact Preserved.nonempty.intersect (h.all r hr) hb hrs
  · refine List.Pairwise.filterMap _ (fun a b hun a' ha' b' hb' => ?_) h.pairwise
    exact (disjoint_of_overlap_none hun).mono (hsub ha') (hsub hb')

end RectList

end Limbo.Drawing
