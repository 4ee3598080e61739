import Limbo.Drawing.Coverage

/-!
# `recursiveAdd` returns

A cut may put more points into the list of rectangles than there were: the bottom portion is added
twice. What the cuts use up are the points that the rectangle to add has in common with the entries.
The portions have fewer of them, but for the second bottom portion. All of its common points are
below the entry, so that the first row with a common point moves down.

A cut of an empty rectangle, or at an empty entry, need not use up anything. The portion may be the
rectangle itself.
-/

namespace Limbo.Drawing

open Relation

instance : DecidableRel Unrelated := fun _ _ => inferInstanceAs (Decidable (_ = _))

/-! ### Calls -/

/-- A call of `recursiveAdd`. -/
structure Call where
  list : List Rect
  toAdd : Rect
  level : ℕ

namespace Call

/-- The calls that a call makes. A portion is added to what the portions before it have left. -/
inductive Makes : Call → Call → Prop
  | next {list : List Rect} {toAdd thisRect : Rect} {level : ℕ} (hthis : list[level]? = some thisRect)
      (hov : overlap thisRect toAdd = .none) : Makes ⟨list, toAdd, level⟩ ⟨list, toAdd, level + 1⟩
  | containedBy {list : List Rect} {toAdd thisRect : Rect} {level : ℕ}
      (hthis : list[level]? = some thisRect) (hov : overlap thisRect toAdd = .containedBy) :
      Makes ⟨list, toAdd, level⟩ ⟨list.eraseIdx level, toAdd, level⟩
  | coalescible {list : List Rect} {toAdd thisRect : Rect} {level : ℕ}
      (hthis : list[level]? = some thisRect) (hov : overlap thisRect toAdd = .coalescible) :
      Makes ⟨list, toAdd, level⟩ ⟨list.eraseIdx level, coalesced thisRect toAdd, 0⟩
  | cut {list list' done rest : List Rect} {toAdd thisRect piece : Rect} {level fuel : ℕ}
      (hthis : list[level]? = some thisRect) (hov : overlap thisRect toAdd = .partialOverlap)
      (hsplit : populate (.of thisRect toAdd) .r2 = done ++ piece :: rest)
      (hdone : addAll fuel list done = some list') : Makes ⟨list, toAdd, level⟩ ⟨list', piece, 0⟩

/-- The call returns. -/
def Returns (c : Call) : Prop := ∃ fuel list, recursiveAdd fuel c.list c.toAdd c.level = some list

/-- Whatever a call leads to, a rectangle is cut only if it is not empty, and at an entry that is not
empty. -/
def CutsNonempty (c : Call) : Prop :=
  ∀ c', ReflTransGen Makes c c' → ∀ thisRect, c'.list[c'.level]? = some thisRect →
    overlap thisRect c'.toAdd = .partialOverlap → thisRect.Nonempty ∧ c'.toAdd.Nonempty

lemma CutsNonempty.of_makes {c c' : Call} (h : c.CutsNonempty) (hmakes : Makes c c') :
    c'.CutsNonempty := fun d hd => h d (.head hmakes hd)

end Call

lemma addAll_append {fuel : ℕ} {list list' rects rects' : List Rect}
    (h : addAll fuel list rects = some list') :
    addAll fuel list (rects ++ rects') = addAll fuel list' rects' := by
  unfold addAll Lib.run at h ⊢
  rw [List.foldlM_append, h]
  rfl

lemma addAll_mono {fuel fuel' : ℕ} (hle : fuel ≤ fuel') {list list' rects : List Rect}
    (h : addAll fuel list rects = some list') : addAll fuel' list rects = some list' :=
  Lib.run_mono (fun _ _ _ => RectList.recursiveAdd_mono hle) h

namespace Call

/-- The portions of a cut can be added one after the other once each of their calls returns. -/
lemma addAll_returns {c : Call} {thisRect : Rect} (hthis : c.list[c.level]? = some thisRect)
    (hov : overlap thisRect c.toAdd = .partialOverlap) (ih : ∀ c', Makes c c' → c'.Returns)
    (rest : List Rect) : ∀ (done list : List Rect) (fuel : ℕ),
      populate (.of thisRect c.toAdd) .r2 = done ++ rest → addAll fuel c.list done = some list →
      ∃ fuel' list', addAll fuel' c.list (done ++ rest) = some list' := by
  induction rest with
  | nil =>
    intro done list fuel _ hdone
    exact ⟨fuel, list, by rwa [List.append_nil]⟩
  | cons piece rest ihrest =>
    intro done list fuel hsplit hdone
    obtain ⟨fuel', list', hpiece⟩ := ih _ (.cut hthis hov hsplit hdone)
    have hstep : addAll (max fuel fuel') c.list (done ++ [piece]) = some list' := by
      rw [addAll_append (addAll_mono (le_max_left _ _) hdone)]
      exact Lib.run_cons.mpr ⟨list', RectList.recursiveAdd_mono (le_max_right _ _) hpiece, rfl⟩
    have hsplit' : populate (.of thisRect c.toAdd) .r2 = (done ++ [piece]) ++ rest := by
      rw [hsplit, List.append_assoc, List.singleton_append]
    obtain ⟨fuel'', list'', hrest⟩ := ihrest _ _ _ hsplit' hstep
    exact ⟨fuel'', list'', by rwa [List.append_assoc, List.singleton_append] at hrest⟩

/-- A call returns where no sequence of calls goes on forever. -/
lemma returns_of_acc {c : Call} (h : Acc (flip Makes) c) : c.Returns := by
  induction h with
  | intro c _ ih =>
    obtain ⟨list, toAdd, level⟩ := c
    have ih' : ∀ c', Makes ⟨list, toAdd, level⟩ c' → c'.Returns := ih
    cases hthis : list[level]? with
    | none => exact ⟨1, list ++ [toAdd], by simp [recursiveAdd, hthis]⟩
    | some thisRect =>
      cases hov : overlap thisRect toAdd with
      | none =>
        obtain ⟨fuel, list', hlist⟩ := ih' _ (.next hthis hov)
        exact ⟨fuel + 1, list', by simpa [recursiveAdd, hthis, hov] using hlist⟩
      | same => exact ⟨1, list, by simp [recursiveAdd, hthis, hov]⟩
      | contains => exact ⟨1, list, by simp [recursiveAdd, hthis, hov]⟩
      | containedBy =>
        obtain ⟨fuel, list', hlist⟩ := ih' _ (.containedBy hthis hov)
        exact ⟨fuel + 1, list', by simpa [recursiveAdd, hthis, hov] using hlist⟩
      | coalescible =>
        obtain ⟨fuel, list', hlist⟩ := ih' _ (.coalescible hthis hov)
        exact ⟨fuel + 1, list', by simpa [recursiveAdd, hthis, hov] using hlist⟩
      | partialOverlap =>
        obtain ⟨fuel, list', hlist⟩ :=
          addAll_returns (c := ⟨list, toAdd, level⟩) hthis hov ih' _ [] list 0 rfl rfl
        refine ⟨fuel + 1, list', ?_⟩
        rw [recursiveAdd]
        simp only [hthis, hov]
        exact hlist

end Call

/-! ### The portions of a cut -/

section Cut

variable {r1 r2 : Rect}

/-- What the second interval owns at a side is outside the first. -/
lemma axis_own_snd {lo1 hi1 lo2 hi2 x : ℤ}
    (h : (lowSide lo1 hi1 lo2 hi2).Below .r2 x ∨ (highSide lo1 hi1 lo2 hi2).Above .r2 x) :
    ¬ (lo1 ≤ x ∧ x < hi1) := by
  revert h
  unfold Side.Below Side.Above lowSide highSide
  split_ifs <;> simp <;> omega

/-- The portions of a cut are in the second rectangle and outside the first. -/
lemma cells_populate_snd (hov : overlap r1 r2 = .partialOverlap) {piece : Rect}
    (hp : piece ∈ populate (.of r1 r2) .r2) : piece.cells ⊆ r2.cells \ r1.cells := by
  obtain ⟨hh, hv⟩ := overlap_eq_partialOverlap hov
  intro q hq
  have hparts := mem_cells_populate.mp ⟨piece, hp, hq⟩
  rw [Set.mem_sdiff, Rect.mem_cells, Rect.mem_cells, axis_mem_snd hh q.1, axis_mem_snd hv q.2]
  rcases hparts with ⟨hb, hx⟩ | ⟨ht, hx⟩ | ⟨hl, hy⟩
  · exact ⟨⟨hx, .inr (.inr hb)⟩, fun h => axis_own_snd (.inr hb) h.2⟩
  · exact ⟨⟨hx, .inl ht⟩, fun h => axis_own_snd (.inl ht) h.2⟩
  · exact ⟨⟨.inl hl, .inr (.inl hy)⟩, fun h => axis_own_snd (.inl hl) h.1⟩

lemma disjoint_of_sides {a b : Rect}
    (h : a.right ≤ b.left ∨ b.right ≤ a.left ∨ a.bottom ≤ b.top ∨ b.bottom ≤ a.top) :
    Disjoint a.cells b.cells := by
  rw [Set.disjoint_left]
  intro q ha hb
  rw [Rect.mem_cells] at ha hb
  omega

lemma ownedPortion_sublist (owned : Prop) [Decidable owned] (r : Rect) :
    (ownedPortion owned r).Sublist [r] := by
  unfold ownedPortion
  split_ifs <;> simp

/-- The portions are apart from each other, but that the bottom portion comes twice. -/
lemma populate_pairwise (h1 : r1.Nonempty) (h2 : r2.Nonempty)
    (hov : overlap r1 r2 = .partialOverlap) :
    (populate (.of r1 r2) .r2).Pairwise fun p q =>
      Disjoint p.cells q.cells ∨ q = (NonOverlappingPortion.of r1 r2).bottomPortion := by
  obtain ⟨hh, hv⟩ := overlap_eq_partialOverlap hov
  have hx := (axis_parts h1.1 h2.1 hh).1
  have hy := (axis_parts h1.2 h2.2 hv).1
  generalize hp : NonOverlappingPortion.of r1 r2 = p
  have hx' : p.left.inner < p.right.inner := hp ▸ hx
  have hy' : p.top.inner < p.bottom.inner := hp ▸ hy
  have hsub : (populate p .r2).Sublist [p.bottomLeftPortion, p.bottomPortion, p.bottomRightPortion,
      p.bottomPortion, p.topRightPortion, p.topPortion, p.topLeftPortion, p.leftPortion] :=
    (((((((ownedPortion_sublist _ _).append (ownedPortion_sublist _ _)).append
      (ownedPortion_sublist _ _)).append (ownedPortion_sublist _ _)).append
      (ownedPortion_sublist _ _)).append (ownedPortion_sublist _ _)).append
      (ownedPortion_sublist _ _)).append (ownedPortion_sublist _ _)
  refine List.Pairwise.sublist hsub ?_
  have hsides {a b : Rect}
      (h : a.right ≤ b.left ∨ b.right ≤ a.left ∨ a.bottom ≤ b.top ∨ b.bottom ≤ a.top) :
      Disjoint a.cells b.cells ∨ b = p.bottomPortion := .inl (disjoint_of_sides h)
  simp only [List.pairwise_cons, List.forall_mem_cons, List.not_mem_nil, IsEmpty.forall_iff,
    implies_true, List.Pairwise.nil, and_true, or_true, true_and]
  constructorm* _ ∧ _ <;> apply hsides <;>
    simp only [NonOverlappingPortion.leftPortion, NonOverlappingPortion.topLeftPortion,
      NonOverlappingPortion.topPortion, NonOverlappingPortion.topRightPortion,
      NonOverlappingPortion.bottomRightPortion, NonOverlappingPortion.bottomPortion,
      NonOverlappingPortion.bottomLeftPortion] <;> omega

/-- What is beyond the inner line and outside the first interval is above that. -/
lemma axis_beyond {lo1 hi1 lo2 hi2 x : ℤ} (hinner : (highSide lo1 hi1 lo2 hi2).inner ≤ x)
    (h2 : lo2 ≤ x ∧ x < hi2) (h1 : ¬ (lo1 ≤ x ∧ x < hi1)) : hi1 ≤ x := by
  revert hinner h1 h2
  unfold highSide
  split_ifs <;> simp <;> omega

/-- The points of the bottom portion are below the first rectangle. -/
lemma bottom_le_of_mem_bottomPortion (hov : overlap r1 r2 = .partialOverlap)
    (hp : (NonOverlappingPortion.of r1 r2).bottomPortion ∈ populate (.of r1 r2) .r2) {q : ℤ × ℤ}
    (hq : q ∈ (NonOverlappingPortion.of r1 r2).bottomPortion.cells) : r1.bottom ≤ q.2 := by
  obtain ⟨hin, hout⟩ := cells_populate_snd hov hp hq
  have hx : r1.left ≤ q.1 ∧ q.1 < r1.right :=
    (axis_mem_fst (overlap_eq_partialOverlap hov).1 q.1).mpr (.inr (.inl hq.1))
  exact axis_beyond hq.2.1 hin.2 fun hy => hout ⟨hx, hy⟩

end Cut

/-! ### What is added is covered -/

lemma cover_addAll_subset_of {fuel : ℕ}
    (ih : ∀ {list list' : List Rect} {toAdd : Rect} {level : ℕ},
      recursiveAdd fuel list toAdd level = some list' → cover list' ⊆ cover list ∪ toAdd.cells)
    {list list' rects : List Rect} (h : addAll fuel list rects = some list') :
    cover list' ⊆ cover list ∪ cover rects := by
  induction rects generalizing list with
  | nil => simp [← Option.some.inj h]
  | cons r rects ihrects =>
    obtain ⟨m, hm, hrest⟩ := Lib.run_cons.mp h
    refine (ihrects hrest).trans ?_
    rw [cover_cons, ← Set.union_assoc]
    exact Set.union_subset_union_left _ (ih hm)

/-- No call adds a point that is in neither the list nor the rectangle. -/
lemma cover_recursiveAdd_subset {fuel : ℕ} {list list' : List Rect} {toAdd : Rect} {level : ℕ}
    (h : recursiveAdd fuel list toAdd level = some list') :
    cover list' ⊆ cover list ∪ toAdd.cells := by
  induction fuel generalizing list list' toAdd level with
  | zero => simp [recursiveAdd] at h
  | succ fuel ih =>
    rw [recursiveAdd] at h
    split at h
    next => simp [← Option.some.inj h]
    next thisRect hthis =>
      have herase : cover (list.eraseIdx level) ⊆ cover list :=
        cover_eraseIdx hthis ▸ Set.subset_union_left
      split at h
      next => exact ih h
      next => exact Option.some.inj h ▸ Set.subset_union_left
      next => exact Option.some.inj h ▸ Set.subset_union_left
      next => exact (ih h).trans (Set.union_subset_union_left _ herase)
      next hov =>
        refine (ih h).trans ?_
        rw [cells_coalesced hov, ← Set.union_assoc, cover_eraseIdx hthis]
      next hov =>
        refine (cover_addAll_subset_of ih h).trans (Set.union_subset_union_right _ ?_)
        rintro q ⟨piece, hp, hq⟩
        exact (cells_populate_snd hov hp hq).1

lemma cover_addAll_subset {fuel : ℕ} {list list' rects : List Rect}
    (h : addAll fuel list rects = some list') : cover list' ⊆ cover list ∪ cover rects :=
  cover_addAll_subset_of cover_recursiveAdd_subset h

/-! ### What the calls use up -/

namespace Call

/-- The points that the rectangle to add has in common with the entries. -/
def met (c : Call) : Set (ℤ × ℤ) := c.toAdd.cells ∩ cover c.list

lemma met_finite (c : Call) : c.met.Finite :=
  ((Set.finite_Ico _ _).prod (Set.finite_Ico _ _)).inter_of_left _

/-- The entries are unrelated, and each cut that the call leads to is one of a rectangle that is not
empty, at an entry that is not empty. -/
structure Sound (c : Call) : Prop where
  pairwise : c.list.Pairwise Unrelated
  cuts : c.CutsNonempty

variable {c c' : Call}

lemma Sound.of_makes (h : c.Sound) (hmakes : Makes c c') : c'.Sound := by
  refine ⟨?_, h.cuts.of_makes hmakes⟩
  cases hmakes with
  | next => exact h.pairwise
  | containedBy | coalescible => exact h.pairwise.sublist (List.eraseIdx_sublist _ _)
  | cut _ _ _ hdone =>
    exact (addAll_wellFormed .true ⟨h.pairwise, fun _ _ => trivial⟩ (fun _ _ => trivial)
      hdone).pairwise

/-- All points of a call. -/
def points (c : Call) : Set (ℤ × ℤ) := c.toAdd.cells ∪ cover c.list

lemma points_subset (hmakes : Makes c c') : c'.points ⊆ c.points := by
  cases hmakes with
  | next => exact le_rfl
  | containedBy hthis =>
    exact Set.union_subset_union_right _ (cover_eraseIdx hthis ▸ Set.subset_union_left)
  | coalescible hthis hov =>
    refine Set.union_subset ?_ ?_
    · rw [cells_coalesced hov]
      exact Set.union_subset ((cover_eraseIdx hthis ▸ Set.subset_union_right).trans
        Set.subset_union_right) Set.subset_union_left
    · exact (cover_eraseIdx hthis ▸ Set.subset_union_left).trans Set.subset_union_right
  | @cut list list' done rest toAdd thisRect piece level fuel hthis hov hsplit hdone =>
    have hportion : ∀ r ∈ done ++ piece :: rest, r.cells ⊆ toAdd.cells := fun r hr q hq =>
      (cells_populate_snd hov (hsplit ▸ hr) hq).1
    refine Set.union_subset ?_ ((cover_addAll_subset hdone).trans (Set.union_subset ?_ ?_))
    · exact (hportion piece (by simp)).trans Set.subset_union_left
    · exact Set.subset_union_right
    · rintro q ⟨r, hr, hq⟩
      exact .inl (hportion r (by simp [hr]) hq)

/-- The list gets shorter, or the next entry is looked at. -/
def Nearer (c c' : Call) : Prop :=
  c'.list.length < c.list.length ∨
    c'.list.length = c.list.length ∧ c.level < c.list.length ∧ c'.level = c.level + 1

lemma nearer_eraseIdx {list : List Rect} {toAdd thisRect toAdd' : Rect} {level level' : ℕ}
    (hthis : list[level]? = some thisRect) :
    Nearer ⟨list, toAdd, level⟩ ⟨list.eraseIdx level, toAdd', level'⟩ := by
  have hlt := (List.getElem?_eq_some_iff.mp hthis).1
  left
  show (list.eraseIdx level).length < list.length
  rw [List.length_eraseIdx_of_lt hlt]
  omega

/-- A call that does not cut goes on with no more common points. A cut goes on with fewer, or, for
the second bottom portion, with common points that are below one of those before. -/
lemma Sound.met_of_makes (h : c.Sound) (hmakes : Makes c c') :
    (∃ q ∈ c.met, ∀ q' ∈ c'.met, q.2 < q'.2) ∨ c'.met ⊂ c.met ∨ c'.met ⊆ c.met ∧ Nearer c c' := by
  obtain ⟨hpair, hcuts⟩ := h
  cases hmakes with
  | next hthis =>
    exact .inr (.inr ⟨le_rfl, .inr ⟨rfl, (List.getElem?_eq_some_iff.mp hthis).1, rfl⟩⟩)
  | containedBy hthis =>
    refine .inr (.inr ⟨Set.inter_subset_inter_right _ ?_, nearer_eraseIdx hthis⟩)
    exact cover_eraseIdx hthis ▸ Set.subset_union_left
  | @coalescible list toAdd thisRect level hthis hov =>
    refine .inr (.inr ⟨?_, nearer_eraseIdx hthis⟩)
    rintro q ⟨hq, hcover⟩
    rw [cells_coalesced hov] at hq
    have hthisNot : q ∉ thisRect.cells :=
      Set.disjoint_left.mp (RectList.disjoint_eraseIdx hpair hthis) hcover
    have hlist : q ∈ cover list := cover_eraseIdx hthis ▸ Set.mem_union_left _ hcover
    exact ⟨hq.resolve_left hthisNot, hlist⟩
  | @cut list list' done rest toAdd thisRect piece level fuel hthis hov hsplit hdone =>
    obtain ⟨hthisNe, haddNe⟩ := hcuts _ .refl thisRect hthis hov
    obtain ⟨hh, hv⟩ := overlap_eq_partialOverlap hov
    have hmem : piece ∈ populate (.of thisRect toAdd) .r2 := by simp [hsplit]
    have hthisCover : thisRect.cells ⊆ cover list := cover_eraseIdx hthis ▸ Set.subset_union_right
    obtain ⟨q, hthisq, haddq⟩ :=
      Set.not_disjoint_iff.mp (RectList.exists_mem_of_overlaps hthisNe haddNe hh hv)
    have hapart := populate_pairwise hthisNe haddNe hov
    rw [hsplit, List.pairwise_append] at hapart
    by_cases hbottom : piece = (NonOverlappingPortion.of thisRect toAdd).bottomPortion
    · -- The entry has a point in common, and its bottom is above the portion.
      subst hbottom
      refine .inl ⟨q, ⟨haddq, hthisCover hthisq⟩, fun q' hq' => ?_⟩
      exact (Rect.mem_cells.mp hthisq).2.2.trans_le
        (bottom_le_of_mem_bottomPortion hov hmem hq'.1)
    · -- The portions before this one do not put points into it.
      refine .inr (.inl ⟨?_, fun hsub => ?_⟩)
      · rintro q' ⟨hpiece, hlist'⟩
        refine ⟨(cells_populate_snd hov hmem hpiece).1, ?_⟩
        refine (cover_addAll_subset hdone hlist').resolve_right ?_
        rintro ⟨r, hr, hq'⟩
        have hrel := (hapart.2.2 r hr piece List.mem_cons_self).resolve_right hbottom
        exact Set.disjoint_left.mp hrel hq' hpiece
      · exact (cells_populate_snd hov hmem (hsub ⟨haddq, hthisCover hthisq⟩).1).2 hthisq

/-- The measure: the rows from the first common point on, the common points, the entries, the entries
that have not been looked at. -/
theorem Sound.acc (c : Call) (h : c.Sound) (bottom : ℤ) (rows commons : ℕ)
    (hbottom : ∀ q ∈ c.points, q.2 < bottom) (hrows : ∀ q ∈ c.met, bottom - rows ≤ q.2)
    (hcommons : c.met.ncard ≤ commons) : Acc (flip Makes) c := by
  refine ⟨_, fun c' (hmakes : Makes c c') => ?_⟩
  have hbottom' : ∀ q ∈ c'.points, q.2 < bottom := fun q hq => hbottom q (points_subset hmakes hq)
  have hsound := h.of_makes hmakes
  rcases h.met_of_makes hmakes with ⟨q, hq, hbelow⟩ | hless | ⟨hsub, hnearer⟩
  · have hq' := hrows q hq
    have hlt := hbottom q (.inl hq.1)
    refine Sound.acc c' hsound bottom (rows - 1) c'.met.ncard hbottom' (fun q' hmet => ?_) le_rfl
    have hrow := hbelow q' hmet
    omega
  · have hfewer := (Set.ncard_lt_ncard hless c.met_finite).trans_le hcommons
    exact Sound.acc c' hsound bottom rows c'.met.ncard hbottom' (fun q hq => hrows q (hless.1 hq)) le_rfl
  · refine Sound.acc c' hsound bottom rows commons hbottom' (fun q hq => hrows q (hsub hq)) ?_
    exact (Set.ncard_le_ncard hsub c.met_finite).trans hcommons
termination_by (rows, commons, c.list.length, c.list.length - c.level)
decreasing_by
  · refine Prod.Lex.left _ _ ?_
    omega
  · exact Prod.Lex.right _ (Prod.Lex.left _ _ hfewer)
  · refine Prod.Lex.right _ (Prod.Lex.right _ ?_)
    rcases hnearer with hlt | ⟨heq, hlt, hlevel⟩
    · exact Prod.Lex.left _ _ hlt
    · rw [heq, hlevel]
      exact Prod.Lex.right _ (by omega)

lemma points_finite (c : Call) : c.points.Finite := by
  refine Set.Finite.union ((Set.finite_Ico _ _).prod (Set.finite_Ico _ _)) ?_
  have hcover : cover c.list = ⋃ r ∈ c.list.toFinset, r.cells := by
    ext q
    simp [-Rect.mem_cells]
  rw [hcover]
  exact c.list.toFinset.finite_toSet.biUnion fun r _ =>
    (Set.finite_Ico _ _).prod (Set.finite_Ico _ _)

/-- Non-empty rectangles are only merged to, and cut into, non-empty rectangles. -/
lemma cutsNonempty_of_nonempty (h : WellFormed Rect.Nonempty c.list) (hr : c.toAdd.Nonempty) :
    c.CutsNonempty := by
  have hall : ∀ c', ReflTransGen Makes c c' →
      WellFormed Rect.Nonempty c'.list ∧ c'.toAdd.Nonempty := by
    intro c' hreach
    induction hreach with
    | refl => exact ⟨h, hr⟩
    | tail _ hmakes ih =>
      obtain ⟨hlist, hadd⟩ := ih
      cases hmakes with
      | next => exact ⟨hlist, hadd⟩
      | containedBy => exact ⟨hlist.sublist (List.eraseIdx_sublist _ _), hadd⟩
      | coalescible hthis =>
        exact ⟨hlist.sublist (List.eraseIdx_sublist _ _),
          Preserved.nonempty.coalesced (hlist.all _ (List.mem_of_getElem? hthis)) hadd⟩
      | @cut list _ done rest toAdd thisRect piece _ _ hthis hov hsplit hdone =>
        obtain ⟨hh, hv⟩ := overlap_eq_partialOverlap hov
        have hpieces := Preserved.nonempty.cut (o := .r2)
          (hlist.all _ (List.mem_of_getElem? hthis)) hadd Owner.noConfusion hh hv
        rw [hsplit] at hpieces
        exact ⟨addAll_wellFormed .nonempty hlist (fun r hr => hpieces r (by simp [hr])) hdone,
          hpieces piece (by simp)⟩
  intro c' hreach thisRect hthis _
  obtain ⟨hlist, hadd⟩ := hall c' hreach
  exact ⟨hlist.all _ (List.mem_of_getElem? hthis), hadd⟩

end Call

namespace RectList

/-- The bottom portion of a cut at an empty entry is the rectangle itself. -/
lemma recursiveAdd_line (fuel : ℕ) : recursiveAdd fuel [⟨0, 5, 6, 5⟩] ⟨2, 5, 4, 6⟩ 0 = none := by
  induction fuel with
  | zero => rfl
  | succ fuel ih =>
    have hov : overlap ⟨0, 5, 6, 5⟩ ⟨2, 5, 4, 6⟩ = .partialOverlap := by decide
    have hpieces : populate (.of ⟨0, 5, 6, 5⟩ ⟨2, 5, 4, 6⟩) .r2 =
        [⟨2, 5, 4, 6⟩, ⟨2, 5, 4, 6⟩] := by decide
    simp [recursiveAdd, hov, hpieces, Lib.run, ih]

end RectList

end Limbo.Drawing
