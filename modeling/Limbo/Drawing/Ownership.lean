import Limbo.Drawing.Pool

/-!
# Who has an entry

An entry that the pool has made is in at most one place: in the free list, in one of the lists, or
held by the code. Every operation moves entries from place to place, and what it does to the
rectangles of its list is what `RectList.step` says.
-/

namespace Limbo.Drawing

open Lib

variable {ι : Type} [Fintype ι]

namespace Pool

/-- In how many places an entry is. -/
def places (s : Pool ι) (e : Entry) : ℕ :=
  s.free.count e + s.held.count e + ∑ l, (s.lists l).count e

/-- No entry is in two places, and none is anywhere that the pool has not made. -/
structure Owned (s : Pool ι) : Prop where
  once : ∀ e, s.places e ≤ 1
  created : ∀ e, 0 < s.places e → e < s.created

/-- The rectangles of a list. -/
def values (s : Pool ι) (l : ι) : List Rect := (s.lists l).map s.item

variable {s t u : Pool ι} {l l' : ι} {e : Entry} {es kept : List Entry}

lemma Owned.init : Owned (Pool.init ι) := by
  constructor <;> simp [Pool.init, places]

/-- Moving entries around keeps them owned. -/
lemma Owned.of_places (h : Owned s) (hp : ∀ e, t.places e ≤ s.places e)
    (hc : s.created ≤ t.created) : Owned t :=
  ⟨fun e => (hp e).trans (h.once e), fun e he => (h.created e (he.trans_le (hp e))).trans_le hc⟩

lemma count_eraseIdx {list : List Entry} {i : ℕ} (h : list[i]? = some e) (e' : Entry) :
    (list.eraseIdx i).count e' + [e].count e' = list.count e' := by
  obtain ⟨hlt, rfl⟩ := List.getElem?_eq_some_iff.mp h
  have hperm := (List.getElem_cons_eraseIdx_perm hlt).count_eq e'
  rw [← hperm, List.count_cons, List.count_cons, List.count_nil, Nat.zero_add]

/-! ### Where an entry is -/

lemma count_le_places (s : Pool ι) (l : ι) (e : Entry) :
    s.free.count e + s.held.count e + (s.lists l).count e ≤ s.places e :=
  Nat.add_le_add_left
    (Finset.single_le_sum (f := fun l => (s.lists l).count e) (fun _ _ => Nat.zero_le _)
      (Finset.mem_univ l)) _

lemma places_pos_of_held (h : e ∈ s.held) : 0 < s.places e := by
  have hpos := List.count_pos_iff.mpr h
  unfold places
  omega

lemma places_pos_of_mem (h : e ∈ s.lists l) : 0 < s.places e := by
  have hpos := List.count_pos_iff.mpr h
  have hle := s.count_le_places l e
  omega

lemma Owned.not_free_of_held (h : Owned s) (he : e ∈ s.held) : e ∉ s.free := by
  intro hf
  have honce := h.once e
  have hheld := List.count_pos_iff.mpr he
  have hfree := List.count_pos_iff.mpr hf
  unfold places at honce
  omega

lemma Owned.not_free_of_mem (h : Owned s) (he : e ∈ s.lists l) : e ∉ s.free := by
  intro hf
  have honce := (s.count_le_places l e).trans (h.once e)
  have hlist := List.count_pos_iff.mpr he
  have hfree := List.count_pos_iff.mpr hf
  omega

lemma Owned.not_held_of_mem (h : Owned s) (he : e ∈ s.lists l) : e ∉ s.held := by
  intro hf
  have honce := (s.count_le_places l e).trans (h.once e)
  have hlist := List.count_pos_iff.mpr he
  have hheld := List.count_pos_iff.mpr hf
  omega

lemma Owned.not_used_of_free (h : Owned s) (he : e ∈ s.free) : ¬ s.Used e := by
  rintro (hheld | ⟨l, hl⟩)
  · exact h.not_free_of_held hheld he
  · exact h.not_free_of_mem hl he

lemma Owned.not_mem_of_ne (h : Owned s) (hl : l' ≠ l) (he : e ∈ s.lists l) : e ∉ s.lists l' := by
  intro he'
  have honce := h.once e
  have hpos := List.count_pos_iff.mpr he
  have hpos' := List.count_pos_iff.mpr he'
  have hle := Finset.add_le_sum (f := fun l => (s.lists l).count e) (fun _ _ => Nat.zero_le _)
    (Finset.mem_univ l') (Finset.mem_univ l) hl
  unfold places at honce
  omega

variable [DecidableEq ι]

/-- One list is changed. -/
lemma places_setList (list : List Entry) (e : Entry) :
    (s.setList l list).places e + (s.lists l).count e = s.places e + list.count e := by
  have hsum := Finset.add_sum_erase Finset.univ (fun l' => ((s.setList l list).lists l').count e)
    (Finset.mem_univ l)
  have hsum' := Finset.add_sum_erase Finset.univ (fun l' => (s.lists l').count e)
    (Finset.mem_univ l)
  have hrest : ∑ l' ∈ Finset.univ.erase l, ((s.setList l list).lists l').count e =
      ∑ l' ∈ Finset.univ.erase l, (s.lists l').count e :=
    Finset.sum_congr rfl fun l' hl' => by rw [s.setList_of_ne (Finset.ne_of_mem_erase hl')]
  have hplaces : (s.setList l list).places e =
      s.free.count e + s.held.count e + ∑ l', ((s.setList l list).lists l').count e := rfl
  simp only [setList_self] at hsum
  rw [hplaces, places]
  omega

/-! ### What the code holds -/

/-- The state is owned, and these entries are held. -/
structure Holding (s : Pool ι) (es : List Entry) : Prop where
  owned : Owned s
  held : s.held.Perm es

/-- The other lists are as they were, and the entries in them and the kept ones have the rectangles
that they had. -/
structure Frame (l : ι) (kept : List Entry) (s t : Pool ι) : Prop where
  lists : ∀ l' ≠ l, t.lists l' = s.lists l'
  kept : ∀ e ∈ kept, t.item e = s.item e
  item : ∀ l' ≠ l, ∀ e ∈ s.lists l', t.item e = s.item e

omit [DecidableEq ι] [Fintype ι]

lemma Frame.refl (s : Pool ι) : Frame l kept s s := ⟨by simp, by simp, by simp⟩

lemma Frame.trans (h : Frame l kept s t) (h' : Frame l kept t u) : Frame l kept s u := by
  refine ⟨fun l' hl => (h'.lists l' hl).trans (h.lists l' hl), fun e he =>
    (h'.kept e he).trans (h.kept e he), fun l' hl e he => ?_⟩
  rw [← h.lists l' hl] at he
  exact (h'.item l' hl e he).trans (h.item l' hl e (h.lists l' hl ▸ he))

lemma Frame.mono (h : Frame l kept s t) {kept' : List Entry} (hsub : ∀ e ∈ kept', e ∈ kept) :
    Frame l kept' s t :=
  ⟨h.lists, fun e he => h.kept e (hsub e he), h.item⟩

lemma Frame.values (h : Frame l kept s t) (hl : l' ≠ l) : t.values l' = s.values l' := by
  rw [Pool.values, Pool.values, h.lists l' hl]
  exact List.map_congr_left (h.item l' hl)

end Pool

end Limbo.Drawing
