import Limbo.Snapshot.Savevm

/-!
# The two lookups of a snapshot

`bdrv_snapshot_find` scans the listed entries once and stops at the first with the id or the name.
`find_snapshot_by_id_or_name`, behind `delete` and `goto`, scans the table for the id and, where
no entry has it, for the name. A list shows an entry with its id and name cut to their fields.
-/

namespace Limbo.Snapshot

open Lib BlockDriverState

/-- The index at which the loop of `bdrv_snapshot_find` stops. -/
def snapshotFindIdx (t : List QEMUSnapshotInfo) (name : CString) : Option ℕ :=
  t.findIdx? (·.listed.Denotes name)

/-- `bdrv_snapshot_find` copies the entry at this index, as the list shows it. -/
lemma bdrvSnapshotFind_eq {bs : BlockDriverState} {t : List QEMUSnapshotInfo}
    (ht : bs.table = .ok t) (name : CString) :
    bdrvSnapshotFind bs name =
      (snapshotFindIdx t name).bind fun i => t[i]?.map QEMUSnapshotInfo.listed := by
  unfold bdrvSnapshotFind bdrvSnapshotList snapshotFindIdx
  rw [ht]
  simp only [Except.map]
  clear ht
  induction t with
  | nil => rfl
  | cons sn t ih =>
    rw [List.map_cons, List.findIdx?_cons]
    by_cases h : sn.listed.Denotes name
    · simp [h]
    · rw [List.find?_cons_of_neg (by simpa using h), ih]
      simp [h, Option.bind_map]

/-! ### The first of two kinds of entries -/

/-- Each entry of the first kind has one of the second at its place or in front of it. -/
def Preceded {α : Type} (p q : α → Prop) (l : List α) : Prop :=
  ∀ (i : ℕ) a, l[i]? = some a → p a → ∃ j ≤ i, ∃ b, l[j]? = some b ∧ q b

lemma le_of_preceded {α : Type} {p q : α → Prop} [DecidablePred p] [DecidablePred q] {l : List α}
    (h : Preceded p q l) {i : ℕ} (hi : l.findIdx? (p ·) = some i) :
    ∃ j ≤ i, l.findIdx? (q ·) = some j := by
  obtain ⟨hlt, hp, -⟩ := List.findIdx?_eq_some_iff_getElem.mp hi
  obtain ⟨j, hji, b, hb, hq⟩ := h i _ (List.getElem?_eq_getElem hlt) (of_decide_eq_true hp)
  cases hf : l.findIdx? (q ·) with
  | none =>
    rw [List.findIdx?_eq_none_iff] at hf
    have := hf b (List.mem_of_getElem? hb)
    simp [hq] at this
  | some k =>
    refine ⟨k, ?_, rfl⟩
    by_contra hik
    obtain ⟨hkl, -, hbefore⟩ := List.findIdx?_eq_some_iff_getElem.mp hf
    have hjk : j < k := by omega
    apply hbefore j hjk
    obtain ⟨hjl, rfl⟩ := List.getElem?_eq_some_iff.mp hb
    simpa using hq

/-- Two kinds of entries have the same first one when each precedes the other. -/
lemma findIdx?_eq_iff_preceded {α : Type} {p q : α → Prop} [DecidablePred p] [DecidablePred q]
    {l : List α} : l.findIdx? (p ·) = l.findIdx? (q ·) ↔ Preceded p q l ∧ Preceded q p l := by
  have hprec {p q : α → Prop} [DecidablePred p] [DecidablePred q]
      (h : l.findIdx? (p ·) = l.findIdx? (q ·)) : Preceded p q l := by
    intro i a ha hp
    cases hf : l.findIdx? (p ·) with
    | none =>
      rw [List.findIdx?_eq_none_iff] at hf
      have := hf a (List.mem_of_getElem? ha)
      simp [hp] at this
    | some k =>
      have hk := hf
      obtain ⟨hkl, -, hbefore⟩ := List.findIdx?_eq_some_iff_getElem.mp hf
      rw [h] at hk
      obtain ⟨_, hq, -⟩ := List.findIdx?_eq_some_iff_getElem.mp hk
      refine ⟨k, ?_, l[k], List.getElem?_eq_getElem hkl, of_decide_eq_true hq⟩
      by_contra hik
      obtain ⟨hil, rfl⟩ := List.getElem?_eq_some_iff.mp ha
      exact hbefore i (by omega) (by simpa using hp)
  constructor
  · intro h
    exact ⟨hprec h, hprec h.symm⟩
  · rintro ⟨hpq, hqp⟩
    cases hp : l.findIdx? (p ·) with
    | none =>
      cases hq : l.findIdx? (q ·) with
      | none => rfl
      | some j =>
        obtain ⟨i, -, hi⟩ := le_of_preceded hqp hq
        rw [hp] at hi
        cases hi
    | some i =>
      obtain ⟨j, hji, hj⟩ := le_of_preceded hpq hp
      obtain ⟨i', hij, hi'⟩ := le_of_preceded hqp hj
      obtain rfl := Option.some.inj (hp.symm.trans hi')
      rw [hj, le_antisymm hji hij]

/-! ### The lookups agree -/

/-- The entries that `delete` and `goto` mean by `name`: those with the id, or, where there is
none, those with the name. -/
def Meant (name : CString) (t : List QEMUSnapshotInfo) (sn : QEMUSnapshotInfo) : Prop :=
  sn.idStr = name ∨ (sn.name = name ∧ ∀ e ∈ t, e.idStr ≠ name)

instance (name : CString) (t : List QEMUSnapshotInfo) : DecidablePred (Meant name t) :=
  fun _ => inferInstanceAs (Decidable (_ ∨ _))

lemma findSnapshotByIdOrName_eq (t : List QEMUSnapshotInfo) (name : CString) :
    findSnapshotByIdOrName t name = t.findIdx? (Meant name t ·) := by
  unfold findSnapshotByIdOrName findSnapshotById
  by_cases hid : ∃ e ∈ t, e.idStr = name
  · have hmeant : ∀ sn, Meant name t sn ↔ sn.idStr = name := by
      intro sn
      obtain ⟨e, he, hide⟩ := hid
      unfold Meant
      constructor
      · rintro (h | ⟨-, hno⟩)
        · exact h
        · exact absurd hide (hno e he)
      · exact .inl
    simp only [hmeant]
    cases hf : t.findIdx? (·.idStr = name) with
    | some i => rfl
    | none =>
      rw [List.findIdx?_eq_none_iff] at hf
      obtain ⟨e, he, hide⟩ := hid
      simpa [hide] using hf e he
  · push Not at hid
    have hnone : t.findIdx? (·.idStr = name) = none := by
      rw [List.findIdx?_eq_none_iff]
      exact fun e he => decide_eq_false (hid e he)
    rw [hnone]
    refine findIdx?_eq_iff_preceded.mpr ⟨fun i a ha hname => ?_, fun i a ha hm => ?_⟩
    · exact ⟨i, le_rfl, a, ha, .inr ⟨hname, hid⟩⟩
    · rcases hm with hida | ⟨hname, -⟩
      · exact absurd hida (hid a (List.mem_of_getElem? ha))
      · exact ⟨i, le_rfl, a, ha, hname⟩

/-- The search string is unambiguous in a table. -/
structure Unambiguous (name : CString) (t : List QEMUSnapshotInfo) : Prop where
  /-- Where an entry has the id, no other entry that the list shows under the string stands in
  front of all entries with the id. -/
  behindId : (∃ e ∈ t, e.idStr = name) →
    Preceded (·.listed.Denotes name) (·.idStr = name) t
  /-- Where no entry has the id, no other entry that the list shows under the string stands in
  front of all entries with the name: one with a longer id or name, which is cut. -/
  behindName : (∀ e ∈ t, e.idStr ≠ name) →
    Preceded (·.listed.Denotes name) (·.name = name) t
  /-- The first entry with the id is shown under the string, its fields being cut. -/
  idShown : Preceded (·.idStr = name) (·.listed.Denotes name) t
  /-- Where no entry has the id, so is the first entry with the name. -/
  nameShown : (∀ e ∈ t, e.idStr ≠ name) →
    Preceded (·.name = name) (·.listed.Denotes name) t

lemma unambiguous_iff {name : CString} {t : List QEMUSnapshotInfo} :
    Unambiguous name t ↔ Preceded (·.listed.Denotes name) (Meant name t) t ∧
      Preceded (Meant name t) (·.listed.Denotes name) t := by
  by_cases hid : ∃ e ∈ t, e.idStr = name
  · have hno : ¬ ∀ e ∈ t, e.idStr ≠ name := by
      push Not
      exact hid
    have hmeant : Meant name t = (·.idStr = name) := by
      funext sn
      simp [Meant, hno]
    rw [hmeant]
    constructor
    · intro h
      exact ⟨h.behindId hid, h.idShown⟩
    · rintro ⟨h1, h2⟩
      exact ⟨fun _ => h1, fun h => absurd h hno, h2, fun h => absurd h hno⟩
  · have hall : ∀ e ∈ t, e.idStr ≠ name := by
      push Not at hid
      exact hid
    have hmeant : ∀ (i : ℕ) a, t[i]? = some a → (Meant name t a ↔ a.name = name) := by
      intro i a ha
      have hida := hall a (List.mem_of_getElem? ha)
      show _ ∨ _ ∧ _ ↔ _
      rw [or_iff_right hida, and_iff_left hall]
    constructor
    · intro h
      constructor
      · intro i a ha hd
        obtain ⟨j, hj, b, hb, hname⟩ := h.behindName hall i a ha hd
        exact ⟨j, hj, b, hb, (hmeant j b hb).mpr hname⟩
      · intro i a ha hm
        exact h.nameShown hall i a ha ((hmeant i a ha).mp hm)
    · rintro ⟨h1, h2⟩
      refine ⟨fun h => absurd h hid, fun _ i a ha hd => ?_, fun i a ha h => ?_,
        fun _ i a ha hname => ?_⟩
      · obtain ⟨j, hj, b, hb, hm⟩ := h1 i a ha hd
        exact ⟨j, hj, b, hb, (hmeant j b hb).mp hm⟩
      · exact absurd h (hall a (List.mem_of_getElem? ha))
      · exact h2 i a ha ((hmeant i a ha).mpr hname)

/-- `bdrv_snapshot_find` checks the entry that `delete` and `goto` use. -/
theorem snapshotFindIdx_eq_iff (t : List QEMUSnapshotInfo) (name : CString) :
    snapshotFindIdx t name = findSnapshotByIdOrName t name ↔ Unambiguous name t := by
  rw [findSnapshotByIdOrName_eq, unambiguous_iff]
  exact findIdx?_eq_iff_preceded

/-- A string that fits the fields is unambiguous when an entry with this name stands behind an
entry with this id, where there is one. -/
lemma unambiguous_iff_of_fits {name : CString} {t : List QEMUSnapshotInfo}
    (hlen : name.length < 127) : Unambiguous name t ↔
      ((∃ e ∈ t, e.idStr = name) → Preceded (·.name = name) (·.idStr = name) t) := by
  have hcut : ∀ (size : ℕ) (s : CString), 128 ≤ size → (pstrcpy size s = name ↔ s = name) := by
    intro size s hsize
    constructor
    · intro h
      have hl := congrArg List.length h
      rw [pstrcpy, List.length_take] at hl
      rw [← h, pstrcpy_of_length_lt (by omega)]
    · rintro rfl
      exact pstrcpy_of_length_lt (by omega)
  have hshown : ∀ sn : QEMUSnapshotInfo, sn.listed.Denotes name ↔ sn.Denotes name := by
    intro sn
    show pstrcpy 128 sn.idStr = name ∨ pstrcpy 256 sn.name = name ↔ _
    rw [hcut 128 _ le_rfl, hcut 256 _ (by omega)]
    rfl
  constructor
  · intro h hid i a ha hname
    exact h.behindId hid i a ha ((hshown a).mpr (.inr hname))
  · intro h
    refine ⟨fun hid i a ha hd => ?_, fun hno i a ha hd => ?_, fun i a ha hid => ?_,
      fun _ i a ha hname => ?_⟩
    · rcases (hshown a).mp hd with hida | hname
      · exact ⟨i, le_rfl, a, ha, hida⟩
      · exact h hid i a ha hname
    · rcases (hshown a).mp hd with hida | hname
      · exact absurd hida (hno a (List.mem_of_getElem? ha))
      · exact ⟨i, le_rfl, a, ha, hname⟩
    · exact ⟨i, le_rfl, a, ha, (hshown a).mpr (.inl hid)⟩
    · exact ⟨i, le_rfl, a, ha, (hshown a).mpr (.inr hname)⟩

/-- A snapshot named like the id of a later one is checked, and the later one is deleted. -/
theorem snapshotFindIdx_name_like_id :
    let t := [⟨cstr "1", cstr "2", 0, 0, 0, 0⟩, ⟨cstr "2", cstr "x", 0, 0, 0, 0⟩]
    snapshotFindIdx t (cstr "2") = some 0 ∧ findSnapshotByIdOrName t (cstr "2") = some 1 := by
  decide

end Limbo.Snapshot
