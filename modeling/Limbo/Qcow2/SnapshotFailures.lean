import Limbo.Qcow2.SnapshotTable

/-!
# Failures of create and delete

A snapshot is created or deleted when the header points to the new table. If the operation fails
before that, the list in memory is to be what it was, and to agree with the header.
-/

namespace Limbo.Qcow2

open Lib Snapshot

/-! ### Loops over the entries -/

lemma firstEntries_of_le {snapshots : List QCowSnapshot} {nb : ℕ} (h : nb ≤ snapshots.length) :
    firstEntries snapshots nb = some (snapshots.take nb) := if_pos h

/-- The loop finds the first entry of those that are there. -/
lemma findFrom_eq {p : QCowSnapshot → Bool} {snapshots : List QCowSnapshot} {k i : ℕ}
    (h : i + k ≤ snapshots.length) : findFrom p snapshots k i =
      some ((((snapshots.drop i).take k).findIdx? p).map (· + i)) := by
  induction k generalizing i with
  | zero => simp [findFrom]
  | succ k ih =>
    have hi : i < snapshots.length := by omega
    rw [findFrom, List.getElem?_eq_getElem hi, List.drop_eq_getElem_cons hi, List.take_succ_cons,
      List.findIdx?_cons]
    dsimp only
    by_cases hp : p snapshots[i]
    · simp [hp]
    · rw [if_neg hp, if_neg hp, ih (by omega), Option.map_map]
      congr 2
      funext j
      simp only [Function.comp]
      omega

lemma length_memmove {snapshots : List QCowSnapshot} {nb i : ℕ} (hi : i < nb)
    (hnb : nb ≤ snapshots.length) :
    (BDRVQcowState.memmove snapshots nb i).length = snapshots.length := by
  simp [BDRVQcowState.memmove]
  omega

/-- The entries that are left are those without the one with the index `i`. -/
lemma take_memmove {snapshots : List QCowSnapshot} {nb i : ℕ} (hi : i < nb)
    (hnb : nb ≤ snapshots.length) :
    (BDRVQcowState.memmove snapshots nb i).take (nb - 1) = (snapshots.take nb).eraseIdx i := by
  have hlen : (snapshots.take i ++ (snapshots.drop (i + 1)).take (nb - i - 1)).length = nb - 1 := by
    simp
    omega
  rw [BDRVQcowState.memmove, List.take_append_of_le_length hlen.ge, ← hlen, List.take_length,
    List.eraseIdx_eq_take_drop_succ, List.take_take, min_eq_left hi.le, List.drop_take]
  congr 2

namespace BDRVQcowState

variable {W : Type*} {io : Storage W} {s s' : BDRVQcowState W} {snInfo : QEMUSnapshotInfo}

/-- The snapshots in memory. -/
def list (s : BDRVQcowState W) : List QCowSnapshot := s.snapshots.take s.nbSnapshots

/-- The list in memory is that of the image. -/
structure Good (s : BDRVQcowState W) : Prop where
  le : s.nbSnapshots ≤ s.snapshots.length
  header : s.header = ⟨s.nbSnapshots, s.snapshotsOffset⟩
  table : s.table = s.list

lemma Good.entries (h : s.Good) : s.entries = some s.list := firstEntries_of_le h.le

/-- The index of the snapshot with an id, or else with a name. -/
def namedIndex (list : List QCowSnapshot) (name : CString) : Option ℕ :=
  (list.findIdx? fun sn => sn.idStr = name).or (list.findIdx? fun sn => sn.name = name)

lemma Good.findSnapshotById (h : s.Good) (idStr : CString) :
    s.findSnapshotById idStr = some (s.list.findIdx? fun sn => sn.idStr = idStr) := by
  rw [BDRVQcowState.findSnapshotById, findFrom_eq (by have := h.le; omega)]
  simp [list]

lemma Good.findSnapshotByIdOrName (h : s.Good) (name : CString) :
    s.findSnapshotByIdOrName name = some (namedIndex s.list name) := by
  rw [BDRVQcowState.findSnapshotByIdOrName, h.findSnapshotById, namedIndex]
  cases s.list.findIdx? fun sn => sn.idStr = name with
  | some i => rfl
  | none =>
    dsimp only
    rw [findFrom_eq (by have := h.le; omega)]
    simp [list]

/-- A snapshot that is found is in the list. -/
lemma lt_of_namedIndex {list : List QCowSnapshot} {name : CString} {i : ℕ}
    (h : namedIndex list name = some i) : i < list.length := by
  rcases Option.or_eq_some_iff.mp h with h | ⟨-, h⟩
  · exact (List.findIdx?_eq_some_iff_getElem.mp h).1
  · exact (List.findIdx?_eq_some_iff_getElem.mp h).1

/-! ### Writing the table -/

lemma writeSnapshots_of_lt (hle : s.nbSnapshots ≤ s.snapshots.length)
    (h : (writeTable io s.list s.image).1 < 0) : s.writeSnapshots io =
      some ((writeTable io s.list s.image).1,
        { s with image := (writeTable io s.list s.image).2 }) := by
  rw [writeSnapshots, entries, firstEntries_of_le hle]
  exact congrArg some (if_pos h)

lemma writeSnapshots_of_le (hle : s.nbSnapshots ≤ s.snapshots.length)
    (h : 0 ≤ (writeTable io s.list s.image).1) :
    ∃ offset size image, s.writeSnapshots io = some (0, { s with
      header := ⟨s.nbSnapshots, offset⟩
      table := s.list
      saves := s.saves + 1
      image := image
      snapshotsOffset := offset
      snapshotsSize := size }) := by
  rw [writeSnapshots, entries, firstEntries_of_le hle]
  exact ⟨_, _, _, congrArg some (if_neg h.not_gt)⟩

/-! ### One call -/

/-- The list in memory is what it was, and agrees with the header. -/
structure Unchanged (s s' : BDRVQcowState W) : Prop where
  list : s'.list = s.list
  nbSnapshots : s'.nbSnapshots = s.nbSnapshots
  header : s'.header = ⟨s'.nbSnapshots, s'.snapshotsOffset⟩

/-- The call reads no entry that does not exist, and if it fails before a new table is in force,
nothing has changed. -/
def Atomic (s : BDRVQcowState W) (result : Option (ℤ × BDRVQcowState W)) : Prop :=
  ∃ ret s', result = some (ret, s') ∧ (ret < 0 → s'.saves = s.saves → s.Unchanged s')

/-- If it comes to that, the table with the new snapshot is written without a failure. -/
def CreateWrites (io : Storage W) (s : BDRVQcowState W) (snInfo : QEMUSnapshotInfo) : Prop :=
  ∀ idStr sn w, s.newId snInfo = some idStr → s.findSnapshotById idStr = some none →
    s.prepareSnapshot io idStr snInfo = .ok (sn, w) → 0 ≤ (writeTable io (s.list ++ [sn]) w).1

/-- If the snapshot is there, the table without it is written without a failure. -/
def DeleteWrites (io : Storage W) (s : BDRVQcowState W) (snapshotId : CString) : Prop :=
  ∀ i, s.findSnapshotByIdOrName snapshotId = some (some i) →
    0 ≤ (writeTable io (s.list.eraseIdx i) s.image).1

lemma Good.length_list (h : s.Good) : s.list.length = s.nbSnapshots := by
  rw [list, List.length_take, min_eq_left h.le]

/-- The list of the state in which the new table is written. -/
lemma Good.list_append (h : s.Good) (sn : QCowSnapshot) :
    (s.list ++ [sn]).take (s.nbSnapshots + 1) = s.list ++ [sn] := by
  rw [List.take_of_length_le]
  simp [h.length_list]

/-- The new snapshot is in the list, or the table could not be written and only the number of the
snapshots says that it is. -/
lemma appendSnapshot_cases (io : Storage W) (h : s.Good) (sn : QCowSnapshot) :
    (0 ≤ (writeTable io (s.list ++ [sn]) s.image).1 ∧
      ∃ s', s.appendSnapshot io sn = some (0, s') ∧ s'.Good ∧ s'.list = s.list ++ [sn] ∧
        s'.saves = s.saves + 1) ∨
    ((writeTable io (s.list ++ [sn]) s.image).1 < 0 ∧
      ∃ ret s', s.appendSnapshot io sn = some (ret, s') ∧ ret < 0 ∧ s'.saves = s.saves ∧
        s'.nbSnapshots = s.nbSnapshots + 1) := by
  have hlist := h.list_append sn
  have hle : s.nbSnapshots + 1 ≤ (s.list ++ [sn]).length := by simp [h.length_list]
  obtain ⟨t, ht⟩ : ∃ t : BDRVQcowState W, t = { s with
    snapshots := s.list ++ [sn], nbSnapshots := s.nbSnapshots + 1 } := ⟨_, rfl⟩
  have htlist : t.list = s.list ++ [sn] := by rw [ht]; exact hlist
  have hwrite : s.appendSnapshot io sn = (writeSnapshots io t).elim none fun p =>
      if p.1 < 0 then some (p.1, { p.2 with snapshots := s.snapshots }) else some (0, p.2) := by
    rw [appendSnapshot, h.entries, ht]
    dsimp only
    cases writeSnapshots io _ <;> rfl
  have himage : t.image = s.image := by rw [ht]
  rw [hwrite, ← htlist, ← himage]
  rcases le_or_gt 0 (writeTable io t.list t.image).1 with hok | hfail
  · obtain ⟨offset, size, image, heq⟩ := writeSnapshots_of_le (s := t) (by rw [ht]; exact hle) hok
    refine .inl ⟨hok, _, by rw [heq, Option.elim_some]; exact if_neg (lt_irrefl 0), ⟨?_, ?_, ?_⟩,
      ?_, ?_⟩
    · rw [ht]; exact hle
    · rfl
    · rfl
    · rfl
    · rw [ht]
  · have heq := writeSnapshots_of_lt (s := t) (by rw [ht]; exact hle) hfail
    refine .inr ⟨hfail, _, _, by rw [heq, Option.elim_some]; exact if_pos hfail, hfail, ?_, ?_⟩
    · rw [ht]
    · rw [ht]

/-- The snapshot is out of the list, and only if the table has been written is it out of that. -/
lemma snapshotDelete_cases (io : Storage W) (h : s.Good) {snapshotId : CString} {i : ℕ}
    (hi : s.findSnapshotByIdOrName snapshotId = some (some i)) :
    (0 ≤ (writeTable io (s.list.eraseIdx i) s.image).1 ∧
      ∃ ret s', s.snapshotDelete io snapshotId = some (ret, s') ∧ s'.Good ∧
        s'.list = s.list.eraseIdx i ∧ s'.saves = s.saves + 1) ∨
    ((writeTable io (s.list.eraseIdx i) s.image).1 < 0 ∧
      ∃ ret s', s.snapshotDelete io snapshotId = some (ret, s') ∧ ret < 0 ∧ s'.saves = s.saves ∧
        s'.nbSnapshots + 1 = s.nbSnapshots) := by
  have hlt : i < s.nbSnapshots := by
    rw [h.findSnapshotByIdOrName, Option.some.injEq] at hi
    exact h.length_list ▸ lt_of_namedIndex hi
  have hle := h.le
  obtain ⟨t, ht⟩ : ∃ t : BDRVQcowState W, t = { s with
    snapshots := memmove s.snapshots s.nbSnapshots i, nbSnapshots := s.nbSnapshots - 1 } := ⟨_, rfl⟩
  have htlist : t.list = s.list.eraseIdx i := by rw [ht]; exact take_memmove hlt hle
  have htle : t.nbSnapshots ≤ t.snapshots.length := by
    rw [ht]
    dsimp only
    rw [length_memmove hlt hle]
    omega
  have hdelete : ∀ sn, s.snapshots[i]? = some sn →
      s.snapshotDelete io snapshotId = (writeSnapshots io t).elim none fun p =>
        if p.1 < 0 then some p
        else some ((releaseSnapshot io sn p.2.image).1,
          { p.2 with image := (releaseSnapshot io sn p.2.image).2 }) := by
    intro sn hsn
    rw [snapshotDelete, hi]
    dsimp only
    rw [hsn, ht]
    dsimp only
    cases writeSnapshots io _ <;> rfl
  have hsn := List.getElem?_eq_getElem (show i < s.snapshots.length by omega)
  have himage : t.image = s.image := by rw [ht]
  rw [hdelete _ hsn, ← htlist, ← himage]
  rcases le_or_gt 0 (writeTable io t.list t.image).1 with hok | hfail
  · obtain ⟨offset, size, image, heq⟩ := writeSnapshots_of_le htle hok
    rw [heq, Option.elim_some, if_neg (lt_irrefl 0)]
    refine .inl ⟨hok, _, _, rfl, ⟨htle, rfl, rfl⟩, rfl, ?_⟩
    rw [ht]
  · have heq := writeSnapshots_of_lt htle hfail
    refine .inr ⟨hfail, _, _, by rw [heq, Option.elim_some]; exact if_pos hfail, hfail, ?_, ?_⟩
    · rw [ht]
    · rw [ht]
      dsimp only
      omega

lemma Good.exists_newId (h : s.Good) (snInfo : QEMUSnapshotInfo) :
    ∃ idStr, s.newId snInfo = some idStr := by
  rw [newId, findNewSnapshotId, h.entries]
  split_ifs
  · exact ⟨_, rfl⟩
  · exact ⟨_, rfl⟩

/-- What `qcow2_snapshot_create()` comes to: it fails with the list as it was, or it gets to the
new table. -/
lemma snapshotCreate_cases (io : Storage W) (h : s.Good) (snInfo : QEMUSnapshotInfo) :
    (∃ ret w, s.snapshotCreate io snInfo = some (ret, { s with image := w }) ∧
      ∀ idStr, s.newId snInfo = some idStr → s.findSnapshotById idStr = some none →
        ∀ r, s.prepareSnapshot io idStr snInfo ≠ .ok r) ∨
    ∃ idStr sn w, s.newId snInfo = some idStr ∧ s.findSnapshotById idStr = some none ∧
      s.prepareSnapshot io idStr snInfo = .ok (sn, w) ∧
      s.snapshotCreate io snInfo = appendSnapshot io { s with image := w } sn := by
  obtain ⟨idStr, hid⟩ := h.exists_newId snInfo
  have hfind := h.findSnapshotById idStr
  rw [snapshotCreate, hid]
  dsimp only
  rw [hfind]
  cases hindex : s.list.findIdx? fun sn => sn.idStr = idStr with
  | some i =>
    refine .inl ⟨-eexist, s.image, rfl, fun idStr' hid' hnone => ?_⟩
    rw [← Option.some.inj hid', hfind, hindex] at hnone
    cases hnone
  | none =>
    dsimp only
    cases hprepare : s.prepareSnapshot io idStr snInfo with
    | error r =>
      refine .inl ⟨r.1, r.2, rfl, fun idStr' hid' _ r' hr' => ?_⟩
      rw [← Option.some.inj hid', hprepare] at hr'
      cases hr'
    | ok r => exact .inr ⟨idStr, r.1, r.2, rfl, by rw [hfind, hindex], hprepare, rfl⟩

lemma Good.image (h : s.Good) (w : W) : Good { s with image := w } := ⟨h.le, h.header, h.table⟩

lemma Good.unchanged (h : s.Good) (w : W) : s.Unchanged { s with image := w } :=
  ⟨rfl, rfl, h.header⟩

lemma atomic_snapshotCreate_iff (h : s.Good) :
    Atomic s (s.snapshotCreate io snInfo) ↔ CreateWrites io s snInfo := by
  rcases snapshotCreate_cases io h snInfo with
    ⟨ret, w, heq, hnot⟩ | ⟨idStr, sn, w, hid, hfind, hprepare, heq⟩
  · refine ⟨fun _ idStr sn w hid hfind hok => absurd hok (hnot idStr hid hfind _), fun _ => ?_⟩
    exact ⟨ret, _, heq, fun _ _ => h.unchanged w⟩
  rw [heq]
  rcases appendSnapshot_cases io (h.image w) sn with
    ⟨hok, s', heq', hgood, -, -⟩ | ⟨hfail, ret, s', heq', hret, hsaves, hnb⟩
  · refine ⟨fun _ idStr' sn' w' hid' hfind' hok' => ?_, fun _ => ?_⟩
    · rw [hid] at hid'
      cases hid'
      rw [hprepare] at hok'
      cases hok'
      exact hok
    · exact ⟨0, s', heq', fun hneg => absurd hneg (lt_irrefl 0)⟩
  · constructor
    · rintro ⟨ret', s'', hresult, hunchanged⟩
      rw [heq'] at hresult
      cases hresult
      have := (hunchanged hret hsaves).nbSnapshots
      rw [hnb] at this
      exact absurd this (Nat.succ_ne_self _)
    · exact fun hwrites => absurd (hwrites idStr sn w hid hfind hprepare) hfail.not_ge

lemma atomic_snapshotDelete_iff (h : s.Good) {snapshotId : CString} :
    Atomic s (s.snapshotDelete io snapshotId) ↔ DeleteWrites io s snapshotId := by
  cases hindex : namedIndex s.list snapshotId with
  | none =>
    have hfind : s.findSnapshotByIdOrName snapshotId = some none := by
      rw [h.findSnapshotByIdOrName, hindex]
    constructor
    · rintro - i hi
      rw [hfind] at hi
      cases hi
    · refine fun _ => ⟨-enoent, s, ?_, fun _ _ => h.unchanged s.image⟩
      rw [snapshotDelete, hfind]
  | some i =>
    have hfind : s.findSnapshotByIdOrName snapshotId = some (some i) := by
      rw [h.findSnapshotByIdOrName, hindex]
    rcases snapshotDelete_cases io h hfind with
      ⟨hok, ret, s', heq, -, -, hsaves⟩ | ⟨hfail, ret, s', heq, hret, hsaves, hnb⟩
    · refine ⟨fun _ j hj => ?_, fun _ => ⟨ret, s', heq, fun _ h => ?_⟩⟩
      · rw [hfind] at hj
        cases hj
        exact hok
      · rw [hsaves] at h
        exact absurd h (Nat.succ_ne_self _)
    · constructor
      · rintro ⟨ret', s'', hresult, hunchanged⟩
        rw [heq] at hresult
        cases hresult
        have := (hunchanged hret hsaves).nbSnapshots
        rw [← hnb] at this
        exact absurd this.symm (Nat.succ_ne_self _)
      · exact fun hwrites => absurd (hwrites i hfind) hfail.not_ge

end BDRVQcowState

/-! ### Runs -/

inductive Operation where
  | create (snInfo : QEMUSnapshotInfo)
  | delete (snapshotId : CString)
  | goto (snapshotId : CString)
  | list
  | checkRefcounts
  | updateHeader
deriving DecidableEq, Repr

namespace Operation

open BDRVQcowState

variable {W : Type*}

def perform (io : Storage W) (s : BDRVQcowState W) : Operation → Option (ℤ × BDRVQcowState W)
  | create snInfo => s.snapshotCreate io snInfo
  | delete snapshotId => s.snapshotDelete io snapshotId
  | goto snapshotId => s.snapshotGoto io snapshotId
  | list => s.snapshotList
  | checkRefcounts => s.checkRefcounts io
  | updateHeader => some (s.updateHeader io)

/-- The snapshots there are to be when the operation has put a table into force: with the new one,
or without the one that has been deleted. -/
def kept (io : Storage W) (s : BDRVQcowState W) (snapshots : List QCowSnapshot) :
    Operation → List QCowSnapshot
  | create snInfo =>
    match s.newId snInfo with
    | none => snapshots
    | some idStr =>
      match s.prepareSnapshot io idStr snInfo with
      | .error _ => snapshots
      | .ok (sn, _) => snapshots ++ [sn]
  | delete snapshotId =>
    match namedIndex snapshots snapshotId with
    | none => snapshots
    | some i => snapshots.eraseIdx i
  | _ => snapshots

/-- One operation, with the snapshots that have been created and not deleted. -/
def step (io : Storage W) (s : BDRVQcowState W × List QCowSnapshot) (op : Operation) :
    Option (BDRVQcowState W × List QCowSnapshot) :=
  (op.perform io s.1).map fun (_, s') =>
    (s', if s'.saves = s.1.saves then s.2 else op.kept io s.1 s.2)

/-- The tables of create and delete are written without a failure. -/
def Writes (io : Storage W) (s : BDRVQcowState W × List QCowSnapshot) : Operation → Prop
  | create snInfo => CreateWrites io s.1 snInfo
  | delete snapshotId => DeleteWrites io s.1 snapshotId
  | _ => True

/-- The list in memory and the table on disk are the snapshots that there are to be. -/
def Kept (s : BDRVQcowState W × List QCowSnapshot) : Prop := s.1.Good ∧ s.1.list = s.2

variable {io : Storage W} {s : BDRVQcowState W × List QCowSnapshot}

/-- An operation that leaves the list and the table alone. -/
lemma exists_step_of_image {op : Operation} (h : Kept s) (ret : ℤ) (w : W)
    (heq : op.perform io s.1 = some (ret, { s.1 with image := w })) :
    ∃ s', step io s op = some s' ∧ Kept s' := by
  refine ⟨_, by rw [step, heq]; rfl, h.1.image w, ?_⟩
  exact h.2.trans (if_pos rfl).symm

lemma exists_step (h : Kept s) (op : Operation) (hwrites : op.Writes io s) :
    ∃ s', step io s op = some s' ∧ Kept s' := by
  obtain ⟨hgood, hlist⟩ := h
  cases op with
  | create snInfo =>
    rcases snapshotCreate_cases io hgood snInfo with
      ⟨ret, w, heq, -⟩ | ⟨idStr, sn, w, hid, hfind, hprepare, heq⟩
    · exact exists_step_of_image ⟨hgood, hlist⟩ _ _ heq
    · rcases appendSnapshot_cases io (hgood.image w) sn with
        ⟨-, s', heq', hgood', hlist', hsaves⟩ | ⟨hfail, -⟩
      · refine ⟨_, by rw [step, perform, heq, heq']; rfl, hgood', ?_⟩
        dsimp only
        rw [if_neg (by rw [hsaves]; exact Nat.succ_ne_self _), hlist', kept, hid]
        dsimp only
        rw [hprepare, ← hlist]
        rfl
      · exact absurd (hwrites idStr sn w hid hfind hprepare) hfail.not_ge
  | delete snapshotId =>
    have hfind := hgood.findSnapshotByIdOrName snapshotId
    cases hindex : namedIndex s.1.list snapshotId with
    | none =>
      refine exists_step_of_image ⟨hgood, hlist⟩ (-enoent) s.1.image ?_
      rw [perform, snapshotDelete, hfind, hindex]
    | some i =>
      rw [hindex] at hfind
      rcases snapshotDelete_cases io hgood hfind with
        ⟨-, ret, s', heq, hgood', hlist', hsaves⟩ | ⟨hfail, -⟩
      · refine ⟨_, by rw [step, perform, heq]; rfl, hgood', ?_⟩
        dsimp only
        rw [if_neg (by rw [hsaves]; exact Nat.succ_ne_self _), hlist', kept, ← hlist, hindex]
      · exact absurd (hwrites i hfind) hfail.not_ge
  | goto snapshotId =>
    have hfind := hgood.findSnapshotByIdOrName snapshotId
    cases hindex : namedIndex s.1.list snapshotId with
    | none =>
      refine exists_step_of_image ⟨hgood, hlist⟩ (-enoent) s.1.image ?_
      rw [perform, snapshotGoto, hfind, hindex]
    | some i =>
      have hlt := lt_of_namedIndex hindex
      rw [hgood.length_list] at hlt
      obtain ⟨sn, hsn⟩ : ∃ sn, s.1.snapshots[i]? = some sn :=
        ⟨_, List.getElem?_eq_getElem (hlt.trans_le hgood.le)⟩
      refine exists_step_of_image ⟨hgood, hlist⟩ (io.goto sn s.1.image).1 (io.goto sn s.1.image).2 ?_
      rw [perform, snapshotGoto, hfind, hindex]
      dsimp only
      rw [hsn]
  | list =>
    refine exists_step_of_image ⟨hgood, hlist⟩ s.1.list.length s.1.image ?_
    rw [perform, snapshotList, hgood.entries]
    rfl
  | checkRefcounts =>
    have hcheck : ∃ ret w, s.1.checkRefcounts io = some (ret, { s.1 with image := w }) := by
      rw [BDRVQcowState.checkRefcounts, hgood.entries]
      dsimp only
      split_ifs
      · exact ⟨_, _, rfl⟩
      · exact ⟨_, _, rfl⟩
    obtain ⟨ret, w, heq⟩ := hcheck
    exact exists_step_of_image ⟨hgood, hlist⟩ _ _ heq
  | updateHeader =>
    have hupdate : ∃ ret w, s.1.updateHeader io = (ret, { s.1 with image := w }) := by
      rw [BDRVQcowState.updateHeader, ← hgood.header]
      dsimp only
      split_ifs
      · exact ⟨_, _, rfl⟩
      · exact ⟨_, _, rfl⟩
    obtain ⟨ret, w, heq⟩ := hupdate
    exact exists_step_of_image ⟨hgood, hlist⟩ ret w (by rw [perform, heq])

lemma exists_run {ops : List Operation} (h : Kept s)
    (hwrites : Guarded (step io) (fun s op => op.Writes io s) s ops) :
    ∃ s', Lib.run (step io) s ops = some s' ∧ Kept s' := by
  induction ops generalizing s with
  | nil => exact ⟨s, rfl, h⟩
  | cons op ops ih =>
    obtain ⟨t, hstep, ht⟩ := exists_step h op hwrites.1
    obtain ⟨s', hrun, hs'⟩ := ih ht (hwrites.2 t hstep)
    exact ⟨s', run_cons.mpr ⟨t, hstep, hrun⟩, hs'⟩

end Operation

open BDRVQcowState

/-- A create or delete that fails before the new table is in force leaves the list as it was, if and
only if the failure is not one of writing the table; and while no table fails to be written, no
operation reads an entry that does not exist, and the list and the table on disk are the snapshots
that have been created and not deleted. -/
theorem snapshots_atomic {W : Type*} (io : Storage W) (s : BDRVQcowState W) (h : s.Good) :
    (∀ snInfo, Atomic s (s.snapshotCreate io snInfo) ↔ CreateWrites io s snInfo) ∧
    (∀ snapshotId, Atomic s (s.snapshotDelete io snapshotId) ↔ DeleteWrites io s snapshotId) ∧
    ∀ ops : List Operation,
      Guarded (Operation.step io) (fun s op => op.Writes io s) (s, s.list) ops →
      ∃ t kept, Lib.run (Operation.step io) (s, s.list) ops = some (t, kept) ∧ t.list = kept ∧
        t.table = kept ∧ t.header = ⟨t.nbSnapshots, t.snapshotsOffset⟩ ∧ t.freeSnapshots ≠ none := by
  refine ⟨fun _ => atomic_snapshotCreate_iff h, fun _ => atomic_snapshotDelete_iff h,
    fun ops hwrites => ?_⟩
  obtain ⟨⟨t, kept⟩, hrun, hgood, hlist⟩ := Operation.exists_run ⟨h, rfl⟩ hwrites
  refine ⟨t, kept, hrun, hlist, hgood.table.trans hlist, hgood.header, ?_⟩
  rw [freeSnapshots, hgood.entries]
  exact Option.some_ne_none _

/-! ### A full disk -/

/-- An image that has `w` clusters left. -/
def fullDisk : Storage ℕ where
  totalSectors _ := 8
  l1Table _ := [0]
  l1TableOffset _ := 0x30000
  allocClusters _ w := if w = 0 then (-28, 0) else (0x100000 - 0x10000 * w, w - 1)
  freeClusters _ _ w := w
  pwrite _ _ w := (0, w)
  flushFile w := (0, w)
  flush w := (0, w)
  updateSnapshotRefcount _ _ _ w := (0, w)
  pwriteHeader w := (0, w)
  goto _ w := (0, w)
  checkActive w := (0, w)
  checkL1 _ _ w := (0, w)
  updateHeader w := (0, w)

/-- No snapshots, and `w` clusters left. -/
def noSnapshots (w : ℕ) : BDRVQcowState ℕ := ⟨[], 0, 0, 0, ⟨0, 0⟩, [], 0, w⟩

lemma good_noSnapshots (w : ℕ) : (noSnapshots w).Good := ⟨le_rfl, rfl, rfl⟩

/-- Two clusters are enough for a snapshot. -/
theorem snapshots_atomic_fullDisk :
    let snInfo : QEMUSnapshotInfo := ⟨cstr "1", cstr "a", 0, 0, 0, 0⟩
    Atomic (noSnapshots 2) ((noSnapshots 2).snapshotCreate fullDisk snInfo) ∧
      ∃ t kept, Lib.run (Operation.step fullDisk) (noSnapshots 2, []) [.create snInfo, .list] =
          some (t, kept) ∧ t.list = kept ∧ t.table = kept ∧
        t.header = ⟨t.nbSnapshots, t.snapshotsOffset⟩ ∧ t.freeSnapshots ≠ none := by
  intro snInfo
  have hwrites : CreateWrites fullDisk (noSnapshots 2) snInfo := by
    intro idStr sn w hid _ hprepare
    cases hid
    cases hprepare
    decide
  have h := snapshots_atomic fullDisk (noSnapshots 2) (good_noSnapshots 2)
  exact ⟨(h.1 snInfo).mpr hwrites, h.2.2 [.create snInfo, .list] ⟨hwrites, fun _ _ => ⟨trivial,
    fun _ _ => trivial⟩⟩⟩

/-- With one cluster left the snapshot has an L1 table, and the table cannot be written: then the
next loop over the list reads an entry that does not exist. A snapshot that cannot be deleted is not
there for the header that is written next. -/
theorem not_atomic_fullDisk :
    let snInfo : QEMUSnapshotInfo := ⟨cstr "1", cstr "a", 0, 0, 0, 0⟩
    let sn : QCowSnapshot := ⟨0x40000, 1, cstr "1", cstr "a", 4096, 0, 0, 0, 0⟩
    let s : BDRVQcowState ℕ := ⟨[sn], 1, 0x50000, 58, ⟨1, 0x50000⟩, [sn], 1, 0⟩
    ¬ Atomic (noSnapshots 1) ((noSnapshots 1).snapshotCreate fullDisk snInfo) ∧
      Lib.run (Operation.step fullDisk) (noSnapshots 1, []) [.create snInfo, .list] = none ∧
      s.Good ∧ ¬ Atomic s (s.snapshotDelete fullDisk (cstr "a")) ∧
      (Lib.run (Operation.step fullDisk) (s, [sn]) [.delete (cstr "a"), .updateHeader]).map
        (fun t => (t.1.header, t.2)) = some (⟨0, 0x50000⟩, [sn]) := by
  intro snInfo sn s
  have hcreate : (noSnapshots 1).snapshotCreate fullDisk snInfo =
      some (-28, { noSnapshots 0 with nbSnapshots := 1 }) := by rfl
  have hdelete : s.snapshotDelete fullDisk (cstr "a") =
      some (-28, { s with nbSnapshots := 0 }) := by rfl
  refine ⟨?_, by rfl, ⟨by decide, rfl, rfl⟩, ?_, by rfl⟩
  · rintro ⟨ret, s', heq, hunchanged⟩
    rw [hcreate] at heq
    cases heq
    exact absurd (hunchanged (by decide) rfl).nbSnapshots (by decide)
  · rintro ⟨ret, s', heq, hunchanged⟩
    rw [hdelete] at heq
    cases heq
    exact absurd (hunchanged (by decide) rfl).nbSnapshots (by decide)

end Limbo.Qcow2
