import Limbo.Snapshot.SaveLoad

/-!
# What a failed save leaves behind

A save replaces the snapshot of its name: the old one is deleted on every device before the VM
state is written. A failure in between loses it. What no failure loses are the other snapshots and
the devices that cannot snapshot.
-/

namespace Limbo.Snapshot

open Lib BlockDriverState

/-- The entries of a table that a save under `name` does not replace. -/
def others (name : CString) (t : List QEMUSnapshotInfo) : List QEMUSnapshotInfo :=
  match findSnapshotByIdOrName t name with
  | some i => t.eraseIdx i
  | none => t

lemma others_sublist (name : CString) (t : List QEMUSnapshotInfo) : (others name t).Sublist t := by
  unfold others
  cases findSnapshotByIdOrName t name with
  | none => exact List.Sublist.refl t
  | some i => exact List.eraseIdx_sublist t i

/-- A loop over the devices leaves alone those that cannot snapshot, and relates the tables of the
others by `R`, where no read or write fails. -/
def Keeps (io : ℕ → Io) (R : List QEMUSnapshotInfo → List QEMUSnapshotInfo → Prop)
    (devices devices' : List BlockDriverState) : Prop :=
  ∀ (j : ℕ) b, devices[j]? = some b → ∃ b', devices'[j]? = some b' ∧
    b'.canSnapshot = b.canSnapshot ∧ (b.canSnapshot = false → b' = b) ∧
    (io j = none → ∀ t, b.table = .ok t → ∃ t', b'.table = .ok t' ∧ R t t')

section Keeps

variable {io : ℕ → Io} {R : List QEMUSnapshotInfo → List QEMUSnapshotInfo → Prop}

lemma Keeps.nil : Keeps io R [] [] := by
  intro j b hj
  simp at hj

/-- One device, and the others with the indices moved on. -/
lemma Keeps.cons {b b' : BlockDriverState} {rest rest' : List BlockDriverState}
    (hcan : b'.canSnapshot = b.canSnapshot) (hno : b.canSnapshot = false → b' = b)
    (htab : io 0 = none → ∀ t, b.table = .ok t → ∃ t', b'.table = .ok t' ∧ R t t')
    (hrest : Keeps (fun j => io (j + 1)) R rest rest') :
    Keeps io R (b :: rest) (b' :: rest') := by
  intro j c hj
  cases j with
  | zero =>
    obtain rfl := Option.some.inj hj
    exact ⟨b', rfl, hcan, hno, htab⟩
  | succ j => exact hrest j c hj

lemma Keeps.refl (hR : ∀ t, R t t) (devices : List BlockDriverState) :
    Keeps io R devices devices := by
  intro j b hj
  exact ⟨b, hj, rfl, fun _ => rfl, fun _ t ht => ⟨t, ht, hR t⟩⟩

end Keeps

/-- The deletion takes at most the entry that the name denotes. -/
lemma bdrvSnapshotDelete_table {bs : BlockDriverState} {t : List QEMUSnapshotInfo}
    (name : CString) (ht : bs.table = .ok t) :
    (bdrvSnapshotDelete none bs name).2.table = .ok (others name t) := by
  unfold bdrvSnapshotDelete qcow2SnapshotDelete others
  rw [ht]
  dsimp only
  cases findSnapshotByIdOrName t name with
  | none => exact table_setTable t ht
  | some i => exact table_setTable _ ht

lemma delExistingSnapshots_keeps (deleteIo : ℕ → Io) (name : CString) (i : ℕ)
    (devices : List BlockDriverState) :
    Keeps (fun j => deleteIo (i + j)) (fun t t' => (others name t).Sublist t') devices
      (delExistingSnapshots deleteIo name i devices).2 := by
  induction devices generalizing i with
  | nil => exact .nil
  | cons bs rest ih =>
    have hrest : Keeps (fun j => deleteIo (i + (j + 1))) (fun t t' => (others name t).Sublist t')
        rest (delExistingSnapshots deleteIo name (i + 1) rest).2 := by
      have h := ih (i + 1)
      simp only [Nat.add_right_comm i 1, Nat.add_assoc] at h
      exact h
    rw [delExistingSnapshots]
    by_cases hdel : bs.canSnapshot ∧ (bdrvSnapshotFind bs name).isSome
    · rw [if_pos hdel]
      have hcan := canSnapshot_bdrvSnapshotDelete (deleteIo i) bs name
      have htab (hio : deleteIo (i + 0) = none) (t : List QEMUSnapshotInfo)
          (ht : bs.table = .ok t) :
          ∃ t', (bdrvSnapshotDelete (deleteIo i) bs name).2.table = .ok t' ∧
            (others name t).Sublist t' := by
        rw [Nat.add_zero] at hio
        rw [hio]
        exact ⟨_, bdrvSnapshotDelete_table name ht, List.Sublist.refl _⟩
      have hno (h : bs.canSnapshot = false) :
          (bdrvSnapshotDelete (deleteIo i) bs name).2 = bs := by
        rw [hdel.1] at h
        cases h
      rcases hb : bdrvSnapshotDelete (deleteIo i) bs name with ⟨_ | e, bs'⟩
      · rw [hb] at hcan htab hno
        exact Keeps.cons hcan hno htab hrest
      · rw [hb] at hcan htab hno
        exact Keeps.cons hcan hno htab (Keeps.refl (others_sublist name) rest)
    · rw [if_neg hdel]
      exact Keeps.cons rfl (fun _ => rfl) (fun _ t ht => ⟨t, ht, others_sublist name t⟩) hrest

/-- The creation keeps the table and may append an entry. -/
lemma bdrvSnapshotCreate_table {bs : BlockDriverState} {t : List QEMUSnapshotInfo}
    (sn : QEMUSnapshotInfo) (ht : bs.table = .ok t) :
    ∃ t', (bdrvSnapshotCreate none bs sn).2.1.table = .ok t' ∧ t.Sublist t' := by
  unfold bdrvSnapshotCreate qcow2SnapshotCreate
  rw [ht]
  dsimp only
  split_ifs
  · exact ⟨t, table_setTable t ht, List.Sublist.refl t⟩
  · exact ⟨_, table_setTable _ ht, List.sublist_append_left t _⟩
  · exact ⟨t, table_setTable t ht, List.Sublist.refl t⟩
  · exact ⟨_, table_setTable _ ht, List.sublist_append_left t _⟩

lemma createSnapshots_keeps (createIo : ℕ → Io) (vmState size : ℕ) (sn : QEMUSnapshotInfo)
    (i : ℕ) (devices : List BlockDriverState) :
    Keeps (fun j => createIo (i + j)) List.Sublist devices
      (createSnapshots createIo vmState size sn i devices).1 := by
  induction devices generalizing i sn with
  | nil => exact .nil
  | cons bs rest ih =>
    have hrest (sn : QEMUSnapshotInfo) : Keeps (fun j => createIo (i + (j + 1))) List.Sublist rest
        (createSnapshots createIo vmState size sn (i + 1) rest).1 := by
      have h := ih sn (i + 1)
      simp only [Nat.add_right_comm i 1, Nat.add_assoc] at h
      exact h
    rw [createSnapshots]
    by_cases hcan : bs.canSnapshot
    · rw [if_pos hcan]
      refine Keeps.cons (canSnapshot_bdrvSnapshotCreate _ _ _) ?_ ?_ (hrest _)
      · intro h
        rw [hcan] at h
        cases h
      · intro hio t ht
        rw [Nat.add_zero] at hio
        rw [hio]
        exact bdrvSnapshotCreate_table _ ht
    · rw [if_neg hcan]
      exact Keeps.cons rfl (fun _ => rfl) (fun _ t ht => ⟨t, ht, List.Sublist.refl t⟩) (hrest _)

/-! ### A whole save -/

/-- A device after a save under `name`: the same if it cannot snapshot, and with all other entries
if no read or write on it fails. -/
def SavedOver (name : CString) (deleteIo createIo : Io) (b b' : BlockDriverState) : Prop :=
  (b.canSnapshot = false → b' = b) ∧
    (b.canSnapshot = true → deleteIo = none → createIo = none →
      ∃ t t', b.table = .ok t ∧ b'.table = .ok t' ∧ (others name t).Sublist t')

lemma SavedOver.refl (name : CString) (deleteIo createIo : Io) (b : BlockDriverState) :
    SavedOver name deleteIo createIo b b := by
  refine ⟨fun _ => rfl, fun hcan _ _ => ?_⟩
  obtain ⟨t, ht⟩ := table_of_canSnapshot hcan
  exact ⟨t, t, ht, ht, others_sublist name t⟩

/-- The deletions, with or without the creations. -/
lemma savedOver_of_keeps {name : CString} {deleteIo createIo : ℕ → Io}
    {devices devices' devices'' : List BlockDriverState}
    (hdel : Keeps deleteIo (fun t t' => (others name t).Sublist t') devices devices')
    (hcreate : Keeps createIo List.Sublist devices' devices'') (j : ℕ) (b : BlockDriverState)
    (hj : devices[j]? = some b) :
    ∃ b', devices''[j]? = some b' ∧ SavedOver name (deleteIo j) (createIo j) b b' := by
  obtain ⟨b1, hb1, hcan1, hno1, htab1⟩ := hdel j b hj
  obtain ⟨b2, hb2, -, hno2, htab2⟩ := hcreate j b1 hb1
  refine ⟨b2, hb2, ?_, ?_⟩
  · intro hcan
    rw [hno2 (hcan1.trans hcan), hno1 hcan]
  · intro hcan hd hc
    obtain ⟨t, ht⟩ := table_of_canSnapshot hcan
    obtain ⟨t1, ht1, hs1⟩ := htab1 hd t ht
    obtain ⟨t2, ht2, hs2⟩ := htab2 hc t1 ht1
    exact ⟨t, t2, ht, ht2, hs1.trans hs2⟩

lemma saveSnapshot_savedOver (env : Env) (name : CString) (s : State) (j : ℕ)
    (b : BlockDriverState) (hj : s.blk.devices[j]? = some b) :
    ∃ b', (saveSnapshot env (some name) s).state.blk.devices[j]? = some b' ∧
      SavedOver name (env.deleteIo j) (env.createIo j) b b' := by
  have hdel {device : Option ℕ} {blk blk' : BlockLayer} {failed : Option ℕ}
      (hs : s.blk.snapshots = (device, blk))
      (hd : deleteOld env (some name) blk = (failed, blk')) :
      Keeps env.deleteIo (fun t t' => (others name t).Sublist t') s.blk.devices blk'.devices := by
    have hkeeps := delExistingSnapshots_keeps env.deleteIo name 0 blk.devices
    simp only [Nat.zero_add] at hkeeps
    obtain ⟨-, rfl⟩ := Prod.mk.inj hd
    rw [← BlockLayer.snapshots_devices, hs]
    exact hkeeps
  have hdeleted {devices' : List BlockDriverState} (hkeeps : Keeps env.deleteIo
      (fun t t' => (others name t).Sublist t') s.blk.devices devices') :
      ∃ b', devices'[j]? = some b' ∧ SavedOver name (env.deleteIo j) (env.createIo j) b b' :=
    savedOver_of_keeps hkeeps (Keeps.refl List.Sublist.refl _) j b hj
  have hpath := saveSnapshot_path env (some name) s
  generalize saveSnapshot env (some name) s = o at hpath ⊢
  cases hpath with
  | noDevice => exact ⟨b, hj, .refl _ _ _ _⟩
  | deleteFailed hs hd => exact hdeleted (hdel hs hd)
  | notOpened hs hd => exact hdeleted (hdel hs hd)
  | notWritten hs hd => exact hdeleted (hdel hs hd)
  | @created device blk blk' hs hd =>
    have hcreate := createSnapshots_keeps env.createIo device env.vmStateSize
      (snInfo env blk.devices[device]? (some name)) 0 blk'.devices
    simp only [Nat.zero_add] at hcreate
    exact savedOver_of_keeps (hdel hs hd) hcreate j b hj

/-- The errors that end a save in front of the deletions. -/
def Report.Early (r : Report) : Prop := r = .noDevice ∨ ∃ device, r = .notSupported device

lemma saveSnapshot_early {env : Env} {name : Option CString} {s : State} {r : Report}
    (hr : r ∈ (saveSnapshot env name s).reports) (he : r.Early) :
    (saveSnapshot env name s).state.blk = s.blk := by
  have hpath := saveSnapshot_path env name s
  generalize saveSnapshot env name s = o at hr hpath ⊢
  cases hpath with
  | noDevice => rfl
  | deleteFailed | notOpened | notWritten =>
    rw [List.mem_singleton] at hr
    subst hr
    rcases he with h | ⟨device, h⟩ <;> cases h
  | created =>
    obtain ⟨i, -, rfl⟩ := List.mem_map.mp hr
    rcases he with h | ⟨device, h⟩ <;> cases h

/-- Whatever happens during a save, it takes no more than the entry that its name denotes from a
device whose own calls do not fail, and leaves alone the devices that cannot snapshot. A save that
ends in front of the deletions changes nothing. -/
theorem save_keeps_others (r : Routine) (env : Env) (name : CString) (s : State) :
    (∀ (j : ℕ) b, s.blk.devices[j]? = some b →
      ∃ b', (r.run env (some name) s).state.blk.devices[j]? = some b' ∧
        SavedOver name (env.deleteIo j) (env.createIo j) b b') ∧
    (∀ report ∈ (r.run env (some name) s).reports, report.Early →
      (r.run env (some name) s).state.blk = s.blk) := by
  rcases r.run_blk env (some name) s with ⟨hblk, -⟩ | ⟨flag, hrep, hblk, -⟩
  · rw [hblk]
    exact ⟨fun j b hj => ⟨b, hj, .refl _ _ _ _⟩, fun _ _ _ => rfl⟩
  · rw [hblk, hrep]
    exact ⟨saveSnapshot_savedOver env name { s with savingState := flag }, fun report hr he => saveSnapshot_early hr he⟩

/-- A VM-state file that does not open loses the snapshot saved before. -/
theorem andDoSavevm_loses_old :
    let disk := qcow2Disk [⟨cstr "1", cstr "s", 4096, 0, 0, 0⟩]
    let s : State := ⟨⟨[disk], none, by simp⟩, 0⟩
    let env := { quietEnv with opens := false }
    loadPrechecks (cstr "s") s.blk = .ok () ∧
      (andDoSavevm env (some (cstr "s")) s).reports = [.notOpened] ∧
      (andDoSavevm env (some (cstr "s")) s).state.blk.devices = [qcow2Disk []] := by
  decide

end Limbo.Snapshot
