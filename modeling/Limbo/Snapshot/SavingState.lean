import Limbo.Snapshot.Savevm

/-!
# The flag that clients poll

`do_savevm` raises `saving_state` at its start and lowers it behind the loop that creates the
snapshots, in front of the label that the error exits jump to. The flag is down after a call
exactly when the call has reached that loop.
-/

namespace Limbo.Snapshot

open Lib BlockDriverState

/-! ### Where the loops stop -/

/-- Every device that is inserted and writable can snapshot. -/
def AllSupported (devices : List BlockDriverState) : Prop :=
  ∀ bs ∈ devices, bs.isInserted → ¬ bs.isReadOnly → bs.canSnapshot

lemma findUnsupported_eq_none {i : ℕ} {devices : List BlockDriverState} :
    findUnsupported i devices = none ↔ AllSupported devices := by
  unfold AllSupported
  induction devices generalizing i with
  | nil => simp [findUnsupported]
  | cons bs rest ih =>
    rw [findUnsupported, List.forall_mem_cons]
    by_cases hskip : ¬ bs.isInserted ∨ bs.isReadOnly
    · rw [if_pos hskip, ih]
      constructor
      · intro hrest
        refine ⟨fun hi hw => ?_, hrest⟩
        rcases hskip with h | h
        · exact absurd hi h
        · exact absurd h hw
      · intro h
        exact h.2
    · rw [if_neg hskip]
      push Not at hskip
      by_cases hcan : bs.canSnapshot
      · rw [if_neg (not_not.mpr hcan), ih]
        simp [hcan]
      · rw [if_pos hcan]
        simp [hcan, hskip]

/-- The deletion that `del_existing_snapshots` makes on a device, if it makes one, succeeds. -/
def DeletesOld (io : Io) (name : CString) (bs : BlockDriverState) : Prop :=
  bs.canSnapshot → (bdrvSnapshotFind bs name).isSome → (bdrvSnapshotDelete io bs name).1 = none

lemma delExistingSnapshots_eq_none {deleteIo : ℕ → Io} {name : CString} {i : ℕ}
    {devices : List BlockDriverState} :
    (delExistingSnapshots deleteIo name i devices).1 = none ↔
      ∀ j bs, devices[j]? = some bs → DeletesOld (deleteIo (i + j)) name bs := by
  induction devices generalizing i with
  | nil => simp [delExistingSnapshots]
  | cons bs rest ih =>
    have hrest : (∀ j b, (bs :: rest)[j]? = some b → DeletesOld (deleteIo (i + j)) name b) ↔
        DeletesOld (deleteIo i) name bs ∧
          ∀ j b, rest[j]? = some b → DeletesOld (deleteIo (i + 1 + j)) name b := by
      constructor
      · intro h
        refine ⟨h 0 bs rfl, fun j b hj => ?_⟩
        have := h (j + 1) b hj
        rwa [← Nat.add_assoc, Nat.add_right_comm] at this
      · rintro ⟨h0, h⟩ j b hj
        cases j with
        | zero =>
          obtain rfl := Option.some.inj hj
          exact h0
        | succ j =>
          rw [← Nat.add_assoc, Nat.add_right_comm]
          exact h j b hj
    rw [hrest, ← ih, delExistingSnapshots]
    by_cases hdel : bs.canSnapshot ∧ (bdrvSnapshotFind bs name).isSome
    · rw [if_pos hdel]
      unfold DeletesOld
      rcases hb : bdrvSnapshotDelete (deleteIo i) bs name with ⟨_ | e, bs'⟩
      · simp
      · simp [hdel]
    · rw [if_neg hdel]
      have hno : DeletesOld (deleteIo i) name bs := fun hc hf => absurd ⟨hc, hf⟩ hdel
      simp [hno]

lemma BlockLayer.snapshots_eq_none {blk : BlockLayer} :
    blk.snapshots.1 = none ↔ ∀ bs ∈ blk.devices, bs.canSnapshot = false := by
  unfold BlockLayer.snapshots
  cases hc : blk.bsSnapshots with
  | some i =>
    obtain ⟨bs, hbs, hcan⟩ := blk.valid i hc
    refine iff_of_false (by simp) ?_
    intro h
    rw [h bs (List.mem_of_getElem? hbs)] at hcan
    exact Bool.noConfusion hcan
  | none =>
    dsimp only
    split
    next h =>
      rw [List.findIdx?_eq_none_iff] at h
      exact iff_of_true rfl h
    next i h =>
      obtain ⟨hlt, hcan, -⟩ := List.findIdx?_eq_some_iff_getElem.mp h
      refine iff_of_false (by simp) ?_
      intro hno
      rw [hno _ (List.getElem_mem hlt)] at hcan
      exact Bool.noConfusion hcan

lemma BlockLayer.snapshots_devices (blk : BlockLayer) : blk.snapshots.2.devices = blk.devices := by
  unfold BlockLayer.snapshots
  cases blk.bsSnapshots with
  | some i => rfl
  | none =>
    dsimp only
    split <;> rfl

/-! ### The flag -/

/-- The devices and what the calls answer let a save come to the creation of the snapshots. -/
structure ReachesCreate (env : Env) (name : Option CString) (devices : List BlockDriverState) :
    Prop where
  canSnapshot : ∃ bs ∈ devices, bs.canSnapshot
  deletes : ∀ n, name = some n → ∀ i bs, devices[i]? = some bs →
    DeletesOld (env.deleteIo i) n bs
  opens : env.opens
  written : 0 ≤ env.savevmState

lemma deleteOld_eq_none {env : Env} {name : Option CString} {blk : BlockLayer} :
    (deleteOld env name blk).1 = none ↔ ∀ n, name = some n → ∀ i bs, blk.devices[i]? = some bs →
      DeletesOld (env.deleteIo i) n bs := by
  cases name with
  | none => simp [deleteOld]
  | some n =>
    unfold deleteOld
    rw [delExistingSnapshots_eq_none]
    simp

lemma saveSnapshot_created {env : Env} {name : Option CString} {s : State} :
    (saveSnapshot env name s).created = true ↔ ReachesCreate env name s.blk.devices := by
  have hcan : (∃ bs ∈ s.blk.devices, bs.canSnapshot) ↔ s.blk.snapshots.1 ≠ none := by
    rw [Ne, BlockLayer.snapshots_eq_none]
    simp
  have hdel {device : Option ℕ} {blk blk' : BlockLayer} {failed : Option ℕ}
      (hs : s.blk.snapshots = (device, blk)) (hd : deleteOld env name blk = (failed, blk')) :
      failed = none ↔ ∀ n, name = some n → ∀ i bs, s.blk.devices[i]? = some bs →
        DeletesOld (env.deleteIo i) n bs := by
    rw [← BlockLayer.snapshots_devices, hs, ← deleteOld_eq_none, hd]
  have hpath := saveSnapshot_path env name s
  generalize saveSnapshot env name s = o at hpath
  cases hpath with
  | noDevice hs =>
    refine iff_of_false (by simp) ?_
    intro h
    exact hcan.mp h.canSnapshot hs
  | deleteFailed hs hd =>
    refine iff_of_false (by simp) ?_
    intro h
    exact absurd ((hdel hs hd).mpr h.deletes) (by simp)
  | notOpened hs hd ho =>
    refine iff_of_false (by simp) ?_
    intro h
    rw [h.opens] at ho
    cases ho
  | notWritten hs hd ho hw =>
    refine iff_of_false (by simp) ?_
    intro h
    exact absurd h.written (by omega)
  | created hs hd ho hw =>
    exact iff_of_true rfl ⟨hcan.mpr (by simp [hs]), (hdel hs hd).mp rfl, ho, hw⟩

lemma saveSnapshot_savingState (env : Env) (name : Option CString) (s : State) :
    (saveSnapshot env name s).state.savingState = s.savingState := by
  have hpath := saveSnapshot_path env name s
  generalize saveSnapshot env name s = o at hpath
  cases hpath <;> rfl

/-- The flag is down after `do_savevm` exactly when every writable device can snapshot, there is
one that can, no deletion of an old snapshot fails, the VM-state file opens and the VM state is
written. -/
theorem getSaveState_doSavevm (env : Env) (name : Option CString) (s : State) :
    getSaveState (doSavevm env name s).state = 0 ↔
      AllSupported s.blk.devices ∧ ReachesCreate env name s.blk.devices := by
  have hcreated : (saveSnapshot env name { s with savingState := 1 }).created = true ↔ _ :=
    saveSnapshot_created
  have hflag := saveSnapshot_savingState env name { s with savingState := 1 }
  unfold getSaveState doSavevm
  rw [← findUnsupported_eq_none (i := 0), ← hcreated]
  cases hf : findUnsupported 0 s.blk.devices with
  | some device => simp [hf]
  | none =>
    cases hc : (saveSnapshot env name { s with savingState := 1 }).created with
    | true => simp [hf, hc]
    | false => simp [hf, hc, hflag]

/-- Without a device that can snapshot the flag stays up. -/
theorem getSaveState_doSavevm_no_device :
    getSaveState (doSavevm
      { deleteIo := fun _ => none, createIo := fun _ => none, opens := true, savevmState := 0,
        vmStateSize := 1, dateSec := 0, dateNsec := 0, vmClockNsec := 0, autoName := [] }
      (some (cstr "s")) ⟨⟨[], none, by simp⟩, 0⟩).state = 1 := by
  decide

end Limbo.Snapshot
