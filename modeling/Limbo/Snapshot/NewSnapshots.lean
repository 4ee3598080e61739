import Limbo.Snapshot.SavedName

/-!
# The snapshots that a save creates

When a save comes to the creation of the snapshots, and which entry it then appends on which
device: the one shared record, with the id that the first creation has left in it.
-/

namespace Limbo.Snapshot

open Lib BlockDriverState

/-- The save has created a snapshot on device `j`, the last one of its table. -/
def NewSnapshot (s : State) (o : Outcome) (j : ℕ) (e : QEMUSnapshotInfo) : Prop :=
  o.created = true ∧ .createFailed j ∉ o.reports ∧
    (∃ bs, s.blk.devices[j]? = some bs ∧ bs.canSnapshot = true) ∧
    ∃ bs t, o.state.blk.devices[j]? = some bs ∧ bs.table = .ok (t ++ [e])

/-! ### The two routines -/

/-- A save does not read the flag. -/
lemma saveSnapshot_flag (env : Env) (name : Option CString) (s : State) (flag : ℤ) :
    (saveSnapshot env name { s with savingState := flag }).created =
        (saveSnapshot env name s).created ∧
      (saveSnapshot env name { s with savingState := flag }).reports =
        (saveSnapshot env name s).reports ∧
      (saveSnapshot env name { s with savingState := flag }).state.blk =
        (saveSnapshot env name s).state.blk := by
  unfold saveSnapshot
  dsimp only
  rcases s.blk.snapshots with ⟨_ | device, blk⟩
  · exact ⟨rfl, rfl, rfl⟩
  · dsimp only
    rcases deleteOld env name blk with ⟨_ | failed, blk'⟩
    · dsimp only
      by_cases ho : ¬ env.opens
      · rw [if_pos ho, if_pos ho]
        exact ⟨rfl, rfl, rfl⟩
      · rw [if_neg ho, if_neg ho]
        by_cases hw : env.savevmState < 0
        · rw [if_pos hw, if_pos hw]
          exact ⟨rfl, rfl, rfl⟩
        · rw [if_neg hw, if_neg hw]
          exact ⟨rfl, rfl, rfl⟩
    · exact ⟨rfl, rfl, rfl⟩

/-- A routine that comes to the creation has done what the routines share. -/
lemma Routine.run_created (r : Routine) (env : Env) (name : Option CString) (s : State) :
    (r.run env name s).created = true ↔
      (r = .doSavevm → AllSupported s.blk.devices) ∧ (saveSnapshot env name s).created = true := by
  cases r with
  | andDoSavevm =>
    constructor
    · intro h
      exact ⟨fun hr => Routine.noConfusion hr, h⟩
    · intro h
      exact h.2
  | doSavevm =>
    obtain ⟨hcreated, -, -⟩ := saveSnapshot_flag env name s 1
    show (Snapshot.doSavevm env name s).created = true ↔ _
    rw [← findUnsupported_eq_none (i := 0), ← hcreated]
    unfold Snapshot.doSavevm
    dsimp only
    cases hf : findUnsupported 0 s.blk.devices with
    | some device => simp
    | none =>
      dsimp only
      by_cases hc : (saveSnapshot env name { s with savingState := 1 }).created = true
      · rw [if_pos hc]
        simp [hc]
      · rw [if_neg hc]
        simp [hc]

lemma Routine.run_of_supported {r : Routine} {env : Env} {name : Option CString} {s : State}
    (h : r = .doSavevm → AllSupported s.blk.devices) :
    (r.run env name s).reports = (saveSnapshot env name s).reports ∧
      (r.run env name s).state.blk = (saveSnapshot env name s).state.blk := by
  cases r with
  | andDoSavevm => exact ⟨rfl, rfl⟩
  | doSavevm =>
    obtain ⟨-, hreports, hblk⟩ := saveSnapshot_flag env name s 1
    have hf : findUnsupported 0 s.blk.devices = none := findUnsupported_eq_none.mpr (h rfl)
    rw [← hreports, ← hblk]
    show (Snapshot.doSavevm env name s).reports = _ ∧
      (Snapshot.doSavevm env name s).state.blk = _
    unfold Snapshot.doSavevm
    dsimp only
    rw [hf]
    dsimp only
    by_cases hc : (saveSnapshot env name { s with savingState := 1 }).created = true
    · rw [if_pos hc]
      exact ⟨rfl, rfl⟩
    · rw [if_neg hc]
      exact ⟨rfl, rfl⟩

lemma Routine.newSnapshot_iff {r : Routine} {env : Env} {name : Option CString} {s : State}
    {j : ℕ} {e : QEMUSnapshotInfo} : NewSnapshot s (r.run env name s) j e ↔
      (r = .doSavevm → AllSupported s.blk.devices) ∧
        NewSnapshot s (saveSnapshot env name s) j e := by
  unfold NewSnapshot
  rw [Routine.run_created]
  constructor
  · rintro ⟨⟨hsup, hcreated⟩, hok, hcan, hnew⟩
    obtain ⟨hreports, hblk⟩ := @Routine.run_of_supported r env name s hsup
    rw [hreports] at hok
    rw [hblk] at hnew
    exact ⟨hsup, hcreated, hok, hcan, hnew⟩
  · rintro ⟨hsup, hcreated, hok, hcan, hnew⟩
    obtain ⟨hreports, hblk⟩ := @Routine.run_of_supported r env name s hsup
    rw [hreports, hblk]
    exact ⟨⟨hsup, hcreated⟩, hok, hcan, hnew⟩

/-! ### The new entries -/

/-- The device after the deletion for a name that may be null. -/
def deletedFrom (name : Option CString) (bs : BlockDriverState) : BlockDriverState :=
  match name with
  | none => bs
  | some name => afterDelete name bs

lemma canSnapshot_deletedFrom (name : Option CString) (bs : BlockDriverState) :
    (deletedFrom name bs).canSnapshot = bs.canSnapshot := by
  cases name with
  | none => rfl
  | some name => exact afterDelete_canSnapshot name bs

/-- The entry for the device `j`, where `bs` is the device of the VM state, with index `device`. -/
def entryOn (env : Env) (name : Option CString) (bs : BlockDriverState)
    (devices : List BlockDriverState) (device j : ℕ) : QEMUSnapshotInfo :=
  { snInfo env (some bs) name with
    idStr := newId (snInfo env (some bs) name) (devices.map (deletedFrom name))
    vmStateSize := if j = device then env.vmStateSize else 0 }

/-- What a save that comes to the creation has done, for any name. -/
lemma saveSnapshot_creates {env : Env} {name : Option CString} {s : State}
    (h : (saveSnapshot env name s).created = true) :
    ∃ device bs, s.blk.snapshots.1 = some device ∧ s.blk.devices[device]? = some bs ∧
      bs.canSnapshot = true ∧
      (saveSnapshot env name s).state.blk.devices =
        (createSnapshots env.createIo device env.vmStateSize (snInfo env (some bs) name) 0
          (s.blk.devices.map (deletedFrom name))).1 ∧
      (saveSnapshot env name s).reports =
        (createSnapshots env.createIo device env.vmStateSize (snInfo env (some bs) name) 0
          (s.blk.devices.map (deletedFrom name))).2.map .createFailed := by
  cases name with
  | some name =>
    obtain ⟨device, bs, hdevice, hbs, hcan, -, hdevices, hreports⟩ := saveSnapshot_of_created h
    exact ⟨device, bs, hdevice, hbs, hcan, hdevices, hreports⟩
  | none =>
    have hpath := saveSnapshot_path env none s
    generalize saveSnapshot env none s = o at h hpath ⊢
    cases hpath with
    | noDevice | deleteFailed | notOpened | notWritten => cases h
    | @created device blk blk' hs hd =>
      have hfst : s.blk.snapshots.1 = some device := by rw [hs]
      obtain ⟨-, bs, hbs, hcan⟩ := BlockLayer.snapshots_spec hfst
      have hdev := s.blk.snapshots_devices
      rw [hs] at hdev
      obtain ⟨-, rfl⟩ := Prod.mk.inj hd
      have hsame : blk.devices = s.blk.devices.map (deletedFrom none) :=
        hdev.trans (List.map_id _).symm
      refine ⟨device, bs, hfst, hbs, hcan, ?_, ?_⟩
      · rw [← hsame]
        rfl
      · rw [← hsame]
        rfl

/-- A creation that comes to the device `j`: it appends its entry, unless a call fails or an entry
has the id. -/
lemma newSnapshot_saveSnapshot {env : Env} {name : Option CString} {s : State} {device j : ℕ}
    {bs b : BlockDriverState} {t : List QEMUSnapshotInfo} {e : QEMUSnapshotInfo}
    (h : (saveSnapshot env name s).created = true) (hdevice : s.blk.snapshots.1 = some device)
    (hbs : s.blk.devices[device]? = some bs) (hj : s.blk.devices[j]? = some b)
    (hcan : b.canSnapshot = true) (ht : (deletedFrom name b).table = .ok t) :
    NewSnapshot s (saveSnapshot env name s) j e ↔
      (env.createIo j = none ∧
        ∀ x ∈ t, x.idStr ≠ (entryOn env name bs s.blk.devices device j).idStr) ∧
      e = entryOn env name bs s.blk.devices device j := by
  obtain ⟨device', bs', hdevice', hbs', -, hdevices, hreports⟩ := saveSnapshot_creates h
  obtain rfl := Option.some.inj (hdevice.symm.trans hdevice')
  obtain rfl := Option.some.inj (hbs.symm.trans hbs')
  have hmap : (s.blk.devices.map (deletedFrom name))[j]? = some (deletedFrom name b) := by
    rw [List.getElem?_map, hj, Option.map_some]
  have hcan' : (deletedFrom name b).canSnapshot = true := by
    rw [canSnapshot_deletedFrom, hcan]
  have hid : (entryOn env name bs s.blk.devices device j).idStr ≠ [] :=
    newId_ne_nil ⟨_, List.mem_of_getElem? hmap, hcan'⟩
  -- the creation on this device, in the loop over all of them
  obtain ⟨hdev, hfail⟩ := @createSnapshots_getElem? env.createIo device env.vmStateSize
    (snInfo env (some bs) name) 0 j _ _ hmap hcan'
  simp only [Nat.zero_add] at hdev hfail
  rw [← hdevices] at hdev
  have hreport : .createFailed j ∉ (saveSnapshot env name s).reports ↔
      (bdrvSnapshotCreate (env.createIo j) (deletedFrom name b)
        (entryOn env name bs s.blk.devices device j)).1 = none := by
    rw [hreports, ← Option.not_isSome_iff_eq_none]
    refine not_congr (Iff.trans ?_ hfail)
    constructor
    · intro hmem
      obtain ⟨k, hk, hkj⟩ := List.mem_map.mp hmem
      cases hkj
      exact hk
    · intro hk
      exact List.mem_map.mpr ⟨j, hk, rfl⟩
  have hok := @bdrvSnapshotCreate_ok_iff (env.createIo j) _ _ _ ht hid
  unfold NewSnapshot
  rw [hreport, ← hok]
  constructor
  · rintro ⟨-, hnone, -, b', t', hb', ht'⟩
    refine ⟨hnone, ?_⟩
    obtain rfl := Option.some.inj (hdev.symm.trans hb')
    have hcreated := bdrvSnapshotCreate_device ht hid hnone
    have hlast := Except.ok.inj
      ((table_setTable _ ht).symm.trans ((congrArg table hcreated).symm.trans ht'))
    obtain ⟨-, he⟩ := List.append_inj' hlast rfl
    exact (List.singleton_injective he).symm
  · rintro ⟨hnone, rfl⟩
    refine ⟨h, hnone, ⟨b, hj, hcan⟩, _, t, hdev, ?_⟩
    exact (congrArg table (bdrvSnapshotCreate_device ht hid hnone)).trans (table_setTable _ ht)

/-- A snapshot that a save creates is the entry for its device. -/
lemma NewSnapshot.eq_entryOn {env : Env} {name : Option CString} {s : State} {j : ℕ}
    {e : QEMUSnapshotInfo} (h : NewSnapshot s (saveSnapshot env name s) j e) :
    ∃ device bs, s.blk.snapshots.1 = some device ∧ s.blk.devices[device]? = some bs ∧
      e = entryOn env name bs s.blk.devices device j := by
  obtain ⟨device, bs, hdevice, hbs, -, -, -⟩ := saveSnapshot_creates h.1
  obtain ⟨b, hb, hcan⟩ := h.2.2.1
  obtain ⟨t, ht⟩ := table_of_canSnapshot ((canSnapshot_deletedFrom name b).trans hcan)
  exact ⟨device, bs, hdevice, hbs,
    ((newSnapshot_saveSnapshot h.1 hdevice hbs hb hcan ht).mp h).2⟩

end Limbo.Snapshot
