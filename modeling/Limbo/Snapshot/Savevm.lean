import Limbo.Snapshot.Block

/-!
# Saving and loading the machine

`do_savevm`, its Limbo variant `and_do_savevm` and the checks of `load_vmstate`. The devices are
the list that `bdrv_next` walks. What the calls below can answer is an `Env`: a run takes one of
all possible environments.
-/

namespace Limbo.Snapshot

open Lib BlockDriverState

/-- The devices, and the device that `bs_snapshots` remembers: `bdrv_snapshots` sets it to a device
that can snapshot, and closing that device clears it. -/
structure BlockLayer where
  devices : List BlockDriverState
  bsSnapshots : Option ℕ
  valid : ∀ i, bsSnapshots = some i → ∃ bs, devices[i]? = some bs ∧ bs.canSnapshot = true

namespace BlockLayer

/-- `bdrv_snapshots`. -/
def snapshots (blk : BlockLayer) : Option ℕ × BlockLayer :=
  match blk.bsSnapshots with
  | some i => (some i, blk)
  | none =>
    match h : blk.devices.findIdx? canSnapshot with
    | none => (none, blk)
    | some i =>
      (some i, { blk with
        bsSnapshots := some i
        valid := by
          intro j hj
          obtain rfl := Option.some.inj hj
          obtain ⟨hlt, hc, -⟩ := List.findIdx?_eq_some_iff_getElem.mp h
          exact ⟨_, List.getElem?_eq_getElem hlt, hc⟩ })

/-- Other contents of the same devices. -/
def withDevices (blk : BlockLayer) (devices : List BlockDriverState)
    (h : devices.map canSnapshot = blk.devices.map canSnapshot) : BlockLayer where
  devices := devices
  bsSnapshots := blk.bsSnapshots
  valid := by
    intro i hi
    obtain ⟨bs, hbs, hc⟩ := blk.valid i hi
    have hmap := congrArg (·[i]?) h
    simp only [List.getElem?_map, hbs, Option.map_some, hc] at hmap
    obtain ⟨bs', hbs', hc'⟩ := Option.map_eq_some_iff.mp hmap
    exact ⟨bs', hbs', hc'⟩

end BlockLayer

/-- What the calls answer during one save: the outcome of the delete and the create call on each
device, whether the VM-state file opens, what `qemu_savevm_state` returns and how much it has
written, and the clocks. -/
structure Env where
  deleteIo : ℕ → Io
  createIo : ℕ → Io
  opens : Bool
  savevmState : ℤ
  vmStateSize : ℕ
  dateSec : ℕ
  dateNsec : ℕ
  vmClockNsec : ℕ
  autoName : CString

/-- The errors that a save reports. -/
inductive Report where
  | notSupported (device : ℕ)
  | noDevice
  | deleteFailed (device : ℕ)
  | notOpened
  | notWritten (ret : ℤ)
  | createFailed (device : ℕ)
deriving DecidableEq, Repr

/-- The state a save works on. The machine itself is stopped meanwhile and runs on afterwards. -/
structure State where
  blk : BlockLayer
  savingState : ℤ

/-- `get_save_state`. -/
def getSaveState (s : State) : ℤ := s.savingState

/-! ### The loops over the devices -/

/-- The first device from index `i` on that is inserted, writable and cannot snapshot. -/
def findUnsupported : ℕ → List BlockDriverState → Option ℕ
  | _, [] => none
  | i, bs :: rest =>
    if ¬ bs.isInserted ∨ bs.isReadOnly then findUnsupported (i + 1) rest
    else if ¬ bs.canSnapshot then some i
    else findUnsupported (i + 1) rest

/-- `del_existing_snapshots` and `and_del_existing_snapshots` from device `i` on: the device whose
deletion has failed, and the devices. -/
def delExistingSnapshots (deleteIo : ℕ → Io) (name : CString) :
    ℕ → List BlockDriverState → Option ℕ × List BlockDriverState
  | _, [] => (none, [])
  | i, bs :: rest =>
    if bs.canSnapshot ∧ (bdrvSnapshotFind bs name).isSome then
      match bdrvSnapshotDelete (deleteIo i) bs name with
      | (some _, bs') => (some i, bs' :: rest)
      | (none, bs') =>
        let (failed, rest') := delExistingSnapshots deleteIo name (i + 1) rest
        (failed, bs' :: rest')
    else
      let (failed, rest') := delExistingSnapshots deleteIo name (i + 1) rest
      (failed, bs :: rest')

/-- The creation of the snapshots from device `i` on: the devices, and those whose creation has
failed. The VM state belongs to the device `vmState`; a generated id stays in `sn`. -/
def createSnapshots (createIo : ℕ → Io) (vmState vmStateSize : ℕ) :
    QEMUSnapshotInfo → ℕ → List BlockDriverState → List BlockDriverState × List ℕ
  | _, _, [] => ([], [])
  | sn, i, bs :: rest =>
    if bs.canSnapshot then
      let (ret, bs', sn') := bdrvSnapshotCreate (createIo i) bs
        { sn with vmStateSize := if i = vmState then vmStateSize else 0 }
      let (rest', failed) := createSnapshots createIo vmState vmStateSize sn' (i + 1) rest
      (bs' :: rest', if ret.isSome then i :: failed else failed)
    else
      let (rest', failed) := createSnapshots createIo vmState vmStateSize sn (i + 1) rest
      (bs :: rest', failed)

/-! ### A call leaves a device able to snapshot -/

lemma canSnapshot_bdrvSnapshotDelete (io : Io) (bs : BlockDriverState) (name : CString) :
    (bdrvSnapshotDelete io bs name).2.canSnapshot = bs.canSnapshot := by
  unfold bdrvSnapshotDelete
  cases bs.table with
  | error e => rfl
  | ok t => simp

lemma canSnapshot_bdrvSnapshotCreate (io : Io) (bs : BlockDriverState) (sn : QEMUSnapshotInfo) :
    (bdrvSnapshotCreate io bs sn).2.1.canSnapshot = bs.canSnapshot := by
  unfold bdrvSnapshotCreate
  cases bs.table with
  | error e => rfl
  | ok t => simp

lemma canSnapshot_delExistingSnapshots (deleteIo : ℕ → Io) (name : CString) (i : ℕ)
    (devices : List BlockDriverState) :
    (delExistingSnapshots deleteIo name i devices).2.map canSnapshot =
      devices.map canSnapshot := by
  induction devices generalizing i with
  | nil => rfl
  | cons bs rest ih =>
    rw [delExistingSnapshots]
    have hbs := canSnapshot_bdrvSnapshotDelete (deleteIo i) bs name
    split_ifs with h
    · split
      next e bs' hdel =>
        rw [hdel] at hbs
        simp [hbs]
      next bs' hdel =>
        rw [hdel] at hbs
        simp [hbs, ih]
    · simp [ih]

lemma canSnapshot_createSnapshots (createIo : ℕ → Io) (vmState size : ℕ) (sn : QEMUSnapshotInfo)
    (i : ℕ) (devices : List BlockDriverState) :
    (createSnapshots createIo vmState size sn i devices).1.map canSnapshot =
      devices.map canSnapshot := by
  induction devices generalizing i sn with
  | nil => rfl
  | cons bs rest ih =>
    rw [createSnapshots]
    by_cases h : bs.canSnapshot
    · rw [if_pos h]
      simp [canSnapshot_bdrvSnapshotCreate, ih]
    · rw [if_neg h]
      simp [ih]

/-! ### Saving -/

/-- The fields of `sn`: the clocks, and the name and id of the snapshot that `name` denotes on the
device, the name alone, or a name made of the date. -/
def snInfo (env : Env) (bs : Option BlockDriverState) (name : Option CString) :
    QEMUSnapshotInfo :=
  let sn : QEMUSnapshotInfo := {
    idStr := []
    name := []
    vmStateSize := 0
    dateSec := env.dateSec
    dateNsec := env.dateNsec
    vmClockNsec := env.vmClockNsec }
  match name with
  | none => { sn with name := env.autoName }
  | some name =>
    match bs.bind (bdrvSnapshotFind · name) with
    | some oldSn =>
      { sn with name := pstrcpy 256 oldSn.name, idStr := pstrcpy 128 oldSn.idStr }
    | none => { sn with name := pstrcpy 256 name }

/-- The deletion of the old snapshots, for a name that is not null. -/
def deleteOld (env : Env) (name : Option CString) (blk : BlockLayer) : Option ℕ × BlockLayer :=
  match name with
  | none => (none, blk)
  | some name =>
    ((delExistingSnapshots env.deleteIo name 0 blk.devices).1,
      blk.withDevices (delExistingSnapshots env.deleteIo name 0 blk.devices).2
        (canSnapshot_delExistingSnapshots _ _ _ _))

/-- The creation of the new snapshots. -/
def createNew (env : Env) (vmState : ℕ) (sn : QEMUSnapshotInfo) (blk : BlockLayer) :
    BlockLayer × List ℕ :=
  (blk.withDevices (createSnapshots env.createIo vmState env.vmStateSize sn 0 blk.devices).1
      (canSnapshot_createSnapshots _ _ _ _ _ _),
    (createSnapshots env.createIo vmState env.vmStateSize sn 0 blk.devices).2)

/-- Where a save ends: the state, the reported errors, and whether it has passed the creation of
the snapshots. -/
structure Outcome where
  state : State
  reports : List Report
  created : Bool

/-- What both routines do from `bdrv_snapshots()` on. -/
def saveSnapshot (env : Env) (name : Option CString) (s : State) : Outcome :=
  match s.blk.snapshots with
  | (none, _) => ⟨s, [.noDevice], false⟩
  | (some device, blk) =>
    let sn := snInfo env blk.devices[device]? name
    match deleteOld env name blk with
    | (some failed, blk) => ⟨{ s with blk := blk }, [.deleteFailed failed], false⟩
    | (none, blk) =>
      if ¬ env.opens then ⟨{ s with blk := blk }, [.notOpened], false⟩
      else if env.savevmState < 0 then
        ⟨{ s with blk := blk }, [.notWritten env.savevmState], false⟩
      else
        let (blk, failed) := createNew env device sn blk
        ⟨{ s with blk := blk }, failed.map .createFailed, true⟩

/-- The five ways through `saveSnapshot`. -/
inductive SavePath (env : Env) (name : Option CString) (s : State) : Outcome → Prop where
  | noDevice (hs : s.blk.snapshots.1 = none) : SavePath env name s ⟨s, [.noDevice], false⟩
  | deleteFailed {device failed : ℕ} {blk blk' : BlockLayer}
      (hs : s.blk.snapshots = (some device, blk))
      (hdel : deleteOld env name blk = (some failed, blk')) :
      SavePath env name s ⟨{ s with blk := blk' }, [.deleteFailed failed], false⟩
  | notOpened {device : ℕ} {blk blk' : BlockLayer} (hs : s.blk.snapshots = (some device, blk))
      (hdel : deleteOld env name blk = (none, blk')) (hopens : env.opens = false) :
      SavePath env name s ⟨{ s with blk := blk' }, [.notOpened], false⟩
  | notWritten {device : ℕ} {blk blk' : BlockLayer} (hs : s.blk.snapshots = (some device, blk))
      (hdel : deleteOld env name blk = (none, blk')) (hopens : env.opens = true)
      (hret : env.savevmState < 0) :
      SavePath env name s ⟨{ s with blk := blk' }, [.notWritten env.savevmState], false⟩
  | created {device : ℕ} {blk blk' : BlockLayer} (hs : s.blk.snapshots = (some device, blk))
      (hdel : deleteOld env name blk = (none, blk')) (hopens : env.opens = true)
      (hret : 0 ≤ env.savevmState) :
      SavePath env name s
        ⟨{ s with blk := (createNew env device (snInfo env blk.devices[device]? name) blk').1 },
          (createNew env device (snInfo env blk.devices[device]? name) blk').2.map .createFailed,
          true⟩

lemma saveSnapshot_path (env : Env) (name : Option CString) (s : State) :
    SavePath env name s (saveSnapshot env name s) := by
  unfold saveSnapshot
  rcases hs : s.blk.snapshots with ⟨_ | device, blk⟩
  · exact .noDevice (by rw [hs])
  · dsimp only
    rcases hd : deleteOld env name blk with ⟨_ | failed, blk'⟩
    · dsimp only
      by_cases ho : env.opens
      · rw [if_neg (not_not.mpr ho)]
        by_cases hw : env.savevmState < 0
        · rw [if_pos hw]
          exact .notWritten hs hd ho hw
        · rw [if_neg hw]
          exact .created hs hd ho (by omega)
      · rw [if_pos ho]
        exact .notOpened hs hd (Bool.not_eq_true _ ▸ ho)
    · exact .deleteFailed hs hd

/-- `do_savevm`. -/
def doSavevm (env : Env) (name : Option CString) (s : State) : Outcome :=
  let s := { s with savingState := 1 }
  match findUnsupported 0 s.blk.devices with
  | some device => ⟨s, [.notSupported device], false⟩
  | none =>
    let o := saveSnapshot env name s
    if o.created then { o with state := { o.state with savingState := 0 } } else o

/-- `and_do_savevm`: the check of the devices is commented out, and so is the flag. -/
def andDoSavevm (env : Env) (name : Option CString) (s : State) : Outcome :=
  saveSnapshot env name s

/-! ### Loading -/

/-- The checks of `load_vmstate` in front of the first change. -/
inductive LoadError where
  | noDevice
  | notFound
  | diskOnly
  | notSupported (device : ℕ)
  | missing (device : ℕ)
deriving DecidableEq, Repr

/-- The loop of `load_vmstate` over the devices from index `i` on. -/
def checkDevices (name : CString) : ℕ → List BlockDriverState → Except LoadError Unit
  | _, [] => .ok ()
  | i, bs :: rest =>
    if ¬ bs.isInserted ∨ bs.isReadOnly then checkDevices name (i + 1) rest
    else if ¬ bs.canSnapshot then .error (.notSupported i)
    else if (bdrvSnapshotFind bs name).isNone then .error (.missing i)
    else checkDevices name (i + 1) rest

/-- The checks of `load_vmstate(name)`. -/
def loadPrechecks (name : CString) (blk : BlockLayer) : Except LoadError Unit :=
  match blk.snapshots with
  | (none, _) => .error .noDevice
  | (some device, blk) =>
    match blk.devices[device]?.bind (bdrvSnapshotFind · name) with
    | none => .error .notFound
    | some sn =>
      if sn.vmStateSize = 0 then .error .diskOnly
      else checkDevices name 0 blk.devices

end Limbo.Snapshot
