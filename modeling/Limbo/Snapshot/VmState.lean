import Limbo.Snapshot.QemuFile
import Limbo.Snapshot.NewSnapshots

/-!
# Errors while the VM state is written

`qemu_savevm_state` as a program over the buffered file, and the two save routines around it. A
`bdrv_save_vmstate` that fails goes unnoticed, since `block_put_buffer` answers with the length of
the buffer. What a device writes is up to its handlers, which work on the state `σ` of the guest.
-/

namespace Limbo.Snapshot

open Lib BlockDriverState FileProg

/-! ### The sections -/

/-- The stage of `save_live_state`: `QEMU_VM_SECTION_START`, `_PART`, `_END`, or `-1`. -/
inductive Stage where
  | start | part | finish | cancel
deriving DecidableEq, Repr

/-- `SaveStateEntry`; `saveState` is the old style function or the one made of `vmsd`. -/
structure SaveStateEntry (σ : Type) where
  idstr : CString
  instanceId : UInt32
  versionId : UInt32
  sectionId : UInt32
  setParams : Option (σ → σ)
  saveLiveState : Option (Stage → σ → FileProg (ℤ × σ))
  saveState : Option (σ → FileProg σ)
  noMigrate : Bool

section Savevm

variable {σ : Type}

def put (v : UInt8) : FileProg Unit := .putByte v (.pure ())

/-- `qemu_file_get_error`. -/
def qemuFileGetError : FileProg ℤ := .getError .pure

/-- `qemu_put_be32`. -/
def qemuPutBe32 (v : UInt32) : FileProg Unit := do
  put (v >>> 24).toUInt8
  put (v >>> 16).toUInt8
  put (v >>> 8).toUInt8
  put v.toUInt8

/-- A section's type, and what identifies it where it starts or is written in full. -/
def putSectionHeader (type : UInt8) (se : SaveStateEntry σ) : FileProg Unit := do
  put type
  qemuPutBe32 se.sectionId
  put (UInt8.ofNat se.idstr.length)
  .putBuffer se.idstr (.pure ())
  qemuPutBe32 se.instanceId
  qemuPutBe32 se.versionId

/-- `qemu_savevm_state_cancel`. -/
def qemuSavevmStateCancel : List (SaveStateEntry σ) → σ → FileProg σ
  | [], g => return g
  | se :: rest, g =>
    match se.saveLiveState with
    | none => qemuSavevmStateCancel rest g
    | some save => do
      let (_, g) ← save .cancel g
      qemuSavevmStateCancel rest g

/-- The loop of `qemu_savevm_state_begin`, with the error of a handler. -/
def beginSections : List (SaveStateEntry σ) → σ → FileProg (Option ℤ × σ)
  | [], g => return (none, g)
  | se :: rest, g =>
    match se.saveLiveState with
    | none => beginSections rest g
    | some save => do
      putSectionHeader 0x01 se
      let (ret, g) ← save .start g
      if ret < 0 then return (some ret, g) else beginSections rest g

/-- `qemu_savevm_state_begin`. -/
def qemuSavevmStateBegin (handlers : List (SaveStateEntry σ)) (g : σ) : FileProg (ℤ × σ) := do
  let g := handlers.foldl (fun g se => se.setParams.elim g (· g)) g
  qemuPutBe32 0x5145564d
  qemuPutBe32 0x00000003
  let (err, g) ← beginSections handlers g
  match err with
  | some ret =>
    let g ← qemuSavevmStateCancel handlers g
    return (ret, g)
  | none =>
    let ret ← qemuFileGetError
    if ret ≠ 0 then
      let g ← qemuSavevmStateCancel handlers g
      return (ret, g)
    else return (ret, g)

/-- The loop of `qemu_savevm_state_iterate`; `ret` is the answer of the handler before. -/
def iterateSections : List (SaveStateEntry σ) → ℤ → σ → FileProg (ℤ × σ)
  | [], ret, g => return (ret, g)
  | se :: rest, ret, g =>
    match se.saveLiveState with
    | none => iterateSections rest ret g
    | some save => do
      put 0x02
      qemuPutBe32 se.sectionId
      let (ret, g) ← save .part g
      if ret ≤ 0 then return (ret, g) else iterateSections rest ret g

/-- `qemu_savevm_state_iterate`. -/
def qemuSavevmStateIterate (handlers : List (SaveStateEntry σ)) (g : σ) : FileProg (ℤ × σ) := do
  let (ret, g) ← iterateSections handlers 1 g
  if ret ≠ 0 then return (ret, g)
  else
    let ret ← qemuFileGetError
    if ret ≠ 0 then
      let g ← qemuSavevmStateCancel handlers g
      return (ret, g)
    else return (ret, g)

/-- The first loop of `qemu_savevm_state_complete`, with the error of a handler. -/
def endSections : List (SaveStateEntry σ) → σ → FileProg (Option ℤ × σ)
  | [], g => return (none, g)
  | se :: rest, g =>
    match se.saveLiveState with
    | none => endSections rest g
    | some save => do
      put 0x03
      qemuPutBe32 se.sectionId
      let (ret, g) ← save .finish g
      if ret < 0 then return (some ret, g) else endSections rest g

/-- The second loop of `qemu_savevm_state_complete`. -/
def fullSections : List (SaveStateEntry σ) → σ → FileProg σ
  | [], g => return g
  | se :: rest, g =>
    match se.saveState with
    | none => fullSections rest g
    | some save => do
      putSectionHeader 0x04 se
      let g ← save g
      fullSections rest g

/-- `qemu_savevm_state_complete`. -/
def qemuSavevmStateComplete (handlers : List (SaveStateEntry σ)) (g : σ) : FileProg (ℤ × σ) := do
  let (err, g) ← endSections handlers g
  match err with
  | some ret => return (ret, g)
  | none =>
    let g ← fullSections handlers g
    put 0x00
    let ret ← qemuFileGetError
    return (ret, g)

/-- The loop of `qemu_savevm_state`, which takes at most `fuel` turns. -/
def iterateAll (handlers : List (SaveStateEntry σ)) : ℕ → σ → FileProg (Option (ℤ × σ))
  | 0, _ => return none
  | fuel + 1, g => do
    let (ret, g) ← qemuSavevmStateIterate handlers g
    if ret = 0 then iterateAll handlers fuel g else return some (ret, g)

/-- `qemu_savevm_state` behind the label `out`. -/
def savevmOut (ret : ℤ) (g : σ) : FileProg (Option (ℤ × σ)) := do
  if ret = 0 then
    let ret ← qemuFileGetError
    return some (ret, g)
  else return some (ret, g)

/-- `qemu_savevm_state`. -/
def qemuSavevmState (handlers : List (SaveStateEntry σ)) (fuel : ℕ) (g : σ) :
    FileProg (Option (ℤ × σ)) := do
  if handlers.any (·.noMigrate) then savevmOut (-22) g
  else
    let (ret, g) ← qemuSavevmStateBegin handlers g
    if ret < 0 then savevmOut ret g
    else
      match ← iterateAll handlers fuel g with
      | none => return none
      | some (ret, g) =>
        if ret < 0 then savevmOut ret g
        else
          let (ret, g) ← qemuSavevmStateComplete handlers g
          savevmOut ret g

/-! ### The save around it -/

/-- What the save keeps of the VM state: what `qemu_savevm_state` returns, the position in the file
in front of `qemu_fclose`, and the area behind it. -/
structure Written where
  ret : ℤ
  vmStateSize : ℕ
  device : VmStateDevice

/-- The part of a save from `qemu_fopen_bdrv` to `qemu_fclose`. -/
def writeVmState (io : ℕ → SaveIo) (handlers : List (SaveStateEntry σ)) (fuel : ℕ) (g : σ)
    (area : ℕ → UInt8) : Option Written :=
  let (ret, f, d) :=
    (qemuSavevmState handlers fuel g).run (blockPutBuffer io) qemuFopenOps ⟨area, []⟩
  ret.map fun (ret, _) => ⟨ret, qemuFtell f, (qemuFclose (blockPutBuffer io) f d).2⟩

/-- What `qemu_savevm_state` returns and the byte stream that it produces. -/
def producedState (handlers : List (SaveStateEntry σ)) (fuel : ℕ) (g : σ) :
    Option (ℤ × List UInt8) :=
  let (ret, p) := (qemuSavevmState handlers fuel g).produce ⟨[], 0⟩
  ret.map fun (ret, _) => (ret, p.bytes)

/-- The environment of a save that gets a VM state of this result and size. -/
def Env.withVmState (env : Env) (ret : ℤ) (size : ℕ) : Env :=
  { env with
    savevmState := ret
    vmStateSize := size }

/-- The VM state as it is written: the result and the size do not depend on the calls. -/
lemma writeVmState_eq {handlers : List (SaveStateEntry σ)} {fuel : ℕ} {g : σ} {ret : ℤ}
    {stream : List UInt8} (h : producedState handlers fuel g = some (ret, stream))
    (io : ℕ → SaveIo) (area : ℕ → UInt8) :
    ∃ w, writeVmState io handlers fuel g area = some w ∧ w.ret = ret ∧
      w.vmStateSize = stream.length ∧
      (w.device.Failed ↔ ∃ k < writeCalls stream.length, (io k).isSome) ∧
      (¬ w.device.Failed → w.device.read stream.length = stream) := by
  have hopen : Tracks io ⟨[], 0⟩ qemuFopenOps ⟨area, []⟩ := tracks_qemuFopenOps area
  obtain ⟨hret, htracks⟩ := hopen.run (q := qemuSavevmState handlers fuel g)
  unfold producedState at h
  unfold writeVmState
  generalize (qemuSavevmState handlers fuel g).produce ⟨[], 0⟩ = q at h hret htracks
  generalize (qemuSavevmState handlers fuel g).run (blockPutBuffer io) qemuFopenOps ⟨area, []⟩ =
    r at hret htracks ⊢
  obtain ⟨result, p⟩ := q
  obtain ⟨result', f, d⟩ := r
  obtain rfl : result' = result := hret
  obtain ⟨⟨ret', g'⟩, rfl, heq⟩ := Option.map_eq_some_iff.mp h
  obtain ⟨rfl, rfl⟩ := Prod.mk.inj heq
  obtain ⟨hfailed, hread⟩ := htracks.qemuFclose
  exact ⟨_, rfl, rfl, htracks.length, hfailed, hread⟩

/-- Where a write of the VM state fails, the save takes its error exit and creates no snapshot with
a VM state; so a snapshot with a VM state has the whole stream. -/
structure WriteErrorsReach (s : State) (o : Outcome) (device : VmStateDevice)
    (stream : List UInt8) : Prop where
  errorExit : device.Failed → o.created = false
  noState : device.Failed → ∀ j e, NewSnapshot s o j e → e.vmStateSize = 0
  complete : ∀ j e, NewSnapshot s o j e → e.vmStateSize ≠ 0 →
    device.read e.vmStateSize = stream

lemma Routine.newSnapshot_vmStateSize {r : Routine} {env : Env} {name : Option CString}
    {s : State} {j : ℕ} {e : QEMUSnapshotInfo} (h : NewSnapshot s (r.run env name s) j e) :
    e.vmStateSize = env.vmStateSize ∨ e.vmStateSize = 0 := by
  obtain ⟨device, bs, -, -, rfl⟩ := (Routine.newSnapshot_iff.mp h).2.eq_entryOn
  show (if j = device then env.vmStateSize else 0) = _ ∨ (if j = device then _ else 0) = _
  by_cases hj : j = device
  · rw [if_pos hj]
    exact .inl rfl
  · rw [if_neg hj]
    exact .inr rfl

/-- Write errors reach the save routine exactly when there are none among the calls for the stream,
or the save does not come to the creation of the snapshots. -/
theorem writeErrorsReach_iff (r : Routine) (io : ℕ → SaveIo)
    (handlers : List (SaveStateEntry σ)) (fuel : ℕ) (g : σ) (area : ℕ → UInt8) (env : Env)
    (name : Option CString) (s : State) (ret : ℤ) (stream : List UInt8)
    (h : producedState handlers fuel g = some (ret, stream)) :
    ∃ w, writeVmState io handlers fuel g area = some w ∧
      (WriteErrorsReach s (r.run (env.withVmState w.ret w.vmStateSize) name s) w.device stream ↔
        (∀ k < writeCalls stream.length, io k = none) ∨
          ¬ ((r = .doSavevm → AllSupported s.blk.devices) ∧
            ReachesCreate (env.withVmState ret stream.length) name s.blk.devices)) := by
  obtain ⟨w, hw, hret, hsize, hfailed, hread⟩ := writeVmState_eq h io area
  have hnone : (∀ k < writeCalls stream.length, io k = none) ↔ ¬ w.device.Failed := by
    rw [hfailed]
    push Not
    simp
  refine ⟨w, hw, ?_⟩
  rw [hnone, ← saveSnapshot_created, ← Routine.run_created, hret, hsize]
  constructor
  · intro hreach
    by_cases hf : w.device.Failed
    · right
      rw [hreach.errorExit hf]
      exact Bool.false_ne_true
    · exact .inl hf
  · rintro (hok | hexit)
    · refine ⟨fun hf => absurd hf hok, fun hf => absurd hf hok, fun j e hnew hne => ?_⟩
      rcases Routine.newSnapshot_vmStateSize hnew with he | he
      · rw [he]
        exact hread hok
      · exact absurd he hne
    · refine ⟨fun _ => Bool.not_eq_true _ ▸ hexit, fun _ j e hnew => absurd hnew.1 hexit,
        fun j e hnew => absurd hnew.1 hexit⟩

end Savevm

/-- A guest without devices: the stream is the header and the end mark. -/
theorem writeErrorsReach_no_devices :
    ∃ w, writeVmState (fun _ => none) ([] : List (SaveStateEntry Unit)) 1 () (fun _ => 0) =
        some w ∧
      (WriteErrorsReach ⟨⟨[qcow2Disk []], none, by simp⟩, 0⟩
          (Routine.doSavevm.run (quietEnv.withVmState w.ret w.vmStateSize) (some (cstr "s"))
            ⟨⟨[qcow2Disk []], none, by simp⟩, 0⟩)
          w.device [0x51, 0x45, 0x56, 0x4d, 0, 0, 0, 3, 0] ↔
        (∀ k < writeCalls 9, (fun _ : ℕ => (none : SaveIo)) k = none) ∨
          ¬ ((Routine.doSavevm = .doSavevm → AllSupported [qcow2Disk []]) ∧
            ReachesCreate (quietEnv.withVmState 0 9) (some (cstr "s")) [qcow2Disk []])) :=
  writeErrorsReach_iff .doSavevm (fun _ => none) ([] : List (SaveStateEntry Unit)) 1 ()
    (fun _ => 0) quietEnv (some (cstr "s")) ⟨⟨[qcow2Disk []], none, by simp⟩, 0⟩ 0
    [0x51, 0x45, 0x56, 0x4d, 0, 0, 0, 3, 0] (by decide)

/-- The only write of a save fails, and the save goes on and creates a snapshot with a VM state. -/
theorem write_error_unnoticed :
    ∃ w, writeVmState (fun _ => some ⟨-5, fun _ => 0, by decide⟩)
        ([] : List (SaveStateEntry Unit)) 1 () (fun _ => 0) = some w ∧
      w.device.Failed ∧ w.vmStateSize = 9 ∧
      (doSavevm (quietEnv.withVmState w.ret w.vmStateSize) (some (cstr "s"))
        ⟨⟨[qcow2Disk []], none, by simp⟩, 0⟩).created = true ∧
      w.device.read 9 ≠ [0x51, 0x45, 0x56, 0x4d, 0, 0, 0, 3, 0] := by
  refine ⟨_, rfl, ⟨-5, ?_, by decide⟩, ?_, ?_, ?_⟩
  · decide
  · decide
  · decide
  · decide

end Limbo.Snapshot
