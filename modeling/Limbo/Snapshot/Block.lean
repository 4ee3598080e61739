import Limbo.Lib.CString

/-!
# Block devices and their snapshot tables

The part of the block layer that saving and loading a machine goes through: which devices can take
snapshots, and the snapshot table of a qcow2 image with its lookups, `create` and `delete`. A
device is a chain of layers; a call on the device goes to the first layer whose driver has the
function.
-/

namespace Limbo.Snapshot

open Lib

/-- `QEMUSnapshotInfo`, and an entry of the snapshot table of an image. -/
structure QEMUSnapshotInfo where
  idStr : CString
  name : CString
  vmStateSize : ℕ
  dateSec : ℕ
  dateNsec : ℕ
  vmClockNsec : ℕ
deriving DecidableEq, Repr

/-- Why a call of the block layer fails. -/
inductive Errno where
  | noMedium | notSup | exist | noEnt | io
deriving DecidableEq, Repr

/-- A driver at work: what its `bdrv_is_inserted` answers, if it has one, and its snapshot table,
if it has the snapshot functions. -/
structure BlockDriver where
  isInserted : Option Bool
  snapshots : Option (List QEMUSnapshotInfo)
deriving DecidableEq, Repr

/-- `BlockDriverState`: a layer without or with a file below it; `drv` is null for a drive without
a medium. -/
inductive BlockDriverState where
  | protocol (drv : Option BlockDriver) (readOnly : Bool)
  | format (drv : Option BlockDriver) (readOnly : Bool) (file : BlockDriverState)
deriving DecidableEq, Repr

namespace BlockDriverState

def drv : BlockDriverState → Option BlockDriver
  | protocol drv _ | format drv _ _ => drv

/-- `bdrv_is_read_only`. -/
def isReadOnly : BlockDriverState → Bool
  | protocol _ readOnly | format _ readOnly _ => readOnly

/-- `bdrv_is_inserted`. -/
def isInserted (bs : BlockDriverState) : Bool :=
  match bs.drv with
  | none => false
  | some drv => drv.isInserted.getD true

/-- `bdrv_can_snapshot`. -/
def canSnapshot : BlockDriverState → Bool
  | protocol none _ | format none _ _ => false
  | bs@(protocol (some drv) readOnly) => bs.isInserted && !readOnly && drv.snapshots.isSome
  | bs@(format (some drv) readOnly file) =>
    bs.isInserted && !readOnly && (drv.snapshots.isSome || file.canSnapshot)

/-- The snapshot table that a call of a snapshot function reaches. -/
def table : BlockDriverState → Except Errno (List QEMUSnapshotInfo)
  | protocol none _ | format none _ _ => .error .noMedium
  | protocol (some drv) _ =>
    match drv.snapshots with
    | some t => .ok t
    | none => .error .notSup
  | format (some drv) _ file =>
    match drv.snapshots with
    | some t => .ok t
    | none => file.table

/-- The device with another snapshot table. -/
def setTable (t : List QEMUSnapshotInfo) : BlockDriverState → BlockDriverState
  | protocol drv readOnly =>
    protocol (drv.map fun d => { d with snapshots := d.snapshots.map fun _ => t }) readOnly
  | format none readOnly file => format none readOnly file
  | format (some drv) readOnly file =>
    if drv.snapshots.isSome
    then format (some { drv with snapshots := some t }) readOnly file
    else format (some drv) readOnly (file.setTable t)

end BlockDriverState

open BlockDriverState

/-! ### The snapshot table of a qcow2 image -/

namespace QEMUSnapshotInfo

/-- An entry as `qcow2_snapshot_list` copies it to the fields of a `QEMUSnapshotInfo`. -/
def listed (sn : QEMUSnapshotInfo) : QEMUSnapshotInfo :=
  { sn with idStr := pstrcpy 128 sn.idStr, name := pstrcpy 256 sn.name }

/-- `!strcmp(sn->id_str, name) || !strcmp(sn->name, name)`. -/
def Denotes (name : CString) (sn : QEMUSnapshotInfo) : Prop := sn.idStr = name ∨ sn.name = name

instance (name : CString) (sn : QEMUSnapshotInfo) : Decidable (sn.Denotes name) :=
  inferInstanceAs (Decidable (_ ∨ _))

end QEMUSnapshotInfo

/-- `find_new_snapshot_id`: one more than the largest id, read as a number; an `int` wraps. -/
def findNewSnapshotId (t : List QEMUSnapshotInfo) : CString :=
  let idMax := t.foldl (fun idMax sn =>
    let id := Int32.ofNat (strtoul sn.idStr)
    if id > idMax then id else idMax) (0 : Int32)
  decimal (idMax + 1)

/-- `find_snapshot_by_id`. -/
def findSnapshotById (t : List QEMUSnapshotInfo) (idStr : CString) : Option ℕ :=
  t.findIdx? (·.idStr = idStr)

/-- `find_snapshot_by_id_or_name`. -/
def findSnapshotByIdOrName (t : List QEMUSnapshotInfo) (name : CString) : Option ℕ :=
  match findSnapshotById t name with
  | some i => some i
  | none => t.findIdx? (·.name = name)

/-- The outcome of the reads, writes and allocations of a call: none of them fails, or one fails
and leaves some table behind. -/
abbrev Io := Option (List QEMUSnapshotInfo)

/-- `qcow2_snapshot_create`: the error, the table and `sn_info`, which keeps a generated id. -/
def qcow2SnapshotCreate (io : Io) (t : List QEMUSnapshotInfo) (snInfo : QEMUSnapshotInfo) :
    Option Errno × List QEMUSnapshotInfo × QEMUSnapshotInfo :=
  let snInfo := if snInfo.idStr = [] then { snInfo with idStr := findNewSnapshotId t } else snInfo
  if (findSnapshotById t snInfo.idStr).isSome then (some .exist, t, snInfo)
  else
    match io with
    | some t' => (some .io, t', snInfo)
    | none => (none, t ++ [snInfo], snInfo)

/-- `qcow2_snapshot_delete`: the error and the table. -/
def qcow2SnapshotDelete (io : Io) (t : List QEMUSnapshotInfo) (snapshotId : CString) :
    Option Errno × List QEMUSnapshotInfo :=
  match findSnapshotByIdOrName t snapshotId with
  | none => (some .noEnt, t)
  | some i =>
    match io with
    | some t' => (some .io, t')
    | none => (none, t.eraseIdx i)

/-! ### Calls on a device -/

/-- `bdrv_snapshot_create`. -/
def bdrvSnapshotCreate (io : Io) (bs : BlockDriverState) (snInfo : QEMUSnapshotInfo) :
    Option Errno × BlockDriverState × QEMUSnapshotInfo :=
  match bs.table with
  | .error e => (some e, bs, snInfo)
  | .ok t =>
    let (ret, t', snInfo') := qcow2SnapshotCreate io t snInfo
    (ret, bs.setTable t', snInfo')

/-- `bdrv_snapshot_delete`. -/
def bdrvSnapshotDelete (io : Io) (bs : BlockDriverState) (snapshotId : CString) :
    Option Errno × BlockDriverState :=
  match bs.table with
  | .error e => (some e, bs)
  | .ok t =>
    let (ret, t') := qcow2SnapshotDelete io t snapshotId
    (ret, bs.setTable t')

/-- `bdrv_snapshot_list`. -/
def bdrvSnapshotList (bs : BlockDriverState) : Except Errno (List QEMUSnapshotInfo) :=
  bs.table.map fun t => t.map QEMUSnapshotInfo.listed

/-- `bdrv_snapshot_find`: the first entry with the id or the name, as the list shows it. -/
def bdrvSnapshotFind (bs : BlockDriverState) (name : CString) : Option QEMUSnapshotInfo :=
  match bdrvSnapshotList bs with
  | .error _ => none
  | .ok snTab => snTab.find? (·.Denotes name)

/-! ### What a call changes -/

section Table

variable (t : List QEMUSnapshotInfo) (bs : BlockDriverState)

@[simp] lemma isReadOnly_setTable : (bs.setTable t).isReadOnly = bs.isReadOnly := by
  cases bs with
  | protocol drv readOnly => rfl
  | format drv readOnly file =>
    cases drv with
    | none => rfl
    | some drv =>
      unfold setTable
      split_ifs <;> rfl

@[simp] lemma isInserted_setTable : (bs.setTable t).isInserted = bs.isInserted := by
  cases bs with
  | protocol drv readOnly => cases drv <;> rfl
  | format drv readOnly file =>
    cases drv with
    | none => rfl
    | some drv =>
      unfold setTable
      split_ifs <;> rfl

@[simp] lemma canSnapshot_setTable : (bs.setTable t).canSnapshot = bs.canSnapshot := by
  induction bs with
  | protocol drv readOnly =>
    cases drv with
    | none => rfl
    | some drv => simp [setTable, canSnapshot, isInserted, BlockDriverState.drv]
  | format drv readOnly file ih =>
    cases drv with
    | none => rfl
    | some drv =>
      unfold setTable
      split_ifs with h
      · simp [canSnapshot, isInserted, BlockDriverState.drv, h]
      · simp [canSnapshot, isInserted, BlockDriverState.drv, ih]

/-- A device that can snapshot has a table. -/
lemma table_of_canSnapshot {bs : BlockDriverState} (h : bs.canSnapshot = true) :
    ∃ t, bs.table = .ok t := by
  induction bs with
  | protocol drv readOnly =>
    cases drv with
    | none => simp [canSnapshot] at h
    | some drv =>
      simp only [canSnapshot, Bool.and_eq_true] at h
      obtain ⟨t, ht⟩ := Option.isSome_iff_exists.mp h.2
      exact ⟨t, by simp [table, ht]⟩
  | format drv readOnly file ih =>
    cases drv with
    | none => simp [canSnapshot] at h
    | some drv =>
      simp only [canSnapshot, Bool.and_eq_true, Bool.or_eq_true] at h
      cases hs : drv.snapshots with
      | some t => exact ⟨t, by simp [table, hs]⟩
      | none =>
        obtain ⟨t, ht⟩ := ih (h.2.resolve_left (by simp [hs]))
        exact ⟨t, by simp [table, hs, ht]⟩

/-- A table that is there is the one that is set. -/
lemma table_setTable {bs : BlockDriverState} {t' : List QEMUSnapshotInfo} (h : bs.table = .ok t') :
    (bs.setTable t).table = .ok t := by
  induction bs with
  | protocol drv readOnly =>
    cases drv with
    | none => simp [table] at h
    | some drv =>
      cases hs : drv.snapshots with
      | none => simp [table, hs] at h
      | some _ => simp [setTable, table, hs]
  | format drv readOnly file ih =>
    cases drv with
    | none => simp [table] at h
    | some drv =>
      cases hs : drv.snapshots with
      | some _ => simp [setTable, table, hs]
      | none =>
        have hfile : file.table = .ok t' := by simpa [table, hs] using h
        simp [setTable, table, hs, ih hfile]

end Table

end Limbo.Snapshot
