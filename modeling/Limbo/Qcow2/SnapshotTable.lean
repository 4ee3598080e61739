import Limbo.Lib.Bytes
import Limbo.Lib.Run
import Limbo.Snapshot.Block

/-!
# The snapshot table of a qcow2 image

The list of snapshots in memory, the table on disk that the header points to, and the operations
that read or change them. Everything else of the image is behind the functions that read, write and
allocate, each of which may fail.
-/

namespace Limbo.Qcow2

open Lib Snapshot

structure QCowSnapshot where
  l1TableOffset : ℕ
  l1Size : ℕ
  idStr : CString
  name : CString
  diskSize : ℕ
  vmStateSize : ℕ
  dateSec : ℕ
  dateNsec : ℕ
  vmClockNsec : ℕ
deriving DecidableEq, Repr

/-- The image apart from its snapshots. What a function returns below zero is an error. -/
structure Storage (W : Type*) where
  totalSectors : W → ℕ
  l1Table : W → List ℕ
  l1TableOffset : W → ℕ
  /-- `qcow2_alloc_clusters()` -/
  allocClusters : ℤ → W → ℤ × W
  /-- `qcow2_free_clusters()` -/
  freeClusters : ℤ → ℤ → W → W
  /-- `bdrv_pwrite()` to the file -/
  pwrite : ℤ → List UInt8 → W → ℤ × W
  /-- `bdrv_flush()` of the file and of the image -/
  flushFile : W → ℤ × W
  flush : W → ℤ × W
  /-- `qcow2_update_snapshot_refcount()` -/
  updateSnapshotRefcount : ℕ → ℕ → ℤ → W → ℤ × W
  /-- `bdrv_pwrite_sync()` of the two fields of the header -/
  pwriteHeader : W → ℤ × W
  /-- What `qcow2_snapshot_goto()` does with the snapshot it has found -/
  goto : QCowSnapshot → W → ℤ × W
  /-- `check_refcounts_l1()` of the active table and of a snapshot -/
  checkActive : W → ℤ × W
  checkL1 : ℕ → ℕ → W → ℤ × W
  /-- The writes of `qcow2_update_header()` -/
  updateHeader : W → ℤ × W

/-- The fields of the header on disk. -/
structure SnapshotHeader where
  nbSnapshots : ℕ
  snapshotsOffset : ℤ
deriving DecidableEq, Repr

/-- `snapshots` is the array as it has been allocated; `table` is what stands on disk where the
header points to, and `saves` counts the tables that have come into force. -/
structure BDRVQcowState (W : Type*) where
  snapshots : List QCowSnapshot
  nbSnapshots : ℕ
  snapshotsOffset : ℤ
  snapshotsSize : ℤ
  header : SnapshotHeader
  table : List QCowSnapshot
  saves : ℕ
  image : W
deriving DecidableEq, Repr

/-! ### Entries -/

/-- The loop over the first entries of the array; there is no result if it reads past the end. -/
def firstEntries (snapshots : List QCowSnapshot) (nb : ℕ) : Option (List QCowSnapshot) :=
  if nb ≤ snapshots.length then some (snapshots.take nb) else none

/-- The loop that looks for an entry, from `i` on. -/
def findFrom (p : QCowSnapshot → Bool) (snapshots : List QCowSnapshot) :
    ℕ → ℕ → Option (Option ℕ)
  | 0, _ => some none
  | k + 1, i =>
    match snapshots[i]? with
    | none => none
    | some sn => if p sn then some (some i) else findFrom p snapshots k (i + 1)

/-- `strtoul()` in base 10 -/
def strtoul (s : CString) : ℕ :=
  let s := s.dropWhile fun c => c = 32 ∨ 9 ≤ c ∧ c ≤ 13
  let negative := s.head? = some 45
  let digits := (if s.head? = some 45 ∨ s.head? = some 43 then s.tail else s).takeWhile
    fun c => 48 ≤ c ∧ c ≤ 57
  let n := digits.foldl (fun n c => 10 * n + (c.toNat - 48)) 0
  if n ≥ 2 ^ 64 then 2 ^ 64 - 1 else if negative then (2 ^ 64 - n) % 2 ^ 64 else n

namespace BDRVQcowState

variable {W : Type*}

def entries (s : BDRVQcowState W) : Option (List QCowSnapshot) :=
  firstEntries s.snapshots s.nbSnapshots

/-- `find_new_snapshot_id()` -/
def findNewSnapshotId (s : BDRVQcowState W) : Option CString :=
  s.entries.map fun entries =>
    let idMax := entries.foldl
      (fun idMax sn => max idMax (Int.bmod (strtoul sn.idStr) (2 ^ 32))) 0
    decimal (Int32.ofInt (idMax + 1))

/-- `find_snapshot_by_id()` -/
def findSnapshotById (s : BDRVQcowState W) (idStr : CString) : Option (Option ℕ) :=
  findFrom (fun sn => sn.idStr = idStr) s.snapshots s.nbSnapshots 0

/-- `find_snapshot_by_id_or_name()` -/
def findSnapshotByIdOrName (s : BDRVQcowState W) (name : CString) : Option (Option ℕ) :=
  match s.findSnapshotById name with
  | some none => findFrom (fun sn => sn.name = name) s.snapshots s.nbSnapshots 0
  | result => result

end BDRVQcowState

/-! ### The table on disk -/

def alignOffset (offset n : ℤ) : ℤ := (offset + n - 1) / n * n

/-- `sizeof(QCowSnapshotHeader)`, `sizeof(QCowSnapshotExtraData)` -/
def headerSize : ℕ := 40

def extraSize : ℕ := 16

def QCowSnapshot.header (sn : QCowSnapshot) : List UInt8 :=
  beBytes 8 sn.l1TableOffset ++ beBytes 4 sn.l1Size ++ beBytes 2 sn.idStr.length ++
    beBytes 2 sn.name.length ++ beBytes 4 sn.dateSec ++ beBytes 4 sn.dateNsec ++
    beBytes 8 sn.vmClockNsec ++
    beBytes 4 (if sn.vmStateSize ≤ 0xffffffff then sn.vmStateSize else 0) ++ beBytes 4 extraSize

def QCowSnapshot.extra (sn : QCowSnapshot) : List UInt8 :=
  beBytes 8 sn.vmStateSize ++ beBytes 8 sn.diskSize

/-- The size of a table. -/
def tableSize (entries : List QCowSnapshot) : ℕ :=
  (entries.foldl (fun offset sn => alignOffset offset 8 + headerSize + extraSize +
    sn.idStr.length + sn.name.length) (0 : ℤ)).toNat

/-- The size of a table, as the `int` that it is kept in. -/
def snapshotsSize (entries : List QCowSnapshot) : ℤ := wrap32 (tableSize entries)

section
variable {W : Type*} (io : Storage W)

/-- Writes one after the other, until one fails. -/
def pwriteAll : List (List UInt8) → ℤ → W → ℤ × ℤ × W
  | [], offset, w => (0, offset, w)
  | bytes :: rest, offset, w =>
    let (ret, w) := io.pwrite offset bytes w
    if ret < 0 then (ret, offset, w) else pwriteAll rest (offset + bytes.length) w

/-- All snapshots are written to the new list. -/
def writeEntries : List QCowSnapshot → ℤ → W → ℤ × W
  | [], _, w => (0, w)
  | sn :: entries, offset, w =>
    let (ret, offset, w) :=
      pwriteAll io [sn.header, sn.extra, sn.idStr, sn.name] (alignOffset offset 8) w
    if ret < 0 then (ret, w) else writeEntries entries offset w

/-- The new table and the header that points to it: an error, or the offset of the table. -/
def writeTable (entries : List QCowSnapshot) (w : W) : ℤ × W :=
  let (offset, w) := io.allocClusters (snapshotsSize entries) w
  let (_, w) := io.flushFile w
  if offset < 0 then (offset, w)
  else
    let (ret, w) := writeEntries io entries offset w
    if ret < 0 then (ret, w)
    else
      let (ret, w) := io.flush w
      if ret < 0 then (ret, w)
      else
        let (ret, w) := io.pwriteHeader w
        if ret < 0 then (ret, w) else (offset, w)

namespace BDRVQcowState

/-- `qcow2_write_snapshots()` -/
def writeSnapshots (s : BDRVQcowState W) : Option (ℤ × BDRVQcowState W) :=
  s.entries.map fun entries =>
    let (offset, w) := writeTable io entries s.image
    if offset < 0 then (offset, { s with image := w })
    else (0, { s with
      header := ⟨s.nbSnapshots, offset⟩
      table := entries
      saves := s.saves + 1
      image := io.freeClusters s.snapshotsOffset s.snapshotsSize w
      snapshotsOffset := offset
      snapshotsSize := Qcow2.snapshotsSize entries })

/-! ### Create and delete -/

/-- What `qcow2_snapshot_create()` does before it changes the list: an error, or the snapshot. -/
def prepareSnapshot (s : BDRVQcowState W) (idStr : CString) (snInfo : QEMUSnapshotInfo) :
    Except (ℤ × W) (QCowSnapshot × W) :=
  let size := (io.l1Table s.image).length
  let (l1TableOffset, w) := io.allocClusters (size * 8) s.image
  if l1TableOffset < 0 then .error (l1TableOffset, w)
  else
    let sn : QCowSnapshot := {
      l1TableOffset := l1TableOffset.toNat
      l1Size := (io.l1Table w).length
      idStr := idStr
      name := snInfo.name
      diskSize := io.totalSectors s.image * 512
      vmStateSize := snInfo.vmStateSize
      dateSec := snInfo.dateSec
      dateNsec := snInfo.dateNsec
      vmClockNsec := snInfo.vmClockNsec }
    let (ret, w) := io.pwrite l1TableOffset ((io.l1Table w).flatMap (beBytes 8)) w
    if ret < 0 then .error (ret, w)
    else
      let (ret, w) := io.updateSnapshotRefcount (io.l1TableOffset w) (io.l1Table w).length 1 w
      if ret < 0 then .error (ret, w)
      else
        let (ret, w) := io.flush w
        if ret < 0 then .error (ret, w) else .ok (sn, w)

/-- The end of `qcow2_snapshot_create()`: the snapshot is appended to the list. -/
def appendSnapshot (s : BDRVQcowState W) (sn : QCowSnapshot) : Option (ℤ × BDRVQcowState W) :=
  match s.entries with
  | none => none
  | some entries =>
    let oldSnapshotList := s.snapshots
    match writeSnapshots io { s with
        snapshots := entries ++ [sn], nbSnapshots := s.nbSnapshots + 1 } with
    | none => none
    | some (ret, s) =>
      if ret < 0 then some (ret, { s with snapshots := oldSnapshotList }) else some (0, s)

/-- `EEXIST`, `ENOENT` -/
def eexist : ℤ := 17

def enoent : ℤ := 2

/-- The id of the new snapshot. -/
def newId (s : BDRVQcowState W) (snInfo : QEMUSnapshotInfo) : Option CString :=
  if snInfo.idStr = [] then s.findNewSnapshotId else some snInfo.idStr

def snapshotCreate (s : BDRVQcowState W) (snInfo : QEMUSnapshotInfo) :
    Option (ℤ × BDRVQcowState W) :=
  match s.newId snInfo with
  | none => none
  | some idStr =>
    match s.findSnapshotById idStr with
    | none => none
    | some (some _) => some (-eexist, s)
    | some none =>
      match s.prepareSnapshot io idStr snInfo with
      | .error (ret, w) => some (ret, { s with image := w })
      | .ok (sn, w) => appendSnapshot io { s with image := w } sn

/-- `memmove()` of the entries after the one with the index `i` over it -/
def memmove (snapshots : List QCowSnapshot) (nb i : ℕ) : List QCowSnapshot :=
  snapshots.take i ++ (snapshots.drop (i + 1)).take (nb - i - 1) ++ snapshots.drop (nb - 1)

/-- What is left of `qcow2_snapshot_delete()` when the snapshot is not in the table any more. -/
def releaseSnapshot (sn : QCowSnapshot) (w : W) : ℤ × W :=
  let (ret, w) := io.updateSnapshotRefcount sn.l1TableOffset sn.l1Size (-1) w
  if ret < 0 then (ret, w)
  else
    let w := io.freeClusters sn.l1TableOffset (sn.l1Size * 8) w
    let (ret, w) := io.updateSnapshotRefcount (io.l1TableOffset w) (io.l1Table w).length 0 w
    if ret < 0 then (ret, w) else (0, w)

def snapshotDelete (s : BDRVQcowState W) (snapshotId : CString) : Option (ℤ × BDRVQcowState W) :=
  match s.findSnapshotByIdOrName snapshotId with
  | none => none
  | some none => some (-enoent, s)
  | some (some i) =>
    match s.snapshots[i]? with
    | none => none
    | some sn =>
      match writeSnapshots io { s with
          snapshots := memmove s.snapshots s.nbSnapshots i, nbSnapshots := s.nbSnapshots - 1 } with
      | none => none
      | some (ret, s) =>
        if ret < 0 then some (ret, s)
        else
          let (ret, w) := releaseSnapshot io sn s.image
          some (ret, { s with image := w })

/-! ### The other operations -/

def snapshotGoto (s : BDRVQcowState W) (snapshotId : CString) : Option (ℤ × BDRVQcowState W) :=
  match s.findSnapshotByIdOrName snapshotId with
  | none => none
  | some none => some (-enoent, s)
  | some (some i) =>
    match s.snapshots[i]? with
    | none => none
    | some sn =>
      let (ret, w) := io.goto sn s.image
      some (ret, { s with image := w })

def snapshotList (s : BDRVQcowState W) : Option (ℤ × BDRVQcowState W) :=
  s.entries.map fun entries => (entries.length, s)

/-- The loop of `qcow2_check_refcounts()` over the snapshots. -/
def checkSnapshots : List QCowSnapshot → W → ℤ × W
  | [], w => (0, w)
  | sn :: entries, w =>
    let (ret, w) := io.checkL1 sn.l1TableOffset sn.l1Size w
    if ret < 0 then (ret, w) else checkSnapshots entries w

def checkRefcounts (s : BDRVQcowState W) : Option (ℤ × BDRVQcowState W) :=
  let (ret, w) := io.checkActive s.image
  if ret < 0 then some (ret, { s with image := w })
  else
    s.entries.map fun entries =>
      let (ret, w) := checkSnapshots io entries w
      (ret, { s with image := w })

/-- `qcow2_update_header()` -/
def updateHeader (s : BDRVQcowState W) : ℤ × BDRVQcowState W :=
  let (ret, w) := io.updateHeader s.image
  if ret < 0 then (ret, { s with image := w })
  else (0, { s with header := ⟨s.nbSnapshots, s.snapshotsOffset⟩, image := w })

/-- `qcow2_free_snapshots()` -/
def freeSnapshots (s : BDRVQcowState W) : Option (BDRVQcowState W) :=
  s.entries.map fun _ => { s with snapshots := [], nbSnapshots := 0 }

end BDRVQcowState

end

end Limbo.Qcow2
