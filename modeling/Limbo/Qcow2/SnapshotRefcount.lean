import Limbo.Lib.Held

/-!
# `qcow2_update_snapshot_refcount`

The function goes through the L1 table of a snapshot and the L2 tables, and updates the refcount of
each cluster; `update_refcount` loads the refcount blocks for it. Each entry of the tables stands
here with the results of the calls that are made for it. A run leaves a log of the tables that it
takes from the caches and releases, of the L2 entries that it stores, and of the reads, updates and
writes of tables that fail.
-/

namespace Limbo.Qcow2.Refcount

open Lib

def eio : ℤ := 5

def einval : ℤ := 22

def QCOW_OFLAG_COPIED : UInt64 := 0x8000000000000000

def QCOW_OFLAG_COMPRESSED : UInt64 := 0x4000000000000000

/-- `L1E_OFFSET_MASK` and `L2E_OFFSET_MASK` -/
def offsetMask : UInt64 := 0x00ffffffffffff00

def REFCOUNT_SHIFT : ℕ := 1

/-! ### The log -/

/-- A table of one of the two caches. -/
inductive Table
  | l2 (offset : UInt64)
  | refcountBlock (index : ℤ)
deriving DecidableEq

/-- An entry is stored in an L2 table, or a call fails. -/
inductive Note
  | store (offset : UInt64)
  | failed
deriving DecidableEq

abbrev Log := List (Event Table Note)

def failed : Event Table Note := .note .failed

/-- The result of a read, an update or a write. -/
def check (ret : ℤ) : Log := if ret < 0 then [failed] else []

/-- `qcow2_cache_get` -/
def cacheGet (t : Table) (ret : ℤ) : Log := if ret < 0 then [failed] else [.take t]

/-- `qcow2_cache_put`, which releases the table and may write it. -/
def cachePut (t : Table) (ret : ℤ) : Log := .release t :: check ret

/-- The flush in `qcow2_cache_set_writethrough`, if the cache has not been writing through. -/
def setWritethrough (old enable : Bool) (flush : ℤ) : Log :=
  if !old && enable then check flush else []

/-! ### The image -/

/-- The fields of `BDRVQcowState` that the functions read. -/
structure Image where
  clusterBits : ℕ
  l1TableOffset : ℕ
  l2Writethrough : Bool
  refcountWritethrough : Bool

namespace Image

variable (s : Image)

def clusterSize : ℤ := 2 ^ s.clusterBits

def csizeShift : ℕ := 62 - (s.clusterBits - 8)

def csizeMask : UInt64 := (1 <<< (s.clusterBits - 8 : ℕ).toUInt64) - 1

def clusterOffsetMask : UInt64 := (1 <<< s.csizeShift.toUInt64) - 1

/-- The refcount block of a cluster. -/
def tableIndex (clusterIndex : ℤ) : ℤ := clusterIndex / 2 ^ (s.clusterBits - REFCOUNT_SHIFT)

/-! ### Refcounts -/

/-- The results of the calls of `update_refcount`: by how many updates are being undone, and by the
cluster that they are made for. -/
structure UpdateResults where
  dependency : ℕ → ℤ
  put : ℕ → ℤ → ℤ
  alloc : ℕ → ℤ → ℤ
  refcount : ℕ → ℤ → ℕ
  lastPut : ℕ → ℤ

/-- Where the loop of `update_refcount` ends, and the refcount block that it has then. -/
structure Scan where
  ret : ℤ
  clusterIndex : ℤ
  block : Option ℤ
  log : Log

variable (x : UpdateResults) (level : ℕ)

/-- `alloc_refcount_block` -/
def allocBlock (clusterIndex : ℤ) : Scan :=
  let ret := x.alloc level clusterIndex
  let index := s.tableIndex clusterIndex
  ⟨ret, clusterIndex, if ret < 0 then none else some index, cacheGet (.refcountBlock index) ret⟩

/-- The refcount block of a cluster, in place of the one before. -/
def loadBlock (clusterIndex : ℤ) (block : Option ℤ) (oldTableIndex : ℤ) : Scan :=
  if s.tableIndex clusterIndex ≠ oldTableIndex then
    match block with
    | none => s.allocBlock x level clusterIndex
    | some b =>
      let ret := x.put level clusterIndex
      let log := cachePut (.refcountBlock b) ret
      if ret < 0 then ⟨ret, clusterIndex, none, log⟩
      else
        let alloc := s.allocBlock x level clusterIndex
        { alloc with log := log ++ alloc.log }
  else ⟨0, clusterIndex, block, []⟩

/-- The loop of `update_refcount` over `n` clusters. -/
def scan (addend : ℤ) : ℕ → ℤ → Option ℤ → ℤ → Scan
  | 0, clusterIndex, block, _ => ⟨0, clusterIndex, block, []⟩
  | n + 1, clusterIndex, block, oldTableIndex =>
    let load := s.loadBlock x level clusterIndex block oldTableIndex
    let refcount := x.refcount level clusterIndex + addend
    if load.ret < 0 then load
    else if refcount < 0 ∨ refcount > 0xffff then { load with ret := -einval }
    else
      let rest := scan addend n (clusterIndex + 1) load.block (s.tableIndex clusterIndex)
      { rest with log := load.log ++ rest.log }

lemma clusterIndex_loadBlock (clusterIndex : ℤ) (block : Option ℤ) (old : ℤ) :
    (s.loadBlock x level clusterIndex block old).clusterIndex = clusterIndex := by
  unfold loadBlock
  split_ifs
  · cases block with
    | none => rfl
    | some b =>
      simp only
      split_ifs <;> rfl
  · rfl

/-- A loop that fails has not gone through all clusters. -/
lemma clusterIndex_scan_lt {addend : ℤ} {n : ℕ} {clusterIndex : ℤ} {block : Option ℤ} {old : ℤ}
    (h : (s.scan x level addend n clusterIndex block old).ret < 0) :
    (s.scan x level addend n clusterIndex block old).clusterIndex < clusterIndex + n := by
  induction n generalizing clusterIndex block old with
  | zero => exact absurd h (lt_irrefl 0)
  | succ n ih =>
    have hload := s.clusterIndex_loadBlock x level clusterIndex block old
    rw [scan] at h ⊢
    simp only at h ⊢
    split_ifs at h ⊢ with hfail hrefcount
    · omega
    · show (s.loadBlock x level clusterIndex block old).clusterIndex < _
      omega
    · have hrest := ih h
      have hlt : (s.scan x level addend n (clusterIndex + 1) _ _).clusterIndex < _ := hrest
      push_cast
      linarith

/-- The part that is undone is shorter. -/
lemma undone_lt {offset length clusterIndex : ℤ} (hlength : 0 < length)
    (h : clusterIndex < offset / s.clusterSize +
      (((offset + length - 1) / s.clusterSize - offset / s.clusterSize + 1).toNat : ℕ)) :
    (clusterIndex * s.clusterSize - offset).toNat < length.toNat := by
  have hsize : 0 < s.clusterSize := by unfold clusterSize; positivity
  have hle : offset / s.clusterSize ≤ (offset + length - 1) / s.clusterSize :=
    Int.ediv_le_ediv hsize (by omega)
  have hlast : clusterIndex ≤ (offset + length - 1) / s.clusterSize := by omega
  have hmul := Int.mul_le_mul_of_nonneg_right hlast hsize.le
  have hfloor := Int.ediv_mul_le (offset + length - 1) hsize.ne'
  omega

/-- `update_refcount(bs, offset, length, addend)`, which undoes what it has done when it fails -/
def updateRefcount (level : ℕ) (offset length addend : ℤ) : ℤ × Log :=
  if length < 0 then (-einval, [])
  else if length = 0 then (0, [])
  else
    let dependency := if addend < 0 then check (x.dependency level) else []
    let start := offset / s.clusterSize
    let last := (offset + length - 1) / s.clusterSize
    let scan := s.scan x level addend (last - start + 1).toNat start none (-1)
    let put := match scan.block with
      | none => []
      | some b => cachePut (.refcountBlock b) (x.lastPut level)
    let log := dependency ++ scan.log ++ put
    if scan.block.isSome ∧ x.lastPut level < 0 then
      (if scan.ret < 0 then scan.ret else x.lastPut level, log)
    else if scan.ret < 0 then
      let undone := updateRefcount (level + 1) offset
        (scan.clusterIndex * s.clusterSize - offset) (-addend)
      (scan.ret, log ++ undone.2)
    else (scan.ret, log)
termination_by length.toNat
decreasing_by
  exact s.undone_lt (by omega) (s.clusterIndex_scan_lt x level ‹_›)

/-- The results of the calls of `get_refcount`, and whether the cluster has a refcount block. -/
structure GetResults where
  present : Bool
  get : ℤ
  refcount : ℕ
  put : ℤ

/-- `get_refcount(bs, cluster_index)` -/
def getRefcount (g : GetResults) (clusterIndex : ℤ) : ℤ × Log :=
  let block := Table.refcountBlock (s.tableIndex clusterIndex)
  if !g.present then (0, [])
  else if g.get < 0 then (g.get, cacheGet block g.get)
  else (if g.put < 0 then g.put else g.refcount, cacheGet block g.get ++ cachePut block g.put)

/-- The results of the calls for one cluster. -/
structure ClusterResults where
  update : UpdateResults
  get : GetResults

/-- `update_cluster_refcount(bs, cluster_index, addend)` -/
def updateClusterRefcount (r : ClusterResults) (clusterIndex addend : ℤ) : ℤ × Log :=
  let updated := s.updateRefcount r.update 0 (clusterIndex * s.clusterSize) 1 addend
  if updated.1 < 0 then updated
  else
    let got := s.getRefcount r.get clusterIndex
    (got.1, updated.2 ++ got.2)

/-- The refcount of a cluster, which is updated unless `addend` is 0. -/
def clusterRefcount (r : ClusterResults) (clusterIndex addend : ℤ) : ℤ × Log :=
  if addend ≠ 0 then s.updateClusterRefcount r clusterIndex addend
  else s.getRefcount r.get clusterIndex

end Image

/-! ### The tables of a snapshot -/

/-- An entry of an L2 table, and the results of the calls for it. -/
structure L2Entry where
  offset : UInt64
  results : Image.ClusterResults
  dependency : ℤ

/-- An entry of the L1 table, with its L2 table and the results of the calls for it. -/
structure L1Entry where
  offset : UInt64
  get : ℤ
  l2Table : List L2Entry
  put : ℤ
  results : Image.ClusterResults

/-- An entry whose cluster is used once is marked. -/
def markCopied (offset : UInt64) (refcount : ℤ) : UInt64 :=
  if refcount = 1 then offset ||| QCOW_OFLAG_COPIED else offset

/-- A part of the loops: whether it goes to `fail`, and `ret`. -/
structure Step where
  fail : Bool
  ret : ℤ
  log : Log

/-- A round of the loop over the L1 table, with the L2 table that it has not put and with the entry
that is left. -/
structure L1Step extends Step where
  l2Table : Option Table
  offset : UInt64

/-- What is there at `fail`. -/
structure Body where
  ret : ℤ
  l2Table : Option Table
  l1Table : List UInt64
  l1Modified : Bool
  log : Log

variable (s : Image) (addend : ℤ)

namespace L2Entry

variable (e : L2Entry)

/-- `offset & ~QCOW_OFLAG_COPIED` -/
def plain : UInt64 := e.offset &&& ~~~ QCOW_OFLAG_COPIED

def compressed : Bool := e.plain &&& QCOW_OFLAG_COMPRESSED ≠ 0

/-- The update of the refcounts of a compressed cluster. -/
def updateCompressed : ℤ × Log :=
  let nbCsectors := ((e.plain >>> s.csizeShift.toUInt64) &&& s.csizeMask).toNat + 1
  s.updateRefcount e.results.update 0 ((e.plain &&& s.clusterOffsetMask) &&& ~~~ 511).toNat
    (nbCsectors * 512 : ℕ) addend

/-- The refcount of a normal cluster. -/
def refcount : ℤ × Log :=
  s.clusterRefcount e.results ((e.plain &&& offsetMask) >>> s.clusterBits.toUInt64).toNat addend

/-- The entry is stored if it has changed. -/
def store (refcount : ℤ) : Log :=
  let offset := markCopied e.plain refcount
  if offset ≠ e.offset then
    (if addend > 0 then check e.dependency else []) ++ [.note (.store offset)]
  else []

/-- A round of the loop over an L2 table. The result of the update of a compressed cluster is in a
variable `ret` of its own. -/
def step (ret : ℤ) : Step :=
  if e.offset = 0 then ⟨false, ret, []⟩
  else if e.compressed then
    if addend ≠ 0 then
      let updated := e.updateCompressed s addend
      if updated.1 < 0 then ⟨true, ret, updated.2 ++ [failed]⟩
      else ⟨false, ret, updated.2 ++ e.store addend 2⟩
    else ⟨false, ret, e.store addend 2⟩
  else
    let refcount := e.refcount s addend
    if refcount.1 < 0 then ⟨true, -eio, refcount.2 ++ [failed]⟩
    else ⟨false, ret, refcount.2 ++ e.store addend refcount.1⟩

end L2Entry

/-- The loop over an L2 table. -/
def l2Loop : List L2Entry → ℤ → Step
  | [], ret => ⟨false, ret, []⟩
  | e :: es, ret =>
    let step := e.step s addend ret
    if step.fail then step
    else
      let rest := l2Loop es step.ret
      { rest with log := step.log ++ rest.log }

namespace L1Entry

variable (e : L1Entry)

/-- `l2_offset & L1E_OFFSET_MASK` -/
def plain : UInt64 := e.offset &&& offsetMask

/-- The refcount of the cluster of the L2 table. -/
def refcount : ℤ × Log :=
  s.clusterRefcount e.results (e.plain >>> s.clusterBits.toUInt64).toNat addend

/-- A round of the loop over the L1 table. -/
def step (ret : ℤ) : L1Step :=
  if e.offset = 0 then ⟨⟨false, ret, []⟩, none, e.offset⟩
  else if e.get < 0 then ⟨⟨true, e.get, cacheGet (.l2 e.plain) e.get⟩, none, e.offset⟩
  else
    let loop := l2Loop s addend e.l2Table e.get
    let log := cacheGet (.l2 e.plain) e.get ++ loop.log
    if loop.fail then ⟨⟨true, loop.ret, log⟩, some (.l2 e.plain), e.offset⟩
    else
      let log := log ++ cachePut (.l2 e.plain) e.put
      if e.put < 0 then ⟨⟨true, e.put, log⟩, none, e.offset⟩
      else
        let refcount := e.refcount s addend
        let log := log ++ refcount.2
        if refcount.1 < 0 then ⟨⟨true, -eio, log ++ [failed]⟩, none, e.offset⟩
        else ⟨⟨false, e.put, log⟩, none, markCopied e.plain refcount.1⟩

end L1Entry

/-- The loop over the L1 table, and `ret = 0` after it. -/
def l1Loop : List L1Entry → ℤ → Body
  | [], _ => ⟨0, none, [], false, []⟩
  | e :: es, ret =>
    let step := e.step s addend ret
    if step.fail then
      ⟨step.ret, step.l2Table, (e :: es).map L1Entry.offset, false, step.log⟩
    else
      let rest := l1Loop es step.ret
      { rest with
        l1Table := step.offset :: rest.l1Table
        l1Modified := step.offset ≠ e.offset || rest.l1Modified
        log := step.log ++ rest.log }

/-! ### The function -/

/-- The L1 table and the results of the calls that are not made for one entry: the write of the L1
table may be made again and again. -/
structure Results where
  l1Read : ℤ
  l1Table : List L1Entry
  put : ℤ
  l2Flush : ℤ
  refcountFlush : ℤ
  l1Write : ℕ → ℤ

/-- What the function leaves: its result, the L1 table in memory, and the words that are written to
the image, as they are in memory. -/
structure Outcome where
  ret : ℤ
  l1Table : List UInt64
  written : Option (List UInt64)
  log : Log

/-- `cpu_to_be64` and `be64_to_cpu` -/
def bswap64 (x : UInt64) : UInt64 :=
  (List.range 8).foldl (fun y i => (y <<< 8) ||| ((x >>> (8 * i).toUInt64) &&& 0xff)) 0

variable (r : Results)

/-- Up to `fail:`. -/
def body (l1TableOffset : ℕ) : Body :=
  if l1TableOffset ≠ s.l1TableOffset ∧ r.l1Read ≠ 8 * r.l1Table.length then
    ⟨-eio, none, r.l1Table.map L1Entry.offset, false, [failed]⟩
  else l1Loop s addend r.l1Table 0

/-- From `fail:` on, the `attempt`-th time; the flags are those of the caches. A table that cannot be
written starts it again, with the bytes of the words as they are. There is no result where `rounds`
do not suffice. -/
def cleanUp : ℕ → ℕ → Bool → Bool → Body → Option Outcome
  | 0, _, _, _, _ => none
  | rounds + 1, attempt, l2Writethrough, refcountWritethrough, b =>
    let put := match b.l2Table with
      | none => []
      | some t => cachePut t r.put
    let log := b.log ++ put ++ setWritethrough l2Writethrough s.l2Writethrough r.l2Flush ++
      setWritethrough refcountWritethrough s.refcountWritethrough r.refcountFlush
    if addend ≥ 0 ∧ b.l1Modified then
      let words := b.l1Table.map bswap64
      if r.l1Write attempt < 0 then
        cleanUp rounds (attempt + 1) s.l2Writethrough s.refcountWritethrough
          { b with
            l2Table := none
            l1Table := words
            log := log ++ [failed] }
      else some ⟨b.ret, words.map bswap64, some words, log⟩
    else some ⟨b.ret, b.l1Table, none, log⟩

/-- `qcow2_update_snapshot_refcount(bs, l1_table_offset, l1_size, addend)`. The caches do not write
through meanwhile. -/
def qcow2UpdateSnapshotRefcount (l1TableOffset rounds : ℕ) : Option Outcome :=
  cleanUp s addend r rounds 0 false false (body s addend r l1TableOffset)

end Limbo.Qcow2.Refcount
