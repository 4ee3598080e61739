import Limbo.Lib.Run

/-!
# Refcounts and the allocation of clusters

`update_refcount()` changes the refcounts of a range of clusters. The refcounts are in blocks, which
the refcount table points to. Where a block is missing, `alloc_refcount_block()` allocates it: the
block describes itself, or `update_refcount()` is called for it in turn. Where the table is too short,
a new one is written behind the clusters in use, together with blocks that describe it.

A block is what the cache returns for its offset, which a write that fails does not change. Each access
to the cache or to the file takes its result from a list, and a negative one is an error. Indices of
blocks are below `2 ^ 31`, so that they are not truncated.
-/

namespace Limbo.Qcow2.Clusters

/-- A cluster size from 512 bytes to 2 MiB. -/
structure Geometry where
  clusterBits : ℕ
  minClusterBits : 9 ≤ clusterBits
  maxClusterBits : clusterBits ≤ 21

namespace Geometry

variable (g : Geometry)

def clusterSize : ℕ := 2 ^ g.clusterBits

/-- `refcount_block_clusters`, the number of refcounts in a block. -/
def blockClusters : ℕ := 2 ^ (g.clusterBits - 1)

/-- The number of entries in a cluster of the refcount table. -/
def tableEntries : ℕ := 2 ^ (g.clusterBits - 3)

/-- `size_to_clusters(s, size)` -/
def sizeToClusters (size : ℕ) : ℕ := (size + (g.clusterSize - 1)) / g.clusterSize

end Geometry

/-- Why there is no result: `abort()` is called, an access is outside of an allocation, or what is
given as fuel does not suffice. -/
inductive Fault
  | abort
  | outOfBounds
  | fuel
deriving DecidableEq, Repr

/-- The fields of `BDRVQcowState` for the refcounts, with the refcounts of each block by its offset
and the results of the accesses that are to come. The clusters that are allocated for a block or a
table, and those of a table that is replaced, are recorded in `metadata`. -/
structure Image where
  refcountTable : List ℕ
  refcountTableOffset : ℕ
  freeClusterIndex : ℕ
  block : ℕ → ℕ → ℕ
  io : List ℤ
  metadata : List ℕ

/-- `-EINVAL` -/
def einval : ℤ := -22

namespace Image

/-- The result of an access. -/
def perform (s : Image) : ℤ × Image := (s.io.headD 0, { s with io := s.io.tail })

def setBlock (s : Image) (offset : ℕ) (refcounts : ℕ → ℕ) : Image :=
  { s with block := Function.update s.block offset refcounts }

/-- `refcount_block[index] = refcount` -/
def setRefcount (s : Image) (offset index refcount : ℕ) : Image :=
  s.setBlock offset (Function.update (s.block offset) index refcount)

end Image

/-- What `update_refcount()` returns, and, where it calls itself to undo its updates, the length it
does so for and the result. -/
structure Outcome where
  ret : ℤ
  undo : Option (ℤ × ℤ)
deriving DecidableEq, Repr

variable (g : Geometry)

/-! ### Free clusters -/

/-- `get_refcount(bs, cluster_index)` -/
def getRefcount (s : Image) (clusterIndex : ℕ) : ℤ × Image :=
  let tableIndex := clusterIndex / g.blockClusters
  if tableIndex ≥ s.refcountTable.length then (0, s)
  else
    let offset := s.refcountTable.getD tableIndex 0
    if offset = 0 then (0, s)
    else
      let (ret, s) := s.perform
      if ret < 0 then (ret, s)
      else
        let refcount := s.block offset (clusterIndex % g.blockClusters)
        let (ret, s) := s.perform
        if ret < 0 then (ret, s) else (refcount, s)

/-- The loop of `alloc_clusters_noref()`, with the number of clusters that are still to be found. -/
def findClusters (nbClusters : ℕ) : ℕ → ℕ → Image → Except Fault (ℤ × Image)
  | 0, _, _ => .error .fuel
  | _ + 1, 0, s => .ok (0, s)
  | fuel + 1, left + 1, s =>
    let (refcount, s') :=
      getRefcount g { s with freeClusterIndex := s.freeClusterIndex + 1 } s.freeClusterIndex
    if refcount < 0 then .ok (refcount, s')
    else if refcount ≠ 0 then findClusters nbClusters fuel nbClusters s'
    else findClusters nbClusters fuel left s'

/-- `alloc_clusters_noref(bs, size)`. The clusters behind those of the refcount table are free, so the
loop ends. -/
def allocClustersNoref (s : Image) (size : ℕ) : Except Fault (ℤ × Image) := do
  let nbClusters := g.sizeToClusters size
  let fuel := s.refcountTable.length * g.blockClusters + nbClusters + 2
  let (ret, s) ← findClusters g nbClusters fuel nbClusters s
  if ret < 0 then return (ret, s)
  else return (((s.freeClusterIndex - nbClusters) * g.clusterSize : ℕ), s)

/-! ### The size of the refcount table -/

/-- A conversion to `unsigned int`. -/
def u32 (n : ℕ) : ℕ := n % 4294967296

/-- The loop of `next_refcount_table_size()`. -/
def growTableClusters (minClusters : ℕ) : ℕ → ℕ → Option ℕ
  | 0, _ => none
  | fuel + 1, tableClusters =>
    if minClusters > tableClusters then
      growTableClusters minClusters fuel (u32 (tableClusters * 3 + 1) / 2)
    else some tableClusters

/-- `next_refcount_table_size(s, min_size)` -/
def nextRefcountTableSize (fuel refcountTableSize minSize : ℕ) : Option ℕ := do
  let minClusters := u32 minSize / g.tableEntries + 1
  let tableClusters ←
    growTableClusters minClusters fuel (max 1 (refcountTableSize / g.tableEntries))
  return u32 (tableClusters * g.tableEntries)

/-- `blocks_clusters` for a table of this size. The size is not multiplied by that of an entry. -/
def blocksClusters (tableSize : ℕ) : ℕ :=
  1 + (g.sizeToClusters tableSize + g.blockClusters - 1) / g.blockClusters

/-- The loop for `table_size`, which leaves `blocks_clusters`, too. -/
def tableSizeLoop (refcountTableSize blocksUsed : ℕ) : ℕ → ℕ → Option (ℕ × ℕ)
  | 0, _ => none
  | fuel + 1, tableSize => do
    let metaClusters := g.sizeToClusters tableSize + blocksClusters g tableSize
    let next ← nextRefcountTableSize g fuel refcountTableSize
      (blocksUsed + (metaClusters + g.blockClusters - 1) / g.blockClusters)
    if tableSize ≠ next then tableSizeLoop refcountTableSize blocksUsed fuel next
    else return (next, blocksClusters g tableSize)

/-- `blocks_used` -/
def blocksUsed (s : Image) : ℕ := (s.freeClusterIndex + g.blockClusters - 1) / g.blockClusters

/-- `table_size` and `blocks_clusters` -/
def newTableSize (fuel : ℕ) (s : Image) : Option (ℕ × ℕ) := do
  let tableSize ← nextRefcountTableSize g fuel s.refcountTable.length (blocksUsed g s + 1)
  tableSizeLoop g s.refcountTable.length (blocksUsed g s) fuel tableSize

/-! ### Growing the refcount table -/

/-- The entries of `new_table`: those of the old table, one for `new_block`, and those for the new
blocks. -/
def newTable (s : Image) (tableIndex newBlock tableSize blocksClusters : ℕ) : List ℕ :=
  (List.range tableSize).map fun i =>
    if blocksUsed g s ≤ i ∧ i < blocksUsed g s + blocksClusters then
      (blocksUsed g s * g.blockClusters + (i - blocksUsed g s)) * g.clusterSize
    else if i = tableIndex then newBlock * g.clusterSize
    else s.refcountTable.getD i 0

/-- `new_blocks` is written: the first `count` refcounts are 1. -/
def writeBlocks (s : Image) (metaCluster blocksClusters count : ℕ) : Image :=
  { s with block := fun offset index =>
      if offset % g.clusterSize = 0 ∧ metaCluster ≤ offset / g.clusterSize ∧
        offset / g.clusterSize < metaCluster + blocksClusters then
        if (offset / g.clusterSize - metaCluster) * g.blockClusters + index < count then 1 else 0
      else s.block offset index }

/-- The clusters of the table. -/
def tableClusters (offset length : ℕ) : List ℕ :=
  if length = 0 then []
  else
    let first := offset / g.clusterSize
    let last := (offset + length * 8 - 1) / g.clusterSize
    (List.range (last + 1 - first)).map (first + ·)

/-- The type of `update_refcount()`. -/
abbrev Update := Image → ℤ → ℤ → ℤ → Except Fault (Outcome × Image)

/-- The part of `alloc_refcount_block()` that grows the refcount table, for the cluster `newBlock`.
The result is that of `alloc_refcount_block()`, with the offset of the block that is loaded. -/
def growTable (update : Update) (fuel : ℕ) (s : Image) (tableIndex newBlock : ℕ) :
    Except Fault ((ℤ × Option ℕ) × Image) := do
  let some (tableSize, blocksClusters) := newTableSize g fuel s | .error .fuel
  let metaCluster := blocksUsed g s * g.blockClusters
  let tableCluster := metaCluster + blocksClusters
  if metaCluster < s.freeClusterIndex then .error .abort
  else if tableSize < s.refcountTable.length ∨ tableSize ≤ tableIndex ∨
      tableSize < blocksUsed g s + blocksClusters then .error .outOfBounds
  else
    let newTable := newTable g s tableIndex newBlock tableSize blocksClusters
    let newTableClusters := g.sizeToClusters (tableSize * 8)
    if blocksClusters * g.blockClusters < newTableClusters + blocksClusters then .error .outOfBounds
    else
      let (ret, s) := s.perform
      if ret < 0 then return ((ret, none), s)
      else
        let s := writeBlocks g s metaCluster blocksClusters (newTableClusters + blocksClusters)
        let (ret, s) := s.perform
        if ret < 0 then return ((ret, none), s)
        else
          -- the header
          let (ret, s) := s.perform
          if ret < 0 then return ((ret, none), s)
          else
            let oldOffset := s.refcountTableOffset
            let oldSize := s.refcountTable.length
            let oldFreeClusterIndex := s.freeClusterIndex
            let metaClusters :=
              (List.range (blocksClusters + newTableClusters)).map (metaCluster + ·)
            let s := { s with
              refcountTable := newTable
              refcountTableOffset := tableCluster * g.clusterSize
              metadata := tableClusters g oldOffset oldSize ++ metaClusters ++ s.metadata }
            let (_, s) ← update s oldOffset (oldSize * 8) (-1)
            let s := { s with freeClusterIndex := oldFreeClusterIndex }
            let (ret, s) := s.perform
            if ret < 0 then return ((ret, none), s)
            else return ((0, some (newBlock * g.clusterSize)), s)

/-! ### Refcount blocks -/

/-- The part of `alloc_refcount_block()` after the new block has been initialized. -/
def hookUp (update : Update) (fuel : ℕ) (s : Image) (tableIndex newBlock : ℕ) :
    Except Fault ((ℤ × Option ℕ) × Image) :=
  let (ret, s) := s.perform
  if ret < 0 then .ok ((ret, none), s.perform.2)
  else if tableIndex < s.refcountTable.length then
    let (ret, s) := s.perform
    if ret < 0 then .ok ((ret, none), s.perform.2)
    else
      .ok ((0, some (newBlock * g.clusterSize)),
        { s with refcountTable := s.refcountTable.set tableIndex (newBlock * g.clusterSize) })
  else
    let (ret, s) := s.perform
    if ret < 0 then .ok ((ret, none), s) else growTable g update fuel s tableIndex newBlock

/-- `alloc_refcount_block(bs, cluster_index, &refcount_block)`, with the offset of the block. -/
def allocRefcountBlock (update : Update) (fuel : ℕ) (s : Image) (clusterIndex : ℕ) :
    Except Fault ((ℤ × Option ℕ) × Image) := do
  let tableIndex := clusterIndex / g.blockClusters
  -- `REFT_OFFSET_MASK`
  let offset := s.refcountTable.getD tableIndex 0 / 256 * 256
  if offset ≠ 0 then
    let (ret, s) := s.perform
    if ret < 0 then return ((ret, none), s) else return ((ret, some offset), s)
  else
    let (newOffset, s) ← allocClustersNoref g s g.clusterSize
    if newOffset < 0 then return ((newOffset, none), s)
    else
      let newBlock := newOffset.toNat / g.clusterSize
      let s := { s with metadata := newBlock :: s.metadata }
      if newBlock / g.blockClusters = tableIndex then
        let (ret, s) := s.perform
        if ret < 0 then return ((ret, none), s)
        else
          -- the block describes itself
          let s := s.setBlock (newBlock * g.clusterSize)
            (fun i => if i = newBlock % g.blockClusters then 1 else 0)
          hookUp g update fuel s tableIndex newBlock
      else
        let (outcome, s) ← update s (newBlock * g.clusterSize) g.clusterSize 1
        if outcome.ret < 0 then return ((outcome.ret, none), s)
        else
          let (ret, s) := s.perform
          if ret < 0 then return ((ret, none), s)
          else
            let s := s.setBlock (newBlock * g.clusterSize) (fun _ => 0)
            hookUp g update fuel s tableIndex newBlock

/-! ### Refcounts -/

/-- `qcow2_cache_put()` for a block in use. -/
def putBlock (s : Image) (refcountBlock : Option ℕ) : ℤ × Image :=
  if refcountBlock.isSome then s.perform else (0, s)

/-- The block of the cluster is loaded, if it is not the one that has been in use, which is put back
then. -/
def nextBlock (alloc : Image → ℕ → Except Fault ((ℤ × Option ℕ) × Image)) (s : Image)
    (clusterIndex oldTableIndex : ℤ) (refcountBlock : Option ℕ) :
    Except Fault ((ℤ × Option ℕ) × Image) :=
  if clusterIndex / g.blockClusters ≠ oldTableIndex then
    let (ret, s) := putBlock s refcountBlock
    if ret < 0 then .ok ((ret, none), s)
    else if clusterIndex < 0 then .error .outOfBounds
    else alloc s clusterIndex.toNat
  else .ok ((0, refcountBlock), s)

/-- How the loop of `update_refcount()` ends: `ret`, `cluster_offset >> cluster_bits` and
`refcount_block`. -/
structure LoopEnd where
  ret : ℤ
  clusterIndex : ℤ
  refcountBlock : Option ℕ
deriving DecidableEq

/-- The loop of `update_refcount()` for the next `count` clusters. -/
def updateLoop (alloc : Image → ℕ → Except Fault ((ℤ × Option ℕ) × Image)) (addend : ℤ) :
    ℕ → ℤ → ℤ → Option ℕ → Image → Except Fault (LoopEnd × Image)
  | 0, clusterIndex, _, refcountBlock, s => .ok (⟨0, clusterIndex, refcountBlock⟩, s)
  | count + 1, clusterIndex, oldTableIndex, refcountBlock, s => do
    let ((ret, refcountBlock), s) ← nextBlock g alloc s clusterIndex oldTableIndex refcountBlock
    if ret < 0 then return (⟨ret, clusterIndex, refcountBlock⟩, s)
    else
      -- `qcow2_cache_entry_mark_dirty()`
      let some offset := refcountBlock | .error .abort
      let blockIndex := (clusterIndex % g.blockClusters).toNat
      let refcount := s.block offset blockIndex + addend
      if refcount < 0 ∨ refcount > 65535 then
        return (⟨einval, clusterIndex, some offset⟩, s)
      else
        let s :=
          if refcount = 0 ∧ clusterIndex < s.freeClusterIndex then
            { s with freeClusterIndex := clusterIndex.toNat }
          else s
        updateLoop alloc addend count (clusterIndex + 1) (clusterIndex / g.blockClusters)
          (some offset) (s.setRefcount offset blockIndex refcount.toNat)

/-- `start >> cluster_bits` -/
def firstCluster (offset : ℤ) : ℤ := offset / g.clusterSize

/-- `last >> cluster_bits` -/
def lastCluster (offset length : ℤ) : ℤ := (offset + length - 1) / g.clusterSize

/-- `update_refcount(bs, offset, length, addend)` -/
def updateRefcount : ℕ → Update
  | 0, _, _, _, _ => .error .fuel
  | fuel + 1, s, offset, length, addend => do
    if length < 0 then return (⟨einval, none⟩, s)
    else if length = 0 then return (⟨0, none⟩, s)
    else
      let start := firstCluster g offset
      let count := (lastCluster g offset length + 1 - start).toNat
      let (loop, s) ← updateLoop g (allocRefcountBlock g (updateRefcount fuel) fuel) addend count
        start (-1) none s
      let (wret, s) := putBlock s loop.refcountBlock
      if wret < 0 then return (⟨if loop.ret < 0 then loop.ret else wret, none⟩, s)
      else if loop.ret < 0 then
        let undoLength := loop.clusterIndex * g.clusterSize - offset
        let (dummy, s) ← updateRefcount fuel s offset undoLength (-addend)
        return (⟨loop.ret, some (undoLength, dummy.ret)⟩, s)
      else return (⟨loop.ret, none⟩, s)

/-- `update_cluster_refcount(bs, cluster_index, addend)` -/
def updateClusterRefcount (fuel : ℕ) (s : Image) (clusterIndex : ℤ) (addend : ℤ) : Except Fault (ℤ × Image) := do
  let (outcome, s) ← updateRefcount g fuel s (clusterIndex * g.clusterSize) 1 addend
  if outcome.ret < 0 then return (outcome.ret, s) else return getRefcount g s clusterIndex.toNat

/-! ### Allocation -/

/-- `qcow2_alloc_clusters(bs, size)`, with the outcome of the update. -/
def qcow2AllocClusters (fuel : ℕ) (s : Image) (size : ℕ) : Except Fault ((ℤ × Outcome) × Image) := do
  let (offset, s) ← allocClustersNoref g s size
  if offset < 0 then return ((offset, ⟨0, none⟩), s)
  else
    let (outcome, s) ← updateRefcount g fuel s offset size 1
    if outcome.ret < 0 then return ((outcome.ret, outcome), s) else return ((offset, outcome), s)

end Limbo.Qcow2.Clusters
