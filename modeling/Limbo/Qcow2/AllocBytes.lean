import Limbo.Qcow2.RefcountUndo

/-!
# The allocation of bytes

`qcow2_alloc_bytes()` allocates ranges for compressed clusters. It goes on in the cluster that is partly
used, also into the next one if that is the one allocated, and counts each range for the clusters that
it touches. The other allocations are those of `qcow2_alloc_clusters()`.
-/

namespace Limbo.Qcow2.Clusters

open Image

variable (g : Geometry)

/-- The fields of `BDRVQcowState` with `free_byte_offset`. -/
structure ByteImage where
  image : Image
  freeByteOffset : ℤ

/-- `qcow2_alloc_bytes()` from `redo` on, for at most so many times. The results of the accesses of
`update_cluster_refcount()` are given apart. -/
def placeBytes (fuel size : ℕ) (bump : List ℤ) : ℕ → ByteImage → Except Fault (ℤ × ByteImage)
  | 0, _ => .error .fuel
  | redo + 1, b => do
    let offset := b.freeByteOffset
    let freeInCluster := g.clusterSize - offset % g.clusterSize
    if size ≤ freeInCluster then
      let freeByteOffset := if freeInCluster - size = 0 then 0 else offset + size
      if offset % g.clusterSize ≠ 0 then
        let (_, s) ← updateClusterRefcount g fuel { b.image with io := bump }
          (offset / g.clusterSize) 1
        return (offset, ⟨s, freeByteOffset⟩)
      else return (offset, ⟨b.image, freeByteOffset⟩)
    else
      let ((newOffset, _), s) ← qcow2AllocClusters g fuel b.image g.clusterSize
      if newOffset < 0 then return (newOffset, ⟨s, offset⟩)
      else if offset / g.clusterSize * g.clusterSize + g.clusterSize = newOffset then
        -- contiguous data
        let (_, s) ← updateClusterRefcount g fuel { s with io := bump } (offset / g.clusterSize) 1
        return (offset, ⟨s, offset + size⟩)
      else placeBytes fuel size bump redo ⟨s, newOffset⟩

/-- `qcow2_alloc_bytes(bs, size)`. There is at most one allocation, so `redo` is reached twice. -/
def qcow2AllocBytes (fuel : ℕ) (b : ByteImage) (size : ℕ) (io bump : List ℤ) :
    Except Fault (ℤ × ByteImage) := do
  let image := { b.image with io }
  if ¬ (0 < size ∧ size ≤ g.clusterSize) then .error .abort
  else if b.freeByteOffset = 0 then
    let ((offset, _), s) ← qcow2AllocClusters g fuel image g.clusterSize
    if offset < 0 then return (offset, ⟨s, offset⟩)
    else placeBytes g fuel size bump 2 ⟨s, offset⟩
  else placeBytes g fuel size bump 2 ⟨image, b.freeByteOffset⟩

/-! ### Calls -/

/-- A call with the results of its accesses. -/
inductive AllocCall
  | bytes (size : ℕ) (io bump : List ℤ)
  | clusters (size : ℕ) (io : List ℤ)

/-- The ranges that have been returned so far, as offsets and sizes, with the image. -/
structure Allocations where
  bytes : ByteImage
  ranges : List (ℤ × ℤ)

/-- The result of a call is negative, or the offset of a range. -/
def Allocations.record (a : Allocations) (size : ℕ) (result : ℤ × ByteImage) : ℤ × Allocations :=
  (result.1, ⟨result.2, if result.1 < 0 then a.ranges else (result.1, (size : ℤ)) :: a.ranges⟩)

def allocCall (fuel : ℕ) (a : Allocations) : AllocCall → Except Fault (ℤ × Allocations)
  | .bytes size io bump => return a.record size (← qcow2AllocBytes g fuel a.bytes size io bump)
  | .clusters size io => do
    let ((offset, _), s) ← qcow2AllocClusters g fuel { a.bytes.image with io } size
    return a.record size (offset, ⟨s, a.bytes.freeByteOffset⟩)

/-- A call that returns. -/
def allocStep (fuel : ℕ) (a : Allocations) (call : AllocCall) : Option Allocations :=
  (allocCall g fuel a call).toOption.map Prod.snd

end Limbo.Qcow2.Clusters
