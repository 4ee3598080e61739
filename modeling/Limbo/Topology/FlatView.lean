import Limbo.Lib.Segments

/-!
# Memory regions and the flat view

The guest's physical memory is a tree of regions, in which a region may show a part of another one as
an alias. `render_memory_region()` renders a region and what is below it into a list of ranges, where
what is rendered first obscures what is rendered later. `generate_memory_topology()` renders the root
of an address space and joins the ranges that continue one another.

An `Int128` is an integer: sums and differences of addresses are far from its bounds. There is no
result when an assertion fails or when the recursion is deeper than the fuel.
-/

namespace Limbo.Topology

/-- A region by its address in the host's memory. -/
abbrev RegionId := ℕ

/-- The fields of `MemoryRegion` that the topology depends on. -/
structure MemoryRegion where
  parent : Option RegionId
  size : ℤ
  addr : ℕ
  terminates : Bool
  readable : Bool
  readonly : Bool
  enabled : Bool
  aliasOf : Option RegionId
  aliasOffset : ℕ
  priority : ℕ
  mayOverlap : Bool
  subregions : List RegionId
  dirtyLogMask : ℕ
deriving DecidableEq, Repr

/-- `memory_region_init(mr, name, size)` -/
def memoryRegionInit (size : ℕ) : MemoryRegion where
  parent := none
  size := if size = 2 ^ 64 - 1 then 2 ^ 64 else size
  addr := 0
  terminates := false
  readable := true
  readonly := false
  enabled := true
  aliasOf := none
  aliasOffset := 0
  priority := 0
  mayOverlap := false
  subregions := []
  dirtyLogMask := 0

/-- `memory_region_init_ram(mr, name, size)` and `memory_region_init_io(mr, ops, opaque, name, size)` -/
def memoryRegionInitRam (size : ℕ) : MemoryRegion :=
  { memoryRegionInit size with terminates := true }

/-- `memory_region_init_alias(mr, name, orig, offset, size)` -/
def memoryRegionInitAlias (orig : RegionId) (offset size : ℕ) : MemoryRegion :=
  { memoryRegionInit size with aliasOf := some orig, aliasOffset := offset }

/-- `int128_get64(a)`, which asserts that the upper half is zero. -/
def int128Get64 (a : ℤ) : Option ℕ := if 0 ≤ a ∧ a < 2 ^ 64 then some a.toNat else none

structure AddrRange where
  start : ℤ
  size : ℤ
deriving DecidableEq, Repr

def addrrangeEnd (r : AddrRange) : ℤ := r.start + r.size

def addrrangeContains (r : AddrRange) (addr : ℤ) : Bool := r.start ≤ addr ∧ addr < addrrangeEnd r

def addrrangeIntersects (r₁ r₂ : AddrRange) : Bool :=
  addrrangeContains r₁ r₂.start || addrrangeContains r₂ r₁.start

def addrrangeIntersection (r₁ r₂ : AddrRange) : AddrRange :=
  let start := max r₁.start r₂.start
  let stop := min (addrrangeEnd r₁) (addrrangeEnd r₂)
  ⟨start, stop - start⟩

/-- A range of memory in the global map. Addresses are absolute. -/
structure FlatRange where
  mr : RegionId
  offsetInRegion : ℕ
  addr : AddrRange
  dirtyLogMask : ℕ
  readable : Bool
  readonly : Bool
deriving DecidableEq, Repr

/-! ### Rendering -/

/-- `base`, `offset_in_region` and `remain` of the loop that renders a region itself. -/
structure Cursor where
  base : ℤ
  offsetInRegion : ℕ
  remain : ℤ

def Cursor.advance (c : Cursor) (now : ℤ) : Option Cursor := do
  let n ← int128Get64 now
  return ⟨c.base + now, (c.offsetInRegion + n) % 2 ^ 64, c.remain - now⟩

/-- The range `fr` of the view covers what follows, if it starts here. -/
def Cursor.pass (c : Cursor) (fr : FlatRange) : Option Cursor :=
  if c.base = fr.addr.start then c.advance (min c.remain fr.addr.size) else some c

/-- What the loop makes of `now` bytes at the cursor. -/
def Cursor.range (c : Cursor) (id : RegionId) (mr : MemoryRegion) (readonly : Bool) (now : ℤ) :
    FlatRange where
  mr := id
  offsetInRegion := c.offsetInRegion
  addr := ⟨c.base, now⟩
  dirtyLogMask := mr.dirtyLogMask
  readable := mr.readable
  readonly := readonly

/-- The loop that renders a region into the gaps left by the current view, from the first range of the
view that it has not looked at. -/
def renderGaps (id : RegionId) (mr : MemoryRegion) (readonly : Bool) :
    List FlatRange → Cursor → Option (List FlatRange)
  | [], c => some (if c.remain ≠ 0 then [c.range id mr readonly c.remain] else [])
  | fr :: view, c =>
    if c.remain = 0 then some (fr :: view)
    else if c.base ≥ addrrangeEnd fr.addr then do
      return fr :: (← renderGaps id mr readonly view c)
    else if c.base < fr.addr.start then do
      let now := min c.remain (fr.addr.start - c.base)
      let inserted := c.range id mr readonly now
      let c ← c.advance now
      let c ← c.pass fr
      return inserted :: fr :: (← renderGaps id mr readonly view c)
    else do
      let c ← c.pass fr
      return fr :: (← renderGaps id mr readonly view c)

/-- `render_memory_region(view, mr, base, clip, readonly)` -/
def renderMemoryRegion (mem : RegionId → MemoryRegion) :
    ℕ → List FlatRange → RegionId → ℤ → AddrRange → Bool → Option (List FlatRange)
  | 0, _, _, _, _, _ => none
  | fuel + 1, view, id, base, clip, readonly =>
    let mr := mem id
    if ¬ mr.enabled then some view
    else
      let base := base + mr.addr
      let readonly := readonly || mr.readonly
      let tmp : AddrRange := ⟨base, mr.size⟩
      if ¬ addrrangeIntersects tmp clip then some view
      else
        let clip := addrrangeIntersection tmp clip
        match mr.aliasOf with
        | some orig =>
          let base := base - (mem orig).addr - mr.aliasOffset
          renderMemoryRegion mem fuel view orig base clip readonly
        | none => do
          let view ← mr.subregions.foldlM
            (fun view subregion => renderMemoryRegion mem fuel view subregion base clip readonly) view
          if ¬ mr.terminates then return view
          else
            let offsetInRegion ← int128Get64 (clip.start - base)
            renderGaps id mr readonly view ⟨clip.start, offsetInRegion, clip.size⟩

/-! ### Joining ranges -/

def canMerge (r₁ r₂ : FlatRange) : Bool :=
  addrrangeEnd r₁.addr = r₂.addr.start ∧ r₁.mr = r₂.mr ∧
    (r₁.offsetInRegion : ℤ) + r₁.addr.size = r₂.offsetInRegion ∧
    r₁.dirtyLogMask = r₂.dirtyLogMask ∧ r₁.readable = r₂.readable ∧ r₁.readonly = r₂.readonly

/-- The loops of `flatview_simplify()`, from a range to which those up to `last` have been joined. -/
def simplifyFrom (grown last : FlatRange) : List FlatRange → List FlatRange
  | [] => [grown]
  | fr :: view =>
    if canMerge last fr then
      simplifyFrom { grown with addr := ⟨grown.addr.start, grown.addr.size + fr.addr.size⟩ } fr view
    else grown :: simplifyFrom fr fr view

def flatviewSimplify : List FlatRange → List FlatRange
  | [] => []
  | fr :: view => simplifyFrom fr fr view

/-- `generate_memory_topology(mr)` -/
def generateMemoryTopology (mem : RegionId → MemoryRegion) (fuel : ℕ) (mr : RegionId) :
    Option (List FlatRange) := do
  let view ← renderMemoryRegion mem fuel [] mr 0 ⟨0, 2 ^ 64⟩ false
  return flatviewSimplify view

end Limbo.Topology
