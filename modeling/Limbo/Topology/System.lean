import Limbo.Topology.Updates
import Limbo.Lib.Run

/-!
# Changes to the tree of regions

The functions that change a region, or which regions are below another one, end with
`memory_region_update_topology()`. Outside of a transaction it renders the address spaces anew and
reports the differences to the listeners. Inside of one it only records that there is something to
update, which the outermost `memory_region_transaction_commit()` does. A region that is not enabled is
not rendered, and a change to it needs no update.

Event file descriptors, coalesced ranges and the global dirty log are left out. A change has no result
where an assertion fails.
-/

namespace Limbo.Topology

structure MemoryRegionSection where
  mr : RegionId
  addressSpace : RegionId
  offsetWithinRegion : ℕ
  size : ℕ
  offsetWithinAddressSpace : ℕ
  readonly : Bool
deriving DecidableEq, Repr

/-- What a listener is called with. -/
inductive Call
  | begin
  | commit
  | region (callback : RegionCallback) (part : MemoryRegionSection)
deriving DecidableEq, Repr

/-- A listener with the calls it has received. -/
structure MemoryListener where
  priority : ℕ
  addressSpaceFilter : Option RegionId
  calls : List Call
deriving DecidableEq, Repr

structure AddressSpace where
  root : Option RegionId
  currentMap : List FlatRange
deriving DecidableEq, Repr

/-- The regions and the static variables of `memory.c`. -/
structure System where
  mem : RegionId → MemoryRegion
  addressSpaceMemory : AddressSpace
  addressSpaceIo : AddressSpace
  memoryRegionTransactionDepth : ℕ
  memoryRegionUpdatePending : Bool
  memoryListeners : List MemoryListener

/-! ### Calls to the listeners -/

def FlatRange.toSection (root : RegionId) (fr : FlatRange) : MemoryRegionSection where
  mr := fr.mr
  addressSpace := root
  offsetWithinRegion := fr.offsetInRegion
  size := fr.addr.size.toNat
  offsetWithinAddressSpace := fr.addr.start.toNat
  readonly := fr.readonly

/-- The size and the start of a range have 64 bits. -/
def FlatRange.Fits (fr : FlatRange) : Prop :=
  (0 ≤ fr.addr.size ∧ fr.addr.size < 2 ^ 64) ∧ 0 ≤ fr.addr.start ∧ fr.addr.start < 2 ^ 64

instance (fr : FlatRange) : Decidable fr.Fits := inferInstanceAs (Decidable (_ ∧ _))

/-- `memory_listener_match(listener, section)` -/
def memoryListenerMatch (listener : MemoryListener) (root : RegionId) : Bool :=
  listener.addressSpaceFilter.all (· = root)

/-- `MEMORY_LISTENER_UPDATE_REGION(fr, as, dir, callback)` for one listener and several ranges. -/
def listenerUpdateRegions (root : RegionId) (changes : List (RegionCallback × FlatRange))
    (listener : MemoryListener) : Option MemoryListener :=
  if changes.all fun c => c.2.Fits then
    if memoryListenerMatch listener root then
      some { listener with
        calls := listener.calls ++ changes.map fun c => .region c.1 (c.2.toSection root) }
    else some listener
  else none

/-- `MEMORY_LISTENER_CALL_GLOBAL(callback, dir)` for one listener -/
def listenerCallGlobal (call : Call) (listener : MemoryListener) : MemoryListener :=
  { listener with calls := listener.calls ++ [call] }

/-! ### Updates -/

/-- `address_space_update_topology(as)` -/
def addressSpaceUpdateTopology (fuel : ℕ) (mem : RegionId → MemoryRegion) (as : AddressSpace)
    (listeners : List MemoryListener) : Option (AddressSpace × List MemoryListener) :=
  match as.root with
  | none => some (as, listeners)
  | some root => do
    let newView ← generateMemoryTopology mem fuel root
    let changes := addressSpaceUpdateTopologyPass false as.currentMap newView ++
      addressSpaceUpdateTopologyPass true as.currentMap newView
    let listeners ← listeners.mapM (listenerUpdateRegions root changes)
    return ({ as with currentMap := newView }, listeners)

/-- `memory_region_update_topology(mr)` -/
def memoryRegionUpdateTopology (fuel : ℕ) (s : System) (mr : Option RegionId) : Option System :=
  if s.memoryRegionTransactionDepth ≠ 0 then
    some { s with
      memoryRegionUpdatePending := s.memoryRegionUpdatePending || mr.all fun id => (s.mem id).enabled }
  else if mr.any fun id => !(s.mem id).enabled then some s
  else do
    let listeners := s.memoryListeners.map (listenerCallGlobal .begin)
    let (memory, listeners) ←
      addressSpaceUpdateTopology fuel s.mem s.addressSpaceMemory listeners
    let (io, listeners) ← addressSpaceUpdateTopology fuel s.mem s.addressSpaceIo listeners
    return { s with
      addressSpaceMemory := memory
      addressSpaceIo := io
      memoryListeners := listeners.map (listenerCallGlobal .commit)
      memoryRegionUpdatePending := false }

/-! ### Changes to regions -/

def setRegion (mem : RegionId → MemoryRegion) (id : RegionId) (f : MemoryRegion → MemoryRegion) :
    RegionId → MemoryRegion := Function.update mem id (f (mem id))

/-- A change to one region followed by `memory_region_update_topology(update)`. -/
def changeRegion (fuel : ℕ) (s : System) (id : RegionId) (f : MemoryRegion → MemoryRegion)
    (update : Option RegionId) : Option System :=
  memoryRegionUpdateTopology fuel { s with mem := setRegion s.mem id f } update

/-- `memory_region_transaction_begin()` -/
def memoryRegionTransactionBegin (s : System) : System :=
  { s with memoryRegionTransactionDepth := s.memoryRegionTransactionDepth + 1 }

/-- `memory_region_transaction_commit()` -/
def memoryRegionTransactionCommit (fuel : ℕ) (s : System) : Option System :=
  if s.memoryRegionTransactionDepth = 0 then none
  else
    let s := { s with memoryRegionTransactionDepth := s.memoryRegionTransactionDepth - 1 }
    if s.memoryRegionTransactionDepth = 0 ∧ s.memoryRegionUpdatePending then
      memoryRegionUpdateTopology fuel s none
    else some s

/-- `memory_region_set_log(mr, log, client)` -/
def memoryRegionSetLog (fuel : ℕ) (s : System) (mr : RegionId) (log : Bool) (client : ℕ) :
    Option System :=
  let mask := 2 ^ client % 256
  changeRegion fuel s mr
    (fun r => { r with
      dirtyLogMask := (r.dirtyLogMask &&& (255 ^^^ mask)) ||| if log then mask else 0 }) (some mr)

/-- `memory_region_set_readonly(mr, readonly)` -/
def memoryRegionSetReadonly (fuel : ℕ) (s : System) (mr : RegionId) (readonly : Bool) :
    Option System :=
  if (s.mem mr).readonly ≠ readonly then
    changeRegion fuel s mr (fun r => { r with readonly }) (some mr)
  else some s

/-- `memory_region_rom_device_set_readable(mr, readable)` -/
def memoryRegionRomDeviceSetReadable (fuel : ℕ) (s : System) (mr : RegionId) (readable : Bool) :
    Option System :=
  if (s.mem mr).readable ≠ readable then
    changeRegion fuel s mr (fun r => { r with readable }) (some mr)
  else some s

/-- `memory_region_set_enabled(mr, enabled)` -/
def memoryRegionSetEnabled (fuel : ℕ) (s : System) (mr : RegionId) (enabled : Bool) :
    Option System :=
  if enabled = (s.mem mr).enabled then some s
  else changeRegion fuel s mr (fun r => { r with enabled }) none

/-- The loop that puts a subregion before the first one of no higher priority. -/
def insertSubregion (mem : RegionId → MemoryRegion) (sub : RegionId) : List RegionId → List RegionId
  | [] => [sub]
  | other :: subs =>
    if (mem sub).priority ≥ (mem other).priority then sub :: other :: subs
    else other :: insertSubregion mem sub subs

/-- `memory_region_add_subregion_common(mr, offset, subregion)` -/
def memoryRegionAddSubregionCommon (fuel : ℕ) (s : System) (mr : RegionId) (offset : ℕ)
    (sub : RegionId) : Option System :=
  if (s.mem sub).parent ≠ none then none
  else
    let s := { s with mem := setRegion s.mem sub fun r => { r with parent := some mr, addr := offset } }
    changeRegion fuel s mr
      (fun r => { r with subregions := insertSubregion s.mem sub r.subregions }) (some mr)

/-- `memory_region_add_subregion(mr, offset, subregion)` -/
def memoryRegionAddSubregion (fuel : ℕ) (s : System) (mr : RegionId) (offset : ℕ) (sub : RegionId) :
    Option System :=
  memoryRegionAddSubregionCommon fuel
    { s with mem := setRegion s.mem sub fun r => { r with mayOverlap := false, priority := 0 } } mr
    offset sub

/-- `memory_region_add_subregion_overlap(mr, offset, subregion, priority)` -/
def memoryRegionAddSubregionOverlap (fuel : ℕ) (s : System) (mr : RegionId) (offset : ℕ)
    (sub : RegionId) (priority : ℕ) : Option System :=
  memoryRegionAddSubregionCommon fuel
    { s with mem := setRegion s.mem sub fun r => { r with mayOverlap := true, priority } } mr
    offset sub

/-- `memory_region_del_subregion(mr, subregion)` -/
def memoryRegionDelSubregion (fuel : ℕ) (s : System) (mr sub : RegionId) : Option System :=
  if (s.mem sub).parent ≠ some mr then none
  else
    let s := { s with mem := setRegion s.mem sub fun r => { r with parent := none } }
    changeRegion fuel s mr (fun r => { r with subregions := r.subregions.erase sub }) (some mr)

/-- `memory_region_set_address(mr, addr)` -/
def memoryRegionSetAddress (fuel : ℕ) (s : System) (mr : RegionId) (addr : ℕ) : Option System :=
  match (s.mem mr).parent with
  | none => some { s with mem := setRegion s.mem mr fun r => { r with addr } }
  | some parent =>
    if addr = (s.mem mr).addr then some s
    else do
      let priority := (s.mem mr).priority
      let mayOverlap := (s.mem mr).mayOverlap
      let s ← memoryRegionDelSubregion fuel (memoryRegionTransactionBegin s) parent mr
      let s ← if mayOverlap then memoryRegionAddSubregionOverlap fuel s parent addr mr priority
        else memoryRegionAddSubregion fuel s parent addr mr
      memoryRegionTransactionCommit fuel s

/-- `memory_region_set_alias_offset(mr, offset)` -/
def memoryRegionSetAliasOffset (fuel : ℕ) (s : System) (mr : RegionId) (offset : ℕ) :
    Option System :=
  if (s.mem mr).aliasOf = none then none
  else
    let s' := { s with mem := setRegion s.mem mr fun r => { r with aliasOffset := offset } }
    if offset = (s.mem mr).aliasOffset ∨ (s.mem mr).parent = none then some s'
    else memoryRegionUpdateTopology fuel s' (some mr)

/-! ### Listeners and roots -/

/-- `listener_add_address_space(listener, as)` -/
def listenerAddAddressSpace (listener : MemoryListener) (as : AddressSpace) : Option MemoryListener :=
  match as.root with
  | none => some listener
  | some root =>
    if memoryListenerMatch listener root then
      listenerUpdateRegions root (as.currentMap.map (Prod.mk .regionAdd)) listener
    else some listener

/-- The place of a listener among those that are registered. -/
def insertListener (listener : MemoryListener) : List MemoryListener → List MemoryListener
  | [] => [listener]
  | other :: listeners =>
    if listener.priority < other.priority then listener :: other :: listeners
    else other :: insertListener listener listeners

/-- `memory_listener_register(listener, filter)` -/
def memoryListenerRegister (s : System) (priority : ℕ) (filter : Option RegionId) :
    Option System := do
  let listener ← listenerAddAddressSpace ⟨priority, filter, []⟩ s.addressSpaceMemory
  let listener ← listenerAddAddressSpace listener s.addressSpaceIo
  return { s with memoryListeners := insertListener listener s.memoryListeners }

/-- `set_system_memory_map(mr)` -/
def setSystemMemoryMap (fuel : ℕ) (s : System) (mr : RegionId) : Option System :=
  memoryRegionUpdateTopology fuel
    { s with addressSpaceMemory := { s.addressSpaceMemory with root := some mr } } none

/-- `set_system_io_map(mr)` -/
def setSystemIoMap (fuel : ℕ) (s : System) (mr : RegionId) : Option System :=
  memoryRegionUpdateTopology fuel
    { s with addressSpaceIo := { s.addressSpaceIo with root := some mr } } none

/-! ### Runs -/

/-- The calls that change the tree, the listeners or the roots. -/
inductive Op
  | transactionBegin
  | transactionCommit
  | setLog (mr : RegionId) (log : Bool) (client : ℕ)
  | setReadonly (mr : RegionId) (readonly : Bool)
  | romDeviceSetReadable (mr : RegionId) (readable : Bool)
  | setEnabled (mr : RegionId) (enabled : Bool)
  | addSubregion (mr : RegionId) (offset : ℕ) (sub : RegionId)
  | addSubregionOverlap (mr : RegionId) (offset : ℕ) (sub : RegionId) (priority : ℕ)
  | delSubregion (mr sub : RegionId)
  | setAddress (mr : RegionId) (addr : ℕ)
  | setAliasOffset (mr : RegionId) (offset : ℕ)
  | listenerRegister (priority : ℕ) (filter : Option RegionId)
  | listenerUnregister (i : ℕ)
  | setSystemMemoryMap (mr : RegionId)
  | setSystemIoMap (mr : RegionId)

def step (fuel : ℕ) (s : System) : Op → Option System
  | .transactionBegin => some (memoryRegionTransactionBegin s)
  | .transactionCommit => memoryRegionTransactionCommit fuel s
  | .setLog mr log client => memoryRegionSetLog fuel s mr log client
  | .setReadonly mr readonly => memoryRegionSetReadonly fuel s mr readonly
  | .romDeviceSetReadable mr readable => memoryRegionRomDeviceSetReadable fuel s mr readable
  | .setEnabled mr enabled => memoryRegionSetEnabled fuel s mr enabled
  | .addSubregion mr offset sub => memoryRegionAddSubregion fuel s mr offset sub
  | .addSubregionOverlap mr offset sub priority =>
    memoryRegionAddSubregionOverlap fuel s mr offset sub priority
  | .delSubregion mr sub => memoryRegionDelSubregion fuel s mr sub
  | .setAddress mr addr => memoryRegionSetAddress fuel s mr addr
  | .setAliasOffset mr offset => memoryRegionSetAliasOffset fuel s mr offset
  | .listenerRegister priority filter => memoryListenerRegister s priority filter
  | .listenerUnregister i => some { s with memoryListeners := s.memoryListeners.eraseIdx i }
  | .setSystemMemoryMap mr => setSystemMemoryMap fuel s mr
  | .setSystemIoMap mr => setSystemIoMap fuel s mr

/-- No address space has a root, no region is below another one and there is no listener. -/
def initial (mem : RegionId → MemoryRegion) : System where
  mem
  addressSpaceMemory := ⟨none, []⟩
  addressSpaceIo := ⟨none, []⟩
  memoryRegionTransactionDepth := 0
  memoryRegionUpdatePending := false
  memoryListeners := []

end Limbo.Topology
