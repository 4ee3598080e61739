import Limbo.Pages.PhysPageSet
import Limbo.Topology.Listeners

/-!
# Sections and subpages

The core listener of `exec.c` fills the map of physical pages anew in each update. A range of the flat
view is cut where pages end: what covers whole pages is entered into the map, and what covers a page in
part goes into a subpage, which has the section of each of its bytes.

The registration of a part passes the end of the part to `subpage_register()`, which takes it for the
last byte. So a part takes one byte too many, and a part that reaches the end of its page is not
registered at all.
-/

namespace Limbo.Pages

open Limbo.Lib Limbo.Topology

/-- `TARGET_PAGE_SIZE` -/
def targetPageSize : ℕ := 4096

/-- `TARGET_PAGE_ALIGN(addr)` -/
def targetPageAlign (addr : ℕ) : ℕ :=
  (addr + targetPageSize - 1) / targetPageSize * targetPageSize

/-- What the `mr` of a section in `phys_sections` points to. -/
inductive Target
  | unassigned
  | notdirty
  | rom
  | watch
  | subpageRam
  | region (id : RegionId)
  | subpage (i : ℕ)
deriving DecidableEq, Repr

/-- A `MemoryRegionSection` in `phys_sections` -/
structure PhysSection where
  mr : Target
  offsetWithinRegion : ℕ
  size : ℕ
  offsetWithinAddressSpace : ℕ
deriving DecidableEq, Repr

/-- `subpage_t` -/
structure Subpage where
  base : ℕ
  subSection : ℕ → ℕ

/-- The static variables of `exec.c` and the subpages that are allocated -/
structure Exec where
  physMap : PhysMap
  physSections : List PhysSection
  subpages : List Subpage

/-- `phys_section_unassigned` -/
def physSectionUnassigned : ℕ := 0

/-- `phys_section_add(section)` -/
def physSectionAdd (e : Exec) (s : PhysSection) : ℕ × Exec :=
  (e.physSections.length % 2 ^ 16, { e with physSections := e.physSections ++ [s] })

/-- `memory_region_is_ram(mr)` -/
def memoryRegionIsRam (ram : RegionId → Bool) : Target → Bool
  | .region id => ram id
  | _ => false

/-- The section that `subpage_register()` enters, which is another one for ram. -/
def subpageSection (ram : RegionId → Bool) (e : Exec) (sec : ℕ) : ℕ × Exec :=
  match e.physSections[sec]? with
  | some s =>
    if memoryRegionIsRam ram s.mr then physSectionAdd e { s with mr := .subpageRam } else (sec, e)
  | none => (sec, e)

def Subpage.register (start stop sec : ℕ) (sub : Subpage) : Subpage where
  base := sub.base
  subSection := fun idx => if start ≤ idx ∧ idx ≤ stop then sec else sub.subSection idx

/-- `subpage_register(mmio, start, end, section)` -/
def subpageRegister (ram : RegionId → Bool) (e : Exec) (mmio start stop sec : ℕ) : Exec :=
  if start ≥ targetPageSize ∨ stop ≥ targetPageSize then e
  else
    let (sec, e) := subpageSection ram e sec
    { e with subpages := e.subpages.modify mmio (Subpage.register start stop sec) }

/-- `subpage_init(base)` -/
def subpageInit (ram : RegionId → Bool) (e : Exec) (base : ℕ) : ℕ × Exec :=
  let mmio := e.subpages.length
  let e := { e with subpages := e.subpages ++ [⟨base, fun _ => 0⟩] }
  (mmio, subpageRegister ram e mmio 0 (targetPageSize - 1) physSectionUnassigned)

/-- `phys_page_find(index)` with the section it returns -/
def Exec.find (levels : ℕ) (e : Exec) (index : ℕ) : Option PhysSection :=
  e.physSections[physPageFind levels physSectionUnassigned e.physMap index]?

def Exec.setPages (levels : ℕ) (e : Exec) (index nb leaf : ℕ) : Option Exec := do
  let physMap ← physPageSet levels physSectionUnassigned e.physMap index nb leaf
  return { e with physMap }

/-- The subpage that `register_subpage()` uses. -/
def findSubpage (levels : ℕ) (ram : RegionId → Bool) (e : Exec) (base : ℕ) : Option (ℕ × Exec) := do
  let existing ← e.find levels (base / targetPageSize)
  match existing.mr with
  | .subpage i => some (i, e)
  | .unassigned => do
    let (mmio, e) := subpageInit ram e base
    let (leaf, e) := physSectionAdd e ⟨.subpage mmio, 0, targetPageSize, base⟩
    let e ← e.setPages levels (base / targetPageSize) 1 leaf
    return (mmio, e)
  | _ => none

/-- `register_subpage(section)` -/
def registerSubpage (levels : ℕ) (ram : RegionId → Bool) (e : Exec) (s : PhysSection) :
    Option Exec := do
  let base := s.offsetWithinAddressSpace / targetPageSize * targetPageSize
  let (mmio, e) ← findSubpage levels ram e base
  let start := s.offsetWithinAddressSpace % targetPageSize
  let stop := start + s.size
  let (sec, e) := physSectionAdd e s
  return subpageRegister ram e mmio start stop sec

/-- `register_multipage(section)` -/
def registerMultipage (levels : ℕ) (e : Exec) (s : PhysSection) : Option Exec :=
  let (sectionIndex, e) := physSectionAdd e s
  if s.size = 0 then none
  else e.setPages levels (s.offsetWithinAddressSpace / targetPageSize) (s.size / targetPageSize)
    sectionIndex

/-- What is left of a section behind its first `n` bytes. -/
def PhysSection.skip (s : PhysSection) (n : ℕ) : PhysSection where
  mr := s.mr
  offsetWithinRegion := s.offsetWithinRegion + n
  size := s.size - n
  offsetWithinAddressSpace := s.offsetWithinAddressSpace + n

/-- The first `n` bytes of a section. -/
def PhysSection.take (s : PhysSection) (n : ℕ) : PhysSection := { s with size := n }

/-- The part of a section up to the end of its first page, and what remains of it. -/
def registerHead (levels : ℕ) (ram : RegionId → Bool) (e : Exec) (s : PhysSection) :
    Option (Exec × PhysSection) :=
  let offset := s.offsetWithinAddressSpace
  if offset % targetPageSize ≠ 0 ∨ s.size < targetPageSize then do
    let size := min (targetPageAlign offset - offset) s.size
    let e ← registerSubpage levels ram e (s.take size)
    return (e, s.skip size)
  else some (e, s)

/-- The whole pages of a section that starts with a page, and what remains of it. -/
def registerPages (levels : ℕ) (e : Exec) (s : PhysSection) : Option (Exec × PhysSection) :=
  let size := s.size / targetPageSize * targetPageSize
  if size ≠ 0 then do
    let e ← registerMultipage levels e (s.take size)
    return (e, s.skip size)
  else some (e, s)

/-- `cpu_register_physical_memory_log(section, readonly)` -/
def cpuRegisterPhysicalMemoryLog (levels : ℕ) (ram : RegionId → Bool) (e : Exec) (s : PhysSection) :
    Option Exec := do
  let (e, remain) ← registerHead levels ram e s
  let (e, remain) ← registerPages levels e remain
  if remain.size ≠ 0 then registerSubpage levels ram e remain else some e

/-! ### The core listener -/

/-- `dummy_section(mr)` -/
def dummySection (mr : Target) : PhysSection := ⟨mr, 0, 2 ^ 64 - 1, 0⟩

/-- `core_begin(listener)` -/
def coreBegin (e : Exec) : Exec where
  physMap := physMapNodesReset e.physMap
  physSections := [dummySection .unassigned, dummySection .notdirty, dummySection .rom,
    dummySection .watch]
  subpages := []

def toPhysSection (s : MemoryRegionSection) : PhysSection where
  mr := .region s.mr
  offsetWithinRegion := s.offsetWithinRegion
  size := s.size
  offsetWithinAddressSpace := s.offsetWithinAddressSpace

/-- The callbacks of `core_memory_listener` -/
def coreCall (levels : ℕ) (ram : RegionId → Bool) (e : Exec) : Call → Option Exec
  | .begin => some (coreBegin e)
  | .commit => some e
  | .region .regionAdd s => cpuRegisterPhysicalMemoryLog levels ram e (toPhysSection s)
  | .region .regionNop s => cpuRegisterPhysicalMemoryLog levels ram e (toPhysSection s)
  | .region _ _ => some e

/-! ### Accesses -/

/-- `memory_region_section_addr(section, addr)` -/
def memoryRegionSectionAddr (s : PhysSection) (addr : ℕ) : ℕ :=
  (addr + 2 ^ 64 - s.offsetWithinAddressSpace + s.offsetWithinRegion) % 2 ^ 64

/-- What an access to an address reaches: `phys_page_find()`, and `subpage_read()` or
`subpage_write()` if that finds a subpage. -/
def dispatch (levels : ℕ) (e : Exec) (addr : ℕ) : Option (Target × ℕ) := do
  let s ← e.find levels (addr / targetPageSize)
  match s.mr with
  | .subpage i => do
    let mmio ← e.subpages[i]?
    let s' ← e.physSections[mmio.subSection (memoryRegionSectionAddr s addr % targetPageSize)]?
    return (s'.mr, memoryRegionSectionAddr s' ((memoryRegionSectionAddr s addr + mmio.base) % 2 ^ 64))
  | mr => some (mr, memoryRegionSectionAddr s addr)

end Limbo.Pages
