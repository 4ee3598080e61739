import Limbo.Lib.Radix

/-!
# The map of physical pages

`exec.c` keeps the section of each page of the guest in a tree of nodes with `L2_SIZE` entries. An
entry that is a leaf stands for all pages below it. The nodes are in one array, from which they are
allocated one after the other, and an entry has the index of a node or of a section in 15 bits.

A call has no result where an assertion fails. The number of a node is not cut to the 16 bits of `ret`,
since the assertion fails before.
-/

namespace Limbo.Pages

open Limbo.Lib.Radix

/-- `L2_BITS` -/
def l2Bits : ℕ := 10

/-- `L2_SIZE` -/
def l2Size : ℕ := 2 ^ l2Bits

/-- `PHYS_MAP_NODE_NIL` -/
def physMapNodeNil : ℕ := 2 ^ 15 - 1

structure PhysPageEntry where
  isLeaf : Bool
  ptr : ℕ
deriving DecidableEq, Repr

/-- `phys_map`, `phys_map_nodes`, `phys_map_nodes_nb` and `phys_map_nodes_nb_alloc` -/
structure PhysMap where
  physMap : PhysPageEntry
  physMapNodes : ℕ → ℕ → PhysPageEntry
  physMapNodesNb : ℕ
  physMapNodesNbAlloc : ℕ

/-- Where a pointer to an entry points to. -/
inductive Loc
  | root
  | entry (node i : ℕ)
deriving DecidableEq, Repr

def PhysMap.get (m : PhysMap) : Loc → PhysPageEntry
  | .root => m.physMap
  | .entry node i => m.physMapNodes node i

def PhysMap.set (m : PhysMap) (lp : Loc) (e : PhysPageEntry) : PhysMap :=
  match lp with
  | .root => { m with physMap := e }
  | .entry node i =>
    let entries := Function.update (m.physMapNodes node) i e
    { m with physMapNodes := Function.update m.physMapNodes node entries }

/-- Sets all entries of a node. -/
def PhysMap.fillNode (m : PhysMap) (node : ℕ) (e : PhysPageEntry) : PhysMap :=
  { m with physMapNodes := Function.update m.physMapNodes node fun _ => e }

/-- `phys_map_node_reserve(nodes)` -/
def physMapNodeReserve (m : PhysMap) (nodes : ℕ) : PhysMap :=
  if m.physMapNodesNb + nodes > m.physMapNodesNbAlloc then
    let physMapNodesNbAlloc := max (m.physMapNodesNbAlloc * 2) 16
    { m with physMapNodesNbAlloc := max physMapNodesNbAlloc (m.physMapNodesNb + nodes) }
  else m

/-- `phys_map_node_alloc()` -/
def physMapNodeAlloc (m : PhysMap) : Option (ℕ × PhysMap) :=
  let ret := m.physMapNodesNb
  let m := { m with physMapNodesNb := m.physMapNodesNb + 1 }
  if ret = physMapNodeNil ∨ ret = m.physMapNodesNbAlloc then none
  else some (ret, m.fillNode ret ⟨false, physMapNodeNil⟩)

/-- `phys_map_nodes_reset()`, with `phys_map` as `destroy_l2_mapping()` leaves it. -/
def physMapNodesReset (m : PhysMap) : PhysMap :=
  { m with physMap := ⟨false, physMapNodeNil⟩, physMapNodesNb := 0 }

/-- `step` of a level -/
def step (level : ℕ) : ℕ := 2 ^ (level * l2Bits)

/-- What is stored of the section `leaf`. -/
def leafEntry (leaf : ℕ) : PhysPageEntry := ⟨true, leaf % 2 ^ 15⟩

/-- The node that `lp` points to. It is allocated if there is none. -/
def physMapNode (unassigned level : ℕ) (m : PhysMap) (lp : Loc) : Option (ℕ × PhysMap) :=
  if (m.get lp).isLeaf = false ∧ (m.get lp).ptr = physMapNodeNil then do
    let (ptr, m) ← physMapNodeAlloc m
    let m := m.set lp { m.get lp with ptr }
    return (ptr, if level = 0 then m.fillNode ptr (leafEntry unassigned) else m)
  else some ((m.get lp).ptr, m)

/-- The loop of `phys_page_set_level()` over the entries of a node from the `i`-th on, of which `left`
are left. It ends with `*index` and `*nb`. -/
def physPageSetEntries (below : PhysMap → Loc → ℕ → ℕ → Option (PhysMap × ℕ × ℕ))
    (leaf level node : ℕ) : ℕ → PhysMap → ℕ → ℕ → ℕ → Option (PhysMap × ℕ × ℕ)
  | 0, m, _, index, nb => some (m, index, nb)
  | left + 1, m, i, index, nb =>
    if nb = 0 then some (m, index, nb)
    else if index % step level = 0 ∧ nb ≥ step level then
      physPageSetEntries below leaf level node left (m.set (.entry node i) (leafEntry leaf)) (i + 1)
        (index + step level) (nb - step level)
    else do
      let (m, index, nb) ← below m (.entry node i) index nb
      physPageSetEntries below leaf level node left m (i + 1) index nb

/-- One call of `phys_page_set_level()`, in which `below` is the recursive one. -/
def physPageSetNode (below : PhysMap → Loc → ℕ → ℕ → Option (PhysMap × ℕ × ℕ))
    (unassigned leaf level : ℕ) (m : PhysMap) (lp : Loc) (index nb : ℕ) :
    Option (PhysMap × ℕ × ℕ) := do
  let (node, m) ← physMapNode unassigned level m lp
  let i := index / step level % l2Size
  physPageSetEntries below leaf level node (l2Size - i) m i index nb

/-- `phys_page_set_level(lp, index, nb, leaf, level)` -/
def physPageSetLevel (unassigned leaf : ℕ) :
    ℕ → PhysMap → Loc → ℕ → ℕ → Option (PhysMap × ℕ × ℕ)
  | 0 => physPageSetNode (fun _ _ _ _ => none) unassigned leaf 0
  | level + 1 =>
    physPageSetNode (physPageSetLevel unassigned leaf level) unassigned leaf (level + 1)

/-- `phys_page_set(index, nb, leaf)` -/
def physPageSet (levels unassigned : ℕ) (m : PhysMap) (index nb leaf : ℕ) : Option PhysMap := do
  let m := physMapNodeReserve m (3 * levels)
  let (m, _, _) ← physPageSetLevel unassigned leaf (levels - 1) m .root index nb
  return m

/-- The loop of `phys_page_find(index)`, with the levels that are left. -/
def physPageFindFrom (unassigned : ℕ) (m : PhysMap) (index : ℕ) : ℕ → PhysPageEntry → ℕ
  | 0, lp => lp.ptr
  | i + 1, lp =>
    if lp.isLeaf then lp.ptr
    else if lp.ptr = physMapNodeNil then unassigned
    else physPageFindFrom unassigned m index i (m.physMapNodes lp.ptr (index / step i % l2Size))

/-- `phys_page_find(index)`, the number of the section -/
def physPageFind (levels unassigned : ℕ) (m : PhysMap) (index : ℕ) : ℕ :=
  physPageFindFrom unassigned m index levels m.physMap

end Limbo.Pages
