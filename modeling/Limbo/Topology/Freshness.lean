import Limbo.Topology.System

/-!
# The flat views are up to date

An update is left out for a region that is not enabled, and put off inside of a transaction. Neither
leaves a flat view behind that is not the topology of the tree: what is rendered does not depend on a
region that is not enabled, nor on the address of one that is not below another region, as long as it
is not the root. Two functions change what is rendered without an update: the address of a root, and
the offset of an alias that is not itself below another region.
-/

namespace Limbo.Topology

open Limbo.Lib

variable {mem mem' mem'' : RegionId → MemoryRegion} {fuel : ℕ}

/-! ### What rendering depends on -/

/-- A region without what only the region above it looks at. -/
def MemoryRegion.content (mr : MemoryRegion) : MemoryRegion :=
  { mr with parent := none, addr := 0, priority := 0, mayOverlap := false }

/-- Regions that are rendered have the same content and the same subregions at the same addresses. -/
def Alike (mem mem' : RegionId → MemoryRegion) : Prop :=
  ∀ id, (mem id).enabled = false ∧ (mem' id).enabled = false ∨
    (mem id).content = (mem' id).content ∧
      ∀ sub ∈ (mem id).subregions, (mem sub).addr = (mem' sub).addr

lemma enabled_eq_of_content {r r' : MemoryRegion} (h : r.content = r'.content) :
    r.enabled = r'.enabled := congrArg (·.enabled) h

lemma subregions_eq_of_content {r r' : MemoryRegion} (h : r.content = r'.content) :
    r.subregions = r'.subregions := congrArg (·.subregions) h

lemma Alike.trans (h : Alike mem mem') (h' : Alike mem' mem'') : Alike mem mem'' := by
  intro id
  obtain ⟨hd, hd'⟩ | ⟨hc, hsub⟩ := h id
  · obtain ⟨-, hd''⟩ | ⟨hc', -⟩ := h' id
    · exact .inl ⟨hd, hd''⟩
    · exact .inl ⟨hd, enabled_eq_of_content hc' ▸ hd'⟩
  · obtain ⟨hd', hd''⟩ | ⟨hc', hsub'⟩ := h' id
    · exact .inl ⟨(enabled_eq_of_content hc).trans hd', hd''⟩
    · refine .inr ⟨hc.trans hc', fun sub hmem => (hsub sub hmem).trans (hsub' sub ?_)⟩
      rwa [← subregions_eq_of_content hc]

lemma renderGaps_congr {id : RegionId} {r r' : MemoryRegion} (h : r.content = r'.content)
    (readonly : Bool) (view : List FlatRange) (c : Cursor) :
    renderGaps id r readonly view c = renderGaps id r' readonly view c := by
  have hmask : r.dirtyLogMask = r'.dirtyLogMask := congrArg (·.dirtyLogMask) h
  have hreadable : r.readable = r'.readable := congrArg (·.readable) h
  have hrange : ∀ (c : Cursor) (now : ℤ), c.range id r readonly now = c.range id r' readonly now := by
    intro c now
    rw [Cursor.range, Cursor.range, hmask, hreadable]
  induction view generalizing c with
  | nil => rw [renderGaps, renderGaps, hrange]
  | cons fr view ih =>
    rw [renderGaps, renderGaps]
    simp only [hrange, ih]

lemma foldlM_eq_of_mem {α β : Type*} {f g : β → α → Option β} {l : List α} {b : β}
    (h : ∀ b, ∀ a ∈ l, f b a = g b a) : l.foldlM f b = l.foldlM g b := by
  induction l generalizing b with
  | nil => rfl
  | cons a l ih =>
    rw [List.foldlM_cons, List.foldlM_cons, h b a List.mem_cons_self]
    congr 1
    funext b'
    exact ih fun b a ha => h b a (List.mem_cons_of_mem _ ha)

/-- Rendering does not see the difference between trees that are alike. -/
lemma renderMemoryRegion_alike (h : Alike mem mem') {view : List FlatRange} {id : RegionId}
    {base base' : ℤ} {clip : AddrRange} {readonly : Bool}
    (hbase : base + (mem id).addr = base' + (mem' id).addr) :
    renderMemoryRegion mem fuel view id base clip readonly =
      renderMemoryRegion mem' fuel view id base' clip readonly := by
  induction fuel generalizing view id base base' clip readonly with
  | zero => rfl
  | succ fuel ih =>
    rw [renderMemoryRegion, renderMemoryRegion]
    dsimp only
    obtain ⟨hd, hd'⟩ | ⟨hc, hsub⟩ := h id
    · rw [if_pos (by rw [hd]; simp), if_pos (by rw [hd']; simp)]
    · have hsize : (mem id).size = (mem' id).size := congrArg (·.size) hc
      have hreadonly : (mem id).readonly = (mem' id).readonly := congrArg (·.readonly) hc
      have halias : (mem id).aliasOf = (mem' id).aliasOf := congrArg (·.aliasOf) hc
      have hoffset : (mem id).aliasOffset = (mem' id).aliasOffset := congrArg (·.aliasOffset) hc
      have hterm : (mem id).terminates = (mem' id).terminates := congrArg (·.terminates) hc
      rw [← enabled_eq_of_content hc, ← hbase, ← hsize, ← hreadonly, ← halias, ← hoffset, ← hterm,
        ← subregions_eq_of_content hc]
      by_cases hen : (mem id).enabled = true
      · rw [if_neg (not_not_intro hen), if_neg (not_not_intro hen)]
        by_cases hvisible : addrrangeIntersects ⟨base + (mem id).addr, (mem id).size⟩ clip = true
        · rw [if_neg (not_not_intro hvisible), if_neg (not_not_intro hvisible)]
          cases (mem id).aliasOf with
          | some orig => exact ih (by omega)
          | none =>
            dsimp only
            rw [foldlM_eq_of_mem fun v sub hmem => ih (by rw [hsub sub hmem])]
            simp only [renderGaps_congr hc]
        · rw [if_pos hvisible, if_pos hvisible]
      · rw [if_pos hen, if_pos hen]

lemma generateMemoryTopology_alike (h : Alike mem mem') {root : RegionId}
    (hroot : (mem root).addr = (mem' root).addr) :
    generateMemoryTopology mem fuel root = generateMemoryTopology mem' fuel root := by
  rw [generateMemoryTopology, generateMemoryTopology, renderMemoryRegion_alike h (by rw [hroot])]

/-! ### Changes that rendering does not see -/

lemma setRegion_self (mem : RegionId → MemoryRegion) (id : RegionId)
    (f : MemoryRegion → MemoryRegion) : setRegion mem id f id = f (mem id) :=
  Function.update_self ..

lemma setRegion_of_ne {id id' : RegionId} (h : id' ≠ id) (f : MemoryRegion → MemoryRegion) :
    setRegion mem id f id' = mem id' := Function.update_of_ne h ..

/-- A projection that the change keeps at the region it is made to is kept everywhere. -/
lemma setRegion_proj {β : Type*} (g : MemoryRegion → β) {id : RegionId}
    {f : MemoryRegion → MemoryRegion} (h : g (f (mem id)) = g (mem id)) (id' : RegionId) :
    g (setRegion mem id f id') = g (mem id') := by
  by_cases hid : id' = id
  · rw [hid, setRegion_self, h]
  · rw [setRegion_of_ne hid]

lemma alike_of_disabled {id : RegionId} {f : MemoryRegion → MemoryRegion}
    (hd : (mem id).enabled = false) (hd' : (f (mem id)).enabled = false)
    (haddr : (f (mem id)).addr = (mem id).addr) : Alike mem (setRegion mem id f) := by
  intro id'
  by_cases hid : id' = id
  · subst hid
    exact .inl ⟨hd, by rwa [setRegion_self]⟩
  · refine .inr ⟨by rw [setRegion_of_ne hid], fun sub _ => ?_⟩
    exact (setRegion_proj (·.addr) haddr sub).symm

lemma alike_of_content {id : RegionId} {f : MemoryRegion → MemoryRegion}
    (hc : (f (mem id)).content = (mem id).content)
    (haddr : (∀ p, id ∉ (mem p).subregions) ∨ (f (mem id)).addr = (mem id).addr) :
    Alike mem (setRegion mem id f) := by
  intro id'
  refine .inr ⟨(setRegion_proj MemoryRegion.content hc id').symm, fun sub hsub => ?_⟩
  obtain habsent | haddr := haddr
  · have hne : sub ≠ id := fun h => habsent id' (h ▸ hsub)
    rw [setRegion_of_ne hne]
  · exact (setRegion_proj (·.addr) haddr sub).symm

/-! ### The invariant -/

/-- A region is below the one that is its parent, and there once. -/
structure TreeOk (mem : RegionId → MemoryRegion) : Prop where
  parent : ∀ p, ∀ sub ∈ (mem p).subregions, (mem sub).parent = some p
  nodup : ∀ p, (mem p).subregions.Nodup

def IsRoot (s : System) (id : RegionId) : Prop :=
  s.addressSpaceMemory.root = some id ∨ s.addressSpaceIo.root = some id

/-- The current map is the topology below the root. -/
def Current (fuel : ℕ) (mem : RegionId → MemoryRegion) (as : AddressSpace) : Prop :=
  ∀ root, as.root = some root → generateMemoryTopology mem fuel root = some as.currentMap

def UpToDate (fuel : ℕ) (s : System) : Prop :=
  Current fuel s.mem s.addressSpaceMemory ∧ Current fuel s.mem s.addressSpaceIo

/-- Unless an update is pending, the flat views are up to date. None is pending outside of a
transaction. -/
structure Fresh (fuel : ℕ) (s : System) : Prop where
  tree : TreeOk s.mem
  idle : s.memoryRegionTransactionDepth = 0 → s.memoryRegionUpdatePending = false
  current : s.memoryRegionUpdatePending = false → UpToDate fuel s

/-- A state in which `memory_region_update_topology(mr)` is called: if nothing is to be done for a
region that is not enabled, the flat views are up to date. -/
structure Changed (fuel : ℕ) (s : System) (mr : Option RegionId) : Prop where
  tree : TreeOk s.mem
  skip : ∀ id, mr = some id → (s.mem id).enabled = false → s.memoryRegionUpdatePending = false →
    UpToDate fuel s
  idle : ∀ id, mr = some id → s.memoryRegionTransactionDepth = 0 →
    s.memoryRegionUpdatePending = false

lemma UpToDate.alike {s : System} (h : UpToDate fuel s) (ha : Alike s.mem mem')
    (hroot : ∀ id, IsRoot s id → (s.mem id).addr = (mem' id).addr) :
    UpToDate fuel { s with mem := mem' } :=
  ⟨fun root hr => generateMemoryTopology_alike ha (hroot root (.inl hr)) ▸ h.1 root hr,
    fun root hr => generateMemoryTopology_alike ha (hroot root (.inr hr)) ▸ h.2 root hr⟩

lemma current_of_update {as as' : AddressSpace} {ls ls' : List MemoryListener}
    (h : addressSpaceUpdateTopology fuel mem as ls = some (as', ls')) :
    Current fuel mem as' ∧ as'.root = as.root := by
  rw [addressSpaceUpdateTopology] at h
  cases hroot : as.root with
  | none =>
    rw [hroot] at h
    cases h
    exact ⟨fun root hr => by simp [hroot] at hr, hroot⟩
  | some root =>
    rw [hroot] at h
    simp only [Option.bind_eq_bind, Option.bind_eq_some_iff, Option.pure_def, Option.some.injEq,
      Prod.mk.injEq] at h
    obtain ⟨view, hgen, ls₁, -, rfl, -⟩ := h
    refine ⟨fun root' hr => ?_, rfl⟩
    obtain rfl := Option.some.inj hr
    exact hgen

lemma changed_none {s : System} (h : TreeOk s.mem) : Changed fuel s none :=
  ⟨h, by simp, by simp⟩

/-- What `memory_region_update_topology()` keeps, and that it leaves the flat views up to date. -/
lemma fresh_of_changed {s s' : System} {mr : Option RegionId}
    (hs' : memoryRegionUpdateTopology fuel s mr = some s') (h : Changed fuel s mr) :
    Fresh fuel s' ∧ s'.mem = s.mem ∧ ∀ id, IsRoot s' id ↔ IsRoot s id := by
  obtain ⟨htree, hskip, hidle⟩ := h
  rw [memoryRegionUpdateTopology] at hs'
  by_cases hdepth : s.memoryRegionTransactionDepth ≠ 0
  · rw [if_pos hdepth] at hs'
    cases hs'
    refine ⟨⟨htree, fun h => absurd h hdepth, fun hpending => ?_⟩, rfl, fun _ => Iff.rfl⟩
    obtain ⟨hbefore, hmr⟩ := Bool.or_eq_false_iff.mp hpending
    cases mr with
    | none => cases hmr
    | some id => exact hskip id rfl hmr hbefore
  · rw [if_neg hdepth] at hs'
    by_cases hmr : (mr.any fun id => !(s.mem id).enabled) = true
    · rw [if_pos hmr] at hs'
      cases hs'
      cases mr with
      | none => cases hmr
      | some id =>
        exact ⟨⟨htree, hidle id rfl, hskip id rfl (by simpa using hmr)⟩, rfl, fun _ => Iff.rfl⟩
    · rw [if_neg hmr] at hs'
      simp only [Option.bind_eq_bind, Option.bind_eq_some_iff, Option.pure_def,
        Option.some.injEq] at hs'
      obtain ⟨⟨memory, ls₁⟩, hmemory, ⟨io, ls₂⟩, hio, rfl⟩ := hs'
      obtain ⟨hcur, hroot⟩ := current_of_update hmemory
      obtain ⟨hcurIo, hrootIo⟩ := current_of_update hio
      refine ⟨⟨htree, fun _ => rfl, fun _ => ⟨hcur, hcurIo⟩⟩, rfl, fun id => ?_⟩
      rw [IsRoot, IsRoot]
      dsimp only
      rw [hroot, hrootIo]

lemma fresh_of_update {s s' : System} (hs' : memoryRegionUpdateTopology fuel s none = some s')
    (h : TreeOk s.mem) : Fresh fuel s' := (fresh_of_changed hs' (changed_none h)).1

lemma TreeOk.setRegion {id : RegionId} {f : MemoryRegion → MemoryRegion} (h : TreeOk mem)
    (hparent : (f (mem id)).parent = (mem id).parent)
    (hsubs : (f (mem id)).subregions = (mem id).subregions) :
    TreeOk (Topology.setRegion mem id f) := by
  have hp := setRegion_proj (·.parent) hparent
  have hs := setRegion_proj (·.subregions) hsubs
  exact ⟨fun p sub hsub => (hp sub).trans (h.parent p sub (hs p ▸ hsub)),
    fun p => (hs p).symm ▸ h.nodup p⟩

/-! ### Operations -/

/-- A change to a field that neither the tree nor, in a region that is not enabled, rendering depends
on. -/
lemma Fresh.changeRegion {s s' : System} {id : RegionId} {f : MemoryRegion → MemoryRegion}
    (h : Fresh fuel s) (hparent : (f (s.mem id)).parent = (s.mem id).parent)
    (hsubs : (f (s.mem id)).subregions = (s.mem id).subregions)
    (haddr : (f (s.mem id)).addr = (s.mem id).addr)
    (hen : (f (s.mem id)).enabled = (s.mem id).enabled)
    (hs' : Topology.changeRegion fuel s id f (some id) = some s') : Fresh fuel s' := by
  refine (fresh_of_changed hs' ⟨h.tree.setRegion hparent hsubs, ?_, fun _ _ => h.idle⟩).1
  intro id' hid hd hpending
  obtain rfl := Option.some.inj hid
  dsimp only at hd
  rw [setRegion_self] at hd
  exact (h.current hpending).alike (alike_of_disabled (hen ▸ hd) hd haddr)
    fun id' _ => (setRegion_proj (·.addr) haddr id').symm

lemma Fresh.transactionBegin {s : System} (h : Fresh fuel s) :
    Fresh fuel (memoryRegionTransactionBegin s) :=
  ⟨h.tree, fun hz => absurd hz (Nat.succ_ne_zero _), h.current⟩

lemma Fresh.transactionCommit {s s' : System} (h : Fresh fuel s)
    (hs' : memoryRegionTransactionCommit fuel s = some s') : Fresh fuel s' := by
  rw [memoryRegionTransactionCommit] at hs'
  dsimp only at hs'
  by_cases hzero : s.memoryRegionTransactionDepth = 0
  · rw [if_pos hzero] at hs'
    cases hs'
  rw [if_neg hzero] at hs'
  by_cases hlast : s.memoryRegionTransactionDepth - 1 = 0 ∧ s.memoryRegionUpdatePending = true
  · rw [if_pos hlast] at hs'
    exact fresh_of_update hs' h.tree
  · rw [if_neg hlast] at hs'
    obtain rfl := Option.some.inj hs'
    refine ⟨h.tree, fun hdepth => ?_, h.current⟩
    rw [not_and, Bool.not_eq_true] at hlast
    exact hlast hdepth

lemma Fresh.setLog {s s' : System} {mr : RegionId} {log : Bool} {client : ℕ} (h : Fresh fuel s)
    (hs' : memoryRegionSetLog fuel s mr log client = some s') : Fresh fuel s' :=
  h.changeRegion rfl rfl rfl rfl hs'

lemma Fresh.setReadonly {s s' : System} {mr : RegionId} {readonly : Bool} (h : Fresh fuel s)
    (hs' : memoryRegionSetReadonly fuel s mr readonly = some s') : Fresh fuel s' := by
  rw [memoryRegionSetReadonly] at hs'
  by_cases hne : (s.mem mr).readonly ≠ readonly
  · rw [if_pos hne] at hs'
    exact h.changeRegion rfl rfl rfl rfl hs'
  · rw [if_neg hne] at hs'
    exact Option.some.inj hs' ▸ h

lemma Fresh.romDeviceSetReadable {s s' : System} {mr : RegionId} {readable : Bool} (h : Fresh fuel s)
    (hs' : memoryRegionRomDeviceSetReadable fuel s mr readable = some s') : Fresh fuel s' := by
  rw [memoryRegionRomDeviceSetReadable] at hs'
  by_cases hne : (s.mem mr).readable ≠ readable
  · rw [if_pos hne] at hs'
    exact h.changeRegion rfl rfl rfl rfl hs'
  · rw [if_neg hne] at hs'
    exact Option.some.inj hs' ▸ h

lemma Fresh.setEnabled {s s' : System} {mr : RegionId} {enabled : Bool} (h : Fresh fuel s)
    (hs' : memoryRegionSetEnabled fuel s mr enabled = some s') : Fresh fuel s' := by
  rw [memoryRegionSetEnabled] at hs'
  by_cases heq : enabled = (s.mem mr).enabled
  · rw [if_pos heq] at hs'
    exact Option.some.inj hs' ▸ h
  · rw [if_neg heq] at hs'
    rw [Topology.changeRegion] at hs'
    have htree : TreeOk (setRegion s.mem mr fun r => { r with enabled }) := h.tree.setRegion rfl rfl
    exact fresh_of_update hs' htree

/-! ### Subregions -/

lemma insertSubregion_perm (mem : RegionId → MemoryRegion) (sub : RegionId) (l : List RegionId) :
    (insertSubregion mem sub l).Perm (sub :: l) := by
  induction l with
  | nil => exact .refl _
  | cons other l ih =>
    rw [insertSubregion]
    split_ifs
    · exact .refl _
    · exact (ih.cons other).trans (.swap sub other l)

/-- A region without a parent is below no region. -/
lemma TreeOk.not_mem {sub : RegionId} (h : TreeOk mem) (hsub : (mem sub).parent = none)
    (p : RegionId) : sub ∉ (mem p).subregions := by
  intro hmem
  have hp := h.parent p sub hmem
  rw [hsub] at hp
  cases hp

lemma TreeOk.add {sub : RegionId} (mr : RegionId) (h : TreeOk mem) (hsub : (mem sub).parent = none)
    (hparent : ∀ p, (mem' p).parent = if p = sub then some mr else (mem p).parent)
    (hsubs : ∀ p, (mem' p).subregions.Perm
      (if p = mr then sub :: (mem p).subregions else (mem p).subregions)) : TreeOk mem' := by
  have hnot := h.not_mem hsub
  constructor
  · intro p x hx
    rw [(hsubs p).mem_iff] at hx
    rw [hparent]
    by_cases hp : p = mr
    · rw [if_pos hp] at hx
      by_cases hxs : x = sub
      · rw [if_pos hxs, hp]
      · rw [if_neg hxs]
        exact h.parent p x ((List.mem_cons.mp hx).resolve_left hxs)
    · rw [if_neg hp] at hx
      have hxs : x ≠ sub := fun hxs => hnot p (hxs ▸ hx)
      rw [if_neg hxs]
      exact h.parent p x hx
  · intro p
    rw [(hsubs p).nodup_iff]
    split_ifs
    · exact List.nodup_cons.mpr ⟨hnot p, h.nodup p⟩
    · exact h.nodup p

lemma TreeOk.del {mr sub : RegionId} (h : TreeOk mem) (hsub : (mem sub).parent = some mr)
    (hparent : ∀ p, (mem' p).parent = if p = sub then none else (mem p).parent)
    (hsubs : ∀ p, (mem' p).subregions =
      if p = mr then (mem p).subregions.erase sub else (mem p).subregions) : TreeOk mem' := by
  constructor
  · intro p x hx
    rw [hsubs] at hx
    rw [hparent]
    by_cases hp : p = mr
    · rw [if_pos hp] at hx
      have hxs : x ≠ sub := fun hxs => (h.nodup p).not_mem_erase (hxs ▸ hx)
      rw [if_neg hxs]
      exact h.parent p x (List.mem_of_mem_erase hx)
    · rw [if_neg hp] at hx
      have hpx := h.parent p x hx
      have hxs : x ≠ sub := by
        rintro rfl
        rw [hsub, Option.some.injEq] at hpx
        exact hp hpx.symm
      rw [if_neg hxs, hpx]
  · intro p
    rw [hsubs]
    split_ifs
    · exact (h.nodup p).erase sub
    · exact h.nodup p

lemma setRegion_apply {β : Type*} (g : MemoryRegion → β) {id : RegionId}
    {f : MemoryRegion → MemoryRegion} (p : RegionId) :
    g (setRegion mem id f p) = if p = id then g (f (mem id)) else g (mem p) := by
  by_cases hp : p = id
  · rw [if_pos hp, hp, setRegion_self]
  · rw [if_neg hp, setRegion_of_ne hp]

/-- The regions after `sub` has been put below `mr`. -/
def withSubregion (mem : RegionId → MemoryRegion) (mr : RegionId) (offset : ℕ) (sub : RegionId) :
    RegionId → MemoryRegion :=
  let mem := setRegion mem sub fun r => { r with parent := some mr, addr := offset }
  setRegion mem mr fun r => { r with subregions := insertSubregion mem sub r.subregions }

lemma TreeOk.withSubregion {mr sub : RegionId} {offset : ℕ} (h : TreeOk mem)
    (hsub : (mem sub).parent = none) : TreeOk (Topology.withSubregion mem mr offset sub) := by
  refine h.add mr hsub (fun p => ?_) fun p => ?_
  · rw [Topology.withSubregion]
    exact (setRegion_proj (·.parent) rfl p).trans (setRegion_apply (·.parent) p)
  · rw [Topology.withSubregion]
    have hsame : ∀ p, (Topology.setRegion mem sub (fun r => { r with parent := some mr, addr := offset })
        p).subregions = (mem p).subregions := setRegion_proj (·.subregions) rfl
    rw [setRegion_apply (·.subregions) p]
    split_ifs with hp
    · rw [hp, hsame]
      exact insertSubregion_perm _ _ _
    · rw [hsame]

lemma alike_withSubregion {mr sub : RegionId} {offset : ℕ} (h : TreeOk mem)
    (hsub : (mem sub).parent = none) (hd : (mem mr).enabled = false) :
    Alike mem (withSubregion mem mr offset sub) := by
  have hfirst : Alike mem (setRegion mem sub fun r => { r with parent := some mr, addr := offset }) :=
    alike_of_content rfl (.inl (h.not_mem hsub))
  refine hfirst.trans (alike_of_disabled ?_ ?_ rfl)
  · exact (setRegion_proj (·.enabled) rfl mr).trans hd
  · exact (setRegion_proj (·.enabled) rfl mr).trans hd

lemma Fresh.addSubregionCommon {s s' : System} {mr sub : RegionId} {offset : ℕ} (h : Fresh fuel s)
    (hroot : ¬ IsRoot s sub)
    (hs' : memoryRegionAddSubregionCommon fuel s mr offset sub = some s') : Fresh fuel s' := by
  rw [memoryRegionAddSubregionCommon] at hs'
  by_cases hparent : (s.mem sub).parent = none
  · rw [if_neg (not_not_intro hparent)] at hs'
    have hupdate : memoryRegionUpdateTopology fuel
        { s with mem := withSubregion s.mem mr offset sub } (some mr) = some s' := hs'
    refine (fresh_of_changed hupdate ⟨h.tree.withSubregion hparent, ?_, fun _ _ => h.idle⟩).1
    intro id hid hd hpending
    obtain rfl := Option.some.inj hid
    have henabled : (withSubregion s.mem mr offset sub mr).enabled = (s.mem mr).enabled :=
      (setRegion_proj (·.enabled) rfl mr).trans (setRegion_proj (·.enabled) rfl mr)
    refine (h.current hpending).alike (alike_withSubregion h.tree hparent (henabled ▸ hd)) ?_
    intro id hid
    have hne : id ≠ sub := fun heq => hroot (heq ▸ hid)
    refine Eq.symm ((setRegion_proj (·.addr) rfl id).trans ?_)
    rw [setRegion_of_ne hne]
  · rw [if_pos hparent] at hs'
    cases hs'

/-- Fields of a subregion that only the region above it looks at. -/
lemma Fresh.setUnseen {s : System} {id : RegionId} {f : MemoryRegion → MemoryRegion} (h : Fresh fuel s)
    (hc : (f (s.mem id)).content = (s.mem id).content)
    (hparent : (f (s.mem id)).parent = (s.mem id).parent)
    (haddr : (f (s.mem id)).addr = (s.mem id).addr ∨ (s.mem id).parent = none ∧ ¬ IsRoot s id) :
    Fresh fuel { s with mem := setRegion s.mem id f } := by
  refine ⟨h.tree.setRegion hparent (subregions_eq_of_content hc), h.idle, fun hpending => ?_⟩
  have habsent : (∀ p, id ∉ (s.mem p).subregions) ∨ (f (s.mem id)).addr = (s.mem id).addr :=
    haddr.symm.imp_left fun hnone => h.tree.not_mem hnone.1
  refine (h.current hpending).alike (alike_of_content hc habsent) fun id' hid' => ?_
  obtain haddr | ⟨-, hroot⟩ := haddr
  · exact (setRegion_proj (·.addr) haddr id').symm
  · have hne : id' ≠ id := fun heq => hroot (heq ▸ hid')
    rw [setRegion_of_ne hne]

lemma Fresh.addSubregion {s s' : System} {mr sub : RegionId} {offset : ℕ} (h : Fresh fuel s)
    (hroot : ¬ IsRoot s sub) (hs' : memoryRegionAddSubregion fuel s mr offset sub = some s') :
    Fresh fuel s' :=
  (h.setUnseen rfl rfl (.inl rfl)).addSubregionCommon hroot hs'

lemma Fresh.addSubregionOverlap {s s' : System} {mr sub : RegionId} {offset priority : ℕ}
    (h : Fresh fuel s) (hroot : ¬ IsRoot s sub)
    (hs' : memoryRegionAddSubregionOverlap fuel s mr offset sub priority = some s') : Fresh fuel s' :=
  (h.setUnseen rfl rfl (.inl rfl)).addSubregionCommon hroot hs'

/-- The regions after `sub` has been taken out of those below `mr`. -/
def withoutSubregion (mem : RegionId → MemoryRegion) (mr sub : RegionId) : RegionId → MemoryRegion :=
  setRegion (setRegion mem sub fun r => { r with parent := none }) mr
    fun r => { r with subregions := r.subregions.erase sub }

lemma TreeOk.withoutSubregion {mr sub : RegionId} (h : TreeOk mem)
    (hsub : (mem sub).parent = some mr) : TreeOk (Topology.withoutSubregion mem mr sub) := by
  refine h.del hsub (fun p => ?_) fun p => ?_
  · rw [Topology.withoutSubregion]
    exact (setRegion_proj (·.parent) rfl p).trans (setRegion_apply (·.parent) p)
  · have hsame : ∀ p, (Topology.setRegion mem sub (fun r => { r with parent := none }) p).subregions =
        (mem p).subregions := setRegion_proj (·.subregions) rfl
    rw [Topology.withoutSubregion, setRegion_apply (·.subregions) p]
    split_ifs with hp
    · rw [hp, hsame]
    · rw [hsame]

lemma Fresh.delSubregion {s s' : System} {mr sub : RegionId} (h : Fresh fuel s)
    (hs' : memoryRegionDelSubregion fuel s mr sub = some s') :
    Fresh fuel s' ∧ ∀ id, IsRoot s' id ↔ IsRoot s id := by
  rw [memoryRegionDelSubregion] at hs'
  by_cases hparent : (s.mem sub).parent = some mr
  · rw [if_neg (not_not_intro hparent)] at hs'
    have hupdate : memoryRegionUpdateTopology fuel
        { s with mem := withoutSubregion s.mem mr sub } (some mr) = some s' := hs'
    have hchanged : Changed fuel { s with mem := withoutSubregion s.mem mr sub } (some mr) := by
      refine ⟨h.tree.withoutSubregion hparent, fun id hid hd hpending => ?_, fun _ _ => h.idle⟩
      obtain rfl := Option.some.inj hid
      have henabled : (withoutSubregion s.mem mr sub mr).enabled = (s.mem mr).enabled :=
        (setRegion_proj (·.enabled) rfl mr).trans (setRegion_proj (·.enabled) rfl mr)
      have hfirst : Alike s.mem (setRegion s.mem sub fun r => { r with parent := none }) :=
        alike_of_content rfl (.inr rfl)
      have hd' : (s.mem mr).enabled = false := henabled ▸ hd
      refine (h.current hpending).alike (hfirst.trans (alike_of_disabled ?_ ?_ rfl)) fun id _ => ?_
      · exact (setRegion_proj (·.enabled) rfl mr).trans hd'
      · exact (setRegion_proj (·.enabled) rfl mr).trans hd'
      · exact ((setRegion_proj (·.addr) rfl id).trans (setRegion_proj (·.addr) rfl id)).symm
    obtain ⟨hfresh, -, hroot⟩ := fresh_of_changed hupdate hchanged
    exact ⟨hfresh, hroot⟩
  · rw [if_pos hparent] at hs'
    cases hs'

lemma Fresh.setAddress {s s' : System} {mr : RegionId} {addr : ℕ} (h : Fresh fuel s)
    (hroot : ¬ IsRoot s mr) (hs' : memoryRegionSetAddress fuel s mr addr = some s') :
    Fresh fuel s' := by
  rw [memoryRegionSetAddress] at hs'
  cases hparent : (s.mem mr).parent with
  | none =>
    rw [hparent] at hs'
    exact Option.some.inj hs' ▸ h.setUnseen rfl rfl (.inr ⟨hparent, hroot⟩)
  | some parent =>
    rw [hparent] at hs'
    dsimp only at hs'
    by_cases haddr : addr = (s.mem mr).addr
    · rw [if_pos haddr] at hs'
      exact Option.some.inj hs' ▸ h
    · rw [if_neg haddr] at hs'
      simp only [Option.bind_eq_bind, Option.bind_eq_some_iff] at hs'
      obtain ⟨s₁, hdel, hrest⟩ := hs'
      obtain ⟨h₁, hroot₁⟩ := h.transactionBegin.delSubregion hdel
      have hroot' : ¬ IsRoot s₁ mr := fun hr => hroot ((hroot₁ mr).mp hr)
      by_cases hover : (s.mem mr).mayOverlap = true
      · rw [if_pos hover] at hrest
        obtain ⟨s₂, hadd, hcommit⟩ := Option.bind_eq_some_iff.mp hrest
        exact (h₁.addSubregionOverlap hroot' hadd).transactionCommit hcommit
      · rw [if_neg hover] at hrest
        obtain ⟨s₂, hadd, hcommit⟩ := Option.bind_eq_some_iff.mp hrest
        exact (h₁.addSubregion hroot' hadd).transactionCommit hcommit

lemma Fresh.setAliasOffset {s s' : System} {mr : RegionId} {offset : ℕ} (h : Fresh fuel s)
    (hok : offset = (s.mem mr).aliasOffset ∨ (s.mem mr).parent ≠ none)
    (hs' : memoryRegionSetAliasOffset fuel s mr offset = some s') : Fresh fuel s' := by
  rw [memoryRegionSetAliasOffset] at hs'
  by_cases halias : (s.mem mr).aliasOf = none
  · rw [if_pos halias] at hs'
    cases hs'
  rw [if_neg halias] at hs'
  by_cases hsame : offset = (s.mem mr).aliasOffset ∨ (s.mem mr).parent = none
  · have heq : offset = (s.mem mr).aliasOffset := hok.elim id fun hp => hsame.resolve_right hp
    rw [if_pos hsame] at hs'
    subst heq
    exact Option.some.inj hs' ▸ h.setUnseen rfl rfl (.inl rfl)
  · rw [if_neg hsame] at hs'
    exact h.changeRegion rfl rfl rfl rfl hs'

/-! ### Runs -/

/-- The address of a root stays as it is, and an alias is moved only while it is below a region. -/
def Op.Kept (s : System) : Op → Prop
  | .addSubregion _ _ sub => ¬ IsRoot s sub
  | .addSubregionOverlap _ _ sub _ => ¬ IsRoot s sub
  | .setAddress mr _ => ¬ IsRoot s mr
  | .setAliasOffset mr offset => offset = (s.mem mr).aliasOffset ∨ (s.mem mr).parent ≠ none
  | _ => True

instance (s : System) (id : RegionId) : Decidable (IsRoot s id) :=
  inferInstanceAs (Decidable (_ ∨ _))

instance Op.Kept.decidable (s : System) : (op : Op) → Decidable (op.Kept s)
  | .addSubregion _ _ sub => inferInstanceAs (Decidable (¬ IsRoot s sub))
  | .addSubregionOverlap _ _ sub _ => inferInstanceAs (Decidable (¬ IsRoot s sub))
  | .setAddress mr _ => inferInstanceAs (Decidable (¬ IsRoot s mr))
  | .setAliasOffset mr offset =>
    inferInstanceAs (Decidable (offset = (s.mem mr).aliasOffset ∨ (s.mem mr).parent ≠ none))
  | .transactionBegin | .transactionCommit | .setLog .. | .setReadonly .. | .romDeviceSetReadable ..
  | .setEnabled .. | .delSubregion .. | .listenerRegister .. | .listenerUnregister ..
  | .setSystemMemoryMap .. | .setSystemIoMap .. => .isTrue trivial

lemma Fresh.step {s s' : System} {op : Op} (h : Fresh fuel s) (hop : op.Kept s)
    (hs' : Topology.step fuel s op = some s') : Fresh fuel s' := by
  cases op with
  | transactionBegin => exact Option.some.inj hs' ▸ h.transactionBegin
  | transactionCommit => exact h.transactionCommit hs'
  | setLog mr log client => exact h.setLog hs'
  | setReadonly mr readonly => exact h.setReadonly hs'
  | romDeviceSetReadable mr readable => exact h.romDeviceSetReadable hs'
  | setEnabled mr enabled => exact h.setEnabled hs'
  | addSubregion mr offset sub => exact h.addSubregion hop hs'
  | addSubregionOverlap mr offset sub priority => exact h.addSubregionOverlap hop hs'
  | delSubregion mr sub => exact (h.delSubregion hs').1
  | setAddress mr addr => exact h.setAddress hop hs'
  | setAliasOffset mr offset => exact h.setAliasOffset hop hs'
  | listenerRegister priority filter =>
    simp only [Topology.step, memoryListenerRegister, Option.bind_eq_bind, Option.bind_eq_some_iff,
      Option.pure_def, Option.some.injEq] at hs'
    obtain ⟨_, -, _, -, rfl⟩ := hs'
    exact ⟨h.tree, h.idle, h.current⟩
  | listenerUnregister i =>
    obtain rfl := Option.some.inj hs'
    exact ⟨h.tree, h.idle, h.current⟩
  | setSystemMemoryMap mr => exact fresh_of_update hs' h.tree
  | setSystemIoMap mr => exact fresh_of_update hs' h.tree

lemma fresh_initial (hmem : ∀ id, (mem id).parent = none ∧ (mem id).subregions = []) :
    Fresh fuel (initial mem) := by
  refine ⟨⟨fun p sub hsub => ?_, fun p => ?_⟩, fun _ => rfl, fun _ => ⟨by simp [Current, initial],
    by simp [Current, initial]⟩⟩
  · rw [show ((initial mem).mem p).subregions = [] from (hmem p).2] at hsub
    cases hsub
  · rw [show ((initial mem).mem p).subregions = [] from (hmem p).2]
    exact .nil

/-- In every run, the flat view of each address space is the topology of the tree below its root
whenever no transaction is open. -/
theorem current_of_run {ops : List Op} {s : System}
    (hmem : ∀ id, (mem id).parent = none ∧ (mem id).subregions = [])
    (hops : Guarded (step fuel) (fun s op => op.Kept s) (initial mem) ops)
    (hrun : run (step fuel) (initial mem) ops = some s)
    (hdepth : s.memoryRegionTransactionDepth = 0) :
    Current fuel s.mem s.addressSpaceMemory ∧ Current fuel s.mem s.addressSpaceIo := by
  have h : Fresh fuel s :=
    run_invariant_of_guarded (fun _ _ _ h hop hs' => h.step hop hs') (fresh_initial hmem) hops hrun
  exact h.current (h.idle hdepth)

/-- Regions that have been initialised: a root, ram, a device and an alias of the ram. -/
def loneRegions : RegionId → MemoryRegion
  | 0 => memoryRegionInit 16
  | 1 => memoryRegionInitRam 8
  | 2 => memoryRegionInitRam 1
  | 3 => memoryRegionInitAlias 1 4 4
  | _ => memoryRegionInit 0

/-- A machine is set up, and its alias is moved and its device switched off in a transaction. -/
def exampleOps : List Op :=
  [.setSystemMemoryMap 0, .listenerRegister 0 none, .addSubregion 0 0 1,
    .addSubregionOverlap 0 2 2 1, .transactionBegin, .addSubregion 0 10 3, .setAddress 3 12,
    .setEnabled 2 false, .setReadonly 2 true, .setLog 1 true 0, .transactionCommit]

lemma lone_loneRegions (id : RegionId) :
    (loneRegions id).parent = none ∧ (loneRegions id).subregions = [] := by
  obtain _ | _ | _ | _ | id := id <;> exact ⟨rfl, rfl⟩

theorem current_of_run_exampleOps : ∃ s, run (step 4) (initial loneRegions) exampleOps = some s ∧
    s.addressSpaceMemory.currentMap.length = 2 ∧
      Current 4 s.mem s.addressSpaceMemory ∧ Current 4 s.mem s.addressSpaceIo := by
  have hend : (run (step 4) (initial loneRegions) exampleOps).map (fun s =>
      (s.memoryRegionTransactionDepth, s.addressSpaceMemory.currentMap.length)) = some (0, 2) := by
    decide +kernel
  obtain ⟨s, hrun, hs⟩ := Option.map_eq_some_iff.mp hend
  obtain ⟨hdepth, hlength⟩ := Prod.mk.inj hs
  have hops : Guarded (step 4) (fun s op => op.Kept s) (initial loneRegions) exampleOps := by
    decide +kernel
  exact ⟨s, hrun, hlength, current_of_run lone_loneRegions hops hrun hdepth⟩

end Limbo.Topology
