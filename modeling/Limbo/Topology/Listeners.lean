import Limbo.Topology.Freshness

/-!
# What the listeners know

A listener that takes note of what it is told holds a set of sections: `region_add` adds one to them,
which must not overlap those it holds of the address space, and what the other callbacks are given must
be held. If the flat views are disjoint and the root of an address space is set once, no callback is
out of place, and after each operation every listener holds the sections of the current maps that its
filter lets through, whenever it was registered.
-/

namespace Limbo.Topology

open Limbo.Lib Limbo.Lib.Segment

/-- The two sections have no address in common. -/
def Apart (s t : MemoryRegionSection) : Prop :=
  s.addressSpace ≠ t.addressSpace ∨
    s.offsetWithinAddressSpace + s.size ≤ t.offsetWithinAddressSpace ∨
      t.offsetWithinAddressSpace + t.size ≤ s.offsetWithinAddressSpace

instance (s t : MemoryRegionSection) : Decidable (Apart s t) :=
  inferInstanceAs (Decidable (_ ∨ _ ∨ _))

/-- What a listener holds after a call, if the call is not out of place. -/
def hear (held : Finset MemoryRegionSection) : Call → Option (Finset MemoryRegionSection)
  | .begin => some held
  | .commit => some held
  | .region .regionAdd s => if ∀ t ∈ held, Apart t s then some (insert s held) else none
  | .region .regionDel s => if s ∈ held then some (held.erase s) else none
  | .region _ s => if s ∈ held then some held else none

/-- The sections of a view. -/
def sections (root : RegionId) (view : List FlatRange) : Finset MemoryRegionSection :=
  (view.map (FlatRange.toSection root)).toFinset

/-- What a listener is to hold of an address space. -/
def heldIn (listener : MemoryListener) (as : AddressSpace) : Finset MemoryRegionSection :=
  as.root.elim ∅ fun root =>
    if memoryListenerMatch listener root then sections root as.currentMap else ∅

variable {root : RegionId} {view old new : List FlatRange} {fuel : ℕ}

lemma mem_sections {s : MemoryRegionSection} :
    s ∈ sections root view ↔ ∃ fr ∈ view, fr.toSection root = s := by
  simp [sections]

/-! ### Sections of a view -/

/-- The ranges of a view have 64 bits. -/
def Fitting (view : List FlatRange) : Prop := ∀ fr ∈ view, fr.Fits

lemma Increasing.eq_of_start {a b : FlatRange} (h : Increasing view) (ha : a ∈ view) (hb : b ∈ view)
    (hab : a.addr.start = b.addr.start) : a = b := by
  induction view with
  | nil => cases ha
  | cons fr view ih =>
    obtain ⟨hlt, hview⟩ := increasing_cons.mp h
    obtain rfl | ha' := List.mem_cons.mp ha
    · obtain rfl | hb' := List.mem_cons.mp hb
      · rfl
      · have := hlt b hb'
        omega
    · obtain rfl | hb' := List.mem_cons.mp hb
      · have := hlt a ha'
        omega
      · exact ih hview ha' hb'

lemma start_eq_of_toSection {a b : FlatRange} (ha : a.Fits) (hb : b.Fits)
    (h : a.toSection root = b.toSection root) : a.addr.start = b.addr.start := by
  have hstart : a.addr.start.toNat = b.addr.start.toNat :=
    congrArg MemoryRegionSection.offsetWithinAddressSpace h
  have := ha.2.1
  have := hb.2.1
  omega

lemma eq_of_toSection {a b : FlatRange} (h : Disjoint view) (hfit : Fitting view) (ha : a ∈ view)
    (hb : b ∈ view) (hab : a.toSection root = b.toSection root) : a = b :=
  h.increasing.eq_of_start ha hb (start_eq_of_toSection (hfit a ha) (hfit b hb) hab)

/-- Different ranges of a disjoint view have sections that are apart. -/
lemma apart_of_ne {a b : FlatRange} (h : Disjoint view) (hfit : Fitting view) (ha : a ∈ view)
    (hb : b ∈ view) (hne : a ≠ b) : Apart (a.toSection root) (b.toSection root) := by
  obtain ⟨⟨ha₀, -⟩, ha₁, -⟩ := hfit a ha
  obtain ⟨⟨hb₀, -⟩, hb₁, -⟩ := hfit b hb
  have hcover : ¬ (a.segment.start < b.segment.stop ∧ b.segment.start < a.segment.stop) := by
    rintro ⟨h₁, h₂⟩
    have hmema := List.mem_map_of_mem (f := FlatRange.segment) ha
    have hmemb := List.mem_map_of_mem (f := FlatRange.segment) hb
    have ha' := h.nonempty _ hmema
    have hb' := h.nonempty _ hmemb
    have heq := h.eq_of_covers (a := max a.segment.start b.segment.start) hmema hmemb
      ⟨le_max_left _ _, by omega⟩ ⟨le_max_right _ _, by omega⟩
    exact hne (segment_injective heq)
  refine .inr ?_
  simp only [FlatRange.toSection]
  simp only [FlatRange.segment, addrrangeEnd] at hcover
  omega

lemma toSection_eq_of_equal {a b : FlatRange} (h : flatrangeEqual a b) :
    a.toSection root = b.toSection root := by
  obtain ⟨hmr, haddr, hoffset, -, hreadonly⟩ := flatrangeEqual_iff.mp h
  rw [FlatRange.toSection, FlatRange.toSection, hmr, haddr, hoffset, hreadonly]

/-! ### The passes as calls -/

/-- The calls that a listener receives for the changes. -/
def callsFor (root : RegionId) (changes : List (RegionCallback × FlatRange)) : List Call :=
  changes.map fun c => .region c.1 (c.2.toSection root)

lemma hear_deleting {held : Finset MemoryRegionSection} {ds : List MemoryRegionSection}
    (hnodup : ds.Nodup) (hds : ∀ d ∈ ds, d ∈ held) :
    run hear held (ds.map (Call.region .regionDel)) = some (held \ ds.toFinset) := by
  induction ds generalizing held with
  | nil => simp
  | cons d ds ih =>
    obtain ⟨hd, hnodup⟩ := List.nodup_cons.mp hnodup
    have hfirst : hear held (.region .regionDel d) = some (held.erase d) :=
      if_pos (hds d List.mem_cons_self)
    rw [List.map_cons, run_of_step hfirst, ih hnodup]
    · congr 1
      ext x
      simp only [Finset.mem_sdiff, Finset.mem_erase, List.mem_toFinset, List.mem_cons]
      tauto
    · intro x hx
      exact Finset.mem_erase.mpr ⟨fun hxd => hd (hxd ▸ hx), hds x (List.mem_cons_of_mem _ hx)⟩

lemma hear_append {held held' : Finset MemoryRegionSection} {cs ds : List Call}
    (h : run hear held cs = some held') : run hear held (cs ++ ds) = run hear held' ds := by
  rw [run] at h
  rw [run, List.foldlM_append, h]
  rfl

lemma hear_region {held : Finset MemoryRegionSection} {s : MemoryRegionSection}
    (callback : RegionCallback) (h : s ∈ held) (ha : callback ≠ .regionAdd) (hd : callback ≠ .regionDel) :
    hear held (.region callback s) = some held := by
  cases callback with
  | regionAdd => exact absurd rfl ha
  | regionDel => exact absurd rfl hd
  | regionNop => exact if_pos h
  | logStart => exact if_pos h
  | logStop => exact if_pos h

/-- A range that is kept changes nothing. -/
lemma hear_kept {held : Finset MemoryRegionSection} {fr : FlatRange} (frold : FlatRange)
    (h : fr.toSection root ∈ held) : run hear held (callsFor root (keptCallbacks frold fr)) = some held := by
  have hnop := hear_region .regionNop h (by simp) (by simp)
  have hstop := hear_region .logStop h (by simp) (by simp)
  have hstart := hear_region .logStart h (by simp) (by simp)
  rw [keptCallbacks, callsFor, List.map_cons, run_of_step hnop]
  split_ifs
  · rw [List.map_singleton, run_of_step hstop, run_nil]
  · rw [List.map_singleton, run_of_step hstart, run_nil]
  · rfl

/-- The second pass, from a range of the new view on: `other` is held of other address spaces, `own` of
this one. -/
lemma hear_adding {other own : Finset MemoryRegionSection} {rest : List FlatRange}
    (hnew : Disjoint new) (hfit : Fitting new) (hrest : ∀ fr ∈ rest, fr ∈ new)
    (hincreasing : Increasing rest) (hother : ∀ t ∈ other, t.addressSpace ≠ root)
    (hown : own ⊆ sections root new)
    (hsame : ∀ fr ∈ rest, (sameIn old fr).isSome ↔ fr.toSection root ∈ own) :
    run hear (other ∪ own) (callsFor root (rest.flatMap (addingCallbacks old))) =
      some (other ∪ (own ∪ sections root rest)) := by
  induction rest generalizing own with
  | nil => simp [callsFor, sections]
  | cons fr rest ih =>
    obtain ⟨hlt, hincreasing⟩ := increasing_cons.mp hincreasing
    obtain ⟨hfr, hrest⟩ := List.forall_mem_cons.mp hrest
    obtain ⟨hsamefr, hsame⟩ := List.forall_mem_cons.mp hsame
    have hcons : sections root (fr :: rest) = insert (fr.toSection root) (sections root rest) := by
      simp [sections]
    rw [List.flatMap_cons, callsFor, List.map_append, hcons]
    cases hold : sameIn old fr with
    | some frold =>
      have hmem : fr.toSection root ∈ own := hsamefr.mp (by rw [hold]; rfl)
      have hfirst := hear_kept frold (Finset.mem_union_right other hmem)
      rw [addingCallbacks, hold]
      refine (hear_append hfirst).trans ((ih hrest hincreasing hown hsame).trans ?_)
      congr 2
      rw [Finset.union_insert, Finset.insert_eq_of_mem (Finset.mem_union_left _ hmem)]
    | none =>
      have hmem : fr.toSection root ∉ own := fun h => by
        have := hsamefr.mpr h
        rw [hold] at this
        cases this
      have hapart : ∀ t ∈ other ∪ own, Apart t (fr.toSection root) := by
        intro t ht
        obtain ht | ht := Finset.mem_union.mp ht
        · exact .inl (hother t ht)
        · obtain ⟨fr', hfr', rfl⟩ := mem_sections.mp (hown ht)
          exact apart_of_ne hnew hfit hfr' hfr fun heq => hmem (heq ▸ ht)
      have hfirst : hear (other ∪ own) (.region .regionAdd (fr.toSection root)) =
          some (insert (fr.toSection root) (other ∪ own)) := if_pos hapart
      have hown' : insert (fr.toSection root) own ⊆ sections root new :=
        Finset.insert_subset (mem_sections.mpr ⟨fr, hfr, rfl⟩) hown
      have hsame' : ∀ fr' ∈ rest, (sameIn old fr').isSome ↔
          fr'.toSection root ∈ insert (fr.toSection root) own := by
        intro fr' hfr'
        rw [hsame fr' hfr', Finset.mem_insert]
        have hne : fr'.toSection root ≠ fr.toSection root := by
          intro heq
          have := hlt fr' hfr'
          rw [eq_of_toSection hnew hfit (hrest fr' hfr') hfr heq] at this
          exact lt_irrefl _ this
        exact ⟨.inr, fun h => h.resolve_left hne⟩
      have hrun := ih hrest hincreasing hown' hsame'
      rw [addingCallbacks, hold]
      rw [← Finset.union_insert] at hfirst
      refine (run_of_step hfirst).trans (hrun.trans ?_)
      congr 2
      rw [Finset.insert_union, Finset.union_insert]

lemma sameIn_isSome {fr : FlatRange} :
    (sameIn view fr).isSome ↔ ∃ fr' ∈ view, flatrangeEqual fr' fr = true := by
  rw [sameIn, List.find?_isSome]

/-- What the first pass leaves of what is held. -/
lemma sdiff_gone {other : Finset MemoryRegionSection} (hold : Disjoint old) (hfit : Fitting old)
    (hother : ∀ t ∈ other, t.addressSpace ≠ root) (p : FlatRange → Bool) :
    (other ∪ sections root old) \ sections root (old.filter fun fr => !p fr) =
      other ∪ sections root (old.filter p) := by
  ext x
  rw [Finset.mem_sdiff, Finset.mem_union, Finset.mem_union]
  constructor
  · rintro ⟨hx | hx, hgone⟩
    · exact .inl hx
    · obtain ⟨fr, hfr, rfl⟩ := mem_sections.mp hx
      refine .inr (mem_sections.mpr ⟨fr, List.mem_filter.mpr ⟨hfr, ?_⟩, rfl⟩)
      by_contra hp
      refine hgone (mem_sections.mpr ⟨fr, List.mem_filter.mpr ⟨hfr, ?_⟩, rfl⟩)
      simpa using hp
  · rintro (hx | hx)
    · refine ⟨.inl hx, fun hgone => ?_⟩
      obtain ⟨fr, -, rfl⟩ := mem_sections.mp hgone
      exact hother _ hx rfl
    · obtain ⟨fr, hfr, rfl⟩ := mem_sections.mp hx
      obtain ⟨hfr, hp⟩ := List.mem_filter.mp hfr
      refine ⟨.inr (mem_sections.mpr ⟨fr, hfr, rfl⟩), fun hgone => ?_⟩
      obtain ⟨fr', hfr', heq⟩ := mem_sections.mp hgone
      obtain ⟨hfr', hp'⟩ := List.mem_filter.mp hfr'
      rw [eq_of_toSection hold hfit hfr' hfr heq, hp] at hp'
      cases hp'

lemma nodup_toSection (hold : Disjoint old) (hfit : Fitting old) (p : FlatRange → Bool) :
    ((old.filter p).map (FlatRange.toSection root)).Nodup := by
  have hnodup : old.Nodup := hold.increasing.imp fun hlt heq => by
    rw [heq] at hlt
    exact lt_irrefl _ hlt
  refine (hnodup.filter p).map_on fun a ha b hb hab => ?_
  exact eq_of_toSection hold hfit (List.mem_of_mem_filter ha) (List.mem_of_mem_filter hb) hab

lemma hear_passDeleting {other : Finset MemoryRegionSection} (hold : Disjoint old)
    (hfit : Fitting old) (hnew : Increasing new) (hother : ∀ t ∈ other, t.addressSpace ≠ root) :
    run hear (other ∪ sections root old)
      (callsFor root (addressSpaceUpdateTopologyPass false old new)) =
        some (other ∪ sections root (old.filter fun fr => (sameIn new fr).isSome)) := by
  have hgone : (fun fr => (sameIn new fr).isNone) = fun fr => !(sameIn new fr).isSome := by
    funext fr
    exact (Option.not_isSome (sameIn new fr)).symm
  have hcalls : callsFor root (addressSpaceUpdateTopologyPass false old new) =
      ((old.filter fun fr => !(sameIn new fr).isSome).map (FlatRange.toSection root)).map
        (Call.region .regionDel) := by
    rw [pass_deleting hold.increasing hnew, callsFor, hgone, List.map_map, List.map_map]
    rfl
  rw [hcalls, hear_deleting (nodup_toSection hold hfit _), ← sdiff_gone hold hfit hother]
  · rfl
  · intro d hd
    obtain ⟨fr, hfr, rfl⟩ := List.mem_map.mp hd
    exact Finset.mem_union_right _ (mem_sections.mpr ⟨fr, List.mem_of_mem_filter hfr, rfl⟩)

/-- Both passes: what was held of the old view becomes what is to be held of the new one. -/
lemma hear_passes {other : Finset MemoryRegionSection} (hold : Disjoint old) (hfit : Fitting old)
    (hnew : Disjoint new) (hfit' : Fitting new) (hother : ∀ t ∈ other, t.addressSpace ≠ root) :
    run hear (other ∪ sections root old) (callsFor root (addressSpaceUpdateTopologyPass false old new ++
      addressSpaceUpdateTopologyPass true old new)) = some (other ∪ sections root new) := by
  have hown : sections root (old.filter fun fr => (sameIn new fr).isSome) ⊆ sections root new := by
    intro x hx
    obtain ⟨fr, hfr, rfl⟩ := mem_sections.mp hx
    obtain ⟨fr', hfr', heq⟩ := sameIn_isSome.mp (List.mem_filter.mp hfr).2
    exact mem_sections.mpr ⟨fr', hfr', toSection_eq_of_equal heq⟩
  have hsame : ∀ fr ∈ new, (sameIn old fr).isSome ↔
      fr.toSection root ∈ sections root (old.filter fun fr => (sameIn new fr).isSome) := by
    intro fr hfr
    rw [sameIn_isSome, mem_sections]
    constructor
    · rintro ⟨fr', hfr', heq⟩
      have hsome : (sameIn new fr').isSome :=
        sameIn_isSome.mpr ⟨fr, hfr, flatrangeEqual_comm fr' fr ▸ heq⟩
      exact ⟨fr', List.mem_filter.mpr ⟨hfr', hsome⟩, toSection_eq_of_equal heq⟩
    · rintro ⟨fr', hfr', hsec⟩
      obtain ⟨hfr', hsome⟩ := List.mem_filter.mp hfr'
      obtain ⟨fr'', hfr'', heq⟩ := sameIn_isSome.mp hsome
      obtain rfl := eq_of_toSection hnew hfit' hfr'' hfr ((toSection_eq_of_equal heq).trans hsec)
      exact ⟨fr', hfr', flatrangeEqual_comm _ _ ▸ heq⟩
  have hadd := hear_adding hnew hfit' (fun _ h => h) hnew.increasing hother hown hsame
  rw [callsFor, List.map_append]
  refine (hear_append (hear_passDeleting hold hfit hnew.increasing hother)).trans ?_
  rw [pass_adding hold.increasing hnew.increasing]
  refine hadd.trans ?_
  rw [Finset.union_eq_right.mpr hown]

/-! ### Updates of one address space -/

/-- What a listener knows of both address spaces. -/
structure Knows (listener : MemoryListener) (memory io : AddressSpace) : Prop where
  fitMemory : ∀ root, memory.root = some root → memoryListenerMatch listener root →
    Fitting memory.currentMap
  fitIo : ∀ root, io.root = some root → memoryListenerMatch listener root → Fitting io.currentMap
  heard : run hear ∅ listener.calls = some (heldIn listener io ∪ heldIn listener memory)

lemma heldIn_of_root {listener : MemoryListener} {as : AddressSpace} (h : as.root = some root) :
    heldIn listener as =
      if memoryListenerMatch listener root then sections root as.currentMap else ∅ := by
  rw [heldIn, h]
  rfl

lemma heldIn_congr {listener listener' : MemoryListener} {as : AddressSpace}
    (h : listener'.addressSpaceFilter = listener.addressSpaceFilter) :
    heldIn listener' as = heldIn listener as := by
  have hmatch : ∀ root, memoryListenerMatch listener' root = memoryListenerMatch listener root :=
    fun root => by rw [memoryListenerMatch, memoryListenerMatch, h]
  simp only [heldIn, hmatch]

lemma addressSpace_of_mem_heldIn {listener : MemoryListener} {as : AddressSpace}
    {t : MemoryRegionSection} (h : t ∈ heldIn listener as) : as.root = some t.addressSpace := by
  rw [heldIn] at h
  cases hroot : as.root with
  | none => simp [hroot] at h
  | some root =>
    rw [hroot] at h
    simp only [Option.elim_some] at h
    split_ifs at h
    · obtain ⟨fr, -, rfl⟩ := mem_sections.mp h
      rfl
    · simp at h

lemma fitting_of_changes (hold : Increasing old) (hnew : Increasing new)
    (h : ∀ c ∈ addressSpaceUpdateTopologyPass false old new ++
      addressSpaceUpdateTopologyPass true old new, c.2.Fits) : Fitting new := by
  intro fr hfr
  rw [pass_adding hold hnew] at h
  have hmem : ∃ callback, (callback, fr) ∈ addingCallbacks old fr := by
    rw [addingCallbacks]
    cases sameIn old fr with
    | none => exact ⟨.regionAdd, List.mem_singleton_self _⟩
    | some frold => exact ⟨.regionNop, List.mem_cons_self⟩
  obtain ⟨callback, hmem⟩ := hmem
  exact h _ (List.mem_append_right _ (List.mem_flatMap.mpr ⟨fr, hfr, hmem⟩))

lemma filter_of_listenerUpdateRegions {listener listener' : MemoryListener}
    {changes : List (RegionCallback × FlatRange)}
    (h : listenerUpdateRegions root changes listener = some listener') :
    listener'.addressSpaceFilter = listener.addressSpaceFilter := by
  rw [listenerUpdateRegions] at h
  split_ifs at h <;> exact Option.some.inj h ▸ rfl

/-- One listener through an update of the address space at `root`. -/
lemma hear_listenerUpdateRegions {listener listener' : MemoryListener}
    {other : Finset MemoryRegionSection}
    (h : listenerUpdateRegions root (addressSpaceUpdateTopologyPass false old new ++
      addressSpaceUpdateTopologyPass true old new) listener = some listener')
    (hold : Disjoint old) (hnew : Disjoint new)
    (hfit : memoryListenerMatch listener root → Fitting old)
    (hother : ∀ t ∈ other, t.addressSpace ≠ root)
    (hheard : run hear ∅ listener.calls =
      some (other ∪ if memoryListenerMatch listener root then sections root old else ∅)) :
    Fitting new ∧ run hear ∅ listener'.calls =
      some (other ∪ if memoryListenerMatch listener root then sections root new else ∅) := by
  rw [listenerUpdateRegions] at h
  by_cases hall : (addressSpaceUpdateTopologyPass false old new ++
      addressSpaceUpdateTopologyPass true old new).all (fun c => c.2.Fits) = true
  · have hfit' : Fitting new := fitting_of_changes hold.increasing hnew.increasing fun c hc =>
      of_decide_eq_true (List.all_eq_true.mp hall c hc)
    rw [if_pos hall] at h
    by_cases hmatch : memoryListenerMatch listener root = true
    · rw [if_pos hmatch, Option.some.injEq] at h
      rw [if_pos hmatch] at hheard ⊢
      subst h
      refine ⟨hfit', (hear_append hheard).trans ?_⟩
      exact hear_passes hold (hfit hmatch) hnew hfit' hother
    · rw [if_neg hmatch, Option.some.injEq] at h
      rw [if_neg hmatch] at hheard ⊢
      subst h
      exact ⟨hfit', hheard⟩
  · rw [if_neg hall] at h
    cases h

lemma mem_mapM {α β : Type*} {f : α → Option β} {l : List α} {l' : List β} (h : l.mapM f = some l')
    {y : β} (hy : y ∈ l') : ∃ x ∈ l, f x = some y := by
  induction l generalizing l' with
  | nil =>
    rw [List.mapM_nil] at h
    cases h
    cases hy
  | cons x l ih =>
    simp only [List.mapM_cons, Option.bind_eq_bind, Option.bind_eq_some_iff, Option.pure_def,
      Option.some.injEq] at h
    obtain ⟨z, hz, l₁, hl₁, rfl⟩ := h
    obtain rfl | hy := List.mem_cons.mp hy
    · exact ⟨x, List.mem_cons_self, hz⟩
    · obtain ⟨w, hw, hfw⟩ := ih hl₁ hy
      exact ⟨w, List.mem_cons_of_mem _ hw, hfw⟩

/-- The update of an address space, for a listener that holds `other` of the other one. -/
lemma hear_addressSpaceUpdateTopology {mem : RegionId → MemoryRegion} {as as' : AddressSpace}
    {ls ls' : List MemoryListener} (h : addressSpaceUpdateTopology fuel mem as ls = some (as', ls'))
    (hold : Disjoint as.currentMap) (hnew : Disjoint as'.currentMap)
    {listener' : MemoryListener} (hmem : listener' ∈ ls') :
    ∃ listener ∈ ls, listener'.addressSpaceFilter = listener.addressSpaceFilter ∧
      ((∀ root, as.root = some root → memoryListenerMatch listener root → Fitting as.currentMap) →
        ∀ other, (∀ t ∈ other, as.root ≠ some t.addressSpace) →
        run hear ∅ listener.calls = some (other ∪ heldIn listener as) →
        (∀ root, as'.root = some root → Fitting as'.currentMap) ∧
          run hear ∅ listener'.calls = some (other ∪ heldIn listener' as')) := by
  rw [addressSpaceUpdateTopology] at h
  cases hroot : as.root with
  | none =>
    rw [hroot] at h
    cases h
    refine ⟨listener', hmem, rfl, fun _ other _ hheard => ⟨fun root hr => ?_, hheard⟩⟩
    rw [hroot] at hr
    cases hr
  | some root =>
    rw [hroot] at h
    simp only [Option.bind_eq_bind, Option.bind_eq_some_iff, Option.pure_def, Option.some.injEq,
      Prod.mk.injEq] at h
    obtain ⟨view, -, ls₁, hls, rfl, rfl⟩ := h
    obtain ⟨listener, hl, hupdate⟩ := mem_mapM hls hmem
    have hfilter := filter_of_listenerUpdateRegions hupdate
    refine ⟨listener, hl, hfilter, fun hfit other hother hheard => ?_⟩
    have hother' : ∀ t ∈ other, t.addressSpace ≠ root := fun t ht heq => hother t ht (heq ▸ rfl)
    rw [heldIn_of_root hroot] at hheard
    obtain ⟨hfit', hheard'⟩ :=
      hear_listenerUpdateRegions hupdate hold hnew (hfit root rfl) hother' hheard
    refine ⟨fun _ _ => hfit', ?_⟩
    rw [heldIn_congr hfilter]
    exact hheard'

/-! ### The invariant -/

/-- Every listener holds what it is to hold of disjoint views. -/
structure InSync (s : System) : Prop where
  disjoint : Disjoint s.addressSpaceMemory.currentMap ∧ Disjoint s.addressSpaceIo.currentMap
  roots : ∀ root, s.addressSpaceMemory.root = some root → s.addressSpaceIo.root ≠ some root
  empty : (s.addressSpaceMemory.root = none → s.addressSpaceMemory.currentMap = []) ∧
    (s.addressSpaceIo.root = none → s.addressSpaceIo.currentMap = [])
  knows : ∀ listener ∈ s.memoryListeners, Knows listener s.addressSpaceMemory s.addressSpaceIo

/-- The address spaces and the listeners are the same. -/
def Same (s s' : System) : Prop :=
  s'.addressSpaceMemory = s.addressSpaceMemory ∧ s'.addressSpaceIo = s.addressSpaceIo ∧
    s'.memoryListeners = s.memoryListeners

/-- The listeners have been told of an update of both address spaces. -/
def Updated (fuel : ℕ) (s s' : System) : Prop :=
  ∃ mem ls₁ ls₂,
    addressSpaceUpdateTopology fuel mem s.addressSpaceMemory
      (s.memoryListeners.map (listenerCallGlobal .begin)) = some (s'.addressSpaceMemory, ls₁) ∧
    addressSpaceUpdateTopology fuel mem s.addressSpaceIo ls₁ = some (s'.addressSpaceIo, ls₂) ∧
    s'.memoryListeners = ls₂.map (listenerCallGlobal .commit)

lemma Same.inSync {s s' : System} (h : Same s s') (hs : InSync s) : InSync s' := by
  obtain ⟨hmemory, hio, hlisteners⟩ := h
  obtain ⟨hdisjoint, hroots, hempty, hknows⟩ := hs
  refine ⟨?_, ?_, ?_, ?_⟩
  · rwa [hmemory, hio]
  · rwa [hmemory, hio]
  · rwa [hmemory, hio]
  · rwa [hmemory, hio, hlisteners]

lemma Same.updated {s s₁ s' : System} (h : Same s s₁) (hs : Updated fuel s₁ s') :
    Updated fuel s s' := by
  obtain ⟨hmemory, hio, hlisteners⟩ := h
  rw [Updated] at hs ⊢
  rwa [← hmemory, ← hio, ← hlisteners]

lemma root_of_update {mem : RegionId → MemoryRegion} {as as' : AddressSpace}
    {ls ls' : List MemoryListener} (h : addressSpaceUpdateTopology fuel mem as ls = some (as', ls')) :
    as'.root = as.root ∧ (as.root = none → as' = as) := by
  refine ⟨(current_of_update h).2, fun hroot => ?_⟩
  rw [addressSpaceUpdateTopology, hroot] at h
  exact (Prod.mk.inj (Option.some.inj h)).1.symm

lemma hear_callGlobal {listener : MemoryListener} {held : Finset MemoryRegionSection} {call : Call}
    (hcall : ∀ held, hear held call = some held) (h : run hear ∅ listener.calls = some held) :
    run hear ∅ (listenerCallGlobal call listener).calls = some held :=
  (hear_append h).trans (run_of_step (hcall held))

lemma Updated.inSync {s s' : System} (h : Updated fuel s s') (hs : InSync s)
    (hd : Disjoint s'.addressSpaceMemory.currentMap ∧ Disjoint s'.addressSpaceIo.currentMap) :
    InSync s' := by
  obtain ⟨mem, ls₁, ls₂, hmemory, hio, hlisteners⟩ := h
  obtain ⟨hroot, hsame⟩ := root_of_update hmemory
  obtain ⟨hrootIo, hsameIo⟩ := root_of_update hio
  refine ⟨hd, ?_, ⟨fun hn => ?_, fun hn => ?_⟩, fun listener' hl' => ?_⟩
  · rw [hroot, hrootIo]
    exact hs.roots
  · rw [hroot] at hn
    rw [hsame hn]
    exact hs.empty.1 hn
  · rw [hrootIo] at hn
    rw [hsameIo hn]
    exact hs.empty.2 hn
  · rw [hlisteners] at hl'
    obtain ⟨l₂, hl₂, rfl⟩ := List.mem_map.mp hl'
    obtain ⟨l₁, hl₁, hfilter₂, hhear₂⟩ :=
      hear_addressSpaceUpdateTopology hio hs.disjoint.2 hd.2 hl₂
    obtain ⟨l₀, hl₀, hfilter₁, hhear₁⟩ :=
      hear_addressSpaceUpdateTopology hmemory hs.disjoint.1 hd.1 hl₁
    obtain ⟨l, hl, rfl⟩ := List.mem_map.mp hl₀
    obtain ⟨hfit, hfitIo, hheard⟩ := hs.knows l hl
    have hfilter : l₁.addressSpaceFilter = l.addressSpaceFilter := hfilter₁
    have hbegin : run hear ∅ (listenerCallGlobal .begin l).calls =
        some (heldIn l s.addressSpaceIo ∪ heldIn l s.addressSpaceMemory) :=
      hear_callGlobal (fun _ => rfl) hheard
    have hotherIo : ∀ t ∈ heldIn l s.addressSpaceIo,
        s.addressSpaceMemory.root ≠ some t.addressSpace :=
      fun t ht hr => hs.roots _ hr (addressSpace_of_mem_heldIn ht)
    obtain ⟨hfitMemory, hheard₁⟩ := hhear₁ hfit _ hotherIo hbegin
    have hotherMemory : ∀ t ∈ heldIn l₁ s'.addressSpaceMemory,
        s.addressSpaceIo.root ≠ some t.addressSpace :=
      fun t ht hr => hs.roots _ (hroot ▸ addressSpace_of_mem_heldIn ht) hr
    rw [Finset.union_comm, ← heldIn_congr hfilter] at hheard₁
    have hfitIo₁ : ∀ root, s.addressSpaceIo.root = some root → memoryListenerMatch l₁ root →
        Fitting s.addressSpaceIo.currentMap := by
      intro root hr hmatch
      rw [memoryListenerMatch, hfilter] at hmatch
      exact hfitIo root hr hmatch
    obtain ⟨hfitIo', hheard₂⟩ := hhear₂ hfitIo₁ _ hotherMemory hheard₁
    rw [Finset.union_comm, ← heldIn_congr hfilter₂] at hheard₂
    exact ⟨fun root hr _ => hfitMemory root hr, fun root hr _ => hfitIo' root hr,
      hear_callGlobal (fun _ => rfl) hheard₂⟩

/-! ### What an operation can do -/

/-- Nothing is told to the listeners, or both address spaces are updated. -/
def Notified (fuel : ℕ) (s s' : System) : Prop := Same s s' ∨ Updated fuel s s'

lemma same_rfl {s : System} : Same s s := ⟨rfl, rfl, rfl⟩

lemma Same.notified {s s₁ s' : System} (h : Same s s₁) (hs : Notified fuel s₁ s') :
    Notified fuel s s' := by
  obtain hs | hs := hs
  · exact .inl ⟨hs.1.trans h.1, hs.2.1.trans h.2.1, hs.2.2.trans h.2.2⟩
  · exact .inr (h.updated hs)

lemma notified_of_update {s s' : System} {mr : Option RegionId}
    (h : memoryRegionUpdateTopology fuel s mr = some s') : Notified fuel s s' := by
  rw [memoryRegionUpdateTopology] at h
  by_cases hdepth : s.memoryRegionTransactionDepth ≠ 0
  · rw [if_pos hdepth] at h
    exact .inl (Option.some.inj h ▸ ⟨rfl, rfl, rfl⟩)
  · rw [if_neg hdepth] at h
    by_cases hmr : (mr.any fun id => !(s.mem id).enabled) = true
    · rw [if_pos hmr] at h
      exact .inl (Option.some.inj h ▸ same_rfl)
    · rw [if_neg hmr] at h
      simp only [Option.bind_eq_bind, Option.bind_eq_some_iff, Option.pure_def,
        Option.some.injEq] at h
      obtain ⟨⟨memory, ls₁⟩, hmemory, ⟨io, ls₂⟩, hio, rfl⟩ := h
      exact .inr ⟨s.mem, ls₁, ls₂, hmemory, hio, rfl⟩

/-- Inside of a transaction the listeners are told nothing. -/
lemma same_of_update {s s' : System} {mr : Option RegionId} (hdepth : s.memoryRegionTransactionDepth ≠ 0)
    (h : memoryRegionUpdateTopology fuel s mr = some s') :
    Same s s' ∧ s'.memoryRegionTransactionDepth = s.memoryRegionTransactionDepth := by
  rw [memoryRegionUpdateTopology, if_pos hdepth] at h
  obtain rfl := Option.some.inj h
  exact ⟨same_rfl, rfl⟩

lemma same_setMem {s : System} (mem : RegionId → MemoryRegion) : Same s { s with mem } :=
  ⟨rfl, rfl, rfl⟩

lemma notified_of_changeRegion {s s' : System} {id : RegionId} {f : MemoryRegion → MemoryRegion}
    {mr : Option RegionId} (h : changeRegion fuel s id f mr = some s') : Notified fuel s s' :=
  (same_setMem (setRegion s.mem id f)).notified (notified_of_update h)

lemma notified_of_transactionCommit {s s' : System}
    (h : memoryRegionTransactionCommit fuel s = some s') : Notified fuel s s' := by
  rw [memoryRegionTransactionCommit] at h
  have hsame : Same s { s with
      memoryRegionTransactionDepth := s.memoryRegionTransactionDepth - 1 } := ⟨rfl, rfl, rfl⟩
  by_cases hzero : s.memoryRegionTransactionDepth = 0
  · rw [if_pos hzero] at h
    cases h
  rw [if_neg hzero] at h
  dsimp only at h
  by_cases hlast : s.memoryRegionTransactionDepth - 1 = 0 ∧ s.memoryRegionUpdatePending = true
  · rw [if_pos hlast] at h
    exact hsame.notified (notified_of_update h)
  · rw [if_neg hlast] at h
    exact .inl (Option.some.inj h ▸ hsame)

lemma notified_of_ite {s s' : System} {p : Prop} [Decidable p] {r : Option System}
    (h : (if p then r else some s) = some s') (hr : r = some s' → Notified fuel s s') :
    Notified fuel s s' := by
  by_cases hp : p
  · rw [if_pos hp] at h
    exact hr h
  · rw [if_neg hp] at h
    exact .inl (Option.some.inj h ▸ same_rfl)

lemma update_of_addSubregionCommon {s s' : System} {mr sub : RegionId} {offset : ℕ}
    (h : memoryRegionAddSubregionCommon fuel s mr offset sub = some s') :
    memoryRegionUpdateTopology fuel { s with mem := withSubregion s.mem mr offset sub } (some mr) =
      some s' := by
  rw [memoryRegionAddSubregionCommon] at h
  by_cases hparent : (s.mem sub).parent ≠ none
  · rw [if_pos hparent] at h
    cases h
  · rw [if_neg hparent] at h
    exact h

lemma update_of_delSubregion {s s' : System} {mr sub : RegionId}
    (h : memoryRegionDelSubregion fuel s mr sub = some s') :
    memoryRegionUpdateTopology fuel { s with mem := withoutSubregion s.mem mr sub } (some mr) =
      some s' := by
  rw [memoryRegionDelSubregion] at h
  by_cases hparent : (s.mem sub).parent ≠ some mr
  · rw [if_pos hparent] at h
    cases h
  · rw [if_neg hparent] at h
    exact h

/-- The tree is changed, and an update follows. -/
lemma update_of_addSubregion {s s' : System} {mr sub : RegionId} {offset : ℕ}
    (h : memoryRegionAddSubregion fuel s mr offset sub = some s') :
    ∃ mem, memoryRegionUpdateTopology fuel { s with mem } (some mr) = some s' := by
  rw [memoryRegionAddSubregion] at h
  have hupdate := update_of_addSubregionCommon h
  exact ⟨_, hupdate⟩

lemma update_of_addSubregionOverlap {s s' : System} {mr sub : RegionId} {offset priority : ℕ}
    (h : memoryRegionAddSubregionOverlap fuel s mr offset sub priority = some s') :
    ∃ mem, memoryRegionUpdateTopology fuel { s with mem } (some mr) = some s' := by
  rw [memoryRegionAddSubregionOverlap] at h
  have hupdate := update_of_addSubregionCommon h
  exact ⟨_, hupdate⟩

lemma notified_of_exists_update {s s' : System} {mr : Option RegionId}
    (h : ∃ mem, memoryRegionUpdateTopology fuel { s with mem } mr = some s') :
    Notified fuel s s' := by
  obtain ⟨mem, h⟩ := h
  exact (same_setMem mem).notified (notified_of_update h)

lemma same_of_exists_update {s s' : System} {mr : Option RegionId}
    (hdepth : s.memoryRegionTransactionDepth ≠ 0)
    (h : ∃ mem, memoryRegionUpdateTopology fuel { s with mem } mr = some s') : Same s s' := by
  obtain ⟨mem, h⟩ := h
  have hdepth' : ({ s with mem } : System).memoryRegionTransactionDepth ≠ 0 := hdepth
  exact (same_of_update hdepth' h).1

lemma notified_of_setAddress {s s' : System} {mr : RegionId} {addr : ℕ}
    (h : memoryRegionSetAddress fuel s mr addr = some s') : Notified fuel s s' := by
  rw [memoryRegionSetAddress] at h
  cases hparent : (s.mem mr).parent with
  | none =>
    rw [hparent] at h
    exact .inl (Option.some.inj h ▸ same_setMem _)
  | some parent =>
    rw [hparent] at h
    dsimp only at h
    by_cases haddr : addr = (s.mem mr).addr
    · rw [if_pos haddr] at h
      exact .inl (Option.some.inj h ▸ same_rfl)
    rw [if_neg haddr] at h
    simp only [Option.bind_eq_bind, Option.bind_eq_some_iff] at h
    obtain ⟨s₁, hdel, hrest⟩ := h
    obtain ⟨hsame₁, hdepth₁⟩ := same_of_update (Nat.succ_ne_zero _) (update_of_delSubregion hdel)
    have hbegin : Same s s₁ := hsame₁
    have hopen : s₁.memoryRegionTransactionDepth ≠ 0 := hdepth₁ ▸ Nat.succ_ne_zero _
    have hcommit : ∀ s₂, Same s₁ s₂ → memoryRegionTransactionCommit fuel s₂ = some s' →
        Notified fuel s s' := fun s₂ hsame₂ hs₂ =>
      hbegin.notified (hsame₂.notified (notified_of_transactionCommit hs₂))
    by_cases hover : (s.mem mr).mayOverlap = true
    · rw [if_pos hover] at hrest
      obtain ⟨s₂, hadd, hs₂⟩ := Option.bind_eq_some_iff.mp hrest
      exact hcommit s₂ (same_of_exists_update hopen (update_of_addSubregionOverlap hadd)) hs₂
    · rw [if_neg hover] at hrest
      obtain ⟨s₂, hadd, hs₂⟩ := Option.bind_eq_some_iff.mp hrest
      exact hcommit s₂ (same_of_exists_update hopen (update_of_addSubregion hadd)) hs₂

lemma notified_of_setAliasOffset {s s' : System} {mr : RegionId} {offset : ℕ}
    (h : memoryRegionSetAliasOffset fuel s mr offset = some s') : Notified fuel s s' := by
  rw [memoryRegionSetAliasOffset] at h
  by_cases halias : (s.mem mr).aliasOf = none
  · rw [if_pos halias] at h
    cases h
  rw [if_neg halias] at h
  dsimp only at h
  by_cases hsame : offset = (s.mem mr).aliasOffset ∨ (s.mem mr).parent = none
  · rw [if_pos hsame] at h
    exact .inl (Option.some.inj h ▸ same_setMem _)
  · rw [if_neg hsame] at h
    exact (same_setMem _).notified (notified_of_update h)

/-! ### New listeners -/

lemma flatMap_addingCallbacks_nil (view : List FlatRange) :
    view.flatMap (addingCallbacks []) = view.map (Prod.mk .regionAdd) :=
  List.flatMap_pure_eq_map _ view

/-- A new listener is told of every range of an address space. -/
lemma hear_listenerAddAddressSpace {listener listener' : MemoryListener} {as : AddressSpace}
    {other : Finset MemoryRegionSection} (h : listenerAddAddressSpace listener as = some listener')
    (hd : Disjoint as.currentMap) (hother : ∀ t ∈ other, as.root ≠ some t.addressSpace)
    (hheard : run hear ∅ listener.calls = some other) :
    listener'.addressSpaceFilter = listener.addressSpaceFilter ∧
      (∀ root, as.root = some root → memoryListenerMatch listener root → Fitting as.currentMap) ∧
      run hear ∅ listener'.calls = some (other ∪ heldIn listener as) := by
  rw [listenerAddAddressSpace] at h
  obtain hroot | ⟨root, hroot⟩ := Option.eq_none_or_eq_some as.root
  · rw [hroot] at h
    obtain rfl := Option.some.inj h
    refine ⟨rfl, fun root hr => ?_, ?_⟩
    · rw [hroot] at hr
      cases hr
    · rw [heldIn, hroot, Option.elim_none, Finset.union_empty]
      exact hheard
  · rw [hroot] at h
    dsimp only at h
    rw [heldIn_of_root hroot]
    by_cases hmatch : memoryListenerMatch listener root = true
    · rw [if_pos hmatch] at h ⊢
      refine ⟨filter_of_listenerUpdateRegions h, ?_⟩
      rw [listenerUpdateRegions] at h
      by_cases hall : (as.currentMap.map (Prod.mk RegionCallback.regionAdd)).all
          (fun c => c.2.Fits) = true
      · have hfit : Fitting as.currentMap := fun fr hfr =>
          of_decide_eq_true (List.all_eq_true.mp hall _ (List.mem_map_of_mem hfr))
        rw [if_pos hall, if_pos hmatch] at h
        obtain rfl := Option.some.inj h
        refine ⟨fun _ _ _ => hfit, (hear_append hheard).trans ?_⟩
        have hother' : ∀ t ∈ other, t.addressSpace ≠ root := fun t ht heq =>
          hother t ht (hroot.trans (congrArg some heq.symm))
        have hsame : ∀ fr ∈ as.currentMap, (sameIn [] fr).isSome ↔
            fr.toSection root ∈ (∅ : Finset MemoryRegionSection) := fun fr _ => by simp [sameIn]
        have hadd := hear_adding hd hfit (fun _ h => h) hd.increasing hother'
          (Finset.empty_subset _) hsame
        rw [flatMap_addingCallbacks_nil, Finset.union_empty, Finset.empty_union] at hadd
        exact hadd
      · rw [if_neg hall] at h
        cases h
    · rw [if_neg hmatch] at h ⊢
      obtain rfl := Option.some.inj h
      refine ⟨rfl, fun root' hr hm => ?_, by rwa [Finset.union_empty]⟩
      obtain rfl := Option.some.inj (hroot.symm.trans hr)
      exact absurd hm hmatch

lemma mem_insertListener {listener l : MemoryListener} {listeners : List MemoryListener}
    (h : l ∈ insertListener listener listeners) : l = listener ∨ l ∈ listeners := by
  induction listeners with
  | nil => exact .inl (List.mem_singleton.mp h)
  | cons other listeners ih =>
    rw [insertListener] at h
    by_cases hprio : listener.priority < other.priority
    · rw [if_pos hprio] at h
      exact List.mem_cons.mp h
    · rw [if_neg hprio] at h
      obtain rfl | h := List.mem_cons.mp h
      · exact .inr List.mem_cons_self
      · exact (ih h).imp_right (List.mem_cons_of_mem _)

lemma InSync.register {s s' : System} {priority : ℕ} {filter : Option RegionId} (h : InSync s)
    (hs' : memoryListenerRegister s priority filter = some s') : InSync s' := by
  simp only [memoryListenerRegister, Option.bind_eq_bind, Option.bind_eq_some_iff, Option.pure_def,
    Option.some.injEq] at hs'
  obtain ⟨l₁, hmemory, l₂, hio, rfl⟩ := hs'
  refine ⟨h.disjoint, h.roots, h.empty, fun l hl => ?_⟩
  obtain rfl | hl := mem_insertListener hl
  · obtain ⟨hfilter₁, hfit, hheard₁⟩ := hear_listenerAddAddressSpace hmemory h.disjoint.1
      (fun t ht => by cases ht) (run_nil _ _)
    rw [Finset.empty_union] at hheard₁
    have hother : ∀ t ∈ heldIn ⟨priority, filter, []⟩ s.addressSpaceMemory,
        s.addressSpaceIo.root ≠ some t.addressSpace :=
      fun t ht => h.roots _ (addressSpace_of_mem_heldIn ht)
    obtain ⟨hfilter₂, hfitIo, hheard₂⟩ :=
      hear_listenerAddAddressSpace hio h.disjoint.2 hother hheard₁
    have hfilter := hfilter₂.trans hfilter₁
    rw [Finset.union_comm, ← heldIn_congr hfilter, ← heldIn_congr hfilter₂] at hheard₂
    refine ⟨fun root hr hmatch => hfit root hr ?_, fun root hr hmatch => hfitIo root hr ?_, hheard₂⟩
    · rwa [memoryListenerMatch, hfilter] at hmatch
    · rwa [memoryListenerMatch, hfilter₂] at hmatch
  · exact h.knows l hl

lemma InSync.unregister {s : System} (i : ℕ) (h : InSync s) :
    InSync { s with memoryListeners := s.memoryListeners.eraseIdx i } :=
  ⟨h.disjoint, h.roots, h.empty, fun l hl => h.knows l (List.mem_of_mem_eraseIdx hl)⟩

/-! ### Roots -/

lemma heldIn_of_nil {listener : MemoryListener} (as : AddressSpace) (h : as.currentMap = []) :
    heldIn listener as = ∅ := by
  rw [heldIn, h]
  cases as.root with
  | none => rfl
  | some root => exact ite_self _

lemma fitting_nil : Fitting [] := fun _ h => by cases h

section Roots

variable {listener : MemoryListener} {memory io : AddressSpace}

/-- To set the root of an address space with an empty map changes nothing that is held. -/
lemma Knows.setMemoryRoot (h : Knows listener memory io) (hnil : memory.currentMap = [])
    (root : RegionId) : Knows listener { memory with root := some root } io := by
  have hempty : heldIn listener { memory with root := some root } = heldIn listener memory :=
    (heldIn_of_nil ⟨some root, memory.currentMap⟩ hnil).trans (heldIn_of_nil memory hnil).symm
  exact ⟨fun _ _ _ => hnil ▸ fitting_nil, h.fitIo, hempty ▸ h.heard⟩

lemma Knows.setIoRoot (h : Knows listener memory io) (hnil : io.currentMap = []) (root : RegionId) :
    Knows listener memory { io with root := some root } := by
  have hempty : heldIn listener { io with root := some root } = heldIn listener io :=
    (heldIn_of_nil ⟨some root, io.currentMap⟩ hnil).trans (heldIn_of_nil io hnil).symm
  exact ⟨h.fitMemory, fun _ _ _ => hnil ▸ fitting_nil, hempty ▸ h.heard⟩

end Roots

lemma InSync.setMemoryRoot {s : System} {mr : RegionId} (h : InSync s)
    (hnone : s.addressSpaceMemory.root = none) (hio : s.addressSpaceIo.root ≠ some mr) :
    InSync { s with addressSpaceMemory := { s.addressSpaceMemory with root := some mr } } := by
  have hroots : ∀ root, some mr = some root → s.addressSpaceIo.root ≠ some root :=
    fun root hr => hr ▸ hio
  exact ⟨h.disjoint, hroots, ⟨fun hn => absurd hn (Option.some_ne_none mr), h.empty.2⟩,
    fun l hl => (h.knows l hl).setMemoryRoot (h.empty.1 hnone) mr⟩

lemma InSync.setIoRoot {s : System} {mr : RegionId} (h : InSync s)
    (hnone : s.addressSpaceIo.root = none) (hmemory : s.addressSpaceMemory.root ≠ some mr) :
    InSync { s with addressSpaceIo := { s.addressSpaceIo with root := some mr } } := by
  have hroots : ∀ root, s.addressSpaceMemory.root = some root → some mr ≠ some root :=
    fun root hr heq => hmemory (hr.trans heq.symm)
  exact ⟨h.disjoint, hroots, ⟨h.empty.1, fun hn => absurd hn (Option.some_ne_none mr)⟩,
    fun l hl => (h.knows l hl).setIoRoot (h.empty.2 hnone) mr⟩

/-! ### Runs -/

/-- The ranges of each flat view are disjoint. -/
def DisjointViews (s : System) : Prop :=
  Disjoint s.addressSpaceMemory.currentMap ∧ Disjoint s.addressSpaceIo.currentMap

/-- The root of an address space is set once, and is not that of the other one. -/
def Op.RootsOnce (s : System) : Op → Prop
  | .setSystemMemoryMap mr => s.addressSpaceMemory.root = none ∧ s.addressSpaceIo.root ≠ some mr
  | .setSystemIoMap mr => s.addressSpaceIo.root = none ∧ s.addressSpaceMemory.root ≠ some mr
  | _ => True

lemma Notified.inSync {s s' : System} (h : Notified fuel s s') (hs : InSync s)
    (hd : DisjointViews s') : InSync s' := by
  obtain h | h := h
  · exact h.inSync hs
  · exact h.inSync hs hd

lemma InSync.step {s s' : System} {op : Op} (h : InSync s) (hop : op.RootsOnce s)
    (hs' : Topology.step fuel s op = some s') (hd : DisjointViews s') : InSync s' := by
  cases op with
  | transactionBegin =>
    obtain rfl := Option.some.inj hs'
    exact ⟨h.disjoint, h.roots, h.empty, h.knows⟩
  | transactionCommit => exact (notified_of_transactionCommit hs').inSync h hd
  | setLog mr log client => exact (notified_of_changeRegion hs').inSync h hd
  | setReadonly mr readonly => exact (notified_of_ite hs' notified_of_changeRegion).inSync h hd
  | romDeviceSetReadable mr readable =>
    exact (notified_of_ite hs' notified_of_changeRegion).inSync h hd
  | setEnabled mr enabled =>
    rw [Topology.step, memoryRegionSetEnabled, ← ite_not] at hs'
    exact (notified_of_ite hs' notified_of_changeRegion).inSync h hd
  | addSubregion mr offset sub =>
    exact (notified_of_exists_update (update_of_addSubregion hs')).inSync h hd
  | addSubregionOverlap mr offset sub priority =>
    exact (notified_of_exists_update (update_of_addSubregionOverlap hs')).inSync h hd
  | delSubregion mr sub =>
    exact (notified_of_exists_update ⟨_, update_of_delSubregion hs'⟩).inSync h hd
  | setAddress mr addr => exact (notified_of_setAddress hs').inSync h hd
  | setAliasOffset mr offset => exact (notified_of_setAliasOffset hs').inSync h hd
  | listenerRegister priority filter => exact h.register hs'
  | listenerUnregister i => exact Option.some.inj hs' ▸ h.unregister i
  | setSystemMemoryMap mr =>
    exact (notified_of_update hs').inSync (h.setMemoryRoot hop.1 hop.2) hd
  | setSystemIoMap mr => exact (notified_of_update hs').inSync (h.setIoRoot hop.1 hop.2) hd

/-- The operation is not out of place, and the views it leads to are disjoint. -/
def Op.Orderly (fuel : ℕ) (s : System) (op : Op) : Prop :=
  op.RootsOnce s ∧ (Topology.step fuel s op).elim True DisjointViews

instance (view : List FlatRange) : Decidable (Disjoint view) :=
  inferInstanceAs (Decidable (Sorted (segments view)))

instance (s : System) : Decidable (DisjointViews s) := inferInstanceAs (Decidable (_ ∧ _))

instance Op.RootsOnce.decidable (s : System) : (op : Op) → Decidable (op.RootsOnce s)
  | .setSystemMemoryMap _ | .setSystemIoMap _ => inferInstanceAs (Decidable (_ ∧ _))
  | .transactionBegin | .transactionCommit | .setLog .. | .setReadonly .. | .romDeviceSetReadable ..
  | .setEnabled .. | .addSubregion .. | .addSubregionOverlap .. | .delSubregion .. | .setAddress ..
  | .setAliasOffset .. | .listenerRegister .. | .listenerUnregister .. => .isTrue trivial

instance (fuel : ℕ) (s : System) (op : Op) : Decidable (op.Orderly fuel s) :=
  have : Decidable ((Topology.step fuel s op).elim True DisjointViews) :=
    match Topology.step fuel s op with
    | none => .isTrue trivial
    | some s' => inferInstanceAs (Decidable (DisjointViews s'))
  inferInstanceAs (Decidable (_ ∧ _))

lemma inSync_initial (mem : RegionId → MemoryRegion) : InSync (initial mem) := by
  refine ⟨⟨sorted_nil, sorted_nil⟩, fun root hr => ?_, ⟨fun _ => rfl, fun _ => rfl⟩, fun l hl => ?_⟩
  · cases hr
  · cases hl

/-- In every run, no callback that a listener receives is out of place, and what it holds are the
sections of both flat views that its filter lets through. -/
theorem hear_of_run {mem : RegionId → MemoryRegion} {ops : List Op} {s : System}
    (hops : Guarded (step fuel) (fun s op => op.Orderly fuel s) (initial mem) ops)
    (hrun : run (step fuel) (initial mem) ops = some s) {listener : MemoryListener}
    (hl : listener ∈ s.memoryListeners) :
    run hear ∅ listener.calls =
      some (heldIn listener s.addressSpaceIo ∪ heldIn listener s.addressSpaceMemory) := by
  have h : InSync s := by
    refine run_invariant_of_guarded (fun s op s' h hop hs' => ?_) (inSync_initial mem) hops hrun
    obtain ⟨honce, hd⟩ := hop
    rw [hs'] at hd
    exact h.step honce hs' hd
  exact (h.knows listener hl).heard

/-- The machine is set up, and there is a listener from the start on and one for the memory alone. -/
theorem hear_of_run_exampleOps :
    ∃ s l l', run (step 4) (initial loneRegions)
        (exampleOps ++ [.setSystemIoMap 4, .listenerRegister 1 (some 0)]) = some s ∧
      s.memoryListeners = [l, l'] ∧ l.calls.length = 20 ∧ l'.calls.length = 2 ∧
      run hear ∅ l.calls = some (heldIn l s.addressSpaceIo ∪ heldIn l s.addressSpaceMemory) := by
  have hend : (run (step 4) (initial loneRegions)
      (exampleOps ++ [.setSystemIoMap 4, .listenerRegister 1 (some 0)])).map (fun s =>
        s.memoryListeners.map fun l => l.calls.length) = some [20, 2] := by
    decide +kernel
  obtain ⟨s, hrun, hs⟩ := Option.map_eq_some_iff.mp hend
  obtain ⟨l, rest, hlisteners, hl, hrest⟩ := List.map_eq_cons_iff.mp hs
  obtain ⟨l', rest', rfl, hl', hrest'⟩ := List.map_eq_cons_iff.mp hrest
  obtain rfl := List.map_eq_nil_iff.mp hrest'
  have hops : Guarded (step 4) (fun s op => op.Orderly 4 s) (initial loneRegions)
      (exampleOps ++ [.setSystemIoMap 4, .listenerRegister 1 (some 0)]) := by
    decide +kernel
  exact ⟨s, l, l', hrun, hlisteners, hl, hl',
    hear_of_run hops hrun (hlisteners ▸ List.mem_cons_self)⟩

end Limbo.Topology
