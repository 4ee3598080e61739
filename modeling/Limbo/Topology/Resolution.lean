import Limbo.Topology.FlatView

/-!
# What an address resolves to

An access to an address goes through the tree of regions: through an alias to the part it shows, into
the first subregion, in order of priority, that has something there, and to the region itself only if
none has and it terminates the search. The flat view gives the same answer at every address if no
region starts in the middle of what is visible of one rendered before it. The loop of
`render_memory_region()` steps over a range that the region starts inside of, so that otherwise the
ranges overlap.
-/

namespace Limbo.Topology

open Limbo.Lib Limbo.Lib.Segment

/-- What is found at an address. The region's first byte would be at `origin`. -/
structure Tag where
  mr : RegionId
  origin : ℤ
  dirtyLogMask : ℕ
  readable : Bool
  readonly : Bool
deriving DecidableEq, Repr

def FlatRange.tag (fr : FlatRange) : Tag :=
  ⟨fr.mr, fr.addr.start - fr.offsetInRegion, fr.dirtyLogMask, fr.readable, fr.readonly⟩

def FlatRange.segment (fr : FlatRange) : Segment Tag :=
  ⟨fr.addr.start, addrrangeEnd fr.addr, fr.tag⟩

def segments (view : List FlatRange) : List (Segment Tag) := view.map FlatRange.segment

/-- The ranges are in order of address, none is empty and no two overlap. -/
def Disjoint (view : List FlatRange) : Prop := Sorted (segments view)

/-- What a view has at an address. -/
def lookup (view : List FlatRange) (a : ℤ) : Option Tag := tagAt (segments view) a

variable {mem : RegionId → MemoryRegion}

/-- What an address resolves to in a region at `base` and below it. -/
def resolve (mem : RegionId → MemoryRegion) : ℕ → RegionId → ℤ → Bool → ℤ → Option Tag
  | 0, _, _, _, _ => none
  | fuel + 1, id, base, readonly, a =>
    let mr := mem id
    let base := base + mr.addr
    let readonly := readonly || mr.readonly
    if mr.enabled ∧ base ≤ a ∧ a < base + mr.size then
      match mr.aliasOf with
      | some orig => resolve mem fuel orig (base - (mem orig).addr - mr.aliasOffset) readonly a
      | none =>
        (mr.subregions.findSome? fun subregion => resolve mem fuel subregion base readonly a).or
          (if mr.terminates then some ⟨id, base, mr.dirtyLogMask, mr.readable, readonly⟩ else none)
    else none

/-- What each region that terminates the search takes up of `clip`, in the order of rendering. -/
def extents (mem : RegionId → MemoryRegion) :
    ℕ → RegionId → ℤ → AddrRange → Bool → List (Segment Tag)
  | 0, _, _, _, _ => []
  | fuel + 1, id, base, clip, readonly =>
    let mr := mem id
    let base := base + mr.addr
    let readonly := readonly || mr.readonly
    if mr.enabled ∧ addrrangeIntersects ⟨base, mr.size⟩ clip then
      let clip := addrrangeIntersection ⟨base, mr.size⟩ clip
      match mr.aliasOf with
      | some orig =>
        extents mem fuel orig (base - (mem orig).addr - mr.aliasOffset) clip readonly
      | none =>
        (mr.subregions.flatMap fun subregion => extents mem fuel subregion base clip readonly) ++
          (if mr.terminates then
            [⟨clip.start, addrrangeEnd clip, ⟨id, base, mr.dirtyLogMask, mr.readable, readonly⟩⟩]
          else [])
    else []

/-! ### Ranges of addresses -/

section AddrRange

variable {r₁ r₂ : AddrRange} {a : ℤ}

lemma addrrangeContains_iff :
    addrrangeContains r₁ a = true ↔ r₁.start ≤ a ∧ a < addrrangeEnd r₁ := by
  simp [addrrangeContains]

lemma addrrangeIntersects_iff : addrrangeIntersects r₁ r₂ = true ↔
    r₁.start ≤ r₂.start ∧ r₂.start < addrrangeEnd r₁ ∨
      r₂.start ≤ r₁.start ∧ r₁.start < addrrangeEnd r₂ := by
  simp [addrrangeIntersects, addrrangeContains]

lemma addrrangeIntersects_of_contains (h₁ : addrrangeContains r₁ a) (h₂ : addrrangeContains r₂ a) :
    addrrangeIntersects r₁ r₂ = true := by
  rw [addrrangeContains_iff] at h₁ h₂
  rw [addrrangeIntersects_iff]
  omega

lemma addrrangeEnd_intersection :
    addrrangeEnd (addrrangeIntersection r₁ r₂) = min (addrrangeEnd r₁) (addrrangeEnd r₂) := by
  simp [addrrangeEnd, addrrangeIntersection]

lemma addrrangeContains_intersection : addrrangeContains (addrrangeIntersection r₁ r₂) a = true ↔
    addrrangeContains r₁ a = true ∧ addrrangeContains r₂ a = true := by
  rw [addrrangeContains_iff, addrrangeContains_iff, addrrangeContains_iff, addrrangeEnd_intersection]
  simp only [addrrangeIntersection]
  omega

lemma tagAt_addrRange (r : AddrRange) (tag : Tag) (a : ℤ) :
    tagAt [⟨r.start, addrrangeEnd r, tag⟩] a = if addrrangeContains r a then some tag else none := by
  rw [tagAt_cons, tagAt_nil]
  exact if_congr addrrangeContains_iff.symm rfl rfl

end AddrRange

/-! ### The extents and the search -/

lemma findSome?_ite {α β : Type*} (P : Prop) [Decidable P] (f : α → Option β) (l : List α) :
    (l.findSome? fun x => if P then f x else none) = if P then l.findSome? f else none := by
  split_ifs
  · rfl
  · induction l with
    | nil => rfl
    | cons x l ih => rw [List.findSome?_cons, ih]

lemma resolve_of_outside {fuel : ℕ} {id : RegionId} {base : ℤ} {readonly : Bool} {a : ℤ}
    (h : ¬ ((mem id).enabled ∧ addrrangeContains ⟨base + (mem id).addr, (mem id).size⟩ a)) :
    resolve mem fuel id base readonly a = none := by
  cases fuel with
  | zero => rfl
  | succ fuel =>
    rw [addrrangeContains_iff] at h
    rw [resolve]
    exact if_neg h

/-- The first extent that covers an address is that of the region it resolves to. -/
lemma tagAt_extents (fuel : ℕ) (id : RegionId) (base : ℤ) (clip : AddrRange) (readonly : Bool)
    (a : ℤ) : tagAt (extents mem fuel id base clip readonly) a =
      if addrrangeContains clip a then resolve mem fuel id base readonly a else none := by
  induction fuel generalizing id base clip readonly with
  | zero => simp [extents, resolve]
  | succ fuel ih =>
    by_cases hin : addrrangeContains
      (addrrangeIntersection ⟨base + (mem id).addr, (mem id).size⟩ clip) a
    · obtain ⟨hregion, hclip⟩ := addrrangeContains_intersection.mp hin
      have hvisible := addrrangeIntersects_of_contains hregion hclip
      rw [if_pos hclip]
      by_cases hen : (mem id).enabled
      · have hreach : base + (mem id).addr ≤ a ∧ a < base + (mem id).addr + (mem id).size :=
          addrrangeContains_iff.mp hregion
        rw [extents, resolve]
        dsimp only
        rw [if_pos (And.intro hen hvisible), if_pos (And.intro hen hreach)]
        cases (mem id).aliasOf with
        | some orig => exact (ih _ _ _ _).trans (if_pos hin)
        | none =>
          dsimp only
          simp only [tagAt_append, tagAt_flatMap, ih, if_pos hin]
          congr 1
          split_ifs
          · rw [tagAt_addrRange, if_pos hin]
          · rfl
      · rw [resolve_of_outside fun h => hen h.1, extents, if_neg fun h => hen h.1]
        rfl
    · have hnone : (if addrrangeContains clip a then resolve mem (fuel + 1) id base readonly a
          else none) = none := by
        split_ifs with hclip
        · exact resolve_of_outside fun h => hin (addrrangeContains_intersection.mpr ⟨h.2, hclip⟩)
        · rfl
      rw [hnone, extents]
      dsimp only
      by_cases hvisible : (mem id).enabled ∧
        addrrangeIntersects ⟨base + (mem id).addr, (mem id).size⟩ clip
      · rw [if_pos hvisible]
        cases (mem id).aliasOf with
        | some orig => exact (ih _ _ _ _).trans (if_neg hin)
        | none =>
          dsimp only
          simp only [tagAt_append, tagAt_flatMap, ih, if_neg hin]
          split_ifs <;> simp [tagAt_addrRange, hin]
      · rw [if_neg hvisible]
        rfl

end Limbo.Topology
