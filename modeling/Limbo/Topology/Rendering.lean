import Limbo.Topology.Resolution

/-!
# The flat view and the tree of regions

The loop of `render_memory_region()` fills in one segment, so that rendering a tree paints its extents
one after the other, and `flatview_simplify()` joins neighbours. From this the flat view is a list of
disjoint ranges exactly when every extent starts clear of those before it. Then it has at each address
what the address resolves to, and no two trees in which all addresses resolve to the same have
different views.
-/

namespace Limbo.Topology

open Limbo.Lib Limbo.Lib.Segment

variable {mem mem' : RegionId → MemoryRegion}

/-! ### The loop -/

lemma int128Get64_of_range {a : ℤ} (h₀ : 0 ≤ a) (h : a < 2 ^ 64) : int128Get64 a = some a.toNat :=
  if_pos ⟨h₀, h⟩

/-- No range is empty. -/
def NonEmpty (view : List FlatRange) : Prop := ∀ s ∈ segments view, s.start < s.stop

lemma nonEmpty_cons {fr : FlatRange} {view : List FlatRange} :
    NonEmpty (fr :: view) ↔ 0 < fr.addr.size ∧ NonEmpty view := by
  rw [NonEmpty, segments, List.map_cons, List.forall_mem_cons]
  simp only [FlatRange.segment, addrrangeEnd, lt_add_iff_pos_right]
  rfl

/-- The cursor is inside of a region of less than `2 ^ 64` bytes, whose first byte is at `origin`. -/
structure Cursor.Inside (c : Cursor) (origin size : ℤ) : Prop where
  offset : (c.offsetInRegion : ℤ) = c.base - origin
  remain : 0 ≤ c.remain
  limit : c.base + c.remain ≤ origin + size
  size : size < 2 ^ 64

lemma Cursor.Inside.advance {c : Cursor} {origin size : ℤ} (now : ℤ) (h : c.Inside origin size)
    (h₀ : 0 ≤ now) (hnow : now ≤ c.remain) :
    ∃ n : ℕ, c.advance now = some ⟨c.base + now, n, c.remain - now⟩ ∧
      Inside ⟨c.base + now, n, c.remain - now⟩ origin size := by
  obtain ⟨hoffset, hremain, hlimit, hsize⟩ := h
  have hn := int128Get64_of_range h₀ (by omega)
  refine ⟨(c.offsetInRegion + now.toNat) % 2 ^ 64, ?_, ?_, by dsimp only; omega, by dsimp only; omega,
    hsize⟩
  · rw [Cursor.advance, hn]
    rfl
  · dsimp only
    rw [Nat.mod_eq_of_lt (by omega)]
    omega

/-- A range that the cursor is not inside of is passed. -/
lemma Cursor.Inside.pass {c : Cursor} {origin size : ℤ} {fr : FlatRange} (h : c.Inside origin size)
    (hfr : 0 < fr.addr.size) (hc : c.base = fr.addr.start ∨ c.base < fr.addr.start ∧ c.remain = 0) :
    ∃ c', c.pass fr = some c' ∧ c'.Inside origin size ∧
      c'.base = min (c.base + c.remain) (addrrangeEnd fr.addr) ∧
      c'.base + c'.remain = c.base + c.remain := by
  have hremain := h.remain
  rw [Cursor.pass, addrrangeEnd]
  by_cases hbase : c.base = fr.addr.start
  · obtain ⟨k, hk, hin⟩ := h.advance (min c.remain fr.addr.size) (by omega) (by omega)
    exact ⟨_, by rw [if_pos hbase, hk], hin, by dsimp only; omega, by dsimp only; omega⟩
  · exact ⟨c, if_neg hbase, h, by omega, rfl⟩

lemma segment_range {c : Cursor} {origin size : ℤ} (h : c.Inside origin size) (id : RegionId)
    (mr : MemoryRegion) (readonly : Bool) (now : ℤ) :
    (c.range id mr readonly now).segment =
      ⟨c.base, c.base + now, ⟨id, origin, mr.dirtyLogMask, mr.readable, readonly⟩⟩ := by
  have horigin : c.base - c.offsetInRegion = origin := by
    rw [h.offset]
    omega
  simp [FlatRange.segment, FlatRange.tag, Cursor.range, addrrangeEnd, horigin]

/-- The loop fills the gaps from `base` on with the region, and no assertion fails. -/
lemma renderGaps_eq (id : RegionId) (mr : MemoryRegion) (readonly : Bool) {view : List FlatRange}
    {c : Cursor} {origin size : ℤ} (hview : NonEmpty view) (hc : c.Inside origin size) :
    ∃ view', renderGaps id mr readonly view c = some view' ∧
      segments view' = fill ⟨id, origin, mr.dirtyLogMask, mr.readable, readonly⟩ (segments view)
        c.base (c.base + c.remain) := by
  induction view generalizing c with
  | nil =>
    refine ⟨_, rfl, ?_⟩
    rw [segments, segments, List.map_nil, fill]
    by_cases hremain : c.remain = 0
    · simp [hremain]
    · simp [hremain, segment_range hc]
  | cons fr view ih =>
    obtain ⟨hfr, hview⟩ := nonEmpty_cons.mp hview
    have hremain := hc.remain
    have hcons : segments (fr :: view) = fr.segment :: segments view := rfl
    have hstart : fr.segment.start = fr.addr.start := rfl
    have hstop : fr.segment.stop = addrrangeEnd fr.addr := rfl
    have hend : addrrangeEnd fr.addr = fr.addr.start + fr.addr.size := rfl
    rw [renderGaps, hcons, fill, hstart, hstop]
    by_cases hzero : c.remain = 0
    · exact ⟨fr :: view, if_pos hzero, by rw [if_pos (by omega)]; rfl⟩
    rw [if_neg hzero, if_neg (show ¬ c.base = c.base + c.remain by omega)]
    by_cases hbehind : c.base ≥ addrrangeEnd fr.addr
    · obtain ⟨view', hview', hseg⟩ := ih hview hc
      rw [if_pos hbehind, if_pos (.inl hbehind), hview']
      exact ⟨fr :: view', rfl, by rw [← hseg]; rfl⟩
    rw [if_neg hbehind]
    by_cases hgap : c.base < fr.addr.start
    · obtain ⟨n, hadvance, hin⟩ := hc.advance (min c.remain (fr.addr.start - c.base)) (by omega)
        (by omega)
      obtain ⟨c', hpass, hin', hbase', hrest⟩ := hin.pass hfr (by dsimp only; omega)
      obtain ⟨view', hview', hseg⟩ := ih hview hin'
      dsimp only at hbase' hrest
      have hnow : c.base + min c.remain (fr.addr.start - c.base) =
        min (c.base + c.remain) fr.addr.start := by omega
      refine ⟨c.range id mr readonly (min c.remain (fr.addr.start - c.base)) :: fr :: view', ?_, ?_⟩
      · rw [if_pos hgap]
        dsimp only
        rw [hadvance, Option.bind_eq_bind, Option.bind_some, hpass, Option.bind_eq_bind,
          Option.bind_some, hview']
        rfl
      · have hlast : c'.base = min (c.base + c.remain) (addrrangeEnd fr.addr) := by omega
        have hstop : c'.base + c'.remain = c.base + c.remain := by omega
        rw [if_neg (by omega), if_pos hgap, ← hlast, ← hstop, ← hseg, segments, List.map_cons,
          List.map_cons, segment_range hc, hnow, hstop]
        rfl
    · by_cases hstraddle : fr.addr.start < c.base
      · obtain ⟨view', hview', hseg⟩ := ih hview hc
        have hpass : c.pass fr = some c := if_neg (by omega)
        rw [if_neg hgap, if_pos (.inr hstraddle), hpass, Option.bind_eq_bind, Option.bind_some,
          hview']
        exact ⟨fr :: view', rfl, by rw [← hseg]; rfl⟩
      · obtain ⟨c', hpass, hin', hbase', hrest⟩ := hc.pass hfr (by omega)
        obtain ⟨view', hview', hseg⟩ := ih hview hin'
        refine ⟨fr :: view', ?_, ?_⟩
        · rw [if_neg hgap, hpass, Option.bind_eq_bind, Option.bind_some, hview']
          rfl
        · rw [if_neg (by omega), if_neg hgap, ← hbase', ← hrest, ← hseg]
          rfl

/-! ### Rendering paints the extents -/

/-- The regions below one another end somewhere, and one that terminates the search is not as large as
the address space. -/
structure Renderable (mem : RegionId → MemoryRegion) (rank : RegionId → ℕ) : Prop where
  alias_lt : ∀ id orig, (mem id).aliasOf = some orig → rank orig < rank id
  subregion_lt : ∀ id, ∀ sub ∈ (mem id).subregions, rank sub < rank id
  size_nonneg : ∀ id, 0 ≤ (mem id).size
  size_lt : ∀ id, (mem id).terminates → (mem id).size < 2 ^ 64

/-- The segments are put under what is there, one after the other. -/
def fillAll (v l : List (Segment Tag)) : List (Segment Tag) :=
  l.foldl (fun v s => fill s.tag v s.start s.stop) v

lemma fillAll_append (v l m : List (Segment Tag)) :
    fillAll v (l ++ m) = fillAll (fillAll v l) m := List.foldl_append

lemma size_intersection_nonneg {r₁ r₂ : AddrRange} (h₁ : 0 ≤ r₁.size) (h₂ : 0 ≤ r₂.size)
    (h : addrrangeIntersects r₁ r₂) : 0 ≤ (addrrangeIntersection r₁ r₂).size := by
  rw [addrrangeIntersects_iff] at h
  simp only [addrrangeIntersection, addrrangeEnd] at h ⊢
  omega

/-- A view that is rendered from another one by filling in what `l` says. -/
def Rendered (view : List FlatRange) (l : List (Segment Tag)) (r : Option (List FlatRange)) : Prop :=
  ∃ view', r = some view' ∧ segments view' = fillAll (segments view) l ∧ NonEmpty view'

lemma rendered_nil {view : List FlatRange} (h : NonEmpty view) : Rendered view [] (some view) :=
  ⟨view, rfl, rfl, h⟩

lemma rendered_foldlM {α : Type*} {f : List FlatRange → α → Option (List FlatRange)}
    {g : α → List (Segment Tag)} {l : List α} {view : List FlatRange} (hview : NonEmpty view)
    (h : ∀ x ∈ l, ∀ view, NonEmpty view → Rendered view (g x) (f view x)) :
    Rendered view (l.flatMap g) (l.foldlM f view) := by
  induction l generalizing view with
  | nil => exact rendered_nil hview
  | cons x l ih =>
    obtain ⟨view₁, hf, hseg₁, hview₁⟩ := h x List.mem_cons_self view hview
    obtain ⟨view₂, hl, hseg₂, hview₂⟩ := ih hview₁ fun y hy => h y (List.mem_cons_of_mem _ hy)
    refine ⟨view₂, ?_, ?_, hview₂⟩
    · rw [List.foldlM_cons, hf]
      exact hl
    · rw [hseg₂, hseg₁, List.flatMap_cons, fillAll_append]

/-- The region itself, with the part of it that is in `clip`. -/
lemma rendered_renderGaps {id : RegionId} {readonly : Bool} {view : List FlatRange} {base : ℤ}
    {clip : AddrRange} (hview : NonEmpty view) (hsize : (mem id).size < 2 ^ 64)
    (h₀ : 0 ≤ clip.size) (hbase : base ≤ clip.start)
    (hend : addrrangeEnd clip ≤ base + (mem id).size) :
    Rendered view [⟨clip.start, addrrangeEnd clip,
        ⟨id, base, (mem id).dirtyLogMask, (mem id).readable, readonly⟩⟩]
      (do
        let offsetInRegion ← int128Get64 (clip.start - base)
        renderGaps id (mem id) readonly view ⟨clip.start, offsetInRegion, clip.size⟩) := by
  rw [addrrangeEnd] at hend
  have hinside : Cursor.Inside ⟨clip.start, (clip.start - base).toNat, clip.size⟩ base
      (mem id).size := by
    refine ⟨?_, h₀, hend, hsize⟩
    dsimp only
    omega
  obtain ⟨view', hview', hseg⟩ := renderGaps_eq id (mem id) readonly hview hinside
  refine ⟨view', ?_, hseg, ?_⟩
  · rw [int128Get64_of_range (by omega) (by omega)]
    exact hview'
  · intro s hs
    rw [hseg] at hs
    obtain hs | ⟨-, -, hlt, -⟩ := mem_fill (by dsimp only; omega) hview hs
    · exact hview s hs
    · exact hlt

/-- Rendering a region puts its extents under the view, and no assertion fails. -/
lemma rendered_renderMemoryRegion {rank : RegionId → ℕ} (hmem : Renderable mem rank) {fuel : ℕ}
    {view : List FlatRange} {id : RegionId} {base : ℤ} {clip : AddrRange} {readonly : Bool}
    (hfuel : rank id < fuel) (hview : NonEmpty view) (hclip : 0 ≤ clip.size) :
    Rendered view (extents mem fuel id base clip readonly)
      (renderMemoryRegion mem fuel view id base clip readonly) := by
  induction fuel generalizing view id base clip readonly with
  | zero => omega
  | succ fuel ih =>
    rw [extents, renderMemoryRegion]
    dsimp only
    by_cases hen : (mem id).enabled = true
    · rw [if_neg (not_not_intro hen)]
      by_cases hvisible : addrrangeIntersects ⟨base + (mem id).addr, (mem id).size⟩ clip = true
      · have hclip' := size_intersection_nonneg (hmem.size_nonneg id) hclip hvisible
        rw [if_pos (And.intro hen hvisible), if_neg (not_not_intro hvisible)]
        cases halias : (mem id).aliasOf with
        | some orig =>
          have hlt := hmem.alias_lt id orig halias
          have hlt' : rank orig < fuel := by omega
          exact ih hlt' hview hclip'
        | none =>
          dsimp only
          obtain ⟨view₁, hfold, hseg₁, hview₁⟩ := rendered_foldlM hview fun sub hsub v hv =>
            ih (lt_of_lt_of_le (hmem.subregion_lt id sub hsub) (Nat.le_of_lt_succ hfuel)) hv hclip'
          rw [hfold, Option.bind_eq_bind, Option.bind_some]
          by_cases hterm : (mem id).terminates = true
          · obtain ⟨view₂, hgaps, hseg₂, hview₂⟩ := rendered_renderGaps hview₁ (hmem.size_lt id hterm)
              hclip' (le_max_left _ _) (addrrangeEnd_intersection.trans_le (min_le_left _ _))
            rw [if_pos hterm, if_neg (not_not_intro hterm)]
            exact ⟨view₂, hgaps, by rw [hseg₂, hseg₁, fillAll_append], hview₂⟩
          · rw [if_neg hterm, if_pos hterm, List.append_nil]
            exact ⟨view₁, rfl, hseg₁, hview₁⟩
      · rw [if_neg fun h => hvisible h.2, if_pos hvisible]
        exact rendered_nil hview
    · rw [if_neg fun h => hen h.1, if_pos hen]
      exact rendered_nil hview

/-! ### Joining ranges -/

lemma canMerge_iff {r₁ r₂ : FlatRange} : canMerge r₁ r₂ = true ↔
    r₁.segment.stop = r₂.segment.start ∧ r₁.tag = r₂.tag := by
  rw [canMerge, decide_eq_true_iff]
  simp only [FlatRange.segment, FlatRange.tag, Tag.mk.injEq, addrrangeEnd]
  constructor
  · rintro ⟨hend, hmr, hoffset, hrest⟩
    exact ⟨hend, hmr, by omega, hrest⟩
  · rintro ⟨hend, hmr, horigin, hrest⟩
    exact ⟨hend, hmr, by omega, hrest⟩

/-- The loop compares the last of the ranges that have been joined, the joined one ends with it. -/
lemma segments_simplifyFrom {grown last : FlatRange} {view : List FlatRange}
    (hstop : grown.segment.stop = last.segment.stop) (htag : grown.tag = last.tag) :
    segments (simplifyFrom grown last view) = mergeFrom grown.segment (segments view) := by
  induction view generalizing grown last with
  | nil => rfl
  | cons fr view ih =>
    have hcons : segments (fr :: view) = fr.segment :: segments view := rfl
    have hmerge : canMerge last fr = true ↔
        grown.segment.stop = fr.segment.start ∧ grown.segment.tag = fr.segment.tag := by
      rw [canMerge_iff, hstop, ← htag]
      rfl
    rw [simplifyFrom, hcons, mergeFrom]
    by_cases h : canMerge last fr = true
    · have htag' : grown.tag = fr.tag := (hmerge.mp h).2
      have hend : addrrangeEnd grown.addr = fr.addr.start := (hmerge.mp h).1
      have hstop' : addrrangeEnd ⟨grown.addr.start, grown.addr.size + fr.addr.size⟩ =
          addrrangeEnd fr.addr := by
        simp only [addrrangeEnd] at hend ⊢
        omega
      rw [if_pos h, if_pos (hmerge.mp h)]
      refine (ih ?_ ?_).trans ?_
      · exact hstop'
      · exact htag'
      · exact congrArg (fun stop => mergeFrom ⟨grown.addr.start, stop, grown.tag⟩ (segments view))
          hstop'
    · rw [if_neg h, if_neg fun h' => h (hmerge.mpr h'), ← ih rfl rfl]
      rfl

lemma disjoint_flatviewSimplify {view : List FlatRange} (h : NonEmpty view) :
    Disjoint (flatviewSimplify view) ↔ Disjoint view := by
  cases view with
  | nil => rfl
  | cons fr view =>
    rw [Disjoint, flatviewSimplify, segments_simplifyFrom rfl rfl]
    exact sorted_mergeFrom h

lemma lookup_flatviewSimplify {view : List FlatRange} (h : Disjoint view) (a : ℤ) :
    lookup (flatviewSimplify view) a = lookup view a := by
  cases view with
  | nil => rfl
  | cons fr view =>
    rw [lookup, flatviewSimplify, segments_simplifyFrom rfl rfl]
    exact tagAt_mergeFrom h a

lemma separated_flatviewSimplify {view : List FlatRange} (h : Disjoint view) :
    Separated (segments (flatviewSimplify view)) := by
  cases view with
  | nil => exact .nil
  | cons fr view =>
    rw [flatviewSimplify, segments_simplifyFrom rfl rfl]
    exact separated_mergeFrom h

/-! ### The topology -/

/-- The extents of an address space, in the order of rendering. -/
def spaceExtents (mem : RegionId → MemoryRegion) (fuel : ℕ) (root : RegionId) : List (Segment Tag) :=
  extents mem fuel root 0 ⟨0, 2 ^ 64⟩ false

lemma le_of_mem_extents {rank : RegionId → ℕ} (hmem : Renderable mem rank) {fuel : ℕ}
    {id : RegionId} {base : ℤ} {clip : AddrRange} {readonly : Bool} (hclip : 0 ≤ clip.size)
    {s : Segment Tag} (hs : s ∈ extents mem fuel id base clip readonly) : s.start ≤ s.stop := by
  induction fuel generalizing id base clip readonly with
  | zero => cases hs
  | succ fuel ih =>
    rw [extents] at hs
    dsimp only at hs
    by_cases hvisible : (mem id).enabled = true ∧
      addrrangeIntersects ⟨base + (mem id).addr, (mem id).size⟩ clip = true
    · have hclip' := size_intersection_nonneg (hmem.size_nonneg id) hclip hvisible.2
      rw [if_pos hvisible] at hs
      cases halias : (mem id).aliasOf with
      | some orig =>
        rw [halias] at hs
        exact ih hclip' hs
      | none =>
        rw [halias] at hs
        obtain hs | hs := List.mem_append.mp hs
        · obtain ⟨sub, -, hs⟩ := List.mem_flatMap.mp hs
          exact ih hclip' hs
        · split_ifs at hs
          · obtain rfl := List.mem_singleton.mp hs
            exact le_add_of_nonneg_right hclip'
          · cases hs
    · rw [if_neg hvisible] at hs
      cases hs

lemma generateMemoryTopology_eq {rank : RegionId → ℕ} (hmem : Renderable mem rank) {fuel : ℕ}
    {root : RegionId} (hfuel : rank root < fuel) :
    ∃ view, generateMemoryTopology mem fuel root = some (flatviewSimplify view) ∧
      NonEmpty view ∧ segments view = paint (spaceExtents mem fuel root) := by
  obtain ⟨view, hrender, hseg, hview⟩ : Rendered [] (spaceExtents mem fuel root) _ :=
    rendered_renderMemoryRegion hmem hfuel (fun s hs => by cases hs) (by norm_num)
  refine ⟨view, ?_, hview, hseg⟩
  rw [generateMemoryTopology, hrender]
  rfl

section Topology

variable {rank : RegionId → ℕ} {fuel : ℕ} {root : RegionId}

lemma le_of_mem_spaceExtents (hmem : Renderable mem rank) :
    ∀ s ∈ spaceExtents mem fuel root, s.start ≤ s.stop :=
  fun _ hs => le_of_mem_extents hmem (by norm_num) hs

lemma disjoint_of_paint (hmem : Renderable mem rank) {view : List FlatRange}
    (hseg : segments view = paint (spaceExtents mem fuel root)) :
    Disjoint view ↔ StartsClear (spaceExtents mem fuel root) := by
  rw [Disjoint, hseg]
  exact sorted_paint (le_of_mem_spaceExtents hmem)

lemma lookup_of_paint (hmem : Renderable mem rank) {view : List FlatRange}
    (hseg : segments view = paint (spaceExtents mem fuel root)) (h : Disjoint view) (a : ℤ) :
    lookup view a = if 0 ≤ a ∧ a < 2 ^ 64 then resolve mem fuel root 0 false a else none := by
  have hclear := (disjoint_of_paint hmem hseg).mp h
  have hclip : addrrangeContains ⟨0, 2 ^ 64⟩ a = true ↔ 0 ≤ a ∧ a < 2 ^ 64 := by
    rw [addrrangeContains_iff]
    simp [addrrangeEnd]
  rw [lookup, hseg, tagAt_paint (le_of_mem_spaceExtents hmem) hclear, spaceExtents, tagAt_extents]
  exact if_congr hclip rfl rfl

/-- Ram, a device in the middle of it and an alias of its last part. -/
def ramAndDevice : RegionId → MemoryRegion
  | 0 => { memoryRegionInit 16 with subregions := [3, 2, 1] }
  | 1 => { memoryRegionInitRam 8 with parent := some 0 }
  | 2 => { memoryRegionInitRam 1 with parent := some 0, addr := 2 }
  | 3 => { memoryRegionInitAlias 1 4 4 with parent := some 0, addr := 10 }
  | _ => memoryRegionInit 0

/-- The same with an alias that shows a part of the ram where it is anyway. -/
def aliasInPlace : RegionId → MemoryRegion
  | 0 => { memoryRegionInit 16 with subregions := [4, 3, 2, 1] }
  | 4 => { memoryRegionInitAlias 1 5 2 with parent := some 0, addr := 5 }
  | id => ramAndDevice id

def exampleRank (id : RegionId) : ℕ := if id = 0 then 2 else if 3 ≤ id then 1 else 0

lemma renderable_ramAndDevice : Renderable ramAndDevice exampleRank := by
  constructor
  · rintro (_ | _ | _ | _ | id) orig h <;>
      simp [ramAndDevice, memoryRegionInit, memoryRegionInitRam, memoryRegionInitAlias] at h
    subst h
    decide
  · rintro (_ | _ | _ | _ | id) sub h <;>
      simp [ramAndDevice, memoryRegionInit, memoryRegionInitRam, memoryRegionInitAlias] at h
    obtain rfl | rfl | rfl := h <;> decide
  · rintro (_ | _ | _ | _ | id) <;>
      simp [ramAndDevice, memoryRegionInit, memoryRegionInitRam, memoryRegionInitAlias]
  · rintro (_ | _ | _ | _ | id) <;>
      simp [ramAndDevice, memoryRegionInit, memoryRegionInitRam, memoryRegionInitAlias]

lemma renderable_aliasInPlace : Renderable aliasInPlace exampleRank := by
  constructor
  · rintro (_ | _ | _ | _ | _ | id) orig h <;>
      simp [aliasInPlace, ramAndDevice, memoryRegionInit, memoryRegionInitRam,
        memoryRegionInitAlias] at h
    all_goals
      subst h
      decide
  · rintro (_ | _ | _ | _ | _ | id) sub h <;>
      simp [aliasInPlace, ramAndDevice, memoryRegionInit, memoryRegionInitRam,
        memoryRegionInitAlias] at h
    obtain rfl | rfl | rfl | rfl := h <;> decide
  · rintro (_ | _ | _ | _ | _ | id) <;>
      simp [aliasInPlace, ramAndDevice, memoryRegionInit, memoryRegionInitRam, memoryRegionInitAlias]
  · rintro (_ | _ | _ | _ | _ | id) <;>
      simp [aliasInPlace, ramAndDevice, memoryRegionInit, memoryRegionInitRam, memoryRegionInitAlias]

lemma resolve_aliasInPlace (a : ℤ) :
    resolve ramAndDevice 3 0 0 false a = resolve aliasInPlace 3 0 0 false a := by
  by_cases ha : 0 ≤ a ∧ a < 16
  · obtain ⟨h₀, h₁⟩ := ha
    interval_cases a <;> decide
  · rw [resolve_of_outside fun h => ha (addrrangeContains_iff.mp h.2),
      resolve_of_outside fun h => ha (addrrangeContains_iff.mp h.2)]

/-- The topology of a tree of regions is generated without a failed assertion. Its ranges are disjoint
exactly when no region starts in the middle of what is visible of one rendered before it, and then it
has at every address of the space what the address resolves to. -/
theorem generateMemoryTopology_resolves (hmem : Renderable mem rank) (hfuel : rank root < fuel) :
    ∃ view, generateMemoryTopology mem fuel root = some view ∧
      (Disjoint view ↔ StartsClear (spaceExtents mem fuel root)) ∧
      (Disjoint view → ∀ a, lookup view a =
        if 0 ≤ a ∧ a < 2 ^ 64 then resolve mem fuel root 0 false a else none) := by
  obtain ⟨view, hgen, hview, hseg⟩ := generateMemoryTopology_eq hmem hfuel
  have hsimplify := disjoint_flatviewSimplify hview
  refine ⟨_, hgen, hsimplify.trans (disjoint_of_paint hmem hseg), fun h a => ?_⟩
  rw [hsimplify] at h
  rw [lookup_flatviewSimplify h, lookup_of_paint hmem hseg h]

theorem generateMemoryTopology_resolves_ramAndDevice :
    ∃ view, generateMemoryTopology ramAndDevice 3 0 = some view ∧ Disjoint view ∧
      ∀ a, lookup view a =
        if 0 ≤ a ∧ a < 2 ^ 64 then resolve ramAndDevice 3 0 0 false a else none := by
  obtain ⟨view, hgen, hdisjoint, hlookup⟩ :=
    generateMemoryTopology_resolves renderable_ramAndDevice (show exampleRank 0 < 3 by decide)
  have h : Disjoint view := hdisjoint.mpr (by decide +kernel)
  exact ⟨view, hgen, h, hlookup h⟩

lemma generateMemoryTopology_canonical (hmem : Renderable mem rank) (hfuel : rank root < fuel)
    (hclear : StartsClear (spaceExtents mem fuel root)) :
    ∃ view, generateMemoryTopology mem fuel root = some view ∧
      (∀ a, lookup view a =
        if 0 ≤ a ∧ a < 2 ^ 64 then resolve mem fuel root 0 false a else none) ∧
      Disjoint view ∧ Separated (segments view) := by
  obtain ⟨view, hgen, hview, hseg⟩ := generateMemoryTopology_eq hmem hfuel
  have h := (disjoint_of_paint hmem hseg).mpr hclear
  refine ⟨_, hgen, fun a => ?_, (disjoint_flatviewSimplify hview).mpr h, separated_flatviewSimplify h⟩
  rw [lookup_flatviewSimplify h, lookup_of_paint hmem hseg h]

end Topology

/-! ### Trees that cannot be told apart -/

lemma segment_injective : Function.Injective FlatRange.segment := by
  rintro ⟨mr, offset, ⟨start, size⟩, mask, readable, readonly⟩
    ⟨mr', offset', ⟨start', size'⟩, mask', readable', readonly'⟩ h
  simp only [FlatRange.segment, FlatRange.tag, addrrangeEnd, Segment.mk.injEq, Tag.mk.injEq] at h
  obtain ⟨hstart, hstop, rfl, horigin, rfl, rfl, rfl⟩ := h
  obtain rfl : offset = offset' := by omega
  obtain rfl : size = size' := by omega
  rw [hstart]

lemma segments_injective : Function.Injective segments := List.map_injective_iff.mpr segment_injective

end Limbo.Topology
