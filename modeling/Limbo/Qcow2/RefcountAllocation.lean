import Limbo.Qcow2.TableSwitch

/-!
# Updates that allocate refcount blocks

`alloc_refcount_block()` and `update_refcount()` call each other. Each of them keeps an image
consistent, if the clusters it is for have blocks or have been found by `alloc_clusters_noref()`, and
records the clusters that become metadata. From what holds of the calls with less fuel, one lemma for
each function gives what holds of it.
-/

namespace Limbo.Qcow2.Clusters

namespace Image

/-- The image stays consistent while the clusters `m` are recorded, and refcounts change only for them
and for `own`. -/
structure Kept (g : Geometry) (own : List ℕ) (first : ℕ) (s s' : Image) (m : List ℕ) : Prop where
  frame : Frame g own first s s' m
  refcount : ∀ x ∉ own ++ m, s'.refcount g x = s.refcount g x
  consistent : s'.Consistent g
  free : s.freeClusterIndex ≤ s'.freeClusterIndex

variable {g : Geometry} {s s' s'' : Image} {own own' m m' : List ℕ} {first first' : ℕ}

lemma SameRefcounts.kept (h : s.SameRefcounts s') (hs : s.Consistent g)
    (hfree : s.freeClusterIndex ≤ s'.freeClusterIndex) : Kept g own first s s' [] where
  frame := h.toSameTable.frame
  refcount x _ := h.refcount x
  consistent := h.consistent hs
  free := hfree

/-- Results of accesses do not matter. -/
lemma Kept.of_io {io : List ℤ} (h : Kept g own first { s with io } s' m) :
    Kept g own first s s' m where
  frame := ⟨h.frame.metadata, h.frame.fresh, h.frame.present, h.frame.hooked, h.frame.tables⟩
  refcount := h.refcount
  consistent := h.consistent
  free := h.free

lemma Kept.trans (h : Kept g [] first s s' m) (h' : Kept g own' first' s' s'' m') (hown : own' ⊆ m)
    (hfirst : first ≤ first') : Kept g [] first s s'' (m' ++ m) where
  frame := h.frame.trans h'.frame hown hfirst h.free fun x hx => (h.refcount x hx).ge
  refcount x hx := by
    simp only [List.nil_append, List.mem_append, not_or] at hx
    have hx' : x ∉ own' ++ m' := by
      rw [List.mem_append]
      exact fun hmem => hmem.elim (fun hmem => hx.2 (hown hmem)) hx.1
    rw [h'.refcount x hx', h.refcount x hx.2]
  consistent := h'.consistent
  free := h.free.trans h'.free

end Image

open Image

variable {g : Geometry} {s s' : Image} {t n : ℕ}

/-- What is assumed of `update_refcount()` for clusters that have blocks. -/
def Ranges (g : Geometry) (update : Update) : Prop :=
  ∀ s s' offset length a out, s.Separate g → 0 ≤ offset →
    (∀ x, InRange g offset length x → ∃ o, s.blockAt (x / g.blockClusters) = some o) →
    update s offset length a = .ok (out, s') → Ranged g s s' offset length a out

/-! ### Growing the refcount table -/

/-- The new blocks are written where no block is. -/
lemma writeBlocks_same {tableSize blocksClusters : ℕ} (hg : Growing g s t n tableSize blocksClusters)
    (io : List ℤ) (x : ℕ) : Image.refcount g { writeBlocks g s (metaCluster g s) blocksClusters
      (metaCount g tableSize blocksClusters) with io } x = s.refcount g x := by
  cases ho : s.blockAt (x / g.blockClusters) with
  | none =>
    rw [refcount_of_none ho]
    exact refcount_of_none ho
  | some o =>
    have hlt := Switched.le_metaCluster hg ho
    have hwritten : (writeBlocks g s (metaCluster g s) blocksClusters
        (metaCount g tableSize blocksClusters)).block o (x % g.blockClusters) =
        s.block o (x % g.blockClusters) := if_neg (by omega)
    rw [refcount_of_blockAt ho, ← hwritten]
    exact refcount_of_blockAt ho

/-- The clusters of the old table have blocks. -/
lemma Switched.blockAt_oldTable {s₂ : Image} {tableSize blocksClusters x : ℕ}
    (h : Switched g s s₂ t n tableSize blocksClusters)
    (hg : Growing g s t n tableSize blocksClusters)
    (hx : InRange g s.refcountTableOffset (s.refcountTable.length * 8) x) :
    ∃ o, s₂.blockAt (x / g.blockClusters) = some o := by
  refine blockAt_of_refcount ?_
  rw [h.refcount hg]
  split_ifs
  · exact one_ne_zero
  · exact hg.consistent.tableCounted x (inRange_tableClusters.mp hx)

/-- After the switch the clusters of the old table are freed. -/
lemma Switched.freed {s₂ s₃ : Image} {tableSize blocksClusters : ℕ} {out : Outcome}
    (h : Switched g s s₂ t n tableSize blocksClusters)
    (hg : Growing g s t n tableSize blocksClusters)
    (hunused : ∀ i o, s.blockAt i = some o → o / g.clusterSize ≠ n)
    (hfreed : Ranged g s₂ s₃ s.refcountTableOffset (s.refcountTable.length * 8) (-1) out) :
    s₃.Consistent g ∧ ∀ x ∉ s.tableOf g, s₃.refcount g x = s₂.refcount g x := by
  have hcs := g.clusterSize_pos
  have hout (x : ℕ) (hx : x ∉ s.tableOf g) : s₃.refcount g x = s₂.refcount g x :=
    hfreed.outside x fun hmem => hx (inRange_tableClusters.mp hmem)
  have hmeta (x : ℕ) (hx : metaCluster g s ≤ x) : x ∉ s.tableOf g := fun hmem =>
    hg.consistent.tableCounted x hmem (refcount_meta hg hx)
  have hn : n ∉ s.tableOf g := fun hmem =>
    hg.consistent.tableCounted n hmem (hg.refcount_eq_zero hg.describes.ge)
  refine ⟨hfreed.same.consistent (h.consistent hg hunused) fun x hx hused => ?_, hout⟩
  rw [hout]
  · exact hx
  obtain rfl | hx | ⟨i, o, ho, rfl⟩ := hused
  · exact hg.consistent.headerApart
  · rw [h.mem_tableOf hg] at hx
    exact hmeta x (by omega)
  · obtain ho | ⟨-, rfl⟩ | ⟨j, -, -, rfl⟩ := h.cases_blockAt hg ho
    · exact hg.consistent.apart i o ho
    · rwa [Nat.mul_div_cancel n hcs]
    · rw [Nat.mul_div_cancel _ hcs]
      exact hmeta _ (Nat.le_add_right _ _)

/-- The table is grown for a block that describes itself. -/
lemma growTable_kept {update : Update} {fuel : ℕ} {ret : ℤ} {held : Option ℕ}
    (hupdate : Ranges g update) (hs : s.Consistent g) (hbehind : s.refcountTable.length ≤ t)
    (hdesc : n / g.blockClusters = t) (halloc : n < s.freeClusterIndex)
    (hblock : ∀ i, s.block (n * g.clusterSize) i = if i = n % g.blockClusters then 1 else 0)
    (hunused : ∀ i o, s.blockAt i = some o → o / g.clusterSize ≠ n)
    (h : growTable g update fuel s t n = .ok ((ret, held), s')) :
    ∃ m, Kept g [n] t s s' m ∧ (ret < 0 ∧ held = none ∨
      0 ≤ ret ∧ held = some (n * g.clusterSize) ∧ s'.blockAt t = some (n * g.clusterSize)) := by
  have hcs := g.clusterSize_pos
  obtain ⟨tableSize, blocksClusters, -, hold, hnew, hblocks, hfits, hend⟩ := growTable_cases h
  have hg : Growing g s t n tableSize blocksClusters :=
    ⟨hs, hbehind, hdesc, halloc, hblock, hold, hnew, hblocks, hfits⟩
  obtain ⟨hret, hheld, io, rfl | rfl⟩ | ⟨s₂, s₃, out, io, hsw, hmeta, hfree, rfl, hheld⟩ := hend
  · exact ⟨[], (sameRefcounts_io s io).kept hs le_rfl, .inl ⟨hret, hheld⟩⟩
  · have hsame : s.SameTable { writeBlocks g s (metaCluster g s) blocksClusters
        (metaCount g tableSize blocksClusters) with io } := ⟨rfl, rfl, rfl⟩
    refine ⟨[], ⟨hsame.frame, fun x _ => writeBlocks_same hg io x,
      hsame.consistent hs fun x hx _ => ?_, le_rfl⟩, .inl ⟨hret, hheld⟩⟩
    rwa [writeBlocks_same hg]
  · have hfreed := hupdate _ _ _ _ _ _ (hsw.consistent hg hunused).toSeparate (Int.natCast_nonneg _)
      (fun x => hsw.blockAt_oldTable hg) hfree
    obtain ⟨hcons, hout⟩ := hsw.freed hg hunused hfreed
    have hat (i : ℕ) : s₃.blockAt i = s₂.blockAt i := hfreed.same.blockAt i
    have hlt := hg.lt_blocksUsed
    refine ⟨s.tableOf g ++ metaClusters g s tableSize blocksClusters,
      ⟨⟨hfreed.same.metadata.trans hmeta, fun c hc => ?_, fun i o ho => ?_, fun i o ho => ?_,
        fun c hc => ?_⟩, fun x hx => ?_, ⟨⟨hcons.aligned, hcons.distinct⟩, hcons.counted,
        hcons.header, hcons.tableCounted, hcons.apart, hcons.headerApart⟩, le_rfl⟩, ?_⟩
    · obtain hc | hc := List.mem_append.mp hc
      · exact .inr hc
      · have hc := (mem_metaClusters.mp hc).1
        exact .inl ⟨(freeClusterIndex_le g s).trans hc, Switched.refcount_meta hg hc⟩
    · obtain ⟨-, hi, -⟩ := blockAt_eq_some ho
      change s₃.blockAt i = some o
      rw [hat, hsw.blockAt hg, if_neg (by omega), if_neg (by omega), ho]
    · change s₃.blockAt i = some o at ho
      rw [hat] at ho
      obtain ho | ⟨rfl, rfl⟩ | ⟨j, hj, rfl, rfl⟩ := hsw.cases_blockAt hg ho
      · exact .inl ho
      · refine .inr ⟨?_, le_rfl⟩
        rw [Nat.mul_div_cancel n hcs]
        exact List.mem_cons_self
      · refine .inr ⟨?_, by omega⟩
        rw [Nat.mul_div_cancel _ hcs]
        refine List.mem_append_right _ (List.mem_append_right _ (mem_metaClusters.mpr ⟨by omega, ?_⟩))
        rw [metaCount]
        omega
    · have hc : c ∈ s₂.tableOf g := hfreed.same.tableOf ▸ hc
      rw [hsw.mem_tableOf hg] at hc
      exact .inr (List.mem_append_right _ (mem_metaClusters.mpr (by omega)))
    · simp only [List.mem_append, List.mem_singleton, mem_metaClusters, not_or] at hx
      change s₃.refcount g x = _
      rw [hout x hx.2.1, hsw.refcount hg, if_neg (by tauto)]
    · refine hheld.imp_right ?_
      rintro ⟨rfl, rfl⟩
      refine ⟨le_rfl, rfl, ?_⟩
      change s₃.blockAt t = _
      rw [hat, hsw.blockAt hg, if_neg (by omega), if_pos rfl]

/-! ### A block is hooked up -/

/-- The block of the cluster `n` is initialized: it describes itself, or `n` is counted already. -/
structure Initialized (g : Geometry) (s : Image) (t n : ℕ) : Prop where
  consistent : s.Consistent g
  missing : s.blockAt t = none
  header : n ≠ 0
  allocated : n < s.freeClusterIndex
  unused : ∀ i o, s.blockAt i = some o → o / g.clusterSize ≠ n
  table : n ∉ s.tableOf g
  block : n / g.blockClusters = t ∧
      (∀ i, s.block (n * g.clusterSize) i = if i = n % g.blockClusters then 1 else 0) ∨
    n / g.blockClusters ≠ t ∧ s.refcount g n ≠ 0 ∧ t < s.refcountTable.length ∧
      ∀ i, s.block (n * g.clusterSize) i = 0

/-- A block that describes only one cluster. -/
lemma block_eq_zero {n t x : ℕ} (hdesc : n / g.blockClusters = t)
    (hblock : ∀ i, s.block (n * g.clusterSize) i = if i = n % g.blockClusters then 1 else 0)
    (hx : x / g.blockClusters = t) (hne : x ≠ n) :
    s.block (n * g.clusterSize) (x % g.blockClusters) = 0 := by
  rw [hblock, if_neg]
  intro hmod
  refine hne ?_
  rw [← Nat.div_add_mod x g.blockClusters, hx, hmod, ← hdesc, Nat.div_add_mod]

/-- The block is hooked up in the table, or the table is grown for it. -/
lemma hookUp_kept {update : Update} {fuel : ℕ} {ret : ℤ} {held : Option ℕ}
    (hupdate : Ranges g update) (hi : Initialized g s t n)
    (h : hookUp g update fuel s t n = .ok ((ret, held), s')) :
    ∃ m, Kept g [n] t s s' m ∧ (ret < 0 ∧ held = none ∨
      0 ≤ ret ∧ held = some (n * g.clusterSize) ∧ s'.blockAt t = some (n * g.clusterSize)) := by
  have hs := hi.consistent
  rw [hookUp] at h
  dsimp only at h
  split_ifs at h with hflush hlt hwrite hput
  · cases h
    exact ⟨[], (sameRefcounts_io s _).kept hs le_rfl, .inl ⟨hflush, rfl⟩⟩
  · cases h
    exact ⟨[], (sameRefcounts_io s _).kept hs le_rfl, .inl ⟨hwrite, rfl⟩⟩
  · cases h
    have hzero (x : ℕ) (hx : x / g.blockClusters = t) (hne : x ≠ n) :
        s.block (n * g.clusterSize) (x % g.blockClusters) = 0 := by
      obtain ⟨hdesc, hblock⟩ | ⟨-, -, -, hblock⟩ := hi.block
      · exact block_eq_zero hdesc hblock hx hne
      · exact hblock _
    have hn : n / g.blockClusters = t ∧ s.block (n * g.clusterSize) (n % g.blockClusters) ≠ 0 ∨
        n / g.blockClusters ≠ t ∧ s.refcount g n ≠ 0 := by
      obtain ⟨hdesc, hblock⟩ | ⟨hne, hcount, -⟩ := hi.block
      · exact .inl ⟨hdesc, by simp [hblock]⟩
      · exact .inr ⟨hne, hcount⟩
    obtain ⟨hframe, hcount, hcons, hat⟩ := hook_spec (s := s.perform.2.perform.2)
      ((sameRefcounts_io s _).consistent hs) hlt hi.missing hi.header hi.unused hi.table hzero hn rfl
    refine ⟨[], ⟨⟨hframe.metadata, hframe.fresh, hframe.present, hframe.hooked, hframe.tables⟩,
      fun x hx => hcount x ?_, hcons, le_rfl⟩, .inr ⟨le_rfl, rfl, hat⟩⟩
    simpa using hx
  · cases h
    exact ⟨[], (sameRefcounts_io s _).kept hs le_rfl, .inl ⟨hput, rfl⟩⟩
  · obtain ⟨hdesc, hblock⟩ | ⟨-, -, hlen, -⟩ := hi.block
    · obtain ⟨m, hkept, hend⟩ := growTable_kept (s := s.perform.2.perform.2) hupdate
        ((sameRefcounts_io s _).consistent hs) (not_lt.mp hlt) hdesc hi.allocated hblock hi.unused h
      exact ⟨m, Kept.of_io (s := s) hkept, hend⟩
    · exact absurd hlen hlt

/-! ### Allocating a block -/

lemma sizeToClusters_clusterSize (g : Geometry) : g.sizeToClusters g.clusterSize = 1 := by
  have hcs := g.clusterSize_pos
  rw [Geometry.sizeToClusters, Nat.add_div_left _ hcs, Nat.div_eq_of_lt (by omega)]

/-- How `alloc_refcount_block()` goes on where there is no block: no cluster is found, or the cluster
`n` is found, and its block describes it or does not. -/
lemma allocRefcountBlock_cases {update : Update} {fuel c : ℕ} {ret : ℤ} {held : Option ℕ}
    (hnone : s.blockAt (c / g.blockClusters) = none)
    (h : allocRefcountBlock g update fuel s c = .ok ((ret, held), s')) :
    (ret < 0 ∧ held = none ∧ ∃ f ≥ s.freeClusterIndex, ∃ io,
        s' = { s with freeClusterIndex := f, io }) ∨
      ∃ n ≥ s.freeClusterIndex, s.refcount g n = 0 ∧ ∃ io, ∃ s₁ : Image,
        s₁ = { s with freeClusterIndex := n + 1, io, metadata := n :: s.metadata } ∧
        (n / g.blockClusters = c / g.blockClusters ∧
            (ret < 0 ∧ held = none ∧ s' = s₁.perform.2 ∨
              hookUp g update fuel (s₁.perform.2.setBlock (n * g.clusterSize)
                fun i => if i = n % g.blockClusters then 1 else 0) (c / g.blockClusters) n =
                .ok ((ret, held), s')) ∨
          n / g.blockClusters ≠ c / g.blockClusters ∧ ∃ out s₂,
            update s₁ (n * g.clusterSize) g.clusterSize 1 = .ok (out, s₂) ∧
            (ret < 0 ∧ held = none ∧ (s' = s₂ ∨ s' = s₂.perform.2) ∨
              0 ≤ out.ret ∧ hookUp g update fuel (s₂.perform.2.setBlock (n * g.clusterSize)
                fun _ => 0) (c / g.blockClusters) n = .ok ((ret, held), s'))) := by
  have hzero : s.refcountTable.getD (c / g.blockClusters) 0 = 0 := by
    by_contra hne
    rw [blockAt, if_neg hne] at hnone
    cases hnone
  rw [allocRefcountBlock] at h
  simp only [hzero, Nat.zero_div, zero_mul, ne_eq, not_true_eq_false, if_false] at h
  obtain ⟨⟨newOffset, s₀⟩, halloc, h⟩ := ok_of_bind h
  obtain ⟨f, io, rfl, hle, hfound⟩ := allocClustersNoref_spec halloc
  dsimp only at h
  by_cases hneg : newOffset < 0
  · rw [if_pos hneg] at h
    cases h
    exact .inl ⟨hneg, rfl, f, hle, io, rfl⟩
  · obtain ⟨n, rfl, hn, hf, hfree⟩ := hfound.resolve_left hneg
    rw [sizeToClusters_clusterSize] at hf
    subst hf
    refine .inr ⟨n, hn, hfree n le_rfl (Nat.lt_succ_self n), io, _, rfl, ?_⟩
    simp only [if_neg hneg, Int.toNat_natCast, Nat.mul_div_cancel n g.clusterSize_pos] at h
    split_ifs at h with hself hget
    · cases h
      exact .inl ⟨hself, .inl ⟨hget, rfl, rfl⟩⟩
    · exact .inl ⟨hself, .inr h⟩
    · obtain ⟨⟨out, s₂⟩, hupdate, h⟩ := ok_of_bind h
      refine .inr ⟨hself, out, s₂, hupdate, ?_⟩
      dsimp only at h
      split_ifs at h with hout hget
      · cases h
        exact .inl ⟨hout, rfl, .inl rfl⟩
      · cases h
        exact .inl ⟨hget, rfl, .inr rfl⟩
      · exact .inr ⟨by omega, h⟩

/-- What is assumed of `update_refcount()` for a cluster that has just been found. -/
def CountsNew (g : Geometry) (update : Update) : Prop :=
  ∀ s s' n out, s.Consistent g → n < s.freeClusterIndex → s.refcount g n = 0 →
    update s (n * g.clusterSize : ℕ) g.clusterSize 1 = .ok (out, s') →
    ∃ m, n ∉ m ∧ Kept g [n] (n / g.blockClusters) s s' m ∧ (0 ≤ out.ret → s'.refcount g n ≠ 0) ∧
      ∀ i o, s'.blockAt i = some o → o / g.clusterSize ≠ n

/-- A free cluster is recorded. -/
lemma recorded_kept {io : List ℤ} {first : ℕ} (hs : s.Consistent g) (hn : s.freeClusterIndex ≤ n)
    (hzero : s.refcount g n = 0) : Kept g [] first s
      { s with freeClusterIndex := n + 1, io, metadata := n :: s.metadata } [n] where
  frame := by
    refine ⟨rfl, fun c hc => ?_, fun _ _ ho => ho, fun _ _ ho => .inl ho, fun c hc => .inl hc⟩
    obtain rfl := List.mem_singleton.mp hc
    exact .inl ⟨hn, hzero⟩
  refcount _ _ := rfl
  consistent := ⟨⟨hs.aligned, hs.distinct⟩, hs.counted, hs.header, hs.tableCounted, hs.apart,
    hs.headerApart⟩
  free := hn.trans (Nat.le_succ n)

/-- A block is written to a cluster that is not a block yet. -/
lemma setBlock_kept (refcounts : ℕ → ℕ) (first : ℕ) (hs : s.Consistent g)
    (hunused : ∀ i o, s.blockAt i = some o → o / g.clusterSize ≠ n) :
    Kept g [] first s (s.setBlock (n * g.clusterSize) refcounts) [] := by
  have hsame : s.SameTable (s.setBlock (n * g.clusterSize) refcounts) := ⟨rfl, rfl, rfl⟩
  have hcount (x : ℕ) :
      (s.setBlock (n * g.clusterSize) refcounts).refcount g x = s.refcount g x := by
    cases ho : s.blockAt (x / g.blockClusters) with
    | none =>
      rw [refcount_of_none ho]
      exact refcount_of_none ho
    | some o =>
      have hne : o ≠ n * g.clusterSize := by
        rintro rfl
        exact hunused _ _ ho (Nat.mul_div_cancel n g.clusterSize_pos)
      have hblock : (s.setBlock (n * g.clusterSize) refcounts).block o = s.block o :=
        Function.update_of_ne hne _ _
      rw [refcount_of_blockAt ho, ← hblock]
      exact refcount_of_blockAt ho
  refine ⟨hsame.frame, fun x _ => hcount x, hsame.consistent hs fun x hx _ => ?_, le_rfl⟩
  rwa [hcount]

/-- The cluster `n` has been found for the block that describes the cluster `c`. -/
structure Found (g : Geometry) (s : Image) (c n : ℕ) (s₁ : Image) : Prop where
  consistent : s.Consistent g
  missing : s.blockAt (c / g.blockClusters) = none
  allocated : c < s.freeClusterIndex
  behind : s.freeClusterIndex ≤ n
  free : s.refcount g n = 0
  state : ∃ io, s₁ = { s with freeClusterIndex := n + 1, io, metadata := n :: s.metadata }

namespace Found

variable {c : ℕ} {s₁ : Image}

lemma kept (h : Found g s c n s₁) : Kept g [] (c / g.blockClusters) s s₁ [n] := by
  obtain ⟨io, rfl⟩ := h.state
  exact recorded_kept h.consistent h.behind h.free

lemma blockAt (h : Found g s c n s₁) (i : ℕ) : s₁.blockAt i = s.blockAt i := by
  obtain ⟨io, rfl⟩ := h.state
  rfl

lemma lt_free (h : Found g s c n s₁) : n < s₁.freeClusterIndex := by
  obtain ⟨io, rfl⟩ := h.state
  exact Nat.lt_succ_self n

lemma refcount (h : Found g s c n s₁) : s₁.refcount g n = 0 := by
  obtain ⟨io, rfl⟩ := h.state
  exact h.free

lemma unused (h : Found g s c n s₁) {i o : ℕ} (ho : s₁.blockAt i = some o) :
    o / g.clusterSize ≠ n := by
  rintro rfl
  rw [h.blockAt] at ho
  exact h.consistent.counted i o ho h.free

lemma ne_zero (h : Found g s c n s₁) : n ≠ 0 := by
  rintro rfl
  exact h.consistent.header h.free

lemma not_mem_table (h : Found g s c n s₁) : n ∉ s₁.tableOf g := by
  obtain ⟨io, rfl⟩ := h.state
  exact fun hmem => h.consistent.tableCounted n hmem h.free

/-- The block describes itself. -/
lemma self (h : Found g s c n s₁) (hself : n / g.blockClusters = c / g.blockClusters) :
    Kept g [] (c / g.blockClusters) s (s₁.perform.2.setBlock (n * g.clusterSize)
      fun i => if i = n % g.blockClusters then 1 else 0) [n] ∧
    Initialized g (s₁.perform.2.setBlock (n * g.clusterSize)
      fun i => if i = n % g.blockClusters then 1 else 0) (c / g.blockClusters) n := by
  have hcons := h.kept.consistent
  have hset := Kept.of_io (s := s₁) (setBlock_kept (s := s₁.perform.2)
    (fun i => if i = n % g.blockClusters then 1 else 0) (c / g.blockClusters)
    ((sameRefcounts_io s₁ _).consistent hcons) fun _ _ => h.unused)
  exact ⟨h.kept.trans hset (List.nil_subset _) le_rfl, hset.consistent,
    (h.blockAt _).trans h.missing, h.ne_zero, h.lt_free, fun _ _ => h.unused, h.not_mem_table,
    .inl ⟨hself, fun i => by simp [setBlock]⟩⟩

/-- The block is described by another one, behind it. -/
lemma other {update : Update} {out : Outcome} {s₂ : Image} (h : Found g s c n s₁)
    (hcounts : CountsNew g update) (hother : n / g.blockClusters ≠ c / g.blockClusters)
    (hupdate : update s₁ (n * g.clusterSize : ℕ) g.clusterSize 1 = .ok (out, s₂)) :
    ∃ m, Kept g [] (c / g.blockClusters) s s₂ m ∧ n ∈ m ∧ (0 ≤ out.ret →
      Kept g [] (c / g.blockClusters) s
        (s₂.perform.2.setBlock (n * g.clusterSize) fun _ => 0) m ∧
      Initialized g (s₂.perform.2.setBlock (n * g.clusterSize) fun _ => 0)
        (c / g.blockClusters) n) := by
  have hcons := h.kept.consistent
  have hle : c / g.blockClusters ≤ n / g.blockClusters :=
    Nat.div_le_div_right (h.allocated.le.trans h.behind)
  obtain ⟨m, hm, hcounted, hpos, hunused₂⟩ := hcounts s₁ s₂ n out hcons h.lt_free h.refcount hupdate
  have hkept := h.kept.trans hcounted (by simp) hle
  refine ⟨m ++ [n], hkept, by simp, fun hret => ?_⟩
  have hset := Kept.of_io (s := s₂) (setBlock_kept (s := s₂.perform.2) (fun _ => 0)
    (c / g.blockClusters) ((sameRefcounts_io s₂ _).consistent hcounted.consistent) hunused₂)
  have hmissing : s₂.blockAt (c / g.blockClusters) = none := by
    cases ho : s₂.blockAt (c / g.blockClusters) with
    | none => rfl
    | some o =>
      obtain ho | ⟨-, hge⟩ := hcounted.frame.hooked _ _ ho
      · rw [h.blockAt, h.missing] at ho
        cases ho
      · omega
  have htable : n ∉ s₂.tableOf g := fun hmem =>
    (hcounted.frame.tables n hmem).elim h.not_mem_table hm
  have hlen : c / g.blockClusters < s₂.refcountTable.length := by
    obtain ⟨o, ho⟩ := blockAt_of_refcount (hpos hret)
    obtain ⟨-, hlt, -⟩ := blockAt_eq_some ho
    omega
  have hcount : (s₂.perform.2.setBlock (n * g.clusterSize) fun _ => 0).refcount g n ≠ 0 := by
    rw [hset.refcount n (by simp)]
    exact hpos hret
  exact ⟨hkept.trans hset (List.nil_subset _) le_rfl, hset.consistent, hmissing, h.ne_zero,
    lt_of_lt_of_le h.lt_free hcounted.free, hunused₂, htable,
    .inr ⟨hother, hcount, hlen, fun i => by simp [setBlock]⟩⟩

end Found

/-- `alloc_refcount_block()` for a cluster that has a block or has been found. -/
lemma allocRefcountBlock_kept {update : Update} {fuel c : ℕ} {ret : ℤ} {held : Option ℕ}
    (hranges : Ranges g update) (hcounts : CountsNew g update) (hs : s.Consistent g)
    (hc : (∃ o, s.blockAt (c / g.blockClusters) = some o) ∨ c < s.freeClusterIndex)
    (h : allocRefcountBlock g update fuel s c = .ok ((ret, held), s')) :
    ∃ m, Kept g [] (c / g.blockClusters) s s' m ∧ (ret < 0 ∧ held = none ∨
      0 ≤ ret ∧ ∃ o, held = some o ∧ s'.blockAt (c / g.blockClusters) = some o) := by
  have hio (s₂ : Image) (h₂ : s₂.Consistent g) : Kept g [] (c / g.blockClusters) s₂ s₂.perform.2 [] :=
    (sameRefcounts_io s₂ _).kept h₂ le_rfl
  cases hat : s.blockAt (c / g.blockClusters) with
  | some o =>
    rw [allocRefcountBlock_of_blockAt update fuel hs.toSeparate hat] at h
    split_ifs at h with hload
    · cases h
      exact ⟨[], hio s hs, .inl ⟨hload, rfl⟩⟩
    · cases h
      exact ⟨[], hio s hs, .inr ⟨by omega, o, rfl, hat⟩⟩
  | none =>
    have hlt : c < s.freeClusterIndex := hc.resolve_left fun ⟨o, ho⟩ => by
      rw [hat] at ho
      cases ho
    obtain ⟨hret, rfl, f, hf, io, rfl⟩ | ⟨n, hn, hzero, io, s₁, hs₁, hnext⟩ :=
      allocRefcountBlock_cases hat h
    · exact ⟨[], SameRefcounts.kept ⟨⟨rfl, rfl, rfl⟩, rfl⟩ hs hf, .inl ⟨hret, rfl⟩⟩
    have hfound : Found g s c n s₁ := ⟨hs, hat, hlt, hn, hzero, io, hs₁⟩
    obtain ⟨hself, ⟨hret, rfl, rfl⟩ | hhook⟩ | ⟨hother, out, s₂, hupdate, hnext⟩ := hnext
    · exact ⟨_, hfound.kept.trans (hio s₁ hfound.kept.consistent) (List.nil_subset _) le_rfl,
        .inl ⟨hret, rfl⟩⟩
    · obtain ⟨hset, hinit⟩ := hfound.self hself
      obtain ⟨m, hkept, hend⟩ := hookUp_kept hranges hinit hhook
      exact ⟨_, hset.trans hkept (by simp) le_rfl,
        hend.imp_right fun ⟨hret, hheld, ho⟩ => ⟨hret, _, hheld, ho⟩⟩
    · obtain ⟨m, hcounted, hnm, hset⟩ := hfound.other hcounts hother hupdate
      obtain ⟨hret, rfl, rfl | rfl⟩ | ⟨hret, hhook⟩ := hnext
      · exact ⟨_, hcounted, .inl ⟨hret, rfl⟩⟩
      · exact ⟨_, hcounted.trans (hio s₂ hcounted.consistent) (List.nil_subset _) le_rfl,
          .inl ⟨hret, rfl⟩⟩
      · obtain ⟨hset, hinit⟩ := hset hret
        obtain ⟨m', hkept, hend⟩ := hookUp_kept hranges hinit hhook
        exact ⟨_, hset.trans hkept (by simpa using hnm) le_rfl,
          hend.imp_right fun ⟨hret, hheld, ho⟩ => ⟨hret, _, hheld, ho⟩⟩

end Limbo.Qcow2.Clusters
