import Limbo.Qcow2.RefcountRanges

/-!
# The allocation of refcount blocks

An image is consistent if its metadata is counted: the header, the refcount blocks and the refcount
table, which are apart. `alloc_refcount_block()` keeps an image consistent, also when it fails, and
changes no refcount but those of the clusters that are recorded as metadata meanwhile. They were free,
or they are those of the table that was replaced.
-/

namespace Limbo.Qcow2.Clusters

namespace Image

variable (g : Geometry)

/-- The metadata is counted, and its parts are apart. -/
structure Consistent (s : Image) : Prop extends s.Separate g where
  counted : ∀ t o, s.blockAt t = some o → s.refcount g (o / g.clusterSize) ≠ 0
  header : s.refcount g 0 ≠ 0
  tableCounted : ∀ c ∈ s.tableOf g, s.refcount g c ≠ 0
  apart : ∀ t o, s.blockAt t = some o → o / g.clusterSize ∉ s.tableOf g
  headerApart : 0 ∉ s.tableOf g

/-- What happens to the blocks while the clusters `recorded` are recorded: the blocks that were there
stay, and those that come are in these clusters or in `own`, for indices from `first` on. -/
structure Frame (own : List ℕ) (first : ℕ) (s s' : Image) (recorded : List ℕ) : Prop where
  metadata : s'.metadata = recorded ++ s.metadata
  fresh : ∀ c ∈ recorded, s.freeClusterIndex ≤ c ∧ s.refcount g c = 0 ∨ c ∈ s.tableOf g
  present : ∀ t o, s.blockAt t = some o → s'.blockAt t = some o
  hooked : ∀ t o, s'.blockAt t = some o →
    s.blockAt t = some o ∨ o / g.clusterSize ∈ own ++ recorded ∧ first ≤ t
  tables : ∀ c ∈ s'.tableOf g, c ∈ s.tableOf g ∨ c ∈ recorded

variable {g} {s s' s'' : Image} {own m m' : List ℕ} {first : ℕ}

lemma SameTable.tableOf (h : s.SameTable s') : s'.tableOf g = s.tableOf g := by
  rw [Image.tableOf, Image.tableOf, h.table, h.offset]

/-- Consistency is kept when the blocks are the same and those of the metadata stay counted. -/
lemma SameTable.consistent (h : s.SameTable s') (hs : s.Consistent g)
    (hcount : ∀ x, s.refcount g x ≠ 0 → x = 0 ∨ x ∈ s.tableOf g ∨
      (∃ t o, s.blockAt t = some o ∧ x = o / g.clusterSize) → s'.refcount g x ≠ 0) :
    s'.Consistent g where
  toSeparate := h.separate hs.toSeparate
  counted t o ho := by
    rw [h.blockAt] at ho
    exact hcount _ (hs.counted t o ho) (.inr (.inr ⟨t, o, ho, rfl⟩))
  header := hcount 0 hs.header (.inl rfl)
  tableCounted c hc := by
    rw [h.tableOf] at hc
    exact hcount c (hs.tableCounted c hc) (.inr (.inl hc))
  apart t o ho := by
    rw [h.tableOf]
    rw [h.blockAt] at ho
    exact hs.apart t o ho
  headerApart := by
    rw [h.tableOf]
    exact hs.headerApart

lemma SameRefcounts.consistent (h : s.SameRefcounts s') (hs : s.Consistent g) : s'.Consistent g :=
  h.toSameTable.consistent hs fun x hx _ => by rwa [h.refcount]

/-- No block is recorded. -/
lemma SameTable.frame (h : s.SameTable s') : Frame g own first s s' [] where
  metadata := h.metadata
  fresh c hc := absurd hc List.not_mem_nil
  present t o := by
    rw [h.blockAt]
    exact id
  hooked t o := by
    rw [h.blockAt]
    exact .inl
  tables c hc := by
    rw [h.tableOf] at hc
    exact .inl hc

/-- One after the other, if free clusters stay free unless they are recorded. -/
lemma Frame.trans {own' : List ℕ} {first' : ℕ} (h : Frame g own first s s' m)
    (h' : Frame g own' first' s' s'' m') (hown : own' ⊆ own ++ m) (hfirst : first ≤ first')
    (hfree : s.freeClusterIndex ≤ s'.freeClusterIndex)
    (hmono : ∀ x ∉ m, s.refcount g x ≤ s'.refcount g x) : Frame g own first s s'' (m' ++ m) where
  metadata := by rw [h'.metadata, h.metadata, List.append_assoc]
  fresh c hc := by
    by_cases hm : c ∈ m
    · exact h.fresh c hm
    · obtain ⟨hle, hzero⟩ | htable := h'.fresh c ((List.mem_append.mp hc).resolve_right hm)
      · have := hmono c hm
        exact .inl ⟨hfree.trans hle, by omega⟩
      · exact .inr ((h.tables c htable).resolve_right hm)
  present t o ho := h'.present t o (h.present t o ho)
  hooked t o ho := by
    obtain ho | ⟨hmem, hle⟩ := h'.hooked t o ho
    · obtain ho | ⟨hmem, hle⟩ := h.hooked t o ho
      · exact .inl ho
      · refine .inr ⟨?_, hle⟩
        simp only [List.mem_append] at hmem ⊢
        tauto
    · refine .inr ⟨?_, hfirst.trans hle⟩
      obtain hmem | hmem := List.mem_append.mp hmem
      · have := List.mem_append.mp (hown hmem)
        simp only [List.mem_append]
        tauto
      · simp [hmem]
  tables c hc := by
    obtain hc | hc := h'.tables c hc
    · obtain hc | hc := h.tables c hc
      · exact .inl hc
      · exact .inr (List.mem_append_right _ hc)
    · exact .inr (List.mem_append_left _ hc)

/-- A cluster that is in use and not in the table is not recorded, nor is one that is allocated and
not counted yet. -/
lemma Frame.not_mem (h : Frame g own first s s' m) {c : ℕ} (htable : c ∉ s.tableOf g)
    (hused : c < s.freeClusterIndex ∨ s.refcount g c ≠ 0) : c ∉ m := by
  intro hc
  obtain ⟨hle, hzero⟩ | hmem := h.fresh c hc
  · omega
  · exact htable hmem

end Image

open Image

variable {g : Geometry} {s s' : Image}

/-! ### Free clusters -/

lemma getRefcount_cases (s : Image) (c : ℕ) : (∃ io, (getRefcount g s c).2 = { s with io }) ∧
    ((getRefcount g s c).1 < 0 ∨ (getRefcount g s c).1 = s.refcount g c) := by
  by_cases hlen : c / g.blockClusters ≥ s.refcountTable.length
  · have hnone : s.blockAt (c / g.blockClusters) = none := if_pos (List.getD_eq_default _ _ hlen)
    rw [getRefcount, if_pos hlen, refcount_of_none hnone]
    exact ⟨⟨_, rfl⟩, .inr rfl⟩
  · rw [getRefcount, if_neg hlen]
    by_cases hzero : s.refcountTable.getD (c / g.blockClusters) 0 = 0
    · rw [if_pos hzero, refcount_of_none (if_pos hzero)]
      exact ⟨⟨_, rfl⟩, .inr rfl⟩
    · rw [if_neg hzero, refcount_of_blockAt (if_neg hzero)]
      dsimp only
      split_ifs with hget hput
      · exact ⟨⟨_, rfl⟩, .inl hget⟩
      · exact ⟨⟨_, rfl⟩, .inl hput⟩
      · exact ⟨⟨_, rfl⟩, .inr rfl⟩

/-- The clusters that are found follow each other and are free. -/
lemma findClusters_spec {nb fuel left k : ℕ} {ret : ℤ} (hleft : left ≤ nb)
    (hk : k + (nb - left) = s.freeClusterIndex)
    (hfound : ∀ c, k ≤ c → c < s.freeClusterIndex → s.refcount g c = 0)
    (h : findClusters g nb fuel left s = .ok (ret, s')) :
    ∃ f io, s' = { s with freeClusterIndex := f, io } ∧ s.freeClusterIndex ≤ f ∧
      (ret < 0 ∨ ∃ k', k ≤ k' ∧ k' + nb = f ∧ ∀ c, k' ≤ c → c < f → s.refcount g c = 0) := by
  induction fuel generalizing left k s with
  | zero => cases h
  | succ fuel ih =>
    cases left with
    | zero =>
      rw [findClusters] at h
      cases h
      exact ⟨_, _, rfl, le_rfl, .inr ⟨k, le_rfl, by omega, hfound⟩⟩
    | succ left =>
      obtain ⟨⟨io, hio⟩, hret⟩ := getRefcount_cases (g := g)
        { s with freeClusterIndex := s.freeClusterIndex + 1 } s.freeClusterIndex
      rw [findClusters] at h
      simp only [hio] at h
      split_ifs at h with hneg hused
      · cases h
        exact ⟨_, _, rfl, Nat.le_succ _, .inl hneg⟩
      · obtain ⟨f, io', rfl, hle, hend⟩ := ih (k := s.freeClusterIndex + 1) le_rfl
          (by dsimp only; omega) (fun c hc hlt => by dsimp only at hlt; omega) h
        exact ⟨f, io', rfl, (Nat.le_succ _).trans hle, hend.imp_right
          fun ⟨k', hk', hrest⟩ => ⟨k', by omega, hrest⟩⟩
      · have hzero : s.refcount g s.freeClusterIndex = 0 := by
          have := hret.resolve_left hneg
          rw [not_not.mp hused] at this
          exact_mod_cast this.symm
        have hfound' (c : ℕ) (hc : k ≤ c) (hlt : c < s.freeClusterIndex + 1) :
            s.refcount g c = 0 := by
          obtain hlt | rfl := Nat.lt_succ_iff_lt_or_eq.mp hlt
          · exact hfound c hc hlt
          · exact hzero
        obtain ⟨f, io', rfl, hle, hend⟩ := ih (k := k) (by omega) (by dsimp only; omega) hfound' h
        exact ⟨f, io', rfl, (Nat.le_succ _).trans hle, hend⟩

lemma allocClustersNoref_spec {size : ℕ} {ret : ℤ}
    (h : allocClustersNoref g s size = .ok (ret, s')) :
    ∃ f io, s' = { s with freeClusterIndex := f, io } ∧ s.freeClusterIndex ≤ f ∧
      (ret < 0 ∨ ∃ k : ℕ, ret = (k * g.clusterSize : ℕ) ∧ s.freeClusterIndex ≤ k ∧
        k + g.sizeToClusters size = f ∧ ∀ c, k ≤ c → c < f → s.refcount g c = 0) := by
  rw [allocClustersNoref] at h
  obtain ⟨⟨r, s₁⟩, hfind, h⟩ := ok_of_bind h
  obtain ⟨f, io, rfl, hle, hend⟩ := findClusters_spec (k := s.freeClusterIndex) le_rfl (by omega)
    (fun c hc hlt => by omega) hfind
  dsimp only at h
  split_ifs at h with hret
  · cases h
    exact ⟨f, io, rfl, hle, .inl hret⟩
  · cases h
    obtain ⟨k, hk, hf, hzero⟩ := hend.resolve_left hret
    refine ⟨f, io, rfl, hle, .inr ⟨k, ?_, hk, hf, hzero⟩⟩
    rw [← hf, Nat.add_sub_cancel]

/-! ### A block is hooked up -/

/-- An entry of the refcount table is set to a block. -/
lemma blockAt_set {t t' o : ℕ} (ht : t < s.refcountTable.length) (ho : o ≠ 0) :
    Image.blockAt { s with refcountTable := s.refcountTable.set t o } t' =
      if t' = t then some o else s.blockAt t' := by
  by_cases heq : t' = t
  · subst heq
    simp [blockAt, List.getD_eq_getElem?_getD, ht, ho]
  · simp [blockAt, List.getD_eq_getElem?_getD, heq, Ne.symm heq]

/-- The block in cluster `n` is hooked up. It describes itself, or `n` is counted already, and what
else it describes has not been in use. -/
lemma hook_spec (hs : s.Consistent g) {t n : ℕ} (ht : t < s.refcountTable.length)
    (hnone : s.blockAt t = none) (hn : n ≠ 0)
    (hunused : ∀ t' o, s.blockAt t' = some o → o / g.clusterSize ≠ n) (htable : n ∉ s.tableOf g)
    (hzero : ∀ x, x / g.blockClusters = t → x ≠ n →
      s.block (n * g.clusterSize) (x % g.blockClusters) = 0)
    (hcount : n / g.blockClusters = t ∧ s.block (n * g.clusterSize) (n % g.blockClusters) ≠ 0 ∨
      n / g.blockClusters ≠ t ∧ s.refcount g n ≠ 0)
    (hs' : s' = { s with refcountTable := s.refcountTable.set t (n * g.clusterSize) }) :
    Frame g [n] t s s' [] ∧ (∀ x ≠ n, s'.refcount g x = s.refcount g x) ∧ s'.Consistent g ∧
      s'.blockAt t = some (n * g.clusterSize) := by
  have hcs := g.clusterSize_pos
  have hoff : n * g.clusterSize ≠ 0 := mul_ne_zero hn hcs.ne'
  have hat (t' : ℕ) : s'.blockAt t' = if t' = t then some (n * g.clusterSize) else s.blockAt t' := by
    rw [hs']
    exact blockAt_set ht hoff
  have hblock : s'.block = s.block := by rw [hs']
  have htableOf : s'.tableOf g = s.tableOf g := by
    rw [hs', tableOf, tableOf]
    simp
  have hrefcount (x : ℕ) : s'.refcount g x = if x / g.blockClusters = t then
      s.block (n * g.clusterSize) (x % g.blockClusters) else s.refcount g x := by
    rw [refcount, hat, hblock]
    split_ifs with hx
    · rfl
    · rfl
  have hother (x : ℕ) (hx : x ≠ n) : s'.refcount g x = s.refcount g x := by
    rw [hrefcount]
    split_ifs with hdiv
    · rw [hzero x hdiv hx, refcount_of_none (by rw [hdiv, hnone])]
    · rfl
  have hn' : s'.refcount g n ≠ 0 := by
    rw [hrefcount]
    obtain ⟨hdiv, hcount⟩ | ⟨hdiv, hcount⟩ := hcount
    · rwa [if_pos hdiv]
    · rwa [if_neg hdiv]
  have hused (x : ℕ) (hx : s.refcount g x ≠ 0) : s'.refcount g x ≠ 0 := by
    by_cases hxn : x = n
    · rwa [hxn]
    · rwa [hother x hxn]
  have hcases (t' o : ℕ) (ho : s'.blockAt t' = some o) :
      s.blockAt t' = some o ∨ t' = t ∧ o = n * g.clusterSize := by
    rw [hat] at ho
    split_ifs at ho with heq
    · exact .inr ⟨heq, (Option.some.inj ho).symm⟩
    · exact .inl ho
  have hdiv : n * g.clusterSize / g.clusterSize = n := Nat.mul_div_cancel n hcs
  have hpresent (t' o : ℕ) (ho : s.blockAt t' = some o) : s'.blockAt t' = some o := by
    rw [hat, if_neg, ho]
    rintro rfl
    rw [hnone] at ho
    cases ho
  refine ⟨⟨by rw [hs']; rfl, fun c hc => absurd hc List.not_mem_nil, hpresent, fun t' o ho => ?_,
    fun c hc => .inl (htableOf ▸ hc)⟩, hother, ⟨⟨fun t' o ho => ?_, fun t₁ t₂ o h₁ h₂ => ?_⟩,
    fun t' o ho => ?_, hused 0 hs.header, fun c hc => ?_, fun t' o ho => ?_, ?_⟩, ?_⟩
  · obtain ho | ⟨rfl, rfl⟩ := hcases t' o ho
    · exact .inl ho
    · exact .inr ⟨by simp [hdiv], le_rfl⟩
  · obtain ho | ⟨rfl, rfl⟩ := hcases t' o ho
    · exact hs.aligned t' o ho
    · exact dvd_mul_left _ _
  · obtain h₁ | ⟨rfl, rfl⟩ := hcases t₁ o h₁
    · obtain h₂ | ⟨rfl, rfl⟩ := hcases t₂ o h₂
      · exact hs.distinct t₁ t₂ o h₁ h₂
      · exact absurd hdiv (hunused t₁ _ h₁)
    · obtain h₂ | ⟨rfl, -⟩ := hcases t₂ _ h₂
      · exact absurd hdiv (hunused t₂ _ h₂)
      · rfl
  · obtain ho | ⟨rfl, rfl⟩ := hcases t' o ho
    · exact hused _ (hs.counted t' o ho)
    · rwa [hdiv]
  · rw [htableOf] at hc
    exact hused c (hs.tableCounted c hc)
  · rw [htableOf]
    obtain ho | ⟨rfl, rfl⟩ := hcases t' o ho
    · exact hs.apart t' o ho
    · rwa [hdiv]
  · rw [htableOf]
    exact hs.headerApart
  · rw [hat, if_pos rfl]

end Limbo.Qcow2.Clusters
