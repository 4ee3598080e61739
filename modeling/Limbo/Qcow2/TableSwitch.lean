import Limbo.Qcow2.RefcountBlocks

/-!
# The switch to a larger refcount table

The new table and the blocks that describe it are placed behind the clusters in use, from a cluster on
that is the first one of a block. The entries of the old table stay, the new blocks count themselves
and the new table, and then the clusters of the old table are freed.
-/

namespace Limbo.Qcow2.Clusters

open Image

variable {g : Geometry} {s s' : Image} {t n tableSize blocksClusters : ℕ}

/-- The clusters that are in use are described by the blocks before the new ones. -/
lemma freeClusterIndex_le (g : Geometry) (s : Image) :
    s.freeClusterIndex ≤ blocksUsed g s * g.blockClusters := by
  have hdiv := Nat.lt_div_mul_add (a := s.freeClusterIndex + g.blockClusters - 1) g.blockClusters_pos
  have hpos := g.blockClusters_pos
  rw [blocksUsed]
  omega

/-- The number of clusters of the new blocks and the new table. -/
def metaCount (g : Geometry) (tableSize blocksClusters : ℕ) : ℕ :=
  g.sizeToClusters (tableSize * 8) + blocksClusters

/-- What `growTable` is called for: a block that describes itself, for the index `t` behind the end of
the table, and the sizes are large enough. -/
structure Growing (g : Geometry) (s : Image) (t n tableSize blocksClusters : ℕ) : Prop where
  consistent : s.Consistent g
  behind : s.refcountTable.length ≤ t
  describes : n / g.blockClusters = t
  allocated : n < s.freeClusterIndex
  block : ∀ i, s.block (n * g.clusterSize) i = if i = n % g.blockClusters then 1 else 0
  old : s.refcountTable.length ≤ tableSize
  new : t < tableSize
  blocks : blocksUsed g s + blocksClusters ≤ tableSize
  fits : metaCount g tableSize blocksClusters ≤ blocksClusters * g.blockClusters

namespace Growing

lemma lt_blocksUsed (h : Growing g s t n tableSize blocksClusters) : t < blocksUsed g s := by
  have hlt := lt_of_lt_of_le h.allocated (freeClusterIndex_le g s)
  rw [← h.describes]
  exact Nat.div_lt_of_lt_mul (by rwa [mul_comm])

/-- A block that has an entry is in front of the new ones. -/
lemma lt_of_blockAt (h : Growing g s t n tableSize blocksClusters) {t' o : ℕ}
    (ho : s.blockAt t' = some o) : o / g.clusterSize < t * g.blockClusters := by
  obtain ⟨o', ho'⟩ := blockAt_of_refcount (h.consistent.counted t' o ho)
  obtain ⟨-, hlt, -⟩ := blockAt_eq_some ho'
  exact (Nat.div_lt_iff_lt_mul g.blockClusters_pos).mp (lt_of_lt_of_le hlt h.behind)

lemma refcount_eq_zero (h : Growing g s t n tableSize blocksClusters) {x : ℕ}
    (hx : t ≤ x / g.blockClusters) : s.refcount g x = 0 := by
  by_contra hne
  obtain ⟨o, ho⟩ := blockAt_of_refcount hne
  obtain ⟨-, hlt, -⟩ := blockAt_eq_some ho
  have := h.behind
  omega

lemma mul_le (h : Growing g s t n tableSize blocksClusters) : t * g.blockClusters ≤ n := by
  rw [← h.describes]
  exact Nat.div_mul_le_self _ _

lemma blockAt_none (h : Growing g s t n tableSize blocksClusters) {t' : ℕ} (ht : t ≤ t') :
    s.blockAt t' = none := by
  cases ho : s.blockAt t' with
  | none => rfl
  | some o =>
    obtain ⟨-, hlt, -⟩ := blockAt_eq_some ho
    have := h.behind
    omega

end Growing

/-- The cluster of the first new block. -/
def metaCluster (g : Geometry) (s : Image) : ℕ := blocksUsed g s * g.blockClusters

/-- The image with the new table, before the clusters of the old one are freed. -/
structure Switched (g : Geometry) (s s' : Image) (t n tableSize blocksClusters : ℕ) : Prop where
  table : s'.refcountTable = newTable g s t n tableSize blocksClusters
  offset : s'.refcountTableOffset = (metaCluster g s + blocksClusters) * g.clusterSize
  block : s'.block =
    (writeBlocks g s (metaCluster g s) blocksClusters (metaCount g tableSize blocksClusters)).block

namespace Switched

lemma blockAt (h : Switched g s s' t n tableSize blocksClusters)
    (hg : Growing g s t n tableSize blocksClusters) (i : ℕ) :
    s'.blockAt i = if blocksUsed g s ≤ i ∧ i < blocksUsed g s + blocksClusters then
      some ((metaCluster g s + (i - blocksUsed g s)) * g.clusterSize)
      else if i = t then some (n * g.clusterSize) else s.blockAt i := by
  have hcs := g.clusterSize_pos
  have hlt := hg.lt_blocksUsed
  have hn : n ≠ 0 := by
    rintro rfl
    exact hg.consistent.header (hg.refcount_eq_zero hg.describes.ge)
  have hmeta : metaCluster g s ≠ 0 := by
    have := lt_of_lt_of_le hg.allocated (freeClusterIndex_le g s)
    rw [metaCluster]
    omega
  have hget : s'.refcountTable.getD i 0 =
      if blocksUsed g s ≤ i ∧ i < blocksUsed g s + blocksClusters then
        (metaCluster g s + (i - blocksUsed g s)) * g.clusterSize
      else if i = t then n * g.clusterSize else s.refcountTable.getD i 0 := by
    rw [h.table, newTable, List.getD_eq_getElem?_getD, List.getElem?_map]
    by_cases hi : i < tableSize
    · rw [List.getElem?_range hi]
      rfl
    · have hold := hg.old
      have hnew := hg.new
      have hblocks := hg.blocks
      rw [List.getElem?_eq_none (by simpa using hi), if_neg (by omega), if_neg (by omega),
        List.getD_eq_default _ _ (by omega)]
      rfl
  rw [Image.blockAt, hget]
  split_ifs with h₁ h₂ h₃ h₄ h₅
  · simp only [mul_eq_zero] at h₂
    omega
  · rfl
  · simp only [mul_eq_zero] at h₄
    omega
  · rfl
  · rw [Image.blockAt, if_pos h₅]
  · rw [Image.blockAt, if_neg h₅]

lemma lt_metaCluster (hg : Growing g s t n tableSize blocksClusters) : n < metaCluster g s :=
  lt_of_lt_of_le hg.allocated (freeClusterIndex_le g s)

/-- A cluster behind those in use has refcount 1 in the new blocks if it is one of theirs or of the
new table. -/
lemma refcount (h : Switched g s s' t n tableSize blocksClusters)
    (hg : Growing g s t n tableSize blocksClusters) (x : ℕ) :
    s'.refcount g x = if metaCluster g s ≤ x ∧
      x < metaCluster g s + metaCount g tableSize blocksClusters ∨ x = n then 1
      else s.refcount g x := by
  have hB := g.blockClusters_pos
  have hcs := g.clusterSize_pos
  have hlt := hg.lt_blocksUsed
  have hn := lt_metaCluster hg
  have hlow : metaCluster g s ≤ x ↔ blocksUsed g s ≤ x / g.blockClusters :=
    (Nat.le_div_iff_mul_le hB).symm
  have hhigh : x < metaCluster g s + blocksClusters * g.blockClusters ↔
      x / g.blockClusters < blocksUsed g s + blocksClusters := by
    rw [Nat.div_lt_iff_lt_mul hB, add_mul, metaCluster]
  have hx := Nat.div_add_mod' x g.blockClusters
  have hfits := hg.fits
  rw [Image.refcount, h.blockAt hg, h.block]
  by_cases hmeta : blocksUsed g s ≤ x / g.blockClusters ∧
      x / g.blockClusters < blocksUsed g s + blocksClusters
  · -- a new block
    have hdiv : (metaCluster g s + (x / g.blockClusters - blocksUsed g s)) * g.clusterSize /
        g.clusterSize = metaCluster g s + (x / g.blockClusters - blocksUsed g s) :=
      Nat.mul_div_cancel _ hcs
    have hmul : (x / g.blockClusters - blocksUsed g s) * g.blockClusters =
        x / g.blockClusters * g.blockClusters - metaCluster g s := Nat.sub_mul _ _ _
    have hstart : metaCluster g s ≤ x / g.blockClusters * g.blockClusters :=
      Nat.mul_le_mul_right _ hmeta.1
    rw [if_pos hmeta, Option.elim_some, writeBlocks]
    dsimp only
    rw [if_pos ⟨Nat.mul_mod_left _ _, by omega, by omega⟩, hdiv, Nat.add_sub_cancel_left, hmul,
      hg.refcount_eq_zero (by omega)]
    congr 1
    rw [eq_iff_iff]
    generalize x / g.blockClusters * g.blockClusters = start at hx hmul hstart ⊢
    omega
  · rw [if_neg hmeta]
    have hout : ¬ (metaCluster g s ≤ x ∧
        x < metaCluster g s + metaCount g tableSize blocksClusters) := fun hin =>
      hmeta ⟨hlow.mp hin.1, hhigh.mp (by omega)⟩
    have hold {o : ℕ} (ho : o / g.clusterSize < metaCluster g s) (i : ℕ) :
        (writeBlocks g s (metaCluster g s) blocksClusters
          (metaCount g tableSize blocksClusters)).block o i = s.block o i :=
      if_neg (by omega)
    by_cases hone : x / g.blockClusters = t
    · -- the block that describes itself
      rw [if_pos hone, Option.elim_some, hold (by rwa [Nat.mul_div_cancel _ hcs]), hg.block,
        hg.refcount_eq_zero hone.ge]
      have hxn : x % g.blockClusters = n % g.blockClusters ↔ x = n := by
        refine ⟨fun hmod => ?_, fun heq => by rw [heq]⟩
        rw [← Nat.div_add_mod x g.blockClusters, hone, hmod, ← hg.describes, Nat.div_add_mod]
      simp only [hxn, hout, false_or]
    · have hxn : x ≠ n := by
        rintro rfl
        exact hone hg.describes
      rw [if_neg hone, if_neg (by tauto)]
      cases ho : s.blockAt (x / g.blockClusters) with
      | none => rw [Option.elim_none, refcount_of_none ho]
      | some o =>
        have hlt' := hg.lt_of_blockAt ho
        have hmul := hg.mul_le
        rw [Option.elim_some, hold (by omega), refcount_of_blockAt ho]

lemma cases_blockAt (h : Switched g s s' t n tableSize blocksClusters)
    (hg : Growing g s t n tableSize blocksClusters) {i o : ℕ} (ho : s'.blockAt i = some o) :
    s.blockAt i = some o ∨ i = t ∧ o = n * g.clusterSize ∨
      ∃ j < blocksClusters, i = blocksUsed g s + j ∧ o = (metaCluster g s + j) * g.clusterSize := by
  rw [h.blockAt hg] at ho
  split_ifs at ho with hmeta hone
  · exact .inr (.inr ⟨i - blocksUsed g s, by omega, by omega, (Option.some.inj ho).symm⟩)
  · exact .inr (.inl ⟨hone, (Option.some.inj ho).symm⟩)
  · exact .inl ho

lemma mem_tableOf (h : Switched g s s' t n tableSize blocksClusters)
    (hg : Growing g s t n tableSize blocksClusters) (c : ℕ) :
    c ∈ s'.tableOf g ↔ metaCluster g s + blocksClusters ≤ c ∧
      c < metaCluster g s + metaCount g tableSize blocksClusters := by
  have hcs := g.clusterSize_pos
  have hnew := hg.new
  have hlen : s'.refcountTable.length = tableSize := by
    rw [h.table, newTable, List.length_map, List.length_range]
  have hfirst : (metaCluster g s + blocksClusters) * g.clusterSize / g.clusterSize =
      metaCluster g s + blocksClusters := Nat.mul_div_cancel _ hcs
  have hlast : ((metaCluster g s + blocksClusters) * g.clusterSize + tableSize * 8 - 1) /
      g.clusterSize = metaCluster g s + blocksClusters + (tableSize * 8 - 1) / g.clusterSize := by
    rw [Nat.add_sub_assoc (by omega), Nat.add_comm, Nat.add_mul_div_right _ _ hcs, Nat.add_comm]
  have hsize : g.sizeToClusters (tableSize * 8) = (tableSize * 8 - 1) / g.clusterSize + 1 := by
    rw [Geometry.sizeToClusters, ← Nat.add_div_right _ hcs]
    congr 1
    omega
  rw [tableOf, mem_tableClusters, hlen, h.offset, hfirst, hlast, metaCount, hsize]
  omega

/-- The clusters of the new blocks and the new table have not been in use. -/
lemma refcount_meta (hg : Growing g s t n tableSize blocksClusters) {c : ℕ}
    (hc : metaCluster g s ≤ c) : s.refcount g c = 0 := by
  refine hg.refcount_eq_zero (hg.lt_blocksUsed.le.trans ?_)
  exact (Nat.le_div_iff_mul_le g.blockClusters_pos).mpr hc

lemma le_metaCluster (hg : Growing g s t n tableSize blocksClusters) {i o : ℕ}
    (ho : s.blockAt i = some o) : o / g.clusterSize < metaCluster g s := by
  have hlt := hg.lt_of_blockAt ho
  have hmul := hg.mul_le
  have hn := lt_metaCluster hg
  omega

lemma consistent (h : Switched g s s' t n tableSize blocksClusters)
    (hg : Growing g s t n tableSize blocksClusters)
    (hunused : ∀ i o, s.blockAt i = some o → o / g.clusterSize ≠ n) : s'.Consistent g := by
  have hcs := g.clusterSize_pos
  have hs := hg.consistent
  have hn := lt_metaCluster hg
  have hdiv (k : ℕ) : k * g.clusterSize / g.clusterSize = k := Nat.mul_div_cancel k hcs
  have hused (x : ℕ) (hx : s.refcount g x ≠ 0) : s'.refcount g x ≠ 0 := by
    rw [h.refcount hg]
    split_ifs
    · exact one_ne_zero
    · exact hx
  have hcount (x : ℕ) (hlow : metaCluster g s ≤ x)
      (hhigh : x < metaCluster g s + metaCount g tableSize blocksClusters) :
      s'.refcount g x ≠ 0 := by
    rw [h.refcount hg, if_pos (.inl ⟨hlow, hhigh⟩)]
    exact one_ne_zero
  have hblocks : blocksClusters ≤ metaCount g tableSize blocksClusters := Nat.le_add_left _ _
  have hlt (i o : ℕ) (ho : s.blockAt i = some o) := le_metaCluster hg ho
  refine ⟨⟨fun i o ho => ?_, fun i i' o ho ho' => ?_⟩, fun i o ho => ?_, hused 0 hs.header,
    fun c hc => ?_, fun i o ho => ?_, ?_⟩
  · obtain ho | ⟨-, rfl⟩ | ⟨j, -, -, rfl⟩ := h.cases_blockAt hg ho
    · exact hs.aligned i o ho
    · exact dvd_mul_left _ _
    · exact dvd_mul_left _ _
  · obtain ho | ⟨rfl, rfl⟩ | ⟨j, hj, rfl, rfl⟩ := h.cases_blockAt hg ho
    · obtain ho' | ⟨rfl, rfl⟩ | ⟨j', hj', rfl, rfl⟩ := h.cases_blockAt hg ho'
      · exact hs.distinct i i' o ho ho'
      · exact absurd (hdiv n) (hunused i _ ho)
      · have := hlt i _ ho
        rw [hdiv] at this
        omega
    · obtain ho' | ⟨rfl, -⟩ | ⟨j', hj', rfl, heq⟩ := h.cases_blockAt hg ho'
      · exact absurd (hdiv n) (hunused i' _ ho')
      · rfl
      · have := Nat.eq_of_mul_eq_mul_right hcs heq
        omega
    · obtain ho' | ⟨rfl, heq⟩ | ⟨j', hj', rfl, heq⟩ := h.cases_blockAt hg ho'
      · have := hlt i' _ ho'
        rw [hdiv] at this
        omega
      · have := Nat.eq_of_mul_eq_mul_right hcs heq
        omega
      · have := Nat.eq_of_mul_eq_mul_right hcs heq
        omega
  · obtain ho | ⟨-, rfl⟩ | ⟨j, hj, -, rfl⟩ := h.cases_blockAt hg ho
    · exact hused _ (hs.counted i o ho)
    · rw [hdiv, h.refcount hg, if_pos (.inr rfl)]
      exact one_ne_zero
    · rw [hdiv]
      exact hcount _ (by omega) (by omega)
  · rw [h.mem_tableOf hg] at hc
    exact hcount c (by omega) hc.2
  · rw [h.mem_tableOf hg]
    obtain ho | ⟨-, rfl⟩ | ⟨j, hj, -, rfl⟩ := h.cases_blockAt hg ho
    · have := hlt i o ho
      omega
    · rw [hdiv]
      omega
    · rw [hdiv]
      omega
  · rw [h.mem_tableOf hg]
    omega

end Switched

/-! ### Growing -/

/-- The clusters of the new blocks and the new table. -/
def metaClusters (g : Geometry) (s : Image) (tableSize blocksClusters : ℕ) : List ℕ :=
  (List.range (blocksClusters + g.sizeToClusters (tableSize * 8))).map (metaCluster g s + ·)

lemma mem_metaClusters {c : ℕ} : c ∈ metaClusters g s tableSize blocksClusters ↔
    metaCluster g s ≤ c ∧ c < metaCluster g s + metaCount g tableSize blocksClusters := by
  simp only [metaClusters, List.mem_map, List.mem_range, metaCount]
  refine ⟨?_, fun h => ⟨c - metaCluster g s, by omega, by omega⟩⟩
  rintro ⟨i, hi, rfl⟩
  omega

/-- How `growTable` ends: an access fails, or the table is switched and the old one is freed. -/
lemma growTable_cases {update : Update} {fuel : ℕ} {ret : ℤ} {held : Option ℕ}
    (h : growTable g update fuel s t n = .ok ((ret, held), s')) :
    ∃ tableSize blocksClusters, newTableSize g fuel s = some (tableSize, blocksClusters) ∧
      s.refcountTable.length ≤ tableSize ∧ t < tableSize ∧
      blocksUsed g s + blocksClusters ≤ tableSize ∧
      metaCount g tableSize blocksClusters ≤ blocksClusters * g.blockClusters ∧
      ((ret < 0 ∧ held = none ∧ ∃ io, s' = { s with io } ∨
          s' = { writeBlocks g s (metaCluster g s) blocksClusters
            (metaCount g tableSize blocksClusters) with io }) ∨
        ∃ s₂ s₃ out io, Switched g s s₂ t n tableSize blocksClusters ∧
          s₂.metadata = s.tableOf g ++ metaClusters g s tableSize blocksClusters ++ s.metadata ∧
          update s₂ s.refcountTableOffset (s.refcountTable.length * 8) (-1) = .ok (out, s₃) ∧
          s' = { s₃ with freeClusterIndex := s.freeClusterIndex, io } ∧
          (ret < 0 ∧ held = none ∨ ret = 0 ∧ held = some (n * g.clusterSize))) := by
  rw [growTable] at h
  cases hsize : newTableSize g fuel s with
  | none =>
    rw [hsize] at h
    cases h
  | some sizes =>
    obtain ⟨tableSize, blocksClusters⟩ := sizes
    rw [hsize] at h
    dsimp only at h
    split_ifs at h with hassert hbounds hfits hblocks htable hheader
    · refine ⟨tableSize, blocksClusters, rfl, by omega, by omega, by omega, not_lt.mp hfits, ?_⟩
      cases h
      exact .inl ⟨hblocks, rfl, _, .inl rfl⟩
    · refine ⟨tableSize, blocksClusters, rfl, by omega, by omega, by omega, not_lt.mp hfits, ?_⟩
      cases h
      exact .inl ⟨htable, rfl, _, .inr rfl⟩
    · refine ⟨tableSize, blocksClusters, rfl, by omega, by omega, by omega, not_lt.mp hfits, ?_⟩
      cases h
      exact .inl ⟨hheader, rfl, _, .inr rfl⟩
    · refine ⟨tableSize, blocksClusters, rfl, by omega, by omega, by omega, not_lt.mp hfits, .inr ?_⟩
      obtain ⟨⟨out, s₃⟩, hupdate, h⟩ := ok_of_bind h
      generalize hs₂ : Image.mk _ _ _ _ _ _ = s₂ at hupdate
      have hswitched : Switched g s s₂ t n tableSize blocksClusters := by
        subst hs₂
        exact ⟨rfl, rfl, rfl⟩
      have hmeta : s₂.metadata =
          s.tableOf g ++ metaClusters g s tableSize blocksClusters ++ s.metadata := by
        subst hs₂
        rfl
      dsimp only at h
      split_ifs at h with hload
      · cases h
        exact ⟨s₂, s₃, out, _, hswitched, hmeta, hupdate, rfl, .inl ⟨hload, rfl⟩⟩
      · cases h
        exact ⟨s₂, s₃, out, _, hswitched, hmeta, hupdate, rfl, .inr ⟨rfl, rfl⟩⟩

end Limbo.Qcow2.Clusters
