import Limbo.Lib.Run
import Limbo.Qcow2.AllocBytes

/-!
# The ranges of bytes

Every cluster that a returned range touches has been counted once for each range that touches it, as
long as no first allocation of a cluster fails, which stores the error as the free byte offset, no
update of a refcount is lost, and what a failed allocation has counted is undone.
-/

namespace Limbo.Qcow2.Clusters

open Image

variable {g : Geometry} {s s' : Image}

/-! ### A cluster is counted once more -/

lemma sizeToClusters_one (g : Geometry) : g.sizeToClusters 1 = 1 := by
  have hcs := g.clusterSize_pos
  rw [Geometry.sizeToClusters, Nat.add_sub_cancel' hcs, Nat.div_self hcs]

lemma inRange_byte {c x : ℕ} : InRange g (c * g.clusterSize : ℕ) (1 : ℕ) x ↔ x = c := by
  rw [inRange_mul, sizeToClusters_one]
  omega

/-- An update of one cluster that has a block, whose accesses do not fail. -/
lemma updateRefcount_one (fuel : ℕ) {c o : ℕ} (hs : s.Separate g)
    (ho : s.blockAt (c / g.blockClusters) = some o) (hget : 0 ≤ s.perform.1)
    (hput : 0 ≤ s.perform.2.perform.1) (hlt : s.refcount g c < 65535) :
    ∃ s', updateRefcount g (fuel + 1) s (c * g.clusterSize : ℕ) (1 : ℕ) 1 = .ok (⟨0, none⟩, s') := by
  have hcount : (lastCluster g (c * g.clusterSize : ℕ) (1 : ℕ) + 1 - c).toNat = 1 := by
    have hin := (inRange_byte (g := g) (c := c) (x := c)).mpr rfl
    have hout := mt (inRange_byte (g := g) (c := c) (x := c + 1)).mp (by omega)
    rw [InRange, firstCluster_mul] at hin hout
    omega
  have hnext : nextBlock g (allocRefcountBlock g (updateRefcount g fuel) fuel) s c (-1) none =
      .ok ((s.perform.1, some o), s.perform.2) := by
    have hne : (c : ℤ) / g.blockClusters ≠ -1 := by
      have : (0 : ℤ) ≤ (c : ℤ) / g.blockClusters := by positivity
      omega
    rw [nextBlock, if_pos hne]
    change (if (0 : ℤ) < 0 then _ else _) = _
    rw [if_neg (lt_irrefl 0), if_neg (show ¬ (c : ℤ) < 0 by omega), Int.toNat_natCast,
      allocRefcountBlock_of_blockAt _ _ hs ho, if_neg (not_lt.mpr hget)]
  have hmod : ((c : ℤ) % g.blockClusters).toNat = c % g.blockClusters := by
    rw [← Int.natCast_mod, Int.toNat_natCast]
  rw [refcount_of_blockAt ho] at hlt
  rw [updateRefcount, if_neg (by decide), if_neg (by decide)]
  dsimp only
  rw [firstCluster_mul, hcount, updateLoop, hnext]
  dsimp only [bind, Except.bind]
  rw [if_neg (not_lt.mpr hget)]
  have hblock : s.perform.2.block = s.block := rfl
  rw [hmod, hblock, if_neg (by omega), if_neg (by omega), updateLoop]
  simp only [putBlock, Option.isSome_some, ↓reduceIte]
  have hwret : ¬ (setRefcount s.perform.2 o (c % g.blockClusters)
      ((s.block o (c % g.blockClusters) : ℤ) + 1).toNat).perform.1 < 0 := not_lt.mpr hput
  rw [if_neg hwret, if_neg (lt_irrefl 0)]
  exact ⟨_, rfl⟩

/-- What `update_cluster_refcount(bs, c, 1)` does to an image where the cluster is counted. -/
structure Bumped (g : Geometry) (s s' : Image) (c : ℕ) : Prop where
  same : s.SameTable s'
  consistent : s'.Consistent g
  refcount : ∀ x, s'.refcount g x = s.refcount g x + if x = c then 1 else 0

lemma updateClusterRefcount_bumped {fuel c : ℕ} {ret : ℤ} {io : List ℤ} (hs : s.Consistent g)
    (hc : s.refcount g c ≠ 0) (hlt : s.refcount g c < 65535) (hio : ∀ r ∈ io, 0 ≤ r)
    (h : updateClusterRefcount g fuel { s with io } c 1 = .ok (ret, s')) : Bumped g s s' c := by
  obtain ⟨o, ho⟩ := blockAt_of_refcount hc
  have hsep := (sameRefcounts_io s io).separate hs.toSeparate
  have hhead (l : List ℤ) (hl : ∀ r ∈ l, 0 ≤ r) : 0 ≤ l.headD 0 := by
    cases l with
    | nil => exact le_rfl
    | cons r l => exact hl r List.mem_cons_self
  have hoff : (c : ℤ) * g.clusterSize = (c * g.clusterSize : ℕ) := by rw [Nat.cast_mul]
  rw [updateClusterRefcount, hoff] at h
  obtain ⟨⟨out, s₁⟩, hupdate, h⟩ := ok_of_bind h
  cases fuel with
  | zero => cases hupdate
  | succ fuel =>
    obtain ⟨s₂, hone⟩ := updateRefcount_one fuel hsep ho (hhead io hio)
      (hhead io.tail fun r hr => hio r (List.mem_of_mem_tail hr)) hlt
    have hranged := updateRefcount_present hsep (Int.natCast_nonneg _)
      (fun x hx => by
        obtain rfl := inRange_byte.mp hx
        exact ⟨o, ho⟩) hone
    rw [Nat.cast_one] at hone
    rw [hone] at hupdate
    cases hupdate
    have hcount (x : ℕ) : s₁.refcount g x = s.refcount g x + if x = c then 1 else 0 := by
      split_ifs with hx
      · have := hranged.done le_rfl x (inRange_byte.mpr hx)
        exact_mod_cast this
      · exact hranged.outside x fun hin => hx (inRange_byte.mp hin)
    have hsame : s.SameTable s₁ :=
      ⟨hranged.same.table, hranged.same.offset, hranged.same.metadata⟩
    obtain ⟨⟨io', hget⟩, -⟩ := getRefcount_cases (g := g) s₁ ((c : ℤ).toNat)
    have hs' : s' = { s₁ with io := io' } := by
      have h' : getRefcount g s₁ ((c : ℤ).toNat) = (ret, s') := Except.ok.inj h
      rw [← hget, h']
    subst hs'
    have hcons : s₁.Consistent g := hsame.consistent hs fun x hx _ => by
      rw [hcount]
      omega
    exact ⟨⟨hsame.table, hsame.offset, hsame.metadata⟩,
      (sameRefcounts_io s₁ io').consistent hcons, hcount⟩

/-! ### An allocation of clusters -/

instance (g : Geometry) (offset length : ℤ) (x : ℕ) : Decidable (InRange g offset length x) :=
  inferInstanceAs (Decidable (_ ∧ _ ∧ _))

/-- What a failed allocation has counted is undone. -/
def UndoneOnFailure (g : Geometry) (fuel : ℕ) (s : Image) (size : ℕ) : Prop :=
  ∀ ret out s', qcow2AllocClusters g fuel s size = .ok ((ret, out), s') → out.ret < 0 →
    ∃ n d, out.undo = some (n, d) ∧ (n ≤ 0 ∨ 0 ≤ d)

/-- The image stays consistent while clusters are recorded that were free or in the old table. -/
structure Recorded (g : Geometry) (s s' : Image) (m : List ℕ) : Prop where
  metadata : s'.metadata = m ++ s.metadata
  fresh : ∀ c ∈ m, s.freeClusterIndex ≤ c ∧ s.refcount g c = 0 ∨ c ∈ s.tableOf g
  tables : ∀ c ∈ s'.tableOf g, c ∈ s.tableOf g ∨ c ∈ m
  consistent : s'.Consistent g

/-- An allocation fails and leaves the refcounts, or the clusters of a range are counted that were
free. -/
lemma qcow2AllocClusters_spec {fuel size : ℕ} {ret : ℤ} {out : Outcome} (hs : s.Consistent g)
    (hundone : UndoneOnFailure g fuel s size)
    (h : qcow2AllocClusters g fuel s size = .ok ((ret, out), s')) :
    ∃ m, Recorded g s s' m ∧ (ret < 0 ∧ (∀ x ∉ m, s'.refcount g x = s.refcount g x) ∨
      ∃ n : ℕ, ret = (n * g.clusterSize : ℕ) ∧
        (∀ x, InRange g ret size x → s.refcount g x = 0 ∧ x ∉ m) ∧
        ∀ x ∉ m, s'.refcount g x = if InRange g ret size x then 1 else s.refcount g x) := by
  have hundone := hundone ret out s' h
  rw [qcow2AllocClusters] at h
  obtain ⟨⟨offset, s₁⟩, hfind, h⟩ := ok_of_bind h
  obtain ⟨f, io, rfl, hle, hfound⟩ := allocClustersNoref_spec hfind
  dsimp only at h
  by_cases hneg : offset < 0
  · rw [if_pos hneg] at h
    cases h
    exact ⟨[], ⟨rfl, fun c hc => absurd hc List.not_mem_nil, fun c hc => .inl hc,
      ⟨⟨hs.aligned, hs.distinct⟩, hs.counted, hs.header, hs.tableCounted, hs.apart,
        hs.headerApart⟩⟩, .inl ⟨hneg, fun _ _ => rfl⟩⟩
  obtain ⟨n, rfl, hn, rfl, hfree⟩ := hfound.resolve_left hneg
  rw [if_neg hneg] at h
  obtain ⟨⟨out', s₂⟩, hupdate, h⟩ := ok_of_bind h
  have hin (x : ℕ) (hx : InRange g (n * g.clusterSize : ℕ) size x) :
      x < n + g.sizeToClusters size ∧ s.refcount g x = 0 := by
    obtain ⟨hlow, hhigh⟩ := inRange_mul.mp hx
    exact ⟨hhigh, hfree x hlow hhigh⟩
  obtain ⟨m, hm⟩ := updateRefcount_attempted one_pos
    (s := { s with freeClusterIndex := n + g.sizeToClusters size, io })
    ⟨⟨hs.aligned, hs.distinct⟩, hs.counted, hs.header, hs.tableCounted, hs.apart, hs.headerApart⟩
    (Int.natCast_nonneg _) (fun x hx => .inr ⟨one_pos, (hin x hx).1⟩) hupdate
  have hfresh (c : ℕ) (hc : c ∈ m) :
      s.freeClusterIndex ≤ c ∧ s.refcount g c = 0 ∨ c ∈ s.tableOf g :=
    (hm.fresh c hc).imp_left fun ⟨hlow, hzero⟩ => ⟨hle.trans hlow, hzero⟩
  have hapart (x : ℕ) (hx : InRange g (n * g.clusterSize : ℕ) size x) : x ∉ m := by
    intro hxm
    obtain ⟨hlow, -⟩ | htable := hm.fresh x hxm
    · exact absurd (hin x hx).1 (not_lt.mpr hlow)
    · exact hs.tableCounted x htable (hin x hx).2
  dsimp only at h
  split_ifs at h with hret
  · cases h
    obtain ⟨hsame, hcons⟩ := hm.undone (.inr (hundone hret))
    exact ⟨m, ⟨hm.metadata, hfresh, hm.tables, hcons fun x hxm hx => hapart x hx hxm⟩,
      .inl ⟨hret, hsame⟩⟩
  · cases h
    obtain ⟨hcons, hdone⟩ := hm.done (not_lt.mp hret)
    refine ⟨m, ⟨hm.metadata, hfresh, hm.tables, hcons⟩, .inr ⟨n, rfl,
      fun x hx => ⟨(hin x hx).2, hapart x hx⟩, fun x hxm => ?_⟩⟩
    split_ifs with hx
    · have h₁ := hdone x hxm hx
      have h₂ : ({ s with freeClusterIndex := n + g.sizeToClusters size, io } : Image).refcount g x =
        0 := (hin x hx).2
      omega
    · exact hm.outside x hxm hx

/-! ### Ranges -/

/-- The clusters of a range. -/
def Touches (g : Geometry) (x : ℕ) (r : ℤ × ℤ) : Prop := InRange g r.1 r.2 x

instance (g : Geometry) (x : ℕ) : DecidablePred (Touches g x) := fun r =>
  inferInstanceAs (Decidable (InRange g r.1 r.2 x))

/-- Two ranges have no byte in common. -/
def Apart (r r' : ℤ × ℤ) : Prop :=
  ∀ p, r.1 ≤ p → p < r.1 + r.2 → ¬ (r'.1 ≤ p ∧ p < r'.1 + r'.2)

/-- The ranges are apart, and the clusters that they touch are counted once for each of them. -/
structure Held (g : Geometry) (s : Image) (ranges : List (ℤ × ℤ)) : Prop where
  consistent : s.Consistent g
  nonneg : ∀ r ∈ ranges, 0 ≤ r.1
  apart : ranges.Pairwise Apart
  counted : ∀ r ∈ ranges, ∀ x, Touches g x r → s.refcount g x = ranges.countP (Touches g x ·)
  table : ∀ r ∈ ranges, ∀ x, Touches g x r → x ∉ s.tableOf g

lemma touches_of_mem {r : ℤ × ℤ} {p : ℤ} (hr : 0 ≤ r.1) (hlow : r.1 ≤ p) (hhigh : p < r.1 + r.2) :
    Touches g (p / g.clusterSize).toNat r := by
  have hcs : (0 : ℤ) < g.clusterSize := by exact_mod_cast g.clusterSize_pos
  have hp : 0 ≤ p / g.clusterSize := Int.ediv_nonneg (by omega) hcs.le
  refine ⟨by omega, ?_, ?_⟩
  · rw [Int.toNat_of_nonneg hp]
    exact Int.ediv_le_ediv hcs hlow
  · rw [Int.toNat_of_nonneg hp]
    exact Int.ediv_le_ediv hcs (by omega)

/-- Ranges are apart if one ends before the other in each cluster that both touch. -/
lemma apart_of_touches {r r' : ℤ × ℤ} (hr : 0 ≤ r.1) (hr' : 0 ≤ r'.1)
    (h : ∀ x, Touches g x r → Touches g x r' → r'.1 + r'.2 ≤ r.1) : Apart r r' := by
  intro p hlow hhigh hmem
  have := h _ (touches_of_mem hr hlow hhigh) (touches_of_mem hr' hmem.1 hmem.2)
  omega

namespace Held

variable {ranges : List (ℤ × ℤ)} {r : ℤ × ℤ} {m : List ℕ} {x : ℕ}

lemma refcount_ne_zero (h : Held g s ranges) (hr : r ∈ ranges) (hx : Touches g x r) :
    s.refcount g x ≠ 0 := by
  rw [h.counted r hr x hx]
  exact (List.countP_pos_iff.mpr ⟨r, hr, decide_eq_true hx⟩).ne'

/-- A cluster that is touched is not recorded. -/
lemma not_mem (h : Held g s ranges) (hm : Recorded g s s' m) (hr : r ∈ ranges)
    (hx : Touches g x r) : x ∉ m := fun hmem =>
  (hm.fresh x hmem).elim (fun hfree => h.refcount_ne_zero hr hx hfree.2) (h.table r hr x hx)

lemma countP_eq_zero (h : Held g s ranges) (hx : s.refcount g x = 0) :
    ranges.countP (Touches g x ·) = 0 := by
  rw [List.countP_eq_zero]
  intro r hr htouch
  exact h.refcount_ne_zero hr (of_decide_eq_true htouch) hx

/-- An image with the same refcounts, but for metadata. -/
lemma of_recorded (h : Held g s ranges) (hm : Recorded g s s' m)
    (hsame : ∀ x ∉ m, s'.refcount g x = s.refcount g x) : Held g s' ranges where
  consistent := hm.consistent
  nonneg := h.nonneg
  apart := h.apart
  counted r hr x hx := by
    rw [hsame x (h.not_mem hm hr hx)]
    exact h.counted r hr x hx
  table r hr x hx hmem := (hm.tables x hmem).elim (h.table r hr x hx) (h.not_mem hm hr hx)

/-- A range is returned whose clusters have been counted once more. -/
lemma cons (h : Held g s ranges) (hm : Recorded g s s' m) (hr : 0 ≤ r.1)
    (hcount : ∀ x ∉ m, s'.refcount g x = s.refcount g x + if Touches g x r then 1 else 0)
    (hnew : ∀ x, Touches g x r → x ∉ m ∧ x ∉ s.tableOf g ∧
      s.refcount g x = ranges.countP (Touches g x ·))
    (hapart : ∀ r' ∈ ranges, Apart r r') : Held g s' (r :: ranges) where
  consistent := hm.consistent
  nonneg := by
    rw [List.forall_mem_cons]
    exact ⟨hr, h.nonneg⟩
  apart := List.pairwise_cons.mpr ⟨hapart, h.apart⟩
  counted := by
    have hall (x : ℕ) (hxm : x ∉ m) (hx : s.refcount g x = ranges.countP (Touches g x ·)) :
        s'.refcount g x = (r :: ranges).countP (Touches g x ·) := by
      rw [hcount x hxm, hx, List.countP_cons]
      simp only [decide_eq_true_eq]
    rw [List.forall_mem_cons]
    exact ⟨fun x hx => hall x (hnew x hx).1 (hnew x hx).2.2,
      fun r' hr' x hx => hall x (h.not_mem hm hr' hx) (h.counted r' hr' x hx)⟩
  table := by
    rw [List.forall_mem_cons]
    refine ⟨fun x hx hmem => (hm.tables x hmem).elim (hnew x hx).2.1 (hnew x hx).1,
      fun r' hr' x hx hmem => (hm.tables x hmem).elim (h.table r' hr' x hx) (h.not_mem hm hr' hx)⟩

end Held

end Limbo.Qcow2.Clusters
