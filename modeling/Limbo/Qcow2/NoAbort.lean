import Limbo.Qcow2.ByteRuns
import Limbo.Qcow2.TableGrowth

/-!
# Allocations do not abort

`abort()` is called where a block that is not in the cache is marked dirty, and where the assertion on
the place of a larger refcount table fails. Neither happens while clusters are allocated.
-/

namespace Limbo.Qcow2.Clusters

open Image

variable {g : Geometry} {s s' : Image}

/-- A step that calls `abort()`. -/
def Aborts {α : Type} (x : Except Fault α) : Prop := x = .error .abort

variable {α β : Type} {x : Except Fault α} {f : α → Except Fault β}

lemma not_aborts_ok (a : α) : ¬ Aborts (.ok a : Except Fault α) := fun h => by cases h

lemma not_aborts_bind (hx : ¬ Aborts x) (hf : ∀ a, x = .ok a → ¬ Aborts (f a)) :
    ¬ Aborts (x >>= f) := by
  cases x with
  | error e => exact fun h => hx (congrArg Except.error (Except.error.inj h))
  | ok a => exact hf a rfl

/-! ### Free clusters -/

lemma not_aborts_findClusters {nb fuel left : ℕ} : ¬ Aborts (findClusters g nb fuel left s) := by
  induction fuel generalizing left s with
  | zero => exact fun h => by cases h
  | succ fuel ih =>
    cases left with
    | zero => exact not_aborts_ok _
    | succ left =>
      rw [findClusters]
      dsimp only
      split_ifs
      · exact not_aborts_ok _
      · exact ih
      · exact ih

lemma not_aborts_allocClustersNoref {size : ℕ} : ¬ Aborts (allocClustersNoref g s size) := by
  refine not_aborts_bind not_aborts_findClusters fun a _ => ?_
  dsimp only
  split_ifs <;> exact not_aborts_ok _

/-! ### Refcount blocks -/

lemma not_aborts_updateRefcount_present {fuel : ℕ} {offset length a : ℤ} (hs : s.Separate g)
    (hoff : 0 ≤ offset)
    (hrange : ∀ x, InRange g offset length x → ∃ o, s.blockAt (x / g.blockClusters) = some o) :
    ¬ Aborts (updateRefcount g fuel s offset length a) := by
  have hor : (∃ r, updateRefcount g fuel s offset length a = .ok r) ∨ _ :=
    updateRefcount_ok_or hs hoff hrange
  obtain ⟨r, hr⟩ | ⟨-, hr⟩ := hor
  · rw [hr]
    exact not_aborts_ok r
  · rw [hr]
    exact fun h => by cases h

lemma not_aborts_growTable {fuel fuel' t n : ℕ} (hi : Initialized g s t n)
    (hlen : s.refcountTable.length ≤ t) :
    ¬ Aborts (growTable g (updateRefcount g fuel) fuel' s t n) := by
  have hassert := freeClusterIndex_le g s
  rw [growTable]
  cases hsize : newTableSize g fuel' s with
  | none => exact fun h => by cases h
  | some sizes =>
    obtain ⟨tableSize, blocksClusters⟩ := sizes
    dsimp only
    rw [if_neg (by omega)]
    split_ifs with hbounds hfits
    · exact fun h => by cases h
    · exact fun h => by cases h
    · exact not_aborts_ok _
    · exact not_aborts_ok _
    · exact not_aborts_ok _
    · have hg : Growing g s t n tableSize blocksClusters :=
        hi.growing hlen (by omega) (by omega) (by omega) (not_lt.mp hfits)
      generalize hs₂ : Image.mk _ _ _ _ _ _ = s₂
      have hsw : Switched g s s₂ t n tableSize blocksClusters := by
        subst hs₂
        exact ⟨rfl, rfl, rfl⟩
      have hrange : ∀ x, InRange g (s.refcountTableOffset : ℤ) _ x →
          ∃ o, s₂.blockAt (x / g.blockClusters) = some o :=
        fun x => hsw.blockAt_oldTable hg
      have hfree : ¬ Aborts (updateRefcount g fuel s₂ s.refcountTableOffset _ (-1)) :=
        not_aborts_updateRefcount_present (hsw.consistent hg hi.unused).toSeparate
          (Int.natCast_nonneg _) hrange
      refine not_aborts_bind hfree fun a _ => ?_
      split_ifs <;> exact not_aborts_ok _

lemma Initialized.of_io {t n : ℕ} {io : List ℤ} (h : Initialized g s t n) :
    Initialized g { s with io } t n :=
  ⟨(sameRefcounts_io s io).consistent h.consistent, h.missing, h.header, h.allocated, h.unused,
    h.table, h.block⟩

lemma not_aborts_hookUp {fuel fuel' t n : ℕ} (hi : Initialized g s t n) :
    ¬ Aborts (hookUp g (updateRefcount g fuel) fuel' s t n) := by
  rw [hookUp]
  dsimp only
  split_ifs with hflush hlt
  · exact not_aborts_ok _
  · exact not_aborts_ok _
  · exact not_aborts_ok _
  · exact not_aborts_ok _
  · exact not_aborts_growTable (s := s.perform.2.perform.2) hi.of_io (not_lt.mp hlt)

/-- What is assumed of `update_refcount()` for a cluster that has just been found. -/
def CountsSafely (g : Geometry) (update : Update) : Prop :=
  ∀ s n, s.Consistent g → n < s.freeClusterIndex → s.refcount g n = 0 →
    ¬ Aborts (update s (n * g.clusterSize : ℕ) g.clusterSize 1)

lemma not_aborts_allocRefcountBlock {fuel c : ℕ} (hsafe : CountsSafely g (updateRefcount g fuel))
    (hs : s.Consistent g)
    (hc : (∃ o, s.blockAt (c / g.blockClusters) = some o) ∨ c < s.freeClusterIndex) :
    ¬ Aborts (allocRefcountBlock g (updateRefcount g fuel) fuel s c) := by
  cases hat : s.blockAt (c / g.blockClusters) with
  | some o =>
    rw [allocRefcountBlock_of_blockAt _ fuel hs.toSeparate hat]
    exact not_aborts_ok _
  | none =>
    have hlt : c < s.freeClusterIndex := hc.resolve_left fun ⟨o, ho⟩ => by
      rw [hat] at ho
      cases ho
    have hzero : s.refcountTable.getD (c / g.blockClusters) 0 = 0 := by
      by_contra hne
      rw [blockAt, if_neg hne] at hat
      cases hat
    rw [allocRefcountBlock]
    simp only [hzero, Nat.zero_div, zero_mul, ne_eq, not_true_eq_false, if_false]
    refine not_aborts_bind not_aborts_allocClustersNoref fun a ha => ?_
    obtain ⟨newOffset, s₀⟩ := a
    obtain ⟨f, io, rfl, hle, hfind⟩ := allocClustersNoref_spec ha
    dsimp only
    by_cases hneg : newOffset < 0
    · rw [if_pos hneg]
      exact not_aborts_ok _
    obtain ⟨n, rfl, hn, hf, hfree⟩ := hfind.resolve_left hneg
    rw [sizeToClusters_clusterSize] at hf
    subst hf
    simp only [if_neg hneg, Int.toNat_natCast, Nat.mul_div_cancel n g.clusterSize_pos]
    have hfound : Found g s c n
        { s with freeClusterIndex := n + 1, io, metadata := n :: s.metadata } :=
      ⟨hs, hat, hlt, hn, hfree n le_rfl (Nat.lt_succ_self n), io, rfl⟩
    split_ifs with hself hget
    · exact not_aborts_ok _
    · exact not_aborts_hookUp (hfound.self hself).2
    · refine not_aborts_bind (hsafe _ n hfound.kept.consistent hfound.lt_free hfound.refcount)
        fun a ha => ?_
      obtain ⟨out, s₂⟩ := a
      obtain ⟨m, -, -, hset⟩ := hfound.other (countsNew_updateRefcount g fuel) hself ha
      dsimp only
      split_ifs with hout hget
      · exact not_aborts_ok _
      · exact not_aborts_ok _
      · exact not_aborts_hookUp (hset (not_lt.mp hout)).2

/-! ### Updates -/

lemma not_aborts_updateLoop {fuel k i : ℕ} {a old : ℤ} {held : Option ℕ}
    (hsafe : CountsSafely g (updateRefcount g fuel)) (ha : 0 < a) (hs : s.Consistent g)
    (hrange : ∀ x, i ≤ x → x < i + k →
      (∃ o, s.blockAt (x / g.blockClusters) = some o) ∨ x < s.freeClusterIndex)
    (hheld : (i : ℤ) / g.blockClusters = old →
      ∃ o, held = some o ∧ s.blockAt (i / g.blockClusters) = some o) :
    ¬ Aborts (updateLoop g (allocRefcountBlock g (updateRefcount g fuel) fuel) a k i old held s) := by
  induction k generalizing i old held s with
  | zero => exact not_aborts_ok _
  | succ k ih =>
    have hi := hrange i le_rfl (by omega)
    have hload : ¬ Aborts (nextBlock g (allocRefcountBlock g (updateRefcount g fuel) fuel) s i old
        held) := by
      obtain ⟨io, hput⟩ := putBlock_snd s held
      rw [nextBlock]
      simp only [hput, if_neg (show ¬ (i : ℤ) < 0 by omega), Int.toNat_natCast]
      split_ifs
      · exact not_aborts_ok _
      · exact not_aborts_allocRefcountBlock hsafe ((sameRefcounts_io s io).consistent hs) hi
      · exact not_aborts_ok _
    rw [updateLoop]
    refine not_aborts_bind hload fun r hr => ?_
    obtain ⟨⟨ret, held₁⟩, s₁⟩ := r
    obtain ⟨m, hkept, hheld₁⟩ := nextBlock_kept (ranges_updateRefcount g fuel)
      (countsNew_updateRefcount g fuel) hs hi hheld hr
    dsimp only
    split_ifs with hret
    · exact not_aborts_ok _
    obtain ⟨o, rfl, ho⟩ := hheld₁ (not_lt.mp hret)
    have hmod : ((i : ℤ) % g.blockClusters).toNat = i % g.blockClusters := by
      rw [← Int.natCast_mod, Int.toNat_natCast]
    simp only [hmod]
    rw [if_neg (show ¬ ((s₁.block o (i % g.blockClusters) : ℤ) + a = 0 ∧
      (i : ℤ) < s₁.freeClusterIndex) by omega)]
    split_ifs
    · exact not_aborts_ok _
    have hone := counted_setRefcount hkept.consistent ho ha
    have htwo := hkept.counted.trans hone ha.le le_rfl (Nat.le_succ i)
    refine ih (i := i + 1) hone.consistent (fun x hx hlt => ?_) fun hdiv => ?_
    · obtain ⟨o, ho⟩ | hfree := hrange x (by omega) (by omega)
      · exact .inl ⟨o, htwo.frame.present _ o ho⟩
      · exact .inr (lt_of_lt_of_le hfree htwo.free)
    · have hdiv' : (i + 1) / g.blockClusters = i / g.blockClusters := by exact_mod_cast hdiv
      rw [hdiv']
      exact ⟨o, rfl, hone.frame.present _ o ho⟩

lemma not_aborts_updateRefcount_succ {fuel : ℕ} {offset length a : ℤ}
    (hsafe : CountsSafely g (updateRefcount g fuel)) (ha : 0 < a) (hs : s.Consistent g)
    (hoff : 0 ≤ offset) (hrange : Updatable g s offset length a) :
    ¬ Aborts (updateRefcount g (fuel + 1) s offset length a) := by
  rw [updateRefcount]
  split_ifs with hneg hzero
  · exact not_aborts_ok _
  · exact not_aborts_ok _
  obtain ⟨i, k, hi, hk, hmem⟩ := inRange_iff (g := g) hoff (show 0 < length by omega)
  have hstart : (0 : ℤ) ≤ (i : ℤ) / g.blockClusters := by positivity
  have hblocks (x : ℕ) (hx : i ≤ x) (hlt : x < i + k) :
      (∃ o, s.blockAt (x / g.blockClusters) = some o) ∨ x < s.freeClusterIndex :=
    (hrange x ((hmem x).mpr ⟨hx, hlt⟩)).imp_right And.right
  have hheld (hdiv : (i : ℤ) / g.blockClusters = -1) :
      ∃ o, (none : Option ℕ) = some o ∧ s.blockAt (i / g.blockClusters) = some o := by omega
  dsimp only
  rw [hk, hi]
  refine not_aborts_bind (not_aborts_updateLoop hsafe ha hs hblocks hheld) fun r hr => ?_
  obtain ⟨e, s₁⟩ := r
  obtain ⟨j, m, hj, hij, hcounted, -⟩ := updateLoop_counted (ranges_updateRefcount g fuel)
    (countsNew_updateRefcount g fuel) ha hs hblocks hheld hr
  obtain ⟨io, hput⟩ := putBlock_snd s₁ e.refcountBlock
  simp only [hput, hj]
  split_ifs
  · exact not_aborts_ok _
  · exact not_aborts_ok _
  · refine not_aborts_bind (not_aborts_updateRefcount_present
      ((sameRefcounts_io s₁ io).consistent hcounted.consistent).toSeparate hoff fun x hx => ?_)
      fun _ _ => not_aborts_ok _
    rw [inRange_undo hi] at hx
    exact hcounted.present x hx.1 hx.2
  · exact not_aborts_ok _

lemma countsSafely_updateRefcount (g : Geometry) (fuel : ℕ) :
    CountsSafely g (updateRefcount g fuel) := by
  induction fuel with
  | zero => exact fun _ _ _ _ _ h => by cases h
  | succ fuel ih =>
    refine fun s n hs hn _ => not_aborts_updateRefcount_succ ih one_pos hs (Int.natCast_nonneg _)
      fun x hx => .inr ⟨one_pos, ?_⟩
    rwa [inRange_cluster.mp hx]

lemma not_aborts_updateRefcount {fuel : ℕ} {offset length a : ℤ} (ha : 0 < a)
    (hs : s.Consistent g) (hoff : 0 ≤ offset) (hrange : Updatable g s offset length a) :
    ¬ Aborts (updateRefcount g fuel s offset length a) := by
  cases fuel with
  | zero => exact fun h => by cases h
  | succ fuel =>
    exact not_aborts_updateRefcount_succ (countsSafely_updateRefcount g fuel) ha hs hoff hrange

lemma not_aborts_qcow2AllocClusters {fuel size : ℕ} (hs : s.Consistent g) :
    ¬ Aborts (qcow2AllocClusters g fuel s size) := by
  refine not_aborts_bind not_aborts_allocClustersNoref fun r hr => ?_
  obtain ⟨offset, s₁⟩ := r
  obtain ⟨f, io, rfl, hle, hfind⟩ := allocClustersNoref_spec hr
  dsimp only
  by_cases hneg : offset < 0
  · rw [if_pos hneg]
    exact not_aborts_ok _
  obtain ⟨n, rfl, -, rfl, -⟩ := hfind.resolve_left hneg
  rw [if_neg hneg]
  refine not_aborts_bind (not_aborts_updateRefcount one_pos ⟨⟨hs.aligned, hs.distinct⟩, hs.counted,
    hs.header, hs.tableCounted, hs.apart, hs.headerApart⟩ (Int.natCast_nonneg _) fun x hx =>
    .inr ⟨one_pos, (inRange_mul.mp hx).2⟩) fun r _ => ?_
  split_ifs <;> exact not_aborts_ok _

/-! ### Bytes -/

lemma not_aborts_updateClusterRefcount {fuel c : ℕ} {io : List ℤ} (hs : s.Consistent g)
    (hc : s.refcount g c ≠ 0) : ¬ Aborts (updateClusterRefcount g fuel { s with io } c 1) := by
  have hoff : (c : ℤ) * g.clusterSize = (c * g.clusterSize : ℕ) := by rw [Nat.cast_mul]
  rw [updateClusterRefcount, hoff]
  refine not_aborts_bind (not_aborts_updateRefcount_present
    ((sameRefcounts_io s io).separate hs.toSeparate) (Int.natCast_nonneg _) fun x hx => ?_)
    fun r _ => ?_
  · obtain rfl := inRange_byte.mp hx
    exact blockAt_of_refcount hc
  · dsimp only
    split_ifs <;> exact not_aborts_ok _

lemma not_aborts_placeBytes {fuel size c : ℕ} {bump : List ℤ} {offset : ℤ}
    {ranges : List (ℤ × ℤ)} (h : Held g s ranges) (hc : Current g ranges offset c)
    (hle : size ≤ g.clusterSize) (hundone : UndoneOnFailure g fuel s g.clusterSize) :
    ¬ Aborts (placeBytes g fuel size bump 2 ⟨s, offset⟩) := by
  obtain ⟨r₀, hr₀, htouch₀⟩ := hc.used
  have hcount := h.refcount_ne_zero hr₀ htouch₀
  rw [placeBytes]
  dsimp only
  rw [hc.cluster]
  by_cases hfits : (size : ℤ) ≤ g.clusterSize - offset % g.clusterSize
  · rw [if_pos hfits, if_pos hc.inside]
    exact not_aborts_bind (not_aborts_updateClusterRefcount h.consistent hcount)
      fun _ _ => not_aborts_ok _
  · rw [if_neg hfits]
    refine not_aborts_bind (not_aborts_qcow2AllocClusters h.consistent) fun r hr => ?_
    obtain ⟨⟨newOffset, out⟩, s₁⟩ := r
    obtain ⟨m, hm, hfail | ⟨n, rfl, hzero, hcounted⟩⟩ :=
      qcow2AllocClusters_spec h.consistent hundone hr
    · dsimp only
      rw [if_pos hfail.1]
      exact not_aborts_ok _
    · dsimp only
      split_ifs
      · exact not_aborts_ok _
      · refine not_aborts_bind (not_aborts_updateClusterRefcount hm.consistent ?_)
          fun _ _ => not_aborts_ok _
        rw [hcounted c (h.not_mem hm hr₀ htouch₀)]
        split_ifs
        · exact one_ne_zero
        · exact hcount
      · rw [placeBytes_aligned hle]
        exact not_aborts_ok _

lemma not_aborts_allocCall {fuel : ℕ} {a : Allocations} {call : AllocCall} (ha : Reserved g a)
    (hok : CallOk g fuel a call) : ¬ Aborts (allocCall g fuel a call) := by
  obtain ⟨⟨s, offset⟩, ranges⟩ := a
  have hheld : Held g s ranges := ha.held
  cases call with
  | bytes size io bump =>
    obtain ⟨hpos, hle, hundone, hfirst, -⟩ := hok
    refine not_aborts_bind ?_ fun _ _ => not_aborts_ok _
    rw [qcow2AllocBytes, if_neg (not_not.mpr ⟨hpos, hle⟩)]
    dsimp only
    split_ifs with hzero
    · refine not_aborts_bind (not_aborts_qcow2AllocClusters hheld.of_io.consistent) fun r hr => ?_
      obtain ⟨⟨newOffset, out⟩, s₁⟩ := r
      have hnew := hfirst hzero _ _ _ hr
      obtain ⟨m, -, hfail | ⟨n, rfl, -⟩⟩ :=
        qcow2AllocClusters_spec hheld.of_io.consistent hundone hr
      · exact absurd hfail.1 (not_lt.mpr hnew)
      · dsimp only
        rw [if_neg (not_lt.mpr hnew), placeBytes_aligned hle]
        exact not_aborts_ok _
    · obtain ⟨c, hc⟩ := ha.current.resolve_left hzero
      exact not_aborts_placeBytes hheld.of_io hc hle hundone
  | clusters size io =>
    exact not_aborts_bind (not_aborts_qcow2AllocClusters hheld.of_io.consistent)
      fun _ _ => not_aborts_ok _

/-! ### Runs -/

lemma allocStep_eq_some {fuel : ℕ} {a a' : Allocations} {call : AllocCall}
    (h : allocStep g fuel a call = some a') : ∃ ret, allocCall g fuel a call = .ok (ret, a') := by
  rw [allocStep] at h
  cases hc : allocCall g fuel a call with
  | error e =>
    rw [hc] at h
    cases h
  | ok r =>
    rw [hc] at h
    cases h
    exact ⟨r.1, rfl⟩

lemma reserved_of_run {fuel : ℕ} {calls : List AllocCall} {a : Allocations} (hs : s.Consistent g)
    (hok : Lib.Guarded (allocStep g fuel) (CallOk g fuel) ⟨⟨s, 0⟩, []⟩ calls)
    (h : Lib.run (allocStep g fuel) ⟨⟨s, 0⟩, []⟩ calls = some a) : Reserved g a := by
  have hstart : Reserved g ⟨⟨s, 0⟩, []⟩ :=
    ⟨⟨hs, fun r hr => absurd hr List.not_mem_nil, .nil, fun r hr => absurd hr List.not_mem_nil,
      fun r hr => absurd hr List.not_mem_nil⟩, .inl rfl⟩
  refine Lib.run_invariant_of_guarded (fun a call a' ha hcall hstep => ?_) hstart hok h
  obtain ⟨ret, hret⟩ := allocStep_eq_some hstep
  exact (ha.call hcall hret).reserved

/-- Why there is no result. -/
def fault {α : Type} : Except Fault α → Option Fault
  | .error e => some e
  | .ok _ => none

/-- What is observed of a run: the refcount of the cluster 3 and how many ranges touch it. -/
def observed (a : Allocations) : ℕ × ℕ :=
  (a.bytes.image.refcount smallClusters 3, a.ranges.countP (Touches smallClusters 3 ·))

end Limbo.Qcow2.Clusters
