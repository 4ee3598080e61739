import Limbo.Qcow2.ByteRanges

/-!
# Runs of allocations

The cluster that is partly used is touched by a range that has been returned, and every range that
touches it ends at the free byte offset at most. Each call keeps this, and adds the range that it
returns.
-/

namespace Limbo.Qcow2.Clusters

open Image

variable {g : Geometry} {s s' : Image} {ranges : List (ℤ × ℤ)} {m : List ℕ}

/-- The next range begins in the cluster `c`, behind the ranges that touch it. -/
structure Current (g : Geometry) (ranges : List (ℤ × ℤ)) (offset : ℤ) (c : ℕ) : Prop where
  cluster : offset / g.clusterSize = c
  inside : offset % g.clusterSize ≠ 0
  used : ∃ r ∈ ranges, Touches g c r
  last : ∀ r ∈ ranges, Touches g c r → r.1 + r.2 ≤ offset

/-- What holds in every state that is reached. -/
structure Reserved (g : Geometry) (a : Allocations) : Prop where
  held : Held g a.bytes.image a.ranges
  current : a.bytes.freeByteOffset = 0 ∨ ∃ c, Current g a.ranges a.bytes.freeByteOffset c

lemma sizeToClusters_of_le {size : ℕ} (hpos : 0 < size) (hle : size ≤ g.clusterSize) :
    g.sizeToClusters size = 1 := by
  have hcs := g.clusterSize_pos
  rw [Geometry.sizeToClusters]
  exact Nat.div_eq_of_lt_le (by omega) (by omega)

/-! ### The ranges that are returned -/

/-- A range in clusters that have been allocated for it. -/
lemma Held.allocated {r : ℤ × ℤ} {offset length : ℤ} (h : Held g s ranges)
    (hm : Recorded g s s' m) (hr : 0 ≤ r.1)
    (htouch : ∀ x, Touches g x r ↔ InRange g offset length x)
    (hzero : ∀ x, InRange g offset length x → s.refcount g x = 0 ∧ x ∉ m)
    (hcount : ∀ x ∉ m, s'.refcount g x =
      if InRange g offset length x then 1 else s.refcount g x) : Held g s' (r :: ranges) := by
  refine h.cons hm hr (fun x hx => ?_) (fun x hx => ?_) fun r' hr' => ?_
  · rw [hcount x hx]
    simp only [htouch]
    split_ifs with hin
    · rw [(hzero x hin).1]
    · rfl
  · obtain ⟨hx₀, hxm⟩ := hzero x ((htouch x).mp hx)
    exact ⟨hxm, fun hmem => h.consistent.tableCounted x hmem hx₀,
      hx₀.trans (h.countP_eq_zero hx₀).symm⟩
  · refine apart_of_touches (g := g) hr (h.nonneg r' hr') fun x hx hx' => ?_
    exact absurd (hzero x ((htouch x).mp hx)).1 (h.refcount_ne_zero hr' hx')

/-- The clusters of a range that is allocated are not those of other ranges. -/
lemma Held.current_of_zero {n : ℕ} {offset : ℤ} (h : Held g s ranges)
    (hn : s.refcount g n = 0) (hcluster : offset / g.clusterSize = n)
    (hinside : offset % g.clusterSize ≠ 0) {r : ℤ × ℤ} (htouch : Touches g n r)
    (hend : r.1 + r.2 = offset) : Current g (r :: ranges) offset n where
  cluster := hcluster
  inside := hinside
  used := ⟨r, List.mem_cons_self, htouch⟩
  last := by
    rw [List.forall_mem_cons]
    exact ⟨fun _ => hend.le, fun r' hr' hx => absurd hn (h.refcount_ne_zero hr' hx)⟩

namespace Current

variable {offset : ℤ} {c : ℕ}

lemma offset_eq (h : Current g ranges offset c) :
    offset = offset % g.clusterSize + c * g.clusterSize := by
  have hmod := Int.emod_add_mul_ediv offset g.clusterSize
  rw [h.cluster, mul_comm] at hmod
  exact hmod.symm

lemma bounds (h : Current g ranges offset c) :
    0 < offset % g.clusterSize ∧ offset % g.clusterSize < g.clusterSize := by
  have hcs : (0 : ℤ) < g.clusterSize := by exact_mod_cast g.clusterSize_pos
  have hnonneg := Int.emod_nonneg offset hcs.ne'
  have hlt := Int.emod_lt_of_pos offset hcs
  have hinside := h.inside
  omega

lemma nonneg (h : Current g ranges offset c) : 0 ≤ offset := by
  obtain ⟨hpos, -⟩ := h.bounds
  have hmul : 0 ≤ (c : ℤ) * g.clusterSize := by positivity
  have := h.offset_eq
  omega

/-- The cluster in which a range from here on ends. -/
lemma lastCluster_eq (h : Current g ranges offset c) {size k : ℕ}
    (hlow : k * g.clusterSize < offset % g.clusterSize + size)
    (hhigh : offset % g.clusterSize + size ≤ (k + 1) * g.clusterSize) :
    lastCluster g offset size = c + k := by
  have hcs : (0 : ℤ) < g.clusterSize := by exact_mod_cast g.clusterSize_pos
  have heq : offset + size - 1 = offset % g.clusterSize + size - 1 - k * g.clusterSize +
      (c + k) * g.clusterSize := by
    have := h.offset_eq
    linarith
  rw [lastCluster, heq, Int.add_mul_ediv_right _ _ hcs.ne',
    Int.ediv_eq_zero_of_lt (by omega) (by linarith), zero_add]

end Current

/-- The range goes on in the current cluster. -/
lemma Held.bumped {offset : ℤ} {c size : ℕ} (h : Held g s ranges) (hc : Current g ranges offset c)
    (hpos : 0 < size) (hfits : size ≤ g.clusterSize - offset % g.clusterSize)
    (hbump : Bumped g s s' c) : Held g s' ((offset, (size : ℤ)) :: ranges) := by
  obtain ⟨hlow, -⟩ := hc.bounds
  have hoff := hc.nonneg
  have htouch (x : ℕ) : Touches g x (offset, (size : ℤ)) ↔ x = c := by
    have hlast := hc.lastCluster_eq (show ((0 : ℕ) : ℤ) * g.clusterSize <
      offset % g.clusterSize + size by omega) (by omega)
    rw [Touches, InRange, hlast, firstCluster, hc.cluster]
    dsimp only
    omega
  obtain ⟨r₀, hr₀, htouch₀⟩ := hc.used
  have hrec : Recorded g s s' [] := ⟨hbump.same.metadata, fun c hc => absurd hc List.not_mem_nil,
    fun c hc => .inl (hbump.same.tableOf ▸ hc), hbump.consistent⟩
  refine h.cons hrec hoff (fun x _ => ?_) (fun x hx => ?_) fun r' hr' => ?_
  · rw [hbump.refcount]
    simp only [htouch]
  · obtain rfl := (htouch x).mp hx
    exact ⟨List.not_mem_nil, h.table r₀ hr₀ x htouch₀, h.counted r₀ hr₀ x htouch₀⟩
  · refine apart_of_touches (g := g) hoff (h.nonneg r' hr') fun x hx hx' => ?_
    obtain rfl := (htouch x).mp hx
    exact hc.last r' hr' hx'

/-- After the range the current cluster is the same one, or it is full. -/
lemma Current.next {offset : ℤ} {c size : ℕ} (hc : Current g ranges offset c) (hpos : 0 < size)
    (hlt : size < g.clusterSize - offset % g.clusterSize) :
    Current g ((offset, (size : ℤ)) :: ranges) (offset + size) c := by
  have hcs : (0 : ℤ) < g.clusterSize := by exact_mod_cast g.clusterSize_pos
  obtain ⟨hlow, -⟩ := hc.bounds
  have heq : offset + size = offset % g.clusterSize + size + c * g.clusterSize := by
    have := hc.offset_eq
    omega
  obtain ⟨r, hr, htouch⟩ := hc.used
  refine ⟨?_, ?_, ⟨r, List.mem_cons_of_mem _ hr, htouch⟩, ?_⟩
  · rw [heq, Int.add_mul_ediv_right _ _ hcs.ne', Int.ediv_eq_zero_of_lt (by omega) (by omega),
      zero_add]
  · rw [heq, Int.add_mul_emod_self_right, Int.emod_eq_of_lt (by omega) (by omega)]
    omega
  · rw [List.forall_mem_cons]
    refine ⟨fun _ => le_rfl, fun r' hr' hx => ?_⟩
    have := hc.last r' hr' hx
    omega

/-- The range goes on in the current cluster and in the next one, which has just been allocated. -/
lemma Held.contiguous {s₁ : Image} {offset : ℤ} {c size : ℕ} (h : Held g s ranges)
    (hc : Current g ranges offset c) (hfits : g.clusterSize - offset % g.clusterSize < size)
    (hle : size ≤ g.clusterSize) (hm : Recorded g s s₁ m)
    (hzero : s.refcount g (c + 1) = 0 ∧ c + 1 ∉ m)
    (hcount : ∀ x ∉ m, s₁.refcount g x = if x = c + 1 then 1 else s.refcount g x)
    (hbump : Bumped g s₁ s' c) :
    Held g s' ((offset, (size : ℤ)) :: ranges) ∧
      Current g ((offset, (size : ℤ)) :: ranges) (offset + size) (c + 1) := by
  have hcs : (0 : ℤ) < g.clusterSize := by exact_mod_cast g.clusterSize_pos
  obtain ⟨hlow, hhigh⟩ := hc.bounds
  have htouch (x : ℕ) : Touches g x (offset, (size : ℤ)) ↔ x = c ∨ x = c + 1 := by
    have hlast := hc.lastCluster_eq (show ((1 : ℕ) : ℤ) * g.clusterSize <
      offset % g.clusterSize + size by omega) (by push_cast; omega)
    rw [Touches, InRange, hlast, firstCluster, hc.cluster]
    dsimp only
    omega
  obtain ⟨r₀, hr₀, htouch₀⟩ := hc.used
  have hrec : Recorded g s s' m :=
    ⟨hbump.same.metadata.trans hm.metadata, hm.fresh,
      fun x hx => hm.tables x (hbump.same.tableOf ▸ hx), hbump.consistent⟩
  refine ⟨h.cons hrec hc.nonneg (fun x hx => ?_) (fun x hx => ?_) fun r' hr' => ?_, ?_, ?_,
    ⟨_, List.mem_cons_self, (htouch _).mpr (.inr rfl)⟩, ?_⟩
  · rw [hbump.refcount, hcount x hx]
    simp only [htouch]
    have hzero' := hzero.1
    by_cases hx₁ : x = c + 1
    · subst hx₁
      simp [hzero']
    · simp [hx₁]
  · obtain rfl | rfl := (htouch x).mp hx
    · exact ⟨h.not_mem hm hr₀ htouch₀, h.table r₀ hr₀ x htouch₀, h.counted r₀ hr₀ x htouch₀⟩
    · exact ⟨hzero.2, fun hmem => h.consistent.tableCounted _ hmem hzero.1,
        hzero.1.trans (h.countP_eq_zero hzero.1).symm⟩
  · refine apart_of_touches (g := g) hc.nonneg (h.nonneg r' hr') fun x hx hx' => ?_
    obtain rfl | rfl := (htouch x).mp hx
    · exact hc.last r' hr' hx'
    · exact absurd hzero.1 (h.refcount_ne_zero hr' hx')
  all_goals
    have heq : offset + size = offset % g.clusterSize + size - g.clusterSize +
        (c + 1) * g.clusterSize := by
      have := hc.offset_eq
      linarith
  · rw [heq, Int.add_mul_ediv_right _ _ hcs.ne', Int.ediv_eq_zero_of_lt (by omega) (by omega),
      zero_add]
    push_cast
    rfl
  · rw [heq, Int.add_mul_emod_self_right, Int.emod_eq_of_lt (by omega) (by omega)]
    omega
  · rw [List.forall_mem_cons]
    exact ⟨fun _ => le_rfl, fun r' hr' hx => absurd hzero.1 (h.refcount_ne_zero hr' hx)⟩

/-! ### Calls -/

/-- The condition for a call: the first cluster can be allocated, the current one can be counted once
more, and what an allocation has counted is undone if it fails. -/
def CallOk (g : Geometry) (fuel : ℕ) (a : Allocations) : AllocCall → Prop
  | .bytes size io bump => 0 < size ∧ size ≤ g.clusterSize ∧
      UndoneOnFailure g fuel { a.bytes.image with io } g.clusterSize ∧
      (a.bytes.freeByteOffset = 0 → ∀ ret out s',
        qcow2AllocClusters g fuel { a.bytes.image with io } g.clusterSize = .ok ((ret, out), s') →
        0 ≤ ret) ∧
      (a.bytes.freeByteOffset ≠ 0 →
        a.bytes.image.refcount g (a.bytes.freeByteOffset / g.clusterSize).toNat < 65535 ∧
        ∀ r ∈ bump, 0 ≤ r)
  | .clusters size io => UndoneOnFailure g fuel { a.bytes.image with io } size

/-- A range at the beginning of a cluster. -/
lemma placeBytes_aligned {fuel size n redo : ℕ} {bump : List ℤ} (hle : size ≤ g.clusterSize) :
    placeBytes g fuel size bump (redo + 1) ⟨s, (n * g.clusterSize : ℕ)⟩ =
      .ok ((n * g.clusterSize : ℕ),
        ⟨s, if size = g.clusterSize then 0 else (n * g.clusterSize : ℕ) + size⟩) := by
  have hmod : ((n * g.clusterSize : ℕ) : ℤ) % g.clusterSize = 0 := by
    rw [Nat.cast_mul, Int.mul_emod_left]
  rw [placeBytes]
  simp only [hmod, sub_zero, ne_eq, not_true_eq_false, ↓reduceIte]
  rw [if_pos (by exact_mod_cast hle)]
  have hfull : (g.clusterSize : ℤ) - size = 0 ↔ size = g.clusterSize := by omega
  simp only [hfull]
  rfl

/-- How a range is placed that does not begin with a cluster. -/
lemma placeBytes_cases {fuel size redo : ℕ} {bump : List ℤ} {ret offset : ℤ} {b : ByteImage}
    (hinside : offset % g.clusterSize ≠ 0)
    (h : placeBytes g fuel size bump (redo + 1) ⟨s, offset⟩ = .ok (ret, b)) :
    (size ≤ g.clusterSize - offset % g.clusterSize ∧ ∃ r s',
      updateClusterRefcount g fuel { s with io := bump } (offset / g.clusterSize) 1 = .ok (r, s') ∧
      ret = offset ∧ b = ⟨s', if g.clusterSize - offset % g.clusterSize - size = 0 then 0
        else offset + size⟩) ∨
    (g.clusterSize - offset % g.clusterSize < size ∧ ∃ newOffset out s₁,
      qcow2AllocClusters g fuel s g.clusterSize = .ok ((newOffset, out), s₁) ∧
      (newOffset < 0 ∧ ret = newOffset ∧ b = ⟨s₁, offset⟩ ∨
        0 ≤ newOffset ∧ offset / g.clusterSize * g.clusterSize + g.clusterSize = newOffset ∧
          (∃ r s', updateClusterRefcount g fuel { s₁ with io := bump } (offset / g.clusterSize) 1 =
            .ok (r, s') ∧ ret = offset ∧ b = ⟨s', offset + size⟩) ∨
        0 ≤ newOffset ∧ placeBytes g fuel size bump redo ⟨s₁, newOffset⟩ = .ok (ret, b))) := by
  rw [placeBytes] at h
  dsimp only at h
  by_cases hfits : (size : ℤ) ≤ g.clusterSize - offset % g.clusterSize
  · rw [if_pos hfits, if_pos hinside] at h
    obtain ⟨⟨r, s'⟩, hbump, h⟩ := ok_of_bind h
    cases h
    exact .inl ⟨hfits, r, s', hbump, rfl, rfl⟩
  · rw [if_neg hfits] at h
    obtain ⟨⟨⟨newOffset, out⟩, s₁⟩, halloc, h⟩ := ok_of_bind h
    refine .inr ⟨by omega, newOffset, out, s₁, halloc, ?_⟩
    dsimp only at h
    split_ifs at h with hneg hnext
    · cases h
      exact .inl ⟨hneg, rfl, rfl⟩
    · obtain ⟨⟨r, s'⟩, hbump, h⟩ := ok_of_bind h
      cases h
      exact .inr (.inl ⟨by omega, hnext, r, s', hbump, rfl, rfl⟩)
    · exact .inr (.inr ⟨by omega, h⟩)

/-- A call keeps what is reserved, and changes nothing if it fails. -/
structure Returned (g : Geometry) (a : Allocations) (ret : ℤ) (a' : Allocations) : Prop where
  reserved : Reserved g a'
  failed : ret < 0 → a'.ranges = a.ranges ∧ ∃ m, Recorded g a.bytes.image a'.bytes.image m ∧
    ∀ x ∉ m, a'.bytes.image.refcount g x = a.bytes.image.refcount g x

lemma Recorded.of_io {io : List ℤ} (h : Recorded g { s with io } s' m) : Recorded g s s' m :=
  ⟨h.metadata, h.fresh, h.tables, h.consistent⟩

lemma Held.of_io {io : List ℤ} (h : Held g s ranges) : Held g { s with io } ranges :=
  ⟨(sameRefcounts_io s io).consistent h.consistent, h.nonneg, h.apart, h.counted, h.table⟩

/-- A range is returned at the beginning of a cluster that has been allocated for it. -/
lemma Held.returned_aligned {n size : ℕ} (h : Held g s ranges) (hpos : 0 < size)
    (hle : size ≤ g.clusterSize) (hm : Recorded g s s' m)
    (hzero : ∀ x, InRange g (n * g.clusterSize : ℕ) g.clusterSize x → s.refcount g x = 0 ∧ x ∉ m)
    (hcount : ∀ x ∉ m, s'.refcount g x =
      if InRange g (n * g.clusterSize : ℕ) g.clusterSize x then 1 else s.refcount g x) :
    Reserved g ⟨⟨s', if size = g.clusterSize then 0 else (n * g.clusterSize : ℕ) + size⟩,
      (((n * g.clusterSize : ℕ) : ℤ), (size : ℤ)) :: ranges⟩ := by
  have hcs : (0 : ℤ) < g.clusterSize := by exact_mod_cast g.clusterSize_pos
  have htouch (x : ℕ) : Touches g x (((n * g.clusterSize : ℕ) : ℤ), (size : ℤ)) ↔ x = n := by
    rw [Touches, inRange_mul, sizeToClusters_of_le hpos hle]
    omega
  refine ⟨h.allocated hm (Int.natCast_nonneg _) (fun x => ?_) hzero hcount, ?_⟩
  · rw [htouch, inRange_cluster]
  · by_cases hfull : size = g.clusterSize
    · exact .inl (if_pos hfull)
    · have hlt : (size : ℤ) < g.clusterSize := by omega
      simp only [if_neg hfull]
      have heq : ((n * g.clusterSize : ℕ) : ℤ) + size = size + n * g.clusterSize := by
        push_cast
        ring
      refine .inr ⟨n, h.current_of_zero (hzero n (inRange_cluster.mpr rfl)).1 ?_ ?_
        ((htouch n).mpr rfl) rfl⟩
      · rw [heq, Int.add_mul_ediv_right _ _ hcs.ne', Int.ediv_eq_zero_of_lt (by omega) hlt, zero_add]
      · rw [heq, Int.add_mul_emod_self_right, Int.emod_eq_of_lt (by omega) hlt]
        omega

/-- A range is placed from the current cluster on. -/
lemma Held.place {fuel size c : ℕ} {bump : List ℤ} {ret offset : ℤ} {b : ByteImage}
    (h : Held g s ranges) (hc : Current g ranges offset c) (hpos : 0 < size)
    (hle : size ≤ g.clusterSize) (hundone : UndoneOnFailure g fuel s g.clusterSize)
    (hlt : s.refcount g c < 65535) (hio : ∀ r ∈ bump, 0 ≤ r)
    (hrun : placeBytes g fuel size bump 2 ⟨s, offset⟩ = .ok (ret, b)) :
    Returned g ⟨⟨s, offset⟩, ranges⟩ ret
      (Allocations.record ⟨⟨s, offset⟩, ranges⟩ size (ret, b)).2 := by
  have hoff := hc.nonneg
  obtain ⟨r₀, hr₀, htouch₀⟩ := hc.used
  have hcount := h.refcount_ne_zero hr₀ htouch₀
  rw [Allocations.record]
  obtain ⟨hfits, r, s', hbump, rfl, rfl⟩ | ⟨hfits, newOffset, out, s₁, halloc, hend⟩ :=
    placeBytes_cases hc.inside hrun
  · rw [hc.cluster] at hbump
    have hbumped := updateClusterRefcount_bumped h.consistent hcount hlt hio hbump
    rw [if_neg (not_lt.mpr hoff)]
    refine ⟨⟨h.bumped hc hpos hfits hbumped, ?_⟩, fun hneg => absurd hneg (not_lt.mpr hoff)⟩
    by_cases hfull : (g.clusterSize : ℤ) - ret % g.clusterSize - size = 0
    · exact .inl (if_pos hfull)
    · simp only [if_neg hfull]
      exact .inr ⟨c, hc.next hpos (by omega)⟩
  · obtain ⟨m, hm, hfail | ⟨n, rfl, hzero, hcounted⟩⟩ :=
      qcow2AllocClusters_spec h.consistent hundone halloc
    · obtain ⟨hneg, rfl, rfl⟩ | ⟨hpos', -⟩ | ⟨hpos', -⟩ := hend
      · rw [if_pos hneg]
        exact ⟨⟨h.of_recorded hm hfail.2, .inr ⟨c, hc⟩⟩, fun _ => ⟨rfl, m, hm, hfail.2⟩⟩
      · exact absurd hfail.1 (not_lt.mpr hpos')
      · exact absurd hfail.1 (not_lt.mpr hpos')
    · obtain ⟨hneg, -⟩ | ⟨-, hnext, r, s', hbump, rfl, rfl⟩ | ⟨-, hredo⟩ := hend
      · omega
      · obtain rfl : n = c + 1 := by
          rw [hc.cluster, ← add_one_mul] at hnext
          have hcs := g.clusterSize_pos
          exact (Nat.eq_of_mul_eq_mul_right hcs (by exact_mod_cast hnext)).symm
        simp only [inRange_cluster] at hzero hcounted
        have hcm := h.not_mem hm hr₀ htouch₀
        have hc₁ : s₁.refcount g c = s.refcount g c := by
          rw [hcounted c hcm, if_neg (by omega)]
        rw [hc.cluster] at hbump
        have hbumped := updateClusterRefcount_bumped hm.consistent (hc₁ ▸ hcount) (hc₁ ▸ hlt) hio
          hbump
        obtain ⟨hheld, hcur⟩ := h.contiguous hc hfits hle hm (hzero _ rfl) hcounted hbumped
        rw [if_neg (not_lt.mpr hoff)]
        exact ⟨⟨hheld, .inr ⟨c + 1, hcur⟩⟩, fun hneg => absurd hneg (not_lt.mpr hoff)⟩
      · rw [placeBytes_aligned hle] at hredo
        cases hredo
        have hn : ¬ ((n * g.clusterSize : ℕ) : ℤ) < 0 := by omega
        rw [if_neg hn]
        exact ⟨h.returned_aligned hpos hle hm hzero hcounted, fun hneg => absurd hneg hn⟩

/-- Each call keeps what is reserved. -/
lemma Reserved.call {fuel : ℕ} {a a' : Allocations} {call : AllocCall} {ret : ℤ}
    (ha : Reserved g a) (hok : CallOk g fuel a call)
    (h : allocCall g fuel a call = .ok (ret, a')) : Returned g a ret a' := by
  obtain ⟨⟨s, offset⟩, ranges⟩ := a
  have hheld : Held g s ranges := ha.held
  cases call with
  | bytes size io bump =>
    obtain ⟨hpos, hle, hundone, hfirst, hcurrent⟩ := hok
    obtain ⟨⟨ret', b⟩, hbytes, h⟩ := ok_of_bind h
    cases h
    rw [qcow2AllocBytes, if_neg (not_not.mpr ⟨hpos, hle⟩)] at hbytes
    dsimp only at hbytes hundone hfirst hcurrent
    obtain hzero | ⟨c, hc⟩ := ha.current
    · obtain rfl : offset = 0 := hzero
      rw [if_pos rfl] at hbytes
      obtain ⟨⟨⟨newOffset, out⟩, s₁⟩, halloc, hbytes⟩ := ok_of_bind hbytes
      have hnew := hfirst rfl _ _ _ halloc
      obtain ⟨m, hm, hfail | ⟨n, rfl, hfree, hcounted⟩⟩ :=
        qcow2AllocClusters_spec hheld.of_io.consistent hundone halloc
      · exact absurd hfail.1 (not_lt.mpr hnew)
      · dsimp only at hbytes
        rw [if_neg (not_lt.mpr hnew), placeBytes_aligned hle] at hbytes
        cases hbytes
        have hres := hheld.of_io.returned_aligned hpos hle hm hfree hcounted
        refine ⟨?_, fun hneg => absurd hneg (not_lt.mpr hnew)⟩
        simp only [if_neg (not_lt.mpr hnew)]
        exact hres
    · have hne : offset ≠ 0 := fun hzero => hc.inside (by
        dsimp only
        rw [hzero, Int.zero_emod])
      rw [if_neg hne] at hbytes
      have hcluster : (offset / g.clusterSize).toNat = c := by
        rw [hc.cluster, Int.toNat_natCast]
      obtain ⟨hlt, hio⟩ := hcurrent hne
      rw [hcluster] at hlt
      have hplace := hheld.of_io.place hc hpos hle hundone hlt hio hbytes
      exact ⟨hplace.reserved, fun hneg => (hplace.failed hneg).imp_right
        fun ⟨m, hm, hsame⟩ => ⟨m, hm.of_io, hsame⟩⟩
  | clusters size io =>
    obtain ⟨⟨⟨newOffset, out⟩, s₁⟩, halloc, h⟩ := ok_of_bind h
    cases h
    obtain ⟨m, hm, hfail | ⟨n, rfl, hfree, hcounted⟩⟩ :=
      qcow2AllocClusters_spec hheld.of_io.consistent hok halloc
    · simp only [if_pos hfail.1]
      exact ⟨⟨hheld.of_io.of_recorded hm hfail.2, ha.current⟩,
        fun _ => ⟨rfl, m, hm.of_io, hfail.2⟩⟩
    · have hn : ¬ ((n * g.clusterSize : ℕ) : ℤ) < 0 := by omega
      simp only [if_neg hn]
      refine ⟨⟨hheld.of_io.allocated hm (Int.natCast_nonneg _) (fun x => Iff.rfl) hfree hcounted, ?_⟩,
        fun hneg => absurd hneg hn⟩
      refine ha.current.imp_right fun ⟨c, hc⟩ => ⟨c, ⟨hc.cluster, hc.inside, ?_, ?_⟩⟩
      · exact hc.used.imp fun r hr => ⟨List.mem_cons_of_mem _ hr.1, hr.2⟩
      · rw [List.forall_mem_cons]
        refine ⟨fun hx => ?_, hc.last⟩
        obtain ⟨r₀, hr₀, htouch₀⟩ := hc.used
        exact absurd (hfree c hx).1 (hheld.refcount_ne_zero hr₀ htouch₀)

end Limbo.Qcow2.Clusters
