import Limbo.Qcow2.RefcountAllocation

/-!
# A refcount update that fails

The loop of `update_refcount()` with a positive addend, where blocks may be missing, and what is left
when the updates that have been done are undone: every cluster that did not become metadata has the
refcount that it had before.
-/

namespace Limbo.Qcow2.Clusters

open Image

variable {g : Geometry} {s s' s'' : Image} {a : ℤ} {i j k : ℕ} {m m' : List ℕ}

/-- The clusters from `i` up to `j` are counted, and the clusters `m` are recorded meanwhile. -/
structure Counted (g : Geometry) (a : ℤ) (i j : ℕ) (s s' : Image) (m : List ℕ) : Prop where
  frame : Frame g [] (i / g.blockClusters) s s' m
  refcount : ∀ x ∉ m, (s'.refcount g x : ℤ) = s.refcount g x + if i ≤ x ∧ x < j then a else 0
  consistent : s'.Consistent g
  free : s.freeClusterIndex ≤ s'.freeClusterIndex
  present : ∀ x, i ≤ x → x < j → ∃ o, s'.blockAt (x / g.blockClusters) = some o

lemma Image.Kept.counted (h : Kept g [] (i / g.blockClusters) s s' m) : Counted g a i i s s' m where
  frame := h.frame
  refcount x hx := by
    rw [if_neg (by omega), add_zero, h.refcount x hx]
  consistent := h.consistent
  free := h.free
  present x hx hlt := by omega

lemma Counted.trans (h : Counted g a i j s s' m) (h' : Counted g a j k s' s'' m') (ha : 0 ≤ a)
    (hij : i ≤ j) (hjk : j ≤ k) : Counted g a i k s s'' (m' ++ m) where
  frame := h.frame.trans h'.frame (List.nil_subset _) (Nat.div_le_div_right hij) h.free
    fun x hx => by
      have := h.refcount x hx
      split_ifs at this <;> omega
  refcount x hx := by
    simp only [List.mem_append, not_or] at hx
    rw [h'.refcount x hx.1, h.refcount x hx.2, add_assoc]
    congr 1
    split_ifs <;> omega
  consistent := h'.consistent
  free := h.free.trans h'.free
  present x hx hlt := by
    by_cases hxj : x < j
    · exact (h.present x hx hxj).imp fun o => h'.frame.present _ o
    · exact h'.present x (by omega) hlt

/-- One cluster is counted. -/
lemma counted_setRefcount {o : ℕ} (hs : s.Consistent g)
    (ho : s.blockAt (i / g.blockClusters) = some o) (ha : 0 < a) :
    Counted g a i (i + 1) s (setRefcount { s with freeClusterIndex := s.freeClusterIndex } o
      (i % g.blockClusters) (s.block o (i % g.blockClusters) + a).toNat) [] := by
  have hupdated := updated_setRefcount (f := s.freeClusterIndex) hs.toSeparate ho
    (show 0 ≤ s.block o (i % g.blockClusters) + a by omega)
  generalize hs' : setRefcount _ _ _ _ = s' at hupdated ⊢
  have hsame : s.SameTable s' := by
    subst hs'
    exact ⟨rfl, rfl, rfl⟩
  refine ⟨hsame.frame, fun x _ => hupdated x, hsame.consistent hs fun x hx _ => ?_, ?_,
    fun x hx hlt => ?_⟩
  · have := hupdated x
    split_ifs at this <;> omega
  · subst hs'
    exact le_rfl
  · obtain rfl : x = i := by omega
    exact ⟨o, (hsame.blockAt _).trans ho⟩

/-- The block of a cluster is loaded, or allocated. -/
lemma nextBlock_kept {update : Update} {fuel : ℕ} {old ret : ℤ} {held held₁ : Option ℕ}
    (hranges : Ranges g update) (hcounts : CountsNew g update) (hs : s.Consistent g)
    (hi : (∃ o, s.blockAt (i / g.blockClusters) = some o) ∨ i < s.freeClusterIndex)
    (hheld : (i : ℤ) / g.blockClusters = old →
      ∃ o, held = some o ∧ s.blockAt (i / g.blockClusters) = some o)
    (h : nextBlock g (allocRefcountBlock g update fuel) s i old held = .ok ((ret, held₁), s')) :
    ∃ m, Kept g [] (i / g.blockClusters) s s' m ∧
      (0 ≤ ret → ∃ o, held₁ = some o ∧ s'.blockAt (i / g.blockClusters) = some o) := by
  obtain ⟨hsame, rfl, rfl, rfl⟩ | ⟨io, ⟨hret, -, rfl⟩ | halloc⟩ := nextBlock_cases h
  · exact ⟨[], SameRefcounts.kept ⟨.refl _, rfl⟩ hs le_rfl, fun _ => hheld hsame⟩
  · exact ⟨[], (sameRefcounts_io s io).kept hs le_rfl, fun hpos => absurd hret (not_lt.mpr hpos)⟩
  · obtain ⟨m, hkept, hend⟩ := allocRefcountBlock_kept (s := { s with io }) hranges hcounts
      ((sameRefcounts_io s io).consistent hs) hi halloc
    exact ⟨m, hkept.of_io, fun hpos => (hend.resolve_left fun hneg => by omega).2⟩

/-- The loop with a positive addend. -/
lemma updateLoop_counted {update : Update} {fuel : ℕ} {old : ℤ} {held : Option ℕ} {e : LoopEnd}
    (hranges : Ranges g update) (hcounts : CountsNew g update) (ha : 0 < a) (hs : s.Consistent g)
    (hrange : ∀ x, i ≤ x → x < i + k →
      (∃ o, s.blockAt (x / g.blockClusters) = some o) ∨ x < s.freeClusterIndex)
    (hheld : (i : ℤ) / g.blockClusters = old →
      ∃ o, held = some o ∧ s.blockAt (i / g.blockClusters) = some o)
    (h : updateLoop g (allocRefcountBlock g update fuel) a k i old held s = .ok (e, s')) :
    ∃ (j : ℕ) (m : List ℕ), e.clusterIndex = j ∧ i ≤ j ∧ Counted g a i j s s' m ∧
      (e.ret < 0 ∧ j < i + k ∨ e.ret = 0 ∧ j = i + k) := by
  induction k generalizing i old held s with
  | zero =>
    rw [updateLoop] at h
    cases h
    have hkept : Kept g [] (i / g.blockClusters) s' s' [] :=
      SameRefcounts.kept ⟨.refl _, rfl⟩ hs le_rfl
    exact ⟨i, [], rfl, le_rfl, hkept.counted, .inr ⟨rfl, rfl⟩⟩
  | succ k ih =>
    obtain ⟨ret, held₁, s₁, hload, hround⟩ := updateLoop_succ h
    obtain ⟨m, hkept, hheld₁⟩ := nextBlock_kept hranges hcounts hs (hrange i le_rfl (by omega))
      hheld hload
    obtain ⟨hret, rfl, rfl⟩ | ⟨hret, o, rfl, hround⟩ := hround
    · exact ⟨i, m, rfl, le_rfl, hkept.counted, .inl ⟨hret, by omega⟩⟩
    · obtain ⟨o', ho', ho⟩ := hheld₁ hret
      obtain rfl := Option.some.inj ho'
      obtain ⟨-, rfl, rfl⟩ | ⟨hpos, f, -, hf, hrest⟩ := hround
      · exact ⟨i, m, rfl, le_rfl, hkept.counted, .inl ⟨einval_neg, by omega⟩⟩
      · obtain rfl := hf (by omega)
        have hone := counted_setRefcount hkept.consistent ho ha
        generalize hs₂ : setRefcount _ _ _ _ = s₂ at hone hrest
        have htwo := hkept.counted.trans hone ha.le le_rfl (Nat.le_succ i)
        have hrange₂ (x : ℕ) (hx : i + 1 ≤ x) (hlt : x < i + 1 + k) :
            (∃ o, s₂.blockAt (x / g.blockClusters) = some o) ∨ x < s₂.freeClusterIndex := by
          obtain ⟨o, ho⟩ | hfree := hrange x (by omega) (by omega)
          · exact .inl ⟨o, htwo.frame.present _ o ho⟩
          · exact .inr (lt_of_lt_of_le hfree htwo.free)
        have hheld₂ (hdiv : ((i + 1 : ℕ) : ℤ) / g.blockClusters = (i : ℤ) / g.blockClusters) :
            ∃ o', some o = some o' ∧ s₂.blockAt ((i + 1) / g.blockClusters) = some o' := by
          have hdiv' : (i + 1) / g.blockClusters = i / g.blockClusters := by exact_mod_cast hdiv
          rw [hdiv']
          exact ⟨o, rfl, hone.frame.present _ o ho⟩
        obtain ⟨j, m', hj, hij, hcounted, hend⟩ := ih hone.consistent hrange₂ hheld₂ hrest
        exact ⟨j, _, hj, by omega, htwo.trans hcounted ha.le (by omega) hij, by omega⟩

/-! ### The function -/

lemma firstCluster_mul (g : Geometry) (n : ℕ) : firstCluster g (n * g.clusterSize : ℕ) = n := by
  have hcs : (g.clusterSize : ℤ) ≠ 0 := by exact_mod_cast g.clusterSize_pos.ne'
  rw [firstCluster, Nat.cast_mul, Int.mul_ediv_cancel _ hcs]

/-- A range that starts with a cluster. -/
lemma inRange_mul {n size x : ℕ} :
    InRange g (n * g.clusterSize : ℕ) size x ↔ n ≤ x ∧ x < n + g.sizeToClusters size := by
  have hcs := g.clusterSize_pos
  rw [InRange, firstCluster_mul]
  by_cases hsize : size = 0
  · have hzero : g.sizeToClusters 0 = 0 := Nat.div_eq_of_lt (by omega)
    subst hsize
    rw [hzero]
    omega
  · have hlast : lastCluster g (n * g.clusterSize : ℕ) size =
        (n + (size - 1) / g.clusterSize : ℕ) := by
      rw [lastCluster, show ((n * g.clusterSize : ℕ) : ℤ) + size - 1 =
        ((size - 1 + n * g.clusterSize : ℕ) : ℤ) by push_cast; omega, ← Int.natCast_div,
        Nat.add_mul_div_right _ _ hcs, Nat.add_comm]
    have hsize' : g.sizeToClusters size = (size - 1) / g.clusterSize + 1 := by
      rw [Geometry.sizeToClusters, ← Nat.add_div_right _ hcs]
      congr 1
      omega
    rw [hlast, hsize']
    omega

lemma inRange_cluster {n x : ℕ} :
    InRange g (n * g.clusterSize : ℕ) g.clusterSize x ↔ x = n := by
  rw [inRange_mul, sizeToClusters_clusterSize]
  omega

lemma ranges_updateRefcount (g : Geometry) (fuel : ℕ) : Ranges g (updateRefcount g fuel) :=
  fun _ _ _ _ _ _ hs hoff hrange h => updateRefcount_present hs hoff hrange h

/-- A cluster that has been found is counted. -/
lemma countsNew_updateRefcount (g : Geometry) (fuel : ℕ) : CountsNew g (updateRefcount g fuel) := by
  induction fuel with
  | zero =>
    intro s s' n out _ _ _ h
    cases h
  | succ fuel ih =>
    intro s s' n out hs hn hzero h
    have hcs : (0 : ℤ) < g.clusterSize := by exact_mod_cast g.clusterSize_pos
    obtain ⟨fuel', e, s₁, io, hfuel, hloop, hend⟩ := updateRefcount_pos hcs h
    obtain rfl : fuel = fuel' := by omega
    obtain ⟨i, k, hi, hk, hmem⟩ := inRange_iff (g := g)
      (Int.natCast_nonneg (n * g.clusterSize)) hcs
    simp only [inRange_cluster] at hmem
    obtain ⟨rfl, rfl⟩ : i = n ∧ k = 1 := by
      have h₁ := (hmem n).mp rfl
      have h₂ := hmem i
      have h₃ := hmem (i + 1)
      omega
    rw [hk, hi] at hloop
    obtain ⟨j, m, hj, hij, hcounted, hstop⟩ := updateLoop_counted (ranges_updateRefcount g fuel) ih
      one_pos hs (fun x hx hlt => .inr (by omega))
      (fun hdiv => by
        have : (0 : ℤ) ≤ (i : ℤ) / g.blockClusters := by positivity
        omega) hloop
    have hm : i ∉ m := hcounted.frame.not_mem (fun hmem => hs.tableCounted i hmem hzero) (.inl hn)
    -- nothing has been done that is undone
    have hs' : ∃ io, s' = { s₁ with io } := by
      obtain ⟨-, -, rfl⟩ | ⟨hret, undone, hundo, -⟩ := hend
      · exact ⟨io, rfl⟩
      · obtain rfl : j = i := by omega
        have hlen : e.clusterIndex * g.clusterSize - (j * g.clusterSize : ℕ) ≤ 0 := by
          rw [hj, Nat.cast_mul, sub_self]
        exact ⟨io, (updateRefcount_nonpos hlen hundo).1⟩
    obtain ⟨io', rfl⟩ := hs'
    have hframe := hcounted.frame
    refine ⟨m, hm, ⟨⟨hframe.metadata, hframe.fresh, hframe.present, fun t o ho => ?_,
      hframe.tables⟩, fun x hx => ?_, (sameRefcounts_io s₁ io').consistent hcounted.consistent,
      hcounted.free⟩, fun hpos => ?_, fun t o ho => ?_⟩
    · exact (hframe.hooked t o ho).imp_right fun ⟨hmem, hle⟩ => ⟨List.mem_append_right _ hmem, hle⟩
    · simp only [List.mem_append, List.mem_singleton, not_or] at hx
      have := hcounted.refcount x hx.2
      rw [if_neg (by omega), add_zero] at this
      exact_mod_cast this
    · have hjn : j = i + 1 := by
        obtain ⟨hret | ⟨heq, hge⟩, -⟩ | ⟨hret, undone, -, rfl⟩ := hend
        · omega
        · omega
        · exact absurd hret (not_lt.mpr hpos)
      have := hcounted.refcount i hm
      rw [if_pos (by omega)] at this
      change s₁.refcount g i ≠ 0
      omega
    · rintro rfl
      obtain ho | ⟨hmem, -⟩ := hframe.hooked t o ho
      · exact hs.counted t o ho hzero
      · exact hm hmem

/-- An update with a positive addend. What it has done is undone if it fails, unless the undo fails or
the last block cannot be put back. -/
structure Attempted (g : Geometry) (s s' : Image) (offset length a : ℤ) (out : Outcome)
    (m : List ℕ) : Prop where
  metadata : s'.metadata = m ++ s.metadata
  fresh : ∀ c ∈ m, s.freeClusterIndex ≤ c ∧ s.refcount g c = 0 ∨ c ∈ s.tableOf g
  tables : ∀ c ∈ s'.tableOf g, c ∈ s.tableOf g ∨ c ∈ m
  outside : ∀ x ∉ m, ¬ InRange g offset length x → s'.refcount g x = s.refcount g x
  done : 0 ≤ out.ret → s'.Consistent g ∧
    ∀ x ∉ m, InRange g offset length x → (s'.refcount g x : ℤ) = s.refcount g x + a
  undone : length ≤ 0 ∨ (∃ n d, out.undo = some (n, d) ∧ (n ≤ 0 ∨ 0 ≤ d)) →
    (∀ x ∉ m, s'.refcount g x = s.refcount g x) ∧
      ((∀ x ∈ m, ¬ InRange g offset length x) → s'.Consistent g)

/-- The clusters that `update_refcount()` is for have blocks, or they have been found and are to be
counted. -/
def Updatable (g : Geometry) (s : Image) (offset length a : ℤ) : Prop :=
  ∀ x, InRange g offset length x → (∃ o, s.blockAt (x / g.blockClusters) = some o) ∨
    0 < a ∧ x < s.freeClusterIndex

lemma updateRefcount_attempted {fuel : ℕ} {offset length : ℤ} {out : Outcome} (ha : 0 < a)
    (hs : s.Consistent g) (hoff : 0 ≤ offset) (hrange : Updatable g s offset length a)
    (h : updateRefcount g fuel s offset length a = .ok (out, s')) :
    ∃ m, Attempted g s s' offset length a out m := by
  by_cases hlen : length ≤ 0
  · obtain ⟨rfl, hundo⟩ := updateRefcount_nonpos hlen h
    have hnone (x : ℕ) (hx : InRange g offset length x) : False := by
      have := hx.1
      omega
    exact ⟨[], rfl, fun c hc => absurd hc List.not_mem_nil, fun c hc => .inl hc, fun x _ _ => rfl,
      fun _ => ⟨hs, fun x _ hx => (hnone x hx).elim⟩, fun _ => ⟨fun x _ => rfl, fun _ => hs⟩⟩
  · obtain ⟨n, e, s₁, io, rfl, hloop, hend⟩ := updateRefcount_pos (by omega) h
    obtain ⟨i, k, hi, hk, hmem⟩ := inRange_iff (g := g) hoff (show 0 < length by omega)
    rw [hk, hi] at hloop
    obtain ⟨j, m, hj, hij, hcounted, hstop⟩ := updateLoop_counted (ranges_updateRefcount g n)
      (countsNew_updateRefcount g n) ha hs
      (fun x hx hlt => (hrange x ((hmem x).mpr ⟨hx, hlt⟩)).imp_right And.right)
      (fun hdiv => by
        have : (0 : ℤ) ≤ (i : ℤ) / g.blockClusters := by positivity
        omega) hloop
    have hframe := hcounted.frame
    have hout (x : ℕ) (hx : x ∉ m) (hr : ¬ InRange g offset length x) :
        s₁.refcount g x = s.refcount g x := by
      have := hcounted.refcount x hx
      rw [hmem] at hr
      rw [if_neg (by omega), add_zero] at this
      exact_mod_cast this
    have hcons₁ := hcounted.consistent
    obtain ⟨hret, hundo, rfl⟩ | ⟨hret, undone, hundo, rfl⟩ := hend
    · refine ⟨m, hframe.metadata, hframe.fresh, hframe.tables, hout, fun hpos =>
        ⟨(sameRefcounts_io s₁ io).consistent hcons₁, fun x hx hr => ?_⟩, ?_⟩
      · have := hcounted.refcount x hx
        rw [hmem] at hr
        rwa [if_pos (by omega)] at this
      · rintro (hlen' | ⟨n', d, heq, -⟩)
        · exact absurd hlen' hlen
        · rw [hundo] at heq
          cases heq
    · rw [hj] at hundo ⊢
      have hmem' (x : ℕ) := inRange_undo (g := g) (x := x) (j := j) hi
      have hundone : Ranged g { s₁ with io } s' offset (j * g.clusterSize - offset) (-a) undone :=
        updateRefcount_present ((sameRefcounts_io s₁ io).separate hcons₁.toSeparate) hoff
          (fun x hx => hcounted.present x ((hmem' x).mp hx).1 ((hmem' x).mp hx).2) hundo
      have hin (x : ℕ) (hx : InRange g offset (j * g.clusterSize - offset) x) :
          InRange g offset length x := by
        rw [hmem'] at hx
        exact (hmem x).mpr (by omega)
      have hsame : ({ s₁ with io } : Image).SameTable s' := hundone.same
      refine ⟨m, hsame.metadata.trans hframe.metadata, hframe.fresh,
        fun c hc => hframe.tables c (hsame.tableOf ▸ hc), fun x hx hr => ?_, fun hpos => absurd hret (not_lt.mpr hpos), ?_⟩
      · exact (hundone.outside x fun hx' => hr (hin x hx')).trans (hout x hx hr)
      · rintro (hlen' | ⟨n', d, heq, hclean⟩)
        · exact absurd hlen' hlen
        cases heq
        have hback (x : ℕ) (hx : x ∉ m) : s'.refcount g x = s.refcount g x := by
          have h₁ := hcounted.refcount x hx
          by_cases hx' : InRange g offset (j * g.clusterSize - offset) x
          · have hd : 0 ≤ undone.ret := hclean.resolve_left (by have := hx'.1; omega)
            have h₂ := hundone.done hd x hx'
            have h₃ : (({ s₁ with io } : Image).refcount g x : ℤ) = s₁.refcount g x := rfl
            rw [if_pos ((hmem' x).mp hx')] at h₁
            omega
          · rw [if_neg (fun h => hx' ((hmem' x).mpr h)), add_zero] at h₁
            exact (hundone.outside x hx').trans (by exact_mod_cast h₁)
        refine ⟨hback, fun hapart => ?_⟩
        refine hsame.consistent ((sameRefcounts_io s₁ io).consistent hcons₁) fun x hx hmeta => ?_
        by_cases hr : InRange g offset (j * g.clusterSize - offset) x
        · -- metadata in the range was metadata before
          have hxm : x ∉ m := fun hmem => hapart x hmem (hin x hr)
          rw [hback x hxm]
          obtain rfl | hx | ⟨t, o, ho, rfl⟩ := hmeta
          · exact hs.header
          · exact hs.tableCounted x ((hframe.tables x hx).resolve_right hxm)
          · obtain ho | ⟨hmem, -⟩ := hframe.hooked t o ho
            · exact hs.counted t o ho
            · exact absurd hmem hxm
        · rw [hundone.outside x hr]
          exact hx

/-- Clusters of 512 bytes. -/
def smallClusters : Geometry := ⟨9, le_rfl, by decide⟩

/-- An image with a header, a table and one block, and a cluster with the largest refcount. -/
def smallImage (io : List ℤ) : Image where
  refcountTable := [1024]
  refcountTableOffset := 512
  freeClusterIndex := 3
  block _ i := if i < 3 then 1 else if i = 4 then 65535 else 0
  io := io
  metadata := []

lemma blockAt_smallImage {io : List ℤ} {t o : ℕ} :
    (smallImage io).blockAt t = some o ↔ t = 0 ∧ o = 1024 := by
  cases t with
  | zero => simp [blockAt, smallImage, eq_comm]
  | succ t => simp [blockAt, smallImage]

lemma consistent_smallImage : (smallImage []).Consistent smallClusters := by
  have htable : (smallImage []).tableOf smallClusters = [1] := by decide
  refine ⟨⟨fun t o ho => ?_, fun t t' o ho ho' => ?_⟩, fun t o ho => ?_, by decide, fun c hc => ?_,
    fun t o ho => ?_, ?_⟩
  · obtain ⟨-, rfl⟩ := blockAt_smallImage.mp ho
    exact ⟨2, rfl⟩
  · exact (blockAt_smallImage.mp ho).1.trans (blockAt_smallImage.mp ho').1.symm
  · obtain ⟨-, rfl⟩ := blockAt_smallImage.mp ho
    decide
  · rw [htable, List.mem_singleton] at hc
    subst hc
    decide
  · obtain ⟨-, rfl⟩ := blockAt_smallImage.mp ho
    rw [htable]
    decide
  · rw [htable]
    decide

lemma updatable_smallImage : Updatable smallClusters (smallImage []) 1536 1024 1 := by
  intro x hx
  have hlast : (x : ℤ) ≤ 4 := hx.2.2.trans (by decide)
  have hdiv : x / smallClusters.blockClusters = 0 := Nat.div_eq_of_lt (by
    change x < 256
    omega)
  rw [hdiv]
  exact .inl ⟨1024, blockAt_smallImage.mpr ⟨rfl, rfl⟩⟩

end Limbo.Qcow2.Clusters
