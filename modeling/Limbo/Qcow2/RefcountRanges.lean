import Limbo.Qcow2.Refcounts

/-!
# Updates of ranges whose refcount blocks are there

The refcounts that an image holds, and what it takes for them to be separate: the blocks are aligned,
and no two entries of the refcount table point to one block. Where the blocks of a range are there,
`update_refcount()` changes no refcount outside of the range, nor the table, even if it fails.
-/

namespace Limbo.Qcow2.Clusters

/-- A step that has a result has one in its first part. -/
lemma ok_of_bind {α β : Type} {x : Except Fault α} {f : α → Except Fault β} {r : β}
    (h : x >>= f = .ok r) : ∃ a, x = .ok a ∧ f a = .ok r := by
  cases x with
  | error e => cases h
  | ok a => exact ⟨a, rfl, h⟩

namespace Geometry

variable (g : Geometry)

lemma blockClusters_pos : 0 < g.blockClusters := Nat.two_pow_pos _

lemma clusterSize_pos : 0 < g.clusterSize := Nat.two_pow_pos _

/-- Offsets of clusters are not changed by `REFT_OFFSET_MASK`. -/
lemma dvd_clusterSize : 256 ∣ g.clusterSize := by
  have hmin := g.minClusterBits
  exact pow_dvd_pow 2 (show 8 ≤ g.clusterBits by omega)

end Geometry

namespace Image

/-- The offset of a refcount block. -/
def blockAt (s : Image) (tableIndex : ℕ) : Option ℕ :=
  if s.refcountTable.getD tableIndex 0 = 0 then none
  else some (s.refcountTable.getD tableIndex 0)

variable (g : Geometry)

/-- The refcount of a cluster. -/
def refcount (s : Image) (c : ℕ) : ℕ :=
  (s.blockAt (c / g.blockClusters)).elim 0 fun offset => s.block offset (c % g.blockClusters)

/-- The clusters of the refcount table. -/
def tableOf (s : Image) : List ℕ := tableClusters g s.refcountTableOffset s.refcountTable.length

/-- The refcount blocks are separate. -/
structure Separate (s : Image) : Prop where
  aligned : ∀ t o, s.blockAt t = some o → g.clusterSize ∣ o
  distinct : ∀ t t' o, s.blockAt t = some o → s.blockAt t' = some o → t = t'

/-- The refcount table and the record of the metadata are the same. -/
structure SameTable (s s' : Image) : Prop where
  table : s'.refcountTable = s.refcountTable
  offset : s'.refcountTableOffset = s.refcountTableOffset
  metadata : s'.metadata = s.metadata

variable {g} {s s' s'' : Image}

lemma SameTable.refl (s : Image) : s.SameTable s := ⟨rfl, rfl, rfl⟩

lemma SameTable.trans (h : s.SameTable s') (h' : s'.SameTable s'') : s.SameTable s'' :=
  ⟨h'.table.trans h.table, h'.offset.trans h.offset, h'.metadata.trans h.metadata⟩

lemma SameTable.blockAt (h : s.SameTable s') (t : ℕ) : s'.blockAt t = s.blockAt t := by
  rw [Image.blockAt, Image.blockAt, h.table]

lemma SameTable.separate (h : s.SameTable s') (hs : s.Separate g) : s'.Separate g where
  aligned t o := by
    rw [h.blockAt]
    exact hs.aligned t o
  distinct t t' o := by
    rw [h.blockAt, h.blockAt]
    exact hs.distinct t t' o

/-- The refcounts are the same, too. -/
structure SameRefcounts (s s' : Image) : Prop extends s.SameTable s' where
  block : s'.block = s.block

lemma SameRefcounts.refcount (h : s.SameRefcounts s') (c : ℕ) : s'.refcount g c = s.refcount g c := by
  rw [Image.refcount, Image.refcount, h.blockAt, h.block]

lemma blockAt_eq_some {t o : ℕ} (h : s.blockAt t = some o) :
    o ≠ 0 ∧ t < s.refcountTable.length ∧ s.refcountTable.getD t 0 = o := by
  rw [blockAt] at h
  split_ifs at h with hzero
  rw [Option.some.injEq] at h
  refine ⟨h ▸ hzero, ?_, h⟩
  by_contra hlen
  exact hzero (List.getD_eq_default _ _ (by omega))

lemma refcount_of_blockAt {c o : ℕ} (h : s.blockAt (c / g.blockClusters) = some o) :
    s.refcount g c = s.block o (c % g.blockClusters) := by
  rw [refcount, h, Option.elim_some]

lemma refcount_of_none {c : ℕ} (h : s.blockAt (c / g.blockClusters) = none) :
    s.refcount g c = 0 := by
  rw [refcount, h, Option.elim_none]

lemma blockAt_of_refcount {c : ℕ} (h : s.refcount g c ≠ 0) :
    ∃ o, s.blockAt (c / g.blockClusters) = some o := by
  cases ho : s.blockAt (c / g.blockClusters) with
  | none => exact absurd (refcount_of_none ho) h
  | some o => exact ⟨o, rfl⟩

/-- Only the refcount of this cluster changes. -/
lemma refcount_setRefcount (hs : s.Separate g) {c o : ℕ}
    (ho : s.blockAt (c / g.blockClusters) = some o) (v x : ℕ) :
    (s.setRefcount o (c % g.blockClusters) v).refcount g x =
      if x = c then v else s.refcount g x := by
  have hat (t : ℕ) : (s.setRefcount o (c % g.blockClusters) v).blockAt t = s.blockAt t := rfl
  rw [refcount, hat]
  cases hx : s.blockAt (x / g.blockClusters) with
  | none =>
    rw [Option.elim_none, if_neg, refcount_of_none hx]
    rintro rfl
    rw [hx] at ho
    cases ho
  | some o' =>
    rw [Option.elim_some, refcount_of_blockAt hx]
    by_cases hoo : o' = o
    · subst hoo
      have hdiv := hs.distinct _ _ _ hx ho
      by_cases hmod : x % g.blockClusters = c % g.blockClusters
      · have hxc : x = c := by
          rw [← Nat.div_add_mod x g.blockClusters, hdiv, hmod, Nat.div_add_mod]
        simp [setRefcount, setBlock, hxc]
      · rw [if_neg fun hxc => hmod (by rw [hxc])]
        simp [setRefcount, setBlock, hmod]
    · rw [if_neg]
      · simp [setRefcount, setBlock, hoo]
      · rintro rfl
        rw [hx, Option.some.injEq] at ho
        exact hoo ho

end Image

open Image

variable {g : Geometry} {s s' : Image}

/-! ### The loop -/

/-- A block that is there is loaded. -/
lemma allocRefcountBlock_of_blockAt (update : Update) (fuel : ℕ) (hs : s.Separate g) {c o : ℕ}
    (ho : s.blockAt (c / g.blockClusters) = some o) :
    allocRefcountBlock g update fuel s c =
      .ok (if s.perform.1 < 0 then ((s.perform.1, none), s.perform.2)
        else ((s.perform.1, some o), s.perform.2)) := by
  obtain ⟨hne, -, hget⟩ := blockAt_eq_some ho
  have hmask : o / 256 * 256 = o := Nat.div_mul_cancel (g.dvd_clusterSize.trans (hs.aligned _ _ ho))
  rw [allocRefcountBlock]
  simp only [hget, hmask, if_pos hne]
  split_ifs <;> rfl

/-- The next round of the loop with the result of loading its block. -/
lemma updateLoop_succ {alloc : Image → ℕ → Except Fault ((ℤ × Option ℕ) × Image)} {a : ℤ}
    {k i : ℕ} {old : ℤ} {held : Option ℕ} {e : LoopEnd}
    (h : updateLoop g alloc a (k + 1) i old held s = .ok (e, s')) :
    ∃ ret held₁ s₁, nextBlock g alloc s i old held = .ok ((ret, held₁), s₁) ∧
      (ret < 0 ∧ e = ⟨ret, i, held₁⟩ ∧ s' = s₁ ∨
        0 ≤ ret ∧ ∃ o, held₁ = some o ∧
          ((s₁.block o (i % g.blockClusters) + a < 0 ∨ s₁.block o (i % g.blockClusters) + a > 65535) ∧
              e = ⟨einval, i, some o⟩ ∧ s' = s₁ ∨
            0 ≤ s₁.block o (i % g.blockClusters) + a ∧ ∃ f ≤ s₁.freeClusterIndex,
              (0 < s₁.block o (i % g.blockClusters) + a → f = s₁.freeClusterIndex) ∧
              updateLoop g alloc a k (i + 1 : ℕ) ((i : ℤ) / g.blockClusters) (some o)
                (setRefcount { s₁ with freeClusterIndex := f } o (i % g.blockClusters)
                  (s₁.block o (i % g.blockClusters) + a).toNat) = .ok (e, s'))) := by
  rw [updateLoop] at h
  obtain ⟨⟨⟨ret, held₁⟩, s₁⟩, hload, h⟩ := ok_of_bind h
  refine ⟨ret, held₁, s₁, hload, ?_⟩
  have hmod : ((i : ℤ) % g.blockClusters).toNat = i % g.blockClusters := by
    rw [← Int.natCast_mod, Int.toNat_natCast]
  dsimp only at h
  split_ifs at h with hret
  · cases h
    exact .inl ⟨hret, rfl, rfl⟩
  · refine .inr ⟨by omega, ?_⟩
    cases held₁ with
    | none => cases h
    | some o =>
      refine ⟨o, rfl, ?_⟩
      simp only [hmod] at h
      split_ifs at h with hrange hfree
      · cases h
        exact .inl ⟨hrange, rfl, rfl⟩
      · exact .inr ⟨by omega, i, by omega, by omega, h⟩
      · exact .inr ⟨by omega, _, le_rfl, fun _ => rfl, h⟩

lemma einval_neg : einval < 0 := by decide

/-- The refcounts after the clusters from `i` up to `j` were updated. -/
def Updated (g : Geometry) (s s' : Image) (a : ℤ) (i j : ℕ) : Prop :=
  ∀ x, (s'.refcount g x : ℤ) = s.refcount g x + if i ≤ x ∧ x < j then a else 0

lemma putBlock_snd (s : Image) (held : Option ℕ) : ∃ io, (putBlock s held).2 = { s with io } := by
  rw [putBlock]
  split_ifs
  · exact ⟨_, rfl⟩
  · exact ⟨_, rfl⟩

lemma sameRefcounts_io (s : Image) (io : List ℤ) : s.SameRefcounts { s with io } :=
  ⟨⟨rfl, rfl, rfl⟩, rfl⟩

lemma nextBlock_cases {alloc : Image → ℕ → Except Fault ((ℤ × Option ℕ) × Image)} {i : ℕ}
    {old ret : ℤ} {held held₁ : Option ℕ}
    (h : nextBlock g alloc s i old held = .ok ((ret, held₁), s')) :
    (i : ℤ) / g.blockClusters = old ∧ ret = 0 ∧ held₁ = held ∧ s' = s ∨
      ∃ io, ret < 0 ∧ held₁ = none ∧ s' = { s with io } ∨
        alloc { s with io } i = .ok ((ret, held₁), s') := by
  rw [nextBlock] at h
  by_cases hsame : (i : ℤ) / g.blockClusters = old
  · rw [if_neg (not_not.mpr hsame)] at h
    cases h
    exact .inl ⟨hsame, rfl, rfl, rfl⟩
  · obtain ⟨io, hput⟩ := putBlock_snd s held
    rw [if_pos hsame] at h
    simp only [hput, if_neg (show ¬ (i : ℤ) < 0 by omega), Int.toNat_natCast] at h
    refine .inr ⟨io, ?_⟩
    split_ifs at h with hret
    · cases h
      exact .inl ⟨hret, rfl, rfl⟩
    · exact .inr h

/-- The block of a cluster that has one is loaded. -/
lemma nextBlock_present {update : Update} {fuel i : ℕ} {old ret : ℤ} {held held₁ : Option ℕ} {o : ℕ}
    (hs : s.Separate g) (ho : s.blockAt (i / g.blockClusters) = some o)
    (hheld : (i : ℤ) / g.blockClusters = old → held = some o)
    (h : nextBlock g (allocRefcountBlock g update fuel) s i old held = .ok ((ret, held₁), s')) :
    s.SameRefcounts s' ∧ (0 ≤ ret → held₁ = some o) := by
  obtain ⟨hsame, rfl, rfl, rfl⟩ | ⟨io, ⟨hret, -, rfl⟩ | halloc⟩ := nextBlock_cases h
  · exact ⟨⟨.refl _, rfl⟩, fun _ => hheld hsame⟩
  · exact ⟨sameRefcounts_io s io, fun hpos => absurd hret (not_lt.mpr hpos)⟩
  · rw [allocRefcountBlock_of_blockAt update fuel (s := { s with io }) ⟨hs.aligned, hs.distinct⟩ ho]
      at halloc
    split_ifs at halloc with hload
    · cases halloc
      exact ⟨sameRefcounts_io s _, fun hpos => absurd hload (not_lt.mpr hpos)⟩
    · cases halloc
      exact ⟨sameRefcounts_io s _, fun _ => rfl⟩

/-- One cluster is updated. -/
lemma updated_setRefcount (hs : s.Separate g) {i o f : ℕ} {a : ℤ}
    (ho : s.blockAt (i / g.blockClusters) = some o)
    (hpos : 0 ≤ s.block o (i % g.blockClusters) + a) :
    Updated g s (setRefcount { s with freeClusterIndex := f } o (i % g.blockClusters)
      (s.block o (i % g.blockClusters) + a).toNat) a i (i + 1) := by
  intro x
  rw [refcount_setRefcount (s := { s with freeClusterIndex := f }) ⟨hs.aligned, hs.distinct⟩ ho]
  by_cases hx : x = i
  · rw [if_pos hx, if_pos (by omega), Int.toNat_of_nonneg hpos, hx, refcount_of_blockAt ho]
  · rw [if_neg hx, if_neg (by omega), add_zero]
    rfl

lemma updated_none {a : ℤ} {i : ℕ} (h : s.SameRefcounts s') : Updated g s s' a i i := fun x => by
  rw [if_neg (by omega), add_zero, h.refcount]

lemma Updated.trans {s'' : Image} {a : ℤ} {i j k : ℕ} (h : Updated g s s' a i j)
    (h' : Updated g s' s'' a j k) (hij : i ≤ j) (hjk : j ≤ k) : Updated g s s'' a i k := by
  intro x
  rw [h' x, h x, add_assoc]
  congr 1
  split_ifs <;> omega

/-- The loop for clusters that have blocks. -/
lemma updateLoop_present {update : Update} {fuel k i : ℕ} {a old : ℤ} {held : Option ℕ} {e : LoopEnd}
    (hs : s.Separate g)
    (hrange : ∀ x, i ≤ x → x < i + k → ∃ o, s.blockAt (x / g.blockClusters) = some o)
    (hheld : ∀ o, s.blockAt (i / g.blockClusters) = some o →
      (i : ℤ) / g.blockClusters = old → held = some o)
    (h : updateLoop g (allocRefcountBlock g update fuel) a k i old held s = .ok (e, s')) :
    ∃ j : ℕ, e.clusterIndex = j ∧ i ≤ j ∧ s.SameTable s' ∧ Updated g s s' a i j ∧
      (e.ret < 0 ∧ j < i + k ∨ e.ret = 0 ∧ j = i + k) := by
  induction k generalizing i old held s with
  | zero =>
    rw [updateLoop] at h
    cases h
    exact ⟨i, rfl, le_rfl, .refl _, updated_none ⟨.refl _, rfl⟩, .inr ⟨rfl, rfl⟩⟩
  | succ k ih =>
    obtain ⟨o, ho⟩ := hrange i le_rfl (by omega)
    obtain ⟨ret, held₁, s₁, hload, hround⟩ := updateLoop_succ h
    obtain ⟨hsame, hheld₁⟩ := nextBlock_present hs ho (hheld o ho) hload
    obtain ⟨hret, rfl, rfl⟩ | ⟨hret, o', rfl, hround⟩ := hround
    · exact ⟨i, rfl, le_rfl, hsame.toSameTable, updated_none hsame, .inl ⟨hret, by omega⟩⟩
    · obtain rfl : o' = o := Option.some.inj (hheld₁ hret)
      obtain ⟨-, rfl, rfl⟩ | ⟨hpos, f, -, -, hrest⟩ := hround
      · exact ⟨i, rfl, le_rfl, hsame.toSameTable, updated_none hsame, .inl ⟨einval_neg, by omega⟩⟩
      · have hs₁ := hsame.separate hs
        have ho₁ := (hsame.blockAt _).trans ho
        have hone := updated_setRefcount (f := f) hs₁ ho₁ hpos
        generalize hs₂ : setRefcount _ _ _ _ = s₂ at hone hrest
        have hsame₂ : s.SameTable s₂ := by
          subst hs₂
          exact ⟨hsame.table, hsame.offset, hsame.metadata⟩
        have hheld₂ : ∀ o'', s₂.blockAt ((i + 1) / g.blockClusters) = some o'' →
            ((i + 1 : ℕ) : ℤ) / g.blockClusters = (i : ℤ) / g.blockClusters →
            some o' = some o'' := by
          intro o'' ho'' hdiv
          have hdiv' : (i + 1) / g.blockClusters = i / g.blockClusters := by exact_mod_cast hdiv
          rw [hsame₂.blockAt, hdiv'] at ho''
          exact ho.symm.trans ho''
        obtain ⟨j, hj, hij, hsame₃, hupdated, hend⟩ := ih (hsame₂.separate hs)
          (fun x hx hlt => (hrange x (by omega) (by omega)).imp fun _ => (hsame₂.blockAt _).trans)
          hheld₂ hrest
        exact ⟨j, hj, by omega, hsame₂.trans hsame₃,
          ((updated_none hsame).trans hone le_rfl (by omega)).trans hupdated (by omega) hij, by omega⟩

/-! ### The function -/

/-- The clusters that `update_refcount(bs, offset, length, addend)` is for. -/
def InRange (g : Geometry) (offset length : ℤ) (x : ℕ) : Prop :=
  0 < length ∧ firstCluster g offset ≤ x ∧ x ≤ lastCluster g offset length

lemma updateRefcount_nonpos {fuel : ℕ} {offset length a : ℤ} {out : Outcome} (hlen : length ≤ 0)
    (h : updateRefcount g fuel s offset length a = .ok (out, s')) : s' = s ∧ out.undo = none := by
  cases fuel with
  | zero => cases h
  | succ n =>
    rw [updateRefcount] at h
    split_ifs at h with hneg hzero
    · cases h
      exact ⟨rfl, rfl⟩
    · cases h
      exact ⟨rfl, rfl⟩
    · omega

/-- How `update_refcount()` ends after its loop. -/
lemma updateRefcount_pos {fuel : ℕ} {offset length a : ℤ} {out : Outcome} (hlen : 0 < length)
    (h : updateRefcount g fuel s offset length a = .ok (out, s')) :
    ∃ n e s₁ io, fuel = n + 1 ∧ updateLoop g (allocRefcountBlock g (updateRefcount g n) n) a
        (lastCluster g offset length + 1 - firstCluster g offset).toNat (firstCluster g offset) (-1)
        none s = .ok (e, s₁) ∧
      ((out.ret < 0 ∨ out.ret = e.ret ∧ 0 ≤ e.ret) ∧ out.undo = none ∧ s' = { s₁ with io } ∨
        e.ret < 0 ∧ ∃ undone, updateRefcount g n { s₁ with io } offset
            (e.clusterIndex * g.clusterSize - offset) (-a) = .ok (undone, s') ∧
          out = ⟨e.ret, some (e.clusterIndex * g.clusterSize - offset, undone.ret)⟩) := by
  cases fuel with
  | zero => cases h
  | succ n =>
    rw [updateRefcount, if_neg (by omega), if_neg (by omega)] at h
    obtain ⟨⟨e, s₁⟩, hloop, h⟩ := ok_of_bind h
    obtain ⟨io, hput⟩ := putBlock_snd s₁ e.refcountBlock
    refine ⟨n, e, s₁, io, rfl, hloop, ?_⟩
    simp only [hput] at h
    split_ifs at h with hwret hret hret
    · cases h
      exact .inl ⟨.inl hret, rfl, rfl⟩
    · cases h
      exact .inl ⟨.inl hwret, rfl, rfl⟩
    · obtain ⟨⟨undone, s₂⟩, hundo, h⟩ := ok_of_bind h
      cases h
      exact .inr ⟨hret, undone, hundo, rfl⟩
    · cases h
      exact .inl ⟨.inr ⟨rfl, by omega⟩, rfl, rfl⟩

/-- The range of the loop. -/
lemma inRange_iff {offset length : ℤ} (hoff : 0 ≤ offset) (hlen : 0 < length) :
    ∃ i k : ℕ, firstCluster g offset = i ∧
      (lastCluster g offset length + 1 - firstCluster g offset).toNat = k ∧
      ∀ x, InRange g offset length x ↔ i ≤ x ∧ x < i + k := by
  have hcs : (0 : ℤ) < g.clusterSize := by exact_mod_cast g.clusterSize_pos
  have hfirst : 0 ≤ firstCluster g offset := Int.ediv_nonneg hoff hcs.le
  have hle : firstCluster g offset ≤ lastCluster g offset length :=
    Int.ediv_le_ediv hcs (by omega)
  refine ⟨(firstCluster g offset).toNat, _, by omega, rfl, fun x => ?_⟩
  rw [InRange]
  omega

lemma lastCluster_undo (g : Geometry) (offset : ℤ) (j : ℕ) :
    lastCluster g offset (j * g.clusterSize - offset) = j - 1 := by
  have hcs : (0 : ℤ) < g.clusterSize := by exact_mod_cast g.clusterSize_pos
  rw [lastCluster, add_sub_cancel, show (j : ℤ) * g.clusterSize - 1 =
    g.clusterSize - 1 + (j - 1) * g.clusterSize by ring, Int.add_mul_ediv_right _ _ hcs.ne',
    Int.ediv_eq_zero_of_lt (by omega) (by omega), zero_add]

/-- The range that is undone are the clusters before the one that the loop stopped at. -/
lemma inRange_undo {offset : ℤ} {i j x : ℕ} (hi : firstCluster g offset = i) :
    InRange g offset (j * g.clusterSize - offset) x ↔ i ≤ x ∧ x < j := by
  have hcs : (0 : ℤ) < g.clusterSize := by exact_mod_cast g.clusterSize_pos
  rw [InRange, hi, lastCluster_undo]
  refine ⟨fun h => by omega, fun h => ⟨?_, by omega⟩⟩
  have hlt : offset < ((i : ℤ) + 1) * g.clusterSize := by
    rw [← hi]
    exact Int.lt_ediv_add_one_mul_self offset hcs
  have hmul : ((i : ℤ) + 1) * g.clusterSize ≤ j * g.clusterSize :=
    mul_le_mul_of_nonneg_right (by omega) hcs.le
  omega

lemma mem_tableClusters {offset length c : ℕ} : c ∈ tableClusters g offset length ↔
    length ≠ 0 ∧ offset / g.clusterSize ≤ c ∧ c ≤ (offset + length * 8 - 1) / g.clusterSize := by
  rw [tableClusters]
  split_ifs with hlen
  · simp [hlen]
  · simp only [List.mem_map, List.mem_range]
    refine ⟨?_, fun h => ⟨c - offset / g.clusterSize, by omega, by omega⟩⟩
    rintro ⟨i, hi, rfl⟩
    omega

/-- The clusters of a table are those that are freed with it. -/
lemma inRange_tableClusters {offset length c : ℕ} :
    InRange g offset (length * 8) c ↔ c ∈ tableClusters g offset length := by
  have hfirst : firstCluster g offset = (offset / g.clusterSize : ℕ) := by
    rw [firstCluster, Int.natCast_div]
  rw [InRange, mem_tableClusters, hfirst]
  by_cases hlen : length = 0
  · simp [hlen]
  · have hlast : lastCluster g offset (length * 8) =
        ((offset + length * 8 - 1) / g.clusterSize : ℕ) := by
      rw [lastCluster, Int.natCast_div]
      congr 1
      omega
    rw [hlast]
    omega

/-- An update for clusters that have blocks: nothing else is changed, a range is updated if there is no
error, and nothing at all is changed if what has been done is undone. -/
structure Ranged (g : Geometry) (s s' : Image) (offset length a : ℤ) (out : Outcome) : Prop where
  same : s.SameTable s'
  outside : ∀ x, ¬ InRange g offset length x → s'.refcount g x = s.refcount g x
  done : 0 ≤ out.ret → ∀ x, InRange g offset length x → (s'.refcount g x : ℤ) = s.refcount g x + a
  undone : ∀ n d, out.undo = some (n, d) → n ≤ 0 ∨ 0 ≤ d → ∀ x, s'.refcount g x = s.refcount g x

lemma updateRefcount_present {fuel : ℕ} {offset length a : ℤ} {out : Outcome} (hs : s.Separate g)
    (hoff : 0 ≤ offset)
    (hrange : ∀ x, InRange g offset length x → ∃ o, s.blockAt (x / g.blockClusters) = some o)
    (h : updateRefcount g fuel s offset length a = .ok (out, s')) :
    Ranged g s s' offset length a out := by
  induction fuel generalizing s s' length a out with
  | zero => cases h
  | succ n ih =>
    by_cases hlen : length ≤ 0
    · obtain ⟨rfl, hundo⟩ := updateRefcount_nonpos hlen h
      refine ⟨.refl _, fun x _ => rfl, fun _ x hx => absurd hx.1 (by omega), fun n d heq => ?_⟩
      rw [hundo] at heq
      cases heq
    · obtain ⟨n', e, s₁, io, hn, hloop, hend⟩ := updateRefcount_pos (by omega) h
      obtain rfl : n = n' := by omega
      obtain ⟨i, k, hi, hk, hmem⟩ := inRange_iff (g := g) hoff (show 0 < length by omega)
      rw [hi] at hloop hk
      rw [hk] at hloop
      have hstart : (0 : ℤ) ≤ (i : ℤ) / g.blockClusters := by positivity
      obtain ⟨j, hj, hij, hsame, hupdated, hstop⟩ := updateLoop_present hs
        (fun x hx hlt => hrange x ((hmem x).mpr ⟨hx, hlt⟩)) (fun o _ hdiv => by omega) hloop
      have hout (x : ℕ) (hx : ¬ InRange g offset length x) : s₁.refcount g x = s.refcount g x := by
        have h₁ := hupdated x
        rw [hmem] at hx
        rw [if_neg (by omega), add_zero] at h₁
        exact_mod_cast h₁
      obtain ⟨hret, hundo, rfl⟩ | ⟨hret, undone, hundo, rfl⟩ := hend
      · refine ⟨⟨hsame.table, hsame.offset, hsame.metadata⟩, hout, fun hpos x hx => ?_,
          fun n d heq => ?_⟩
        · rw [hmem] at hx
          have h₁ := hupdated x
          rwa [if_pos (by omega)] at h₁
        · rw [hundo] at heq
          cases heq
      · rw [hj] at hundo
        have hmem' (x : ℕ) := inRange_undo (g := g) (x := x) (j := j) hi
        have hs₁ := hsame.separate hs
        have hundone := ih (s := { s₁ with io }) ⟨hs₁.aligned, hs₁.distinct⟩ (fun x hx => by
          rw [hmem'] at hx
          obtain ⟨o, ho⟩ := hrange x ((hmem x).mpr (by omega))
          exact ⟨o, (hsame.blockAt _).trans ho⟩) hundo
        refine ⟨hsame.trans ⟨hundone.same.table, hundone.same.offset, hundone.same.metadata⟩,
          fun x hx => ?_, fun hpos => absurd hret (not_lt.mpr hpos), fun n d heq hclean x => ?_⟩
        · have hx' : ¬ InRange g offset (j * g.clusterSize - offset) x := by
            rw [hmem']
            rw [hmem] at hx
            omega
          exact (hundone.outside x hx').trans (hout x hx)
        · rw [hj] at heq
          cases heq
          have h₁ := hupdated x
          by_cases hx : InRange g offset (j * g.clusterSize - offset) x
          · have hd : 0 ≤ undone.ret := hclean.resolve_left (by have := hx.1; omega)
            have h₂ := hundone.done hd x hx
            have h₃ : ({ s₁ with io }.refcount g x : ℤ) = s₁.refcount g x := rfl
            rw [if_pos ((hmem' x).mp hx)] at h₁
            omega
          · rw [if_neg (fun h => hx ((hmem' x).mpr h)), add_zero] at h₁
            exact (hundone.outside x hx).trans (by exact_mod_cast h₁)

end Limbo.Qcow2.Clusters
