import Limbo.Qcow2.RefcountUndo

/-!
# The size of a larger refcount table

The loop for the size of the new refcount table ends, as long as 32 bits suffice: the sizes that it
goes through increase, since `next_refcount_table_size()` is monotone, and they stay below `2 ^ 31`.
-/

namespace Limbo.Qcow2.Clusters

open Image

variable {g : Geometry} {s s' : Image}

lemma u32_of_lt {n : ℕ} (h : n < 4294967296) : u32 n = n := Nat.mod_eq_of_lt h

namespace Geometry

lemma tableEntries_pos (g : Geometry) : 0 < g.tableEntries := Nat.two_pow_pos _

lemma le_tableEntries (g : Geometry) : 64 ≤ g.tableEntries :=
  Nat.pow_le_pow_right two_pos (show 6 ≤ g.clusterBits - 3 by have := g.minClusterBits; omega)

lemma tableEntries_le (g : Geometry) : g.tableEntries ≤ 262144 :=
  Nat.pow_le_pow_right two_pos (show g.clusterBits - 3 ≤ 18 by have := g.maxClusterBits; omega)

lemma le_blockClusters (g : Geometry) : 256 ≤ g.blockClusters :=
  Nat.pow_le_pow_right two_pos (show 8 ≤ g.clusterBits - 1 by have := g.minClusterBits; omega)

lemma clusterSize_eq_tableEntries (g : Geometry) : g.clusterSize = g.tableEntries * 8 := by
  have hmin := g.minClusterBits
  rw [clusterSize, tableEntries, show g.clusterBits = g.clusterBits - 3 + 3 by omega, pow_add]
  rfl

lemma clusterSize_eq_blockClusters (g : Geometry) : g.clusterSize = g.blockClusters * 2 := by
  have hmin := g.minClusterBits
  rw [clusterSize, blockClusters, show g.clusterBits = g.clusterBits - 1 + 1 by omega, pow_succ]
  rfl

end Geometry

/-! ### `next_refcount_table_size()` -/

/-- The loop ends with the first size that is large enough. -/
lemma growTableClusters_spec {minClusters tableClusters : ℕ} (hmin : minClusters ≤ 1431655764)
    (hpos : 0 < tableClusters) :
    ∃ r ≥ minClusters, tableClusters ≤ r ∧ (r = tableClusters ∨ 2 * r + 2 ≤ 3 * minClusters) ∧
      ∀ fuel, minClusters - tableClusters < fuel →
        growTableClusters minClusters fuel tableClusters = some r := by
  induction hk : minClusters - tableClusters using Nat.strong_induction_on generalizing tableClusters
  rename_i k ih
  by_cases hlt : minClusters > tableClusters
  · have hnext : u32 (tableClusters * 3 + 1) / 2 = (tableClusters * 3 + 1) / 2 := by
      rw [u32_of_lt (by omega)]
    obtain ⟨r, hr, hle, hbound, hfuel⟩ := ih (minClusters - (tableClusters * 3 + 1) / 2) (by omega)
      (show 0 < (tableClusters * 3 + 1) / 2 by omega) rfl
    refine ⟨r, hr, by omega, .inr (by omega), fun fuel hf => ?_⟩
    obtain ⟨fuel, rfl⟩ : ∃ f, fuel = f + 1 := ⟨fuel - 1, by omega⟩
    rw [growTableClusters, if_pos hlt, hnext]
    exact hfuel fuel (by omega)
  · refine ⟨tableClusters, by omega, le_rfl, .inl rfl, fun fuel hf => ?_⟩
    obtain ⟨fuel, rfl⟩ : ∃ f, fuel = f + 1 := ⟨fuel - 1, by omega⟩
    rw [growTableClusters, if_neg hlt]

lemma le_growTableClusters {min fuel tableClusters r : ℕ} (hmin : min ≤ 1431655764)
    (hpos : 0 < tableClusters) (h : growTableClusters min fuel tableClusters = some r) :
    tableClusters ≤ r := by
  induction fuel generalizing tableClusters with
  | zero => cases h
  | succ fuel ih =>
    rw [growTableClusters] at h
    split_ifs at h with hlt
    · rw [u32_of_lt (by omega)] at h
      have := ih (by omega) h
      omega
    · cases h
      exact le_rfl

/-- The loop is monotone. -/
lemma growTableClusters_mono {min min' fuel fuel' tableClusters r r' : ℕ} (hle : min ≤ min')
    (hmin : min' ≤ 1431655764) (hpos : 0 < tableClusters)
    (h : growTableClusters min fuel tableClusters = some r)
    (h' : growTableClusters min' fuel' tableClusters = some r') : r ≤ r' := by
  induction fuel generalizing fuel' tableClusters with
  | zero => cases h
  | succ fuel ih =>
    rw [growTableClusters] at h
    split_ifs at h with hlt
    · cases fuel' with
      | zero => cases h'
      | succ fuel' =>
        rw [growTableClusters, if_pos (by omega)] at h'
        refine ih ?_ h h'
        rw [u32_of_lt (by omega)]
        omega
    · cases h
      exact le_growTableClusters hmin hpos h'

/-- The size of the table for at least `minSize` entries, with as much fuel as is given here. -/
def nextSize (g : Geometry) (refcountTableSize minSize : ℕ) : ℕ :=
  ((growTableClusters (minSize / g.tableEntries + 1) 134217728
    (max 1 (refcountTableSize / g.tableEntries))).getD 0) * g.tableEntries

lemma nextRefcountTableSize_eq {len m fuel : ℕ} (hlen : len ≤ 1073741824) (hm : m ≤ 1074790400)
    (hfuel : 134217728 ≤ fuel) :
    nextRefcountTableSize g fuel len m = some (nextSize g len m) ∧ m < nextSize g len m ∧
      g.tableEntries ∣ nextSize g len m ∧
      (nextSize g len m ≤ max g.tableEntries len ∨
        2 * nextSize g len m ≤ 3 * m + g.tableEntries) := by
  have hte := g.le_tableEntries
  have hte' := g.tableEntries_le
  have hdiv : m / g.tableEntries ≤ 16793600 :=
    (Nat.div_le_div_left hte (by decide)).trans (by omega)
  obtain ⟨r, hr, hle, hbound, hspec⟩ := growTableClusters_spec
    (show m / g.tableEntries + 1 ≤ 1431655764 by omega)
    (show 0 < max 1 (len / g.tableEntries) by omega)
  have hsize : nextSize g len m = r * g.tableEntries := by
    rw [nextSize, hspec _ (by omega), Option.getD_some]
  have hlow : m < r * g.tableEntries :=
    calc m < (m / g.tableEntries + 1) * g.tableEntries := by
          rw [add_one_mul]
          exact Nat.lt_div_mul_add g.tableEntries_pos
      _ ≤ r * g.tableEntries := Nat.mul_le_mul_right _ hr
  have hhigh : r * g.tableEntries ≤ max g.tableEntries len ∨
      2 * (r * g.tableEntries) ≤ 3 * m + g.tableEntries := by
    refine hbound.imp (fun heq => ?_) fun hle => ?_
    · rw [heq, ← Nat.mul_max_mul_right, one_mul]
      exact max_le_max le_rfl (Nat.div_mul_le_self _ _)
    · have hmul := Nat.mul_le_mul_right g.tableEntries hle
      have := Nat.div_mul_le_self m g.tableEntries
      linarith
  rw [hsize]
  refine ⟨?_, hlow, dvd_mul_left _ _, hhigh⟩
  rw [nextRefcountTableSize, u32_of_lt (by omega)]
  simp only [hspec fuel (by omega), Option.bind_eq_bind, Option.bind_some, Option.pure_def]
  rw [u32_of_lt (by omega)]

lemma nextSize_mono {len m m' : ℕ} (hle : m ≤ m')
    (hm : m' ≤ 1074790400) : nextSize g len m ≤ nextSize g len m' := by
  have hte := g.le_tableEntries
  have hdiv : m / g.tableEntries ≤ m' / g.tableEntries := Nat.div_le_div_right hle
  have hdiv' : m' / g.tableEntries ≤ 16793600 :=
    (Nat.div_le_div_left hte (by decide)).trans (by omega)
  have hpos : 0 < max 1 (len / g.tableEntries) := by omega
  obtain ⟨r, -, -, -, hr⟩ := growTableClusters_spec
    (show m / g.tableEntries + 1 ≤ 1431655764 by omega) hpos
  obtain ⟨r', -, -, -, hr'⟩ := growTableClusters_spec
    (show m' / g.tableEntries + 1 ≤ 1431655764 by omega) hpos
  have hmono := growTableClusters_mono (by omega) (by omega) hpos
    (hr 134217728 (by omega)) (hr' 134217728 (by omega))
  rw [nextSize, nextSize, hr _ (by omega), hr' _ (by omega)]
  exact Nat.mul_le_mul_right _ hmono

/-! ### The loop for the size -/

/-- The entries that are needed for a table of this size. -/
def neededSize (g : Geometry) (blocksUsed tableSize : ℕ) : ℕ :=
  blocksUsed + (g.sizeToClusters tableSize + blocksClusters g tableSize + g.blockClusters - 1) /
    g.blockClusters

lemma sizeToClusters_mono {a b : ℕ} (h : a ≤ b) : g.sizeToClusters a ≤ g.sizeToClusters b :=
  Nat.div_le_div_right (by omega)

lemma blocksClusters_mono {a b : ℕ} (h : a ≤ b) : blocksClusters g a ≤ blocksClusters g b := by
  have := sizeToClusters_mono (g := g) h
  exact Nat.add_le_add_left (Nat.div_le_div_right (by omega)) 1

lemma neededSize_mono (blocksUsed : ℕ) {a b : ℕ} (h : a ≤ b) :
    neededSize g blocksUsed a ≤ neededSize g blocksUsed b := by
  have h₁ := sizeToClusters_mono (g := g) h
  have h₂ := blocksClusters_mono (g := g) h
  exact Nat.add_le_add_left (Nat.div_le_div_right (by omega)) _

lemma neededSize_bounds (blocksUsed : ℕ) {tableSize : ℕ} (h : tableSize < 2147483648) :
    blocksUsed + 1 ≤ neededSize g blocksUsed tableSize ∧
      neededSize g blocksUsed tableSize ≤ blocksUsed + 1048576 := by
  have hB := g.le_blockClusters
  have hcs : 512 ≤ g.clusterSize := by
    rw [g.clusterSize_eq_blockClusters]
    omega
  have hclusters : g.sizeToClusters tableSize ≤ 4194304 := by
    rw [Geometry.sizeToClusters, Nat.div_le_iff_le_mul g.clusterSize_pos]
    have := Nat.mul_le_mul_left 4194304 hcs
    omega
  have hblocks : blocksClusters g tableSize ≤ 4194305 := by
    rw [blocksClusters, Nat.add_comm]
    refine Nat.add_le_add_right ?_ 1
    rw [Nat.div_le_iff_le_mul g.blockClusters_pos]
    have := Nat.mul_le_mul_left 4194304 hB
    omega
  have hpos : 1 ≤ blocksClusters g tableSize := Nat.le_add_right _ _
  refine ⟨Nat.add_le_add_left ?_ _, Nat.add_le_add_left ?_ _⟩
  · rw [Nat.le_div_iff_mul_le g.blockClusters_pos]
    omega
  · rw [Nat.div_le_iff_le_mul g.blockClusters_pos]
    have := Nat.mul_le_mul_left 1048576 hB
    omega

lemma tableSizeLoop_succ {len bu fuel tableSize next : ℕ}
    (h : nextRefcountTableSize g fuel len (neededSize g bu tableSize) = some next) :
    tableSizeLoop g len bu (fuel + 1) tableSize =
      if tableSize ≠ next then tableSizeLoop g len bu fuel next
      else some (next, blocksClusters g tableSize) :=
  congrArg (Option.bind · fun next =>
    if tableSize ≠ next then tableSizeLoop g len bu fuel next
    else some (next, blocksClusters g tableSize)) h

/-- The loop ends with a size that is the next one of itself. -/
lemma tableSizeLoop_spec {len bu tableSize : ℕ} (hlen : len ≤ bu) (hbu : bu ≤ 1073741824)
    (hsize : tableSize < 2147483648) (hle : tableSize ≤ nextSize g len (neededSize g bu tableSize)) :
    ∃ T, T < 2147483648 ∧ nextSize g len (neededSize g bu T) = T ∧
      ∀ fuel, 2147483648 + 134217728 ≤ fuel + tableSize →
        tableSizeLoop g len bu fuel tableSize = some (T, blocksClusters g T) := by
  induction hk : 2147483648 - tableSize using Nat.strong_induction_on generalizing tableSize
  rename_i k ih
  obtain ⟨-, hneeded⟩ := neededSize_bounds (g := g) bu hsize
  have hte := g.tableEntries_le
  have hnext (fuel : ℕ) (hf : 134217728 ≤ fuel) := nextRefcountTableSize_eq (g := g)
    (show len ≤ 1073741824 by omega) (show neededSize g bu tableSize ≤ 1074790400 by omega) hf
  have hlt : nextSize g len (neededSize g bu tableSize) < 2147483648 := by
    obtain ⟨-, -, -, hbound⟩ := hnext _ le_rfl
    omega
  by_cases hne : tableSize = nextSize g len (neededSize g bu tableSize)
  · refine ⟨tableSize, hsize, hne.symm, fun fuel hf => ?_⟩
    obtain ⟨fuel, rfl⟩ : ∃ f, fuel = f + 1 := ⟨fuel - 1, by omega⟩
    rw [tableSizeLoop_succ (hnext fuel (by omega)).1, if_neg (not_not.mpr hne), ← hne]
  · have hmono := neededSize_mono (g := g) bu hle
    obtain ⟨-, hneeded'⟩ := neededSize_bounds (g := g) bu hlt
    obtain ⟨T, hT, hfix, hfuel⟩ := ih _ (by omega) hlt (nextSize_mono hmono (by omega)) rfl
    refine ⟨T, hT, hfix, fun fuel hf => ?_⟩
    obtain ⟨fuel, rfl⟩ : ∃ f, fuel = f + 1 := ⟨fuel - 1, by omega⟩
    rw [tableSizeLoop_succ (hnext fuel (by omega)).1, if_pos hne]
    exact hfuel fuel (by omega)

/-- A quotient that is rounded up, by a smaller divisor. -/
lemma div_up_le {n d e : ℕ} (he : 0 < e) (hle : e ≤ d) : (n + d - 1) / d ≤ n / e + 1 :=
  calc (n + d - 1) / d ≤ (n + d) / d := Nat.div_le_div_right (by omega)
    _ = n / d + 1 := Nat.add_div_right n (he.trans_le hle)
    _ ≤ n / e + 1 := Nat.add_le_add_right (Nat.div_le_div_left hle he) 1

lemma neededSize_le (bu tableSize : ℕ) :
    neededSize g bu tableSize ≤ bu + tableSize / 65536 + 2 := by
  have hB := g.le_blockClusters
  have hcs : 512 ≤ g.clusterSize := by
    rw [g.clusterSize_eq_blockClusters]
    omega
  have hclusters : g.sizeToClusters tableSize ≤ tableSize / 512 + 1 := by
    rw [Geometry.sizeToClusters, ← Nat.add_sub_assoc g.clusterSize_pos]
    exact div_up_le (by decide) hcs
  have hblocks : blocksClusters g tableSize ≤ 1 + (g.sizeToClusters tableSize / 256 + 1) :=
    Nat.add_le_add_left (div_up_le (by decide) hB) 1
  have hneeded : neededSize g bu tableSize ≤
      bu + ((g.sizeToClusters tableSize + blocksClusters g tableSize) / 256 + 1) :=
    Nat.add_le_add_left (div_up_le (by decide) hB) bu
  omega

/-- The size of the table does not fit the blocks only if the image is large: the blocks in use take
more than two thirds of the entries, and the number of new blocks is that for a table in bytes. -/
lemma metaCount_le {bu tableSize : ℕ} (hbu : bu ≤ g.tableEntries * g.blockClusters)
    (hdvd : g.tableEntries ∣ tableSize) (hpos : 0 < tableSize)
    (hbound : tableSize ≤ max g.tableEntries bu ∨
      2 * tableSize ≤ 3 * neededSize g bu tableSize + g.tableEntries) :
    metaCount g tableSize (blocksClusters g tableSize) ≤
      blocksClusters g tableSize * g.blockClusters := by
  have hte := g.le_tableEntries
  have hB := g.le_blockClusters
  have hcs := g.clusterSize_pos
  have hcs' := g.clusterSize_eq_tableEntries
  obtain ⟨k, rfl⟩ := hdvd
  have hk : 0 < k := Nat.pos_of_mul_pos_left hpos
  have hclusters : g.sizeToClusters (g.tableEntries * k * 8) = k := by
    rw [Geometry.sizeToClusters, show g.tableEntries * k * 8 = g.clusterSize * k by rw [hcs']; ring,
      Nat.mul_add_div hcs, Nat.div_eq_of_lt (by omega), add_zero]
  have hneeded := neededSize_le (g := g) bu (g.tableEntries * k)
  have hrow : g.tableEntries * 256 ≤ g.tableEntries * g.blockClusters := Nat.mul_le_mul_left _ hB
  have hk' : k ≤ 2 * g.blockClusters - 2 := by
    refine Nat.le_of_mul_le_mul_left ?_ g.tableEntries_pos
    rw [Nat.mul_sub, mul_left_comm]
    omega
  have hone : (g.sizeToClusters (g.tableEntries * k) + g.blockClusters - 1) / g.blockClusters = 1 := by
    have hlow : 1 ≤ g.sizeToClusters (g.tableEntries * k) := by
      rw [Geometry.sizeToClusters, Nat.le_div_iff_mul_le hcs]
      omega
    have hhigh : g.sizeToClusters (g.tableEntries * k) ≤ g.blockClusters := by
      rw [Geometry.sizeToClusters, Nat.div_le_iff_le_mul hcs, hcs']
      have hmul := Nat.mul_le_mul_left g.tableEntries (show k ≤ 2 * g.blockClusters by omega)
      rw [mul_left_comm] at hmul
      rw [show g.blockClusters * (g.tableEntries * 8) = g.tableEntries * g.blockClusters * 8 by ring]
      omega
    exact Nat.div_eq_of_lt_le (by omega) (by omega)
  rw [metaCount, hclusters, blocksClusters, hone]
  omega

/-- The size that is found leaves room for the entries of the new blocks. -/
lemma newTableSize_spec (hlen : s.refcountTable.length ≤ blocksUsed g s)
    (hbu : blocksUsed g s ≤ 1073741824) :
    ∃ T, blocksUsed g s + blocksClusters g T ≤ T ∧
      (∀ fuel ≥ 4294967296, newTableSize g fuel s = some (T, blocksClusters g T)) ∧
      (blocksUsed g s ≤ g.tableEntries * g.blockClusters →
        metaCount g T (blocksClusters g T) ≤ blocksClusters g T * g.blockClusters) := by
  have hte := g.tableEntries_le
  have hfirst (fuel : ℕ) (hf : 134217728 ≤ fuel) := nextRefcountTableSize_eq (g := g)
    (show s.refcountTable.length ≤ 1073741824 by omega)
    (show blocksUsed g s + 1 ≤ 1074790400 by omega) hf
  obtain ⟨-, -, -, hbound⟩ := hfirst _ le_rfl
  have hlt : nextSize g s.refcountTable.length (blocksUsed g s + 1) < 2147483648 := by omega
  obtain ⟨hge, hneeded⟩ := neededSize_bounds (g := g) (blocksUsed g s) hlt
  obtain ⟨T, hT, hfix, hloop⟩ := tableSizeLoop_spec hlen hbu hlt
    (nextSize_mono hge (by omega))
  obtain ⟨-, hneeded'⟩ := neededSize_bounds (g := g) (blocksUsed g s) hT
  obtain ⟨-, hroom, hdvd, hsize⟩ := nextRefcountTableSize_eq (g := g)
    (show s.refcountTable.length ≤ 1073741824 by omega)
    (show neededSize g (blocksUsed g s) T ≤ 1074790400 by omega) (le_refl 134217728)
  rw [hfix] at hroom hdvd hsize
  refine ⟨T, ?_, fun fuel hf => ?_, fun hbu' => metaCount_le hbu' hdvd (by omega) ?_⟩
  · have hle : (g.sizeToClusters T + g.blockClusters - 1) / g.blockClusters ≤
        (g.sizeToClusters T + blocksClusters g T + g.blockClusters - 1) / g.blockClusters :=
      Nat.div_le_div_right (by omega)
    have hneed : blocksUsed g s +
        (g.sizeToClusters T + blocksClusters g T + g.blockClusters - 1) / g.blockClusters < T := hroom
    have hblocks : blocksClusters g T =
        1 + (g.sizeToClusters T + g.blockClusters - 1) / g.blockClusters := rfl
    omega
  · rw [newTableSize, (hfirst fuel (by omega)).1]
    exact hloop fuel (by omega)
  · omega

/-! ### Updates of clusters with blocks end -/

/-- There is a result if each of two steps has one. -/
lemma exists_ok_bind {α β : Type} {x : Except Fault α} {f : α → Except Fault β}
    (hx : ∃ a, x = .ok a) (hf : ∀ a, ∃ r, f a = .ok r) : ∃ r, x >>= f = .ok r := by
  obtain ⟨a, rfl⟩ := hx
  exact hf a

lemma nextBlock_total (update : Update) (fuel : ℕ) {i o : ℕ} (old : ℤ) (held : Option ℕ)
    (hs : s.Separate g) (ho : s.blockAt (i / g.blockClusters) = some o) :
    ∃ r, nextBlock g (allocRefcountBlock g update fuel) s i old held = .ok r := by
  obtain ⟨io, hput⟩ := putBlock_snd s held
  rw [nextBlock]
  simp only [hput, if_neg (show ¬ (i : ℤ) < 0 by omega), Int.toNat_natCast]
  rw [allocRefcountBlock_of_blockAt update fuel (s := { s with io }) ⟨hs.aligned, hs.distinct⟩ ho]
  split_ifs <;> exact ⟨_, rfl⟩

lemma updateLoop_total (update : Update) (fuel : ℕ) {k i : ℕ} (a : ℤ) {old : ℤ}
    {held : Option ℕ} (hs : s.Separate g)
    (hrange : ∀ x, i ≤ x → x < i + k → ∃ o, s.blockAt (x / g.blockClusters) = some o)
    (hheld : ∀ o, s.blockAt (i / g.blockClusters) = some o →
      (i : ℤ) / g.blockClusters = old → held = some o) :
    ∃ r, updateLoop g (allocRefcountBlock g update fuel) a k i old held s = .ok r := by
  induction k generalizing i old held s with
  | zero => exact ⟨_, rfl⟩
  | succ k ih =>
    obtain ⟨o, ho⟩ := hrange i le_rfl (by omega)
    obtain ⟨⟨⟨ret, held₁⟩, s₁⟩, hload⟩ := nextBlock_total update fuel old held hs ho
    obtain ⟨hsame, hheld₁⟩ := nextBlock_present hs ho (hheld o ho) hload
    have hrest (s₂ : Image) (h₂ : s₁.SameTable s₂) :
        ∃ r, updateLoop g (allocRefcountBlock g update fuel) a k ((i : ℤ) + 1)
          ((i : ℤ) / g.blockClusters) (some o) s₂ = .ok r := by
      have htable := hsame.toSameTable.trans h₂
      refine ih (i := i + 1) (htable.separate hs) (fun x hx hlt => ?_) fun o' ho' hdiv => ?_
      · exact (hrange x (by omega) (by omega)).imp fun _ => (htable.blockAt _).trans
      · have hdiv' : (i + 1) / g.blockClusters = i / g.blockClusters := by exact_mod_cast hdiv
        rw [htable.blockAt, hdiv'] at ho'
        exact ho.symm.trans ho'
    rw [updateLoop, hload]
    dsimp only [bind, Except.bind]
    by_cases hret : ret < 0
    · rw [if_pos hret]
      exact ⟨_, rfl⟩
    · obtain rfl := hheld₁ (by omega)
      rw [if_neg hret]
      dsimp only
      split_ifs
      · exact ⟨_, rfl⟩
      · exact hrest _ ⟨rfl, rfl, rfl⟩
      · exact hrest _ ⟨rfl, rfl, rfl⟩

/-- Each undo is for fewer clusters, so the update ends if there is fuel for as many calls. -/
lemma updateRefcount_ok_or {fuel : ℕ} {offset length a : ℤ} (hs : s.Separate g) (hoff : 0 ≤ offset)
    (hrange : ∀ x, InRange g offset length x → ∃ o, s.blockAt (x / g.blockClusters) = some o) :
    (∃ r, updateRefcount g fuel s offset length a = .ok r) ∨
      fuel ≤ (lastCluster g offset length + 1 - firstCluster g offset).toNat + 1 ∧
        updateRefcount g fuel s offset length a = .error .fuel := by
  induction fuel generalizing s length a with
  | zero => exact .inr ⟨by omega, rfl⟩
  | succ n ih =>
    by_cases hneg : length < 0
    · exact .inl ⟨_, if_pos hneg⟩
    by_cases hzero : length = 0
    · exact .inl ⟨_, (if_neg hneg).trans (if_pos hzero)⟩
    obtain ⟨i, k, hi, hk, hmem⟩ := inRange_iff (g := g) hoff (show 0 < length by omega)
    have hblocks (x : ℕ) (hx : i ≤ x) (hlt : x < i + k) :
        ∃ o, s.blockAt (x / g.blockClusters) = some o := hrange x ((hmem x).mpr ⟨hx, hlt⟩)
    have hheld (o : ℕ) (_ : s.blockAt (i / g.blockClusters) = some o)
        (hdiv : (i : ℤ) / g.blockClusters = -1) : (none : Option ℕ) = some o := by
      have : (0 : ℤ) ≤ (i : ℤ) / g.blockClusters := by positivity
      omega
    obtain ⟨⟨e, s₁⟩, hloop⟩ := updateLoop_total (updateRefcount g n) n a hs hblocks hheld
    obtain ⟨j, hj, hij, hsame, -, hstop⟩ := updateLoop_present hs hblocks hheld hloop
    obtain ⟨io, hput'⟩ := putBlock_snd s₁ e.refcountBlock
    have hundo := ih (s := { s₁ with io }) (a := -a)
      ((sameRefcounts_io s₁ io).separate (hsame.separate hs)) (fun x hx => by
        rw [inRange_undo (j := j) hi] at hx
        exact (hblocks x hx.1 (by omega)).imp fun _ => (hsame.blockAt _).trans)
    rw [lastCluster_undo] at hundo
    rw [updateRefcount, if_neg hneg, if_neg hzero]
    dsimp only
    rw [hk, hi, hloop]
    dsimp only [bind, Except.bind]
    split_ifs with hput hret hret
    · exact .inl ⟨_, rfl⟩
    · exact .inl ⟨_, rfl⟩
    · rw [hput', hj]
      obtain ⟨undone, hundo⟩ | ⟨hfuel, hundo⟩ := hundo
      · rw [hundo]
        exact .inl ⟨_, rfl⟩
      · rw [hundo]
        exact .inr ⟨by omega, rfl⟩
    · exact .inl ⟨_, rfl⟩

lemma updateRefcount_total {fuel : ℕ} {offset length a : ℤ} (hs : s.Separate g) (hoff : 0 ≤ offset)
    (hrange : ∀ x, InRange g offset length x → ∃ o, s.blockAt (x / g.blockClusters) = some o)
    (hfuel : (lastCluster g offset length + 1 - firstCluster g offset).toNat + 1 < fuel) :
    ∃ r, updateRefcount g fuel s offset length a = .ok r :=
  (updateRefcount_ok_or hs hoff hrange).resolve_right fun hle => by omega

/-! ### Growing -/

section

variable {t n tableSize blocksClusters : ℕ}

/-- What `growTable` is called for has been initialized. -/
lemma Initialized.growing (hi : Initialized g s t n) (hlen : s.refcountTable.length ≤ t)
    (hold : s.refcountTable.length ≤ tableSize) (hnew : t < tableSize)
    (hblocks : blocksUsed g s + blocksClusters ≤ tableSize)
    (hfits : metaCount g tableSize blocksClusters ≤ blocksClusters * g.blockClusters) :
    Growing g s t n tableSize blocksClusters := by
  obtain ⟨hdesc, hblock⟩ | ⟨-, -, hlt, -⟩ := hi.block
  · exact ⟨hi.consistent, hlen, hdesc, hi.allocated, hblock, hold, hnew, hblocks, hfits⟩
  · exact absurd hlt (not_lt.mpr hlen)

/-- The clusters of a table of 32 bits are few enough. -/
lemma tableClusters_count {offset length : ℕ} (h : length ≤ 1073741824) :
    (lastCluster g offset (length * 8) + 1 - firstCluster g offset).toNat + 1 < 4294967296 := by
  have hcs := g.clusterSize_pos
  have hle : 512 ≤ g.clusterSize := by
    have := g.le_blockClusters
    rw [g.clusterSize_eq_blockClusters]
    omega
  have hlast : lastCluster g offset (length * 8) ≤ ((offset + length * 8) / g.clusterSize : ℕ) := by
    rw [lastCluster, Int.natCast_div]
    refine Int.ediv_le_ediv (by exact_mod_cast hcs) ?_
    push_cast
    omega
  have hadd : (offset + length * 8) / g.clusterSize ≤
      offset / g.clusterSize + length * 8 / g.clusterSize + 1 := by
    rw [Nat.div_le_iff_le_mul hcs]
    have h₁ := Nat.lt_div_mul_add (a := offset) hcs
    have h₂ := Nat.lt_div_mul_add (a := length * 8) hcs
    rw [add_one_mul, add_mul]
    omega
  have hdiv : length * 8 / g.clusterSize ≤ length * 8 / 512 := Nat.div_le_div_left hle (by decide)
  have hfirst : firstCluster g offset = (offset / g.clusterSize : ℕ) := by
    rw [firstCluster, Int.natCast_div]
  rw [hfirst]
  omega

lemma growTable_total {fuel : ℕ} (hg : Growing g s t n tableSize blocksClusters)
    (hunused : ∀ i o, s.blockAt i = some o → o / g.clusterSize ≠ n)
    (hsize : newTableSize g fuel s = some (tableSize, blocksClusters))
    (hlen : s.refcountTable.length ≤ 1073741824) (hfuel : 4294967296 ≤ fuel) :
    ∃ r, growTable g (updateRefcount g fuel) fuel s t n = .ok r := by
  have hold := hg.old
  have hnew := hg.new
  have hblocks := hg.blocks
  have hfits := hg.fits
  have hassert := freeClusterIndex_le g s
  have hfree (s₂ : Image) (hsw : Switched g s s₂ t n tableSize blocksClusters) :
      ∃ r, updateRefcount g fuel s₂ s.refcountTableOffset (s.refcountTable.length * 8) (-1) =
        .ok r :=
    updateRefcount_total (hsw.consistent hg hunused).toSeparate (Int.natCast_nonneg _)
      (fun x => hsw.blockAt_oldTable hg) (lt_of_lt_of_le (tableClusters_count hlen) hfuel)
  rw [growTable, hsize]
  dsimp only
  rw [if_neg (by omega), if_neg (by omega), if_neg (by rw [metaCount] at hfits; omega)]
  split_ifs
  · exact ⟨_, rfl⟩
  · exact ⟨_, rfl⟩
  · exact ⟨_, rfl⟩
  · generalize hs₂ : Image.mk _ _ _ _ _ _ = s₂
    have hsw : Switched g s s₂ t n tableSize blocksClusters := by
      subst hs₂
      exact ⟨rfl, rfl, rfl⟩
    refine exists_ok_bind (hfree s₂ hsw) fun a => ?_
    split_ifs <;> exact ⟨_, rfl⟩

/-- The refcount table is enlarged: the loop for its size ends, its entries are within the new table,
and the new region overlaps no cluster in use. If there are entries for the blocks in use in
`blockClusters` clusters, the new blocks describe the whole region. After the switch the clusters of
the region and the block that was to be allocated have refcount 1, and the others have the refcount
that they had, but for those of the old table. -/
theorem growTable_fits (hi : Initialized g s t n) (hlen : s.refcountTable.length ≤ t)
    (hbu : blocksUsed g s ≤ 1073741824) :
    ∃ tableSize blocksClusters,
      (∀ fuel ≥ 4294967296, newTableSize g fuel s = some (tableSize, blocksClusters)) ∧
      s.refcountTable.length ≤ tableSize ∧ t < tableSize ∧
      blocksUsed g s + blocksClusters ≤ tableSize ∧
      s.freeClusterIndex ≤ metaCluster g s ∧
      (∀ c, metaCluster g s ≤ c → s.refcount g c = 0 ∧ c ≠ n) ∧
      (blocksUsed g s ≤ g.tableEntries * g.blockClusters →
        metaCount g tableSize blocksClusters ≤ blocksClusters * g.blockClusters ∧
        ∀ fuel ≥ 4294967296, ∃ ret held s',
          growTable g (updateRefcount g fuel) fuel s t n = .ok ((ret, held), s') ∧
          (0 ≤ ret → ∀ c ∉ s.tableOf g, s'.refcount g c =
            if metaCluster g s ≤ c ∧ c < metaCluster g s + metaCount g tableSize blocksClusters ∨
              c = n then 1 else s.refcount g c)) := by
  have hfree := freeClusterIndex_le g s
  have hn := lt_of_lt_of_le hi.allocated hfree
  have hdesc : n / g.blockClusters = t :=
    hi.block.elim And.left fun hother => absurd hother.2.2.1 (not_lt.mpr hlen)
  have ht : t < blocksUsed g s := by
    rw [← hdesc]
    exact Nat.div_lt_of_lt_mul (by rwa [mul_comm])
  obtain ⟨T, hblocks, hsize, hfits⟩ := newTableSize_spec (g := g) (s := s) (by omega) hbu
  refine ⟨T, _, hsize, by omega, by omega, hblocks, hfree, fun c hc => ⟨?_, ?_⟩, fun hroom =>
    ⟨hfits hroom, fun fuel hfuel => ?_⟩⟩
  · by_contra hne
    obtain ⟨o, ho⟩ := blockAt_of_refcount hne
    obtain ⟨-, hlt, -⟩ := blockAt_eq_some ho
    have := (Nat.le_div_iff_mul_le g.blockClusters_pos).mpr hc
    omega
  · rintro rfl
    exact absurd hn (not_lt.mpr hc)
  · have hg := hi.growing hlen (by omega) (by omega) hblocks (hfits hroom)
    obtain ⟨⟨⟨ret, held⟩, s'⟩, hgrow⟩ := growTable_total hg hi.unused (hsize fuel hfuel) (by omega)
      hfuel
    refine ⟨ret, held, s', hgrow, fun hret c hc => ?_⟩
    obtain ⟨T', bc', hsize', -, -, -, -, hend⟩ := growTable_cases hgrow
    rw [hsize fuel hfuel] at hsize'
    cases hsize'
    obtain ⟨hneg, -⟩ | ⟨s₂, s₃, out, io, hsw, -, hupdate, rfl, -⟩ := hend
    · exact absurd hret (not_le.mpr hneg)
    · have hfreed := ranges_updateRefcount g fuel _ _ _ _ _ _
        (hsw.consistent hg hi.unused).toSeparate (Int.natCast_nonneg _)
        (fun x => hsw.blockAt_oldTable hg) hupdate
      exact ((hsw.freed hg hi.unused hfreed).2 c hc).trans (hsw.refcount hg c)

/-- An image whose table is full, with a block in the cluster 16385. -/
def fullTable : Image where
  refcountTable := 1024 :: List.replicate 63 0
  refcountTableOffset := 512
  freeClusterIndex := 16386
  block o i := if o = 1024 ∧ i < 3 ∨ o = 8389120 ∧ i = 1 then 1 else 0
  io := []
  metadata := [16385]

lemma blockAt_fullTable {t o : ℕ} : fullTable.blockAt t = some o ↔ t = 0 ∧ o = 1024 := by
  cases t with
  | zero => simp [blockAt, fullTable, eq_comm]
  | succ t =>
    have hzero : fullTable.refcountTable.getD (t + 1) 0 = 0 := by
      rw [fullTable, List.getD_cons_succ, List.getD_eq_getElem?_getD, List.getElem?_replicate]
      split_ifs <;> rfl
    rw [blockAt, if_pos hzero]
    simp

lemma initialized_fullTable : Initialized smallClusters fullTable 64 16385 := by
  have htable : fullTable.tableOf smallClusters = [1] := by decide
  have hone (c : ℕ) (hc : c ∈ fullTable.tableOf smallClusters) : c = 1 := by
    rwa [htable, List.mem_singleton] at hc
  refine ⟨⟨⟨fun t o ho => ?_, fun t t' o ho ho' => ?_⟩, fun t o ho => ?_, by decide, fun c hc => ?_,
    fun t o ho => ?_, ?_⟩, by decide, by decide, by decide, fun t o ho => ?_, ?_,
    .inl ⟨by decide, fun i => ?_⟩⟩
  · obtain ⟨-, rfl⟩ := blockAt_fullTable.mp ho
    exact ⟨2, rfl⟩
  · exact (blockAt_fullTable.mp ho).1.trans (blockAt_fullTable.mp ho').1.symm
  · obtain ⟨-, rfl⟩ := blockAt_fullTable.mp ho
    decide
  · obtain rfl := hone c hc
    decide
  · obtain ⟨-, rfl⟩ := blockAt_fullTable.mp ho
    rw [htable]
    decide
  · rw [htable]
    decide
  · obtain ⟨-, rfl⟩ := blockAt_fullTable.mp ho
    decide
  · rw [htable]
    decide
  · change (if 16385 * 512 = 1024 ∧ i < 3 ∨ 16385 * 512 = 8389120 ∧ i = 1 then 1 else 0) =
      if i = 16385 % 256 then 1 else 0
    simp

theorem growTable_fits_fullTable : ∃ tableSize blocksClusters,
    (∀ fuel ≥ 4294967296,
      newTableSize smallClusters fuel fullTable = some (tableSize, blocksClusters)) ∧
    64 ≤ tableSize ∧ 64 < tableSize ∧ 65 + blocksClusters ≤ tableSize := by
  obtain ⟨tableSize, blocksClusters, hsize, hold, hnew, hblocks, -⟩ :=
    growTable_fits initialized_fullTable (by decide) (by decide +kernel)
  exact ⟨tableSize, blocksClusters, hsize, hold, hnew, hblocks⟩

/-- The cluster of the old table is freed. -/
theorem grown_table_freed : ¬ ∀ held s',
    growTable smallClusters (updateRefcount smallClusters 9) 9 fullTable 64 16385 =
      .ok ((0, held), s') →
    ∀ c, fullTable.refcount smallClusters c ≠ 0 →
      s'.refcount smallClusters c = fullTable.refcount smallClusters c := by
  intro h
  have hrun : (growTable smallClusters (updateRefcount smallClusters 9) 9 fullTable 64
      16385).toOption.map (fun r => (r.1.1, r.2.refcount smallClusters 1)) = some (0, 0) := by
    decide +kernel
  cases hok : growTable smallClusters (updateRefcount smallClusters 9) 9 fullTable 64 16385 with
  | error e =>
    rw [hok] at hrun
    cases hrun
  | ok r =>
    obtain ⟨⟨ret, held⟩, s'⟩ := r
    rw [hok] at hrun
    obtain ⟨rfl, hzero⟩ := Prod.mk.inj (Option.some.inj hrun)
    have hold := h held s' hok 1 (by decide)
    rw [hzero] at hold
    exact absurd hold (by decide)

end

end Limbo.Qcow2.Clusters
