import Limbo.Qcow2.SnapshotRefcount

/-!
# What `qcow2_update_snapshot_refcount` reports

Every table that is taken is released once. A failure is reported if it is that of a call whose
result goes to the `ret` that is returned: the update of a compressed cluster goes to another one,
the results of `qcow2_cache_set_dependency` and of the last flushes go nowhere, and a write of the L1
table that fails starts the cleaning up again.
-/

namespace Limbo.Qcow2.Refcount

open Lib

/-! ### Calls -/

section Calls

variable {t : Table} {ret : ℤ}

lemma failed_mem_check : failed ∈ check ret ↔ ret < 0 := by
  unfold check
  split_ifs with h <;> simp [h]

lemma balanced_check : Balanced (check ret) := by
  unfold check
  split_ifs
  · exact .note _
  · exact .nil

lemma cacheGet_of_neg (h : ret < 0) : cacheGet t ret = [failed] := if_pos h

lemma cacheGet_of_nonneg (h : ¬ ret < 0) : cacheGet t ret = [.take t] := if_neg h

lemma failed_mem_cacheGet : failed ∈ cacheGet t ret ↔ ret < 0 := by
  unfold cacheGet
  split_ifs with h <;> simp [h, failed]

lemma failed_mem_cachePut : failed ∈ cachePut t ret ↔ ret < 0 := by
  unfold cachePut
  rw [List.mem_cons, failed_mem_check, or_iff_right]
  nofun

lemma holds_cachePut : holds [t] (cachePut t ret) = some [] := by
  unfold cachePut
  rw [holds_cons, hold, if_pos List.mem_cons_self, List.erase_cons_head]
  exact balanced_check

lemma holds_cacheGet (h : ¬ ret < 0) : holds [] (cacheGet t ret) = some [t] := by
  rw [cacheGet_of_nonneg h]
  rfl

end Calls

/-! ### Refcounts -/

namespace Image

variable {s : Image} {x : UpdateResults} {level n : ℕ} {clusterIndex old addend : ℤ}
  {block : Option ℤ}

/-- The refcount block that is held. -/
def blockHeld (block : Option ℤ) : List Table := block.toList.map .refcountBlock

lemma allocBlock_spec : holds [] (s.allocBlock x level clusterIndex).log =
      some (blockHeld (s.allocBlock x level clusterIndex).block) ∧
    (failed ∈ (s.allocBlock x level clusterIndex).log ↔
      (s.allocBlock x level clusterIndex).ret < 0) := by
  refine ⟨?_, failed_mem_cacheGet⟩
  unfold allocBlock
  by_cases h : x.alloc level clusterIndex < 0
  · simp only [if_pos h, cacheGet_of_neg h]
    rfl
  · simp only [if_neg h, cacheGet_of_nonneg h]
    rfl

lemma loadBlock_spec : holds (blockHeld block) (s.loadBlock x level clusterIndex block old).log =
      some (blockHeld (s.loadBlock x level clusterIndex block old).block) ∧
    (failed ∈ (s.loadBlock x level clusterIndex block old).log →
      (s.loadBlock x level clusterIndex block old).ret < 0) := by
  unfold loadBlock
  split_ifs
  · cases block with
    | none => exact ⟨allocBlock_spec.1, allocBlock_spec.2.mp⟩
    | some b =>
      simp only
      split_ifs with hput
      · exact ⟨holds_cachePut, fun _ => hput⟩
      · refine ⟨(holds_append holds_cachePut).trans allocBlock_spec.1, fun h => ?_⟩
        obtain h | h := List.mem_append.mp h
        · exact absurd (failed_mem_cachePut.mp h) hput
        · exact allocBlock_spec.2.mp h
  · exact ⟨rfl, nofun⟩

/-- The loop holds one refcount block at most, and reports what fails. -/
lemma scan_spec : holds (blockHeld block) (s.scan x level addend n clusterIndex block old).log =
      some (blockHeld (s.scan x level addend n clusterIndex block old).block) ∧
    (failed ∈ (s.scan x level addend n clusterIndex block old).log →
      (s.scan x level addend n clusterIndex block old).ret < 0) := by
  induction n generalizing clusterIndex block old with
  | zero => exact ⟨rfl, nofun⟩
  | succ n ih =>
    obtain ⟨hheld, hfailed⟩ := @loadBlock_spec s x level clusterIndex old block
    rw [scan]
    simp only
    split_ifs with hload
    · exact ⟨hheld, hfailed⟩
    · have hneg : -einval < 0 := by decide
      exact ⟨hheld, fun _ => hneg⟩
    · obtain ⟨hrest, hrestFailed⟩ := ih
      refine ⟨(holds_append hheld).trans hrest, fun h => ?_⟩
      obtain h | h := List.mem_append.mp h
      · exact absurd (hfailed h) hload
      · exact hrestFailed h

/-- The log of one call of `update_refcount`, without what it undoes. -/
lemma call_spec {scan : Scan}
    (hscan : scan = s.scan x level addend n clusterIndex none old) {put log : Log}
    (hput : put = match scan.block with
      | none => []
      | some b => cachePut (.refcountBlock b) (x.lastPut level))
    (hlog : log = (if addend < 0 then check (x.dependency level) else []) ++ scan.log ++ put) :
    Balanced log ∧ (¬ scan.ret < 0 → ¬ (scan.block.isSome ∧ x.lastPut level < 0) →
      (failed ∈ log ↔ addend < 0 ∧ x.dependency level < 0)) := by
  obtain ⟨hheld, hfailed⟩ : holds [] scan.log = some (blockHeld scan.block) ∧
      (failed ∈ scan.log → scan.ret < 0) := by
    rw [hscan]
    exact @scan_spec s x level n clusterIndex old addend none
  clear hscan
  have hdependency : Balanced (if addend < 0 then check (x.dependency level) else []) := by
    split_ifs
    · exact balanced_check
    · exact .nil
  have hmem : failed ∈ (if addend < 0 then check (x.dependency level) else []) ↔
      addend < 0 ∧ x.dependency level < 0 := by
    split_ifs with h
    · rw [failed_mem_check, and_iff_right h]
    · simp [h]
  have hrest : Balanced (scan.log ++ put) ∧ (¬ scan.ret < 0 →
      ¬ (scan.block.isSome ∧ x.lastPut level < 0) → failed ∉ scan.log ++ put) := by
    cases hblock : scan.block with
    | none =>
      rw [hblock] at hput hheld
      rw [hput, List.append_nil]
      exact ⟨hheld, fun hret _ h => hret (hfailed h)⟩
    | some b =>
      rw [hblock] at hput hheld
      rw [hput]
      refine ⟨(holds_append hheld).trans holds_cachePut, fun hret hlast h => ?_⟩
      obtain h | h := List.mem_append.mp h
      · exact hret (hfailed h)
      · exact hlast ⟨rfl, failed_mem_cachePut.mp h⟩
  rw [hlog, List.append_assoc]
  refine ⟨hdependency.append hrest.1, fun hret hlast => ?_⟩
  rw [List.mem_append, hmem, or_iff_left (hrest.2 hret hlast)]

/-- `update_refcount` releases what it takes and reports what fails but `qcow2_cache_set_dependency`. -/
lemma updateRefcount_spec (offset length : ℤ) :
    Balanced (s.updateRefcount x level offset length addend).2 ∧
    (0 ≤ (s.updateRefcount x level offset length addend).1 →
      (failed ∈ (s.updateRefcount x level offset length addend).2 ↔
        0 < length ∧ addend < 0 ∧ x.dependency level < 0)) := by
  fun_induction Image.updateRefcount s x level offset length addend with
  | case1 _ _ _ hneg =>
    have hret : -einval < 0 := by decide
    exact ⟨.nil, fun h => absurd hret (not_lt.mpr h)⟩
  | case2 => exact ⟨.nil, fun _ => ⟨nofun, fun h => absurd h.1 (lt_irrefl 0)⟩⟩
  | case3 level length addend hneg hzero dependency start last scan put log hlast =>
    obtain ⟨hbalanced, -⟩ := @call_spec s x level _ _ _ addend scan rfl put log rfl rfl
    refine ⟨hbalanced, fun h => ?_⟩
    have hret : (if scan.ret < 0 then scan.ret else x.lastPut level) < 0 := by
      split_ifs with hscan
      · exact hscan
      · exact hlast.2
    exact absurd hret (not_lt.mpr h)
  | case4 level length addend hneg hzero dependency start last scan put log hlast hscan undone ih =>
    obtain ⟨hbalanced, -⟩ := @call_spec s x level _ _ _ addend scan rfl put log rfl rfl
    exact ⟨hbalanced.append ih.1, fun h => absurd hscan (not_lt.mpr h)⟩
  | case5 level length addend hneg hzero dependency start last scan put log hlast hscan =>
    obtain ⟨hbalanced, hfailed⟩ := @call_spec s x level _ _ _ addend scan rfl put log rfl rfl
    have hpos : 0 < length := by omega
    refine ⟨hbalanced, fun _ => ?_⟩
    rw [and_iff_right hpos]
    exact hfailed hscan hlast

variable {g : GetResults} {c : ClusterResults}

lemma getRefcount_spec (clusterIndex : ℤ) :
    Balanced (s.getRefcount g clusterIndex).2 ∧
    (0 ≤ (s.getRefcount g clusterIndex).1 → failed ∉ (s.getRefcount g clusterIndex).2) := by
  unfold getRefcount
  by_cases hpresent : g.present
  · by_cases hget : g.get < 0
    · simp only [hpresent, Bool.not_true, Bool.false_eq_true, if_false, if_pos hget,
        cacheGet_of_neg hget]
      exact ⟨.note _, fun h => absurd hget (not_lt.mpr h)⟩
    · simp only [hpresent, Bool.not_true, Bool.false_eq_true, if_false, if_neg hget]
      refine ⟨(holds_append (holds_cacheGet hget)).trans holds_cachePut, fun h hmem => ?_⟩
      obtain hmem | hmem := List.mem_append.mp hmem
      · exact hget (failed_mem_cacheGet.mp hmem)
      · have hput := failed_mem_cachePut.mp hmem
        rw [if_pos hput] at h
        exact absurd hput (not_lt.mpr h)
  · simp only [hpresent, Bool.not_false, if_true]
    exact ⟨.nil, fun _ => nofun⟩

/-- The refcount of a cluster is got, and what fails on the way is reported but for
`qcow2_cache_set_dependency`. -/
lemma clusterRefcount_spec (clusterIndex addend : ℤ) :
    Balanced (s.clusterRefcount c clusterIndex addend).2 ∧
    (0 ≤ (s.clusterRefcount c clusterIndex addend).1 →
      (failed ∈ (s.clusterRefcount c clusterIndex addend).2 ↔
        addend < 0 ∧ c.update.dependency 0 < 0)) := by
  obtain ⟨hbalanced, hfailed⟩ := @getRefcount_spec s c.get clusterIndex
  unfold clusterRefcount
  split_ifs with haddend
  · obtain ⟨hupdated, hupdateFailed⟩ := @updateRefcount_spec s c.update 0 addend
      (clusterIndex * s.clusterSize) 1
    unfold updateClusterRefcount
    simp only
    split_ifs with hret
    · exact ⟨hupdated, fun h => absurd hret (not_lt.mpr h)⟩
    · refine ⟨hupdated.append hbalanced, fun h => ?_⟩
      rw [List.mem_append, hupdateFailed (not_lt.mp hret), or_iff_left (hfailed h),
        and_iff_right one_pos]
  · refine ⟨hbalanced, fun h => ?_⟩
    have hzero : ¬ (addend < 0 ∧ c.update.dependency 0 < 0) := by omega
    exact iff_of_false (hfailed h) hzero

end Image

/-! ### Failures -/

/-- How a call fails that ends the loops. -/
inductive Failure
  | silent
  | reported
deriving DecidableEq

/-- The log and the result of a part of a run that ends with a failure or with none: one that is
reported leaves a negative result, and without one only dropped results have failed. -/
structure Ends (f : Option Failure) (dropped : Prop) (ret : ℤ) (log : Log) : Prop where
  clean : f = none → (failed ∈ log ↔ dropped)
  failed : f ≠ none → failed ∈ log
  nonneg : f ≠ some .reported → 0 ≤ ret
  reported : f = some .reported → ret < 0

lemma Ends.after {f : Option Failure} {d d' : Prop} {ret ret' : ℤ} {log log' : Log}
    (h : Ends none d ret log) (h' : Ends f d' ret' log') : Ends f (d ∨ d') ret' (log ++ log') where
  clean hf := by rw [List.mem_append, h.clean rfl, h'.clean hf]
  failed hf := List.mem_append_right _ (h'.failed hf)
  nonneg := h'.nonneg
  reported := h'.reported

/-- Where a part ends with a failure, what comes after it does not matter. -/
lemma Ends.stop {f : Failure} {d d' : Prop} {ret : ℤ} {log : Log} (h : Ends (some f) d ret log) :
    Ends (some f) d' ret log := ⟨nofun, h.failed, h.nonneg, h.reported⟩

variable {s : Image} {addend ret : ℤ}

namespace L2Entry

variable (s addend) (e : L2Entry)

/-- How an entry makes the loop end. -/
def failure : Option Failure :=
  if e.offset = 0 then none
  else if e.compressed then
    if addend ≠ 0 ∧ (e.updateCompressed s addend).1 < 0 then some .silent else none
  else if (e.refcount s addend).1 < 0 then some .reported else none

/-- The entry that is stored. -/
def stored : UInt64 := markCopied e.plain (if e.compressed then 2 else (e.refcount s addend).1)

/-- A result that the code drops is that of a failure. -/
def Dropped : Prop :=
  e.offset ≠ 0 ∧ (addend < 0 ∧ e.results.update.dependency 0 < 0 ∨
    addend > 0 ∧ e.stored s addend ≠ e.offset ∧ e.dependency < 0)

lemma updateCompressed_spec : Balanced (e.updateCompressed s addend).2 ∧
    (0 ≤ (e.updateCompressed s addend).1 → (Refcount.failed ∈ (e.updateCompressed s addend).2 ↔
      addend < 0 ∧ e.results.update.dependency 0 < 0)) := by
  unfold updateCompressed
  simp only
  refine ⟨Image.updateRefcount_spec _ _ |>.1, fun h => ?_⟩
  rw [(Image.updateRefcount_spec _ _).2 h, and_iff_right (by positivity)]

lemma store_spec (refcount : ℤ) : Balanced (e.store addend refcount) ∧
    (Refcount.failed ∈ e.store addend refcount ↔
      addend > 0 ∧ markCopied e.plain refcount ≠ e.offset ∧ e.dependency < 0) := by
  unfold store
  simp only
  split_ifs with hchanged haddend
  · refine ⟨balanced_check.append (.note _), ?_⟩
    rw [List.mem_append, failed_mem_check, or_iff_left (by simp [Refcount.failed]),
      and_iff_right haddend, and_iff_right hchanged]
  · exact ⟨Balanced.note _, by simp [Refcount.failed, haddend]⟩
  · exact ⟨.nil, by simp [hchanged]⟩

/-- A round of the loop over an L2 table. -/
lemma step_spec (hret : 0 ≤ ret) : Balanced (e.step s addend ret).log ∧
    (e.step s addend ret).fail = (e.failure s addend).isSome ∧
    Ends (e.failure s addend) (e.Dropped s addend) (e.step s addend ret).ret
      (e.step s addend ret).log := by
  unfold step failure Dropped stored
  by_cases hzero : e.offset = 0
  · simp only [if_pos hzero]
    exact ⟨.nil, rfl, fun _ => by simp [hzero], fun h => absurd rfl h, fun _ => hret, nofun⟩
  simp only [if_neg hzero]
  by_cases hcompressed : e.compressed
  · obtain ⟨hupdated, hfailed⟩ := e.updateCompressed_spec s addend
    obtain ⟨hstored, hstoreFailed⟩ := e.store_spec addend 2
    simp only [if_pos hcompressed]
    by_cases haddend : addend = 0
    · simp only [haddend, ne_eq, not_true_eq_false, if_false, false_and]
      rw [haddend] at hstored hstoreFailed
      refine ⟨hstored, rfl, fun _ => ?_, fun h => absurd rfl h, fun _ => hret, nofun⟩
      rw [hstoreFailed]
      simp
    · simp only [ne_eq, haddend, not_false_eq_true, if_true, true_and]
      by_cases hneg : (e.updateCompressed s addend).1 < 0
      · simp only [if_pos hneg]
        exact ⟨hupdated.append (.note _), rfl, nofun, fun _ => by simp, fun _ => hret, nofun⟩
      · simp only [if_neg hneg]
        refine ⟨hupdated.append hstored, rfl, fun _ => ?_, fun h => absurd rfl h, fun _ => hret,
          nofun⟩
        rw [List.mem_append, hfailed (not_lt.mp hneg), hstoreFailed, and_iff_right hzero]
  · obtain ⟨hgot, hfailed⟩ := @Image.clusterRefcount_spec s e.results
      ((e.plain &&& offsetMask) >>> s.clusterBits.toUInt64).toNat addend
    obtain ⟨hstored, hstoreFailed⟩ := e.store_spec addend (e.refcount s addend).1
    simp only [if_neg hcompressed]
    by_cases hneg : (e.refcount s addend).1 < 0
    · have hio : -eio < 0 := by decide
      simp only [if_pos hneg]
      exact ⟨hgot.append (.note _), rfl, nofun, fun _ => by simp, fun h => absurd rfl h,
        fun _ => hio⟩
    · simp only [if_neg hneg]
      refine ⟨hgot.append hstored, rfl, fun _ => ?_, fun h => absurd rfl h, fun _ => hret, nofun⟩
      rw [List.mem_append, hstoreFailed, and_iff_right hzero]
      exact or_congr (hfailed (not_lt.mp hneg)) Iff.rfl

end L2Entry

variable (s addend)

/-- The loop over an L2 table. -/
lemma l2Loop_spec (es : List L2Entry) (hret : 0 ≤ ret) : Balanced (l2Loop s addend es ret).log ∧
    (l2Loop s addend es ret).fail = (es.findSome? (L2Entry.failure s addend)).isSome ∧
    Ends (es.findSome? (L2Entry.failure s addend)) (∃ e ∈ es, e.Dropped s addend)
      (l2Loop s addend es ret).ret (l2Loop s addend es ret).log := by
  induction es generalizing ret with
  | nil => exact ⟨.nil, rfl, fun _ => by simp [l2Loop], fun h => absurd rfl h, fun _ => hret, nofun⟩
  | cons e es ih =>
    obtain ⟨hbalanced, hfail, hends⟩ := e.step_spec s addend hret
    rw [l2Loop]
    simp only
    cases hf : e.failure s addend with
    | some f =>
      rw [hf] at hfail hends
      have hfail' : (e.step s addend ret).fail = true := hfail
      rw [List.findSome?_cons_of_isSome (by rw [hf]; rfl), hf, if_pos hfail']
      exact ⟨hbalanced, hfail, hends.stop⟩
    | none =>
      rw [hf] at hfail hends
      have hfail' : ¬ (e.step s addend ret).fail = true := by
        rw [hfail]
        exact Bool.false_ne_true
      obtain ⟨hrest, hrestFail, hrestEnds⟩ := ih (hends.nonneg nofun)
      rw [List.findSome?_cons_of_isNone (by rw [hf]; rfl), if_neg hfail']
      refine ⟨hbalanced.append hrest, hrestFail, ?_⟩
      simp only [List.mem_cons, exists_eq_or_imp]
      exact hends.after hrestEnds

namespace L1Entry

variable (e : L1Entry)

/-- How an entry makes the loop end. -/
def failure : Option Failure :=
  if e.offset = 0 then none
  else if e.get < 0 then some .reported
  else (e.l2Table.findSome? (L2Entry.failure s addend)).or
    (if e.put < 0 ∨ (e.refcount s addend).1 < 0 then some .reported else none)

/-- A result that the code drops is that of a failure. -/
def Dropped : Prop :=
  e.offset ≠ 0 ∧ ((∃ x ∈ e.l2Table, x.Dropped s addend) ∨
    addend < 0 ∧ e.results.update.dependency 0 < 0)

/-- The entry that is left in the L1 table. -/
def stored : UInt64 := if e.offset = 0 then 0 else markCopied e.plain (e.refcount s addend).1

/-- A round of the loop over the L1 table. -/
lemma step_spec (hret : 0 ≤ ret) :
    holds [] (e.step s addend ret).log = some (e.step s addend ret).l2Table.toList ∧
    (e.step s addend ret).fail = (e.failure s addend).isSome ∧
    (e.failure s addend = none → (e.step s addend ret).offset = e.stored s addend ∧
      (e.step s addend ret).l2Table = none) ∧
    Ends (e.failure s addend) (e.Dropped s addend) (e.step s addend ret).ret
      (e.step s addend ret).log := by
  unfold step failure Dropped stored
  by_cases hzero : e.offset = 0
  · simp only [if_pos hzero]
    exact ⟨rfl, rfl, fun _ => ⟨hzero, trivial⟩, fun _ => by simp [hzero], fun h => absurd rfl h,
      fun _ => hret, nofun⟩
  simp only [if_neg hzero]
  by_cases hget : e.get < 0
  · simp only [if_pos hget, cacheGet_of_neg hget]
    exact ⟨rfl, rfl, nofun, nofun, fun _ => by simp, fun h => absurd rfl h, fun _ => hget⟩
  simp only [if_neg hget]
  obtain ⟨hbalanced, hfail, hends⟩ := l2Loop_spec s addend e.l2Table (not_lt.mp hget)
  have htaken : holds [] (cacheGet (.l2 e.plain) e.get ++ (l2Loop s addend e.l2Table e.get).log) =
      some [.l2 e.plain] := holds_append_balanced (holds_cacheGet hget) hbalanced
  cases hf : e.l2Table.findSome? (L2Entry.failure s addend) with
  | some f =>
    rw [hf] at hfail hends
    have hfail' : (l2Loop s addend e.l2Table e.get).fail = true := hfail
    simp only [if_pos hfail']
    exact ⟨htaken, rfl, nofun, nofun, fun _ => List.mem_append_right _ (hends.failed nofun),
      hends.nonneg, hends.reported⟩
  | none =>
    rw [hf] at hfail hends
    have hfail' : ¬ (l2Loop s addend e.l2Table e.get).fail = true := by
      rw [hfail]
      exact Bool.false_ne_true
    have hreleased : Balanced (cacheGet (.l2 e.plain) e.get ++
        (l2Loop s addend e.l2Table e.get).log ++ cachePut (.l2 e.plain) e.put) :=
      (holds_append htaken).trans holds_cachePut
    simp only [if_neg hfail', Option.none_or]
    by_cases hput : e.put < 0
    · simp only [hput, true_or, if_true]
      exact ⟨hreleased, rfl, nofun, nofun,
        fun _ => List.mem_append_right _ (failed_mem_cachePut.mpr hput), fun h => absurd rfl h,
        fun _ => hput⟩
    obtain ⟨hgot, hgotFailed⟩ := @Image.clusterRefcount_spec s e.results
      (e.plain >>> s.clusterBits.toUInt64).toNat addend
    by_cases hneg : (e.refcount s addend).1 < 0
    · have hio : -eio < 0 := by decide
      simp only [if_neg hput, hneg, or_true, if_true]
      exact ⟨(hreleased.append hgot).append (.note _), rfl, nofun, nofun, fun _ => by simp,
        fun h => absurd rfl h, fun _ => hio⟩
    · simp only [hput, hneg, or_self, if_false]
      refine ⟨hreleased.append hgot, rfl, fun _ => ⟨trivial, trivial⟩, fun _ => ?_,
        fun h => absurd rfl h, fun _ => not_lt.mp hput, nofun⟩
      have hloop := hends.clean rfl
      have hcluster : Refcount.failed ∈ (e.refcount s addend).2 ↔ _ := hgotFailed (not_lt.mp hneg)
      simp only [List.mem_append, hloop, hcluster, failed_mem_cacheGet, failed_mem_cachePut, hget,
        hput, false_or, or_false, ne_eq, hzero, not_false_eq_true, true_and]

end L1Entry

/-- Some entry of the L1 table is changed, before the loop ends. -/
def Modifies (es : List L1Entry) : Prop :=
  ∃ e ∈ es.takeWhile fun e => (e.failure s addend).isNone, e.stored s addend ≠ e.offset

/-- The loop over the L1 table. -/
lemma l1Loop_spec (es : List L1Entry) (hret : 0 ≤ ret) :
    holds [] (l1Loop s addend es ret).log = some (l1Loop s addend es ret).l2Table.toList ∧
    ((l1Loop s addend es ret).l1Modified = true ↔ Modifies s addend es) ∧
    (es.findSome? (L1Entry.failure s addend) = none → (l1Loop s addend es ret).l2Table = none) ∧
    Ends (es.findSome? (L1Entry.failure s addend)) (∃ e ∈ es, e.Dropped s addend)
      (l1Loop s addend es ret).ret (l1Loop s addend es ret).log := by
  unfold Modifies
  induction es generalizing ret with
  | nil =>
    exact ⟨rfl, by simp [l1Loop], fun _ => rfl, fun _ => by simp [l1Loop], fun h => absurd rfl h,
      fun _ => le_rfl, nofun⟩
  | cons e es ih =>
    obtain ⟨hheld, hfail, hnone, hends⟩ := e.step_spec s addend hret
    rw [l1Loop]
    simp only
    cases hf : e.failure s addend with
    | some f =>
      rw [hf] at hfail hends
      have hfail' : (e.step s addend ret).fail = true := hfail
      rw [List.findSome?_cons_of_isSome (by rw [hf]; rfl), hf, if_pos hfail']
      refine ⟨hheld, ?_, nofun, hends.stop⟩
      simp [hf]
    | none =>
      rw [hf] at hfail hends
      have hfail' : ¬ (e.step s addend ret).fail = true := by
        rw [hfail]
        exact Bool.false_ne_true
      obtain ⟨hoffset, htable⟩ := hnone hf
      obtain ⟨hrest, hmodified, hrestTable, hrestEnds⟩ := ih (hends.nonneg nofun)
      rw [htable] at hheld
      rw [List.findSome?_cons_of_isNone (by rw [hf]; rfl), if_neg hfail']
      refine ⟨(holds_append hheld).trans hrest, ?_, hrestTable, ?_⟩
      · simp only [Bool.or_eq_true, hmodified, hoffset, List.takeWhile_cons, hf, Option.isNone_none,
          if_true, List.mem_cons, exists_eq_or_imp, ne_eq, decide_not, Bool.not_eq_true',
          decide_eq_false_iff_not]
      · simp only [List.mem_cons, exists_eq_or_imp]
        exact hends.after hrestEnds

/-! ### The cleaning up -/

section CleanUp

variable {s addend} {r : Results} {b : Body} {rounds attempt : ℕ} {l2wt rwt : Bool} {out : Outcome}

/-- The log of a round. -/
def roundLog (s : Image) (r : Results) (l2wt rwt : Bool) (b : Body) : Log :=
  b.log ++ (match b.l2Table with
    | none => []
    | some t => cachePut t r.put) ++ setWritethrough l2wt s.l2Writethrough r.l2Flush ++
    setWritethrough rwt s.refcountWritethrough r.refcountFlush

/-- What is there when the L1 table could not be written. -/
def again (s : Image) (r : Results) (l2wt rwt : Bool) (b : Body) : Body :=
  { b with
    l2Table := none
    l1Table := b.l1Table.map bswap64
    log := roundLog s r l2wt rwt b ++ [failed] }

/-- A last flush fails. -/
def FlushFails (s : Image) (r : Results) (l2wt rwt : Bool) : Prop :=
  (l2wt = false ∧ s.l2Writethrough = true ∧ r.l2Flush < 0) ∨
    (rwt = false ∧ s.refcountWritethrough = true ∧ r.refcountFlush < 0)

lemma cleanUp_done (h : ¬ (addend ≥ 0 ∧ b.l1Modified = true)) :
    cleanUp s addend r (rounds + 1) attempt l2wt rwt b =
      some ⟨b.ret, b.l1Table, none, roundLog s r l2wt rwt b⟩ := if_neg h

lemma cleanUp_written (h : addend ≥ 0 ∧ b.l1Modified = true) (hwrite : ¬ r.l1Write attempt < 0) :
    cleanUp s addend r (rounds + 1) attempt l2wt rwt b =
      some ⟨b.ret, (b.l1Table.map bswap64).map bswap64, some (b.l1Table.map bswap64),
        roundLog s r l2wt rwt b⟩ := (if_pos h).trans (if_neg hwrite)

lemma cleanUp_again (h : addend ≥ 0 ∧ b.l1Modified = true) (hwrite : r.l1Write attempt < 0) :
    cleanUp s addend r (rounds + 1) attempt l2wt rwt b =
      cleanUp s addend r rounds (attempt + 1) s.l2Writethrough s.refcountWritethrough
        (again s r l2wt rwt b) := (if_pos h).trans (if_pos hwrite)

lemma balanced_setWritethrough {old enable : Bool} {flush : ℤ} :
    Balanced (setWritethrough old enable flush) := by
  unfold setWritethrough
  split_ifs
  · exact balanced_check
  · exact .nil

lemma balanced_roundLog (h : holds [] b.log = some b.l2Table.toList) :
    Balanced (roundLog s r l2wt rwt b) := by
  have hput : Balanced (b.log ++ match b.l2Table with
      | none => []
      | some t => cachePut t r.put) := by
    cases htable : b.l2Table with
    | none =>
      rw [htable] at h
      rw [List.append_nil]
      exact h
    | some t =>
      rw [htable] at h
      exact (holds_append h).trans holds_cachePut
  exact (hput.append balanced_setWritethrough).append balanced_setWritethrough

lemma failed_mem_setWritethrough {old enable : Bool} {flush : ℤ} :
    failed ∈ setWritethrough old enable flush ↔ old = false ∧ enable = true ∧ flush < 0 := by
  unfold setWritethrough
  cases old <;> cases enable <;> simp [failed_mem_check]

lemma failed_mem_roundLog_of_mem (h : failed ∈ b.log) : failed ∈ roundLog s r l2wt rwt b := by
  unfold roundLog
  simp only [List.mem_append]
  exact .inl (.inl (.inl h))

lemma failed_mem_roundLog (htable : b.l2Table = none) :
    failed ∈ roundLog s r l2wt rwt b ↔ failed ∈ b.log ∨ FlushFails s r l2wt rwt := by
  unfold roundLog FlushFails
  rw [htable]
  simp only [List.mem_append, failed_mem_setWritethrough, List.not_mem_nil, or_false, or_assoc]

/-- What is returned. -/
lemma cleanUp_spec (hheld : holds [] b.log = some b.l2Table.toList)
    (h : cleanUp s addend r rounds attempt l2wt rwt b = some out) :
    out.ret = b.ret ∧ Balanced out.log ∧ (∀ x ∈ roundLog s r l2wt rwt b, x ∈ out.log) ∧
      (addend ≥ 0 ∧ b.l1Modified = true → ∃ k ≥ attempt, 0 ≤ r.l1Write k) ∧
      (failed ∈ out.log → failed ∈ roundLog s r l2wt rwt b ∨
        (addend ≥ 0 ∧ b.l1Modified = true) ∧ r.l1Write attempt < 0) ∧
      ((addend ≥ 0 ∧ b.l1Modified = true) ∧ r.l1Write attempt < 0 → failed ∈ out.log) := by
  induction rounds generalizing attempt l2wt rwt b with
  | zero => cases h
  | succ rounds ih =>
    by_cases hwrites : addend ≥ 0 ∧ b.l1Modified = true
    · by_cases hwrite : r.l1Write attempt < 0
      · rw [cleanUp_again hwrites hwrite] at h
        obtain ⟨hret, hbalanced, hmem, hlater, -⟩ :=
          ih (b := again s r l2wt rwt b) ((balanced_roundLog hheld).append (.note _)) h
        have hagain : failed ∈ out.log := hmem _ (failed_mem_roundLog_of_mem (by simp [again]))
        refine ⟨hret, hbalanced, fun x hx => hmem x ?_, fun _ => ?_, fun _ => .inr ⟨hwrites, hwrite⟩,
          fun _ => hagain⟩
        · have hlog : x ∈ (again s r l2wt rwt b).log := List.mem_append_left _ hx
          unfold roundLog
          simp only [List.mem_append]
          exact .inl (.inl (.inl hlog))
        · obtain ⟨k, hk, hwritten⟩ := hlater hwrites
          exact ⟨k, by omega, hwritten⟩
      · rw [cleanUp_written hwrites hwrite] at h
        cases h
        exact ⟨rfl, balanced_roundLog hheld, fun _ hx => hx,
          fun _ => ⟨attempt, le_rfl, not_lt.mp hwrite⟩, .inl, fun h => absurd h.2 hwrite⟩
    · rw [cleanUp_done hwrites] at h
      cases h
      exact ⟨rfl, balanced_roundLog hheld, fun _ hx => hx, fun h => absurd h hwrites, .inl,
        fun h => absurd h.1 hwrites⟩

/-- It returns when there is no L1 table to be written or it can be written in the end. -/
lemma cleanUp_returns (h : addend ≥ 0 ∧ b.l1Modified = true → ∃ k ≥ attempt, 0 ≤ r.l1Write k) :
    ∃ rounds out, cleanUp s addend r rounds attempt l2wt rwt b = some out := by
  by_cases hwrites : addend ≥ 0 ∧ b.l1Modified = true
  · obtain ⟨k, hk, hwritten⟩ := h hwrites
    obtain ⟨n, rfl⟩ := Nat.exists_eq_add_of_le hk
    clear h hk
    induction n generalizing attempt l2wt rwt b with
    | zero => exact ⟨1, _, cleanUp_written hwrites (not_lt.mpr hwritten)⟩
    | succ n ih =>
      by_cases hwrite : r.l1Write attempt < 0
      · have hnext : 0 ≤ r.l1Write (attempt + 1 + n) := by
          rwa [Nat.add_assoc, Nat.add_comm 1 n]
        obtain ⟨rounds, out, hout⟩ := ih (b := again s r l2wt rwt b) hwrites hnext
        exact ⟨rounds + 1, out, (cleanUp_again hwrites hwrite).trans hout⟩
      · exact ⟨1, _, cleanUp_written hwrites hwrite⟩
  · exact ⟨1, _, cleanUp_done hwrites⟩

end CleanUp

/-! ### The function -/

section Function

variable (r : Results) (l1TableOffset : ℕ)

/-- The L1 table is read and that fails. -/
def ReadFails : Prop := l1TableOffset ≠ s.l1TableOffset ∧ r.l1Read ≠ 8 * r.l1Table.length

instance : Decidable (ReadFails s r l1TableOffset) := inferInstanceAs (Decidable (_ ∧ _))

/-- The failure that ends the loops. -/
def firstFailure : Option Failure :=
  if ReadFails s r l1TableOffset then some .reported
  else r.l1Table.findSome? (L1Entry.failure s addend)

/-- The L1 table is to be written. -/
def WritesL1 : Prop :=
  addend ≥ 0 ∧ ¬ ReadFails s r l1TableOffset ∧ Modifies s addend r.l1Table

/-- The function returns, it has released what it took exactly once, and if something has failed it
returns a negative value. -/
def Reports : Prop :=
  ∃ rounds out, qcow2UpdateSnapshotRefcount s addend r l1TableOffset rounds = some out ∧
    Balanced out.log ∧ (failed ∈ out.log → out.ret < 0)

/-- What the function reports rightly: a failure whose result it looks at, if the L1 table can be
written in the end, or no failure at all. -/
def Reportable : Prop :=
  match firstFailure s addend r l1TableOffset with
  | some .silent => False
  | some .reported => WritesL1 s addend r l1TableOffset → ∃ k, 0 ≤ r.l1Write k
  | none => (∀ e ∈ r.l1Table, ¬ e.Dropped s addend) ∧ ¬ FlushFails s r false false ∧
      (WritesL1 s addend r l1TableOffset → 0 ≤ r.l1Write 0)

lemma body_spec :
    holds [] (body s addend r l1TableOffset).log =
      some (body s addend r l1TableOffset).l2Table.toList ∧
    (addend ≥ 0 ∧ (body s addend r l1TableOffset).l1Modified = true ↔
      WritesL1 s addend r l1TableOffset) ∧
    (firstFailure s addend r l1TableOffset = none →
      (body s addend r l1TableOffset).l2Table = none) ∧
    Ends (firstFailure s addend r l1TableOffset) (∃ e ∈ r.l1Table, e.Dropped s addend)
      (body s addend r l1TableOffset).ret (body s addend r l1TableOffset).log := by
  by_cases hread : ReadFails s r l1TableOffset
  · have hbody : body s addend r l1TableOffset =
        ⟨-eio, none, r.l1Table.map L1Entry.offset, false, [failed]⟩ := if_pos hread
    have hio : -eio < 0 := by decide
    rw [hbody, firstFailure, if_pos hread, WritesL1]
    exact ⟨rfl, by simp [hread], nofun, nofun, fun _ => by simp, fun h => absurd rfl h, fun _ => hio⟩
  · have hbody : body s addend r l1TableOffset = l1Loop s addend r.l1Table 0 := if_neg hread
    obtain ⟨hheld, hmodified, htable, hends⟩ := l1Loop_spec s addend r.l1Table le_rfl
    rw [hbody, firstFailure, if_neg hread, WritesL1, hmodified]
    exact ⟨hheld, by simp [hread], htable, hends⟩

variable {s addend r l1TableOffset}

/-- After the update of a compressed cluster has failed, the result is that of getting its L2 table. -/
lemma not_reports_of_silent (hf : firstFailure s addend r l1TableOffset = some .silent) :
    ¬ Reports s addend r l1TableOffset := by
  obtain ⟨hheld, -, -, hends⟩ := body_spec s addend r l1TableOffset
  rw [hf] at hends
  rintro ⟨rounds, out, hout, -, hreport⟩
  obtain ⟨hret, -, hmem, -⟩ := cleanUp_spec hheld hout
  have hfailed := hreport (hmem _ (failed_mem_roundLog_of_mem (hends.failed nofun)))
  rw [hret] at hfailed
  exact absurd hfailed (not_lt.mpr (hends.nonneg nofun))

/-- An L1 table that can never be written is written for ever. -/
theorem hangs (hw : WritesL1 s addend r l1TableOffset) (hfails : ∀ k, r.l1Write k < 0) (rounds : ℕ) :
    qcow2UpdateSnapshotRefcount s addend r l1TableOffset rounds = none := by
  obtain ⟨hheld, hwrites, -⟩ := body_spec s addend r l1TableOffset
  cases hout : qcow2UpdateSnapshotRefcount s addend r l1TableOffset rounds with
  | none => rfl
  | some out =>
    obtain ⟨-, -, -, hlater, -⟩ := cleanUp_spec hheld hout
    obtain ⟨k, -, hk⟩ := hlater (hwrites.mpr hw)
    exact absurd (hfails k) (not_lt.mpr hk)

lemma returns (h : WritesL1 s addend r l1TableOffset → ∃ k, 0 ≤ r.l1Write k) :
    ∃ rounds out, qcow2UpdateSnapshotRefcount s addend r l1TableOffset rounds = some out := by
  obtain ⟨-, hwrites, -⟩ := body_spec s addend r l1TableOffset
  refine cleanUp_returns fun hw => ?_
  obtain ⟨k, hk⟩ := h (hwrites.mp hw)
  exact ⟨k, Nat.zero_le k, hk⟩

variable (s addend r l1TableOffset)

/-- For every content of the tables and all results of the calls, the function ends, releases each
table it took once and reports what has failed if and only if it is reportable. -/
theorem reports_iff : Reports s addend r l1TableOffset ↔ Reportable s addend r l1TableOffset := by
  obtain ⟨hheld, hwrites, htable, hends⟩ := body_spec s addend r l1TableOffset
  unfold Reportable
  cases hf : firstFailure s addend r l1TableOffset with
  | some f =>
    rw [hf] at hends
    cases f with
    | silent => exact iff_of_false (not_reports_of_silent hf) not_false
    | reported =>
      constructor
      · rintro ⟨rounds, out, hout, -⟩ hw
        obtain ⟨-, -, -, hlater, -⟩ := cleanUp_spec hheld hout
        obtain ⟨k, -, hk⟩ := hlater (hwrites.mpr hw)
        exact ⟨k, hk⟩
      · intro h
        obtain ⟨rounds, out, hout⟩ := returns h
        obtain ⟨hret, hbalanced, -⟩ := cleanUp_spec hheld hout
        exact ⟨rounds, out, hout, hbalanced, fun _ => hret ▸ hends.reported rfl⟩
  | none =>
    rw [hf] at hends
    have hround := @failed_mem_roundLog s r (body s addend r l1TableOffset) false false (htable hf)
    have hnonneg := hends.nonneg nofun
    constructor
    · rintro ⟨rounds, out, hout, -, hreport⟩
      obtain ⟨hret, -, hmem, -, -, hwrite⟩ := cleanUp_spec hheld hout
      have hclean : failed ∉ out.log := fun h => by
        have hneg := hreport h
        omega
      refine ⟨fun e he hdropped => ?_, fun hflush => ?_, fun hw => ?_⟩
      · exact hclean (hmem _ (hround.mpr (.inl ((hends.clean rfl).mpr ⟨e, he, hdropped⟩))))
      · exact hclean (hmem _ (hround.mpr (.inr hflush)))
      · by_contra hneg
        exact hclean (hwrite ⟨hwrites.mpr hw, not_le.mp hneg⟩)
    · rintro ⟨hdropped, hflush, hwritten⟩
      obtain ⟨rounds, out, hout⟩ := returns fun hw => ⟨0, hwritten hw⟩
      obtain ⟨hret, hbalanced, -, -, hfailed, -⟩ := cleanUp_spec hheld hout
      refine ⟨rounds, out, hout, hbalanced, fun h => ?_⟩
      obtain hlog | ⟨hw, hneg⟩ := hfailed h
      · obtain hlog | hlog := hround.mp hlog
        · obtain ⟨e, he, hdrop⟩ := (hends.clean rfl).mp hlog
          exact absurd hdrop (hdropped e he)
        · exact absurd hlog hflush
      · exact absurd hneg (not_lt.mpr (hwritten (hwrites.mp hw)))

end Function

/-- Nothing fails but the allocation of a refcount block. -/
def noBlock : Image.ClusterResults where
  update :=
    { dependency := fun _ => 0
      put := fun _ _ => 0
      alloc := fun _ _ => -eio
      refcount := fun _ _ => 1
      lastPut := fun _ => 0 }
  get := ⟨true, 0, 1, 0⟩

/-- A snapshot with one cluster, which is compressed. -/
def compressedCluster : Results where
  l1Read := 8
  l1Table := [⟨0x50000, 0, [⟨0x4000000000060000, noBlock, 0⟩], 0, noBlock⟩]
  put := 0
  l2Flush := 0
  refcountFlush := 0
  l1Write := fun _ => 0

/-- The refcount of the cluster cannot be increased, and 0 is returned. -/
theorem not_reports_compressedCluster :
    ¬ Reports ⟨16, 0x30000, true, true⟩ 1 compressedCluster 0x40000 :=
  not_reports_of_silent (by decide +kernel)

end Limbo.Qcow2.Refcount
