import Limbo.Aio.Transfer

/-!
# Vectored and linear transfers

Whichever way a request is handled, it fails with the error of a system call, or what it transfers
is a function of the request, the file and the guest's memory alone: the bytes that the file has for
it, and zeros after them if the file can grow.
-/

namespace Limbo.Aio

open Lib

/-- A result as the kernel gives it: an error has a number, and a call that is not at the end of the
file transfers something. -/
def SysResult.Proper : SysResult → Prop
  | .error errno => 0 < errno
  | .bytes n => 0 < n

/-- Any result but `EINTR`. -/
def SysResult.counts (r : SysResult) : Bool := r ≠ .error EINTR

/-- The request has failed with the error of its last call. -/
def Failed (results : List SysResult) (out : Outcome) : Prop :=
  ∃ before errno, results = before ++ .error errno :: out.results ∧ errno ≠ EINTR ∧
    out.ret = -errno

/-- The number of bytes that a request is to transfer. -/
def Aiocb.limit (c : Aiocb) (file : File) : ℕ :=
  if c.write then c.aioNbytes else min c.aioNbytes (file.size - c.aioOffset)

variable {c : Aiocb} {file : File} {mem guest heap : Memory} {results before : List SysResult}
  {out : Outcome} {buf n k : ℕ}

lemma Failed.append (h : Failed results out) : Failed (before ++ results) out := by
  obtain ⟨first, errno, rfl, herr, hret⟩ := h
  exact ⟨before ++ first, errno, (List.append_assoc _ _ _).symm, herr, hret⟩

/-! ### Files -/

namespace File

variable {src src' : Memory} {q q' off : ℕ}

@[simp] lemma write_zero : file.write src q off 0 = file := if_pos rfl

lemma write_of_ne (h : n ≠ 0) : (file.write src q off n).size = max file.size (off + n) ∧
    (file.write src q off n).byte = copy file.byte off src q n := by
  rw [write, if_neg h]
  exact ⟨rfl, rfl⟩

lemma write_congr (h : ∀ i < n, src (q + i) = src' (q' + i)) :
    file.write src q off n = file.write src' q' off n := by
  by_cases hn : n = 0
  · rw [hn, write_zero, write_zero]
  ext
  · rw [(write_of_ne hn).1, (write_of_ne hn).1]
  · rw [(write_of_ne hn).2, (write_of_ne hn).2, copy_congr h]

lemma write_append :
    (file.write src q off n).write src (q + n) (off + n) k = file.write src q off (n + k) := by
  by_cases hk : k = 0
  · rw [hk, write_zero, Nat.add_zero]
  by_cases hn : n = 0
  · rw [hn, write_zero, Nat.add_zero, Nat.add_zero, Nat.zero_add]
  have hnk : n + k ≠ 0 := by omega
  ext
  · rw [(write_of_ne hk).1, (write_of_ne hn).1, (write_of_ne hnk).1]
    omega
  · rw [(write_of_ne hk).2, (write_of_ne hn).2, (write_of_ne hnk).2, copy_append]

lemma write_write (h : k ≤ n) :
    (file.write src q off k).write src q off n = file.write src q off n := by
  by_cases hk : k = 0
  · rw [hk, write_zero]
  have hn : n ≠ 0 := by omega
  ext
  · rw [(write_of_ne hn).1, (write_of_ne hk).1, (write_of_ne hn).1]
    omega
  · rw [(write_of_ne hn).2, (write_of_ne hk).2, (write_of_ne hn).2, copy_copy h]

end File

/-! ### The linear loop -/

namespace Aiocb

lemma move_zero : c.move buf 0 0 file mem = (file, mem) := by
  unfold move
  rw [File.write_zero, copy_zero, ite_self]

/-- Some bytes more. -/
lemma move_add : c.move buf n k (c.move buf 0 n file mem).1 (c.move buf 0 n file mem).2 =
    c.move buf 0 (n + k) file mem := by
  unfold move
  split_ifs
  · exact congrArg (·, mem) File.write_append
  · exact congrArg (file, ·) copy_append

lemma possible_move (hn : n ≤ c.limit file) :
    c.possible (c.move buf 0 n file mem).1 n (c.aioNbytes - n) = c.limit file - n := by
  unfold possible limit move at *
  split_ifs at hn ⊢
  · rfl
  · show min (c.aioNbytes - n) (file.size - (c.aioOffset + n)) = _
    omega

lemma limit_le : c.limit file ≤ c.aioNbytes := by
  unfold limit
  split_ifs <;> omega

end Aiocb

lemma handleAiocbRwLinear_of_le (h : c.aioNbytes ≤ n) :
    handleAiocbRwLinear c buf results n file mem = some ⟨n, mem, file, results⟩ := by
  have hend : ¬ n < c.aioNbytes := not_lt.mpr h
  match results with
  | [] => exact if_neg hend
  | .error _ :: _ => exact if_neg hend
  | .bytes _ :: _ => exact if_neg hend

lemma handleAiocbRwLinear_error (h : n < c.aioNbytes) (errno : ℕ) :
    handleAiocbRwLinear c buf (.error errno :: results) n file mem =
      if errno = EINTR then handleAiocbRwLinear c buf results n file mem
      else some ⟨-errno, mem, file, results⟩ := if_pos h

lemma handleAiocbRwLinear_bytes (h : n < c.aioNbytes) (m : ℕ) :
    handleAiocbRwLinear c buf (.bytes m :: results) n file mem =
      if min m (c.possible file n (c.aioNbytes - n)) = 0 then some ⟨n, mem, file, results⟩
      else handleAiocbRwLinear c buf results (n + min m (c.possible file n (c.aioNbytes - n)))
        (c.move buf n (min m (c.possible file n (c.aioNbytes - n))) file mem).1
        (c.move buf n (min m (c.possible file n (c.aioNbytes - n))) file mem).2 := if_pos h

/-- The loop transfers all that it can, or fails. -/
lemma handleAiocbRwLinear_spec (hresults : ∀ r ∈ results, r.Proper) (hn : n ≤ c.limit file)
    (h : handleAiocbRwLinear c buf results n (c.move buf 0 n file mem).1
      (c.move buf 0 n file mem).2 = some out) :
    Failed results out ∨ out.ret = c.limit file ∧
      (out.file, out.mem) = c.move buf 0 (c.limit file) file mem := by
  have hlimit : c.limit file ≤ c.aioNbytes := Aiocb.limit_le
  induction results generalizing n with
  | nil =>
    rw [handleAiocbRwLinear] at h
    split_ifs at h with hlt
    cases h
    have heq : c.limit file = n := by omega
    rw [heq]
    exact .inr ⟨rfl, rfl⟩
  | cons r results ih =>
    obtain ⟨hr, hrest⟩ := List.forall_mem_cons.mp hresults
    by_cases hlt : n < c.aioNbytes
    · cases r with
      | error errno =>
        rw [handleAiocbRwLinear_error hlt] at h
        split_ifs at h with heintr
        · exact (ih hrest hn h).imp_left fun hf => @Failed.append _ [_] _ hf
        · cases h
          exact .inl ⟨[], errno, rfl, heintr, rfl⟩
      | bytes m =>
        rw [handleAiocbRwLinear_bytes hlt, Aiocb.possible_move hn, Aiocb.move_add] at h
        have hm : 0 < m := hr
        split_ifs at h with hlen
        · cases h
          have heq : c.limit file = n := by omega
          rw [heq]
          exact .inr ⟨rfl, rfl⟩
        · exact (ih hrest (by omega) h).imp_left fun hf => @Failed.append _ [_] _ hf
    · rw [handleAiocbRwLinear_of_le (not_lt.mp hlt)] at h
      cases h
      have heq : c.limit file = n := by omega
      rw [heq]
      exact .inr ⟨rfl, rfl⟩

lemma handleAiocbRwLinear_zero (hresults : ∀ r ∈ results, r.Proper)
    (h : handleAiocbRwLinear c buf results 0 file mem = some out) :
    Failed results out ∨ out.ret = c.limit file ∧
      (out.file, out.mem) = c.move buf 0 (c.limit file) file mem := by
  refine handleAiocbRwLinear_spec hresults (Nat.zero_le _) ?_
  rwa [Aiocb.move_zero]

/-- It returns after at most one call for each byte, not counting those that are interrupted. -/
lemma handleAiocbRwLinear_returns (h : c.aioNbytes - n ≤ results.countP SysResult.counts) :
    ∃ out, handleAiocbRwLinear c buf results n file mem = some out := by
  induction results generalizing n file mem with
  | nil =>
    rw [List.countP_nil] at h
    exact ⟨_, handleAiocbRwLinear_of_le (by omega)⟩
  | cons r results ih =>
    by_cases hlt : n < c.aioNbytes
    · rw [List.countP_cons] at h
      cases r with
      | error errno =>
        rw [handleAiocbRwLinear_error hlt]
        split_ifs with heintr
        · refine ih ?_
          rw [heintr] at h
          exact h
        · exact ⟨_, rfl⟩
      | bytes m =>
        rw [handleAiocbRwLinear_bytes hlt]
        split_ifs with hlen
        · exact ⟨_, rfl⟩
        · refine ih ?_
          split_ifs at h <;> omega
    · exact ⟨_, handleAiocbRwLinear_of_le (not_lt.mp hlt)⟩

/-! ### The vectored call -/

lemma countP_cons_le (r : SysResult) : (r :: results).countP SysResult.counts ≤
    results.countP SysResult.counts + 1 := by
  rw [List.countP_cons]
  split_ifs <;> omega

/-- The results that are left after the call. -/
lemma handleAiocbRwVector_suffix (h : handleAiocbRwVector c results file guest = some out) :
    out.results <:+ results ∧
      results.countP SysResult.counts ≤ out.results.countP SysResult.counts + 1 := by
  induction results with
  | nil => cases h
  | cons r results ih =>
    cases r with
    | error errno =>
      rw [handleAiocbRwVector] at h
      split_ifs at h with heintr
      · obtain ⟨hsuffix, hcount⟩ := ih h
        rw [heintr]
        exact ⟨hsuffix.trans (List.suffix_cons _ _), hcount⟩
      · cases h
        exact ⟨List.suffix_cons _ _, countP_cons_le _⟩
    | bytes n =>
      cases h
      exact ⟨List.suffix_cons _ _, countP_cons_le _⟩

lemma handleAiocbRwVector_returns (h : 0 < results.countP SysResult.counts) :
    ∃ out, handleAiocbRwVector c results file guest = some out := by
  induction results with
  | nil => cases h
  | cons r results ih =>
    cases r with
    | error errno =>
      rw [handleAiocbRwVector]
      split_ifs with heintr
      · refine ih ?_
        rw [heintr] at h
        exact h
      · exact ⟨_, rfl⟩
    | bytes n => exact ⟨_, rfl⟩

/-! ### A request -/

/-- The bytes of the elements. -/
def Aiocb.data (c : Aiocb) (guest : Memory) : Memory := gather c.aioIov guest 0 fun _ => 0

/-- What a request that does not fail leaves, in the elements only up to the bytes that are read. -/
structure Done (c : Aiocb) (file : File) (guest : Memory) (out : Outcome) : Prop where
  ret : out.ret = c.limit file
  file_eq : out.file = if c.write then file.write (c.data guest) 0 c.aioOffset c.aioNbytes else file
  read : ∀ a i, c.write = false → place c.aioIov c.aioNbytes a = some i → i < c.limit file →
    out.mem a = file.byte (c.aioOffset + i)
  kept : ∀ a, c.write ∨ place c.aioIov c.aioNbytes a = none → out.mem a = guest a

section Request

variable (hresults : ∀ r ∈ results, r.Proper)
include hresults

/-- A read through the bounce buffer, after a first part has been read. -/
lemma bounce_read (hw : c.write = false) (hk : k ≤ c.aioNbytes)
    (h : bounce c heap (scatter c.aioIov k file.byte c.aioOffset guest) file results = some out) :
    Failed results out ∨ Done c file guest out := by
  have hw' : ¬ c.write = true := by rw [hw]; exact Bool.false_ne_true
  obtain ⟨lin, hlin, hout⟩ := Option.bind_eq_some_iff.mp h
  rw [if_neg hw'] at hlin hout
  cases hout
  refine (handleAiocbRwLinear_zero hresults hlin).imp_right ?_
  rintro ⟨hret, hmove⟩
  rw [Aiocb.move, if_neg hw'] at hmove
  have hmem : lin.mem = copy heap (0 + 0) file.byte (c.aioOffset + 0) (c.limit file) :=
    congrArg Prod.snd hmove
  refine ⟨hret, ?_, fun a i _ hplace hi => ?_, ?_⟩
  · rw [if_neg hw']
    exact congrArg Prod.fst hmove
  · show scatter _ _ _ _ _ a = _
    rw [scatter_apply, hplace, Option.elim_some, hmem, copy_of_mem ⟨by omega, by omega⟩]
    congr 1
    omega
  · rintro a (hwrite | hplace)
    · exact absurd hwrite hw'
    · show scatter _ _ _ _ _ a = _
      rw [scatter_apply, hplace, Option.elim_none, scatter_apply, place_eq_none_of_le hk hplace,
        Option.elim_none]

variable (hsize : total c.aioIov = c.aioNbytes)
include hsize

/-- A write through the bounce buffer, after a first part has been written. -/
lemma bounce_write (hw : c.write = true) (hk : k ≤ c.aioNbytes)
    (h : bounce c heap guest (file.write (c.data guest) 0 c.aioOffset k) results = some out) :
    Failed results out ∨ Done c file guest out := by
  obtain ⟨lin, hlin, hout⟩ := Option.bind_eq_some_iff.mp h
  rw [if_pos hw] at hlin hout
  cases hout
  refine (handleAiocbRwLinear_zero hresults hlin).imp_right ?_
  rintro ⟨hret, hmove⟩
  have hlimit (file : File) : c.limit file = c.aioNbytes := if_pos hw
  rw [hlimit] at hret hmove
  rw [Aiocb.move, if_pos hw] at hmove
  refine ⟨by rw [hlimit]; exact hret, ?_, fun a i hread => ?_, fun a _ => rfl⟩
  · rw [if_pos hw]
    refine (congrArg Prod.fst hmove).trans ?_
    have hdata : ∀ i < c.aioNbytes, gather c.aioIov guest 0 heap (0 + 0 + i) =
        c.data guest (0 + i) := fun i hi =>
      gather_congr (.inr ⟨Nat.zero_le _, by omega⟩)
    rw [File.write_congr hdata, Nat.add_zero, File.write_write hk]
  · rw [hw] at hread
    cases hread

/-- A transfer in place. -/
lemma inPlace_spec {v : Iovec} (hv : c.aioIov = [v])
    (h : handleAiocbRwLinear c v.iovBase results 0 file guest = some out) :
    Failed results out ∨ Done c file guest out := by
  refine (handleAiocbRwLinear_zero hresults h).imp_right ?_
  rintro ⟨hret, hmove⟩
  have hlen : v.iovLen = c.aioNbytes := by
    rw [hv] at hsize
    exact hsize
  have hplace (a : ℕ) : place c.aioIov c.aioNbytes a =
      if v.iovBase ≤ a ∧ a < v.iovBase + c.aioNbytes then some (a - v.iovBase) else none := by
    rw [hv, place_cons_of_none rfl, hlen, min_self]
  rw [Aiocb.move] at hmove
  cases hw : c.write with
  | true =>
    rw [if_pos hw] at hmove
    have hlimit : c.limit file = c.aioNbytes := if_pos hw
    refine ⟨hret, ?_, fun a i hread => ?_, fun a _ => congrFun (congrArg Prod.snd hmove) a⟩
    · rw [if_pos hw]
      refine (congrArg Prod.fst hmove).trans ?_
      rw [hlimit]
      refine File.write_congr fun i hi => ?_
      rw [Aiocb.data, hv, gather, gather, hlen, copy_of_mem ⟨Nat.zero_le _, by omega⟩]
      congr 1
      omega
    · rw [hw] at hread
      cases hread
  | false =>
    have hw' : ¬ c.write = true := by rw [hw]; exact Bool.false_ne_true
    rw [if_neg hw'] at hmove
    have hmem : out.mem = copy guest (v.iovBase + 0) file.byte (c.aioOffset + 0) (c.limit file) :=
      congrArg Prod.snd hmove
    have hlimit : c.limit file ≤ c.aioNbytes := Aiocb.limit_le
    refine ⟨hret, ?_, fun a i _ hi hlt => ?_, ?_⟩
    · rw [if_neg hw']
      exact congrArg Prod.fst hmove
    · rw [hplace] at hi
      split_ifs at hi with ha
      cases hi
      rw [hmem, copy_of_mem ⟨by omega, by omega⟩]
      congr 1
    · rintro a (hwrite | hnone)
      · exact absurd hwrite hw'
      · rw [hplace] at hnone
        split_ifs at hnone with ha
        rw [hmem, copy_of_not_mem (by omega)]

/-- The vectored call fails, or it transfers a first part. -/
lemma handleAiocbRwVector_spec (h : handleAiocbRwVector c results file guest = some out) :
    (Failed results out ∧ out.ret < 0 ∧ out.file = file ∧ out.mem = guest) ∨
      ∃ k ≤ c.limit file, out.ret = k ∧ (out.file, out.mem) = c.moveVector k file guest := by
  induction results with
  | nil => cases h
  | cons r results ih =>
    obtain ⟨hr, hrest⟩ := List.forall_mem_cons.mp hresults
    cases r with
    | error errno =>
      rw [handleAiocbRwVector] at h
      split_ifs at h with heintr
      · exact (ih hrest h).imp_left fun ⟨hf, hsame⟩ => ⟨@Failed.append _ [_] _ hf, hsame⟩
      · cases h
        have hpos : 0 < errno := hr
        exact .inl ⟨⟨[], errno, rfl, heintr, rfl⟩, by simpa using hpos, rfl, rfl⟩
    | bytes n =>
      cases h
      have hlimit : c.possible file 0 (total c.aioIov) = c.limit file := by
        unfold Aiocb.possible Aiocb.limit
        rw [hsize, Nat.add_zero]
      refine .inr ⟨min n (c.possible file 0 (total c.aioIov)), ?_, rfl, rfl⟩
      rw [hlimit]
      exact min_le_right _ _

/-- A transfer through the bounce buffer, after a first part has been transferred. -/
lemma bounce_spec (hk : k ≤ c.limit file)
    (h : bounce c heap (c.moveVector k file guest).2 (c.moveVector k file guest).1 results =
      some out) :
    Failed results out ∨ Done c file guest out := by
  have hle : k ≤ c.aioNbytes := hk.trans Aiocb.limit_le
  unfold Aiocb.moveVector at h
  cases hw : c.write with
  | true =>
    rw [if_pos hw] at h
    exact bounce_write hresults hsize hw hle h
  | false =>
    rw [if_neg (by rw [hw]; exact Bool.false_ne_true)] at h
    exact bounce_read hresults hw hle h

omit hresults hsize in
lemma Aiocb.moveVector_zero : c.moveVector 0 file guest = (file, guest) := by
  unfold moveVector
  split_ifs
  · rw [File.write_zero]
  · congr 1
    funext a
    rw [scatter_apply, place_zero, Option.elim_none]

omit hresults hsize in
/-- The vectored call has transferred everything. -/
lemma done_moveVector (hlimit : c.aioNbytes ≤ c.limit file) (hret : out.ret = c.aioNbytes)
    (hmove : (out.file, out.mem) = c.moveVector c.aioNbytes file guest) :
    Done c file guest out := by
  have heq : c.limit file = c.aioNbytes := le_antisymm Aiocb.limit_le hlimit
  unfold Aiocb.moveVector at hmove
  cases hw : c.write with
  | true =>
    rw [if_pos hw] at hmove
    refine ⟨by rw [heq, hret], ?_, fun a i hread => ?_,
      fun a _ => congrFun (congrArg Prod.snd hmove) a⟩
    · rw [if_pos hw]
      exact congrArg Prod.fst hmove
    · rw [hw] at hread
      cases hread
  | false =>
    have hw' : ¬ c.write = true := by rw [hw]; exact Bool.false_ne_true
    rw [if_neg hw'] at hmove
    have hmem : out.mem = scatter c.aioIov c.aioNbytes file.byte c.aioOffset guest :=
      congrArg Prod.snd hmove
    refine ⟨by rw [heq, hret], ?_, fun a i _ hplace _ => ?_, ?_⟩
    · rw [if_neg hw']
      exact congrArg Prod.fst hmove
    · rw [hmem, scatter_apply, hplace, Option.elim_some]
    · rintro a (hwrite | hplace)
      · exact absurd hwrite hw'
      · rw [hmem, scatter_apply, hplace, Option.elim_none]

/-- The vectored call, or the bounce buffer when it does not transfer everything. -/
lemma vectorOrBounce_spec {present : Bool}
    (h : vectorOrBounce c heap guest file results = some (out, present)) :
    Failed results out ∨ Done c file guest out := by
  obtain ⟨first, hfirst, h⟩ := Option.bind_eq_some_iff.mp h
  obtain ⟨⟨before, hbefore⟩, -⟩ := handleAiocbRwVector_suffix hfirst
  have hrest : ∀ r ∈ first.results, r.Proper := fun r hr =>
    hresults r (hbefore ▸ List.mem_append_right before hr)
  split_ifs at h with hall herr
  · cases h
    obtain ⟨-, hneg, -⟩ | ⟨k, hk, hret, hmove⟩ := handleAiocbRwVector_spec hresults hsize hfirst
    · omega
    · have hkn : k = c.aioNbytes := by exact_mod_cast hret.symm.trans hall
      rw [hkn] at hk hmove
      exact .inr (done_moveVector hk hall hmove)
  · cases h
    obtain ⟨hfailed, -⟩ | ⟨k, hk, hret, hmove⟩ := handleAiocbRwVector_spec hresults hsize hfirst
    · exact .inl hfailed
    · omega
  · obtain ⟨second, hsecond, hout⟩ := Option.bind_eq_some_iff.mp h
    cases hout
    obtain ⟨-, -, hfile, hmem⟩ | ⟨k, hk, -, hmove⟩ :=
      handleAiocbRwVector_spec hresults hsize hfirst
    · rw [hfile, hmem] at hsecond
      have hstart : bounce c heap (c.moveVector 0 file guest).2 (c.moveVector 0 file guest).1
          first.results = some out := by rwa [Aiocb.moveVector_zero]
      exact (bounce_spec hrest hsize (Nat.zero_le _) hstart).imp_left fun hf =>
        hbefore ▸ hf.append
    · have hfile : first.file = (c.moveVector k file guest).1 := congrArg Prod.fst hmove
      have hmem : first.mem = (c.moveVector k file guest).2 := congrArg Prod.snd hmove
      rw [hfile, hmem] at hsecond
      exact (bounce_spec hrest hsize hk hsecond).imp_left fun hf => hbefore ▸ hf.append

omit hresults hsize in
/-- The three ways to handle a request. -/
lemma handleAiocbRw_cases (present : Bool) :
    handleAiocbRw c present heap guest file results =
        (bounce c heap guest file results).map (·, present) ∨
      (∃ v, c.aioIov = [v] ∧ handleAiocbRw c present heap guest file results =
        (handleAiocbRwLinear c v.iovBase results 0 file guest).map (·, present)) ∨
      handleAiocbRw c present heap guest file results =
        vectorOrBounce c heap guest file results := by
  unfold handleAiocbRw
  simp only [Option.map_eq_bind]
  by_cases hmisaligned : c.misaligned
  · rw [if_pos hmisaligned]
    exact .inl rfl
  · rw [if_neg hmisaligned]
    split
    next v hv => exact .inr (.inl ⟨v, hv, rfl⟩)
    next =>
      cases present with
      | true => exact .inr (.inr rfl)
      | false => exact .inl rfl

/-- Whichever way a request is handled, it fails or it is done. -/
theorem handleAiocbRw_spec {present present' : Bool}
    (h : handleAiocbRw c present heap guest file results = some (out, present')) :
    Failed results out ∨ Done c file guest out := by
  obtain hway | ⟨v, hv, hway⟩ | hway := handleAiocbRw_cases present
  · obtain ⟨last, hlast, hout⟩ := Option.map_eq_some_iff.mp (hway.symm.trans h)
    cases hout
    have hstart : bounce c heap (c.moveVector 0 file guest).2 (c.moveVector 0 file guest).1
        results = some out := by rwa [Aiocb.moveVector_zero]
    exact bounce_spec hresults hsize (Nat.zero_le _) hstart
  · obtain ⟨last, hlast, hout⟩ := Option.map_eq_some_iff.mp (hway.symm.trans h)
    cases hout
    exact inPlace_spec hresults hsize hv hlast
  · exact vectorOrBounce_spec hresults hsize (hway.symm.trans h)

end Request

/-! ### A request returns -/

lemma bounce_returns (h : c.aioNbytes ≤ results.countP SysResult.counts) :
    ∃ out, bounce c heap guest file results = some out := by
  obtain ⟨out, hout⟩ := @handleAiocbRwLinear_returns c file
    (if c.write then gather c.aioIov guest 0 heap else heap) results 0 0 h
  exact ⟨_, Option.bind_eq_some_iff.mpr ⟨out, hout, rfl⟩⟩

/-- A request returns after at most one call for each byte and one for all of them, not counting
those that are interrupted. -/
lemma handleAiocbRw_returns (h : c.aioNbytes < results.countP SysResult.counts) (present : Bool) :
    ∃ out present', handleAiocbRw c present heap guest file results = some (out, present') := by
  obtain hway | ⟨v, -, hway⟩ | hway := handleAiocbRw_cases present <;> rw [hway]
  · obtain ⟨out, hout⟩ := @bounce_returns c file guest heap results h.le
    exact ⟨out, present, by rw [hout, Option.map_some]⟩
  · obtain ⟨out, hout⟩ := @handleAiocbRwLinear_returns c file guest results v.iovBase 0 h.le
    exact ⟨out, present, by rw [hout, Option.map_some]⟩
  · obtain ⟨first, hfirst⟩ := @handleAiocbRwVector_returns c file guest results (by omega)
    have hcount := (handleAiocbRwVector_suffix hfirst).2
    obtain ⟨second, hsecond⟩ := @bounce_returns c first.file first.mem heap first.results (by omega)
    unfold vectorOrBounce
    rw [hfirst, Option.bind_eq_bind, Option.bind_some]
    split_ifs
    · exact ⟨first, true, rfl⟩
    · exact ⟨first, true, rfl⟩
    · exact ⟨second, false, by rw [hsecond]; rfl⟩

/-! ### The end of the file -/

/-- The bytes of one element that are set. -/
lemma copy_skip {b : UInt8} {base skip a : ℕ} :
    copy mem (base + skip) (fun _ => b) 0 n a =
      (if base ≤ a ∧ a < base + (skip + n) then some (a - base) else none).elim (mem a)
        fun i => if skip ≤ i then b else mem a := by
  by_cases ha : base + skip ≤ a ∧ a < base + skip + n
  · rw [copy_of_mem ha, if_pos ⟨by omega, by omega⟩, Option.elim_some, if_pos (by omega)]
  · rw [copy_of_not_mem ha]
    split_ifs with hmem
    · rw [Option.elim_some, if_neg (by omega)]
    · rfl

/-- The bytes from `skip` on are set, up to `count` of them. -/
lemma qemuIovecMemsetSkip_apply {b : UInt8} {count done skip a : ℕ} {iov : List Iovec}
    (hdone : done ≤ count) :
    qemuIovecMemsetSkip b count iov done skip mem a =
      (place iov (skip + (count - done)) a).elim (mem a) fun i => if skip ≤ i then b else mem a := by
  induction iov generalizing done skip mem with
  | nil => rfl
  | cons v vs ih =>
    by_cases hend : done = count
    · rw [qemuIovecMemsetSkip, if_pos hend]
      cases hplace : place (v :: vs) (skip + (count - done)) a with
      | none => rfl
      | some i =>
        have hi := place_lt hplace
        rw [Option.elim_some, if_neg (by omega)]
    by_cases hskip : v.iovLen ≤ skip
    · have hmin : min (skip + (count - done)) v.iovLen = v.iovLen := by omega
      have hleft : skip + (count - done) - v.iovLen = skip - v.iovLen + (count - done) := by omega
      rw [qemuIovecMemsetSkip, if_neg hend, if_pos hskip, ih hdone]
      cases hvs : place vs (skip - v.iovLen + (count - done)) a with
      | some i =>
        have hcons : place (v :: vs) (skip + (count - done)) a = some (v.iovLen + i) := by
          rw [place_cons_of_some (by rw [hmin, hleft, hvs]), hmin]
        rw [hcons, Option.elim_some, Option.elim_some]
        exact if_congr (by omega) rfl rfl
      | none =>
        rw [place_cons_of_none (by rw [hmin, hleft, hvs]), hmin, Option.elim_none]
        split_ifs with ha
        · rw [Option.elim_some, if_neg (by omega)]
        · rfl
    by_cases hlast : done + (v.iovLen - skip) > count
    · have hmin : min (skip + (count - done)) v.iovLen = skip + (count - done) := by omega
      rw [qemuIovecMemsetSkip, if_neg hend, if_neg hskip, if_pos hlast,
        place_cons_of_none (by rw [hmin, Nat.sub_self, place_zero]), hmin]
      exact copy_skip
    · have hmin : min (skip + (count - done)) v.iovLen = v.iovLen := by omega
      have hleft : skip + (count - done) - v.iovLen = count - (done + (v.iovLen - skip)) := by omega
      rw [qemuIovecMemsetSkip, if_neg hend, if_neg hskip, if_neg hlast, ih (by omega), Nat.zero_add]
      cases hvs : place vs (count - (done + (v.iovLen - skip))) a with
      | some i =>
        have hcons : place (v :: vs) (skip + (count - done)) a = some (v.iovLen + i) := by
          rw [place_cons_of_some (by rw [hmin, hleft, hvs]), hmin]
        rw [hcons, Option.elim_some, Option.elim_some, if_pos (Nat.zero_le _), if_pos (by omega)]
      | none =>
        have hlen : skip + (v.iovLen - skip) = v.iovLen := by omega
        rw [place_cons_of_none (by rw [hmin, hleft, hvs]), hmin, Option.elim_none, copy_skip, hlen]

/-- A short read of a file that can grow is filled up with the zeros that the file grows by. -/
lemma Done.fill (h : Done c file guest out) (hw : c.write = false)
    (hlt : out.ret < c.aioNbytes) :
    qemuIovecMemsetSkip 0 (c.aioNbytes - out.ret.toNat) c.aioIov 0 out.ret.toNat out.mem =
      scatter c.aioIov c.aioNbytes file.byte c.aioOffset guest := by
  have hret : out.ret.toNat = c.limit file := by rw [h.ret, Int.toNat_natCast]
  have hlimit : c.limit file = min c.aioNbytes (file.size - c.aioOffset) :=
    if_neg (by rw [hw]; exact Bool.false_ne_true)
  rw [h.ret] at hlt
  have hsum : c.limit file + (c.aioNbytes - c.limit file - 0) = c.aioNbytes := by omega
  funext a
  rw [qemuIovecMemsetSkip_apply (Nat.zero_le _), hret, hsum, scatter_apply]
  cases hplace : place c.aioIov c.aioNbytes a with
  | none => exact h.kept a (.inr hplace)
  | some i =>
    have hi := place_lt hplace
    rw [Option.elim_some, Option.elim_some]
    split_ifs with hskip
    · exact (file.byte_eq_zero _ (by omega)).symm
    · exact h.read a i hw hplace (by omega)

/-- The guest's memory when all of a request has been transferred. -/
def Aiocb.after (c : Aiocb) (file : File) (guest : Memory) : Memory :=
  if c.write then guest else scatter c.aioIov c.aioNbytes file.byte c.aioOffset guest

/-- What a worker leaves of a request that does not fail: a read of a file that can grow is whole,
and any other one ends with the file. -/
structure Completed (c : Aiocb) (file : File) (guest : Memory) (out : Outcome) : Prop where
  ret : out.ret = if c.growable then (c.aioNbytes : ℤ) else c.limit file
  file_eq : out.file = if c.write then file.write (c.data guest) 0 c.aioOffset c.aioNbytes else file
  mem : ∀ a, (∀ i, place c.aioIov c.aioNbytes a = some i → (i : ℤ) < out.ret) →
    out.mem a = c.after file guest a

/-- A request that is not filled up. -/
lemma Done.completed (h : Done c file guest out)
    (hfull : c.write = false → c.growable → (c.aioNbytes : ℤ) ≤ out.ret) :
    Completed c file guest out := by
  have hlimit : c.limit file ≤ c.aioNbytes := Aiocb.limit_le
  have hret := h.ret
  refine ⟨?_, h.file_eq, fun a ha => ?_⟩
  · split_ifs with hgrowable
    · cases hw : c.write with
      | true =>
        have hall : c.limit file = c.aioNbytes := if_pos hw
        rw [hret, hall]
      | false =>
        have hle := hfull hw hgrowable
        omega
    · exact hret
  · unfold Aiocb.after
    split_ifs with hw
    · exact h.kept a (.inl hw)
    · rw [scatter_apply]
      cases hplace : place c.aioIov c.aioNbytes a with
      | none => exact h.kept a (.inr hplace)
      | some i =>
        have hi := ha i hplace
        exact h.read a i (Bool.eq_false_iff.mpr hw) hplace (by omega)

/-- A worker's request fails or is completed. -/
theorem aioThread_spec (hresults : ∀ r ∈ results, r.Proper) (hsize : total c.aioIov = c.aioNbytes)
    {present present' : Bool}
    (h : aioThread c present heap guest file results = some (out, present')) :
    Failed results out ∨ Completed c file guest out := by
  obtain ⟨⟨first, present₁⟩, hfirst, h⟩ := Option.bind_eq_some_iff.mp h
  have hspec := handleAiocbRw_spec hresults hsize hfirst
  simp only at h
  split_ifs at h with hshort
  · obtain ⟨hw, hnonneg, hlt, hgrowable⟩ := hshort
    cases h
    obtain ⟨before, errno, hsplit, -, hret⟩ | hdone := hspec
    · have hpos : 0 < errno := hresults (.error errno) (by rw [hsplit]; simp)
      omega
    · refine .inr ⟨(if_pos hgrowable).symm, hdone.file_eq, fun a _ => ?_⟩
      have hw' : ¬ c.write = true := by rw [hw]; exact Bool.false_ne_true
      rw [Aiocb.after, if_neg hw']
      exact congrFun (hdone.fill hw hlt) a
  · cases h
    refine hspec.imp_right fun hdone => hdone.completed fun hw hgrowable => ?_
    have hret := hdone.ret
    by_contra hlt
    exact hshort ⟨hw, by omega, not_le.mp hlt, hgrowable⟩

/-- Two ways to handle a request agree: on the result, on the file, and on the guest's memory but
for the part of the elements that has not been read. -/
structure Agree (c : Aiocb) (out out' : Outcome) : Prop where
  ret : out.ret = out'.ret
  file_eq : out.file = out'.file
  mem : ∀ a, (∀ i, place c.aioIov c.aioNbytes a = some i → (i : ℤ) < out.ret) →
    out.mem a = out'.mem a

lemma Completed.agree {out' : Outcome} (h : Completed c file guest out)
    (h' : Completed c file guest out') : Agree c out out' := by
  have hret : out.ret = out'.ret := h.ret.trans h'.ret.symm
  exact ⟨hret, h.file_eq.trans h'.file_eq.symm, fun a ha =>
    (h.mem a ha).trans (h'.mem a (hret ▸ ha)).symm⟩

/-- A request is handled in two ways, aligned or not, with `preadv` and `pwritev` or without them,
and with other results of the system calls. Each way returns, and either fails with the error of
its last call or completes the request, and if neither fails they agree. -/
theorem aioThread_agree (hsize : total c.aioIov = c.aioNbytes) (misaligned present present' : Bool)
    (heap heap' guest : Memory) (file : File) {results results' : List SysResult}
    (hresults : ∀ r ∈ results, r.Proper) (hresults' : ∀ r ∈ results', r.Proper)
    (henough : c.aioNbytes < results.countP SysResult.counts)
    (henough' : c.aioNbytes < results'.countP SysResult.counts) :
    ∃ o o', aioThread c present heap guest file results = some o ∧
      aioThread { c with misaligned := misaligned } present' heap' guest file results' = some o' ∧
      (Failed results o.1 ∨ Completed c file guest o.1) ∧
      (Failed results' o'.1 ∨ Completed c file guest o'.1) ∧
      (¬ Failed results o.1 → ¬ Failed results' o'.1 → Agree c o.1 o'.1) := by
  have hreturns {c : Aiocb} {heap : Memory} {results : List SysResult} (present : Bool)
      (h : c.aioNbytes < results.countP SysResult.counts) :
      ∃ o, aioThread c present heap guest file results = some o := by
    obtain ⟨first, present₁, hfirst⟩ := @handleAiocbRw_returns c file guest heap results h present
    unfold aioThread
    rw [hfirst, Option.bind_eq_bind, Option.bind_some]
    simp only
    split_ifs <;> exact ⟨_, rfl⟩
  obtain ⟨o, ho⟩ := @hreturns c heap results present henough
  obtain ⟨o', ho'⟩ := @hreturns { c with misaligned := misaligned } heap' results' present' henough'
  have hdone := aioThread_spec hresults hsize ho
  have hdone' : Failed results' o'.1 ∨ Completed c file guest o'.1 :=
    (@aioThread_spec { c with misaligned := misaligned } _ _ _ _ _ hresults' hsize _ _ ho').imp_right
      fun h => ⟨h.ret, h.file_eq, h.mem⟩
  exact ⟨o, o', ho, ho', hdone, hdone', fun hok hok' =>
    (hdone.resolve_left hok).agree (hdone'.resolve_left hok')⟩

/-- A read of two bytes into two elements. -/
def twoBytes (growable : Bool) : Aiocb where
  aioIov := [⟨0, 1⟩, ⟨4, 1⟩]
  aioNbytes := 2
  aioOffset := 0
  write := false
  misaligned := false
  growable := growable

/-- A file with one byte. -/
def oneByte : File where
  size := 1
  byte := fun a => if a = 0 then 5 else 0
  byte_eq_zero := fun _ ha => if_neg (by omega)

/-- A short read, after an interruption, and the same read through the bounce buffer. -/
theorem aioThread_agree_oneByte :
    ∃ o o', aioThread (twoBytes true) true (fun _ => 7) (fun _ => 9) oneByte
        [.error 4, .bytes 2, .bytes 2, .bytes 2] = some o ∧
      aioThread { twoBytes true with misaligned := true } false (fun _ => 8) (fun _ => 9) oneByte
        [.bytes 1, .bytes 1, .bytes 1] = some o' ∧
      (Failed [.error 4, .bytes 2, .bytes 2, .bytes 2] o.1 ∨
        Completed (twoBytes true) oneByte (fun _ => 9) o.1) ∧
      (Failed [.bytes 1, .bytes 1, .bytes 1] o'.1 ∨
        Completed (twoBytes true) oneByte (fun _ => 9) o'.1) ∧
      (¬ Failed [.error 4, .bytes 2, .bytes 2, .bytes 2] o.1 →
        ¬ Failed [.bytes 1, .bytes 1, .bytes 1] o'.1 → Agree (twoBytes true) o.1 o'.1) :=
  @aioThread_agree (twoBytes true) rfl true true false _ _ _ _ _ _ (by simp [SysResult.Proper])
    (by simp [SysResult.Proper]) (by decide) (by decide)

/-- A failed read leaves the elements alone or fills them from the bounce buffer, and a short read
of a file that cannot grow is not filled up. -/
theorem not_agree_of_error :
    (∃ o o', aioThread (twoBytes true) true (fun _ => 7) (fun _ => 9) oneByte [.error 5] = some o ∧
      aioThread (twoBytes true) false (fun _ => 7) (fun _ => 9) oneByte [.error 5] = some o' ∧
      o.1.mem 0 = 9 ∧ o'.1.mem 0 = 7) ∧
    ∃ o, aioThread (twoBytes false) false (fun _ => 7) (fun _ => 9) oneByte [.bytes 2, .bytes 2] =
      some o ∧ o.1.ret = 1 ∧ o.1.mem 4 = 7 :=
  ⟨⟨_, _, rfl, rfl, by decide, by decide⟩, _, rfl, by decide, by decide⟩

end Limbo.Aio
