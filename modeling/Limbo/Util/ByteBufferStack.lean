import Limbo.Lib.Bytes
import Limbo.Lib.Run

/-!
# `ByteBufferStack`

Regions of a buffer are reserved and released in turn. The slot of the current depth in `offsets` is
read as the start of a new region, and its end is written to the same slot, from where neither the
next reservation nor the release takes it. Thus a region that is reserved inside another one starts
where the other one starts, and a released region is not given back.
-/

namespace Limbo.Util

open Lib

/-! ### The class -/

/-- `new int[n]` and `new byte[n]` -/
def newArray {α : Type*} (n : ℤ) (zero : α) : Option (List α) :=
  if n < 0 then none else some (List.replicate n.toNat zero)

/-- `System.arraycopy(src, 0, dst, 0, n)` -/
def arraycopy {α : Type*} (src dst : List α) (n : ℤ) : Option (List α) :=
  if 0 ≤ n ∧ n ≤ src.length ∧ n ≤ dst.length then some (src.take n.toNat ++ dst.drop n.toNat)
  else none

/-- A `ByteBufferStack`. An exception is `none`. -/
structure ByteBufferStack where
  buffer : List UInt8
  offsets : List ℤ
  depth : ℕ
  maxDepth : ℤ
  maxSize : ℤ
deriving DecidableEq

namespace ByteBufferStack

/-- `new ByteBufferStack(maxDepth, maxSize)` -/
def new (maxDepth maxSize : Int32) : Option ByteBufferStack := do
  let offsets ← newArray maxDepth.toInt 0
  let buffer ← newArray maxSize.toInt 0
  return ⟨buffer, offsets, 0, maxDepth.toInt, maxSize.toInt⟩

/-- `getOffset()`. The slots of an array that is yet to grow are 0. -/
def getOffset (s : ByteBufferStack) : ℤ := s.offsets.getD s.depth 0

/-- The part of `reserve` that doubles `offsets`. -/
def growOffsets (s : ByteBufferStack) : Option ByteBufferStack :=
  if (s.depth : ℤ) = s.maxDepth then do
    let maxDepth := wrap32 (2 * s.maxDepth)
    let offsets ← arraycopy s.offsets (← newArray maxDepth 0) s.depth
    return { s with offsets, maxDepth }
  else some s

/-- The part of `reserve` that makes the buffer as long as `newSize`. -/
def growBuffer (s : ByteBufferStack) (result newSize : ℤ) : Option ByteBufferStack :=
  if newSize > s.maxSize then do
    let maxSize := max (wrap32 (2 * s.maxSize)) newSize
    let buffer ← arraycopy s.buffer (← newArray maxSize 0) result
    return { s with buffer, maxSize }
  else some s

/-- `reserve(count)` -/
def reserve (s : ByteBufferStack) (count : Int32) : Option (ℤ × ByteBufferStack) :=
  if count.toInt < 0 ∨ wrap32 (count.toInt + s.maxSize) < 0 then none
  else do
    let s ← s.growOffsets
    let result ← s.offsets[s.depth]?
    let newSize := wrap32 (result + count.toInt)
    let s := { s with
      offsets := s.offsets.set s.depth newSize
      depth := s.depth + 1 }
    return (result, ← s.growBuffer result newSize)

/-- `release()` -/
def release (s : ByteBufferStack) : Option ByteBufferStack :=
  if s.depth < 1 then none else some { s with depth := s.depth - 1 }

end ByteBufferStack

open ByteBufferStack

/-! ### What the calls are for -/

inductive Call
  | reserve (count : Int32)
  | release
deriving DecidableEq

/-- The depth and the offset. -/
def ByteBufferStack.mark (s : ByteBufferStack) : ℕ × ℤ := (s.depth, s.getOffset)

/-- A region that has been reserved, and what held before. -/
structure Reservation where
  offset : ℤ
  count : ℤ
  before : ℕ × ℤ
deriving DecidableEq

def Reservation.region (r : Reservation) : Set ℤ := Set.Ico r.offset (r.offset + r.count)

/-- A stack with its live regions, the last one first, and with what held before each region that has
been released and what holds after the release. -/
structure History where
  stack : ByteBufferStack
  live : List Reservation
  released : List ((ℕ × ℤ) × (ℕ × ℤ))
deriving DecidableEq

namespace History

def start (s : ByteBufferStack) : History := ⟨s, [], []⟩

/-- A call that does not throw an exception. -/
def step (h : History) : Call → Option History
  | .reserve count => do
    let (offset, stack) ← h.stack.reserve count
    return { h with stack, live := ⟨offset, count.toInt, h.stack.mark⟩ :: h.live }
  | .release =>
    match h.live with
    | [] => none
    | r :: live => do
      let stack ← h.stack.release
      return ⟨stack, live, (r.before, stack.mark) :: h.released⟩

/-- The live regions are apart and in the buffer, and each release has restored what held before. -/
structure Safe (h : History) : Prop where
  apart : h.live.Pairwise fun r r' => Disjoint r.region r'.region
  inBuffer : ∀ r ∈ h.live, 0 ≤ r.offset ∧ r.offset + r.count ≤ h.stack.buffer.length
  restored : ∀ p ∈ h.released, p.1 = p.2

end History

/-- A region of some size is reserved only if all live regions are empty, and it is not released. -/
def Alone : List ℤ → List Call → Prop
  | _, [] => True
  | live, .reserve count :: calls =>
    (count.toInt = 0 ∨ ∀ n ∈ live, n = 0) ∧ Alone (count.toInt :: live) calls
  | live, .release :: calls => live.head? = some 0 ∧ Alone live.tail calls

/-! ### The offsets -/

namespace History

/-- The region of each depth starts at 0, and its size is in the slot of the depth. -/
structure Flat (h : History) : Prop where
  depth : h.stack.depth = h.live.length
  maxDepth : h.stack.maxDepth = h.stack.offsets.length
  maxSize : h.stack.maxSize = h.stack.buffer.length
  maxSize_lt : h.stack.maxSize < 2147483648
  offsets : ∀ i, h.stack.offsets.getD i 0 = (h.live.map Reservation.count).reverse.getD i 0
  zero : ∀ r ∈ h.live, r.offset = 0 ∧ 0 ≤ r.count ∧ r.count ≤ h.stack.maxSize
  before : ∀ later r earlier, h.live = later ++ r :: earlier → r.before = (earlier.length, 0)

end History

lemma length_newArray {α : Type*} {n : ℤ} {zero : α} {xs : List α} (h : newArray n zero = some xs) :
    0 ≤ n ∧ xs = List.replicate n.toNat zero := by
  unfold newArray at h
  split_ifs at h with hn
  exact ⟨not_lt.mp hn, (Option.some.inj h).symm⟩

lemma arraycopy_eq {α : Type*} {src dst xs : List α} {n : ℤ} (h : arraycopy src dst n = some xs) :
    (0 ≤ n ∧ n ≤ src.length ∧ n ≤ dst.length) ∧ xs = src.take n.toNat ++ dst.drop n.toNat := by
  unfold arraycopy at h
  split_ifs at h with hn
  exact ⟨hn, (Option.some.inj h).symm⟩

lemma length_arraycopy {α : Type*} {src dst xs : List α} {n : ℤ}
    (h : arraycopy src dst n = some xs) : xs.length = dst.length := by
  obtain ⟨hn, rfl⟩ := arraycopy_eq h
  rw [List.length_append, List.length_take, List.length_drop]
  omega

/-- A longer array of offsets has the same slots. -/
lemma growOffsets_eq {s s' : ByteBufferStack} (hmax : s.maxDepth = s.offsets.length)
    (h : s.growOffsets = some s') :
    s'.depth = s.depth ∧ s'.maxDepth = s'.offsets.length ∧ s'.maxSize = s.maxSize ∧
      s'.buffer = s.buffer ∧ ∀ i, s'.offsets.getD i 0 = s.offsets.getD i 0 := by
  unfold growOffsets at h
  split_ifs at h with hfull
  · simp only [Option.bind_eq_bind, Option.pure_def, Option.bind_eq_some_iff,
      Option.some.injEq] at h
    obtain ⟨zeros, hzeros, offsets, hcopy, hs'⟩ := h
    obtain ⟨hpos, rfl⟩ := length_newArray hzeros
    have hlen := length_arraycopy hcopy
    obtain ⟨-, rfl⟩ := arraycopy_eq hcopy
    subst hs'
    refine ⟨rfl, ?_, rfl, rfl, fun i => ?_⟩
    · rw [List.length_replicate] at hlen
      have hcast := Int.toNat_of_nonneg hpos
      show wrap32 (2 * s.maxDepth) = ((_ : List ℤ).length : ℤ)
      rw [hlen, hcast]
    · have hdepth : s.depth = s.offsets.length := by omega
      simp only [Int.toNat_natCast, hdepth, List.take_length, List.getD_eq_getElem?_getD]
      by_cases hi : i < s.offsets.length
      · rw [List.getElem?_append_left hi]
      · rw [List.getElem?_append_right (not_lt.mp hi), List.getElem?_eq_none (not_lt.mp hi),
          List.drop_replicate, List.getElem?_replicate]
        split_ifs <;> rfl
  · obtain rfl := Option.some.inj h
    exact ⟨rfl, hmax, rfl, rfl, fun _ => rfl⟩

/-- The buffer reaches to the end of the new region. -/
lemma growBuffer_eq {s s' : ByteBufferStack} {result newSize : ℤ}
    (hmax : s.maxSize = s.buffer.length) (hlt : s.maxSize < 2147483648)
    (hnew : newSize < 2147483648) (h : s.growBuffer result newSize = some s') :
    s'.depth = s.depth ∧ s'.maxDepth = s.maxDepth ∧ s'.offsets = s.offsets ∧
      s'.maxSize = s'.buffer.length ∧ s'.maxSize < 2147483648 ∧ newSize ≤ s'.maxSize ∧
      s.maxSize ≤ s'.maxSize := by
  unfold growBuffer at h
  split_ifs at h with hlong
  · simp only [Option.bind_eq_bind, Option.pure_def, Option.bind_eq_some_iff,
      Option.some.injEq] at h
    obtain ⟨zeros, hzeros, buffer, hcopy, hs'⟩ := h
    obtain ⟨hpos, rfl⟩ := length_newArray hzeros
    have hlen := length_arraycopy hcopy
    rw [List.length_replicate] at hlen
    subst hs'
    have hwrap : wrap32 (2 * s.maxSize) < 2147483648 := by
      unfold wrap32
      omega
    refine ⟨rfl, rfl, rfl, ?_, max_lt hwrap hnew, le_max_right _ _, ?_⟩
    · show max _ newSize = (buffer.length : ℤ)
      rw [hlen]
      omega
    · exact hlong.le.trans (le_max_right _ _)
  · obtain rfl := Option.some.inj h
    exact ⟨rfl, rfl, rfl, hmax, hlt, not_lt.mp hlong, le_rfl⟩

lemma getD_reverse_cons (n : ℤ) (ys : List ℤ) (i : ℕ) :
    (n :: ys).reverse.getD i 0 = if i = ys.length then n else ys.reverse.getD i 0 := by
  simp only [List.getD_eq_getElem?_getD, List.reverse_cons]
  rw [List.getElem?_append, List.length_reverse]
  rcases lt_trichotomy i ys.length with hlow | rfl | hhigh
  · rw [if_pos hlow, if_neg hlow.ne]
  · simp
  · rw [if_neg hhigh.not_gt, if_neg hhigh.ne', List.getElem?_eq_none (by simp; omega),
      List.getElem?_eq_none (by simp; omega)]

lemma getD_set_reverse {xs ys : List ℤ} {n : ℤ} (h : ∀ i, xs.getD i 0 = ys.reverse.getD i 0)
    (hlt : ys.length < xs.length) (i : ℕ) :
    (xs.set ys.length n).getD i 0 = (n :: ys).reverse.getD i 0 := by
  rw [getD_reverse_cons, ← h, List.getD_eq_getElem?_getD, List.getElem?_set]
  by_cases hi : ys.length = i
  · simp [hi.symm, hlt]
  · simp [hi, Ne.symm hi]

namespace History

variable {h h' : History}

/-- A new region starts at 0. -/
lemma Flat.reserve (hflat : h.Flat) {count : Int32} (hstep : h.step (.reserve count) = some h') :
    h'.Flat ∧ h'.released = h.released ∧ h.stack.maxSize ≤ h'.stack.maxSize ∧
      h'.live = ⟨0, count.toInt, h.stack.mark⟩ :: h.live ∧ 0 ≤ count.toInt := by
  obtain ⟨hdepth, hmaxDepth, hmaxSize, hlt, hoffsets, hzero, hbefore⟩ := hflat
  simp only [step, Option.bind_eq_bind, Option.pure_def, Option.bind_eq_some_iff,
    Option.some.injEq] at hstep
  obtain ⟨⟨offset, stack⟩, hres, rfl⟩ := hstep
  unfold ByteBufferStack.reserve at hres
  split_ifs at hres with hbad
  simp only [Option.bind_eq_bind, Option.pure_def, Option.bind_eq_some_iff,
    Option.some.injEq, Prod.mk.injEq] at hres
  obtain ⟨s, hgrow, result, hresult, stack', hbuffer, rfl, rfl⟩ := hres
  obtain ⟨hdepth', hmaxDepth', hmaxSize', hbuf', hslots⟩ := growOffsets_eq hmaxDepth hgrow
  have hcount : 0 ≤ count.toInt := not_lt.mp fun hneg => hbad (.inl hneg)
  have hcountLt : count.toInt < 2147483648 := Int32.toInt_lt count
  have hslot : result = 0 := by
    have hget : s.offsets.getD s.depth 0 = result := by
      rw [List.getD_eq_getElem?_getD, hresult]
      rfl
    rw [← hget, hslots, hoffsets, hdepth', hdepth, List.getD_eq_getElem?_getD,
      List.getElem?_eq_none (by simp)]
    rfl
  subst hslot
  have hnew : wrap32 (0 + count.toInt) = count.toInt := by
    rw [zero_add]
    exact wrap32_of_range (by omega) hcountLt
  rw [hnew] at hbuffer
  obtain ⟨hdepth'', hmaxDepth'', hoffsets'', hmaxSize'', hlt'', hreach, hgrown⟩ :=
    @growBuffer_eq { s with offsets := s.offsets.set s.depth count.toInt, depth := s.depth + 1 }
      stack' 0 count.toInt (hmaxSize'.trans (hmaxSize.trans (by rw [hbuf'])))
      (hmaxSize'.trans_lt hlt) hcountLt hbuffer
  have hwithin : s.depth < s.offsets.length := (List.getElem?_eq_some_iff.mp hresult).1
  have hmono : h.stack.maxSize ≤ stack'.maxSize := hmaxSize'.symm.trans_le hgrown
  refine ⟨⟨?_, ?_, hmaxSize'', hlt'', fun i => ?_, ?_, ?_⟩, rfl, hmono, rfl, hcount⟩
  · rw [hdepth'']
    simp [hdepth', hdepth]
  · rw [hmaxDepth'', hoffsets'', List.length_set]
    exact hmaxDepth'
  · rw [hoffsets'', hdepth', hdepth, ← List.length_map Reservation.count]
    refine getD_set_reverse (fun i => (hslots i).trans (hoffsets i)) ?_ i
    rwa [List.length_map, ← hdepth, ← hdepth']
  · intro r hr
    rcases List.mem_cons.mp hr with rfl | hr
    · exact ⟨rfl, hcount, hreach⟩
    · obtain ⟨ho, hpos, hle⟩ := hzero r hr
      exact ⟨ho, hpos, hle.trans hmono⟩
  · intro later r earlier hsplit
    rcases List.cons_eq_append_iff.mp hsplit with ⟨rfl, hfirst⟩ | ⟨later, rfl, hsplit⟩
    · obtain ⟨rfl, rfl⟩ := List.cons.inj hfirst
      refine Prod.ext hdepth ?_
      show h.stack.offsets.getD h.stack.depth 0 = 0
      rw [hoffsets, hdepth, List.getD_eq_getElem?_getD, List.getElem?_eq_none (by simp)]
      rfl
    · exact hbefore later r earlier (List.cons.inj hsplit).2

/-- A release leaves the end of the region where its start was. -/
lemma Flat.release (hflat : h.Flat) (hstep : h.step .release = some h') :
    ∃ r, h.live = r :: h'.live ∧
      h'.released = ((h'.live.length, 0), (h'.live.length, r.count)) :: h.released ∧
      h'.stack.buffer = h.stack.buffer ∧ (r.count = 0 → h'.Flat) := by
  obtain ⟨hdepth, hmaxDepth, hmaxSize, hlt, hoffsets, hzero, hbefore⟩ := hflat
  unfold step at hstep
  cases hlive : h.live with
  | nil => simp [hlive] at hstep
  | cons r live =>
    rw [hlive] at hdepth hoffsets hzero hbefore
    simp only [hlive, ByteBufferStack.release, Option.bind_eq_bind, Option.pure_def,
      Option.bind_eq_some_iff, Option.some.injEq] at hstep
    obtain ⟨stack, hstack, rfl⟩ := hstep
    split_ifs at hstack
    obtain rfl := Option.some.inj hstack
    have hdepth' : h.stack.depth - 1 = live.length := by
      rw [hdepth, List.length_cons, Nat.add_sub_cancel]
    have hslot : h.stack.offsets.getD live.length 0 = r.count := by
      rw [hoffsets, List.map_cons, getD_reverse_cons, List.length_map, if_pos rfl]
    refine ⟨r, rfl, ?_, rfl, fun hcount => ?_⟩
    · have hr := hbefore [] r live rfl
      simp only [mark, getOffset, hdepth', hslot, hr]
    · refine ⟨hdepth', hmaxDepth, hmaxSize, hlt, fun i => ?_, fun s hs => hzero s (by simp [hs]),
        fun later s earlier hsplit =>
          hbefore (r :: later) s earlier (congrArg (r :: ·) hsplit)⟩
      show h.stack.offsets.getD i 0 = _
      rw [hoffsets, List.map_cons, getD_reverse_cons, List.length_map]
      split_ifs with hi
      · rw [hcount, hi, List.getD_eq_getElem?_getD, List.getElem?_eq_none (by simp)]
        rfl
      · rfl

/-! ### Safe runs -/

lemma Flat.start {maxDepth maxSize : Int32} {s : ByteBufferStack}
    (h : ByteBufferStack.new maxDepth maxSize = some s) : (History.start s).Flat := by
  simp only [ByteBufferStack.new, Option.bind_eq_bind, Option.pure_def, Option.bind_eq_some_iff,
    Option.some.injEq] at h
  obtain ⟨offsets, hoffsets, buffer, hbuffer, rfl⟩ := h
  obtain ⟨hdepth, rfl⟩ := length_newArray hoffsets
  obtain ⟨hsize, rfl⟩ := length_newArray hbuffer
  refine ⟨rfl, ?_, ?_, Int32.toInt_lt maxSize, fun i => ?_, by simp [History.start],
    by simp [History.start]⟩
  · exact (Int.toNat_of_nonneg hdepth).symm.trans (by simp [History.start])
  · exact (Int.toNat_of_nonneg hsize).symm.trans (by simp [History.start])
  · simp only [History.start, List.getD_eq_getElem?_getD, List.getElem?_replicate]
    split_ifs <;> rfl

/-- Two regions that start at 0 are apart just when one of them is empty. -/
lemma disjoint_region_iff {r r' : Reservation} (hr : r.offset = 0 ∧ 0 ≤ r.count)
    (hr' : r'.offset = 0 ∧ 0 ≤ r'.count) :
    Disjoint r.region r'.region ↔ r.count = 0 ∨ r'.count = 0 := by
  unfold Reservation.region
  rw [Set.Ico_disjoint_Ico, hr.1, hr'.1]
  omega

lemma Flat.inBuffer (hflat : h.Flat) :
    ∀ r ∈ h.live, 0 ≤ r.offset ∧ r.offset + r.count ≤ h.stack.buffer.length := by
  intro r hr
  obtain ⟨ho, -, hle⟩ := hflat.zero r hr
  rw [← hflat.maxSize, ho, zero_add]
  exact ⟨le_rfl, hle⟩

/-- A region may be reserved just when `Alone` allows it. -/
lemma Flat.safe_reserve (hflat : h.Flat) (hsafe : h.Safe) {count : Int32}
    (hstep : h.step (.reserve count) = some h') :
    h'.Safe ↔ count.toInt = 0 ∨ ∀ n ∈ h.live.map Reservation.count, n = 0 := by
  obtain ⟨hflat', hreleased, -, hlive, hcount⟩ := hflat.reserve hstep
  have hdisjoint : (∀ r ∈ h.live,
        Disjoint (Reservation.region ⟨0, count.toInt, h.stack.mark⟩) r.region) ↔
      count.toInt = 0 ∨ ∀ n ∈ h.live.map Reservation.count, n = 0 := by
    rw [List.forall_mem_map]
    have hone : ∀ r ∈ h.live, (Disjoint (Reservation.region ⟨0, count.toInt, h.stack.mark⟩) r.region ↔
        count.toInt = 0 ∨ r.count = 0) := fun r hr =>
      disjoint_region_iff ⟨rfl, hcount⟩ ⟨(hflat.zero r hr).1, (hflat.zero r hr).2.1⟩
    rw [forall₂_congr hone]
    by_cases hzero : count.toInt = 0 <;> simp [hzero]
  rw [← hdisjoint]
  constructor
  · intro h'
    have hapart := h'.apart
    rw [hlive] at hapart
    exact (List.pairwise_cons.mp hapart).1
  · intro hnew
    refine ⟨?_, hflat'.inBuffer, ?_⟩
    · rw [hlive]
      exact List.pairwise_cons.mpr ⟨hnew, hsafe.apart⟩
    · rw [hreleased]
      exact hsafe.restored

/-- A region may be released just when `Alone` allows it. -/
lemma Flat.safe_release (hflat : h.Flat) (hsafe : h.Safe) (hstep : h.step .release = some h') :
    h'.Safe ↔ (h.live.map Reservation.count).head? = some 0 := by
  obtain ⟨r, hlive, hreleased, hbuffer, -⟩ := hflat.release hstep
  rw [hlive, List.map_cons, List.head?_cons, Option.some.injEq]
  constructor
  · intro h'
    have hrestored := h'.restored
    rw [hreleased, List.forall_mem_cons] at hrestored
    exact (Prod.mk.inj hrestored.1).2.symm
  · intro hcount
    have hapart := hsafe.apart
    have hbounds := hsafe.inBuffer
    rw [hlive] at hapart hbounds
    refine ⟨(List.pairwise_cons.mp hapart).2, fun s hs => ?_, ?_⟩
    · rw [hbuffer]
      exact hbounds s (List.mem_cons_of_mem _ hs)
    · rw [hreleased, List.forall_mem_cons]
      exact ⟨by rw [hcount], hsafe.restored⟩

/-- Every state of a run is safe just when its calls are as `Alone` says. -/
lemma Flat.safe_iff_alone {calls : List Call} : ∀ {h : History}, h.Flat → h.Safe → ∀ {h' : History},
    run step h calls = some h' →
      ((∀ front k, front <+: calls → run step h front = some k → k.Safe) ↔
        Alone (h.live.map Reservation.count) calls) := by
  induction calls with
  | nil =>
    intro h _ hsafe h' _
    refine iff_of_true (fun front k hfront hrun => ?_) trivial
    obtain rfl := List.prefix_nil.mp hfront
    exact Option.some.inj hrun ▸ hsafe
  | cons c calls ih =>
    intro h hflat hsafe h' hrun
    obtain ⟨m, hm, hrest⟩ := run_cons.mp hrun
    have hfronts : (∀ front k, front <+: c :: calls → run step h front = some k → k.Safe) ↔
        m.Safe ∧ ∀ front k, front <+: calls → run step m front = some k → k.Safe := by
      constructor
      · intro hall
        refine ⟨hall [c] m (by simp) (run_of_step hm), fun front k hfront hk => ?_⟩
        exact hall (c :: front) k (List.cons_prefix_cons.mpr ⟨rfl, hfront⟩)
          ((run_of_step hm).trans hk)
      · rintro ⟨hmsafe, hall⟩ front k hfront hk
        cases front with
        | nil => exact Option.some.inj hk ▸ hsafe
        | cons c' front =>
          obtain ⟨rfl, hfront'⟩ := List.cons_prefix_cons.mp hfront
          rw [run_of_step hm] at hk
          exact hall front k hfront' hk
    rw [hfronts]
    cases c with
    | reserve count =>
      obtain ⟨hmflat, -, -, hlive, -⟩ := hflat.reserve hm
      rw [hflat.safe_reserve hsafe hm, Alone]
      refine and_congr_right fun hcount => ?_
      rw [ih hmflat ((hflat.safe_reserve hsafe hm).mpr hcount) hrest, hlive, List.map_cons]
    | release =>
      obtain ⟨r, hlive, -, -, hmflat⟩ := hflat.release hm
      rw [hflat.safe_release hsafe hm, Alone]
      refine and_congr_right fun hhead => ?_
      have hcount : r.count = 0 := by
        rw [hlive] at hhead
        exact Option.some.inj hhead
      rw [ih (hmflat hcount) ((hflat.safe_release hsafe hm).mpr hhead) hrest, hlive, List.map_cons,
        List.tail_cons]

end History

/-- Every state that some calls lead to is safe just when nothing is reserved beside a region of some
size, and such a region is not released. -/
theorem reserve_release_safe (maxDepth maxSize : Int32) (s : ByteBufferStack) (calls : List Call)
    (h : History) (hnew : ByteBufferStack.new maxDepth maxSize = some s)
    (hrun : run History.step (.start s) calls = some h) :
    (∀ front k, front <+: calls → run History.step (.start s) front = some k → k.Safe) ↔
      Alone [] calls :=
  (History.Flat.start hnew).safe_iff_alone ⟨by simp [History.start], by simp [History.start],
    by simp [History.start]⟩ hrun

/-- One region between two empty ones. -/
theorem reserve_release_safe_one :
    (∀ front k, front <+: [.reserve 0, .reserve 1, .reserve 0, .release] →
      run History.step (.start ⟨[0], [0], 0, 1, 1⟩) front = some k → k.Safe) ↔
      Alone [] [.reserve 0, .reserve 1, .reserve 0, .release] :=
  reserve_release_safe 1 1 ⟨[0], [0], 0, 1, 1⟩ [.reserve 0, .reserve 1, .reserve 0, .release]
    ⟨⟨[0], [0, 1, 0, 0], 2, 4, 1⟩, [⟨0, 1, (1, 0)⟩, ⟨0, 0, (0, 0)⟩], [((2, 0), (2, 0))]⟩
    (by decide +kernel) (by decide +kernel)

/-- Two regions of one byte are reserved, and both are the first byte. -/
theorem not_reserve_release_safe_two :
    ¬ ∀ (maxDepth maxSize : Int32) (s : ByteBufferStack) (calls : List Call) (h : History),
      ByteBufferStack.new maxDepth maxSize = some s →
      run History.step (.start s) calls = some h → h.Safe := by
  intro hall
  have hsafe := hall 2 2 ⟨[0, 0], [0, 0], 0, 2, 2⟩ [.reserve 1, .reserve 1]
    ⟨⟨[0, 0], [1, 1], 2, 2, 2⟩, [⟨0, 1, (1, 0)⟩, ⟨0, 1, (0, 0)⟩], []⟩ (by decide +kernel)
    (by decide +kernel)
  have hapart := List.rel_of_pairwise_cons hsafe.apart (List.mem_singleton.mpr rfl)
  have hfirst (before : ℕ × ℤ) : 0 ∈ Reservation.region ⟨0, 1, before⟩ := by
    simp [Reservation.region]
  exact Set.disjoint_left.mp hapart (hfirst _) (hfirst _)

end Limbo.Util
