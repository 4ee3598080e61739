import Limbo.Lib.Bytes
import Limbo.Snapshot.QemuFile

/-!
# The buffered file, read

`QEMUFile` as it is used for reading. The buffer holds the bytes last fetched from the back end,
which may answer with fewer bytes than it was asked for; what has not been consumed moves to the
front when more are fetched. A call that needs bytes fetches once, except for `qemu_get_buffer`,
which goes on until it has them all or there are none left.
-/

namespace Limbo.Snapshot

open Lib

/-- `QEMUFile`, opened for reading: `buf` is the part of the buffer in front of `buf_size`. -/
structure QEMUFileIn where
  buf : List UInt8
  bufIndex : ℕ
  bufOffset : ℕ
  lastError : ℤ
  index_le : bufIndex ≤ buf.length
  size_le : buf.length ≤ ioBufSize

/-- The content of a back end, and how many bytes it is ready to give: the call with this number,
for so many bytes from this position on. -/
structure BackEnd where
  content : List UInt8
  ready : ℕ → ℕ → ℕ → ℕ

/-- `get_buffer`: at least one byte if there are any, and never more than asked for. -/
def BackEnd.getBuffer (b : BackEnd) (call pos size : ℕ) : List UInt8 :=
  ((b.content.drop pos).take size).take (max 1 (b.ready call pos size))

/-- A file and the number of calls of its back end. -/
structure Reading where
  file : QEMUFileIn
  calls : ℕ

/-- A file that has just been opened. -/
def Reading.init : Reading := ⟨⟨[], 0, 0, 0, le_rfl, by decide⟩, 0⟩

/-- The sum of two `int`s, if it is one. -/
def addInt (a b : ℕ) : Option ℕ := if a + b < 2147483648 then some (a + b) else none

/-! ### The calls -/

variable (b : BackEnd)

/-- The bytes in the buffer that have not been consumed. -/
def Reading.pending (r : Reading) : List UInt8 := r.file.buf.drop r.file.bufIndex

/-- What the back end is asked to add to them, and gives. -/
def Reading.fetched (r : Reading) : List UInt8 :=
  b.getBuffer r.calls r.file.bufOffset (ioBufSize - r.pending.length)

lemma Reading.length_pending_le (r : Reading) : r.pending.length ≤ ioBufSize := by
  have hsize := r.file.size_le
  rw [pending, List.length_drop]
  omega

lemma Reading.length_fetched_le (r : Reading) :
    (r.fetched b).length ≤ ioBufSize - r.pending.length := by
  rw [fetched, BackEnd.getBuffer, List.length_take, List.length_take]
  omega

/-- `qemu_fill_buffer`. -/
def qemuFillBuffer (r : Reading) : Reading where
  file :=
    { buf := r.pending ++ r.fetched b
      bufIndex := 0
      bufOffset := r.file.bufOffset + (r.fetched b).length
      lastError := if r.fetched b = [] then -5 else r.file.lastError
      index_le := Nat.zero_le _
      size_le := by
        have hpending := r.length_pending_le
        have hfetched := r.length_fetched_le b
        rw [List.length_append]
        omega }
  calls := r.calls + 1

/-- `qemu_file_skip`. -/
def qemuFileSkip (size : ℕ) (r : Reading) : Option Reading := do
  let index ← addInt r.file.bufIndex size
  if h : index ≤ r.file.buf.length then
    return { r with file := { r.file with bufIndex := index, index_le := h } }
  else return r

/-- `qemu_peek_buffer`: the bytes that are in the buffer, of those asked for. -/
def qemuPeekBuffer (size offset : ℕ) (r : Reading) : Option (List UInt8 × Reading) := do
  let index ← addInt r.file.bufIndex offset
  if r.file.buf.length < index + size then
    let r := qemuFillBuffer b r
    let index ← addInt r.file.bufIndex offset
    return ((r.file.buf.drop index).take size, r)
  else return ((r.file.buf.drop index).take size, r)

/-- `qemu_get_buffer`. -/
def qemuGetBuffer (size : ℕ) (r : Reading) : Option (List UInt8 × Reading) :=
  if size = 0 then some ([], r)
  else
    match qemuPeekBuffer b size 0 r with
    | none => none
    | some (res, r) =>
      if res = [] then some ([], r)
      else
        match qemuFileSkip res.length r with
        | none => none
        | some r => (qemuGetBuffer (size - res.length) r).map fun (rest, r) => (res ++ rest, r)
termination_by size
decreasing_by
  have hpos : 0 < res.length := List.length_pos_iff.mpr ‹_›
  omega

/-- `qemu_peek_byte`. -/
def qemuPeekByte (offset : ℕ) (r : Reading) : Option (UInt8 × Reading) := do
  let index ← addInt r.file.bufIndex offset
  if r.file.buf.length ≤ index then
    let r := qemuFillBuffer b r
    let index ← addInt r.file.bufIndex offset
    return (r.file.buf[index]?.getD 0, r)
  else return (r.file.buf[index]?.getD 0, r)

/-- `qemu_get_byte`. -/
def qemuGetByte (r : Reading) : Option (UInt8 × Reading) := do
  let (result, r) ← qemuPeekByte b 0 r
  let r ← qemuFileSkip 1 r
  return (result, r)

/-- `qemu_get_be16`. -/
def qemuGetBe16 (r : Reading) : Option (UInt32 × Reading) := do
  let (hi, r) ← qemuGetByte b r
  let (lo, r) ← qemuGetByte b r
  return (hi.toUInt32 <<< 8 ||| lo.toUInt32, r)

/-- `qemu_get_be32`. -/
def qemuGetBe32 (r : Reading) : Option (UInt32 × Reading) := do
  let (b3, r) ← qemuGetByte b r
  let (b2, r) ← qemuGetByte b r
  let (b1, r) ← qemuGetByte b r
  let (b0, r) ← qemuGetByte b r
  return (b3.toUInt32 <<< 24 ||| b2.toUInt32 <<< 16 ||| b1.toUInt32 <<< 8 ||| b0.toUInt32, r)

/-- `qemu_get_be64`. -/
def qemuGetBe64 (r : Reading) : Option (UInt64 × Reading) := do
  let (hi, r) ← qemuGetBe32 b r
  let (lo, r) ← qemuGetBe32 b r
  return (hi.toUInt64 <<< 32 ||| lo.toUInt64, r)

/-- `qemu_ftell`. -/
def QEMUFileIn.ftell (f : QEMUFileIn) : ℤ := f.bufOffset - f.buf.length + f.bufIndex

/-! ### What a file has consumed and fetched -/

variable {b} {p : ℕ} {r : Reading}

/-- `p` bytes of the content have been consumed, and those that have been fetched and not consumed
are pending. -/
structure Reading.Holds (b : BackEnd) (p : ℕ) (r : Reading) : Prop where
  pending : r.pending = (b.content.take r.file.bufOffset).drop p
  consumed_le : p ≤ r.file.bufOffset
  fetched_le : r.file.bufOffset ≤ b.content.length

lemma holds_init : Reading.init.Holds b 0 := ⟨rfl, le_rfl, Nat.zero_le _⟩

lemma Reading.Holds.length_pending (h : r.Holds b p) : r.pending.length = r.file.bufOffset - p := by
  have hlen := h.fetched_le
  rw [h.pending, List.length_drop, List.length_take, Nat.min_eq_left hlen]

/-- `qemu_ftell` is the number of bytes that have been consumed. -/
lemma Reading.Holds.ftell (h : r.Holds b p) : r.file.ftell = p := by
  have hlen := h.length_pending
  have hle := h.consumed_le
  have hindex := r.file.index_le
  rw [Reading.pending, List.length_drop] at hlen
  rw [QEMUFileIn.ftell]
  omega

/-- What is in the buffer behind the bytes consumed. -/
lemma Reading.Holds.drop_buf (h : r.Holds b p) (n : ℕ) :
    r.file.buf.drop (r.file.bufIndex + n) = (b.content.take r.file.bufOffset).drop (p + n) := by
  rw [← List.drop_drop, ← List.drop_drop, ← h.pending]
  rfl

lemma Reading.Holds.length_buf (h : r.Holds b p) :
    r.file.buf.length - r.file.bufIndex = r.file.bufOffset - p := by
  rw [← List.length_drop]
  exact h.length_pending

/-- The calls between two states fetch nothing if the next `n` bytes have been fetched, and
otherwise at least one byte, if there are any and the buffer has room. -/
def Refills (b : BackEnd) (p n : ℕ) (r r' : Reading) : Prop :=
  if p + n ≤ r.file.bufOffset then r'.file.bufOffset = r.file.bufOffset
  else r.file.bufOffset ≤ r'.file.bufOffset ∧
    (r.file.bufOffset < b.content.length → r.file.bufOffset < p + ioBufSize →
      r.file.bufOffset < r'.file.bufOffset)

lemma Refills.le {n : ℕ} {r' : Reading} (h : Refills b p n r r') :
    r.file.bufOffset ≤ r'.file.bufOffset := by
  rw [Refills] at h
  split_ifs at h with hfits
  · exact h.ge
  · exact h.1

lemma Reading.fetched_eq (r : Reading) : r.fetched b =
    (b.content.drop r.file.bufOffset).take (r.fetched b).length :=
  List.prefix_iff_eq_take.mp ((List.take_prefix _ _).trans (List.take_prefix _ _))

lemma Reading.Holds.qemuFillBuffer (h : r.Holds b p) : (qemuFillBuffer b r).Holds b p where
  pending := by
    show (r.pending ++ r.fetched b).drop 0 =
      (b.content.take (r.file.bufOffset + (r.fetched b).length)).drop p
    have hle : p ≤ (b.content.take r.file.bufOffset).length := by
      have := h.fetched_le
      rw [List.length_take, Nat.min_eq_left this]
      exact h.consumed_le
    rw [List.drop_zero, List.take_add, List.drop_append_of_le_length hle, ← h.pending,
      ← r.fetched_eq]
  consumed_le := h.consumed_le.trans (Nat.le_add_right _ _)
  fetched_le := by
    show r.file.bufOffset + (r.fetched b).length ≤ _
    have hfetched := congrArg List.length (r.fetched_eq (b := b))
    have hle := h.fetched_le
    rw [List.length_take, List.length_drop] at hfetched
    omega

/-- A fetch gets at least one byte, if there are any and the buffer has room. -/
lemma Reading.Holds.lt_qemuFillBuffer (h : r.Holds b p)
    (hmore : r.file.bufOffset < b.content.length) (hroom : r.file.bufOffset < p + ioBufSize) :
    r.file.bufOffset < (Snapshot.qemuFillBuffer b r).file.bufOffset := by
  show r.file.bufOffset < r.file.bufOffset + (r.fetched b).length
  have hpending := h.length_pending
  have hle := h.consumed_le
  have hpos : 0 < ioBufSize - r.pending.length := by omega
  rw [fetched, BackEnd.getBuffer, List.length_take, List.length_take, List.length_drop]
  omega

lemma addInt_of_lt {m n : ℕ} (h : m + n < 2147483648) : addInt m n = some (m + n) := if_pos h

/-- A size or an offset for which no sum with an index of the buffer leaves the range of `int`. -/
def FitsInt (n : ℕ) : Prop := n + ioBufSize < 2147483648

instance (n : ℕ) : Decidable (FitsInt n) := inferInstanceAs (Decidable (_ < _))

lemma Reading.addInt_bufIndex {n : ℕ} (hn : FitsInt n) (r : Reading) :
    addInt r.file.bufIndex n = some (r.file.bufIndex + n) := by
  have hindex := r.file.index_le
  have hsize := r.file.size_le
  rw [FitsInt] at hn
  exact addInt_of_lt (by omega)

/-! ### What the calls come to -/

/-- A skip consumes its bytes if they have been fetched, and nothing otherwise. -/
lemma Reading.Holds.qemuFileSkip (h : r.Holds b p) {n : ℕ} (hn : FitsInt n) :
    ∃ r', qemuFileSkip n r = some r' ∧
      r'.Holds b (if p + n ≤ r.file.bufOffset then p + n else p) ∧
      r'.file.bufOffset = r.file.bufOffset := by
  have hbuf := h.length_buf
  have hindex := r.file.index_le
  have hle := h.consumed_le
  rw [Snapshot.qemuFileSkip, r.addInt_bufIndex hn, Option.bind_eq_bind, Option.bind_some]
  by_cases hfits : r.file.bufIndex + n ≤ r.file.buf.length
  · rw [dif_pos hfits, if_pos (by omega)]
    exact ⟨_, rfl, ⟨h.drop_buf n, by show p + n ≤ r.file.bufOffset; omega, h.fetched_le⟩, rfl⟩
  · rw [dif_neg hfits, if_neg (by omega)]
    exact ⟨r, rfl, h, rfl⟩

/-- A peek gives the bytes at its offset that have been fetched, after one more fetch if some have
not. -/
lemma Reading.Holds.qemuPeekBuffer (h : r.Holds b p) (n : ℕ) {offset : ℕ} (ho : FitsInt offset) :
    ∃ r', qemuPeekBuffer b n offset r =
        some (((b.content.take r'.file.bufOffset).drop (p + offset)).take n, r') ∧
      r'.Holds b p ∧ Refills b p (offset + n) r r' := by
  have hbuf := h.length_buf
  have hindex := r.file.index_le
  have hle := h.consumed_le
  rw [Snapshot.qemuPeekBuffer, r.addInt_bufIndex ho, Option.bind_eq_bind, Option.bind_some]
  by_cases hfew : r.file.buf.length < r.file.bufIndex + offset + n
  · rw [if_pos hfew]
    have hfill := h.qemuFillBuffer
    refine ⟨Snapshot.qemuFillBuffer b r, ?_, hfill, ?_⟩
    · simp only [(Snapshot.qemuFillBuffer b r).addInt_bufIndex ho, Option.bind_some,
        hfill.drop_buf]
      rfl
    · rw [Refills, if_neg (by omega)]
      exact ⟨Nat.le_add_right _ _, h.lt_qemuFillBuffer⟩
  · rw [if_neg hfew]
    refine ⟨r, by rw [h.drop_buf]; rfl, h, ?_⟩
    rw [Refills, if_pos (by omega)]

/-- A peeked byte is the one at its offset if it has been fetched, after one more fetch if it had
not, and `0` otherwise. -/
lemma Reading.Holds.qemuPeekByte (h : r.Holds b p) {offset : ℕ} (ho : FitsInt offset) :
    ∃ r', qemuPeekByte b offset r =
        some ((b.content.take r'.file.bufOffset)[p + offset]?.getD 0, r') ∧
      r'.Holds b p ∧ Refills b p (offset + 1) r r' := by
  have hbuf := h.length_buf
  have hindex := r.file.index_le
  have hle := h.consumed_le
  -- a byte of the buffer as the first one behind an index
  have hbyte {r : Reading} (h : r.Holds b p) : r.file.buf[r.file.bufIndex + offset]? =
      (b.content.take r.file.bufOffset)[p + offset]? := by
    rw [← List.head?_drop, h.drop_buf, List.head?_drop]
  rw [Snapshot.qemuPeekByte, r.addInt_bufIndex ho, Option.bind_eq_bind, Option.bind_some]
  by_cases hfew : r.file.buf.length ≤ r.file.bufIndex + offset
  · rw [if_pos hfew]
    have hfill := h.qemuFillBuffer
    refine ⟨Snapshot.qemuFillBuffer b r, ?_, hfill, ?_⟩
    · simp only [(Snapshot.qemuFillBuffer b r).addInt_bufIndex ho, Option.bind_some, hbyte hfill]
      rfl
    · rw [Refills, if_neg (by omega)]
      exact ⟨Nat.le_add_right _ _, h.lt_qemuFillBuffer⟩
  · rw [if_neg hfew]
    refine ⟨r, by rw [hbyte h]; rfl, h, ?_⟩
    rw [Refills, if_pos (by omega)]

/-- One more byte has been fetched when the next one is needed, if there is one. -/
lemma Refills.lt {n : ℕ} {r' : Reading} (h : Refills b p n r r') (hr : r.Holds b p) (hn : 0 < n)
    (hp : p < b.content.length) : p < r'.file.bufOffset := by
  have hle := hr.consumed_le
  have hsize : 0 < ioBufSize := by decide
  rw [Refills] at h
  split_ifs at h with hfits
  · omega
  · by_cases hall : r.file.bufOffset = p
    · exact (hall ▸ h.2 (by omega) (by omega))
    · omega

/-- `qemu_get_byte` consumes the next byte, and gives `0` at the end. -/
lemma Reading.Holds.qemuGetByte (h : r.Holds b p) :
    ∃ r', qemuGetByte b r = some (b.content[p]?.getD 0, r') ∧
      r'.Holds b (min (p + 1) b.content.length) ∧ r.file.bufOffset ≤ r'.file.bufOffset := by
  obtain ⟨r₁, hpeek, h₁, hrefills⟩ := h.qemuPeekByte (by decide : FitsInt 0)
  obtain ⟨r₂, hskip, h₂, hoffset⟩ := h₁.qemuFileSkip (n := 1) (by decide)
  have hle := h₁.consumed_le
  have hfetched := h₁.fetched_le
  rw [Snapshot.qemuGetByte, hpeek, Option.bind_eq_bind, Option.bind_some]
  refine ⟨r₂, ?_, ?_, hoffset ▸ hrefills.le⟩
  · simp only [hskip, Option.bind_eq_bind, Option.bind_some, Nat.add_zero]
    by_cases hp : p < b.content.length
    · rw [List.getElem?_take_of_lt (hrefills.lt h Nat.one_pos hp)]
      rfl
    · rw [List.getElem?_eq_none (by rw [List.length_take]; omega),
        List.getElem?_eq_none (by omega)]
      rfl
  · by_cases hp : p < b.content.length
    · have hlt := hrefills.lt h Nat.one_pos hp
      rw [if_pos (by omega)] at h₂
      rwa [Nat.min_eq_left hp]
    · rw [if_neg (by omega)] at h₂
      rwa [Nat.min_eq_right (by omega), Nat.le_antisymm (by omega) (hle.trans hfetched)]

/-- `qemu_get_buffer` consumes the next bytes, as many as there are. -/
lemma Reading.Holds.qemuGetBuffer (h : r.Holds b p) (size : ℕ) :
    ∃ r', qemuGetBuffer b size r = some ((b.content.drop p).take size, r') ∧
      r'.Holds b (min (p + size) b.content.length) ∧
      r.file.bufOffset ≤ r'.file.bufOffset := by
  induction hn : size using Nat.strong_induction_on generalizing size p r with
  | _ n ih =>
    subst hn
    have hle := h.consumed_le
    have hlength := h.fetched_le
    rw [Snapshot.qemuGetBuffer]
    by_cases hzero : size = 0
    · rw [if_pos hzero, hzero, List.take_zero, Nat.add_zero, Nat.min_eq_left (hle.trans hlength)]
      exact ⟨r, rfl, h, le_rfl⟩
    · obtain ⟨r₁, hpeek, h₁, hrefills⟩ := h.qemuPeekBuffer size (by decide : FitsInt 0)
      rw [if_neg hzero, hpeek]
      have hle₁ := h₁.consumed_le
      have hlength₁ := h₁.fetched_le
      generalize hres : ((b.content.take r₁.file.bufOffset).drop (p + 0)).take size = res
      have hresult : res = (b.content.drop p).take (min size (r₁.file.bufOffset - p)) := by
        rw [← hres, Nat.add_zero, List.drop_take, List.take_take]
      have hlen : res.length = min size (r₁.file.bufOffset - p) := by
        rw [hresult, List.length_take, List.length_drop]
        omega
      by_cases hend : p < b.content.length
      · -- the peek gives something, and the rest comes with the next turns
        have hlt := hrefills.lt h (by omega) hend
        have hne : res ≠ [] := List.length_pos_iff.mp (by omega)
        have hbuffer := h₁.length_pending
        have hroom := r₁.length_pending_le
        have hfits : FitsInt res.length := by
          rw [FitsInt, ioBufSize] at *
          omega
        obtain ⟨r₂, hskip, h₂, hoffset⟩ := h₁.qemuFileSkip hfits
        rw [if_pos (by omega)] at h₂
        obtain ⟨r₃, hrest, h₃, hle₃⟩ := ih (size - res.length) (by omega) h₂ _ rfl
        refine ⟨r₃, ?_, ?_, hrefills.le.trans (hoffset ▸ hle₃)⟩
        · simp only [if_neg hne, hskip, hrest, Option.map_some]
          rw [← List.drop_drop, hlen, hresult, ← List.take_add,
            Nat.add_sub_of_le (Nat.min_le_left _ _)]
        · rwa [show p + res.length + (size - res.length) = p + size by omega] at h₃
      · have hnil : res = [] := List.length_eq_zero_iff.mp (by omega)
        refine ⟨r₁, ?_, ?_, hrefills.le⟩
        · simp only [if_pos hnil]
          rw [List.drop_eq_nil_of_le (by omega), List.take_nil]
        · rwa [Nat.min_eq_right (by omega), Nat.le_antisymm (by omega) (hle₁.trans hlength₁)]

/-! ### Numbers -/

/-- The byte at a position, `0` behind the end. -/
def byteAt (content : List UInt8) (i : ℕ) : UInt8 := content[i]?.getD 0

/-- The number in the `k` bytes from a position on. -/
def beAt (content : List UInt8) (p k : ℕ) : ℕ :=
  beNat ((List.range k).map fun i => byteAt content (p + i))

/-- A file that has consumed up to `k` bytes of a number consumes the next one, which behind the end
is a `0` like the one at the end. -/
lemma Reading.Holds.nextByte {k : ℕ} (h : r.Holds b (min (p + k) b.content.length)) :
    ∃ r', Snapshot.qemuGetByte b r = some (byteAt b.content (p + k), r') ∧
      r'.Holds b (min (p + (k + 1)) b.content.length) ∧
      r.file.bufOffset ≤ r'.file.bufOffset := by
  obtain ⟨r', hget, h', hle⟩ := h.qemuGetByte
  refine ⟨r', hget.trans ?_, ?_, hle⟩
  · rcases Nat.le_total (p + k) b.content.length with hk | hk
    · rw [Nat.min_eq_left hk, byteAt]
    · rw [Nat.min_eq_right hk, byteAt, List.getElem?_eq_none le_rfl, List.getElem?_eq_none hk]
  · rwa [show min (min (p + k) b.content.length + 1) b.content.length =
      min (p + (k + 1)) b.content.length by omega] at h'

lemma Reading.Holds.first (h : r.Holds b p) : r.Holds b (min (p + 0) b.content.length) := by
  rwa [Nat.add_zero, Nat.min_eq_left (h.consumed_le.trans h.fetched_le)]

lemma toNat_be16 (hi lo : UInt8) :
    (hi.toUInt32 <<< 8 ||| lo.toUInt32).toNat = beNat [hi, lo] := by
  have h1 := hi.toNat_lt
  have h0 := lo.toNat_lt
  have e1 : (hi.toUInt32 <<< 8).toNat = hi.toNat * 2 ^ 8 := toNat_shiftLeft_byte hi (by decide)
  have h10 := or_eq_add (i := 8) (n := hi.toNat * 2 ^ 8) (m := lo.toNat) (by omega) (by omega)
  rw [UInt32.toNat_or, e1, UInt8.toNat_toUInt32, h10]
  simp only [beNat, List.foldl_cons, List.foldl_nil]
  omega

lemma toNat_be32 (b3 b2 b1 b0 : UInt8) :
    (b3.toUInt32 <<< 24 ||| b2.toUInt32 <<< 16 ||| b1.toUInt32 <<< 8 ||| b0.toUInt32).toNat =
      beNat [b3, b2, b1, b0] := by
  have h3 := b3.toNat_lt
  have h2 := b2.toNat_lt
  have h1 := b1.toNat_lt
  have h0 := b0.toNat_lt
  have e3 : (b3.toUInt32 <<< 24).toNat = b3.toNat * 2 ^ 24 := toNat_shiftLeft_byte b3 (by decide)
  have e2 : (b2.toUInt32 <<< 16).toNat = b2.toNat * 2 ^ 16 := toNat_shiftLeft_byte b2 (by decide)
  have e1 : (b1.toUInt32 <<< 8).toNat = b1.toNat * 2 ^ 8 := toNat_shiftLeft_byte b1 (by decide)
  have h32 := or_eq_add (i := 24) (n := b3.toNat * 2 ^ 24) (m := b2.toNat * 2 ^ 16)
    (by omega) (by omega)
  have h21 := or_eq_add (i := 16) (n := b3.toNat * 2 ^ 24 + b2.toNat * 2 ^ 16)
    (m := b1.toNat * 2 ^ 8) (by omega) (by omega)
  have h10 := or_eq_add (i := 8)
    (n := b3.toNat * 2 ^ 24 + b2.toNat * 2 ^ 16 + b1.toNat * 2 ^ 8) (m := b0.toNat)
    (by omega) (by omega)
  rw [UInt32.toNat_or, UInt32.toNat_or, UInt32.toNat_or, e3, e2, e1, UInt8.toNat_toUInt32, h32,
    h21, h10]
  simp only [beNat, List.foldl_cons, List.foldl_nil]
  omega

lemma toNat_be64 (hi lo : UInt32) :
    (hi.toUInt64 <<< 32 ||| lo.toUInt64).toNat = 2 ^ 32 * hi.toNat + lo.toNat := by
  have hh := hi.toNat_lt
  have hl := lo.toNat_lt
  have e : (hi.toUInt64 <<< 32).toNat = hi.toNat * 2 ^ 32 := by
    rw [UInt64.toNat_shiftLeft, UInt32.toNat_toUInt64]
    change hi.toNat <<< 32 % 2 ^ 64 = _
    rw [Nat.shiftLeft_eq, Nat.mod_eq_of_lt (by omega)]
  rw [UInt64.toNat_or, e, UInt32.toNat_toUInt64, or_eq_add (i := 32) (by omega) hl, mul_comm]

/-- `qemu_get_be16` consumes the next two bytes. -/
lemma Reading.Holds.qemuGetBe16 (h : r.Holds b p) :
    ∃ v r', qemuGetBe16 b r = some (v, r') ∧ v.toNat = beAt b.content p 2 ∧
      r'.Holds b (min (p + 2) b.content.length) ∧ r.file.bufOffset ≤ r'.file.bufOffset := by
  obtain ⟨r₁, hget₁, h₁, hle₁⟩ := h.first.nextByte
  obtain ⟨r₂, hget₂, h₂, hle₂⟩ := h₁.nextByte
  have hv := toNat_be16 (byteAt b.content (p + 0)) (byteAt b.content (p + 1))
  refine ⟨_, r₂, ?_, hv, h₂, hle₁.trans hle₂⟩
  simp only [Snapshot.qemuGetBe16, hget₁, hget₂, Option.bind_eq_bind, Option.bind_some]
  rfl

/-- `qemu_get_be32` consumes the next four bytes. -/
lemma Reading.Holds.qemuGetBe32 {k : ℕ} (h : r.Holds b (min (p + k) b.content.length)) :
    ∃ v r', qemuGetBe32 b r = some (v, r') ∧ v.toNat = beAt b.content (p + k) 4 ∧
      r'.Holds b (min (p + (k + 4)) b.content.length) ∧
      r.file.bufOffset ≤ r'.file.bufOffset := by
  obtain ⟨r₁, hget₁, h₁, hle₁⟩ := h.nextByte
  obtain ⟨r₂, hget₂, h₂, hle₂⟩ := h₁.nextByte
  obtain ⟨r₃, hget₃, h₃, hle₃⟩ := h₂.nextByte
  obtain ⟨r₄, hget₄, h₄, hle₄⟩ := h₃.nextByte
  have hv := toNat_be32 (byteAt b.content (p + k)) (byteAt b.content (p + (k + 1)))
    (byteAt b.content (p + (k + 1 + 1))) (byteAt b.content (p + (k + 1 + 1 + 1)))
  refine ⟨_, r₄, ?_, hv, h₄, hle₁.trans (hle₂.trans (hle₃.trans hle₄))⟩
  simp only [Snapshot.qemuGetBe32, hget₁, hget₂, hget₃, hget₄, Option.bind_eq_bind,
    Option.bind_some]
  rfl

lemma beAt_eight (content : List UInt8) (p : ℕ) :
    beAt content p 8 = 2 ^ 32 * beAt content p 4 + beAt content (p + 4) 4 := by
  simp only [beAt, beNat, List.range, List.range.loop, List.map_cons, List.map_nil,
    List.foldl_cons, List.foldl_nil, Nat.add_assoc, Nat.reduceAdd]
  omega

/-- `qemu_get_be64` consumes the next eight bytes. -/
lemma Reading.Holds.qemuGetBe64 (h : r.Holds b p) :
    ∃ v r', qemuGetBe64 b r = some (v, r') ∧ v.toNat = beAt b.content p 8 ∧
      r'.Holds b (min (p + 8) b.content.length) ∧ r.file.bufOffset ≤ r'.file.bufOffset := by
  obtain ⟨hi, r₁, hget₁, hhi, h₁, hle₁⟩ := h.first.qemuGetBe32
  obtain ⟨lo, r₂, hget₂, hlo, h₂, hle₂⟩ := h₁.qemuGetBe32
  refine ⟨_, r₂, ?_, (toNat_be64 hi lo).trans ?_, h₂, hle₁.trans hle₂⟩
  · simp only [Snapshot.qemuGetBe64, hget₁, hget₂, Option.bind_eq_bind, Option.bind_some]
    rfl
  · rw [hhi, hlo]
    exact (beAt_eight b.content p).symm

end Limbo.Snapshot
