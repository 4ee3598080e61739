import Limbo.Lib.Bytes

/-!
# Keys as bytes

The keys of the MS-Logon handshake are numbers of 64 bits, sent as eight bytes. `longToBytes` writes
the bytes of a number. `bytesToLong` adds each byte with its sign, so that a byte from 128 on takes
one from what has been read before it.
-/

namespace Limbo.Vnc.DH

open Lib

def longToBytes (number : Int64) : Vector UInt8 8 :=
  Vector.ofFn fun i => (0xff &&& (number >>> Int64.ofNat (8 * (7 - i)))).toInt8.toUInt8

def bytesToLong (bytes : Vector UInt8 8) : Int64 :=
  bytes.toList.foldl (fun result b => (result <<< 8) + b.toInt8.toInt64) 0

/-! ### The number of some bytes -/

/-- The number without its sign. -/
def unsigned (v : Int64) : ℕ := v.toBitVec.toNat

lemma unsigned_lt (v : Int64) : unsigned v < 256 ^ 8 := v.toBitVec.isLt

lemma unsigned_inj {v v' : Int64} : unsigned v = unsigned v' ↔ v = v' := by
  rw [unsigned, unsigned, BitVec.toNat_inj, Int64.toBitVec_inj]

lemma toInt_modEq (v : Int64) : v.toInt ≡ unsigned v [ZMOD 2 ^ 64] := by
  have hbmod : v.toInt = (unsigned v : ℤ).bmod (2 ^ 64) := BitVec.toInt_eq_toNat_bmod v.toBitVec
  rw [hbmod]
  exact Int.bmod_emod

/-- Eight bits of an arithmetic shift are bits of the number. -/
lemma signExtend_sshiftRight (x : BitVec 64) {k : ℕ} (hk : k ≤ 56) :
    (0xff#64 &&& x.sshiftRight k).signExtend 8 = BitVec.ofNat 8 (x.toNat / 2 ^ k) := by
  apply BitVec.eq_of_getLsbD_eq
  intro i hi
  have hmask : (0xff#64).getLsbD i = true :=
    (by decide : ∀ i < 8, (0xff#64).getLsbD i = true) i hi
  have hwide : i < 64 := by omega
  have hin : k + i < 64 := by omega
  rw [BitVec.getLsbD_signExtend, if_pos hwide, decide_eq_true hi, BitVec.getLsbD_and, hmask,
    BitVec.getLsbD_sshiftRight, if_pos hin, BitVec.getLsbD_ofNat, decide_eq_true hi,
    Nat.testBit_div_two_pow, decide_eq_false (not_le.mpr hwide), BitVec.getLsbD, Nat.add_comm i k]
  rfl

lemma longToBytes_toList (v : Int64) : (longToBytes v).toList = beBytes 8 (unsigned v) := by
  rw [beBytes_eq_ofFn, longToBytes, Vector.toList_ofFn]
  congr 1
  funext i
  have hshift : (Int64.ofNat (8 * (7 - i))).toBitVec.smod 64 = BitVec.ofNat 64 (8 * (7 - i.val)) :=
    (by decide : ∀ i : Fin 8, (Int64.ofNat (8 * (7 - i))).toBitVec.smod 64 =
      BitVec.ofNat 64 (8 * (7 - i.val))) i
  have hsmall : 8 * (7 - i.val) % 2 ^ 64 = 8 * (7 - i.val) := by omega
  apply UInt8.toBitVec_inj.mp
  show (0xff &&& (v >>> Int64.ofNat (8 * (7 - i)))).toInt8.toBitVec = BitVec.ofNat 8 _
  rw [Int64.toBitVec_toInt8, Int64.toBitVec_and, Int64.toBitVec_shiftRight, hshift,
    BitVec.sshiftRight'_ofNat_eq_sshiftRight, hsmall]
  show (0xff#64 &&& v.toBitVec.sshiftRight (8 * (7 - i.val))).signExtend 8 = _
  rw [signExtend_sshiftRight _ (by omega), pow_mul]
  rfl

lemma beNat_longToBytes (v : Int64) : beNat (longToBytes v).toList = unsigned v := by
  rw [longToBytes_toList, beNat_beBytes (unsigned_lt v)]

/-! ### What the signs take away -/

/-- Has this byte a sign? -/
def negative (b : UInt8) : UInt8 := if b < 128 then 0 else 1

/-- What the signed bytes take from the bytes before them. -/
def borrowed (bs : List UInt8) : ℕ := beNat (bs.map negative)

lemma toInt_toInt8 (b : UInt8) : b.toInt8.toInt = b.toNat - 256 * (negative b).toNat := by
  have hall : ∀ b : BitVec 8, (UInt8.ofBitVec b).toInt8.toInt =
      (UInt8.ofBitVec b).toNat - 256 * (negative (UInt8.ofBitVec b)).toNat := by
    decide +kernel
  exact hall b.toBitVec

lemma byte_modEq (result : Int64) (b : UInt8) :
    ((result <<< 8) + b.toInt8.toInt64).toInt ≡
      256 * result.toInt + (b.toNat - 256 * (negative b).toNat) [ZMOD 2 ^ 64] := by
  have hshift : result <<< 8 = result * 256 := by
    apply Int64.toBitVec_inj.mp
    rw [Int64.toBitVec_shiftLeft, Int64.toBitVec_mul]
    exact BitVec.shiftLeft_eq_mul_twoPow _ _
  have hadd : ((result <<< 8) + b.toInt8.toInt64).toInt ≡
      (result <<< 8).toInt + b.toInt8.toInt64.toInt [ZMOD 2 ^ 64] := by
    rw [Int64.toInt_add]
    exact Int.bmod_emod
  have hmul : (result <<< 8).toInt ≡ 256 * result.toInt [ZMOD 2 ^ 64] := by
    rw [hshift, Int64.toInt_mul, mul_comm]
    exact Int.bmod_emod
  rw [Int8.toInt_toInt64, toInt_toInt8] at hadd
  exact hadd.trans (hmul.add_right _)

lemma foldl_modEq (bs : List UInt8) (result : Int64) :
    (bs.foldl (fun (result : Int64) b => (result <<< 8) + b.toInt8.toInt64) result).toInt ≡
      256 ^ bs.length * result.toInt + (beNat bs - 256 * borrowed bs) [ZMOD 2 ^ 64] := by
  induction bs generalizing result with
  | nil => simp [borrowed, beNat]
  | cons b bs ih =>
    refine (ih _).trans ?_
    refine (((byte_modEq result b).mul_left _).add_right _).trans ?_
    have hvalue : (256 : ℤ) ^ bs.length *
          (256 * result.toInt + (b.toNat - 256 * (negative b).toNat)) +
        (beNat bs - 256 * borrowed bs) =
        256 ^ (b :: bs).length * result.toInt + (beNat (b :: bs) - 256 * borrowed (b :: bs)) := by
      rw [borrowed, borrowed, List.map_cons, beNat_cons, beNat_cons, List.length_map,
        List.length_cons, pow_succ]
      push_cast
      ring
    rw [hvalue]

lemma borrowed_eq_zero {bs : List UInt8} : borrowed bs = 0 ↔ ∀ b ∈ bs, b < 128 := by
  induction bs with
  | nil => simp [borrowed, beNat]
  | cons b bs ih =>
    have hpos : 0 < 256 ^ (bs.map negative).length := by positivity
    rw [borrowed, List.map_cons, beNat_cons, Nat.add_eq_zero_iff, Nat.mul_eq_zero,
      or_iff_left hpos.ne', List.forall_mem_cons]
    refine and_congr ?_ ih
    by_cases hb : b < 128
    · simp [negative, hb]
    · simp [negative, hb]

/-- The sign of the first byte goes beyond the 64 bits. The others are in the result. -/
lemma unsigned_bytesToLong (bytes : Vector UInt8 8) :
    unsigned (bytesToLong bytes) = beNat bytes.toList ↔ ∀ b ∈ bytes.toList.tail, b < 128 := by
  have hread : (unsigned (bytesToLong bytes) : ℤ) ≡
      beNat bytes.toList - 256 * borrowed bytes.toList [ZMOD 2 ^ 64] := by
    have hfold := foldl_modEq bytes.toList 0
    rw [Int64.toInt_zero, mul_zero, zero_add] at hfold
    exact (toInt_modEq _).symm.trans hfold
  have hlong := unsigned_lt (bytesToLong bytes)
  have hbytes : beNat bytes.toList < 256 ^ 8 := by
    have hlt := beNat_lt bytes.toList
    rwa [Vector.length_toList] at hlt
  obtain ⟨b, bs, hlist⟩ : ∃ b bs, bytes.toList = b :: bs :=
    List.exists_cons_of_length_pos (by rw [Vector.length_toList]; decide)
  have hlen : bs.length = 7 := by
    have hlen : (b :: bs).length = 8 := by rw [← hlist, Vector.length_toList]
    exact Nat.succ.inj hlen
  have htail : borrowed bs < 256 ^ 7 := by
    have hlt := beNat_lt (bs.map negative)
    rwa [List.length_map, hlen] at hlt
  have hborrowed : borrowed (b :: bs) = (negative b).toNat * 256 ^ 7 + borrowed bs := by
    rw [borrowed, List.map_cons, beNat_cons, List.length_map, hlen]
    rfl
  rw [hlist] at hread hbytes ⊢
  rw [List.tail_cons, ← borrowed_eq_zero]
  rw [hborrowed, Int.modEq_iff_dvd] at hread
  obtain ⟨k, hk⟩ := hread
  push_cast at hk
  omega

/-! ### There and back -/

lemma longToBytes_eq_iff (v : Int64) (bytes : Vector UInt8 8) :
    longToBytes v = bytes ↔ unsigned v = beNat bytes.toList := by
  constructor
  · rintro rfl
    exact (beNat_longToBytes v).symm
  · intro h
    apply Vector.toList_inj.mp
    rw [longToBytes_toList, h, beBytes_beNat Vector.length_toList]

/-- The sign of a byte of a number is one of its bits. -/
lemma longToBytes_signs (v : Int64) :
    (∀ b ∈ (longToBytes v).toList.tail, b < 128) ↔
      ∀ k < 7, v.toBitVec.getLsbD (8 * k + 7) = false := by
  have hbyte : ∀ k, UInt8.ofNat (unsigned v / 256 ^ k) < 128 ↔
      v.toBitVec.getLsbD (8 * k + 7) = false := by
    intro k
    have hpow : (256 : ℕ) ^ k * 2 ^ 7 = 2 ^ (8 * k + 7) := by
      rw [pow_add, pow_mul]
      rfl
    have hdiv : unsigned v / 256 ^ k / 2 ^ 7 = unsigned v / 2 ^ (8 * k + 7) := by
      rw [Nat.div_div_eq_div_mul, hpow]
    have hbit : v.toBitVec.getLsbD (8 * k + 7) = decide (unsigned v / 2 ^ (8 * k + 7) % 2 = 1) :=
      Nat.testBit_eq_decide_div_mod_eq
    rw [hbit, decide_eq_false_iff_not, ← hdiv, UInt8.lt_iff_toNat_lt, UInt8.toNat_ofNat']
    show unsigned v / 256 ^ k % 2 ^ 8 < 128 ↔ _
    omega
  rw [longToBytes_toList, beBytes_eq_ofFn, List.ofFn_succ, List.tail_cons, List.forall_mem_ofFn_iff]
  constructor
  · intro h k hk
    have hk' := h ⟨6 - k, by omega⟩
    have hexp : 8 - 1 - (6 - k + 1) = k := by omega
    rw [Fin.val_succ, hexp] at hk'
    exact (hbyte k).mp hk'
  · intro h i
    exact (hbyte _).mpr (h _ (by rw [Fin.val_succ]; omega))

/-- A number comes back from its bytes, and bytes from their number, just when no byte after the
first has a sign. -/
theorem longToBytes_bytesToLong (v : Int64) (bytes : Vector UInt8 8) :
    (bytesToLong (longToBytes v) = v ↔ ∀ k < 7, v.toBitVec.getLsbD (8 * k + 7) = false) ∧
    (longToBytes (bytesToLong bytes) = bytes ↔ ∀ b ∈ bytes.toList.tail, b < 128) := by
  constructor
  · rw [← longToBytes_signs, ← unsigned_bytesToLong, beNat_longToBytes, unsigned_inj]
  · rw [longToBytes_eq_iff, unsigned_bytesToLong]

/-- The public key 200 is written as seven zeros and 0xc8, and read as -56. -/
theorem longToBytes_bytesToLong_signed :
    ¬ ((∀ v, bytesToLong (longToBytes v) = v) ∧
      ∀ bytes, longToBytes (bytesToLong bytes) = bytes) := by
  intro h
  exact absurd (h.1 200) (by decide +kernel)

end Limbo.Vnc.DH
