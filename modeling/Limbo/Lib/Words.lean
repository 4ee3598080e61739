import Mathlib

/-!
# Words of different widths

The same expression over machine words of two widths. Two words are the same when they denote the
same number, and they agree in their low `n` bits when nothing is said of the bits above. Sums,
shifts and masks are followed through both relations, and so is the exchange of masked bits that
bit permutations are made of.
-/

namespace Limbo.Lib.Words

variable {v w : ℕ}

/-- The low `n` bits are equal. -/
def Agree (n : ℕ) (a : BitVec v) (b : BitVec w) : Prop :=
  ∀ i < n, a.getLsbD i = b.getLsbD i

/-- All bits are equal, those above the narrower word being zero. -/
def Same (a : BitVec v) (b : BitVec w) : Prop := ∀ i, a.getLsbD i = b.getLsbD i

variable {n : ℕ} {a a' : BitVec v} {b b' : BitVec w}

lemma Same.agree (h : Same a b) : Agree n a b := fun i _ => h i

lemma Same.toNat_eq (h : Same a b) : a.toNat = b.toNat :=
  Nat.eq_of_testBit_eq h

lemma same_self (a : BitVec v) : Same a a := fun _ => rfl

/-- A literal that fits in both widths. -/
lemma same_ofNat {m : ℕ} (hv : m < 2 ^ v) (hw : m < 2 ^ w) :
    Same (BitVec.ofNat v m) (BitVec.ofNat w m) := by
  intro i
  rw [BitVec.getLsbD, BitVec.getLsbD, BitVec.toNat_ofNat, BitVec.toNat_ofNat,
    Nat.mod_eq_of_lt hv, Nat.mod_eq_of_lt hw]

/-- A narrow word in a wider one. -/
lemma same_setWidth {u : ℕ} (a : BitVec u) (hv : u ≤ v) (hw : u ≤ w) :
    Same (a.setWidth v) (a.setWidth w) := by
  intro i
  rw [BitVec.getLsbD_setWidth, BitVec.getLsbD_setWidth]
  by_cases hi : i < u
  · simp [show i < v by omega, show i < w by omega]
  · simp [BitVec.getLsbD_of_ge a i (by omega)]

/-! ### Bitwise operations -/

lemma Agree.xor (h : Agree n a b) (h' : Agree n a' b') : Agree n (a ^^^ a') (b ^^^ b') := by
  intro i hi
  rw [BitVec.getLsbD_xor, BitVec.getLsbD_xor, h i hi, h' i hi]

lemma Agree.or (h : Agree n a b) (h' : Agree n a' b') : Agree n (a ||| a') (b ||| b') := by
  intro i hi
  rw [BitVec.getLsbD_or, BitVec.getLsbD_or, h i hi, h' i hi]

lemma Same.xor (h : Same a b) (h' : Same a' b') : Same (a ^^^ a') (b ^^^ b') := by
  intro i
  rw [BitVec.getLsbD_xor, BitVec.getLsbD_xor, h i, h' i]

lemma Same.or (h : Same a b) (h' : Same a' b') : Same (a ||| a') (b ||| b') := by
  intro i
  rw [BitVec.getLsbD_or, BitVec.getLsbD_or, h i, h' i]

/-! ### Shifts and masks -/

/-- A shift to the left keeps the agreement: what leaves the narrower word is above it. -/
lemma Agree.shiftLeft (h : Agree n a b) (hv : n ≤ v) (hw : n ≤ w) (k : ℕ) :
    Agree n (a <<< k) (b <<< k) := by
  intro i hi
  rw [BitVec.getLsbD_shiftLeft, BitVec.getLsbD_shiftLeft, h (i - k) (by omega)]
  simp [show i < v by omega, show i < w by omega]

/-- A shift to the right brings down `k` bits that are not known to be equal. -/
lemma Agree.ushiftRight {k m : ℕ} (h : Agree n a b) (hm : k + m ≤ n) :
    Agree m (a >>> k) (b >>> k) := by
  intro i hi
  rw [BitVec.getLsbD_ushiftRight, BitVec.getLsbD_ushiftRight, h (k + i) (by omega)]

lemma Same.ushiftRight (h : Same a b) (k : ℕ) : Same (a >>> k) (b >>> k) := by
  intro i
  rw [BitVec.getLsbD_ushiftRight, BitVec.getLsbD_ushiftRight, h]

/-- A mask that lies within the agreement leaves nothing else. -/
lemma Agree.mask {m : ℕ} (h : Agree n a b) (hm : m < 2 ^ n) (hv : n ≤ v) (hw : n ≤ w) :
    Same (a &&& BitVec.ofNat v m) (b &&& BitVec.ofNat w m) := by
  intro i
  have hlit : Same (BitVec.ofNat v m) (BitVec.ofNat w m) :=
    same_ofNat (hm.trans_le (Nat.pow_le_pow_right Nat.two_pos hv))
      (hm.trans_le (Nat.pow_le_pow_right Nat.two_pos hw))
  rw [BitVec.getLsbD_and, BitVec.getLsbD_and, hlit i]
  by_cases hi : i < n
  · rw [h i hi]
  · have hbit : m.testBit i = false :=
      Nat.testBit_lt_two_pow (hm.trans_le (Nat.pow_le_pow_right Nat.two_pos (by omega)))
    have hzero : (BitVec.ofNat w m).getLsbD i = false := by
      rw [BitVec.getLsbD_ofNat, hbit, Bool.and_false]
    rw [hzero, Bool.and_false, Bool.and_false]

/-- A masked word moved to the left by less than the room above the mask. -/
lemma Agree.mask_shiftLeft {m k : ℕ} (h : Agree n a b) (hm : m < 2 ^ (n - k)) (hv : n ≤ v)
    (hw : n ≤ w) :
    Same ((a &&& BitVec.ofNat v m) <<< k) ((b &&& BitVec.ofNat w m) <<< k) := by
  have hmn : m < 2 ^ n := hm.trans_le (Nat.pow_le_pow_right Nat.two_pos (by omega))
  have hsame := h.mask hmn hv hw
  intro i
  by_cases hi : i < n
  · exact hsame.agree.shiftLeft hv hw k i hi
  · have hbit : m.testBit (i - k) = false :=
      Nat.testBit_lt_two_pow (hm.trans_le (Nat.pow_le_pow_right Nat.two_pos (by omega)))
    rw [BitVec.getLsbD_shiftLeft, BitVec.getLsbD_shiftLeft, BitVec.getLsbD_and,
      BitVec.getLsbD_and, BitVec.getLsbD_ofNat, BitVec.getLsbD_ofNat, hbit]
    simp

/-! ### The exchange of masked bits -/

/-- `work = ((a >> k) ^ b) & m; b ^= work; a ^= work << k`: the bits of `b` under the mask change
places with those of `a` that lie `k` higher. -/
def exchange (k m : ℕ) (a b : BitVec w) : BitVec w × BitVec w :=
  let work := ((a >>> k) ^^^ b) &&& BitVec.ofNat w m
  (a ^^^ (work <<< k), b ^^^ work)

section Exchange

variable {k m : ℕ}

/-- What an exchange adds to both words is the same in both widths. -/
lemma Agree.exchange_work (h : Agree n a b) (h' : Agree n a' b') (hm : m < 2 ^ (n - k))
    (hv : n ≤ v) (hw : n ≤ w) :
    Same (((a >>> k) ^^^ a') &&& BitVec.ofNat v m) (((b >>> k) ^^^ b') &&& BitVec.ofNat w m) := by
  have hshift : Agree (n - k) (a >>> k) (b >>> k) := by
    by_cases hk : k ≤ n
    · exact h.ushiftRight (by omega)
    · intro i hi
      omega
  have hlow : Agree (n - k) a' b' := fun i hi => h' i (by omega)
  exact (hshift.xor hlow).mask hm (by omega) (by omega)

lemma Agree.exchange (h : Agree n a b) (h' : Agree n a' b') (hm : m < 2 ^ (n - k))
    (hv : n ≤ v) (hw : n ≤ w) :
    Agree n (exchange k m a a').1 (exchange k m b b').1 ∧
      Agree n (exchange k m a a').2 (exchange k m b b').2 := by
  have hwork := (h.exchange_work h' hm hv hw).agree (n := n)
  exact ⟨h.xor (hwork.shiftLeft hv hw k), h'.xor hwork⟩

/-- Words without bits above `n` stay so. -/
lemma Same.exchange (h : Same a b) (h' : Same a' b') (hm : m < 2 ^ (n - k))
    (hv : n ≤ v) (hw : n ≤ w) :
    Same (exchange k m a a').1 (exchange k m b b').1 ∧
      Same (exchange k m a a').2 (exchange k m b b').2 := by
  have hshift : Agree n (a >>> k ^^^ a') (b >>> k ^^^ b') :=
    ((h.ushiftRight k).xor h').agree
  have hmn : m < 2 ^ n := hm.trans_le (Nat.pow_le_pow_right Nat.two_pos (by omega))
  exact ⟨h.xor (hshift.mask_shiftLeft hm hv hw), h'.xor (hshift.mask hmn hv hw)⟩

/-- An exchange in place, where only the second word may have bits above `n`. -/
lemma Same.exchange_zero (h : Same a b) (h' : Agree n a' b') (hm : m < 2 ^ n)
    (hv : n ≤ v) (hw : n ≤ w) :
    Same (Words.exchange 0 m a a').1 (Words.exchange 0 m b b').1 ∧
      Agree n (Words.exchange 0 m a a').2 (Words.exchange 0 m b b').2 := by
  have hlow : Agree n (a >>> 0 ^^^ a') (b >>> 0 ^^^ b') :=
    ((h.ushiftRight 0).agree).xor h'
  exact ⟨h.xor (hlow.mask_shiftLeft hm hv hw), h'.xor (hlow.mask hm hv hw).agree⟩

end Exchange

end Limbo.Lib.Words
