import Limbo.Vnc.DesCipher
import Limbo.Lib.Bytes

/-!
# Decryption

`decrypt` is `encrypt` with the subkeys in reverse order. Every half round is undone by itself, and
what comes out of the last one is what the first one of the other direction takes, with the halves
exchanged.
-/

namespace Limbo.Vnc.DesCipher

open Lib.Words

/-- `decrypt` on the eight bytes of `cipherText` from `cipherOff` on, with `decryptKeys`. -/
def decrypt (decryptKeys : List (BitVec 32)) (cipherText : List UInt8) (cipherOff : ℕ) :
    List UInt8 :=
  let byte := fun k => cipherText.getD (cipherOff + k) 0
  let tempInts := des (squashBytesToInts (byte 0) (byte 1) (byte 2) (byte 3),
    squashBytesToInts (byte 4) (byte 5) (byte 6) (byte 7)) decryptKeys
  spreadIntsToBytes tempInts.1 ++ spreadIntsToBytes tempInts.2

/-! ### Permutations -/

/-- An exchange undoes itself when its mask stays within the word. -/
lemma exchange_exchange {k m : ℕ} (hm : m < 2 ^ (32 - k)) (a b : BitVec 32) :
    exchange k m (exchange k m a b).1 (exchange k m a b).2 = (a, b) := by
  have hmask : ∀ i, (BitVec.ofNat 32 m).getLsbD i = true → k + i < 32 := by
    intro i hbit
    by_contra hge
    have hlt : m < 2 ^ i := hm.trans_le (Nat.pow_le_pow_right two_pos (by omega))
    rw [BitVec.getLsbD_ofNat, Nat.testBit_lt_two_pow hlt, Bool.and_false] at hbit
    cases hbit
  -- the masked bits of both words have changed, so the second exchange finds the same difference
  have hwork : ((a ^^^ ((((a >>> k) ^^^ b) &&& BitVec.ofNat 32 m) <<< k)) >>> k ^^^
      (b ^^^ (((a >>> k) ^^^ b) &&& BitVec.ofNat 32 m))) &&& BitVec.ofNat 32 m =
      ((a >>> k) ^^^ b) &&& BitVec.ofNat 32 m := by
    apply BitVec.eq_of_getLsbD_eq
    intro i hi
    cases hbit : (BitVec.ofNat 32 m).getLsbD i with
    | false => simp [hbit]
    | true =>
      have hik := hmask i hbit
      have hle : ¬ k + i < k := by omega
      simp only [BitVec.getLsbD_and, BitVec.getLsbD_xor, BitVec.getLsbD_ushiftRight,
        BitVec.getLsbD_shiftLeft, hbit, Bool.and_true, hik, decide_true, Bool.true_and, hle,
        decide_false, Bool.not_false, Nat.add_sub_cancel_left]
      cases a.getLsbD (k + i) <;> cases b.getLsbD i <;> rfl
  simp only [exchange]
  rw [hwork]
  simp

section Exchange

variable {k m : ℕ} {a b c d : BitVec 32}

lemma exchange_symm (hm : m < 2 ^ (32 - k)) (h : exchange k m a b = (c, d)) :
    exchange k m c d = (a, b) := by
  rw [← exchange_exchange hm a b, h]

/-- Within one place the words may be exchanged too. -/
lemma exchange_zero_symm (hm : m < 2 ^ 32) (h : exchange 0 m a b = (c, d)) :
    exchange 0 m d c = (b, a) := by
  have hswap : ∀ a b : BitVec 32, exchange 0 m b a = (exchange 0 m a b).swap := by
    intro a b
    simp only [exchange, Prod.swap, BitVec.shiftLeft_zero, BitVec.ushiftRight_zero,
      BitVec.xor_comm a b]
  rw [hswap, exchange_symm hm h]
  rfl

end Exchange

lemma rotateRight_rotateLeft (x : BitVec 32) :
    ((x <<< 1 ||| (x >>> 31 &&& 1#32)) <<< 31) ||| ((x <<< 1 ||| (x >>> 31 &&& 1#32)) >>> 1) = x := by
  apply BitVec.eq_of_getLsbD_eq
  intro i hi
  by_cases h : i = 31
  · subst h
    simp
  · have hlt : i < 31 := by omega
    have hsucc : 1 + i < 32 := by omega
    simp [hlt, hsucc]
    exact (BitVec.getLsbD_eq_getElem hi).symm

lemma rotateLeft_rotateRight (x : BitVec 32) :
    ((x <<< 31 ||| x >>> 1) <<< 1) ||| (((x <<< 31 ||| x >>> 1) >>> 31) &&& 1#32) = x := by
  apply BitVec.eq_of_getLsbD_eq
  intro i hi
  by_cases h : i = 0
  · subst h
    simp
  · have hlt : i - 1 < 31 := by omega
    have hpred : 1 + (i - 1) = i := by omega
    simp [hlt, hpred, h, hi]

/-- The final permutation undoes the initial one, with the halves exchanged, -/
lemma finalPermutation_initialPermutation (x y : BitVec 32) :
    finalPermutation (initialPermutation x y).2 (initialPermutation x y).1 = (x, y) := by
  obtain ⟨l₁, r₁, h₁⟩ : ∃ l r, exchange 4 0x0f0f0f0f x y = (l, r) := ⟨_, _, rfl⟩
  obtain ⟨l₂, r₂, h₂⟩ : ∃ l r, exchange 16 0x0000ffff l₁ r₁ = (l, r) := ⟨_, _, rfl⟩
  obtain ⟨r₃, l₃, h₃⟩ : ∃ r l, exchange 2 0x33333333 r₂ l₂ = (r, l) := ⟨_, _, rfl⟩
  obtain ⟨r₄, l₄, h₄⟩ : ∃ r l, exchange 8 0x00ff00ff r₃ l₃ = (r, l) := ⟨_, _, rfl⟩
  obtain ⟨l₅, r₅, h₅⟩ : ∃ l r, exchange 0 0xaaaaaaaa l₄ (r₄ <<< 1 ||| (r₄ >>> 31 &&& 1#32)) =
    (l, r) := ⟨_, _, rfl⟩
  have hinitial : initialPermutation x y = (l₅ <<< 1 ||| (l₅ >>> 31 &&& 1#32), r₅) := by
    simp only [initialPermutation, h₁, h₂, h₃, h₄, h₅]
  rw [hinitial]
  simp only [finalPermutation, rotateRight_rotateLeft, exchange_zero_symm (by decide) h₅,
    exchange_symm (by decide) h₄, exchange_symm (by decide) h₃, exchange_symm (by decide) h₂,
    exchange_symm (by decide) h₁]

/-- and the initial one undoes the final one. -/
lemma initialPermutation_finalPermutation (x y : BitVec 32) :
    initialPermutation (finalPermutation x y).1 (finalPermutation x y).2 = (y, x) := by
  obtain ⟨l₁, r₁, h₁⟩ : ∃ l r, exchange 0 0xaaaaaaaa x (y <<< 31 ||| y >>> 1) = (l, r) :=
    ⟨_, _, rfl⟩
  obtain ⟨l₂, r₂, h₂⟩ : ∃ l r, exchange 8 0x00ff00ff (l₁ <<< 31 ||| l₁ >>> 1) r₁ = (l, r) :=
    ⟨_, _, rfl⟩
  obtain ⟨l₃, r₃, h₃⟩ : ∃ l r, exchange 2 0x33333333 l₂ r₂ = (l, r) := ⟨_, _, rfl⟩
  obtain ⟨r₄, l₄, h₄⟩ : ∃ r l, exchange 16 0x0000ffff r₃ l₃ = (r, l) := ⟨_, _, rfl⟩
  obtain ⟨r₅, l₅, h₅⟩ : ∃ r l, exchange 4 0x0f0f0f0f r₄ l₄ = (r, l) := ⟨_, _, rfl⟩
  have hfinal : finalPermutation x y = (r₅, l₅) := by
    simp only [finalPermutation, h₁, h₂, h₃, h₄, h₅]
  rw [hfinal]
  simp only [initialPermutation, exchange_symm (by decide) h₅, exchange_symm (by decide) h₄,
    exchange_symm (by decide) h₃, exchange_symm (by decide) h₂, rotateLeft_rotateRight,
    exchange_zero_symm (by decide) h₁]

/-! ### Rounds -/

/-- What the round function makes of `right` and two words of the key. -/
def roundValue (keys : List (BitVec 32)) (keysi : ℕ) (right : BitVec 32) : BitVec 32 :=
  halfRound keys keysi right 0#32

lemma halfRound_eq (keys : List (BitVec 32)) (keysi : ℕ) (right leftt : BitVec 32) :
    halfRound keys keysi right leftt = leftt ^^^ roundValue keys keysi right := by
  simp only [roundValue, halfRound, BitVec.zero_xor]

/-- A half round is undone by the half round with the same words of the key. -/
lemma halfRound_halfRound {keys keys' : List (BitVec 32)} {keysi keysi' : ℕ}
    (h₀ : keys'.getD keysi' 0 = keys.getD keysi 0)
    (h₁ : keys'.getD (keysi' + 1) 0 = keys.getD (keysi + 1) 0) (right leftt : BitVec 32) :
    halfRound keys' keysi' right (halfRound keys keysi right leftt) = leftt := by
  have hvalue : roundValue keys' keysi' right = roundValue keys keysi right := by
    simp only [roundValue, halfRound, h₀, h₁]
  rw [halfRound_eq keys, halfRound_eq keys', hvalue, BitVec.xor_assoc, BitVec.xor_self,
    BitVec.xor_zero]

/-- The words of one list are those of the other from the end, two by two. -/
def Reversed (keys keys' : List (BitVec 32)) : Prop :=
  ∀ i < 16, keys'.getD (2 * i) 0 = keys.getD (2 * (15 - i)) 0 ∧
    keys'.getD (2 * i + 1) 0 = keys.getD (2 * (15 - i) + 1) 0

lemma Reversed.symm {keys keys' : List (BitVec 32)} (h : Reversed keys keys') :
    Reversed keys' keys := by
  intro i hi
  have hback : 15 - (15 - i) = i := by omega
  obtain ⟨h₀, h₁⟩ := h (15 - i) (by omega)
  rw [hback] at h₀ h₁
  exact ⟨h₀.symm, h₁.symm⟩

/-- A turn of the loop undoes the turn that is as far from the other end. -/
lemma desRound_desRound {keys keys' : List (BitVec 32)} (h : Reversed keys keys') {round : ℕ}
    (hr : round < 8) (b : BitVec 32 × BitVec 32) :
    desRound keys' (desRound keys b (7 - round)).swap round = b.swap := by
  have hlast := h (2 * round) (by omega)
  have hfirst := h (2 * round + 1) (by omega)
  rw [show 2 * (2 * round) = 4 * round by ring,
    show 2 * (15 - 2 * round) = 4 * (7 - round) + 2 by omega] at hlast
  rw [show 2 * (2 * round + 1) = 4 * round + 2 by ring,
    show 2 * (15 - (2 * round + 1)) = 4 * (7 - round) by omega] at hfirst
  have hright : halfRound keys' (4 * round) (desRound keys b (7 - round)).1
      (desRound keys b (7 - round)).2 = b.2 := halfRound_halfRound hlast.1 hlast.2 _ _
  have hleftt : halfRound keys' (4 * round + 2) b.2 (desRound keys b (7 - round)).1 = b.1 :=
    halfRound_halfRound hfirst.1 hfirst.2 _ _
  show (halfRound keys' (4 * round) (desRound keys b (7 - round)).1
      (desRound keys b (7 - round)).2,
    halfRound keys' (4 * round + 2) (halfRound keys' (4 * round) (desRound keys b (7 - round)).1
      (desRound keys b (7 - round)).2) (desRound keys b (7 - round)).1) = (b.2, b.1)
  rw [hright, hleftt]

/-- The rounds, from the last one back. -/
lemma rounds_rounds {keys keys' : List (BitVec 32)} (h : Reversed keys keys')
    (b : BitVec 32 × BitVec 32) {n : ℕ} (hn : n ≤ 8) :
    (List.range n).foldl (desRound keys') ((List.range 8).foldl (desRound keys) b).swap =
      ((List.range (8 - n)).foldl (desRound keys) b).swap := by
  induction n with
  | zero => rfl
  | succ n ih =>
    have hsucc : 8 - n = 7 - n + 1 := by omega
    have hpred : 8 - (n + 1) = 7 - n := by omega
    rw [List.range_succ (n := n), List.foldl_append, ih (by omega), hsucc,
      List.range_succ (n := 7 - n), List.foldl_append, hpred]
    exact desRound_desRound h (by omega) _

/-- The DES function undoes itself under the subkeys in reverse order. -/
theorem des_des {keys keys' : List (BitVec 32)} (h : Reversed keys keys')
    (x : BitVec 32 × BitVec 32) : des (des x keys) keys' = x := by
  have hrounds := rounds_rounds h (initialPermutation x.1 x.2) le_rfl
  unfold des
  rw [initialPermutation_finalPermutation]
  show finalPermutation ((List.range 8).foldl (desRound keys')
      ((List.range 8).foldl (desRound keys) (initialPermutation x.1 x.2)).swap).1
    ((List.range 8).foldl (desRound keys')
      ((List.range 8).foldl (desRound keys) (initialPermutation x.1 x.2)).swap).2 = x
  rw [hrounds]
  exact finalPermutation_initialPermutation x.1 x.2

/-! ### Subkeys -/

lemma length_cook (raw0 raw1 : BitVec 32) : (cook raw0 raw1).length = 2 := rfl

lemma getD_pairs {f : ℕ → List (BitVec 32)} (hf : ∀ m, (f m).length = 2) {i e : ℕ} (hi : i < 16)
    (he : e < 2) : ((List.range 16).flatMap f).getD (2 * i + e) 0 = (f i).getD e 0 := by
  have hlen : i < (List.range 16).length := by rwa [List.length_range]
  have hdrop := Lib.drop_items_eq hf hlen
  have hlt : e < (f i).length := by rwa [hf]
  rw [mul_comm 2 i, List.getD_eq_getElem?_getD, ← List.getElem?_drop, hdrop, List.getElem_range,
    List.getElem?_append_left hlt, ← List.getD_eq_getElem?_getD]

lemma reversed_deskey (key : List UInt8) : Reversed (deskey key true) (deskey key false) := by
  intro i hi
  have hback : 15 - (15 - i) = i := by omega
  have hpair : ∀ e < 2, (deskey key false).getD (2 * i + e) 0 =
      (deskey key true).getD (2 * (15 - i) + e) 0 := by
    intro e he
    unfold deskey
    rw [getD_pairs (fun m => length_cook _ _) hi he,
      getD_pairs (fun m => length_cook _ _) (by omega) he]
    rfl
  exact ⟨hpair 0 (by decide), hpair 1 (by decide)⟩

/-! ### Blocks -/

lemma getLsbD_promote_and (b : UInt8) (i : ℕ) :
    (promote b &&& 0xff#32).getLsbD i = b.toBitVec.getLsbD i := by
  rw [promote_and, BitVec.getLsbD_and, BitVec.getLsbD_setWidth]
  by_cases hi : i < 8
  · have hmask : (0xff#32).getLsbD i = true :=
      (by decide : ∀ i < 8, (0xff#32).getLsbD i = true) i hi
    have hwide : i < 32 := by omega
    simp [hmask, hwide]
  · rw [BitVec.getLsbD_of_ge b.toBitVec i (by omega)]
    simp

/-- The bits of a word are those of its bytes. -/
lemma getLsbD_squashBytesToInts (b0 b1 b2 b3 : UInt8) {q r : ℕ} (hq : q < 4) (hr : r < 8) :
    (squashBytesToInts b0 b1 b2 b3).getLsbD (8 * q + r) =
      ([b3, b2, b1, b0].getD q 0).toBitVec.getLsbD r := by
  have hwide : 8 * q + r < 32 := by omega
  have hbyte : ∀ (b : UInt8) (p : ℕ), ((promote b &&& 0xff#32) <<< (8 * p)).getLsbD (8 * q + r) =
      (decide (p = q) && b.toBitVec.getLsbD r) := by
    intro b p
    rw [BitVec.getLsbD_shiftLeft, getLsbD_promote_and, decide_eq_true hwide]
    obtain hlt | rfl | hgt := lt_trichotomy p q
    · rw [BitVec.getLsbD_of_ge b.toBitVec _ (by omega), decide_eq_false hlt.ne]
      simp
    · simp
    · have hbelow : 8 * q + r < 8 * p := by omega
      rw [decide_eq_true hbelow, decide_eq_false hgt.ne']
      simp
  have hlast := hbyte b3 0
  rw [mul_zero, BitVec.shiftLeft_zero] at hlast
  unfold squashBytesToInts
  rw [BitVec.getLsbD_or, BitVec.getLsbD_or, BitVec.getLsbD_or, hbyte b0 3, hbyte b1 2, hbyte b2 1,
    hlast]
  interval_cases q <;> simp

/-- The bytes of a word are its bits. -/
lemma getLsbD_byte (x : BitVec 32) (k : ℕ) {r : ℕ} (hr : r < 8) :
    (UInt8.ofNat (x >>> k).toNat).toBitVec.getLsbD r = x.getLsbD (k + r) := by
  show (BitVec.ofNat 8 (x >>> k).toNat).getLsbD r = _
  rw [BitVec.getLsbD_ofNat, decide_eq_true hr, Bool.true_and]
  exact BitVec.getLsbD_ushiftRight x k r

lemma spreadIntsToBytes_eq (x : BitVec 32) :
    spreadIntsToBytes x = [UInt8.ofNat (x >>> 24).toNat, UInt8.ofNat (x >>> 16).toNat,
      UInt8.ofNat (x >>> 8).toNat, UInt8.ofNat (x >>> 0).toNat] := by
  rw [BitVec.ushiftRight_zero]
  rfl

lemma spread_squash (b0 b1 b2 b3 : UInt8) :
    spreadIntsToBytes (squashBytesToInts b0 b1 b2 b3) = [b0, b1, b2, b3] := by
  have hbyte : ∀ q < 4, UInt8.ofNat (squashBytesToInts b0 b1 b2 b3 >>> (8 * q)).toNat =
      [b3, b2, b1, b0].getD q 0 := by
    intro q hq
    apply UInt8.toBitVec_inj.mp
    apply BitVec.eq_of_getLsbD_eq
    intro r hr
    rw [getLsbD_byte _ _ hr, getLsbD_squashBytesToInts _ _ _ _ hq hr]
  rw [spreadIntsToBytes_eq, hbyte 3 (by decide), hbyte 2 (by decide), hbyte 1 (by decide),
    hbyte 0 (by decide)]
  rfl

lemma squash_spread (x : BitVec 32) :
    squashBytesToInts (UInt8.ofNat (x >>> 24).toNat) (UInt8.ofNat (x >>> 16).toNat)
      (UInt8.ofNat (x >>> 8).toNat) (UInt8.ofNat (x >>> 0).toNat) = x := by
  apply BitVec.eq_of_getLsbD_eq
  intro i hi
  obtain ⟨q, r, hq, hr, rfl⟩ : ∃ q r, q < 4 ∧ r < 8 ∧ i = 8 * q + r :=
    ⟨i / 8, i % 8, by omega, Nat.mod_lt _ (by decide), by omega⟩
  rw [getLsbD_squashBytesToInts _ _ _ _ hq hr]
  interval_cases q
  · exact getLsbD_byte x 0 hr
  · exact getLsbD_byte x 8 hr
  · exact getLsbD_byte x 16 hr
  · exact getLsbD_byte x 24 hr

/-- The eight bytes of a block. -/
lemma exists_block {block : List UInt8} (h : block.length = 8) :
    ∃ b0 b1 b2 b3 b4 b5 b6 b7, block = [b0, b1, b2, b3, b4, b5, b6, b7] := by
  match block, h with
  | [b0, b1, b2, b3, b4, b5, b6, b7], _ => exact ⟨b0, b1, b2, b3, b4, b5, b6, b7, rfl⟩

lemma length_encrypt (keys : List (BitVec 32)) (block : List UInt8) (j : ℕ) :
    (encrypt keys block j).length = 8 := rfl

lemma encrypt_eq (keys : List (BitVec 32)) (b0 b1 b2 b3 b4 b5 b6 b7 : UInt8) :
    encrypt keys [b0, b1, b2, b3, b4, b5, b6, b7] 0 =
      spreadIntsToBytes (des (squashBytesToInts b0 b1 b2 b3, squashBytesToInts b4 b5 b6 b7) keys).1 ++
        spreadIntsToBytes
          (des (squashBytesToInts b0 b1 b2 b3, squashBytesToInts b4 b5 b6 b7) keys).2 := rfl

/-- `encrypt` on the bytes of two words. -/
lemma encrypt_spread (keys : List (BitVec 32)) (x y : BitVec 32) :
    encrypt keys (spreadIntsToBytes x ++ spreadIntsToBytes y) 0 =
      spreadIntsToBytes (des (x, y) keys).1 ++ spreadIntsToBytes (des (x, y) keys).2 := by
  have hx := squash_spread x
  have hy := squash_spread y
  rw [spreadIntsToBytes_eq x, spreadIntsToBytes_eq y]
  simp only [List.cons_append, List.nil_append]
  rw [encrypt_eq, hx, hy]

/-- What `encrypt` makes of a block under some subkeys, it undoes under their reverse. -/
lemma encrypt_encrypt {keys keys' : List (BitVec 32)} (h : Reversed keys keys')
    {block : List UInt8} (hlen : block.length = 8) :
    encrypt keys' (encrypt keys block 0) 0 = block := by
  obtain ⟨b0, b1, b2, b3, b4, b5, b6, b7, rfl⟩ := exists_block hlen
  have hback := des_des h (squashBytesToInts b0 b1 b2 b3, squashBytesToInts b4 b5 b6 b7)
  rw [encrypt_eq, encrypt_spread, Prod.mk.eta, hback, spread_squash, spread_squash]
  rfl

/-- `decrypt` and `encrypt` do the same with other subkeys. -/
lemma decrypt_eq_encrypt (keys : List (BitVec 32)) (block : List UInt8) (j : ℕ) :
    decrypt keys block j = encrypt keys block j := rfl

lemma decrypt_encrypt (key : List UInt8) {block : List UInt8} (hlen : block.length = 8) :
    decrypt (deskey key false) (encrypt (deskey key true) block 0) 0 = block :=
  encrypt_encrypt (reversed_deskey key) hlen

lemma encrypt_decrypt (key : List UInt8) {block : List UInt8} (hlen : block.length = 8) :
    encrypt (deskey key true) (decrypt (deskey key false) block 0) 0 = block :=
  encrypt_encrypt (reversed_deskey key).symm hlen

end Limbo.Vnc.DesCipher
