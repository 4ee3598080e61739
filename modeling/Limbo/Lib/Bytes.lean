import Mathlib

/-!
# Bytes

Big-endian numbers of a fixed number of bytes, signed 32-bit integers, and lists of items of the
same number of bytes.
-/

namespace Limbo.Lib

/-! ### Numbers -/

/-- The number that some bytes denote, the most significant one first. -/
def beNat (bs : List UInt8) : ℕ := bs.foldl (fun n b => 256 * n + b.toNat) 0

/-- A number in `k` bytes. -/
def beBytes : ℕ → ℕ → List UInt8
  | 0, _ => []
  | k + 1, n => beBytes k (n / 256) ++ [UInt8.ofNat n]

@[simp] lemma length_beBytes (k n : ℕ) : (beBytes k n).length = k := by
  induction k generalizing n with
  | zero => rfl
  | succ k ih => rw [beBytes, List.length_append, ih, List.length_singleton]

lemma beBytes_add (k m n : ℕ) :
    beBytes (k + m) n = beBytes k (n / 256 ^ m) ++ beBytes m (n % 256 ^ m) := by
  induction m generalizing n with
  | zero => simp [beBytes]
  | succ m ih =>
    have hdiv : n % 256 ^ (m + 1) / 256 = n / 256 % 256 ^ m := by
      rw [pow_succ', Nat.mod_mul_right_div_self]
    have hlast : UInt8.ofNat (n % 256 ^ (m + 1)) = UInt8.ofNat n := by
      apply UInt8.toNat_inj.mp
      rw [UInt8.toNat_ofNat', UInt8.toNat_ofNat', pow_succ']
      exact Nat.mod_mod_of_dvd n (Dvd.intro _ rfl)
    rw [← Nat.add_assoc, beBytes, beBytes, ih, hdiv, hlast, Nat.div_div_eq_div_mul, ← pow_succ',
      List.append_assoc]

lemma beNat_append_singleton (bs : List UInt8) (b : UInt8) :
    beNat (bs ++ [b]) = 256 * beNat bs + b.toNat := by
  rw [beNat, List.foldl_append]
  rfl

lemma beNat_lt (bs : List UInt8) : beNat bs < 256 ^ bs.length := by
  induction bs using List.reverseRecOn with
  | nil => decide
  | append_singleton bs b ih =>
    have hb : b.toNat < 256 := b.toNat_lt
    rw [beNat_append_singleton, List.length_append, List.length_singleton, pow_succ]
    linarith

lemma beNat_beBytes {k n : ℕ} (h : n < 256 ^ k) : beNat (beBytes k n) = n := by
  induction k generalizing n with
  | zero =>
    obtain rfl : n = 0 := Nat.lt_one_iff.mp h
    rfl
  | succ k ih =>
    have hdiv : n / 256 < 256 ^ k := by
      apply Nat.div_lt_of_lt_mul
      rwa [pow_succ, mul_comm] at h
    rw [beBytes, beNat_append_singleton, ih hdiv, UInt8.toNat_ofNat']
    exact Nat.div_add_mod n 256

lemma beBytes_beNat {k : ℕ} {bs : List UInt8} (h : bs.length = k) : beBytes k (beNat bs) = bs := by
  induction bs using List.reverseRecOn generalizing k with
  | nil =>
    subst h
    rfl
  | append_singleton bs b ih =>
    have hb : b.toNat < 256 := b.toNat_lt
    rw [List.length_append, List.length_singleton] at h
    subst h
    have hdiv : (256 * beNat bs + b.toNat) / 256 = beNat bs := by omega
    have hlast : UInt8.ofNat (256 * beNat bs + b.toNat) = b := by
      apply UInt8.toNat_inj.mp
      rw [UInt8.toNat_ofNat']
      omega
    rw [beNat_append_singleton, beBytes, hdiv, hlast, ih rfl]

lemma beBytes_eq_ofFn (k n : ℕ) :
    beBytes k n = List.ofFn fun i : Fin k => UInt8.ofNat (n / 256 ^ (k - 1 - i.val)) := by
  induction k generalizing n with
  | zero => rfl
  | succ k ih =>
    rw [beBytes, ih, List.ofFn_succ', List.concat_eq_append]
    congr 2
    · funext i
      have hexp : k + 1 - 1 - i.castSucc.val = k - 1 - i.val + 1 := by
        rw [Fin.val_castSucc]
        omega
      rw [hexp, Nat.div_div_eq_div_mul, ← pow_succ']
    · simp

lemma beNat_cons (b : UInt8) (bs : List UInt8) :
    beNat (b :: bs) = b.toNat * 256 ^ bs.length + beNat bs := by
  induction bs using List.reverseRecOn with
  | nil => simp [beNat]
  | append_singleton bs c ih =>
    rw [← List.cons_append, beNat_append_singleton, beNat_append_singleton, ih, List.length_append,
      List.length_singleton, pow_succ]
    ring

/-- The value that an `int` takes when a computation leaves its range. -/
def wrap32 (z : ℤ) : ℤ := (z + 2147483648) % 4294967296 - 2147483648

lemma wrap32_of_range {z : ℤ} (hlow : -2147483648 ≤ z) (hhigh : z < 2147483648) :
    wrap32 z = z := by
  unfold wrap32
  omega

@[simp] lemma wrap32_wrap32_add (a b : ℤ) : wrap32 (wrap32 a + b) = wrap32 (a + b) := by
  unfold wrap32
  omega

/-- An `int` in four bytes. -/
def intBytes (z : ℤ) : List UInt8 := beBytes 4 (z % 4294967296).toNat

@[simp] lemma length_intBytes (z : ℤ) : (intBytes z).length = 4 := length_beBytes _ _

lemma wrap32_beNat_intBytes {z : ℤ} (hlow : -2147483648 ≤ z) (hhigh : z < 2147483648) :
    wrap32 (beNat (intBytes z)) = z := by
  have hlt : (z % 4294967296).toNat < 256 ^ 4 := by omega
  rw [intBytes, beNat_beBytes hlt]
  unfold wrap32
  omega

lemma intBytes_wrap32_beNat {bs : List UInt8} (h : bs.length = 4) :
    intBytes (wrap32 (beNat bs)) = bs := by
  have hlt : beNat bs < 256 ^ 4 := h ▸ beNat_lt bs
  have hval : (wrap32 (beNat bs) % 4294967296).toNat = beNat bs := by
    unfold wrap32
    omega
  rw [intBytes, hval, beBytes_beNat h]

/-! ### Numbers put together -/

/-- Where the bits of two numbers do not meet, `|` adds them. -/
lemma or_eq_add {i n m : ℕ} (hn : 2 ^ i ∣ n) (hm : m < 2 ^ i) : n ||| m = n + m := by
  obtain ⟨k, rfl⟩ := hn
  rw [mul_comm, ← Nat.shiftLeft_eq, Nat.shiftLeft_add_eq_or_of_lt hm]

/-- No bit of a byte is shifted out of a word. -/
lemma toNat_shiftLeft_byte (b : UInt8) {k : UInt32} (hk : k.toNat ≤ 24) :
    (b.toUInt32 <<< k).toNat = b.toNat * 2 ^ k.toNat := by
  have hb := b.toNat_lt
  have hlt : b.toNat * 2 ^ k.toNat < 2 ^ 32 := calc
    b.toNat * 2 ^ k.toNat < 2 ^ 8 * 2 ^ 24 :=
      Nat.mul_lt_mul_of_lt_of_le hb (Nat.pow_le_pow_right (by omega) hk) (by positivity)
    _ = 2 ^ 32 := by norm_num
  rw [UInt32.toNat_shiftLeft, UInt8.toNat_toUInt32, Nat.mod_eq_of_lt (a := k.toNat) (by omega),
    Nat.shiftLeft_eq, Nat.mod_eq_of_lt hlt]

/-! ### Items of one length -/

section Items

variable {α β : Type*} {f : α → List β} {k : ℕ}

lemma length_items (hf : ∀ a, (f a).length = k) (as : List α) :
    (as.flatMap f).length = as.length * k := by
  induction as with
  | nil => simp
  | cons a as ih =>
    rw [List.flatMap_cons, List.length_append, ih, hf, List.length_cons, Nat.succ_mul, add_comm]

lemma drop_items (hf : ∀ a, (f a).length = k) (as : List α) (i : ℕ) :
    (as.flatMap f).drop (i * k) = (as.drop i).flatMap f := by
  induction i generalizing as with
  | zero => simp
  | succ i ih =>
    cases as with
    | nil => simp
    | cons a as =>
      have hsum : (i + 1) * k = (f a).length + i * k := by
        rw [hf]
        ring
      rw [List.flatMap_cons, hsum, List.drop_length_add_append, ih, List.drop_succ_cons]

/-- The items from one on start with it. -/
lemma drop_items_eq (hf : ∀ a, (f a).length = k) {as : List α} {i : ℕ} (hi : i < as.length) :
    (as.flatMap f).drop (i * k) = f as[i] ++ (as.drop (i + 1)).flatMap f := by
  rw [drop_items hf, List.drop_eq_getElem_cons hi, List.flatMap_cons]

/-- Where any `k` bytes are an item, any `n * k` bytes are `n` items. -/
lemma exists_items (hf : ∀ bs : List β, bs.length = k → ∃ a, f a = bs) {n : ℕ} {bs : List β}
    (h : bs.length = n * k) : ∃ as : List α, as.length = n ∧ as.flatMap f = bs := by
  induction n generalizing bs with
  | zero =>
    rw [Nat.zero_mul] at h
    exact ⟨[], rfl, (List.length_eq_zero_iff.mp h).symm⟩
  | succ n ih =>
    rw [Nat.succ_mul] at h
    obtain ⟨a, ha⟩ := hf (bs.take k) (by rw [List.length_take]; omega)
    obtain ⟨as, hlen, has⟩ := @ih (bs.drop k) (by rw [List.length_drop]; omega)
    refine ⟨a :: as, by rw [List.length_cons, hlen], ?_⟩
    rw [List.flatMap_cons, ha, has, List.take_append_drop]

end Items

end Limbo.Lib
