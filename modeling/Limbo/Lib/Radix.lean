import Mathlib

/-!
# Blocks of numbers

The numbers that agree in all digits but the lowest `h` of base `S` are a block of height `h`. It is
named by its height and by the digits they share, and it is made of `S` blocks of the height below.
-/

namespace Limbo.Lib.Radix

variable {S : ℕ}

def InBlock (S : ℕ) (b : ℕ × ℕ) (p : ℕ) : Prop := p / S ^ b.1 = b.2

/-- The block `b` is a part of the block `c`. -/
def Within (S : ℕ) (b c : ℕ × ℕ) : Prop := b.1 ≤ c.1 ∧ b.2 / S ^ (c.1 - b.1) = c.2

lemma div_pow_succ (p h : ℕ) : p / S ^ (h + 1) = p / S ^ h / S := by
  rw [Nat.div_div_eq_div_mul, pow_succ]

/-- A number is in the block that its next digit selects. -/
lemma inBlock_digit {h x p : ℕ} (hp : InBlock S (h + 1, x) p) :
    InBlock S (h, x * S + p / S ^ h % S) p := by
  have hx : p / S ^ h / S = x := (div_pow_succ p h).symm.trans hp
  rw [InBlock, ← hx, mul_comm]
  exact (Nat.div_add_mod _ _).symm

lemma digit_of_inBlock {h x i p : ℕ} (hi : i < S) (hp : InBlock S (h, x * S + i) p) :
    p / S ^ h % S = i := by
  rw [show p / S ^ h = x * S + i from hp, Nat.mul_add_mod_self_right, Nat.mod_eq_of_lt hi]

lemma inBlock_parent {h x i p : ℕ} (hi : i < S) (hp : InBlock S (h, x * S + i) p) :
    InBlock S (h + 1, x) p := by
  have hS : 0 < S := by omega
  rw [InBlock, div_pow_succ, show p / S ^ h = x * S + i from hp, mul_comm,
    Nat.mul_add_div hS, Nat.div_eq_of_lt hi, add_zero]

lemma within_refl (b : ℕ × ℕ) : Within S b b := ⟨le_refl _, by simp⟩

lemma not_within_of_lt {b c : ℕ × ℕ} (h : c.1 < b.1) : ¬ Within S b c := fun hw =>
  absurd hw.1 (by omega)

lemma Within.parent {b : ℕ × ℕ} {h x i : ℕ} (hi : i < S) (hb : Within S b (h, x * S + i)) :
    Within S b (h + 1, x) := by
  obtain ⟨hle, hdiv⟩ := hb
  dsimp only at hle hdiv
  have hS : 0 < S := by omega
  refine ⟨by dsimp only; omega, ?_⟩
  dsimp only
  rw [show h + 1 - b.1 = h - b.1 + 1 by omega, div_pow_succ, hdiv, mul_comm, Nat.mul_add_div hS,
    Nat.div_eq_of_lt hi, add_zero]

lemma InBlock.of_within {b c : ℕ × ℕ} {p : ℕ} (hp : InBlock S b p) (h : Within S b c) :
    InBlock S c p := by
  obtain ⟨hle, hdiv⟩ := h
  rw [InBlock, ← hdiv, ← show p / S ^ b.1 = b.2 from hp, Nat.div_div_eq_div_mul, ← pow_add,
    Nat.add_sub_cancel' hle]

lemma inBlock_iff {h x p : ℕ} (hS : 0 < S) :
    InBlock S (h, x) p ↔ x * S ^ h ≤ p ∧ p < (x + 1) * S ^ h := by
  have hpos : 0 < S ^ h := Nat.pow_pos hS
  rw [← Nat.le_div_iff_mul_le hpos, ← Nat.div_lt_iff_lt_mul hpos, Nat.lt_succ_iff]
  exact ⟨fun h => ⟨h.ge, h.le⟩, fun h => le_antisymm h.2 h.1⟩

end Limbo.Lib.Radix
