import Mathlib

/-!
# Loops that count

The rule for a loop whose body depends on the number of its round: an invariant that says what the
rounds so far have done.
-/

namespace Limbo.Lib

variable {σ : Type*} {P : ℕ → σ → Prop} {f : σ → ℕ → σ} {n : ℕ} {s : σ}

lemma foldl_range (zero : P 0 s) (step : ∀ k < n, ∀ s, P k s → P (k + 1) (f s k)) :
    P n ((List.range n).foldl f s) := by
  induction n with
  | zero => exact zero
  | succ n ih =>
    rw [List.range_succ, List.foldl_append]
    exact step n n.lt_succ_self _ (ih fun k hk => step k (hk.trans n.lt_succ_self))

end Limbo.Lib
