import Limbo.Lib.WriteLog

/-!
# What a program leaves alone

A program with state and exceptions preserves a part of the state if that part is, whenever the
program returns, what it was before. One rule for each construct of the monad.
-/

namespace Limbo.Lib

variable {ε S T β γ : Type} {φ : S → T}

/-- Whenever the program returns, `φ` of the state is what it was. -/
def Preserves (φ : S → T) (x : EStateM ε S β) : Prop := ∀ s b t, x s = .ok b t → φ t = φ s

namespace Preserves

lemma pure (b : β) : Preserves φ (Pure.pure b : EStateM ε S β) := by
  intro s _ t h
  cases h
  rfl

lemma throw (e : ε) : Preserves φ (MonadExcept.throw e : EStateM ε S β) := by
  intro s b t h
  cases h

lemma get : Preserves φ (MonadState.get : EStateM ε S S) := by
  intro s _ t h
  cases h
  rfl

lemma update {f : S → S} (hf : ∀ s, φ (f s) = φ s) :
    Preserves φ (modify f : EStateM ε S PUnit) := by
  intro s _ t h
  cases h
  exact hf s

lemma bind {x : EStateM ε S β} {f : β → EStateM ε S γ} (hx : Preserves φ x)
    (hf : ∀ b, Preserves φ (f b)) : Preserves φ (x >>= f) := by
  intro s d t h
  obtain ⟨b, s', hfirst, hrest⟩ := ok_of_bind h
  exact (hf b s' d t hrest).trans (hx s b s' hfirst)

lemma ite {P : Prop} [Decidable P] {x y : EStateM ε S β} (hx : Preserves φ x)
    (hy : Preserves φ y) : Preserves φ (if P then x else y) := by
  split_ifs
  · exact hx
  · exact hy

lemma loop {n : ℕ} {f : ℕ → EStateM ε S Unit} (hf : ∀ i, Preserves φ (f i)) :
    Preserves φ (Lib.loop n f) := by
  induction n with
  | zero => exact pure ()
  | succ n ih => exact ih.bind fun _ => hf n

end Preserves

end Limbo.Lib
