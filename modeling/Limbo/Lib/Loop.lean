import Mathlib

/-!
# Loops

A loop whose body is a partial step function: it ends where there is no step.
-/

namespace Limbo.Lib

variable {S : Type*} {step : S → Option S} {s s' t t' : S}

/-- The loop that starts at a state ends at another. -/
inductive Loop (step : S → Option S) : S → S → Prop
  | stop {s : S} (h : step s = none) : Loop step s s
  | next {s s' t : S} (h : step s = some s') (rest : Loop step s' t) : Loop step s t

namespace Loop

lemma of_none (h : step s = none) (hloop : Loop step s t) : t = s := by
  cases hloop with
  | stop => rfl
  | next h' => rw [h] at h'; cases h'

lemma of_some (h : step s = some s') (hloop : Loop step s t) : Loop step s' t := by
  cases hloop with
  | stop h' => rw [h] at h'; cases h'
  | next h' rest =>
    rw [h] at h'
    cases h'
    exact rest

lemma next_iff (h : step s = some s') : Loop step s t ↔ Loop step s' t :=
  ⟨of_some h, .next h⟩

lemma unique (h : Loop step s t) (h' : Loop step s t') : t = t' := by
  induction h with
  | stop h => exact (h'.of_none h).symm
  | next h _ ih => exact ih (h'.of_some h)

/-- A relation that every step keeps holds of the end. -/
lemma rel {R : S → S → Prop} (hrefl : ∀ s, R s s) (htrans : ∀ {s s' t}, R s s' → R s' t → R s t)
    (hstep : ∀ {s s'}, step s = some s' → R s s') (h : Loop step s t) : R s t := by
  induction h with
  | stop => exact hrefl _
  | next h _ ih => exact htrans (hstep h) ih

/-- The loop does not end while an invariant gives it a step. -/
lemma not_of_inv {I : S → Prop} (hstep : ∀ {s}, I s → ∃ s', step s = some s' ∧ I s') (hs : I s) :
    ¬ Loop step s t := by
  intro h
  induction h with
  | stop h =>
    obtain ⟨s', hs', -⟩ := hstep hs
    rw [h] at hs'
    cases hs'
  | next h _ ih =>
    obtain ⟨s', hs', hI⟩ := hstep hs
    rw [h] at hs'
    cases hs'
    exact ih hI

end Loop

/-- A counting loop ends if its turns succeed under an invariant that they carry on. -/
lemma foldlM_range {f : S → ℕ → Option S} {I : ℕ → S → Prop} {n : ℕ} (hs : I 0 s)
    (hstep : ∀ {i s}, i < n → I i s → ∃ s', f s i = some s' ∧ I (i + 1) s') :
    ∃ s', (List.range n).foldlM f s = some s' ∧ I n s' := by
  induction n with
  | zero => exact ⟨s, rfl, hs⟩
  | succ n ih =>
    obtain ⟨s', hs', hI⟩ := ih fun hi => hstep (Nat.lt_succ_of_lt hi)
    obtain ⟨s'', hs'', hI'⟩ := hstep n.lt_succ_self hI
    refine ⟨s'', ?_, hI'⟩
    rw [List.range_succ, List.foldlM_append, hs']
    simpa using hs''

end Limbo.Lib
