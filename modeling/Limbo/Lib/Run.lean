import Mathlib

/-!
# Runs of a partial step function

A component whose operations may fail to return is a step function into `Option`. A run is a
sequence of operations, each applied to the state the one before it left. The rules below are the
inductions over runs: an invariant, guarded in two ways, and a guarded simulation of an abstract
step function.
-/

namespace Limbo.Lib

variable {S A T : Type*}

/-- The state a sequence of operations leads to, if every one of them returns. -/
def run (step : S → A → Option S) (s : S) (as : List A) : Option S := as.foldlM step s

@[simp] lemma run_nil (step : S → A → Option S) (s : S) : run step s [] = some s := rfl

/-- A run of at least one operation is its first step followed by the rest. -/
lemma run_cons {step : S → A → Option S} {s s' : S} {a : A} {as : List A} :
    run step s (a :: as) = some s' ↔ ∃ m, step s a = some m ∧ run step m as = some s' := by
  simp [run, Option.bind_eq_some_iff]

/-- A run goes on from where its first step leads. -/
lemma run_of_step {step : S → A → Option S} {s m : S} {a : A} {as : List A}
    (h : step s a = some m) : run step s (a :: as) = run step m as := by
  simp [run, h]

/-- A step function that returns wherever another one does, with the same result, has its runs. -/
lemma run_mono {step step' : S → A → Option S}
    (hstep : ∀ s a s', step s a = some s' → step' s a = some s') {s s' : S} {as : List A}
    (h : run step s as = some s') : run step' s as = some s' := by
  induction as generalizing s with
  | nil => exact h
  | cons a as ih =>
    obtain ⟨m, hm, hrest⟩ := run_cons.mp h
    exact run_cons.mpr ⟨m, hstep s a m hm, ih hrest⟩

/-- Every operation of the run meets `ok` in the state it is applied to. -/
def Guarded (step : S → A → Option S) (ok : S → A → Prop) : S → List A → Prop
  | _, [] => True
  | s, a :: as => ok s a ∧ ∀ s', step s a = some s' → Guarded step ok s' as

/-- Only the state an operation leads to, if there is one, is asked about. -/
lemma guarded_cons {step : S → A → Option S} {ok : S → A → Prop} {s : S} {a : A} {as : List A} :
    Guarded step ok s (a :: as) ↔
      ok s a ∧ ((step s a).elim True fun s' => Guarded step ok s' as) := by
  cases h : step s a <;> simp [Guarded, h]

instance Guarded.decidable {step : S → A → Option S} {ok : S → A → Prop}
    [∀ s a, Decidable (ok s a)] : (s : S) → (as : List A) → Decidable (Guarded step ok s as)
  | _, [] => .isTrue trivial
  | s, a :: as =>
    have : Decidable ((step s a).elim True fun s' => Guarded step ok s' as) :=
      match step s a with
      | none => .isTrue trivial
      | some s' => Guarded.decidable s' as
    decidable_of_iff' _ guarded_cons

/-- What every operation preserves holds at the end of a run. -/
theorem run_invariant {step : S → A → Option S} {I : S → Prop}
    (hstep : ∀ s a s', I s → step s a = some s' → I s') {s s' : S} {as : List A}
    (hs : I s) (h : run step s as = some s') : I s' := by
  induction as generalizing s with
  | nil =>
    rw [run_nil, Option.some.injEq] at h
    exact h ▸ hs
  | cons a as ih =>
    obtain ⟨m, hm, hrest⟩ := run_cons.mp h
    exact ih (hstep s a m hs hm) hrest

/-- What every operation whose arguments meet `P` preserves holds at the end of a run of such
operations. -/
theorem run_invariant_of_args {step : S → A → Option S} {I : S → Prop} {P : A → Prop}
    (hstep : ∀ s a s', I s → P a → step s a = some s' → I s') {s s' : S} {as : List A}
    (hs : I s) (hP : ∀ a ∈ as, P a) (h : run step s as = some s') : I s' := by
  induction as generalizing s with
  | nil =>
    rw [run_nil, Option.some.injEq] at h
    exact h ▸ hs
  | cons a as ih =>
    obtain ⟨m, hm, hrest⟩ := run_cons.mp h
    exact ih (hstep s a m hs (hP a List.mem_cons_self) hm)
      (fun b hb => hP b (List.mem_cons_of_mem _ hb)) hrest

/-- What every guarded operation preserves holds at the end of a run of guarded operations. -/
theorem run_invariant_of_guarded {step : S → A → Option S} {ok : S → A → Prop} {I : S → Prop}
    (hstep : ∀ s a s', I s → ok s a → step s a = some s' → I s') {s s' : S} {as : List A}
    (hs : I s) (hok : Guarded step ok s as) (h : run step s as = some s') : I s' := by
  induction as generalizing s with
  | nil =>
    rw [run_nil, Option.some.injEq] at h
    exact h ▸ hs
  | cons a as ih =>
    obtain ⟨m, hm, hrest⟩ := run_cons.mp h
    exact ih (hstep s a m hs hok.1 hm) (hok.2 m hm) hrest

/-- Guarded operations that return and keep an invariant make a run that returns and keeps it. -/
theorem run_returns_of_guarded {step : S → A → Option S} {ok : S → A → Prop} {I : S → Prop}
    (hstep : ∀ s a, I s → ok s a → ∃ s', step s a = some s' ∧ I s') {s : S} {as : List A}
    (hs : I s) (hok : Guarded step ok s as) : ∃ s', run step s as = some s' ∧ I s' := by
  induction as generalizing s with
  | nil => exact ⟨s, rfl, hs⟩
  | cons a as ih =>
    obtain ⟨m, hm, hI⟩ := hstep s a hs hok.1
    rw [run_of_step hm]
    exact ih hI (hok.2 m hm)

/-- What does not hold at the start and holds at the end came about in a step of the run. -/
theorem exists_step_of_run {step : S → A → Option S} {Q : S → Prop} {s s' : S} {as : List A}
    (hs : ¬ Q s) (h : run step s as = some s') (hs' : Q s') :
    ∃ pre a post m m', as = pre ++ a :: post ∧ run step s pre = some m ∧ step m a = some m' ∧
      ¬ Q m ∧ Q m' := by
  induction as generalizing s with
  | nil =>
    rw [run_nil, Option.some.injEq] at h
    exact absurd (h ▸ hs') hs
  | cons a as ih =>
    obtain ⟨m, hm, hrest⟩ := run_cons.mp h
    by_cases hQ : Q m
    · exact ⟨[], a, as, s, m, rfl, rfl, hm, hs, hQ⟩
    · obtain ⟨pre, b, post, n, n', rfl, hpre, hn⟩ := ih hQ hrest
      exact ⟨a :: pre, b, post, n, n', rfl, run_cons.mpr ⟨m, hm, hpre⟩, hn⟩

/-- The start of a guarded run is guarded. -/
lemma Guarded.append_left {step : S → A → Option S} {ok : S → A → Prop} {s : S} {as bs : List A}
    (h : Guarded step ok s (as ++ bs)) : Guarded step ok s as := by
  induction as generalizing s with
  | nil => trivial
  | cons a as ih => exact ⟨h.1, fun m hm => ih (h.2 m hm)⟩

/-- A concrete run simulates the abstract one step for step: if each guarded step keeps the
invariant `I` and the abstraction `abs` commutes with it, the abstraction of the final state is
the abstract fold. -/
theorem run_simulates {step : S → A → Option S} {ok : S → A → Prop} {I : S → Prop}
    {abs : S → T} {astep : T → A → T}
    (hI : ∀ s a s', I s → step s a = some s' → I s')
    (hsim : ∀ s a s', I s → ok s a → step s a = some s' → abs s' = astep (abs s) a)
    {s s' : S} {as : List A} (hs : I s) (hok : Guarded step ok s as)
    (h : run step s as = some s') : abs s' = as.foldl astep (abs s) := by
  induction as generalizing s with
  | nil =>
    rw [run_nil, Option.some.injEq] at h
    simp [h]
  | cons a as ih =>
    obtain ⟨m, hm, hrest⟩ := run_cons.mp h
    rw [List.foldl_cons, ← hsim s a m hs hok.1 hm]
    exact ih (hI s a m hs hm) (hok.2 m hm) hrest

end Limbo.Lib
