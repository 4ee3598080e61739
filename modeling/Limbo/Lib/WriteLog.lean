import Mathlib

/-!
# Programs that write an array

A program over a state with an array in it that it writes and never reads: what it does with the
rest of the state, the `core`, does not depend on the array, and what it does to the array is a
list of writes. `Does` says which writes these are, and `Fails` that the program throws; both are
closed under sequence and loops. Where the writes of a program go, and what they leave in a cell,
is then a question about a list.
-/

namespace Limbo.Lib

/-! ### Lists of writes -/

section Writes

variable {α : Type*}

/-- One write, if its index is one of the array. -/
def writeAt (a : List α) (w : ℤ × α) : Option (List α) :=
  if 0 ≤ w.1 ∧ w.1 < a.length then some (a.set w.1.toNat w.2) else none

/-- All writes in order, if all their indices are in the array. -/
def applyWrites (ws : List (ℤ × α)) (a : List α) : Option (List α) := ws.foldlM writeAt a

/-- What the last write to a cell leaves there. -/
def lastWrite : List (ℤ × α) → ℤ → Option α
  | [], _ => none
  | w :: ws, i => (lastWrite ws i).or (if w.1 = i then some w.2 else none)

variable {a b : List α} {ws ws' : List (ℤ × α)}

@[simp] lemma applyWrites_nil : applyWrites [] a = some a := rfl

lemma applyWrites_cons (w : ℤ × α) :
    applyWrites (w :: ws) a = (writeAt a w).bind (applyWrites ws) := List.foldlM_cons

lemma applyWrites_append :
    applyWrites (ws ++ ws') a = (applyWrites ws a).bind (applyWrites ws') := List.foldlM_append

lemma length_writeAt {w : ℤ × α} (h : writeAt a w = some b) : b.length = a.length := by
  unfold writeAt at h
  split_ifs at h
  cases h
  rw [List.length_set]

lemma length_applyWrites (h : applyWrites ws a = some b) : b.length = a.length := by
  induction ws generalizing a with
  | nil =>
    cases h
    rfl
  | cons w ws ih =>
    rw [applyWrites_cons] at h
    obtain ⟨m, hm, hrest⟩ := Option.bind_eq_some_iff.mp h
    rw [ih hrest, length_writeAt hm]

/-- The writes go through when all their indices are in the array. -/
lemma applyWrites_ne_none :
    applyWrites ws a ≠ none ↔ ∀ w ∈ ws, 0 ≤ w.1 ∧ w.1 < a.length := by
  induction ws generalizing a with
  | nil => simp
  | cons w ws ih =>
    rw [applyWrites_cons, List.forall_mem_cons]
    by_cases hw : 0 ≤ w.1 ∧ w.1 < a.length
    · have hm : writeAt a w = some (a.set w.1.toNat w.2) := if_pos hw
      rw [hm, Option.bind_some, ih, List.length_set]
      exact ⟨fun h => ⟨hw, h⟩, fun h => h.2⟩
    · have hm : writeAt a w = none := if_neg hw
      rw [hm, Option.bind_none]
      exact iff_of_false (fun h => h rfl) fun h => hw h.1

lemma flatMap_range_getElem? {β γ : Type*} (as : List β) (f : β → List γ) :
    ((List.range as.length).flatMap fun i => as[i]?.elim [] f) = as.flatMap f := by
  induction as using List.reverseRecOn with
  | nil => rfl
  | append_singleton as b ih =>
    rw [List.length_append, List.length_singleton, List.range_succ, List.flatMap_append,
      List.flatMap_append, ← ih]
    congr 1
    · apply List.flatMap_congr
      intro i hi
      rw [List.getElem?_append_left (List.mem_range.mp hi)]
    · simp

lemma lastWrite_append (i : ℤ) :
    lastWrite (ws ++ ws') i = (lastWrite ws' i).or (lastWrite ws i) := by
  induction ws with
  | nil => simp [lastWrite]
  | cons w ws ih => rw [List.cons_append, lastWrite, lastWrite, ih, Option.or_assoc]

lemma lastWrite_eq_none {i : ℤ} : lastWrite ws i = none ↔ ∀ w ∈ ws, w.1 ≠ i := by
  induction ws with
  | nil => simp [lastWrite]
  | cons w ws ih =>
    rw [lastWrite, Option.or_eq_none_iff, ih, List.forall_mem_cons, and_comm]
    simp

lemma mem_of_lastWrite {i : ℤ} {x : α} (h : lastWrite ws i = some x) : (i, x) ∈ ws := by
  induction ws with
  | nil => cases h
  | cons w ws ih =>
    rw [lastWrite, Option.or_eq_some_iff] at h
    rcases h with hlast | ⟨-, hw⟩
    · exact List.mem_cons_of_mem _ (ih hlast)
    · split_ifs at hw with hi
      cases hw
      exact hi ▸ List.mem_cons_self

/-- A cell that is written with one value only. -/
lemma lastWrite_eq_some {i : ℤ} {x : α} (hmem : (i, x) ∈ ws) (hone : ∀ w ∈ ws, w.1 = i → w.2 = x) :
    lastWrite ws i = some x := by
  cases hlast : lastWrite ws i with
  | none => exact absurd rfl (lastWrite_eq_none.mp hlast _ hmem)
  | some y =>
    have hy : y = x := hone _ (mem_of_lastWrite hlast) rfl
    rw [hy]

/-- A cell holds what was last written to it, or what it held. -/
theorem getElem?_applyWrites (h : applyWrites ws a = some b) (i : ℕ) :
    b[i]? = (lastWrite ws i).or a[i]? := by
  induction ws generalizing a with
  | nil =>
    cases h
    rfl
  | cons w ws ih =>
    rw [applyWrites_cons] at h
    obtain ⟨m, hm, hrest⟩ := Option.bind_eq_some_iff.mp h
    rw [ih hrest, lastWrite, Option.or_assoc]
    congr 1
    unfold writeAt at hm
    split_ifs at hm with hw
    cases hm
    by_cases hi : w.1 = i
    · have hn : w.1.toNat = i := by omega
      have hlt : i < a.length := by omega
      rw [if_pos hi, hn, List.getElem?_set_self hlt, Option.some_or]
    · have hn : w.1.toNat ≠ i := by omega
      rw [if_neg hi, List.getElem?_set_ne hn, Option.none_or]

/-- Writes that leave the cells outside a region alone, whatever these hold, are writes to the
region. -/
theorem unchanged_iff [Nontrivial α] {R : ℤ → Prop} (hok : applyWrites ws a ≠ none) :
    (∀ a', a'.length = a.length → ∀ b, applyWrites ws a' = some b →
      ∀ i : ℕ, ¬ R i → b[i]? = a'[i]?) ↔ ∀ w ∈ ws, R w.1 := by
  constructor
  · intro h w hw
    by_contra hout
    -- an array whose cell differs from what the last write leaves there
    have hin := applyWrites_ne_none.mp hok
    obtain ⟨hlow, hhigh⟩ := hin w hw
    obtain ⟨i, hi⟩ := Int.eq_ofNat_of_zero_le hlow
    obtain ⟨c, hc⟩ : ∃ c, lastWrite ws i = some c := by
      apply Option.ne_none_iff_exists'.mp
      intro hnone
      exact lastWrite_eq_none.mp hnone w hw hi
    obtain ⟨d, hd⟩ := exists_ne c
    have hlen : (a.set i d).length = a.length := List.length_set
    have hin' : applyWrites ws (a.set i d) ≠ none := by
      apply applyWrites_ne_none.mpr
      rw [hlen]
      exact hin
    obtain ⟨b, hb⟩ := Option.ne_none_iff_exists'.mp hin'
    have hsame := h (a.set i d) hlen b hb i (by rw [← hi]; exact hout)
    have hlt : i < a.length := by omega
    rw [getElem?_applyWrites hb, hc, Option.some_or, List.getElem?_set_self hlt] at hsame
    exact hd (Option.some.inj hsame).symm
  · intro h a' _ b hb i hi
    have hnone : lastWrite ws i = none := by
      apply lastWrite_eq_none.mpr
      intro w hw heq
      exact hi (heq ▸ h w hw)
    rw [getElem?_applyWrites hb, hnone, Option.none_or]

end Writes

/-! ### Programs -/

section Programs

variable {ε S V α β γ : Type} (core : S → V) (array : S → List α)

/-- The program throws in every state with the core `v`. -/
def Fails (x : EStateM ε S β) (v : V) : Prop :=
  ∀ s, core s = v → ∃ e t, x s = .error e t

/-- From a state with the core `v` the program makes the writes `ws` and returns `b` with the core
`v'`, or throws if one of the writes is outside the array. -/
structure Does (x : EStateM ε S β) (v : V) (ws : List (ℤ × α)) (b : β) (v' : V) : Prop where
  returns : ∀ s a, core s = v → applyWrites ws (array s) = some a →
    ∃ t, x s = .ok b t ∧ core t = v' ∧ array t = a
  throws : ∀ s, core s = v → applyWrites ws (array s) = none → ∃ e t, x s = .error e t

variable {core} {array}

lemma bind_ok {x : EStateM ε S β} {f : β → EStateM ε S γ} {s t : S} {b : β}
    (h : x s = .ok b t) : (x >>= f) s = f b t := by
  show EStateM.bind x f s = _
  rw [EStateM.bind, h]

lemma bind_error {x : EStateM ε S β} {f : β → EStateM ε S γ} {s t : S} {e : ε}
    (h : x s = .error e t) : (x >>= f) s = .error e t := by
  show EStateM.bind x f s = _
  rw [EStateM.bind, h]

/-- A sequence that returns has two parts that return. -/
lemma ok_of_bind {x : EStateM ε S β} {f : β → EStateM ε S γ} {s t : S} {d : γ}
    (h : (x >>= f) s = .ok d t) : ∃ b s', x s = .ok b s' ∧ f b s' = .ok d t := by
  cases hx : x s with
  | ok b s' => exact ⟨b, s', rfl, by rwa [bind_ok hx] at h⟩
  | error e s' =>
    rw [bind_error hx] at h
    cases h

lemma Does.pure (b : β) (v : V) :
    Does core array (Pure.pure b : EStateM ε S β) v [] b v where
  returns := by
    rintro s a hs h
    cases h
    exact ⟨s, rfl, hs, rfl⟩
  throws := by
    rintro s - h
    cases h

/-- A program that leaves the array alone. -/
lemma Does.of_eq {x : EStateM ε S β} {v v' : V} {b : β}
    (h : ∀ s, core s = v → ∃ t, x s = .ok b t ∧ core t = v' ∧ array t = array s) :
    Does core array x v [] b v' where
  returns := by
    rintro s a hs ha
    cases ha
    exact h s hs
  throws := by
    rintro s - h
    cases h

lemma Does.bind {x : EStateM ε S β} {f : β → EStateM ε S γ} {v v₁ v₂ : V}
    {ws ws' : List (ℤ × α)} {b : β} {c : γ} (hx : Does core array x v ws b v₁)
    (hf : Does core array (f b) v₁ ws' c v₂) : Does core array (x >>= f) v (ws ++ ws') c v₂ where
  returns := by
    intro s a hs h
    rw [applyWrites_append] at h
    obtain ⟨m, hm, hrest⟩ := Option.bind_eq_some_iff.mp h
    obtain ⟨t, ht, hcore, harray⟩ := hx.returns s m hs hm
    rw [bind_ok ht]
    exact hf.returns t a hcore (by rw [harray, hrest])
  throws := by
    intro s hs h
    rw [applyWrites_append] at h
    cases hm : applyWrites ws (array s) with
    | none =>
      obtain ⟨e, t, ht⟩ := hx.throws s hs hm
      exact ⟨e, t, bind_error ht⟩
    | some m =>
      rw [hm, Option.bind_some] at h
      obtain ⟨t, ht, hcore, harray⟩ := hx.returns s m hs hm
      rw [bind_ok ht]
      exact hf.throws t hcore (by rw [harray, h])

/-- A read in front of a program. -/
lemma Does.bind_read {x : EStateM ε S β} {f : β → EStateM ε S γ} {v v₁ v₂ : V}
    {ws : List (ℤ × α)} {b : β} {c : γ} (hx : Does core array x v [] b v₁)
    (hf : Does core array (f b) v₁ ws c v₂) : Does core array (x >>= f) v ws c v₂ := hx.bind hf

/-- A program that writes nothing behind another one. -/
lemma Does.bind_silent {x : EStateM ε S β} {f : β → EStateM ε S γ} {v v₁ v₂ : V}
    {ws : List (ℤ × α)} {b : β} {c : γ} (hx : Does core array x v ws b v₁)
    (hf : Does core array (f b) v₁ [] c v₂) : Does core array (x >>= f) v ws c v₂ := by
  have h := hx.bind hf
  rwa [List.append_nil] at h

lemma Fails.bind {x : EStateM ε S β} {v : V} (hx : Fails core x v) (f : β → EStateM ε S γ) :
    Fails core (x >>= f) v := by
  intro s hs
  obtain ⟨e, t, ht⟩ := hx s hs
  exact ⟨e, t, bind_error ht⟩

lemma Does.bind_fails {x : EStateM ε S β} {f : β → EStateM ε S γ} {v v₁ : V}
    {ws : List (ℤ × α)} {b : β} (hx : Does core array x v ws b v₁) (hf : Fails core (f b) v₁) :
    Fails core (x >>= f) v := by
  intro s hs
  cases hm : applyWrites ws (array s) with
  | none =>
    obtain ⟨e, t, ht⟩ := hx.throws s hs hm
    exact ⟨e, t, bind_error ht⟩
  | some m =>
    obtain ⟨t, ht, hcore, -⟩ := hx.returns s m hs hm
    rw [bind_ok ht]
    exact hf t hcore

/-- A run that returns has made all the writes. -/
lemma Does.of_ok {x : EStateM ε S β} {v v' : V} {ws : List (ℤ × α)} {b c : β} {s t : S}
    (hx : Does core array x v ws b v') (hs : core s = v) (h : x s = .ok c t) :
    c = b ∧ core t = v' ∧ applyWrites ws (array s) = some (array t) := by
  cases hm : applyWrites ws (array s) with
  | none =>
    obtain ⟨e, t', ht⟩ := hx.throws s hs hm
    rw [h] at ht
    cases ht
  | some m =>
    obtain ⟨t', ht, hcore, harray⟩ := hx.returns s m hs hm
    rw [h] at ht
    cases ht
    exact ⟨rfl, hcore, by rw [harray]⟩

/-! ### Loops -/

/-- `for (i = 0; i < n; i++) f(i)`. -/
def loop : ℕ → (ℕ → EStateM ε S Unit) → EStateM ε S Unit
  | 0, _ => Pure.pure ()
  | n + 1, f => loop n f >>= fun _ => f n

/-- A loop makes the writes of its rounds; `J` is what holds in front of each round, given the
writes made so far. -/
theorem loop_settles {n : ℕ} {f : ℕ → EStateM ε S Unit} {J : ℕ → List (ℤ × α) → V → Prop}
    (hround : ∀ i ws v, i < n → J i ws v →
      Fails core (f i) v ∨ ∃ ws' v', Does core array (f i) v ws' () v' ∧ J (i + 1) (ws ++ ws') v')
    {v : V} (hstart : J 0 [] v) :
    Fails core (loop n f) v ∨ ∃ ws v', Does core array (loop n f) v ws () v' ∧ J n ws v' := by
  induction n with
  | zero => exact .inr ⟨[], v, Does.pure () v, hstart⟩
  | succ n ih =>
    rcases ih fun i ws v hi => hround i ws v (Nat.lt_succ_of_lt hi) with hfail | ⟨ws, v', hdo, hJ⟩
    · exact .inl (hfail.bind _)
    · rcases hround n ws v' n.lt_succ_self hJ with hfail | ⟨ws', v'', hdo', hJ'⟩
      · exact .inl (hdo.bind_fails hfail)
      · exact .inr ⟨ws ++ ws', v'', hdo.bind hdo', hJ'⟩

/-- A loop with a round that throws; the rounds in front of it keep the core, or throw as well. -/
lemma loop_fails {n i : ℕ} {f : ℕ → EStateM ε S Unit} {v : V} (hi : i < n)
    (hkeeps : ∀ j < i, Fails core (f j) v ∨ ∃ ws, Does core array (f j) v ws () v)
    (hfail : Fails core (f i) v) : Fails core (loop n f) v := by
  induction n with
  | zero => exact absurd hi (Nat.not_lt_zero i)
  | succ n ih =>
    rcases Nat.lt_succ_iff_lt_or_eq.mp hi with hlt | rfl
    · exact (ih hlt).bind _
    · have hround : ∀ j (_ : List (ℤ × α)) v', j < i → v' = v →
          Fails core (f j) v' ∨ ∃ ws' v'', Does core array (f j) v' ws' () v'' ∧ v'' = v := by
        rintro j - v' hj rfl
        exact (hkeeps j hj).imp_right fun ⟨ws', hdo⟩ => ⟨ws', v', hdo, rfl⟩
      rcases loop_settles (J := fun _ (_ : List (ℤ × α)) v' => v' = v) hround rfl with
        hfail' | ⟨ws, v', hdo, rfl⟩
      · exact hfail'.bind _
      · exact hdo.bind_fails hfail

/-- A loop none of whose rounds throws by itself; the writes of a round are known. -/
theorem Does.loop {n : ℕ} {f : ℕ → EStateM ε S Unit} {J : ℕ → V → Prop}
    {ws : ℕ → List (ℤ × α)}
    (hround : ∀ i v, i < n → J i v → ∃ v', Does core array (f i) v (ws i) () v' ∧ J (i + 1) v')
    {v : V} (hstart : J 0 v) :
    ∃ v', Does core array (loop n f) v ((List.range n).flatMap ws) () v' ∧ J n v' := by
  induction n with
  | zero => exact ⟨v, Does.pure () v, hstart⟩
  | succ n ih =>
    obtain ⟨v', hdo, hJ⟩ := ih fun i v hi => hround i v (Nat.lt_succ_of_lt hi)
    obtain ⟨v'', hdo', hJ'⟩ := hround n v' n.lt_succ_self hJ
    refine ⟨v'', ?_, hJ'⟩
    rw [List.range_succ, List.flatMap_append, List.flatMap_singleton]
    exact hdo.bind hdo'

/-- A loop whose states are known. -/
theorem Does.loop_states {n : ℕ} {f : ℕ → EStateM ε S Unit} {ws : ℕ → List (ℤ × α)} (v : ℕ → V)
    (hround : ∀ i < n, Does core array (f i) (v i) (ws i) () (v (i + 1))) :
    Does core array (Lib.loop n f) (v 0) ((List.range n).flatMap ws) () (v n) := by
  have hround' : ∀ i v', i < n → v' = v i →
      ∃ v'', Does core array (f i) v' (ws i) () v'' ∧ v'' = v (i + 1) := by
    rintro i v' hi rfl
    exact ⟨_, hround i hi, rfl⟩
  obtain ⟨v', hdo, rfl⟩ := Does.loop hround' rfl
  exact hdo

lemma nested_index_lt {m n r k : ℕ} (hr : r < m) (hk : k < n) : r * n + k < m * n := by
  calc r * n + k < (r + 1) * n := by rw [Nat.succ_mul]; omega
    _ ≤ m * n := Nat.mul_le_mul_right _ hr

/-- A loop in a loop, with one count of all rounds, where the writes are known. -/
theorem Does.nested {m n : ℕ} {f : ℕ → ℕ → EStateM ε S Unit} {J : ℕ → V → Prop}
    {ws : ℕ → ℕ → List (ℤ × α)}
    (hround : ∀ r < m, ∀ k < n, ∀ v, J (r * n + k) v →
      ∃ v', Does core array (f r k) v (ws r k) () v' ∧ J (r * n + k + 1) v')
    {v : V} (hstart : J 0 v) :
    ∃ v', Does core array (Lib.loop m fun r => Lib.loop n (f r)) v
      ((List.range m).flatMap fun r => (List.range n).flatMap (ws r)) () v' ∧ J (m * n) v' := by
  have hrow : ∀ r v, r < m → J (r * n) v →
      ∃ v', Does core array (Lib.loop n (f r)) v ((List.range n).flatMap (ws r)) () v' ∧
        J ((r + 1) * n) v' := by
    intro r v hr hJ
    rw [Nat.succ_mul]
    exact Does.loop (fun k v hk => hround r hr k hk v) hJ
  have hloop := Does.loop hrow (v := v) (by rwa [Nat.zero_mul])
  exact hloop

/-- A loop in a loop, with one count of all rounds, that throws or makes some writes. -/
theorem nested_settles {m n : ℕ} {f : ℕ → ℕ → EStateM ε S Unit} {J : ℕ → V → Prop}
    (hround : ∀ r < m, ∀ k < n, ∀ v, J (r * n + k) v → Fails core (f r k) v ∨
      ∃ ws v', Does core array (f r k) v ws () v' ∧ J (r * n + k + 1) v')
    {v : V} (hstart : J 0 v) :
    Fails core (loop m fun r => loop n (f r)) v ∨
      ∃ ws v', Does core array (loop m fun r => loop n (f r)) v ws () v' ∧ J (m * n) v' := by
  have hrow : ∀ r (_ : List (ℤ × α)) v, r < m → J (r * n) v →
      Fails core (loop n (f r)) v ∨
        ∃ ws v', Does core array (loop n (f r)) v ws () v' ∧ J ((r + 1) * n) v' := by
    intro r _ v hr hJ
    rw [Nat.succ_mul]
    exact loop_settles (J := fun k (_ : List (ℤ × α)) v => J (r * n + k) v)
      (fun k _ v hk => hround r hr k hk v) hJ
  exact loop_settles (J := fun r (_ : List (ℤ × α)) v => J (r * n) v) hrow (by rwa [Nat.zero_mul])

/-- A loop in a loop, with one count of all rounds. -/
theorem Does.loop_nested {m n : ℕ} {f : ℕ → ℕ → EStateM ε S Unit} {ws : ℕ → ℕ → List (ℤ × α)}
    (v : ℕ → V) (hround : ∀ r < m, ∀ k < n,
      Does core array (f r k) (v (r * n + k)) (ws r k) () (v (r * n + k + 1))) :
    Does core array (Lib.loop m fun r => Lib.loop n (f r)) (v 0)
      ((List.range m).flatMap fun r => (List.range n).flatMap (ws r)) () (v (m * n)) := by
  have hrow : ∀ r < m, Does core array (Lib.loop n (f r)) (v (r * n))
      ((List.range n).flatMap (ws r)) () (v ((r + 1) * n)) := by
    intro r hr
    rw [Nat.succ_mul]
    exact Does.loop_states (fun k => v (r * n + k)) (hround r hr)
  have hloop := Does.loop_states (fun r => v (r * n)) hrow
  rwa [Nat.zero_mul] at hloop

/-- A loop whose rounds keep the core. -/
lemma Does.loop_keeps {n : ℕ} {f : ℕ → EStateM ε S Unit} {ws : ℕ → List (ℤ × α)} {v : V}
    (hround : ∀ i < n, Does core array (f i) v (ws i) () v) :
    Does core array (Lib.loop n f) v ((List.range n).flatMap ws) () v :=
  Does.loop_states (fun _ => v) hround

end Programs

end Limbo.Lib
