import Limbo.Lib.Run
import Limbo.Machines.Csv

/-!
# The shared connection

Every call on the `MachineOpenHelper` obtains the one connection that the helper keeps, runs its
statement on it and closes it. A connection is open for all calls or closed for all, and a statement
on a closed one is an exception. Calls of any number of threads are interleaved.
-/

namespace Limbo.Machines.Connection

open Lib

/-! ### The calls -/

/-- What a query returns. -/
inductive Answer where
  | machine (m : Option Machine)
  | file (text : Text)
deriving DecidableEq

/-- How a statement ends. -/
inductive Outcome where
  | done
  | answer (a : Answer)
  /-- An exception that the method catches and logs. -/
  | failed
  /-- An exception that leaves the method. -/
  | thrown
deriving DecidableEq

/-- The calls on the helper. -/
inductive Call where
  | insertMachine (m : Machine) (now : Text)
  | update (m : Machine) (colname : Column) (value : Option Text)
  | updateStatus (m : Machine) (status : Int32) (now : Text)
  | deleteMachine (m : Machine)
  | getMachine (machine snapshot : Option Text)
  | exportMachines

/-- The methods declared `synchronized`. -/
def Call.isSynchronized : Call → Bool
  | insertMachine _ _ | updateStatus _ _ _ => true
  | _ => false

/-- The calls that change the table. -/
def Call.modifies : Call → Bool
  | getMachine _ _ | exportMachines => false
  | _ => true

/-- The methods that go on when the connection is closed. The queries catch nothing, and `update`
ends its transaction in `finally`, which is an exception again. -/
def Call.catches : Call → Bool
  | insertMachine _ _ | updateStatus _ _ _ | deleteMachine _ => true
  | _ => false

section Calls

variable (db : SQLite)

/-- The table behind the statement. -/
def Call.effect (t : Table) : Call → Table
  | insertMachine m now => Machines.insertMachine db m now t
  | update m colname value => Machines.update db m colname value t
  | updateStatus m status now => Machines.updateStatus db m status now t
  | deleteMachine m => Machines.deleteMachine db m t
  | getMachine _ _ | exportMachines => t

/-- How the statement ends on an open connection. -/
def Call.outcome (t : Table) : Call → Outcome
  | getMachine machine snapshot =>
    match Machines.getMachine db machine snapshot t with
    | none => .thrown
    | some m => .answer (.machine m)
  | exportMachines => .answer (.file (Machines.exportMachines t))
  | _ => .done

end Calls

/-! ### The helper -/

/-- Where a call is. -/
inductive Phase where
  | idle
  /-- It has obtained a connection. -/
  | obtained (g : ℕ)
  /-- Its statement has ended, and the connection is to be closed. -/
  | ran (g : ℕ) (o : Outcome)
  | ended (o : Outcome)
deriving DecidableEq

/-- The phase behind a statement: an exception that is not caught passes over the closing. -/
def Phase.after (g : ℕ) : Outcome → Phase
  | .thrown => .ended .thrown
  | o => .ran g o

/-- How the statement of the call has ended. -/
def Phase.outcome : Phase → Option Outcome
  | idle | obtained _ => none
  | ran _ o | ended o => some o

variable {ι : Type*} [DecidableEq ι]

/-- The table, the connection that the helper keeps, with a number for each that was opened, the
monitor of the helper and the calls. `applied` lists the calls whose statement changed the table. -/
structure Helper (ι : Type*) where
  table : Table
  connection : ℕ
  isOpen : Bool
  monitor : Option ι
  phase : ι → Phase
  applied : List ι

/-- No call has been made. -/
def Helper.init (ι : Type*) (t : Table) : Helper ι := ⟨t, 0, false, none, fun _ => .idle, []⟩

/-- Call `i` goes on to `p`. -/
def Helper.goto (s : Helper ι) (i : ι) (p : Phase) : Helper ι :=
  { s with phase := Function.update s.phase i p }

/-- `getWritableDatabase` and `getReadableDatabase`: the connection that is open, or a new one. A
synchronized method holds the monitor from here on. -/
def Helper.getDatabase (s : Helper ι) (c : Call) (i : ι) : Helper ι :=
  let g := if s.isOpen then s.connection else s.connection + 1
  { s.goto i (.obtained g) with
    connection := g
    isOpen := true
    monitor := if c.isSynchronized then some i else none }

/-- The statement, on the connection that was obtained. -/
def Helper.execute (db : SQLite) (s : Helper ι) (c : Call) (i : ι) (g : ℕ) : Helper ι :=
  if s.isOpen = true ∧ s.connection = g then
    { s.goto i (.after g (c.outcome db s.table)) with
      table := c.effect db s.table
      applied := if c.modifies then s.applied ++ [i] else s.applied }
  else s.goto i (.after g (if c.catches then .failed else .thrown))

/-- `db.close()`, for all that use the connection. -/
def Helper.close (s : Helper ι) (i : ι) (g : ℕ) (o : Outcome) : Helper ι :=
  { s.goto i (.ended o) with
    isOpen := s.isOpen && s.connection ≠ g
    monitor := if s.monitor = some i then none else s.monitor }

/-- The next step of call `i`. The database is obtained under the monitor of the helper. -/
def step (db : SQLite) (calls : ι → Call) (s : Helper ι) (i : ι) : Option (Helper ι) :=
  match s.phase i with
  | .idle => if s.monitor = none then some (s.getDatabase (calls i) i) else none
  | .obtained g => some (s.execute db (calls i) i g)
  | .ran g o => some (s.close i g o)
  | .ended _ => none

/-! ### Nothing is lost -/

/-- The changes took effect one after the other, each of them once, and the answers are those of the
table at a moment between obtaining the connection and closing it. -/
structure NoneLost (db : SQLite) (calls : ι → Call) (t : Table) (schedule : List ι)
    (s : Helper ι) : Prop where
  table : s.table = s.applied.foldl (fun t i => (calls i).effect db t) t
  modified : ∀ i o, s.phase i = .ended o → (calls i).modifies = true →
    o = .done ∧ s.applied.count i = 1
  atMostOnce : ∀ i, s.applied.count i ≤ 1
  answered : ∀ i o, s.phase i = .ended o → (calls i).modifies = false →
    ∃ pre post m g, schedule = pre ++ i :: post ∧
      run (step db calls) (.init ι t) pre = some m ∧ m.phase i = .obtained g ∧
        o = (calls i).outcome db m.table

/-- The step does not close a connection that another call has obtained and not used. -/
def InOrder (s : Helper ι) (i : ι) : Prop :=
  match s.phase i with
  | .ran g _ => s.isOpen = true → s.connection = g → ∀ j, s.phase j ≠ .obtained g
  | _ => True

section Valid

variable {db : SQLite} {calls : ι → Call} {t : Table} {s s' : Helper ι} {i : ι}

/-- The steps of a call. -/
inductive StepsTo (db : SQLite) (calls : ι → Call) (s : Helper ι) (i : ι) : Helper ι → Prop where
  | getDatabase (hi : s.phase i = .idle) : StepsTo db calls s i (s.getDatabase (calls i) i)
  | execute {g : ℕ} (hi : s.phase i = .obtained g) :
      StepsTo db calls s i (s.execute db (calls i) i g)
  | close {g : ℕ} {o : Outcome} (hi : s.phase i = .ran g o) :
      StepsTo db calls s i (s.close i g o)

lemma StepsTo.of_step (h : step db calls s i = some s') : StepsTo db calls s i s' := by
  unfold step at h
  cases hi : s.phase i with
  | idle =>
    rw [hi] at h
    obtain ⟨-, h⟩ := Option.ite_none_right_eq_some.mp h
    obtain rfl := Option.some.inj h
    exact .getDatabase hi
  | obtained g =>
    rw [hi] at h
    obtain rfl := Option.some.inj h
    exact .execute hi
  | ran g o =>
    rw [hi] at h
    obtain rfl := Option.some.inj h
    exact .close hi
  | ended o =>
    rw [hi] at h
    cases h

lemma outcome_after (g : ℕ) (o : Outcome) : (Phase.after g o).outcome = some o := by
  cases o <;> rfl

lemma after_ne_obtained (g g' : ℕ) (o : Outcome) : Phase.after g o ≠ .obtained g' := by
  cases o <;> exact Phase.noConfusion

lemma outcome_of_modifies {c : Call} (h : c.modifies = true) : c.outcome db t = .done := by
  cases c <;> first | rfl | cases h

/-- What holds between the steps: who has obtained a connection has the open one, and the calls that
are past their statement have taken effect once. -/
structure Helper.Valid (db : SQLite) (calls : ι → Call) (t : Table) (s : Helper ι) : Prop where
  isOpen : ∀ i g, s.phase i = .obtained g → s.isOpen = true ∧ s.connection = g
  table : s.table = s.applied.foldl (fun t i => (calls i).effect db t) t
  count : ∀ i, s.applied.count i =
    if (calls i).modifies = true ∧ (s.phase i).outcome.isSome = true then 1 else 0
  done : ∀ i o, (s.phase i).outcome = some o → (calls i).modifies = true → o = .done

lemma Helper.valid_init (db : SQLite) (calls : ι → Call) (t : Table) :
    (Helper.init ι t).Valid db calls t where
  isOpen _ _ h := by cases h
  table := rfl
  count _ := by
    rw [if_neg fun h => Bool.false_ne_true h.2]
    rfl
  done _ _ h := by cases h

lemma goto_phase (s : Helper ι) (i j : ι) (p : Phase) :
    (s.goto i p).phase j = if j = i then p else s.phase j := Function.update_apply ..

/-- A call that goes on without a statement keeps the counts. -/
lemma Helper.Valid.count_goto (hs : s.Valid db calls t) {p : Phase}
    (hp : p.outcome = (s.phase i).outcome) (j : ι) :
    s.applied.count j =
      if (calls j).modifies = true ∧ ((s.goto i p).phase j).outcome.isSome = true then 1 else 0 := by
  rw [hs.count j, goto_phase]
  by_cases hj : j = i
  · rw [if_pos hj, hj, hp]
  · rw [if_neg hj]

lemma Helper.Valid.done_goto (hs : s.Valid db calls t) {p : Phase}
    (hp : p.outcome = (s.phase i).outcome) (j : ι) (o : Outcome)
    (h : ((s.goto i p).phase j).outcome = some o) (hj : (calls j).modifies = true) : o = .done := by
  rw [goto_phase] at h
  by_cases hji : j = i
  · rw [if_pos hji, hp, ← hji] at h
    exact hs.done j o h hj
  · rw [if_neg hji] at h
    exact hs.done j o h hj

lemma Helper.Valid.getDatabase (hs : s.Valid db calls t) (hi : s.phase i = .idle) :
    (s.getDatabase (calls i) i).Valid db calls t where
  isOpen j g hj := by
    have hphase : ((s.goto i (.obtained (if s.isOpen = true then s.connection
        else s.connection + 1))).phase j) = .obtained g := hj
    rw [goto_phase] at hphase
    refine ⟨rfl, ?_⟩
    show (if s.isOpen = true then s.connection else s.connection + 1) = g
    by_cases hji : j = i
    · rw [if_pos hji] at hphase
      exact Phase.obtained.inj hphase
    · rw [if_neg hji] at hphase
      obtain ⟨hopen, hg⟩ := hs.isOpen j g hphase
      rw [if_pos hopen, hg]
  table := hs.table
  count := hs.count_goto (by rw [hi]; rfl)
  done := hs.done_goto (by rw [hi]; rfl)

/-- On the connection that a call has obtained its statement ends as on the table. -/
lemma execute_of_valid (hs : s.Valid db calls t) {g : ℕ} (hi : s.phase i = .obtained g) (c : Call) :
    s.execute db c i g =
      { s.goto i (.after g (c.outcome db s.table)) with
        table := c.effect db s.table
        applied := if c.modifies then s.applied ++ [i] else s.applied } :=
  if_pos (hs.isOpen i g hi)

lemma effect_of_not_modifies {c : Call} (h : ¬ c.modifies = true) : c.effect db t = t := by
  cases c <;> first | rfl | exact absurd rfl h

lemma Helper.Valid.execute (hs : s.Valid db calls t) {g : ℕ} (hi : s.phase i = .obtained g) :
    (s.execute db (calls i) i g).Valid db calls t := by
  rw [execute_of_valid hs hi]
  have hphase : ∀ j, j ≠ i →
      (s.goto i (.after g ((calls i).outcome db s.table))).phase j = s.phase j := fun j hj => by
    rw [goto_phase, if_neg hj]
  have hself : ((s.goto i (.after g ((calls i).outcome db s.table))).phase i).outcome =
      some ((calls i).outcome db s.table) := by
    rw [goto_phase, if_pos rfl, outcome_after]
  have hnone : (s.phase i).outcome = none := by
    rw [hi]
    rfl
  have hcount : s.applied.count i = 0 := by
    rw [hs.count i, hnone]
    exact if_neg fun h => Bool.false_ne_true h.2
  constructor
  · intro j g' hj
    have hji : j ≠ i := by
      rintro rfl
      rw [goto_phase, if_pos rfl] at hj
      exact after_ne_obtained _ _ _ hj
    rw [hphase j hji] at hj
    exact hs.isOpen j g' hj
  · show (calls i).effect db s.table = _
    dsimp only
    by_cases hm : (calls i).modifies = true
    · rw [if_pos hm, List.foldl_append, ← hs.table]
      rfl
    · rw [if_neg hm, effect_of_not_modifies hm, hs.table]
  · intro j
    show (if (calls i).modifies = true then s.applied ++ [i] else s.applied).count j =
      if (calls j).modifies = true ∧
        ((s.goto i (.after g ((calls i).outcome db s.table))).phase j).outcome.isSome = true
      then 1 else 0
    by_cases hji : j = i
    · subst hji
      rw [hself]
      by_cases hm : (calls j).modifies = true
      · rw [if_pos hm, if_pos ⟨hm, rfl⟩, List.count_append, hcount, List.count_singleton_self]
      · rw [if_neg hm, if_neg fun h => hm h.1, hcount]
    · rw [hphase j hji, ← hs.count j]
      by_cases hm : (calls i).modifies = true
      · rw [if_pos hm, List.count_append, List.count_singleton, beq_false_of_ne (Ne.symm hji)]
        rfl
      · rw [if_neg hm]
  · intro j o ho hj
    by_cases hji : j = i
    · subst hji
      obtain rfl := Option.some.inj (hself.symm.trans ho)
      exact outcome_of_modifies hj
    · exact hs.done j o (by rw [← hphase j hji]; exact ho) hj

/-- The close keeps the connections of the others, as it is in order. -/
lemma Helper.Valid.close (hs : s.Valid db calls t) {g : ℕ} {o : Outcome}
    (hi : s.phase i = .ran g o) (hok : InOrder s i) : (s.close i g o).Valid db calls t where
  isOpen j g' hj := by
    have hphase : (s.goto i (.ended o)).phase j = .obtained g' := hj
    rw [goto_phase] at hphase
    by_cases hji : j = i
    · rw [if_pos hji] at hphase
      cases hphase
    · rw [if_neg hji] at hphase
      obtain ⟨hopen, hg⟩ := hs.isOpen j g' hphase
      unfold InOrder at hok
      rw [hi] at hok
      have hne : s.connection ≠ g := fun heq =>
        hok hopen heq j (by rw [hphase, ← hg, heq])
      refine ⟨?_, hg⟩
      show (s.isOpen && decide (s.connection ≠ g)) = true
      rw [hopen, decide_eq_true hne]
      rfl
  table := hs.table
  count := hs.count_goto (by rw [hi]; rfl)
  done := hs.done_goto (by rw [hi]; rfl)

/-- Every step in order keeps it. -/
lemma Helper.Valid.step (hs : s.Valid db calls t) (hok : InOrder s i)
    (h : step db calls s i = some s') : s'.Valid db calls t := by
  cases StepsTo.of_step h with
  | getDatabase hi => exact hs.getDatabase hi
  | execute hi => exact hs.execute hi
  | close hi => exact hs.close hi hok

/-- A call gets its outcome in its statement, from the table of that moment. -/
lemma outcome_of_step (hs : s.Valid db calls t) {o : Outcome}
    (h : step db calls s i = some s') {j : ι} (hj : (s.phase j).outcome ≠ some o)
    (hj' : (s'.phase j).outcome = some o) :
    i = j ∧ (∃ g, s.phase j = .obtained g) ∧ o = (calls j).outcome db s.table := by
  cases StepsTo.of_step h with
  | getDatabase hi =>
    have hphase : ((s.goto i (.obtained (if s.isOpen = true then s.connection
        else s.connection + 1))).phase j).outcome = some o := hj'
    rw [goto_phase] at hphase
    by_cases hji : j = i
    · rw [if_pos hji] at hphase
      cases hphase
    · rw [if_neg hji] at hphase
      exact absurd hphase hj
  | @execute g hi =>
    rw [execute_of_valid hs hi] at hj'
    have hphase : ((s.goto i (.after g ((calls i).outcome db s.table))).phase j).outcome =
      some o := hj'
    rw [goto_phase] at hphase
    by_cases hji : j = i
    · subst hji
      rw [if_pos rfl, outcome_after] at hphase
      exact ⟨rfl, ⟨g, hi⟩, (Option.some.inj hphase).symm⟩
    · rw [if_neg hji] at hphase
      exact absurd hphase hj
  | @close g o' hi =>
    have hphase : ((s.goto i (.ended o')).phase j).outcome = some o := hj'
    rw [goto_phase] at hphase
    by_cases hji : j = i
    · subst hji
      rw [if_pos rfl] at hphase
      exact absurd ((congrArg Phase.outcome hi).trans hphase) hj
    · rw [if_neg hji] at hphase
      exact absurd hphase hj

/-- A run in order leads to valid states. -/
lemma valid_of_run {schedule : List ι}
    (hok : Guarded (step db calls) InOrder (.init ι t) schedule)
    (h : run (step db calls) (.init ι t) schedule = some s) : s.Valid db calls t :=
  run_invariant_of_guarded (fun _ _ _ hs hi hstep => hs.step hi hstep)
    (Helper.valid_init db calls t) hok h

/-- When no connection is closed that another call has obtained and not used, nothing is lost. -/
theorem noneLost_of_run (schedule : List ι)
    (hok : Guarded (step db calls) InOrder (.init ι t) schedule)
    (h : run (step db calls) (.init ι t) schedule = some s) : NoneLost db calls t schedule s := by
  have hs := valid_of_run hok h
  have hended : ∀ i o, s.phase i = .ended o → (s.phase i).outcome = some o := fun i o hi =>
    congrArg Phase.outcome hi
  refine ⟨hs.table, ?_, ?_, ?_⟩
  · intro i o hi hm
    refine ⟨hs.done i o (hended i o hi) hm, ?_⟩
    rw [hs.count i, hended i o hi, if_pos ⟨hm, rfl⟩]
  · intro i
    rw [hs.count i]
    by_cases hc : (calls i).modifies = true ∧ (s.phase i).outcome.isSome = true
    · rw [if_pos hc]
    · rw [if_neg hc]
      exact Nat.zero_le 1
  · intro i o hi _
    have hinit : ¬ ((Helper.init ι t).phase i).outcome = some o := fun h => by cases h
    obtain ⟨pre, a, post, m, m', rfl, hpre, hstep, hm, hm'⟩ :=
      exists_step_of_run (Q := fun s => (s.phase i).outcome = some o) hinit h (hended i o hi)
    obtain ⟨rfl, ⟨g, hg⟩, ho⟩ := outcome_of_step (valid_of_run hok.append_left hpre) hstep hm hm'
    exact ⟨pre, post, m, g, rfl, hpre, hg, ho⟩

end Valid

instance [Fintype ι] (s : Helper ι) (i : ι) : Decidable (InOrder s i) := by
  unfold InOrder
  cases s.phase i <;> infer_instance

/-- A lookup and an insertion. -/
def twoCalls : Bool → Call
  | false => .getMachine (some "dos".toList) (some [])
  | true => .insertMachine { machinename := some "dos".toList } []

/-- The insertion obtains the database after the lookup has run, and is used before it is closed. -/
theorem noneLost_twoCalls :
    ∃ s, run (step plainEngine twoCalls) (.init Bool []) [false, false, false, true, true, true] =
        some s ∧
      NoneLost plainEngine twoCalls [] [false, false, false, true, true, true] s :=
  ⟨_, rfl, noneLost_of_run _ (by decide) rfl⟩

/-- The lookup closes the connection under the insertion, and the machine is lost. -/
theorem insertion_lost :
    ∃ s, run (step plainEngine twoCalls) (.init Bool []) [false, true, false, false, true, true] =
        some s ∧ s.phase true = .ended .failed ∧ s.table = [] ∧
      ¬ NoneLost plainEngine twoCalls [] [false, true, false, false, true, true] s := by
  refine ⟨_, rfl, rfl, rfl, ?_⟩
  intro h
  have hdone := (h.modified true .failed rfl rfl).1
  cases hdone

end Limbo.Machines.Connection
