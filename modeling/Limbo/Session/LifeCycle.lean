import Limbo.Lib.Run

/-!
# The life cycle of a VM

`start` and `stop` of the native `VMExecutor`, called from any number of Java threads. `started`
guards `qemu_start`: a start sets it behind the conversion of its arguments and in front of the
library calls that can fail, a stop overwrites it with its restart flag, and nothing else does.
-/

namespace Limbo.Session.LifeCycle

open Lib

/-- Where a thread is in its call. -/
inductive Call where
  | idle
  /-- In `start`, behind the guard. -/
  | checked
  /-- Behind `started = 1`. -/
  | marked
  /-- Behind the check of `handle`. -/
  | loaded
  /-- Behind `setAIOMaxThreads`. -/
  | aioSet
  /-- Behind `set_dns_addr_str`. -/
  | dnsSet
  /-- In `qemu_start`. -/
  | running
  /-- Behind `qemu_start`, in front of `exit(1)`. -/
  | finished
  /-- In `stopvm`, in front of the native `stop`. -/
  | stopCalled
  /-- In `stop`, with `restart_int` read and `stop_vm` found. -/
  | stopping (restart : ℤ)
  /-- Behind `stop_vm`, in front of `started = restart_int`. -/
  | stopAsked (restart : ℤ)
deriving DecidableEq, Repr

/-- The globals of the native side, the field `restart` of the `VMExecutor`, and the threads. -/
structure State where
  started : ℤ
  handle : Bool
  restart : ℤ
  thread : ℕ → Call
  exited : Bool

/-- No call has been made. -/
def State.init : State := ⟨0, false, 0, fun _ => .idle, false⟩

/-- Thread `i` goes on to `c`. -/
def State.goto (s : State) (i : ℕ) (c : Call) : State :=
  { s with thread := Function.update s.thread i c }

/-- The steps of the calls; `ok` is the answer of `dlopen` or `dlsym`. -/
inductive Step where
  /-- The guard of `start`. -/
  | enter (i : ℕ)
  | mark (i : ℕ)
  | loadLib (i : ℕ) (ok : Bool)
  | setAIOMaxThreads (i : ℕ) (ok : Bool)
  | setDnsAddrStr (i : ℕ) (ok : Bool)
  | qemuStart (i : ℕ) (ok : Bool)
  /-- The main loop has ended: `qemu_start` returns. -/
  | mainLoopEnds (i : ℕ)
  | exit (i : ℕ)
  | stopvm (i : ℕ) (restart : ℤ)
  | stop (i : ℕ) (ok : Bool)
  | stopVm (i : ℕ)
  | assign (i : ℕ)
deriving DecidableEq, Repr

/-- A step of a process that has not exited. -/
def liveStep (s : State) : Step → Option State
  | .enter i =>
    match s.thread i with
    | .idle => if s.started ≠ 0 then some s else some (s.goto i .checked)
    | _ => none
  | .mark i =>
    match s.thread i with
    | .checked => some { s.goto i .marked with started := 1 }
    | _ => none
  | .loadLib i ok =>
    match s.thread i with
    | .marked =>
      let handle := s.handle || ok
      some { s.goto i (if handle then .loaded else .idle) with handle := handle }
    | _ => none
  | .setAIOMaxThreads i ok =>
    match s.thread i with
    | .loaded => some (s.goto i (if ok then .aioSet else .idle))
    | _ => none
  | .setDnsAddrStr i ok =>
    match s.thread i with
    | .aioSet => some (s.goto i (if ok then .dnsSet else .idle))
    | _ => none
  | .qemuStart i ok =>
    match s.thread i with
    | .dnsSet =>
      if ok then some (s.goto i .running) else some { s.goto i .idle with handle := false }
    | _ => none
  | .mainLoopEnds i =>
    match s.thread i with
    | .running => some (s.goto i .finished)
    | _ => none
  | .exit i =>
    match s.thread i with
    | .finished => some { s with
        handle := false
        thread := fun _ => .idle
        exited := true }
    | _ => none
  | .stopvm i restart =>
    match s.thread i with
    | .idle => some { s.goto i .stopCalled with restart := restart }
    | _ => none
  | .stop i ok =>
    match s.thread i with
    | .stopCalled => some (s.goto i (if s.handle && ok then .stopping s.restart else .idle))
    | _ => none
  | .stopVm i =>
    match s.thread i with
    | .stopping restart => some (s.goto i (.stopAsked restart))
    | _ => none
  | .assign i =>
    match s.thread i with
    | .stopAsked restart => some { s.goto i .idle with started := restart }
    | _ => none

/-- One step. -/
def step (s : State) (a : Step) : Option State := if s.exited then none else liveStep s a

/-! ### One VM at a time -/

/-- The call has marked the VM as started and has not left `qemu_start`. -/
def Call.Marked : Call → Prop
  | marked | loaded | aioSet | dnsSet | running => True
  | _ => False

/-- The call is on its way to `qemu_start`, or in it. -/
def Call.Starting (c : Call) : Prop := c = .checked ∨ c.Marked

/-- While a `qemu_start` runs, `started` is `1`, it is the only one, and a start is rejected. -/
structure State.Exclusive (s : State) : Prop where
  started : ∀ i, s.thread i = .running → s.started = 1
  unique : ∀ i j, s.thread i = .running → s.thread j = .running → i = j
  rejects : ∀ i j, s.thread i = .running → s.thread j = .idle → s.exited = false →
    step s (.enter j) = some s

/-- A step is in order: a start passes the guard when no other is between the guard and
`started = 1`, and a stop that does not restart sets `started` when no call has marked a VM. -/
def InOrder (s : State) : Step → Prop
  | .enter _ => s.started = 0 → ∀ j, s.thread j ≠ .checked
  | .assign i => ∀ restart, s.thread i = .stopAsked restart → restart ≠ 1 →
      ∀ j, ¬ (s.thread j).Marked
  | _ => True

/-- What holds between the steps: a marked VM has the flag, and one start at most is on its way. -/
structure State.Valid (s : State) : Prop where
  marked : ∀ i, (s.thread i).Marked → s.started = 1
  unique : ∀ i j, (s.thread i).Starting → (s.thread j).Starting → i = j

lemma State.Valid.exclusive {s : State} (hs : s.Valid) : s.Exclusive where
  started i hi := hs.marked i (by rw [hi]; trivial)
  unique i j hi hj := hs.unique i j (.inr (by rw [hi]; trivial)) (.inr (by rw [hj]; trivial))
  rejects i j hi hj halive := by
    have hstarted : s.started = 1 := hs.marked i (by rw [hi]; trivial)
    simp [step, liveStep, halive, hj, hstarted]

/-- What the steps do to the threads and to `started`: a start passes the guard, marks the VM and
ends, a stop ends with its restart flag, the process exits, or a call goes on without a change of
what matters here. -/
inductive StepsTo (s : State) : Step → State → Prop where
  | rejected {i : ℕ} (h : s.started ≠ 0) : StepsTo s (.enter i) s
  | enter {i : ℕ} (hi : s.thread i = .idle) (h : s.started = 0) :
      StepsTo s (.enter i) (s.goto i .checked)
  | mark {i : ℕ} (hi : s.thread i = .checked) :
      StepsTo s (.mark i) { s.goto i .marked with started := 1 }
  | assign {i : ℕ} {restart : ℤ} (hi : s.thread i = .stopAsked restart) :
      StepsTo s (.assign i) { s.goto i .idle with started := restart }
  | exit {i : ℕ} (hi : s.thread i = .finished) :
      StepsTo s (.exit i) { s with
        handle := false
        thread := fun _ => .idle
        exited := true }
  | goesOn {a : Step} {s' : State} {i : ℕ} {c : Call} (hstarted : s'.started = s.started)
      (hthread : s'.thread = Function.update s.thread i c)
      (hmarked : c.Marked → (s.thread i).Marked) (hchecked : c ≠ .checked) : StepsTo s a s'

lemma StepsTo.of_step {s s' : State} {a : Step} (h : step s a = some s') : StepsTo s a s' := by
  have hlive : liveStep s a = some s' := by
    unfold step at h
    by_cases he : s.exited = true
    · rw [if_pos he] at h
      cases h
    · rw [if_neg he] at h
      exact h
  cases a with
  | enter i =>
    cases hi : s.thread i <;> simp [liveStep, hi] at hlive
    by_cases h0 : s.started = 0
    · rw [if_pos h0] at hlive
      cases hlive
      exact .enter hi h0
    · rw [if_neg h0] at hlive
      cases hlive
      exact .rejected h0
  | mark i =>
    cases hi : s.thread i <;> simp [liveStep, hi] at hlive
    cases hlive
    exact .mark hi
  | loadLib i ok =>
    cases hi : s.thread i <;> simp [liveStep, hi] at hlive
    cases hlive
    refine .goesOn rfl rfl (fun _ => by rw [hi]; trivial) ?_
    by_cases hh : s.handle = true ∨ ok = true
    · rw [if_pos hh]
      exact Call.noConfusion
    · rw [if_neg hh]
      exact Call.noConfusion
  | setAIOMaxThreads i ok =>
    cases hi : s.thread i <;> simp [liveStep, hi] at hlive
    cases hlive
    refine .goesOn rfl rfl (fun _ => by rw [hi]; trivial) ?_
    cases ok <;> exact Call.noConfusion
  | setDnsAddrStr i ok =>
    cases hi : s.thread i <;> simp [liveStep, hi] at hlive
    cases hlive
    refine .goesOn rfl rfl (fun _ => by rw [hi]; trivial) ?_
    cases ok <;> exact Call.noConfusion
  | qemuStart i ok =>
    cases hi : s.thread i <;> simp [liveStep, hi] at hlive
    cases ok with
    | true =>
      cases hlive
      exact .goesOn rfl rfl (fun _ => by rw [hi]; trivial) Call.noConfusion
    | false =>
      cases hlive
      exact .goesOn rfl rfl False.elim Call.noConfusion
  | mainLoopEnds i =>
    cases hi : s.thread i <;> simp [liveStep, hi] at hlive
    cases hlive
    exact .goesOn rfl rfl False.elim Call.noConfusion
  | exit i =>
    cases hi : s.thread i <;> simp [liveStep, hi] at hlive
    cases hlive
    exact .exit hi
  | stopvm i restart =>
    cases hi : s.thread i <;> simp [liveStep, hi] at hlive
    cases hlive
    exact .goesOn rfl rfl False.elim Call.noConfusion
  | stop i ok =>
    cases hi : s.thread i <;> simp [liveStep, hi] at hlive
    cases hlive
    by_cases hh : s.handle = true ∧ ok = true
    · rw [if_pos hh]
      exact .goesOn rfl rfl False.elim Call.noConfusion
    · rw [if_neg hh]
      exact .goesOn rfl rfl False.elim Call.noConfusion
  | stopVm i =>
    cases hi : s.thread i <;> simp [liveStep, hi] at hlive
    cases hlive
    exact .goesOn rfl rfl False.elim Call.noConfusion
  | assign i =>
    cases hi : s.thread i <;> simp [liveStep, hi] at hlive
    cases hlive
    exact .assign hi

/-- A call that goes on: the other threads stay where they are. -/
lemma State.Valid.update {s s' : State} (hs : s.Valid) {i : ℕ} {c : Call}
    (hthread : s'.thread = Function.update s.thread i c)
    (hmarked : ∀ j, ((Function.update s.thread i c) j).Marked → s'.started = 1)
    (hstarting : c.Starting → ∀ j, (s.thread j).Starting → j = i) : s'.Valid := by
  refine ⟨fun j hj => hmarked j (hthread ▸ hj), fun j k hj hk => ?_⟩
  rw [hthread] at hj hk
  by_cases hji : j = i
  · subst hji
    by_cases hki : k = j
    · exact hki.symm
    · rw [Function.update_self] at hj
      rw [Function.update_of_ne hki] at hk
      exact (hstarting hj k hk).symm
  · rw [Function.update_of_ne hji] at hj
    by_cases hki : k = i
    · subst hki
      rw [Function.update_self] at hk
      exact hstarting hk j hj
    · rw [Function.update_of_ne hki] at hk
      exact hs.unique j k hj hk

/-- A step that is in order keeps this. -/
lemma State.Valid.step {s s' : State} {a : Step} (hs : s.Valid) (horder : InOrder s a)
    (h : step s a = some s') : s'.Valid := by
  have hstay : ∀ {i : ℕ} {c : Call}, ¬ c.Marked → ∀ j,
      ((Function.update s.thread i c) j).Marked → (s.thread j).Marked := by
    intro i c hc j hj
    by_cases hji : j = i
    · subst hji
      rw [Function.update_self] at hj
      exact absurd hj hc
    · rwa [Function.update_of_ne hji] at hj
  cases StepsTo.of_step h with
  | rejected _ => exact hs
  | @enter i hi h0 =>
    -- nothing is marked, since `started` is down, and no other start is behind the guard
    have hnone : ∀ j, ¬ (s.thread j).Marked := by
      intro j hj
      have := hs.marked j hj
      omega
    refine hs.update rfl (fun j hj => absurd (hstay id j hj) (hnone j)) (fun _ j hj => ?_)
    rcases hj with hj | hj
    · exact absurd hj (horder h0 j)
    · exact absurd hj (hnone j)
  | @mark i hi => exact hs.update rfl (fun _ _ => rfl) (fun _ j hj => hs.unique j i hj (.inl hi))
  | @assign i restart hi =>
    refine hs.update rfl (fun j hj => ?_) (fun hc => ?_)
    · by_contra hne
      exact horder restart hi hne j (hstay id j hj)
    · rcases hc with hc | hc
      · cases hc
      · exact hc.elim
  | exit _ => exact ⟨fun j hj => hj.elim, fun j k hj => by rcases hj with hj | hj <;> cases hj⟩
  | @goesOn _ _ i c hstarted hthread hmarked hchecked =>
    refine hs.update hthread (fun j hj => ?_) (fun hc j hj => ?_)
    · rw [hstarted]
      by_cases hji : j = i
      · subst hji
        rw [Function.update_self] at hj
        exact hs.marked j (hmarked hj)
      · rw [Function.update_of_ne hji] at hj
        exact hs.marked j hj
    · rcases hc with hc | hc
      · exact absurd hc hchecked
      · exact hs.unique j i hj (.inr (hmarked hc))

/-- In every run whose steps are in order there is one VM at a time, and `started` tells of it. -/
theorem one_vm (as : List Step) (s : State) (horder : Guarded step InOrder .init as)
    (h : run step .init as = some s) : s.Exclusive := by
  have hinit : State.init.Valid :=
    ⟨fun j hj => hj.elim, fun j k hj => by rcases hj with hj | hj <;> cases hj⟩
  have hvalid := run_invariant_of_guarded (fun s a s' hs ho hstep => hs.step ho hstep) hinit
    horder h
  exact hvalid.exclusive

/-- A VM that is started and runs. -/
def startRun : List Step :=
  [.enter 0, .mark 0, .loadLib 0 true, .setAIOMaxThreads 0 true, .setDnsAddrStr 0 true,
    .qemuStart 0 true]

/-- One start. -/
theorem one_vm_started : ∃ s, run step .init startRun = some s ∧ s.Exclusive := by
  refine ⟨_, rfl, one_vm startRun _ ?_ rfl⟩
  refine ⟨fun _ j => Call.noConfusion, fun s hs => ?_⟩
  cases hs
  refine ⟨trivial, fun s hs => ?_⟩
  cases hs
  refine ⟨trivial, fun s hs => ?_⟩
  cases hs
  refine ⟨trivial, fun s hs => ?_⟩
  cases hs
  refine ⟨trivial, fun s hs => ?_⟩
  cases hs
  exact ⟨trivial, fun s hs => trivial⟩

/-- A stop clears `started` while the main loop is still at work, and a second start runs a second
VM beside the first. -/
theorem two_vms : ∃ s, run step .init (startRun ++
      [.stopvm 1 0, .stop 1 true, .stopVm 1, .assign 1, .enter 2, .mark 2, .loadLib 2 true,
        .setAIOMaxThreads 2 true, .setDnsAddrStr 2 true, .qemuStart 2 true]) = some s ∧
    s.thread 0 = .running ∧ s.thread 2 = .running :=
  ⟨_, rfl, rfl, rfl⟩

/-! ### A start that fails -/

/-- What `dlopen` and `dlsym` find. -/
structure Library where
  opens : Bool
  setAIOMaxThreads : Bool
  setDnsAddrStr : Bool
  qemuStart : Bool
deriving DecidableEq, Repr

/-- A start cannot come to `qemu_start`: the library does not open, unless it is open already, or a
symbol is missing. -/
def Library.Fails (lib : Library) (handle : Bool) : Prop :=
  (handle = false ∧ lib.opens = false) ∨ lib.setAIOMaxThreads = false ∨
    lib.setDnsAddrStr = false ∨ lib.qemuStart = false

/-- The steps of `start` behind `loadLib`. -/
def startTail (i : ℕ) (lib : Library) (handle : Bool) : List Step :=
  if ¬ (handle || lib.opens) then []
  else .setAIOMaxThreads i lib.setAIOMaxThreads ::
    if ¬ lib.setAIOMaxThreads then []
    else .setDnsAddrStr i lib.setDnsAddrStr ::
      if ¬ lib.setDnsAddrStr then [] else [.qemuStart i lib.qemuStart]

/-- The steps of a call of `start` up to its return, or to `qemu_start`. -/
def startCall (i : ℕ) (lib : Library) (s : State) : List Step :=
  if s.started ≠ 0 then [.enter i]
  else .enter i :: .mark i :: .loadLib i lib.opens :: startTail i lib s.handle

/-- A step of a live process. -/
lemma step_of_live {s s' : State} {a : Step} (halive : s.exited = false)
    (h : liveStep s a = some s') : step s a = some s' := by
  unfold step
  rw [halive]
  exact h

/-- Thread `i` is back from its call, which has left `started` and the process alone. -/
def Returned (i : ℕ) (s s' : State) : Prop :=
  s'.thread i = .idle ∧ s'.started = s.started ∧ s'.exited = s.exited

/-- Behind `dlopen` a call with a symbol missing comes to an error return. -/
lemma run_symbols {i : ℕ} {lib : Library} {s : State} (hi : s.thread i = .loaded)
    (halive : s.exited = false)
    (hfails : lib.setAIOMaxThreads = false ∨ lib.setDnsAddrStr = false ∨ lib.qemuStart = false) :
    ∃ s', run step s (.setAIOMaxThreads i lib.setAIOMaxThreads ::
        if ¬ lib.setAIOMaxThreads then []
        else .setDnsAddrStr i lib.setDnsAddrStr ::
          if ¬ lib.setDnsAddrStr then [] else [.qemuStart i lib.qemuStart]) = some s' ∧
      Returned i s s' := by
  obtain ⟨opens, aio, dns, qemuStart⟩ := lib
  have haio : step s (.setAIOMaxThreads i aio) =
      some (s.goto i (if aio then .aioSet else .idle)) := by
    apply step_of_live halive
    simp only [liveStep, hi]
  dsimp only at hfails ⊢
  rw [run_of_step haio]
  cases aio with
  | false => exact ⟨_, rfl, Function.update_self .., rfl, rfl⟩
  | true =>
    have hdns : step (s.goto i .aioSet) (.setDnsAddrStr i dns) =
        some ((s.goto i .aioSet).goto i (if dns then .dnsSet else .idle)) := by
      apply step_of_live (s := s.goto i .aioSet) halive
      simp [liveStep, State.goto]
    rw [if_pos rfl, if_neg (by simp), run_of_step hdns]
    cases dns with
    | false => exact ⟨_, rfl, Function.update_self .., rfl, rfl⟩
    | true =>
      obtain rfl : qemuStart = false := by simpa using hfails
      have hstart : step ((s.goto i .aioSet).goto i .dnsSet) (.qemuStart i false) =
          some { ((s.goto i .aioSet).goto i .dnsSet).goto i .idle with handle := false } := by
        apply step_of_live (s := (s.goto i .aioSet).goto i .dnsSet) halive
        simp [liveStep, State.goto]
      rw [if_pos rfl, if_neg (by simp), run_of_step hstart]
      exact ⟨_, rfl, Function.update_self .., rfl, rfl⟩

/-- Behind `started = 1` a call that cannot come to `qemu_start` comes to an error return. -/
lemma run_behind_mark {i : ℕ} {lib : Library} {s : State} (hi : s.thread i = .marked)
    (halive : s.exited = false) (hfails : lib.Fails s.handle) :
    ∃ s', run step s (.loadLib i lib.opens :: startTail i lib s.handle) = some s' ∧
      Returned i s s' := by
  have hload : step s (.loadLib i lib.opens) = some
      { s.goto i (if (s.handle || lib.opens) = true then .loaded else .idle) with
        handle := s.handle || lib.opens } := by
    apply step_of_live halive
    simp only [liveStep, hi]
  rw [run_of_step hload]
  unfold startTail
  by_cases hopen : (s.handle || lib.opens) = true
  · rw [if_neg (not_not.mpr hopen), if_pos hopen]
    have hsymbols : lib.setAIOMaxThreads = false ∨ lib.setDnsAddrStr = false ∨
        lib.qemuStart = false := by
      rcases hfails with ⟨hhandle, hopens⟩ | hmissing
      · rw [hhandle, hopens] at hopen
        cases hopen
      · exact hmissing
    exact run_symbols (s := { s.goto i .loaded with handle := s.handle || lib.opens })
      (Function.update_self ..) halive hsymbols
  · rw [if_pos hopen, if_neg hopen]
    exact ⟨_, rfl, Function.update_self .., rfl, rfl⟩

/-- Every start that fails returns with `started` up, and a later start is rejected. -/
theorem started_after_failure (i : ℕ) (lib : Library) (s : State) (hidle : s.thread i = .idle)
    (halive : s.exited = false) (hfails : lib.Fails s.handle) :
    ∃ s', run step s (startCall i lib s) = some s' ∧ s'.thread i = .idle ∧ s'.started ≠ 0 ∧
      ∀ j, s'.thread j = .idle → step s' (.enter j) = some s' := by
  have hrejected : ∀ s' : State, s'.exited = false → s'.started ≠ 0 →
      ∀ j, s'.thread j = .idle → step s' (.enter j) = some s' := by
    intro s' halive' hstarted j hj
    apply step_of_live halive'
    simp [liveStep, hj, hstarted]
  by_cases hstarted : s.started ≠ 0
  · refine ⟨s, ?_, hidle, hstarted, hrejected s halive hstarted⟩
    rw [startCall, if_pos hstarted, run_of_step (hrejected s halive hstarted i hidle), run_nil]
  · -- the guard lets the call pass, and it marks the VM
    have henter : step s (.enter i) = some (s.goto i .checked) := by
      apply step_of_live halive
      simp [liveStep, hidle, hstarted]
    have hmark : step (s.goto i .checked) (.mark i) =
        some { (s.goto i .checked).goto i .marked with started := 1 } := by
      apply step_of_live (s := s.goto i .checked) halive
      simp [liveStep, State.goto]
    rw [startCall, if_neg hstarted, run_of_step henter, run_of_step hmark]
    obtain ⟨s', hrun, hreturned, hkept, hlive⟩ := @run_behind_mark i lib
      { (s.goto i .checked).goto i .marked with started := 1 } (Function.update_self ..) halive hfails
    have hone : s'.started ≠ 0 := by
      rw [hkept]
      exact one_ne_zero
    exact ⟨s', hrun, hreturned, hone, hrejected s' (hlive.trans halive) hone⟩

/-- The library cannot be opened. -/
theorem started_after_failed_dlopen :
    ∃ s', run step .init (startCall 0 ⟨false, false, false, false⟩ .init) = some s' ∧
      s'.thread 0 = .idle ∧ s'.started ≠ 0 ∧
      ∀ j, s'.thread j = .idle → step s' (.enter j) = some s' :=
  started_after_failure 0 ⟨false, false, false, false⟩ .init rfl rfl (.inl ⟨rfl, rfl⟩)

/-- After a failed `dlopen` a start with a library that can be loaded is rejected. -/
theorem rejected_after_failed_dlopen :
    ∃ s', run step .init (startCall 0 ⟨false, false, false, false⟩ .init) = some s' ∧
      s'.thread 0 = .idle ∧ s'.started = 1 ∧ startCall 0 ⟨true, true, true, true⟩ s' = [.enter 0] ∧
      step s' (.enter 0) = some s' :=
  ⟨_, rfl, rfl, rfl, rfl, rfl⟩

end Limbo.Session.LifeCycle
