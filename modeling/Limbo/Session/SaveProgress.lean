import Limbo.Lib.Run
import Limbo.Snapshot.SavingState

/-!
# The progress of a save

The Java side of a save types the command, shows a dialog and polls `get_save_state` every five
seconds; the VM thread begins the `do_savevm` of the command whenever it comes to it. Both share
`saving_state`, which is down before a save as well as behind it. The steps of the two sides come
in any order.
-/

namespace Limbo.Session

open Lib Snapshot

/-! ### The poll -/

/-- What the Java side finds of the native side: whether there is a `vmexecutor` and has loaded its
library, the `handle`, and the symbol `get_save_state` in it. -/
structure Native where
  libLoaded : Option Bool
  handle : Bool
  symbol : Bool
deriving DecidableEq, Repr

/-- `VMExecutor.getsavestate()`. -/
def getsavestate (n : Native) (savingState : ℤ) : JString :=
  if ¬ n.handle then jstr "VM not running"
  else if ¬ n.symbol then []
  else if savingState ≠ 0 then jstr "SAVING"
  else jstr "DONE"

/-- `checkCompletion()`, with `get_save_state()` of the `vmexecutor`. -/
def checkCompletion (n : Native) (savingState : ℤ) : Option JString :=
  match n.libLoaded with
  | none => some []
  | some libLoaded => some (if libLoaded then getsavestate n savingState else [])

/-- `status == null || status.equals("") || status.equals("DONE")`. -/
def isDone (status : Option JString) : Bool :=
  status = none ∨ status = some [] ∨ status = some (jstr "DONE")

/-! ### The steps -/

/-- Where the Java side is with a save; the dialog is modal, so there is one at a time. -/
inductive Java where
  /-- No save is asked for. -/
  | idle
  /-- The command is typed. -/
  | typed (r : ℕ)
  /-- `saveStateDB` is through and the dialog is up. -/
  | waiting (r : ℕ)
  /-- At the head of the loop of `timeListener`. -/
  | checking (r : ℕ)
  /-- In front of `checkCompletion()`. -/
  | polling (r : ℕ)
  /-- In `Thread.sleep(5000)`. -/
  | sleeping (r : ℕ)
  /-- Behind the listener, in front of `onPostExecute`. -/
  | leaving (r : ℕ)
deriving DecidableEq, Repr

/-- Where the VM thread is with a `do_savevm`. -/
inductive VmThread where
  | mainLoop
  /-- In front of `saving_state = 1`. -/
  | begun (r : ℕ)
  /-- Between `saving_state = 1` and `saving_state = 0`. -/
  | raised (r : ℕ)
  /-- Behind `saving_state = 0`. -/
  | lowered (r : ℕ)
deriving DecidableEq, Repr

/-- The state of both sides. Requests have consecutive numbers; `commands` are typed and not begun,
`returned` are the requests whose `do_savevm` has returned, `dismissed` those whose dialog has been
dismissed. -/
structure State where
  java : Java
  timeQuit : Bool
  vm : VmThread
  savingState : ℤ
  next : ℕ
  commands : List ℕ
  returned : List ℕ
  dismissed : List ℕ
deriving DecidableEq, Repr

/-- A session that has just begun. -/
def State.init : State := ⟨.idle, false, .mainLoop, 0, 0, [], [], []⟩

/-- The steps of the Java side and of the VM thread. -/
inductive Step where
  /-- `sendText("savevm ...")` reaches the monitor. -/
  | sendText
  | saveStateDB
  /-- `startTimeListener()` up to the loop of `timeListener()`. -/
  | startTimeListener
  | checkTimeQuit
  | poll
  | wake
  | onPostExecute
  | onDestroy
  /-- The monitor calls `do_savevm` for the next command. -/
  | begin
  | raise
  | lower
  | ret
deriving DecidableEq, Repr

/-- One step, where its thread is at it. -/
def step (n : Native) (s : State) : Step → Option State
  | .sendText =>
    match s.java with
    | .idle => some { s with
        java := .typed s.next
        commands := s.commands ++ [s.next]
        next := s.next + 1 }
    | _ => none
  | .saveStateDB =>
    match s.java with
    | .typed r => some { s with java := .waiting r }
    | _ => none
  | .startTimeListener =>
    match s.java with
    | .waiting r => some { s with
        java := .checking r
        timeQuit := false }
    | _ => none
  | .checkTimeQuit =>
    match s.java with
    | .checking r => some { s with java := if s.timeQuit then .leaving r else .polling r }
    | _ => none
  | .poll =>
    match s.java with
    | .polling r =>
      if isDone (checkCompletion n s.savingState) then
        some { s with
          java := .leaving r
          timeQuit := true }
      else some { s with java := .sleeping r }
    | _ => none
  | .wake =>
    match s.java with
    | .sleeping r => some { s with java := .checking r }
    | _ => none
  | .onPostExecute =>
    match s.java with
    | .leaving r => some { s with
        java := .idle
        dismissed := s.dismissed ++ [r] }
    | _ => none
  | .onDestroy => some { s with timeQuit := true }
  | .begin =>
    match s.vm, s.commands with
    | .mainLoop, r :: commands => some { s with
        vm := .begun r
        commands := commands }
    | _, _ => none
  | .raise =>
    match s.vm with
    | .begun r => some { s with
        vm := .raised r
        savingState := 1 }
    | _ => none
  | .lower =>
    match s.vm with
    | .raised r => some { s with
        vm := .lowered r
        savingState := 0 }
    | _ => none
  | .ret =>
    -- the error exits return with the flag up
    match s.vm with
    | .raised r | .lowered r => some { s with
        vm := .mainLoop
        returned := s.returned ++ [r] }
    | _ => none

/-- The steps of the VM thread for one `do_savevm`, which comes to the creation of the snapshots or
takes an error exit. -/
def savevmSteps (created : Bool) : List Step :=
  if created then [.begin, .raise, .lower, .ret] else [.begin, .raise, .ret]

lemma getSaveState_of_created (env : Env) (name : Option CString) (vm : Snapshot.State) :
    ((doSavevm env name vm).created = true ∧ getSaveState (doSavevm env name vm).state = 0) ∨
      ((doSavevm env name vm).created = false ∧ getSaveState (doSavevm env name vm).state = 1) := by
  have hflag := saveSnapshot_savingState env name { vm with savingState := 1 }
  unfold getSaveState doSavevm
  dsimp only
  cases findUnsupported 0 vm.blk.devices with
  | some device => exact .inr ⟨rfl, rfl⟩
  | none =>
    dsimp only
    by_cases hc : (saveSnapshot env name { vm with savingState := 1 }).created = true
    · rw [if_pos hc]
      exact .inl ⟨hc, rfl⟩
    · rw [if_neg hc]
      exact .inr ⟨Bool.not_eq_true _ ▸ hc, hflag⟩

/-- These steps leave the flag as `do_savevm` does. -/
lemma run_savevmSteps (n : Native) (env : Env) (name : Option CString) (vm : Snapshot.State)
    (s : State) {r : ℕ} {commands : List ℕ} (hvm : s.vm = .mainLoop)
    (hr : s.commands = r :: commands) :
    run (step n) s (savevmSteps (doSavevm env name vm).created) = some { s with
      commands := commands
      savingState := getSaveState (doSavevm env name vm).state
      returned := s.returned ++ [r] } := by
  obtain ⟨java, timeQuit, thread, savingState, next, cmds, returned, dismissed⟩ := s
  obtain rfl : thread = .mainLoop := hvm
  obtain rfl : cmds = r :: commands := hr
  rcases getSaveState_of_created env name vm with ⟨hcreated, hflag⟩ | ⟨hcreated, hflag⟩
  · rw [hcreated, hflag]
    rfl
  · rw [hcreated, hflag]
    rfl

/-! ### The dialog tells the truth -/

/-- A dialog is dismissed only behind the return of the `do_savevm` of its request. -/
def State.Truthful (s : State) : Prop := ∀ r ∈ s.dismissed, r ∈ s.returned

/-- The poll is answered from the flag, or with a text that does not end it. -/
def Native.ShowsFlag (n : Native) : Prop :=
  n.libLoaded = some true ∧ (n.handle = true → n.symbol = true)

instance (n : Native) : Decidable n.ShowsFlag := inferInstanceAs (Decidable (_ ∧ _))

/-- The request that `checkCompletion()` is about to be called for. -/
def Java.polled : Java → Option ℕ
  | polling r => some r
  | _ => none

/-- The request whose listener is in its loop. -/
def Java.listened : Java → Option ℕ
  | checking r | polling r | sleeping r => some r
  | _ => none

/-- A step is in time: a poll finds the `do_savevm` of its request returned, or the flag up and
shown; the activity is not destroyed while a save that has not returned is polled for. -/
def InTime (n : Native) (s : State) : Step → Prop
  | .poll => ∀ r ∈ s.java.polled,
      r ∈ s.returned ∨ (n.ShowsFlag ∧ (n.handle = true → s.savingState ≠ 0))
  | .onDestroy => ∀ r ∈ s.java.listened, r ∈ s.returned
  | _ => True

instance (n : Native) (s : State) : (a : Step) → Decidable (InTime n s a)
  | .poll => inferInstanceAs (Decidable (∀ r ∈ s.java.polled, _))
  | .onDestroy => inferInstanceAs (Decidable (∀ r ∈ s.java.listened, _))
  | .sendText | .saveStateDB | .startTimeListener | .checkTimeQuit | .wake | .onPostExecute
  | .begin | .raise | .lower | .ret => .isTrue trivial

/-- What holds between the steps: a listener that has been told to quit, and one that has left, has
seen the return. -/
structure State.Valid (s : State) : Prop where
  leaving : ∀ r, s.java = .leaving r → r ∈ s.returned
  quit : ∀ r ∈ s.java.listened, s.timeQuit = true → r ∈ s.returned
  truthful : s.Truthful

/-- Behind a poll that is in time, a done answer means a return. -/
lemma InTime.returned {n : Native} {s : State} {r : ℕ} (h : InTime n s .poll)
    (hr : s.java = .polling r) (hdone : isDone (checkCompletion n s.savingState) = true) :
    r ∈ s.returned := by
  rcases h r (by rw [hr]; rfl) with hret | ⟨⟨hloaded, hsymbol⟩, hup⟩
  · exact hret
  · exfalso
    by_cases hh : n.handle = true
    · have hanswer : checkCompletion n s.savingState = some (jstr "SAVING") := by
        simp [checkCompletion, getsavestate, hloaded, hh, hsymbol hh, hup hh]
      rw [hanswer] at hdone
      exact absurd hdone (by decide)
    · have hanswer : checkCompletion n s.savingState = some (jstr "VM not running") := by
        simp [checkCompletion, getsavestate, hloaded, hh]
      rw [hanswer] at hdone
      exact absurd hdone (by decide)

/-- What the steps do: one case for each way through `step`. -/
inductive StepsTo (n : Native) (s : State) : Step → State → Prop where
  | sendText (h : s.java = .idle) :
      StepsTo n s .sendText { s with
        java := .typed s.next
        commands := s.commands ++ [s.next]
        next := s.next + 1 }
  | saveStateDB {r : ℕ} (h : s.java = .typed r) :
      StepsTo n s .saveStateDB { s with java := .waiting r }
  | startTimeListener {r : ℕ} (h : s.java = .waiting r) :
      StepsTo n s .startTimeListener { s with
        java := .checking r
        timeQuit := false }
  | quit {r : ℕ} (h : s.java = .checking r) (hquit : s.timeQuit = true) :
      StepsTo n s .checkTimeQuit { s with java := .leaving r }
  | stay {r : ℕ} (h : s.java = .checking r) (hquit : s.timeQuit = false) :
      StepsTo n s .checkTimeQuit { s with java := .polling r }
  | done {r : ℕ} (h : s.java = .polling r)
      (hdone : isDone (checkCompletion n s.savingState) = true) :
      StepsTo n s .poll { s with
        java := .leaving r
        timeQuit := true }
  | saving {r : ℕ} (h : s.java = .polling r) :
      StepsTo n s .poll { s with java := .sleeping r }
  | wake {r : ℕ} (h : s.java = .sleeping r) : StepsTo n s .wake { s with java := .checking r }
  | onPostExecute {r : ℕ} (h : s.java = .leaving r) :
      StepsTo n s .onPostExecute { s with
        java := .idle
        dismissed := s.dismissed ++ [r] }
  | onDestroy : StepsTo n s .onDestroy { s with timeQuit := true }
  | begin {r : ℕ} {commands : List ℕ} (h : s.vm = .mainLoop) (hr : s.commands = r :: commands) :
      StepsTo n s .begin { s with
        vm := .begun r
        commands := commands }
  | raise {r : ℕ} (h : s.vm = .begun r) :
      StepsTo n s .raise { s with
        vm := .raised r
        savingState := 1 }
  | lower {r : ℕ} (h : s.vm = .raised r) :
      StepsTo n s .lower { s with
        vm := .lowered r
        savingState := 0 }
  | ret {r : ℕ} (h : s.vm = .raised r ∨ s.vm = .lowered r) :
      StepsTo n s .ret { s with
        vm := .mainLoop
        returned := s.returned ++ [r] }

lemma StepsTo.of_step {n : Native} {s s' : State} {a : Step} (h : step n s a = some s') :
    StepsTo n s a s' := by
  obtain ⟨java, timeQuit, vm, savingState, next, commands, returned, dismissed⟩ := s
  cases a with
  | sendText =>
    cases java <;> cases h
    exact .sendText rfl
  | saveStateDB =>
    cases java <;> cases h
    exact .saveStateDB rfl
  | startTimeListener =>
    cases java <;> cases h
    exact .startTimeListener rfl
  | checkTimeQuit =>
    cases java <;> cases h
    cases timeQuit with
    | true => exact .quit rfl rfl
    | false => exact .stay rfl rfl
  | poll =>
    cases java with
    | polling r =>
      simp only [step] at h
      by_cases hdone : isDone (checkCompletion n savingState) = true
      · rw [if_pos hdone] at h
        cases h
        exact .done rfl hdone
      · rw [if_neg hdone] at h
        cases h
        exact .saving rfl
    | _ => cases h
  | wake =>
    cases java <;> cases h
    exact .wake rfl
  | onPostExecute =>
    cases java <;> cases h
    exact .onPostExecute rfl
  | onDestroy =>
    cases h
    exact .onDestroy
  | begin =>
    cases vm <;> cases commands <;> cases h
    exact .begin rfl rfl
  | raise =>
    cases vm <;> cases h
    exact .raise rfl
  | lower =>
    cases vm <;> cases h
    exact .lower rfl
  | ret =>
    cases vm with
    | raised r =>
      cases h
      exact .ret (.inl rfl)
    | lowered r =>
      cases h
      exact .ret (.inr rfl)
    | _ => cases h

/-- The Java side where it was, and the request of every return so far still there. -/
lemma State.Valid.of_java {s s' : State} (hs : s.Valid) (hjava : s'.java = s.java)
    (hquit : s'.timeQuit = s.timeQuit) (hret : ∀ r ∈ s.returned, r ∈ s'.returned)
    (hdismissed : s'.dismissed = s.dismissed) : s'.Valid where
  leaving r hr := hret r (hs.leaving r (hjava ▸ hr))
  quit r hr hq := hret r (hs.quit r (hjava ▸ hr) (hquit ▸ hq))
  truthful r hr := hret r (hs.truthful r (hdismissed ▸ hr))

/-- A step that is in time keeps this. -/
lemma State.Valid.step {n : Native} {s s' : State} {a : Step} (hs : s.Valid)
    (htime : InTime n s a) (h : step n s a = some s') : s'.Valid := by
  cases StepsTo.of_step h with
  | sendText _ => exact ⟨fun r hr => (nomatch hr), fun r hr => (nomatch hr), hs.truthful⟩
  | saveStateDB _ => exact ⟨fun r hr => (nomatch hr), fun r hr => (nomatch hr), hs.truthful⟩
  | startTimeListener _ =>
    exact ⟨fun r hr => (nomatch hr), fun r _ hq => (nomatch hq), hs.truthful⟩
  | @quit r hr hquit =>
    refine ⟨fun r' hr' => ?_, fun r' hr' => (nomatch hr'), hs.truthful⟩
    obtain rfl := Java.leaving.inj hr'
    exact hs.quit r (by rw [hr]; rfl) hquit
  | stay _ hquit =>
    refine ⟨fun r' hr' => (nomatch hr'), fun r' _ hq => ?_, hs.truthful⟩
    exact absurd (hquit.symm.trans hq) (by decide)
  | @done r hr hdone =>
    refine ⟨fun r' hr' => ?_, fun r' hr' => (nomatch hr'), hs.truthful⟩
    obtain rfl := Java.leaving.inj hr'
    exact htime.returned hr hdone
  | saving hr =>
    refine ⟨fun r' hr' => (nomatch hr'), fun r' hr' hq => ?_, hs.truthful⟩
    exact hs.quit r' (by rw [hr]; exact hr') hq
  | wake hr =>
    refine ⟨fun r' hr' => (nomatch hr'), fun r' hr' hq => ?_, hs.truthful⟩
    exact hs.quit r' (by rw [hr]; exact hr') hq
  | @onPostExecute r hr =>
    refine ⟨fun r' hr' => (nomatch hr'), fun r' hr' => (nomatch hr'), fun r' hr' => ?_⟩
    rcases List.mem_append.mp hr' with hold | hnew
    · exact hs.truthful r' hold
    · obtain rfl := List.mem_singleton.mp hnew
      exact hs.leaving r' hr
  | onDestroy => exact ⟨hs.leaving, fun r hr _ => htime r hr, hs.truthful⟩
  | begin _ _ => exact hs.of_java rfl rfl (fun _ hr => hr) rfl
  | raise _ => exact hs.of_java rfl rfl (fun _ hr => hr) rfl
  | lower _ => exact hs.of_java rfl rfl (fun _ hr => hr) rfl
  | ret _ => exact hs.of_java rfl rfl (fun _ hr => List.mem_append_left _ hr) rfl

/-- In every run whose steps are in time a dialog is dismissed only behind the return of the
`do_savevm` of its request. -/
theorem dismissed_returned (n : Native) (as : List Step) (s : State)
    (htime : Guarded (step n) (InTime n) .init as) (h : run (step n) .init as = some s) :
    s.Truthful := by
  have hinit : State.init.Valid :=
    ⟨fun r hr => (nomatch hr), fun r hr => (nomatch hr), fun r hr => (nomatch hr)⟩
  have hvalid := run_invariant_of_guarded (fun s a s' hs ht hstep => hs.step ht hstep) hinit htime h
  exact hvalid.truthful

/-- A poll during the save, and one behind it. -/
theorem dismissed_returned_slow_save :
    (⟨.idle, true, .mainLoop, 0, 1, [], [0], [0]⟩ : State).Truthful :=
  dismissed_returned ⟨some true, true, true⟩
    [.sendText, .begin, .saveStateDB, .raise, .startTimeListener, .checkTimeQuit, .poll, .lower,
      .ret, .wake, .checkTimeQuit, .poll, .onPostExecute] _ (by decide) (by decide)

/-- A poll before the VM thread has begun the save reads the flag of the time before: the dialog
is dismissed and nothing is saved. -/
theorem dismissed_before_begin :
    run (step ⟨some true, true, true⟩) .init
      [.sendText, .saveStateDB, .startTimeListener, .checkTimeQuit, .poll, .onPostExecute] =
      some ⟨.idle, true, .mainLoop, 0, 1, [0], [], [0]⟩ := by
  decide

end Limbo.Session
