import Mathlib

/-!
# The status listeners

`LimboActivity` starts a thread in `onCreate` and in every `onResume` that looks at the status of
the machine every three seconds. A listener first stops the others through the flag `timeQuit` of
the activity and then clears the flag for itself; pausing the activity sets it. Whoever looks at
the flag in between stops.
-/

namespace Limbo.Session

/-! ### Listeners and activities -/

/-- Where a listener thread is. -/
inductive Place where
  /-- In front of `stopTimeListener()`. -/
  | started
  /-- In front of `timeQuit = false`. -/
  | stopped
  /-- At the condition of the loop. -/
  | looking
  /-- In `Thread.sleep(3000)`. -/
  | sleeping
  /-- Behind the loop, in `lockTime.wait()`. -/
  | waiting
  | ended
deriving DecidableEq, Repr

/-- A listener thread: its activity, how many loops had begun when its own did, and how many had
when it last looked at the flag. -/
structure Listener where
  activity : ℕ
  place : Place
  begun : ℕ
  looked : ℕ
deriving DecidableEq, Repr

namespace Listener

/-- A thread that has been started for an activity. -/
def start (activity : ℕ) : Listener := ⟨activity, .started, 0, 0⟩

/-- The loop of `timeListener` runs. -/
def InLoop (t : Listener) : Prop := t.place = .looking ∨ t.place = .sleeping

instance (t : Listener) : Decidable t.InLoop := inferInstanceAs (Decidable (_ ∨ _))

end Listener

inductive Phase where
  | none
  | created
  | resumed
  | paused
deriving DecidableEq, Repr

/-- The activities that have been created, of which the last one is on the screen, and the listeners
of all of them. -/
structure Activities where
  activity : ℕ
  phase : Phase
  timeQuit : ℕ → Bool
  /-- How many loops have begun. -/
  loops : ℕ
  listeners : List Listener

inductive Callback where
  | create
  | resume
  | pause
  | destroy (activity : ℕ)
  /-- A step of a listener thread. -/
  | listener (i : ℕ)
deriving DecidableEq, Repr

namespace Activities

def init : Activities := ⟨0, .none, fun _ => false, 0, []⟩

/-- `stopTimeListener()`. -/
def stopTimeListener (activity : ℕ) (s : Activities) : Activities :=
  { s with timeQuit := Function.update s.timeQuit activity true }

/-- `execTimeListener()`. -/
def execTimeListener (s : Activities) : Activities :=
  { s with listeners := s.listeners ++ [.start s.activity] }

/-- One step of `startTimeListener`, with `timeListener` in it. -/
def listenerStep (i : ℕ) (t : Listener) (s : Activities) : Activities :=
  match t.place with
  | .started =>
    { s.stopTimeListener t.activity with
      listeners := s.listeners.set i { t with place := .stopped } }
  | .stopped => { s with
      timeQuit := Function.update s.timeQuit t.activity false
      loops := s.loops + 1
      listeners := s.listeners.set i
        { t with
          place := .looking
          begun := s.loops + 1
          looked := s.loops + 1 } }
  | .looking => { s with
      listeners := s.listeners.set i
        { t with
          place := if s.timeQuit t.activity then .waiting else .sleeping
          looked := s.loops } }
  | .sleeping => { s with listeners := s.listeners.set i { t with place := .looking } }
  | .waiting =>
    if s.timeQuit t.activity then
      { s with listeners := s.listeners.set i { t with place := .ended } }
    else s
  | .ended => s

/-- One callback of the activity, or one step of a thread. -/
def step (s : Activities) : Callback → Activities
  | .create => { s with
      activity := s.activity + 1
      phase := .created }.execTimeListener
  | .resume => { s with phase := .resumed }.execTimeListener
  | .pause => { s with phase := .paused }.stopTimeListener s.activity
  | .destroy activity => s.stopTimeListener activity
  | .listener i =>
    match s.listeners[i]? with
    | some t => s.listenerStep i t
    | none => s

/-- The order that Android keeps: an activity is paused before it is resumed again, before another
one is created and before it is destroyed. -/
def Allowed (s : Activities) : Callback → Prop
  | .create => s.phase = .none ∨ s.phase = .paused
  | .resume => s.phase = .created ∨ s.phase = .paused
  | .pause => s.phase = .resumed
  | .destroy activity => activity < s.activity ∨ activity = s.activity ∧ s.phase = .paused
  | .listener i => i < s.listeners.length

instance (s : Activities) : (c : Callback) → Decidable (s.Allowed c)
  | .create => inferInstanceAs (Decidable (_ ∨ _))
  | .resume => inferInstanceAs (Decidable (_ ∨ _))
  | .pause => inferInstanceAs (Decidable (_ = _))
  | .destroy _ => inferInstanceAs (Decidable (_ ∨ _ ∧ _))
  | .listener _ => inferInstanceAs (Decidable (_ < _))

/-- One callback after the other. -/
def run (s : Activities) (cs : List Callback) : Activities := cs.foldl step s

/-! ### What is asked of them -/

/-- Of two loops that are alive, the one that began first has not looked at the flag since the other
one began. -/
def OnePoller (s : Activities) : Prop :=
  ∀ (i j : ℕ) (t u : Listener), s.listeners[i]? = some t → s.listeners[j]? = some u → i ≠ j → t.InLoop → u.InLoop →
    t.looked < u.begun ∨ u.looked < t.begun

/-- A listener clears the flag only while its activity is not paused and no other loop of the
activity is alive. -/
def Kept (s : Activities) : Callback → Prop
  | .listener i => ∀ t ∈ s.listeners[i]?, t.place = .stopped →
      (t.activity = s.activity ∧ s.phase ≠ .paused) ∧
        ∀ u ∈ s.listeners, u.InLoop → u.activity ≠ t.activity
  | _ => True

instance (s : Activities) : (c : Callback) → Decidable (s.Kept c)
  | .create => .isTrue trivial
  | .resume => .isTrue trivial
  | .pause => .isTrue trivial
  | .destroy _ => .isTrue trivial
  | .listener i => inferInstanceAs (Decidable (∀ t ∈ s.listeners[i]?, _ → _))

/-- Every callback of a run is one that Android makes, and every step is kept. -/
def AllKept : Activities → List Callback → Prop
  | _, [] => True
  | s, c :: cs => (s.Allowed c ∧ s.Kept c) ∧ AllKept (s.step c) cs

instance AllKept.decidable : (s : Activities) → (cs : List Callback) → Decidable (AllKept s cs)
  | _, [] => .isTrue trivial
  | s, c :: cs =>
    have := AllKept.decidable (s.step c) cs
    inferInstanceAs (Decidable ((_ ∧ _) ∧ _))

/-! ### One loop for each activity -/

variable {s : Activities}

/-- What the flags say about the loops that are alive. -/
structure Consistent (s : Activities) : Prop where
  none : s.phase = .none → s.listeners = []
  activity : ∀ t ∈ s.listeners, t.activity ≤ s.activity
  looked : ∀ t ∈ s.listeners, t.looked ≤ s.loops
  /-- A loop whose flag is clear belongs to the activity on the screen. -/
  clear : ∀ t ∈ s.listeners, t.InLoop → s.timeQuit t.activity = false →
    t.activity = s.activity ∧ s.phase ≠ .paused
  one : ∀ (i j : ℕ) (t u : Listener), s.listeners[i]? = some t → s.listeners[j]? = some u → i ≠ j →
    t.InLoop → u.InLoop → t.activity ≠ u.activity
  before : ∀ t ∈ s.listeners, ∀ u ∈ s.listeners, t.InLoop → u.InLoop →
    t.activity < u.activity → t.looked < u.begun

lemma Consistent.init : Consistent .init := by
  constructor <;> simp [Activities.init]

lemma Consistent.onePoller (h : Consistent s) : s.OnePoller := by
  intro i j t u ht hu hne hloop hloop'
  have ht' := List.mem_of_getElem? ht
  have hu' := List.mem_of_getElem? hu
  rcases Nat.lt_or_gt_of_ne (h.one i j t u ht hu hne hloop hloop') with hlt | hlt
  · exact .inl (h.before t ht' u hu' hloop hloop' hlt)
  · exact .inr (h.before u hu' t ht' hloop' hloop hlt)

/-- Setting a flag keeps the invariant. -/
lemma Consistent.stopTimeListener (h : Consistent s) (activity : ℕ) : Consistent (s.stopTimeListener activity) := by
  refine ⟨h.none, h.activity, h.looked, fun t ht hloop hclear => ?_, h.one, h.before⟩
  refine h.clear t ht hloop ?_
  by_cases heq : t.activity = activity
  · rw [heq] at hclear
    simp [Activities.stopTimeListener] at hclear
  · simpa [Activities.stopTimeListener, heq] using hclear

/-- A thread that has not begun its loop is added. -/
lemma Consistent.execTimeListener (h : Consistent s) (hphase : s.phase ≠ .none) : Consistent s.execTimeListener := by
  have hloop : ¬ (Listener.start s.activity).InLoop := by simp [Listener.InLoop, Listener.start]
  have hmem {t : Listener} (ht : t ∈ s.execTimeListener.listeners) :
      t ∈ s.listeners ∨ t = .start s.activity := by
    simpa [Activities.execTimeListener] using ht
  have hold {t : Listener} (ht : t ∈ s.execTimeListener.listeners) (hin : t.InLoop) :
      t ∈ s.listeners := (hmem ht).resolve_right fun heq => hloop (heq ▸ hin)
  refine ⟨fun hnone => absurd hnone hphase, fun t ht => ?_, fun t ht => ?_,
    fun t ht hin => h.clear t (hold ht hin) hin, fun i j t u ht hu hne hin hin' => ?_,
    fun t ht u hu hin hin' => h.before t (hold ht hin) u (hold hu hin') hin hin'⟩
  · rcases hmem ht with ht | rfl
    · exact h.activity t ht
    · exact le_rfl
  · rcases hmem ht with ht | rfl
    · exact h.looked t ht
    · exact Nat.zero_le _
  · have hindex {i : ℕ} {t : Listener} (ht : s.execTimeListener.listeners[i]? = some t)
        (hin : t.InLoop) : s.listeners[i]? = some t := by
      simp only [Activities.execTimeListener, List.getElem?_append] at ht
      split_ifs at ht with hlt
      · exact ht
      · have heq : t = .start s.activity := by
          have := List.mem_of_getElem? ht
          simpa using this
        exact absurd hin (heq ▸ hloop)
    exact h.one i j t u (hindex ht hin) (hindex hu hin') hne hin hin'

/-- A thread moves on without beginning its loop. -/
lemma Consistent.set (h : Consistent s) {i : ℕ} {t t' : Listener}
    (ht : s.listeners[i]? = some t) (hactivity : t'.activity = t.activity)
    (hbegun : t'.begun = t.begun) (hlooked : t'.looked ≤ s.loops)
    (hin : t'.InLoop → t.InLoop ∧
      (t'.looked = t.looked ∨ s.timeQuit t.activity = false)) :
    Consistent { s with listeners := s.listeners.set i t' } := by
  have hmem := List.mem_of_getElem? ht
  have hcases {u : Listener} (hu : u ∈ s.listeners.set i t') : u ∈ s.listeners ∨ u = t' :=
    List.mem_or_eq_of_mem_set hu
  refine ⟨fun hnone => by simp [h.none hnone], fun u hu => ?_, fun u hu => ?_,
    fun u hu hloop hclear => ?_, fun j k u v hu hv hne hloop hloop' => ?_,
    fun u hu v hv hloop hloop' hlt => ?_⟩
  · rcases hcases hu with hu | rfl
    · exact h.activity u hu
    · exact hactivity ▸ h.activity t hmem
  · rcases hcases hu with hu | rfl
    · exact h.looked u hu
    · exact hlooked
  · rcases hcases hu with hu | rfl
    · exact h.clear u hu hloop hclear
    · rw [hactivity] at hclear ⊢
      exact h.clear t hmem (hin hloop).1 hclear
  · have hindex {j : ℕ} {u : Listener} (hu : (s.listeners.set i t')[j]? = some u)
        (hloop : u.InLoop) : ∃ u₀, s.listeners[j]? = some u₀ ∧ u₀.InLoop ∧
          u₀.activity = u.activity := by
      by_cases heq : i = j
      · subst heq
        rw [List.getElem?_set_self' , ht] at hu
        obtain rfl : t' = u := by simpa using hu
        exact ⟨t, ht, (hin hloop).1, hactivity.symm⟩
      · rw [List.getElem?_set_ne heq] at hu
        exact ⟨u, hu, hloop, rfl⟩
    obtain ⟨u₀, hu₀, hin₀, hu₁⟩ := hindex hu hloop
    obtain ⟨v₀, hv₀, hin₁, hv₁⟩ := hindex hv hloop'
    rw [← hu₁, ← hv₁]
    exact h.one j k u₀ v₀ hu₀ hv₀ hne hin₀ hin₁
  · have hbefore {v₀ : Listener} (hv₀ : v₀ ∈ s.listeners) (hin₀ : v₀.InLoop)
        (hlt₀ : u.activity < v₀.activity) : u.looked < v₀.begun := by
      rcases hcases hu with hu | rfl
      · exact h.before u hu v₀ hv₀ hloop hin₀ hlt₀
      · obtain ⟨hloop₀, hlook⟩ := hin hloop
        rw [hactivity] at hlt₀
        rcases hlook with hlook | hclear
        · exact hlook ▸ h.before t hmem v₀ hv₀ hloop₀ hin₀ hlt₀
        · have hcurrent := (h.clear t hmem hloop₀ hclear).1
          exact absurd hlt₀ (by rw [hcurrent]; exact (h.activity v₀ hv₀).not_gt)
    rcases hcases hv with hv | rfl
    · exact hbefore hv hloop' hlt
    · rw [hbegun]
      exact hbefore hmem (hin hloop').1 (hactivity ▸ hlt)

/-- A thread of the activity on the screen begins its loop, when no other one of it is alive. -/
lemma Consistent.begin (h : Consistent s) {i : ℕ} {t t' : Listener}
    (ht : s.listeners[i]? = some t) (hstopped : t.place = .stopped)
    (hkept : (t.activity = s.activity ∧ s.phase ≠ .paused) ∧
      ∀ u ∈ s.listeners, u.InLoop → u.activity ≠ t.activity)
    (hactivity : t'.activity = t.activity) (hbegun : t'.begun = s.loops + 1)
    (hlooked : t'.looked = s.loops + 1) :
    Consistent { s with
      timeQuit := Function.update s.timeQuit t.activity false
      loops := s.loops + 1
      listeners := s.listeners.set i t' } := by
  obtain ⟨⟨hcurrent, hphase⟩, hother⟩ := hkept
  have hmem := List.mem_of_getElem? ht
  have hout : ¬ t.InLoop := by simp [Listener.InLoop, hstopped]
  have hcases {u : Listener} (hu : u ∈ s.listeners.set i t') : u ∈ s.listeners ∨ u = t' :=
    List.mem_or_eq_of_mem_set hu
  refine ⟨fun hnone => by simp [h.none hnone], fun u hu => ?_, fun u hu => ?_,
    fun u hu hloop hclear => ?_, fun j k u v hu hv hne hloop hloop' => ?_,
    fun u hu v hv hloop hloop' hlt => ?_⟩
  · rcases hcases hu with hu | rfl
    · exact h.activity u hu
    · exact hactivity ▸ h.activity t hmem
  · rcases hcases hu with hu | rfl
    · exact (h.looked u hu).trans (Nat.le_succ _)
    · exact hlooked.le
  · rcases hcases hu with hu | rfl
    · have hne := hother u hu hloop
      exact h.clear u hu hloop (by simpa [hne] using hclear)
    · exact ⟨hactivity.trans hcurrent, hphase⟩
  · have hindex {j : ℕ} {u : Listener} (hu : (s.listeners.set i t')[j]? = some u) :
        (i = j ∧ u = t') ∨ s.listeners[j]? = some u := by
      by_cases heq : i = j
      · subst heq
        rw [List.getElem?_set_self', ht] at hu
        exact .inl ⟨rfl, by simpa using hu.symm⟩
      · exact .inr (by rwa [List.getElem?_set_ne heq] at hu)
    rcases hindex hu with ⟨rfl, rfl⟩ | hu' <;> rcases hindex hv with ⟨rfl, rfl⟩ | hv'
    · exact absurd rfl hne
    · rw [hactivity]
      exact (hother v (List.mem_of_getElem? hv') hloop').symm
    · rw [hactivity]
      exact hother u (List.mem_of_getElem? hu') hloop
    · exact h.one j k u v hu' hv' hne hloop hloop'
  · rcases hcases hv with hv' | rfl
    · rcases hcases hu with hu' | rfl
      · exact h.before u hu' v hv' hloop hloop' hlt
      · rw [hactivity, hcurrent] at hlt
        exact absurd hlt (h.activity v hv').not_gt
    · rcases hcases hu with hu | rfl
      · rw [hbegun]
        exact Nat.lt_succ_of_le (h.looked u hu)
      · exact absurd hlt (lt_irrefl _)

lemma Consistent.listenerStep (h : Consistent s) {i : ℕ} {t : Listener}
    (ht : s.listeners[i]? = some t) (hkept : s.Kept (.listener i)) :
    Consistent (s.listenerStep i t) := by
  have hlooked := h.looked t (List.mem_of_getElem? ht)
  unfold Activities.listenerStep
  split
  next hplace =>
    refine (h.stopTimeListener t.activity).set ht rfl rfl hlooked ?_
    simp [Listener.InLoop]
  next hplace => exact h.begin ht hplace (hkept t ht hplace) rfl rfl rfl
  next hplace =>
    refine h.set ht rfl rfl le_rfl fun hin => ⟨.inl hplace, .inr ?_⟩
    by_contra hquit
    rw [Bool.not_eq_false] at hquit
    simp [Listener.InLoop, hquit] at hin
  next hplace => exact h.set ht rfl rfl hlooked fun _ => ⟨.inr hplace, .inl rfl⟩
  next hplace =>
    split_ifs
    · refine h.set ht rfl rfl hlooked ?_
      simp [Listener.InLoop]
    · exact h
  next => exact h

/-- Every kept step keeps the invariant. -/
lemma Consistent.step (h : Consistent s) {c : Callback} (hallowed : s.Allowed c)
    (hkept : s.Kept c) : Consistent (s.step c) := by
  cases c with
  | create =>
    have hcreated : Consistent { s with
        activity := s.activity + 1
        phase := .created } := by
      refine ⟨by simp, fun t ht => (h.activity t ht).trans (Nat.le_succ _), h.looked,
        fun t ht hloop hclear => ?_, h.one, h.before⟩
      rcases hallowed with hnone | hpaused
      · rw [h.none hnone] at ht
        simp at ht
      · exact absurd hpaused (h.clear t ht hloop hclear).2
    exact hcreated.execTimeListener (by simp)
  | resume =>
    have hresumed : Consistent { s with phase := .resumed } :=
      ⟨by simp, h.activity, h.looked,
        fun t ht hloop hclear => ⟨(h.clear t ht hloop hclear).1, by simp⟩, h.one, h.before⟩
    exact hresumed.execTimeListener (by simp)
  | pause =>
    have hstop := h.stopTimeListener s.activity
    refine ⟨by simp [Activities.step, Activities.stopTimeListener], hstop.activity, hstop.looked,
      fun t ht hloop hclear => ?_, hstop.one, hstop.before⟩
    have hcurrent := (hstop.clear t ht hloop hclear).1
    simp only [Activities.step, Activities.stopTimeListener] at hclear hcurrent
    rw [hcurrent] at hclear
    simp at hclear
  | destroy activity => exact h.stopTimeListener activity
  | listener i =>
    simp only [Activities.step]
    split
    next t ht => exact h.listenerStep ht hkept
    next => exact h

lemma Consistent.run (h : Consistent s) {cs : List Callback} (hkept : AllKept s cs) :
    Consistent (s.run cs) := by
  induction cs generalizing s with
  | nil => exact h
  | cons c cs ih => exact ih (h.step hkept.1.1 hkept.1.2) hkept.2

/-! ### After the last pause -/

/-- How many steps a listener is away from having left its loop, once the flag is set. -/
def left (t : Listener) : ℕ :=
  match t.place with
  | .looking => 1
  | .sleeping => 2
  | _ => 0

/-- The callback is no callback of the activity on the screen. -/
def OfListener : Callback → Prop
  | .listener _ => True
  | .destroy _ => True
  | _ => False

/-- While the activity is paused, a step takes a listener closer to the end of its loop. -/
lemma listenerStep_paused (h : Consistent s) (hphase : s.phase = .paused) {j : ℕ} {t : Listener}
    (ht : s.listeners[j]? = some t) (hkept : s.Kept (.listener j)) :
    (s.listenerStep j t).phase = .paused ∧ ∃ t', left t' ≤ left t - 1 ∧
      (s.listenerStep j t).listeners = s.listeners.set j t' := by
  obtain ⟨hlt, rfl⟩ := List.getElem?_eq_some_iff.mp ht
  have hsame : s.listeners = s.listeners.set j s.listeners[j] := by simp
  unfold Activities.listenerStep
  split
  next hplace => exact ⟨hphase, _, by simp [left], rfl⟩
  next hplace => exact absurd hphase (hkept _ ht hplace).1.2
  next hplace =>
    have hquit : s.timeQuit s.listeners[j].activity = true := by
      by_contra hclear
      rw [Bool.not_eq_true] at hclear
      exact (h.clear _ (List.getElem_mem hlt) (.inl hplace) hclear).2 hphase
    exact ⟨hphase, _, by simp [left, hquit], rfl⟩
  next hplace => exact ⟨hphase, _, by simp [left, hplace], rfl⟩
  next hplace =>
    split_ifs
    · exact ⟨hphase, _, by simp [left], rfl⟩
    · exact ⟨hphase, _, by simp [left, hplace], hsame⟩
  next hplace => exact ⟨hphase, _, by simp [left, hplace], hsame⟩

lemma left_step (h : Consistent s) (hphase : s.phase = .paused) {c : Callback}
    (hc : OfListener c) (hkept : s.Kept c) {i n : ℕ}
    (hleft : ∀ t, s.listeners[i]? = some t → left t ≤ n + [c].count (.listener i)) :
    (s.step c).phase = .paused ∧ ∀ t, (s.step c).listeners[i]? = some t → left t ≤ n := by
  cases c with
  | create => exact hc.elim
  | resume => exact hc.elim
  | pause => exact hc.elim
  | destroy activity =>
    simp only [List.count_cons, List.count_nil] at hleft
    exact ⟨hphase, hleft⟩
  | listener j =>
    simp only [Activities.step]
    split
    next t ht =>
      obtain ⟨hpaused, t', hless, hlist⟩ := listenerStep_paused h hphase ht hkept
      refine ⟨hpaused, fun u hu => ?_⟩
      rw [hlist] at hu
      by_cases heq : j = i
      · subst heq
        rw [List.getElem?_set_self', ht] at hu
        obtain rfl : t' = u := by simpa using hu
        have hbound := hleft t ht
        simp only [List.count_singleton, beq_self_eq_true, if_true] at hbound
        omega
      · rw [List.getElem?_set_ne heq] at hu
        simpa [heq] using hleft u hu
    next hnone =>
      refine ⟨hphase, fun u hu => ?_⟩
      by_cases heq : j = i
      · subst heq
        simp [hnone] at hu
      · simpa [heq] using hleft u hu

lemma not_inLoop_run (h : Consistent s) (hphase : s.phase = .paused) {cs : List Callback}
    (hcs : ∀ c ∈ cs, OfListener c) (hkept : AllKept s cs) {i : ℕ}
    (hleft : ∀ t, s.listeners[i]? = some t → left t ≤ cs.count (.listener i)) {t : Listener}
    (ht : (s.run cs).listeners[i]? = some t) : ¬ t.InLoop := by
  induction cs generalizing s with
  | nil =>
    have hzero := hleft t ht
    rintro (hplace | hplace) <;> simp [left, hplace] at hzero
  | cons c cs ih =>
    have hc := hcs c List.mem_cons_self
    have hstep := left_step h hphase (n := cs.count (.listener i)) hc hkept.1.2 fun t ht => by
      have hcount := hleft t ht
      rwa [← List.singleton_append, List.count_append, add_comm] at hcount
    exact ih (h.step hkept.1.1 hkept.1.2) hstep.1
      (fun d hd => hcs d (List.mem_cons_of_mem _ hd)) hkept.2 hstep.2 ht

lemma AllKept.append {pre cs : List Callback} (h : AllKept s (pre ++ cs)) :
    AllKept s pre ∧ AllKept (s.run pre) cs := by
  induction pre generalizing s with
  | nil => exact ⟨trivial, h⟩
  | cons c pre ih => exact ⟨⟨h.1, (ih h.2).1⟩, (ih h.2).2⟩

/-- In a run whose steps are all kept, of two loops that are alive the first has not yet looked at
the flag since the second began; and once the last pause is over, a listener that has taken two
steps has left its loop. -/
theorem onePoller_run (cs : List Callback) (hkept : AllKept init cs) :
    OnePoller (init.run cs) ∧
      ∀ pre rest, cs = pre ++ .pause :: rest → (∀ c ∈ rest, OfListener c) →
        ∀ i t, 2 ≤ rest.count (.listener i) → (init.run cs).listeners[i]? = some t →
          ¬ t.InLoop := by
  refine ⟨(Consistent.init.run hkept).onePoller, ?_⟩
  rintro pre rest rfl hrest i t hcount ht
  obtain ⟨hpre, hrestKept⟩ := hkept.append
  have hpaused : Consistent ((init.run pre).step .pause) :=
    (Consistent.init.run hpre).step hrestKept.1.1 hrestKept.1.2
  rw [Activities.run, List.foldl_append] at ht
  refine not_inLoop_run hpaused rfl hrest hrestKept.2 (fun u _ => le_trans ?_ hcount) ht
  unfold left
  split <;> omega

/-- The listener of `onCreate` sees that the one of `onResume` stops it; then the activity is
paused. -/
theorem onePoller_run_pause :
    let cs := [Callback.create, .resume, .listener 0, .listener 0, .listener 0, .listener 0,
      .listener 1, .listener 0, .listener 1, .listener 1, .pause, .listener 1, .listener 1]
    OnePoller (init.run cs) ∧
      ∀ pre rest, cs = pre ++ .pause :: rest → (∀ c ∈ rest, OfListener c) →
        ∀ i t, 2 ≤ rest.count (.listener i) → (init.run cs).listeners[i]? = some t →
          ¬ t.InLoop :=
  onePoller_run _ (by decide)

/-- The listener of `onResume` clears the flag while the one of `onCreate` sleeps; that one goes on
when it looks. -/
theorem not_onePoller_resume :
    ¬ OnePoller (init.run [.create, .resume, .listener 0, .listener 0, .listener 0, .listener 1,
      .listener 1, .listener 0, .listener 0]) := by
  intro h
  have hboth := h 0 1 ⟨1, .sleeping, 1, 2⟩ ⟨1, .looking, 2, 2⟩ (by decide) (by decide) (by decide)
    (by decide) (by decide)
  exact absurd hboth (by decide)

end Activities

end Limbo.Session
