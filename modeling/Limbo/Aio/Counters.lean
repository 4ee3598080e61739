import Limbo.Aio.ThreadPool

/-!
# The counters of the thread pool

The counters are kept by hand in several places; in every state that the pool reaches they are the
numbers of workers in the corresponding places.
-/

namespace Limbo.Aio

open Lib

/-! ### Counting workers -/

namespace Worker

def isLive (w : Worker) : Bool := w ≠ exited

/-- The worker is in `cond_timedwait`. -/
def isIdle (w : Worker) : Bool := w = waiting ∨ w = woken false ∨ w = woken true

def isCreated (w : Worker) : Bool := w = created

def isStarting (w : Worker) : Bool := w = starting

def isSpawning (w : Worker) : Bool := w = spawning

end Worker

def Main.isSpawning (m : Main) : Bool := m = .spawning

/-- What a list counts after one of its members is replaced. -/
lemma countP_set_add {α : Type*} {l : List α} {i : ℕ} {a : α} (h : l[i]? = some a) (p : α → Bool)
    (a' : α) : (l.set i a').countP p + (p a).toNat = l.countP p + (p a').toNat := by
  obtain ⟨hlt, rfl⟩ := List.getElem?_eq_some_iff.mp h
  have hle := List.boole_getElem_le_countP (p := p) hlt
  rw [List.countP_set hlt]
  generalize p l[i] = b at hle ⊢
  cases b <;> cases p a' <;> simp only [Bool.false_eq_true, if_true, if_false] at hle ⊢ <;>
    simp only [Bool.toNat_true, Bool.toNat_false] <;> omega

lemma countP_set {α : Type*} {l : List α} {i : ℕ} {a : α} (h : l[i]? = some a) (p : α → Bool)
    (a' : α) : (l.set i a').countP p = l.countP p + (p a').toNat - (p a).toNat :=
  Nat.eq_sub_of_add_eq (countP_set_add h p a')

lemma countP_append_singleton {α : Type*} (l : List α) (p : α → Bool) (a : α) :
    (l ++ [a]).countP p = l.countP p + (p a).toNat := by
  cases h : p a <;> simp [h]

lemma countP_pos_of_getElem? {α : Type*} {l : List α} {i : ℕ} {a : α} (h : l[i]? = some a)
    {p : α → Bool} (hp : p a = true) : 0 < l.countP p :=
  List.countP_pos_iff.mpr ⟨a, List.mem_of_getElem? h, hp⟩

namespace ThreadPool

variable {s t : ThreadPool} {i : ℕ} {w u : Worker}

/-- The calls of `do_spawn_thread` that are in front of `thread_create`. -/
def creating (s : ThreadPool) : ℕ :=
  s.workers.countP Worker.isSpawning + s.main.isSpawning.toNat

/-- Each counter is the number of threads that it stands for, and a backlog of threads to create is
somebody's to work off. -/
structure Counted (s : ThreadPool) : Prop where
  cur : s.curThreads = s.workers.countP Worker.isLive + s.creating + s.newThreads
  idle : s.idleThreads = s.workers.countP Worker.isIdle
  pending : s.pendingThreads = s.workers.countP Worker.isCreated + s.creating
  new : 0 ≤ s.newThreads
  backlog : 0 < s.newThreads → s.newThreadBh = true ∨ 0 < s.pendingThreads ∨
    0 < s.workers.countP Worker.isStarting

lemma Counted.init : Counted .init := by
  constructor <;> simp [ThreadPool.init, creating, Main.isSpawning]

/-- A worker goes on and the counters change by what it leaves and what it comes to. -/
lemma Counted.of_move (h : Counted s) (hi : s.workers[i]? = some w)
    (hworkers : t.workers = s.workers.set i u) (hmain : t.main = s.main)
    (hcur : t.curThreads + s.newThreads + w.isLive.toNat + w.isSpawning.toNat =
      s.curThreads + t.newThreads + u.isLive.toNat + u.isSpawning.toNat)
    (hidle : t.idleThreads + w.isIdle.toNat = s.idleThreads + u.isIdle.toNat)
    (hpending : t.pendingThreads + w.isCreated.toNat + w.isSpawning.toNat =
      s.pendingThreads + u.isCreated.toNat + u.isSpawning.toNat)
    (hnew : 0 ≤ t.newThreads)
    (hbacklog : 0 < t.newThreads → t.newThreadBh = true ∨ 0 < t.pendingThreads ∨
      0 < t.workers.countP Worker.isStarting) : Counted t := by
  have hc := fun q => countP_set_add hi q u
  have hl := hc Worker.isLive
  have hd := hc Worker.isIdle
  have hr := hc Worker.isCreated
  have hs := hc Worker.isSpawning
  have h₁ := h.cur
  have h₂ := h.idle
  have h₃ := h.pending
  rw [← hworkers] at hl hd hr hs
  simp only [creating] at h₁ h₃
  refine ⟨?_, ?_, ?_, hnew, hbacklog⟩
  · rw [creating, hmain]
    omega
  · omega
  · rw [creating, hmain]
    omega

/-- Where neither side of a move is `starting` and nothing else changes, the backlog is as it
was. -/
lemma Counted.backlog_of_move (h : Counted s) (hi : s.workers[i]? = some w)
    (hworkers : t.workers = s.workers.set i u) (hw : w.isStarting = u.isStarting)
    (hnew : t.newThreads = s.newThreads) (hbh : t.newThreadBh = s.newThreadBh)
    (hpending : t.pendingThreads = s.pendingThreads) (ht : 0 < t.newThreads) :
    t.newThreadBh = true ∨ 0 < t.pendingThreads ∨ 0 < t.workers.countP Worker.isStarting := by
  have hc := countP_set_add hi Worker.isStarting u
  rw [hw, ← hworkers] at hc
  rw [hbh, hpending, Nat.add_right_cancel hc]
  exact h.backlog (hnew ▸ ht)

/-- What is counted: the requests are not, and of the main thread only whether it creates one. -/
def counters (s : ThreadPool) : (ℤ × ℤ × ℤ × ℤ × Bool) × List Worker :=
  ((s.curThreads, s.idleThreads, s.newThreads, s.pendingThreads, s.newThreadBh), s.workers)

lemma Counted.congr (h : Counted s) (hc : t.counters = s.counters)
    (hmain : t.main.isSpawning = s.main.isSpawning) : Counted t := by
  simp only [counters, Prod.mk.injEq] at hc
  obtain ⟨⟨hcur, hidle, hnew, hpending, hbh⟩, hworkers⟩ := hc
  have hcreating : t.creating = s.creating := by simp only [creating, hworkers, hmain]
  refine ⟨?_, ?_, ?_, ?_, ?_⟩
  · rw [hcur, hworkers, hcreating, hnew, h.cur]
  · rw [hidle, hworkers, h.idle]
  · rw [hpending, hworkers, hcreating, h.pending]
  · exact hnew ▸ h.new
  · rw [hnew, hbh, hpending, hworkers]
    exact h.backlog

/-- The loop of `aio_thread` counts the worker out, or in as idle, or takes a request. -/
lemma Counted.dequeue (h : Counted s) (timedout : Bool) {idle : ℤ}
    (hi : s.workers[i]? = some w) (hw : w = .looping ∨ ∃ b, w = .woken b)
    (hidle : idle + w.isIdle.toNat = s.idleThreads) :
    Counted ({ s with idleThreads := idle }.dequeue i timedout) := by
  have hlive : w.isLive = true := by
    rcases hw with rfl | ⟨b, rfl⟩ <;> simp [Worker.isLive]
  have hother : w.isCreated = false ∧ w.isStarting = false ∧ w.isSpawning = false := by
    rcases hw with rfl | ⟨b, rfl⟩ <;>
      simp [Worker.isCreated, Worker.isStarting, Worker.isSpawning]
  have hmove (u : Worker)
      (hw' : u.isCreated = false ∧ u.isStarting = false ∧ u.isSpawning = false) (cur idle' : ℤ)
      (hcur : cur + 1 = s.curThreads + u.isLive.toNat) (hidle' : idle' = idle + u.isIdle.toNat) :
      Counted { s.move i u with
        curThreads := cur
        idleThreads := idle' } := by
    refine h.of_move (u := u) hi rfl rfl ?_ ?_ ?_ h.new
      (h.backlog_of_move hi rfl (hother.2.1.trans hw'.2.1.symm) rfl rfl rfl)
    · simp only [ThreadPool.move, hlive, hother, hw', Bool.toNat_true, Bool.toNat_false]
      omega
    · simp only
      omega
    · simp [ThreadPool.move, hother, hw']
  simp only [ThreadPool.dequeue]
  split
  · split_ifs
    · exact hmove .exited (by decide) (s.curThreads - 1) idle (by simp [Worker.isLive])
        (by simp [Worker.isIdle])
    · exact hmove .waiting (by decide) s.curThreads (idle + 1) (by simp [Worker.isLive])
        (by simp [Worker.isIdle])
  · next acb _ _ =>
    exact (hmove (.running acb) (by simp [Worker.isCreated, Worker.isStarting, Worker.isSpawning])
      s.curThreads idle (by simp [Worker.isLive]) (by simp [Worker.isIdle])).congr rfl rfl

lemma Counted.pending_nonneg (h : Counted s) : 0 ≤ s.pendingThreads := by
  rw [h.pending]
  positivity

lemma Counted.spawnThread (h : Counted s) : Counted s.spawnThread := by
  have hcur := h.cur
  have hnew := h.new
  refine ⟨?_, h.idle, h.pending, ?_, fun _ => ?_⟩
  · change s.curThreads + 1 = s.workers.countP Worker.isLive + s.creating + (s.newThreads + 1)
    omega
  · change 0 ≤ s.newThreads + 1
    omega
  · rcases h.pending_nonneg.eq_or_lt with hzero | hpos
    · exact .inl (by simp [ThreadPool.spawnThread, ← hzero])
    · exact .inr (.inl hpos)

lemma Counted.paioSubmit (h : Counted s) (hs : s.main = .free) (nbytes : ℤ) :
    Counted (s.paioSubmit nbytes) := by
  have hmain : Main.signalling.isSpawning = s.main.isSpawning := by rw [hs]; rfl
  simp only [ThreadPool.paioSubmit, qemuPaioSubmit]
  split_ifs
  · exact h.spawnThread.congr rfl hmain
  · exact h.congr rfl hmain

lemma Counted.paioCancel (h : Counted s) (hs : s.main = .free) (acb : ℕ) :
    Counted (s.paioCancel acb) := by
  simp only [ThreadPool.paioCancel]
  split_ifs <;> exact h.congr rfl (by rw [hs]; rfl)

lemma Counted.posixAioRead (h : Counted s) (acb : ℕ) : Counted (s.posixAioRead acb) := by
  simp only [ThreadPool.posixAioRead]
  split_ifs
  · exact h.congr rfl rfl
  · exact h.congr rfl rfl
  · exact h

/-- The thread to create is counted as being created instead of as backlog. -/
lemma Counted.spawnThreadBh (h : Counted s) (hs : s.main = .free) {bh : Bool}
    (hnew : s.newThreads ≠ 0) :
    Counted { s with
      newThreadBh := bh
      newThreads := s.newThreads - 1
      pendingThreads := s.pendingThreads + 1
      main := .spawning } := by
  have hcur := h.cur
  have hpending := h.pending
  have hnonneg := h.new
  simp only [creating, hs, Main.isSpawning, reduceCtorEq, decide_false, Bool.toNat_false] at hcur hpending
  refine ⟨?_, h.idle, ?_, ?_, fun _ => .inr (.inl ?_)⟩
  · simp only [creating, Main.isSpawning, decide_true, Bool.toNat_true]
    omega
  · simp only [creating, Main.isSpawning, decide_true, Bool.toNat_true]
    omega
  · dsimp only
    omega
  · dsimp only
    omega

lemma Counted.threadCreate (h : Counted s) (hs : s.main = .spawning) :
    Counted { s with
      workers := s.workers ++ [.created]
      main := .free } := by
  have hcount := countP_append_singleton s.workers (a := .created)
  have hcur := h.cur
  have hpending := h.pending
  simp only [creating, hs, Main.isSpawning, decide_true, Bool.toNat_true] at hcur hpending
  refine ⟨?_, ?_, ?_, h.new, fun hnew => (h.backlog hnew).imp_right (.imp_right ?_)⟩
  · simp [creating, hcount, Worker.isLive, Worker.isSpawning, Main.isSpawning]
    omega
  · simp [hcount, Worker.isIdle, h.idle]
  · simp [creating, hcount, Worker.isCreated, Worker.isSpawning, Main.isSpawning]
    omega
  · rw [hcount]
    exact Nat.lt_add_right _

/-- A worker goes on with a request, which changes no counter. -/
lemma Counted.of_busy (h : Counted s) (hi : s.workers[i]? = some w)
    (hc : t.counters = (s.move i u).counters) (hmain : t.main = s.main)
    (hw : w.isLive = u.isLive ∧ w.isIdle = u.isIdle ∧ w.isCreated = u.isCreated ∧
      w.isStarting = u.isStarting ∧ w.isSpawning = u.isSpawning) : Counted t := by
  obtain ⟨hlive, hidle, hcreated, hstarting, hspawning⟩ := hw
  have hmove : Counted (s.move i u) :=
    h.of_move hi rfl rfl (by rw [hlive, hspawning]; rfl) (by rw [hidle]; rfl)
      (by rw [hcreated, hspawning]; rfl) h.new (h.backlog_of_move hi rfl hstarting rfl rfl rfl)
  exact hmove.congr hc (by rw [hmain]; rfl)

/-- A worker that wakes up stays counted as idle until it has the lock again. -/
lemma Counted.wake (h : Counted s) (hi : s.workers[i]? = some .waiting) (timedout : Bool) :
    Counted (s.move i (.woken timedout)) :=
  h.of_busy (u := .woken timedout) hi rfl rfl
    (by cases timedout <;> decide)

/-- The thread that `do_spawn_thread` of a worker was to create is there. -/
lemma Counted.workerCreate (h : Counted s) (hi : s.workers[i]? = some .spawning) :
    Counted { s.move i .looping with workers := (s.move i .looping).workers ++ [.created] } := by
  have hcount (q : Worker → Bool) :
      (s.workers.set i .looping ++ [Worker.created]).countP q + (q .spawning).toNat =
        s.workers.countP q + (q .looping).toNat + (q .created).toNat := by
    rw [countP_append_singleton, add_right_comm, countP_set_add hi q .looping]
  have hlive := hcount Worker.isLive
  have hidle := hcount Worker.isIdle
  have hcreated := hcount Worker.isCreated
  have hspawning := hcount Worker.isSpawning
  have hstarting := hcount Worker.isStarting
  simp only [Worker.isLive, Worker.isIdle, Worker.isCreated, Worker.isStarting, Worker.isSpawning,
    reduceCtorEq, decide_true, decide_false, decide_not, or_false, Bool.not_false, Bool.toNat_true,
    Bool.toNat_false] at hlive hidle hcreated hspawning hstarting
  have hcur := h.cur
  have hpending := h.pending
  simp only [creating] at hcur hpending
  refine ⟨?_, ?_, ?_, h.new, fun hnew => (h.backlog hnew).imp_right (.imp_right ?_)⟩
  all_goals
    simp only [ThreadPool.move, creating]
  · omega
  · rw [h.idle]
    omega
  · omega
  · omega

lemma Counted.work (h : Counted s) {ret : ℤ} (hi : s.workers[i]? = some w)
    (hw : s.work i ret w = some t) : Counted t := by
  have hnew := h.new
  cases w with
  | created =>
    cases hw
    have hstarting : Worker.starting ∈ (s.workers.set i .starting) :=
      List.mem_set (List.getElem?_eq_some_iff.mp hi).1 _
    refine h.of_move hi rfl rfl ?_ ?_ ?_ h.new fun _ => .inr (.inr ?_)
    · simp [ThreadPool.move, Worker.isLive, Worker.isSpawning]
    · rfl
    · simp [Worker.isCreated, Worker.isSpawning]
    · exact List.countP_pos_iff.mpr ⟨.starting, hstarting, by simp [Worker.isStarting]⟩
  | starting =>
    simp only [ThreadPool.work, doSpawnThread] at hw
    split_ifs at hw with hzero
    · cases hw
      refine h.of_move hi rfl rfl ?_ ?_ ?_ h.new fun hpos => absurd hzero hpos.ne'
      · simp [ThreadPool.move, Worker.isLive, Worker.isSpawning]
      · rfl
      · simp [ThreadPool.move, Worker.isCreated, Worker.isSpawning]
    · cases hw
      have hpending := h.pending_nonneg
      refine h.of_move hi rfl rfl ?_ ?_ ?_ ?_ fun _ => .inr (.inl ?_)
      · simp [ThreadPool.move, Worker.isLive, Worker.isSpawning]
        omega
      · rfl
      · simp [ThreadPool.move, Worker.isCreated, Worker.isSpawning]
      · simp only [ThreadPool.move]
        omega
      · simp only [ThreadPool.move]
        omega
  | spawning => cases hw; exact h.workerCreate hi
  | looping => cases hw; exact h.dequeue false hi (.inl rfl) (by simp [Worker.isIdle])
  | waiting => cases hw
  | woken timedout =>
    cases hw
    exact h.dequeue timedout hi (.inr ⟨timedout, rfl⟩) (by simp [Worker.isIdle])
  | running acb =>
    cases hw
    exact h.of_busy (u := .storing acb ret) hi rfl rfl (by simp [Worker.isLive, Worker.isIdle, Worker.isCreated,
      Worker.isStarting, Worker.isSpawning])
  | storing acb v =>
    cases hw
    exact h.of_busy (u := .notifying) hi rfl rfl (by simp [Worker.isLive, Worker.isIdle, Worker.isCreated,
      Worker.isStarting, Worker.isSpawning])
  | notifying =>
    cases hw
    exact h.of_busy (u := .looping) hi rfl rfl (by simp [Worker.isLive, Worker.isIdle, Worker.isCreated,
      Worker.isStarting, Worker.isSpawning])
  | exited => cases hw

/-- Every step keeps the counters true. -/
theorem Counted.step (h : Counted s) {e : Step} (he : s.step e = some t) : Counted t := by
  cases e with
  | paioSubmit nbytes =>
    simp only [ThreadPool.step, Option.ite_none_right_eq_some, Option.some.injEq] at he
    obtain ⟨hmain, rfl⟩ := he
    exact h.paioSubmit hmain nbytes
  | condSignal waiter =>
    cases waiter with
    | none =>
      simp only [ThreadPool.step, Option.ite_none_right_eq_some, Option.some.injEq] at he
      obtain ⟨⟨hmain, -⟩, rfl⟩ := he
      exact h.congr rfl (by rw [hmain]; rfl)
    | some i =>
      simp only [ThreadPool.step, Option.ite_none_right_eq_some, Option.some.injEq] at he
      obtain ⟨⟨hmain, hi⟩, rfl⟩ := he
      exact (h.wake hi false).congr rfl (by rw [ThreadPool.move, hmain]; rfl)
  | spawnThreadBh =>
    simp only [ThreadPool.step, Option.ite_none_right_eq_some] at he
    obtain ⟨⟨hmain, -⟩, he⟩ := he
    simp only [doSpawnThread] at he
    split_ifs at he with hzero
    · cases he
      exact ⟨h.cur, h.idle, h.pending, h.new, fun hnew => absurd hzero hnew.ne'⟩
    · cases he
      exact h.spawnThreadBh hmain hzero
  | threadCreate =>
    simp only [ThreadPool.step, Option.ite_none_right_eq_some, Option.some.injEq] at he
    obtain ⟨hmain, rfl⟩ := he
    exact h.threadCreate hmain
  | paioCancel acb =>
    simp only [ThreadPool.step, Option.ite_none_right_eq_some, Option.some.injEq] at he
    obtain ⟨⟨hmain, -⟩, rfl⟩ := he
    exact h.paioCancel hmain acb
  | pollCanceled =>
    cases hmain : s.main <;> simp only [ThreadPool.step, hmain, reduceCtorEq] at he
    cases he
    split_ifs
    · exact h
    · exact h.congr rfl (by rw [hmain]; rfl)
  | paioRemove =>
    cases hmain : s.main <;> simp only [ThreadPool.step, hmain, reduceCtorEq] at he
    cases he
    exact h.congr rfl (by rw [hmain]; rfl)
  | posixAioRead acb =>
    simp only [ThreadPool.step, Option.ite_none_right_eq_some, Option.some.injEq] at he
    obtain ⟨-, rfl⟩ := he
    exact h.posixAioRead acb
  | setAioMaxThreads threads =>
    cases he
    exact h.congr rfl rfl
  | wake i timedout =>
    simp only [ThreadPool.step, Option.ite_none_right_eq_some, Option.some.injEq] at he
    obtain ⟨hi, rfl⟩ := he
    exact h.wake hi timedout
  | worker i ret =>
    obtain ⟨w, hi, hw⟩ := Option.bind_eq_some_iff.mp he
    exact h.work hi hw

end ThreadPool

end Limbo.Aio
