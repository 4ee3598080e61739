import Limbo.Aio.Counters

/-!
# The requests of the thread pool

What the state says about one request is its view: in how many places it is, and what is written in
its `qemu_paiocb`. A step changes the view of at most one request.
-/

namespace Limbo.Aio

open Lib

/-! ### Where a request is -/

/-- The worker is about to execute the request. -/
def Worker.runs (r : ℕ) (w : Worker) : Bool := w = running r

/-- The worker has executed the request and is yet to store the result. -/
def Worker.stores (r : ℕ) : Worker → Bool
  | storing acb _ => acb = r
  | _ => false

/-- The worker still writes to the request. -/
def Worker.holds (r : ℕ) (w : Worker) : Bool := w.runs r || w.stores r

/-- The worker does something, or is on its way to look at the queue. -/
def Worker.isUp (w : Worker) : Bool := w ≠ waiting ∧ w ≠ exited

/-- `paio_cancel` is through with the request. -/
def Main.removes (r : ℕ) (m : Main) : Bool := m = removing r

/-- What the state says about a request. -/
structure View where
  queue : ℕ
  runs : ℕ
  holds : ℕ
  stores : ℕ
  executed : ℕ
  canceled : ℕ
  listed : ℕ
  delivered : ℕ
  ret : ℤ
  active : Bool
  submitted : Bool
  removing : Bool

/-- A request that is submitted is in exactly one place: in the queue, with a worker, executed or
canceled. The other conditions carry this one through the steps. -/
structure View.Ok (v : View) : Prop where
  place : v.queue + v.runs + v.executed + v.canceled = v.submitted.toNat
  listed : v.listed + v.delivered ≤ v.submitted.toNat
  queued : 0 < v.queue → 0 < v.listed ∧ v.ret = -EINPROGRESS ∧ v.active = false
  held : 0 < v.holds → 0 < v.listed ∧ v.ret = -EINPROGRESS ∧ v.active = true
  once : v.holds ≤ 1
  holds_eq : v.holds = v.runs + v.stores
  stored : 0 < v.stores → 0 < v.executed
  done : 0 < v.listed → v.ret ≠ -EINPROGRESS → 0 < v.executed ∨ v.removing
  inactive : 0 < v.listed → v.active = false → 0 < v.queue ∨ v.removing
  removing : v.removing → v.ret ≠ -EINPROGRESS
  called : 0 < v.delivered → 0 < v.executed

namespace View

variable {v : View}

/-- `paio_submit`. -/
def submit (v : View) : View :=
  { v with
    queue := v.queue + 1
    listed := v.listed + 1
    ret := -EINPROGRESS
    active := false
    submitted := true }

/-- A worker takes the request from the queue. -/
def take (v : View) : View :=
  { v with
    queue := v.queue - 1
    runs := v.runs + 1
    holds := v.holds + 1
    active := true }

/-- The worker executes it. -/
def execute (v : View) : View :=
  { v with
    runs := v.runs - 1
    stores := v.stores + 1
    executed := v.executed + 1 }

/-- The worker stores the result. -/
def store (v : View) (ret : ℤ) : View :=
  { v with
    stores := v.stores - 1
    holds := v.holds - 1
    ret := ret }

/-- `paio_cancel` takes the request out of the queue. -/
def cancel (v : View) : View :=
  { v with
    queue := v.queue - 1
    canceled := v.canceled + 1
    ret := -ECANCELED
    removing := true }

/-- `paio_cancel` is through with the request. -/
def leave (v : View) : View := { v with removing := true }

/-- The request leaves the list of `first_aio`. -/
def unlist (v : View) : View :=
  { v with
    listed := v.listed - 1
    removing := false }

/-- The same with a call of its callback. -/
def deliver (v : View) : View :=
  { v with
    listed := v.listed - 1
    delivered := v.delivered + 1 }

lemma Ok.place_le (h : v.Ok) : v.queue + v.runs + v.executed + v.canceled ≤ 1 :=
  h.place.trans_le (Bool.toNat_le _)

lemma Ok.listed_le (h : v.Ok) : v.listed + v.delivered ≤ 1 := h.listed.trans (Bool.toNat_le _)

lemma Ok.submit (h : v.Ok) (hs : v.submitted = false) (hm : v.removing = false) :
    v.submit.Ok := by
  have hplace := h.place
  have hlisted := h.listed
  rw [hs, Bool.toNat_false] at hplace hlisted
  constructor <;> simp only [View.submit, Bool.toNat_true] <;> grind [View.Ok]

lemma Ok.take (h : v.Ok) (hq : 0 < v.queue) : v.take.Ok := by
  have hqueued := h.queued hq
  have hplace := h.place_le
  constructor <;> simp only [View.take] <;> grind [View.Ok]

lemma Ok.execute (h : v.Ok) (hr : 0 < v.runs) : v.execute.Ok := by
  constructor <;> simp only [View.execute] <;> grind [View.Ok]

lemma Ok.store (h : v.Ok) (hr : 0 < v.stores) (ret : ℤ) : (v.store ret).Ok := by
  have hplace := h.place_le
  constructor <;> simp only [View.store] <;> grind [View.Ok]

/-- Only a request that is still in the queue is canceled. -/
lemma Ok.cancel (h : v.Ok) (hl : 0 < v.listed) (ha : v.active = false) (hr : v.removing = false) :
    v.cancel.Ok := by
  have hplace := h.place_le
  have hlisted := h.listed_le
  have hcode : -ECANCELED ≠ -EINPROGRESS := by decide
  constructor <;> simp only [View.cancel] <;> grind [View.Ok]

lemma Ok.leave (h : v.Ok) (hr : v.ret ≠ -EINPROGRESS) : v.leave.Ok := by
  constructor <;> simp only [View.leave] <;> grind [View.Ok]

lemma Ok.unlist (h : v.Ok) (hr : v.ret ≠ -EINPROGRESS) : v.unlist.Ok := by
  have hlisted := h.listed_le
  constructor <;> simp only [View.unlist] <;> grind [View.Ok]

/-- Only a request that has been executed is delivered. -/
lemma Ok.deliver (h : v.Ok) (hl : 0 < v.listed) (hr : v.ret ≠ -EINPROGRESS)
    (hm : v.removing = false) : v.deliver.Ok := by
  have hlisted := h.listed_le
  constructor <;> simp only [View.deliver] <;> grind [View.Ok]

end View

lemma Main.removes_removing_of_ne {r acb : ℕ} (h : r ≠ acb) : (removing acb).removes r = false := by
  simp [removes, h.symm]

namespace ThreadPool

variable {s t : ThreadPool} {i r : ℕ} {w u : Worker}

def view (s : ThreadPool) (r : ℕ) : View where
  queue := s.requestList.count r
  runs := s.workers.countP (Worker.runs r)
  holds := s.workers.countP (Worker.holds r)
  stores := s.workers.countP (Worker.stores r)
  executed := s.executed.count r
  canceled := s.canceled.count r
  listed := s.firstAio.count r
  delivered := (s.delivered.map Prod.fst).count r
  ret := (s.aiocb r).ret
  active := (s.aiocb r).active
  submitted := r.blt s.next
  removing := s.main.removes r

/-- Every request is accounted for. -/
def Accounted (s : ThreadPool) : Prop := ∀ r, (s.view r).Ok

lemma Accounted.init : Accounted .init := by
  intro r
  have hr : r.blt 0 = false := by rw [Bool.eq_false_iff, ne_eq, Nat.blt_eq]; omega
  constructor <;> simp [ThreadPool.init, view, Main.removes, hr]

/-! ### What the steps do to the views -/

/-- Whether a submission spawns a thread makes no difference to the requests. -/
lemma view_paioSubmit (hs : s.main = .free) (nbytes : ℤ) (r : ℕ) :
    (s.paioSubmit nbytes).view r = if r = s.next then (s.view r).submit else s.view r := by
  have hview : (s.paioSubmit nbytes).view r = { s with
      aiocb := Function.update s.aiocb s.next ⟨nbytes, -EINPROGRESS, false⟩
      requestList := s.requestList ++ [s.next]
      firstAio := s.next :: s.firstAio
      main := .signalling
      next := s.next + 1 }.view r := by
    simp only [ThreadPool.paioSubmit, qemuPaioSubmit]
    split_ifs <;> simp [setAiocb, spawnThread, view]
  rw [hview]
  split_ifs with heq
  · simp [view, View.submit, heq, hs, Main.removes]
  · have hlt : r.blt (s.next + 1) = r.blt s.next := by
      rw [Bool.eq_iff_iff, Nat.blt_eq, Nat.blt_eq]
      omega
    simp [view, heq, Ne.symm heq, hs, hlt, Main.removes]

lemma Accounted.paioSubmit (h : Accounted s) (hs : s.main = .free) (nbytes : ℤ) :
    Accounted (s.paioSubmit nbytes) := by
  intro r
  rw [view_paioSubmit hs]
  split_ifs with heq
  · have hsubmitted : r.blt s.next = false := by
      rw [Bool.eq_false_iff, ne_eq, Nat.blt_eq]
      omega
    exact (h r).submit hsubmitted (by rw [view, hs]; rfl)
  · exact h r

/-- A request that leaves the list of `first_aio`, with the main thread at `removing` or not. -/
lemma view_paioRemove {m : Main} (acb : ℕ) (hm : ∀ r, s.main.removes r = true → r = acb)
    (hm' : ∀ r, m.removes r = false) (r : ℕ) :
    { s.paioRemove acb with main := m }.view r =
      if r = acb then (s.view r).unlist else s.view r := by
  split_ifs with heq
  · simp [view, View.unlist, ThreadPool.paioRemove, heq, hm' acb]
  · have hne : s.main.removes r = false := by simpa using fun h => heq (hm r h)
    simp [view, ThreadPool.paioRemove, hne, hm' r, List.count_erase_of_ne heq]

lemma qemuPaioError_eq {acb : ℕ} (h : (s.aiocb acb).ret = -EINPROGRESS) :
    s.qemuPaioError acb = EINPROGRESS := by
  simp [qemuPaioError, h, EINPROGRESS]

lemma view_posixAioRead (hs : s.main = .free) {acb : ℕ} (r : ℕ) :
    (s.posixAioRead acb).view r =
      if r = acb then
        if s.qemuPaioError acb = ECANCELED then (s.view r).unlist
        else if s.qemuPaioError acb ≠ EINPROGRESS then (s.view r).deliver
        else s.view r
      else s.view r := by
  have hremoves : s.main.removes r = false := by simp [hs, Main.removes]
  simp only [ThreadPool.posixAioRead]
  split_ifs with hcanceled heq hdone <;>
    simp_all [view, View.unlist, View.deliver, ThreadPool.paioRemove, List.count_erase_of_ne]
  next hne => exact List.count_eq_zero_of_not_mem (by simpa using hne)

lemma view_move (hi : s.workers[i]? = some w) (r : ℕ) : (s.move i u).view r = { s.view r with
    runs := (s.view r).runs + (u.runs r).toNat - (w.runs r).toNat
    holds := (s.view r).holds + (u.holds r).toNat - (w.holds r).toNat
    stores := (s.view r).stores + (u.stores r).toNat - (w.stores r).toNat } := by
  simp only [view, ThreadPool.move, countP_set hi]

/-- A worker that goes on with no request in its hands. -/
lemma view_move_of_free (hi : s.workers[i]? = some w) (hw : w.holds r = false)
    (hw' : u.holds r = false) : (s.move i u).view r = s.view r := by
  simp only [Worker.holds, Bool.or_eq_false_iff] at hw hw'
  rw [view_move hi]
  simp [Worker.holds, hw, hw']

/-- The loop of `aio_thread` takes the first request of the queue, if there is one. -/
lemma view_dequeue (hi : s.workers[i]? = some w) (hw : w.holds r = false) (timedout : Bool)
    (idle : ℤ) : ({ s with idleThreads := idle }.dequeue i timedout).view r =
      if s.requestList.head? = some r then (s.view r).take else s.view r := by
  simp only [ThreadPool.dequeue]
  split
  · next hnil =>
    have hhead : ¬ s.requestList.head? = some r := by simp [hnil]
    rw [if_neg hhead]
    split_ifs
    · exact view_move_of_free (u := .exited) hi hw rfl
    · exact view_move_of_free (u := .waiting) hi hw rfl
  · next acb requestList hcons =>
    have hcount (q : Worker → Bool) (hq : q w = false) :
        (s.workers.set i (.running acb)).countP q =
          s.workers.countP q + (q (.running acb)).toNat := by
      simpa [hq] using countP_set_add hi q (.running acb)
    have hruns := hcount (Worker.runs r) (Bool.or_eq_false_iff.mp hw).1
    have hholds := hcount (Worker.holds r) hw
    have hstores := hcount (Worker.stores r) (Bool.or_eq_false_iff.mp hw).2
    have hhead : s.requestList.head? = some r ↔ acb = r := by simp [hcons]
    by_cases heq : acb = r
    · subst heq
      rw [if_pos (hhead.mpr rfl)]
      simp [view, View.take, ThreadPool.move, setAiocb, hcons, hruns, hholds, hstores,
        Worker.runs, Worker.holds, Worker.stores]
    · rw [if_neg (hhead.not.mpr heq)]
      simp [view, ThreadPool.move, setAiocb, hcons, hruns, hholds, hstores, heq, Ne.symm heq,
        Worker.runs, Worker.holds, Worker.stores]

/-- A new worker has no request in its hands. -/
lemma view_created {workers : List Worker} (hs : s.workers = workers ++ [.created]) (r : ℕ) :
    s.view r = { s with workers := workers }.view r := by
  simp [view, hs, Worker.runs, Worker.holds, Worker.stores]

lemma view_execute {acb : ℕ} (hi : s.workers[i]? = some (.running acb)) (ret : ℤ) (r : ℕ) :
    { s.move i (.storing acb ret) with executed := s.executed ++ [acb] }.view r =
      if r = acb then (s.view r).execute else s.view r := by
  split_ifs with heq
  · subst heq
    simp [view, View.execute, ThreadPool.move, countP_set hi, Worker.runs, Worker.holds,
      Worker.stores]
  · simp [view, ThreadPool.move, countP_set hi, Worker.runs, Worker.holds, Worker.stores,
      Ne.symm heq]

lemma view_store {acb : ℕ} {ret : ℤ} (hi : s.workers[i]? = some (.storing acb ret)) (r : ℕ) :
    ((s.move i .notifying).setAiocb acb { s.aiocb acb with ret := ret }).view r =
      if r = acb then (s.view r).store ret else s.view r := by
  split_ifs with heq
  · subst heq
    simp [view, View.store, ThreadPool.move, setAiocb, countP_set hi, Worker.runs, Worker.holds,
      Worker.stores]
  · simp [view, ThreadPool.move, setAiocb, countP_set hi, Worker.runs, Worker.holds,
      Worker.stores, heq, Ne.symm heq]

lemma Accounted.dequeue (h : Accounted s) (hi : s.workers[i]? = some w)
    (hw : ∀ r, w.holds r = false) (timedout : Bool) (idle : ℤ) :
    Accounted ({ s with idleThreads := idle }.dequeue i timedout) := by
  intro r
  rw [view_dequeue hi (hw r)]
  split_ifs with hhead
  · refine (h r).take (List.count_pos_iff.mpr ?_)
    exact List.mem_of_head? hhead
  · exact h r

/-- What a worker that goes on does to the requests. -/
lemma Accounted.work (h : Accounted s) {ret : ℤ} (hi : s.workers[i]? = some w)
    (hw : s.work i ret w = some t) : Accounted t := by
  have hfree (u : Worker) (hw : ∀ r, w.holds r = false) (hw' : ∀ r, u.holds r = false) :
      Accounted (s.move i u) := fun r => (view_move_of_free hi (hw r) (hw' r)).symm ▸ h r
  cases w with
  | created => cases hw; exact hfree .starting (fun _ => rfl) fun _ => rfl
  | starting =>
    simp only [ThreadPool.work, doSpawnThread] at hw
    split_ifs at hw
    · cases hw
      exact hfree .looping (fun _ => rfl) fun _ => rfl
    · cases hw
      exact hfree .spawning (fun _ => rfl) fun _ => rfl
  | spawning =>
    cases hw
    intro r
    rw [view_created rfl]
    exact hfree .looping (fun _ => rfl) (fun _ => rfl) r
  | looping => cases hw; exact h.dequeue hi (fun _ => rfl) false _
  | waiting => cases hw
  | woken timedout => cases hw; exact h.dequeue hi (fun _ => rfl) timedout _
  | running acb =>
    cases hw
    intro r
    rw [view_execute hi]
    split_ifs with heq
    · subst heq
      exact (h r).execute (countP_pos_of_getElem? hi (by simp [Worker.runs]))
    · exact h r
  | storing acb v =>
    cases hw
    intro r
    rw [view_store hi]
    split_ifs with heq
    · subst heq
      exact (h r).store (countP_pos_of_getElem? hi (by simp [Worker.stores])) v
    · exact h r
  | notifying => cases hw; exact hfree .looping (fun _ => rfl) fun _ => rfl
  | exited => cases hw

/-- The main thread goes on to or from a `removing` of no request. -/
lemma view_of_main {m : Main} (hs : s.main.removes r = m.removes r) :
    { s with main := m }.view r = s.view r := by
  simp [view, hs]

lemma view_removing (hs : ∀ r, s.main.removes r = false) (acb r : ℕ) :
    { s with main := .removing acb }.view r = if r = acb then (s.view r).leave else s.view r := by
  split_ifs with heq
  · simp [view, View.leave, Main.removes, heq]
  · simp [view, hs r, Main.removes_removing_of_ne heq]

lemma Accounted.removing (h : Accounted s) (hs : ∀ r, s.main.removes r = false) {acb : ℕ}
    (hret : (s.aiocb acb).ret ≠ -EINPROGRESS) : Accounted { s with main := .removing acb } := by
  intro r
  rw [view_removing hs]
  split_ifs with heq
  · subst heq
    exact (h r).leave hret
  · exact h r

lemma Accounted.paioCancel (h : Accounted s) (hs : s.main = .free) {acb : ℕ}
    (hacb : acb ∈ s.firstAio) : Accounted (s.paioCancel acb) := by
  have hremoves : ∀ r, s.main.removes r = false := fun r => by rw [hs]; rfl
  simp only [ThreadPool.paioCancel]
  split_ifs with hactive hret
  · exact fun r => (view_of_main (m := .cancelling acb) (hremoves r)).symm ▸ h r
  · exact h.removing hremoves hret
  · intro r
    by_cases heq : r = acb
    · subst heq
      have hview : ({ s.setAiocb r { s.aiocb r with ret := -ECANCELED } with
          requestList := s.requestList.erase r
          canceled := s.canceled ++ [r]
          main := .removing r } : ThreadPool).view r = (s.view r).cancel := by
        simp [view, View.cancel, setAiocb, Main.removes]
      rw [hview]
      exact (h r).cancel (List.count_pos_iff.mpr hacb) (Bool.eq_false_iff.mpr hactive) (hremoves r)
    · have hview : ({ s.setAiocb acb { s.aiocb acb with ret := -ECANCELED } with
          requestList := s.requestList.erase acb
          canceled := s.canceled ++ [acb]
          main := .removing acb } : ThreadPool).view r = s.view r := by
        simp [view, setAiocb, Main.removes_removing_of_ne heq, hremoves r, heq, Ne.symm heq,
          List.count_erase_of_ne heq]
      rw [hview]
      exact h r

lemma Accounted.posixAioRead (h : Accounted s) (hs : s.main = .free) {acb : ℕ}
    (hacb : acb ∈ s.firstAio) : Accounted (s.posixAioRead acb) := by
  have hret (he : s.qemuPaioError acb ≠ EINPROGRESS) : (s.aiocb acb).ret ≠ -EINPROGRESS :=
    fun hret => he (qemuPaioError_eq hret)
  intro r
  rw [view_posixAioRead hs]
  split_ifs with heq hcanceled hdone
  · subst heq
    exact (h r).unlist (hret (by rw [hcanceled]; decide))
  · subst heq
    exact (h r).deliver (List.count_pos_iff.mpr hacb) (hret hdone) (by rw [view, hs]; rfl)
  · exact h r
  · exact h r

/-- Every step keeps account of the requests. -/
theorem Accounted.step (h : Accounted s) {e : Step} (he : s.step e = some t) : Accounted t := by
  cases e with
  | paioSubmit nbytes =>
    simp only [ThreadPool.step, Option.ite_none_right_eq_some, Option.some.injEq] at he
    obtain ⟨hmain, rfl⟩ := he
    exact h.paioSubmit hmain nbytes
  | condSignal waiter =>
    cases waiter with
    | none =>
      simp only [ThreadPool.step, Option.ite_none_right_eq_some, Option.some.injEq] at he
      obtain ⟨⟨hmain, -⟩, rfl⟩ := he
      exact fun r => (view_of_main (m := .free) (by rw [hmain]; rfl)).symm ▸ h r
    | some i =>
      simp only [ThreadPool.step, Option.ite_none_right_eq_some, Option.some.injEq] at he
      obtain ⟨⟨hmain, hi⟩, rfl⟩ := he
      intro r
      have hremoves : (s.move i (.woken false)).main.removes r = Main.free.removes r := by
        simp [ThreadPool.move, hmain, Main.removes]
      rw [view_of_main hremoves, view_move_of_free (u := .woken false) hi rfl rfl]
      exact h r
  | spawnThreadBh =>
    simp only [ThreadPool.step, Option.ite_none_right_eq_some] at he
    obtain ⟨⟨hmain, -⟩, he⟩ := he
    simp only [doSpawnThread] at he
    split_ifs at he with hzero
    · cases he
      exact h
    · cases he
      exact fun r => (view_of_main (m := .spawning) (by rw [hmain]; rfl)).symm ▸ h r
  | threadCreate =>
    simp only [ThreadPool.step, Option.ite_none_right_eq_some, Option.some.injEq] at he
    obtain ⟨hmain, rfl⟩ := he
    intro r
    rw [view_created rfl]
    exact (view_of_main (m := .free) (by rw [hmain]; rfl)).symm ▸ h r
  | paioCancel acb =>
    simp only [ThreadPool.step, Option.ite_none_right_eq_some, Option.some.injEq] at he
    obtain ⟨⟨hmain, hacb⟩, rfl⟩ := he
    exact h.paioCancel hmain hacb
  | pollCanceled =>
    cases hmain : s.main <;> simp only [ThreadPool.step, hmain, reduceCtorEq] at he
    next acb =>
    cases he
    split_ifs with herror
    · exact h
    · exact h.removing (fun r => by rw [hmain]; rfl) fun hret => herror (qemuPaioError_eq hret)
  | paioRemove =>
    cases hmain : s.main <;> simp only [ThreadPool.step, hmain, reduceCtorEq] at he
    next acb =>
    cases he
    intro r
    rw [view_paioRemove acb (by simp [hmain, Main.removes]) (fun _ => rfl)]
    split_ifs with heq
    · subst heq
      exact (h r).unlist ((h r).removing (by simp [view, hmain, Main.removes]))
    · exact h r
  | posixAioRead acb =>
    simp only [ThreadPool.step, Option.ite_none_right_eq_some, Option.some.injEq] at he
    obtain ⟨⟨hmain, hacb⟩, rfl⟩ := he
    exact h.posixAioRead hmain hacb
  | setAioMaxThreads threads =>
    cases he
    exact h
  | wake i timedout =>
    simp only [ThreadPool.step, Option.ite_none_right_eq_some, Option.some.injEq] at he
    obtain ⟨hi, rfl⟩ := he
    exact fun r => (view_move_of_free (u := .woken timedout) hi rfl rfl).symm ▸ h r
  | worker i ret =>
    obtain ⟨w, hi, hw⟩ := Option.bind_eq_some_iff.mp he
    exact h.work hi hw

/-! ### Who serves the queue -/

/-- A thread is about to be created. -/
def Spawning (s : ThreadPool) : Prop :=
  (0 < s.newThreads ∧ s.newThreadBh = true) ∨ s.main = .spawning

/-- A request that is queued has a worker that is up or woken, a thread that is about to be created,
or a blocked worker that its submission is about to wake up. -/
def Served (s : ThreadPool) : Prop :=
  s.requestList ≠ [] → (∃ w ∈ s.workers, w.isUp) ∨ s.Spawning ∨
    (s.main = .signalling ∧ .waiting ∈ s.workers)

/-- A request is submitted with a positive limit or to a pool that has threads. -/
def Step.Limited (s : ThreadPool) : Step → Prop
  | .paioSubmit _ => 0 < s.maxThreads ∨ 0 < s.curThreads
  | _ => True

instance (s : ThreadPool) (e : Step) : Decidable (e.Limited s) := by
  cases e <;> simp only [Step.Limited] <;> infer_instance

/-- A thread that is being created is there already or comes with the main thread. -/
lemma up_of_creating (h : 0 < s.creating) : (∃ w ∈ s.workers, w.isUp) ∨ s.main = .spawning := by
  rw [creating] at h
  by_cases hmain : s.main = .spawning
  · exact .inr hmain
  · have hpos : 0 < s.workers.countP Worker.isSpawning := by
      simpa [Main.isSpawning, hmain] using h
    obtain ⟨w, hw, hspawning⟩ := List.countP_pos_iff.mp hpos
    exact .inl ⟨w, hw, by simp_all [Worker.isSpawning, Worker.isUp]⟩

/-- A backlog of threads to create does not get stuck. -/
lemma Counted.up_of_new (h : Counted s) (hnew : 0 < s.newThreads) :
    (∃ w ∈ s.workers, w.isUp) ∨ s.Spawning := by
  rcases h.backlog hnew with hbh | hpending | hstarting
  · exact .inr (.inl ⟨hnew, hbh⟩)
  · rw [h.pending] at hpending
    by_cases hcreated : 0 < s.workers.countP Worker.isCreated
    · obtain ⟨w, hw, hc⟩ := List.countP_pos_iff.mp hcreated
      exact .inl ⟨w, hw, by simp_all [Worker.isCreated, Worker.isUp]⟩
    · exact (up_of_creating (by omega)).imp_right .inr
  · obtain ⟨w, hw, hs⟩ := List.countP_pos_iff.mp hstarting
    exact .inl ⟨w, hw, by simp_all [Worker.isStarting, Worker.isUp]⟩

/-- A pool that has threads, none of which is idle, has one that is up or to come. -/
lemma Counted.up_of_cur (h : Counted s) (hidle : s.idleThreads = 0) (hcur : 0 < s.curThreads) :
    (∃ w ∈ s.workers, w.isUp) ∨ s.Spawning := by
  rw [h.cur] at hcur
  have hnew := h.new
  by_cases hpos : 0 < s.newThreads
  · exact h.up_of_new hpos
  · by_cases hcreating : 0 < s.creating
    · exact (up_of_creating hcreating).imp_right .inr
    · have hlive : 0 < s.workers.countP Worker.isLive := by omega
      obtain ⟨w, hw, hl⟩ := List.countP_pos_iff.mp hlive
      have hnone : s.workers.countP Worker.isIdle = 0 := by exact_mod_cast h.idle ▸ hidle
      have hni := List.countP_eq_zero.mp hnone w hw
      exact .inl ⟨w, hw, by simp_all [Worker.isLive, Worker.isIdle, Worker.isUp]⟩

/-- An idle worker is blocked or on its way. -/
lemma Counted.idle_cases (h : Counted s) (hidle : s.idleThreads ≠ 0) :
    (∃ w ∈ s.workers, w.isUp) ∨ .waiting ∈ s.workers := by
  have hpos : 0 < s.workers.countP Worker.isIdle := by
    have := h.idle
    omega
  obtain ⟨w, hw, hi⟩ := List.countP_pos_iff.mp hpos
  by_cases hwait : w = .waiting
  · exact .inr (hwait ▸ hw)
  · exact .inl ⟨w, hw, by simp_all [Worker.isIdle, Worker.isUp]; rcases hi with rfl | rfl <;> simp⟩

/-- A submission finds somebody for the request, whatever it decides about a new thread. -/
lemma Served.paioSubmit (hc : Counted s) (hs : s.main = .free)
    (hl : 0 < s.maxThreads ∨ 0 < s.curThreads) (nbytes : ℤ) : Served (s.paioSubmit nbytes) := by
  intro _
  have hmain : s.main ≠ .spawning := by simp [hs]
  have hnew := hc.new
  simp only [ThreadPool.paioSubmit, qemuPaioSubmit]
  split_ifs with hspawn
  · -- a thread is put on the backlog
    have hpos : 0 < s.spawnThread.newThreads := by
      simp only [spawnThread]
      omega
    rcases hc.spawnThread.up_of_new hpos with hup | hbh | hcreate
    · exact .inl hup
    · exact .inr (.inl (.inl hbh))
    · exact absurd hcreate hmain
  · by_cases hidle : s.idleThreads = 0
    · -- the limit is reached, so there are threads
      have hcur : 0 < s.curThreads := by
        have hle : s.maxThreads ≤ s.curThreads := not_lt.mp fun hlt => hspawn ⟨hidle, hlt⟩
        omega
      rcases hc.up_of_cur hidle hcur with hup | hbh | hcreate
      · exact .inl hup
      · exact .inr (.inl (.inl hbh))
      · exact absurd hcreate hmain
    · -- an idle worker is on its way or about to be signalled
      exact (hc.idle_cases hidle).imp_right fun hwait => .inr ⟨trivial, hwait⟩

/-- A worker that goes on is up afterwards, unless there is nothing to do. -/
lemma up_of_work {ret : ℤ} (hi : s.workers[i]? = some w) (hw : s.work i ret w = some t) :
    (∃ w ∈ t.workers, w.isUp) ∨ t.requestList = [] := by
  have hlt := (List.getElem?_eq_some_iff.mp hi).1
  have hmem (u : Worker) : u ∈ s.workers.set i u := List.mem_set hlt _
  have hdequeue (timedout : Bool) (idle : ℤ) :
      (∃ w ∈ ({ s with idleThreads := idle }.dequeue i timedout).workers, w.isUp) ∨
        ({ s with idleThreads := idle }.dequeue i timedout).requestList = [] := by
    simp only [ThreadPool.dequeue]
    split
    · next hnil => split_ifs <;> exact .inr hnil
    · next acb _ _ => exact .inl ⟨.running acb, hmem _, by simp [Worker.isUp]⟩
  cases w with
  | created => cases hw; exact .inl ⟨.starting, hmem _, rfl⟩
  | starting =>
    simp only [ThreadPool.work, doSpawnThread] at hw
    split_ifs at hw
    · cases hw
      exact .inl ⟨.looping, hmem _, rfl⟩
    · cases hw
      exact .inl ⟨.spawning, hmem _, rfl⟩
  | spawning =>
    cases hw
    exact .inl ⟨.created, List.mem_append_right _ (by simp), rfl⟩
  | looping => cases hw; exact hdequeue false _
  | waiting => cases hw
  | woken timedout => cases hw; exact hdequeue timedout _
  | running acb => cases hw; exact .inl ⟨.storing acb ret, hmem _, rfl⟩
  | storing acb v => cases hw; exact .inl ⟨.notifying, hmem _, rfl⟩
  | notifying => cases hw; exact .inl ⟨.looping, hmem _, rfl⟩
  | exited => cases hw

/-- Every step whose submission meets the condition leaves the queue served. -/
theorem Served.step (h : Served s) (hc : Counted s) {e : Step} (hl : e.Limited s)
    (he : s.step e = some t) : Served t := by
  -- the main thread goes on without a change of the workers and of the backlog
  have hquiet (hcreate : s.main ≠ .spawning) (hsignal : s.main ≠ .signalling) (hq : t.requestList ≠ [] → s.requestList ≠ [])
      (hworkers : t.workers = s.workers) (hnew : t.newThreads = s.newThreads)
      (hbh : t.newThreadBh = s.newThreadBh) : Served t := by
    intro ht
    rcases h (hq ht) with hup | (hbacklog | hcreate') | ⟨hsignal', -⟩
    · exact .inl (hworkers ▸ hup)
    · exact .inr (.inl (.inl (by rwa [hnew, hbh])))
    · exact absurd hcreate' hcreate
    · exact absurd hsignal' hsignal
  cases e with
  | paioSubmit nbytes =>
    simp only [ThreadPool.step, Option.ite_none_right_eq_some, Option.some.injEq] at he
    obtain ⟨hmain, rfl⟩ := he
    exact Served.paioSubmit hc hmain hl nbytes
  | condSignal waiter =>
    cases waiter with
    | none =>
      simp only [ThreadPool.step, Option.ite_none_right_eq_some, Option.some.injEq] at he
      obtain ⟨⟨hmain, hnone⟩, rfl⟩ := he
      intro ht
      rcases h ht with hup | (hbacklog | hcreate) | ⟨-, hwait⟩
      · exact .inl hup
      · exact .inr (.inl (.inl hbacklog))
      · exact absurd (hmain.symm.trans hcreate) (by simp)
      · exact absurd hwait hnone
    | some i =>
      simp only [ThreadPool.step, Option.ite_none_right_eq_some, Option.some.injEq] at he
      obtain ⟨⟨-, hi⟩, rfl⟩ := he
      exact fun _ => .inl ⟨.woken false, List.mem_set (List.getElem?_eq_some_iff.mp hi).1 _, rfl⟩
  | spawnThreadBh =>
    simp only [ThreadPool.step, Option.ite_none_right_eq_some] at he
    obtain ⟨⟨hmain, -⟩, he⟩ := he
    simp only [doSpawnThread] at he
    split_ifs at he with hzero
    · cases he
      intro ht
      rcases h ht with hup | (hbacklog | hcreate) | ⟨hsignal, -⟩
      · exact .inl hup
      · exact absurd hzero hbacklog.1.ne'
      · exact absurd (hmain.symm.trans hcreate) (by simp)
      · exact absurd (hmain.symm.trans hsignal) (by simp)
    · cases he
      exact fun _ => .inr (.inl (.inr rfl))
  | threadCreate =>
    simp only [ThreadPool.step, Option.ite_none_right_eq_some, Option.some.injEq] at he
    obtain ⟨-, rfl⟩ := he
    exact fun _ => .inl ⟨.created, by simp, rfl⟩
  | paioCancel acb =>
    simp only [ThreadPool.step, Option.ite_none_right_eq_some, Option.some.injEq] at he
    obtain ⟨⟨hmain, -⟩, rfl⟩ := he
    have hq : (s.paioCancel acb).requestList ≠ [] → s.requestList ≠ [] := by
      simp only [ThreadPool.paioCancel]
      split_ifs
      · exact id
      · exact id
      · exact fun hne hnil => hne (by simp [hnil])
    refine hquiet (by simp [hmain]) (by simp [hmain]) hq ?_ ?_ ?_ <;>
    · simp only [ThreadPool.paioCancel]
      split_ifs <;> rfl
  | pollCanceled =>
    cases hmain : s.main <;> simp only [ThreadPool.step, hmain, reduceCtorEq] at he
    cases he
    refine hquiet (by simp [hmain]) (by simp [hmain]) ?_ ?_ ?_ ?_
    · split_ifs <;> exact id
    all_goals
      split_ifs <;> rfl
  | paioRemove =>
    cases hmain : s.main <;> simp only [ThreadPool.step, hmain, reduceCtorEq] at he
    cases he
    exact hquiet (by simp [hmain]) (by simp [hmain]) id rfl rfl rfl
  | posixAioRead acb =>
    simp only [ThreadPool.step, Option.ite_none_right_eq_some, Option.some.injEq] at he
    obtain ⟨⟨hmain, -⟩, rfl⟩ := he
    have hq : (s.posixAioRead acb).requestList = s.requestList := by
      simp only [ThreadPool.posixAioRead]
      split_ifs <;> rfl
    refine hquiet (by simp [hmain]) (by simp [hmain]) (by rw [hq]; exact id) ?_ ?_ ?_ <;>
    · simp only [ThreadPool.posixAioRead]
      split_ifs <;> rfl
  | setAioMaxThreads threads =>
    cases he
    exact h
  | wake i timedout =>
    simp only [ThreadPool.step, Option.ite_none_right_eq_some, Option.some.injEq] at he
    obtain ⟨hi, rfl⟩ := he
    exact fun _ => .inl ⟨.woken timedout, List.mem_set (List.getElem?_eq_some_iff.mp hi).1 _, rfl⟩
  | worker i ret =>
    obtain ⟨w, hi, hw⟩ := Option.bind_eq_some_iff.mp he
    intro ht
    exact .inl ((up_of_work hi hw).resolve_right ht)

/-! ### Runs -/

/-- What the pool promises in every state. -/
structure Sound (s : ThreadPool) : Prop where
  /-- A request is in exactly one place: in the queue, with a worker, executed or canceled. -/
  place : ∀ r < s.next, s.requestList.count r + s.workers.countP (Worker.runs r) +
    s.executed.count r + s.canceled.count r = 1
  /-- A completion is delivered at most once. -/
  delivered : ∀ r, (s.delivered.map Prod.fst).count r ≤ 1
  executed : ∀ r ∈ s.delivered.map Prod.fst, r ∈ s.executed
  cur : s.curThreads = s.workers.countP Worker.isLive + s.creating + s.newThreads
  idle : s.idleThreads = s.workers.countP Worker.isIdle
  pending : s.pendingThreads = s.workers.countP Worker.isCreated + s.creating
  cur_nonneg : 0 ≤ s.curThreads
  new_nonneg : 0 ≤ s.newThreads

lemma Sound.of_accounted (h : Accounted s) (hc : Counted s) : Sound s where
  place r hr := by
    have hsubmitted : (s.view r).submitted = true := (Nat.blt_eq ..).mpr hr
    exact (h r).place.trans (by rw [hsubmitted]; rfl)
  delivered r := (Nat.le_add_left _ _).trans (h r).listed_le
  executed r hr := List.count_pos_iff.mp ((h r).called (List.count_pos_iff.mpr hr))
  cur := hc.cur
  idle := hc.idle
  pending := hc.pending
  cur_nonneg := by
    have hnew := hc.new
    rw [hc.cur]
    positivity
  new_nonneg := hc.new

/-- Nothing is under way: every worker is blocked or gone, and none is to come. -/
structure AtRest (s : ThreadPool) : Prop where
  main : s.main = .free
  bh : s.newThreadBh = false
  workers : ∀ w ∈ s.workers, w = .waiting ∨ w = .exited

/-- A pool that comes to rest has executed or canceled every request. -/
lemma Served.atRest (h : Served s) (hs : Sound s) (hrest : AtRest s) {r : ℕ} (hr : r < s.next) :
    s.executed.count r + s.canceled.count r = 1 := by
  have hqueue : s.requestList = [] := by
    by_contra hne
    rcases h hne with ⟨w, hw, hup⟩ | (⟨-, hbh⟩ | hcreate) | ⟨hsignal, -⟩
    · rcases hrest.workers w hw with rfl | rfl <;> simp [Worker.isUp] at hup
    · exact absurd (hrest.bh.symm.trans hbh) (by simp)
    · exact absurd (hrest.main.symm.trans hcreate) (by simp)
    · exact absurd (hrest.main.symm.trans hsignal) (by simp)
  have hruns : s.workers.countP (Worker.runs r) = 0 := List.countP_eq_zero.mpr fun w hw => by
    rcases hrest.workers w hw with rfl | rfl <;> simp [Worker.runs]
  simpa [hqueue, hruns] using hs.place r hr

/-- In every run each request is executed once or canceled, never both, and delivered at most once,
and the counters are true; where requests are submitted with a positive limit or to a pool that has
threads, whatever is queued is served. -/
theorem sound_run (steps : List Step) (s : ThreadPool)
    (h : Lib.run ThreadPool.step .init steps = some s) :
    s.Sound ∧ (Guarded ThreadPool.step (fun s e => e.Limited s) .init steps →
      s.Served ∧ (s.AtRest → ∀ r < s.next, s.executed.count r + s.canceled.count r = 1)) := by
  have hinv : Accounted s ∧ Counted s :=
    run_invariant (I := fun s => Accounted s ∧ Counted s)
      (fun _ _ _ hi he => ⟨hi.1.step he, hi.2.step he⟩) ⟨Accounted.init, Counted.init⟩ h
  have hsound := Sound.of_accounted hinv.1 hinv.2
  refine ⟨hsound, fun hl => ?_⟩
  have hserved : Counted s ∧ Served s :=
    run_invariant_of_guarded (I := fun s => Counted s ∧ Served s)
      (fun _ _ _ hi hl he => ⟨hi.1.step he, hi.2.step hi.1 hl he⟩)
      ⟨Counted.init, fun hne => absurd rfl hne⟩ hl h
  exact ⟨hserved.2, fun hrest r hr => hserved.2.atRest hsound hrest hr⟩

/-- With one thread, a request that is executed and delivered, and one that is canceled while the
worker is busy. -/
def twoRequests : List Step :=
  [.setAioMaxThreads 1, .paioSubmit 512, .condSignal none, .spawnThreadBh, .threadCreate,
    .worker 0 0, .worker 0 0, .worker 0 0, .paioSubmit 512, .condSignal none, .worker 0 512,
    .paioCancel 1, .paioRemove, .worker 0 0, .worker 0 0, .posixAioRead 0, .worker 0 0]

theorem sound_run_twoRequests : ∃ s, Lib.run ThreadPool.step .init twoRequests = some s ∧
    s.Sound ∧ s.Served ∧ s.executed = [0] ∧ s.canceled = [1] ∧ s.delivered = [(0, 0)] := by
  have hsound := sound_run twoRequests _ rfl
  exact ⟨_, rfl, hsound.1, (hsound.2 (by decide)).1, rfl, rfl, rfl⟩

/-- With a limit of no thread a request stays in the queue and nobody comes for it; and between the
two halves of a submission a worker that is idle is not yet signalled. -/
theorem not_served_of_limit_zero :
    (∃ s, Lib.run ThreadPool.step .init
        [.setAioMaxThreads 0, .paioSubmit 512, .condSignal none] = some s ∧
      s.requestList = [0] ∧ ¬ s.Served) ∧
    (∃ s, Lib.run ThreadPool.step .init (twoRequests ++ [.paioSubmit 512]) = some s ∧
      s.requestList = [2] ∧ s.workers = [.waiting] ∧ ¬ s.Spawning) := by
  refine ⟨⟨_, rfl, rfl, fun h => ?_⟩, ⟨_, rfl, rfl, rfl, ?_⟩⟩
  · rcases h (by decide) with ⟨w, hw, -⟩ | (⟨hnew, -⟩ | hcreate) | ⟨hsignal, -⟩
    · cases hw
    · exact absurd hnew (by decide)
    · cases hcreate
    · cases hsignal
  · rintro (⟨hnew, -⟩ | hcreate)
    · exact absurd hnew (by decide)
    · cases hcreate

end ThreadPool

end Limbo.Aio
