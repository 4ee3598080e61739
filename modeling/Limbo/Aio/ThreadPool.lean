import Limbo.Lib.Run

/-!
# The thread pool of `posix-aio-compat.c`

A request is queued by the thread that holds the global mutex and executed by a worker thread.
Workers share the queue and the counters under `lock`; each step below is what a thread does in one
section of that lock, or between two of them, and the steps of the threads come in any order.
-/

namespace Limbo.Aio

open Lib

def EINPROGRESS : ℤ := 115

def ECANCELED : ℤ := 125

def EINVAL : ℤ := 22

/-! ### The state -/

/-- The fields of `struct qemu_paiocb` that the pool reads and writes. -/
structure QemuPaiocb where
  aioNbytes : ℤ
  ret : ℤ
  active : Bool
deriving DecidableEq, Repr

/-- Where a worker is in `aio_thread`. -/
inductive Worker where
  /-- In front of `pending_threads--`. -/
  | created
  /-- In front of its `do_spawn_thread()`. -/
  | starting
  /-- In `do_spawn_thread()`, in front of `thread_create`. -/
  | spawning
  /-- At the head of the loop, in front of `mutex_lock`. -/
  | looping
  /-- In `cond_timedwait`, blocked. -/
  | waiting
  /-- In `cond_timedwait`, woken up and in front of taking the lock again. -/
  | woken (timedout : Bool)
  /-- With a request that is taken from the queue. -/
  | running (aiocb : ℕ)
  /-- In front of `aiocb->ret = ret`. -/
  | storing (aiocb : ℕ) (ret : ℤ)
  /-- In front of `posix_aio_notify_event()`. -/
  | notifying
  | exited
deriving DecidableEq, Repr

/-- Where the thread that holds the global mutex is. -/
inductive Main where
  | free
  /-- In `qemu_paio_submit`, in front of `cond_signal`. -/
  | signalling
  /-- In `do_spawn_thread()` of the bottom half, in front of `thread_create`. -/
  | spawning
  /-- In the loop of `paio_cancel`. -/
  | cancelling (acb : ℕ)
  /-- In `paio_cancel`, in front of `paio_remove`. -/
  | removing (acb : ℕ)
deriving DecidableEq, Repr

/-- The pool. The requests have consecutive numbers; `executed`, `canceled` and `delivered` say what
has become of them. -/
structure ThreadPool where
  maxThreads : ℤ
  curThreads : ℤ
  idleThreads : ℤ
  newThreads : ℤ
  pendingThreads : ℤ
  /-- `new_thread_bh` is scheduled. -/
  newThreadBh : Bool
  requestList : List ℕ
  aiocb : ℕ → QemuPaiocb
  firstAio : List ℕ
  workers : List Worker
  main : Main
  next : ℕ
  executed : List ℕ
  canceled : List ℕ
  /-- The requests whose callback is called, with the result it gets. -/
  delivered : List (ℕ × ℤ)

namespace ThreadPool

/-- The pool that `paio_init` leaves. -/
def init : ThreadPool where
  maxThreads := 64
  curThreads := 0
  idleThreads := 0
  newThreads := 0
  pendingThreads := 0
  newThreadBh := false
  requestList := []
  aiocb := fun _ => ⟨0, 0, false⟩
  firstAio := []
  workers := []
  main := .free
  next := 0
  executed := []
  canceled := []
  delivered := []

variable (s : ThreadPool)

/-- A worker goes on. -/
def move (i : ℕ) (w : Worker) : ThreadPool := { s with workers := s.workers.set i w }

/-- A request is written to. -/
def setAiocb (acb : ℕ) (c : QemuPaiocb) : ThreadPool :=
  { s with aiocb := Function.update s.aiocb acb c }

/-! ### The functions -/

/-- `spawn_thread()`. -/
def spawnThread : ThreadPool :=
  { s with
    curThreads := s.curThreads + 1
    newThreads := s.newThreads + 1
    newThreadBh := s.newThreadBh || decide (s.pendingThreads = 0) }

/-- The locked section of `do_spawn_thread()`, `none` when there is no thread to create. -/
def doSpawnThread : Option ThreadPool :=
  if s.newThreads = 0 then none
  else some { s with
    newThreads := s.newThreads - 1
    pendingThreads := s.pendingThreads + 1 }

/-- `qemu_paio_submit(aiocb)` up to the end of its locked section. -/
def qemuPaioSubmit (acb : ℕ) : ThreadPool :=
  let s := s.setAiocb acb { s.aiocb acb with
    ret := -EINPROGRESS
    active := false }
  let s := if s.idleThreads = 0 ∧ s.curThreads < s.maxThreads then s.spawnThread else s
  { s with requestList := s.requestList ++ [acb] }

/-- `paio_submit` for a request of `nbytes` bytes. -/
def paioSubmit (nbytes : ℤ) : ThreadPool :=
  let acb := s.next
  let s := s.setAiocb acb { s.aiocb acb with aioNbytes := nbytes }
  let s := { s with
    next := acb + 1
    firstAio := acb :: s.firstAio }
  { s.qemuPaioSubmit acb with main := .signalling }

/-- `qemu_paio_error(aiocb)`. -/
def qemuPaioError (acb : ℕ) : ℤ :=
  let ret := (s.aiocb acb).ret
  if ret < 0 then -ret else 0

/-- The locked section of `paio_cancel`. -/
def paioCancel (acb : ℕ) : ThreadPool :=
  let c := s.aiocb acb
  if ¬ c.active then
    { s.setAiocb acb { c with ret := -ECANCELED } with
      requestList := s.requestList.erase acb
      canceled := s.canceled ++ [acb]
      main := .removing acb }
  else if c.ret = -EINPROGRESS then { s with main := .cancelling acb }
  else { s with main := .removing acb }

/-- `paio_remove(acb)`. -/
def paioRemove (acb : ℕ) : ThreadPool := { s with firstAio := s.firstAio.erase acb }

/-- The result that `posix_aio_read` hands to the callback. -/
def result (acb : ℕ) : ℤ :=
  let ret := s.qemuPaioError acb
  if ret = 0 then
    if (s.aiocb acb).ret = (s.aiocb acb).aioNbytes then 0 else -EINVAL
  else -ret

/-- The turn of the inner loop of `posix_aio_read` that looks at `acb`. -/
def posixAioRead (acb : ℕ) : ThreadPool :=
  let ret := s.qemuPaioError acb
  if ret = ECANCELED then s.paioRemove acb
  else if ret ≠ EINPROGRESS then
    { s.paioRemove acb with delivered := s.delivered ++ [(acb, s.result acb)] }
  else s

/-- The loop of `aio_thread` with the lock taken, up to its release: the worker leaves the loop,
waits or takes the first request. -/
def dequeue (i : ℕ) (timedout : Bool) : ThreadPool :=
  match s.requestList with
  | [] =>
    if timedout then { s.move i .exited with curThreads := s.curThreads - 1 }
    else { s.move i .waiting with idleThreads := s.idleThreads + 1 }
  | acb :: requestList =>
    { (s.move i (.running acb)).setAiocb acb { s.aiocb acb with active := true } with
      requestList := requestList }

/-- What the worker `i` does next; `ret` is the result of the request, if that is what it does. -/
def work (i : ℕ) (ret : ℤ) : Worker → Option ThreadPool
  | .created => some { s.move i .starting with pendingThreads := s.pendingThreads - 1 }
  | .starting =>
    match s.doSpawnThread with
    | none => some (s.move i .looping)
    | some s => some (s.move i .spawning)
  | .spawning =>
    some { s.move i .looping with workers := (s.move i .looping).workers ++ [.created] }
  | .looping => some (s.dequeue i false)
  | .waiting => none
  | .woken timedout => some ({ s with idleThreads := s.idleThreads - 1 }.dequeue i timedout)
  | .running acb => some { s.move i (.storing acb ret) with executed := s.executed ++ [acb] }
  | .storing acb ret =>
    some ((s.move i .notifying).setAiocb acb { s.aiocb acb with ret := ret })
  | .notifying => some (s.move i .looping)
  | .exited => none

/-! ### The steps -/

/-- The steps of the threads. -/
inductive Step where
  | paioSubmit (nbytes : ℤ)
  /-- `cond_signal(&cond)`, with the worker that it wakes up, if any is blocked. -/
  | condSignal (waiter : Option ℕ)
  /-- `qemu_bh_poll` calls `spawn_thread_bh_fn`. -/
  | spawnThreadBh
  | threadCreate
  | paioCancel (acb : ℕ)
  /-- The loop of `paio_cancel` looks at `qemu_paio_error(acb)`. -/
  | pollCanceled
  | paioRemove
  | posixAioRead (acb : ℕ)
  | setAioMaxThreads (threads : ℤ)
  /-- A blocked worker wakes up, at the end of its ten seconds or for no reason. -/
  | wake (i : ℕ) (timedout : Bool)
  /-- The worker `i` goes on. -/
  | worker (i : ℕ) (ret : ℤ)
deriving DecidableEq, Repr

/-- One step, where its thread is at it. -/
def step (s : ThreadPool) : Step → Option ThreadPool
  | .paioSubmit nbytes => if s.main = .free then some (s.paioSubmit nbytes) else none
  | .condSignal none =>
    if s.main = .signalling ∧ .waiting ∉ s.workers then some { s with main := .free } else none
  | .condSignal (some i) =>
    if s.main = .signalling ∧ s.workers[i]? = some .waiting then
      some { s.move i (.woken false) with main := .free }
    else none
  | .spawnThreadBh =>
    if s.main = .free ∧ s.newThreadBh then
      match { s with newThreadBh := false }.doSpawnThread with
      | none => some { s with newThreadBh := false }
      | some s => some { s with main := .spawning }
    else none
  | .threadCreate =>
    if s.main = .spawning then
      some { s with
        workers := s.workers ++ [.created]
        main := .free }
    else none
  | .paioCancel acb =>
    if s.main = .free ∧ acb ∈ s.firstAio then some (s.paioCancel acb) else none
  | .pollCanceled =>
    match s.main with
    | .cancelling acb =>
      some (if s.qemuPaioError acb = EINPROGRESS then s else { s with main := .removing acb })
    | _ => none
  | .paioRemove =>
    match s.main with
    | .removing acb => some { s.paioRemove acb with main := .free }
    | _ => none
  | .posixAioRead acb =>
    if s.main = .free ∧ acb ∈ s.firstAio then some (s.posixAioRead acb) else none
  | .setAioMaxThreads threads => some { s with maxThreads := threads }
  | .wake i timedout =>
    if s.workers[i]? = some .waiting then some (s.move i (.woken timedout)) else none
  | .worker i ret => s.workers[i]?.bind (s.work i ret)

end ThreadPool

end Limbo.Aio
