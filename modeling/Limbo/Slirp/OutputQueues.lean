import Limbo.Lib.Run

/-!
# The output queues of the guest's network

`if.c` keeps the packets for the guest in two queues of sessions, each session a list of packets of
one socket. `if_output()` queues a packet and `if_start()` sends the first packets of the sessions,
those of `if_fastq` first and then those of `if_batchq` from `next_m` on.

A queue is the list of its sessions, and a pointer to a packet that is not the first one of a session
on a queue is stale: what follows it there has no result. A step is a call, or one turn of the loop of
`if_start()`. The packets that left are recorded.
-/

namespace Limbo.Slirp.Output

open Lib

/-! ### Packets and sessions -/

/-- A packet in its mbuf: the number of the `if_output()` call that queued it, and `ifq_so`. -/
structure Mbuf where
  serial : ℕ
  so : Option ℕ
  deriving DecidableEq

/-- Where a link of a queue, or `next_m`, points to. -/
inductive Link
  | ifFastq
  | ifBatchq
  | mbuf (ifm : Mbuf)
  deriving DecidableEq

/-- The packets of a session: the one whose `ifq_next` and `ifq_prev` are on a queue, and the others
in the order of `ifs_next`. -/
structure Session where
  first : Mbuf
  rest : List Mbuf
  deriving DecidableEq

namespace Session

/-- `ifq->ifq_so` -/
def so (ss : Session) : Option ℕ := ss.first.so

def packets (ss : Session) : List Mbuf := ss.first :: ss.rest

/-- `ifs_insque(ifm, ifq->ifs_prev)` -/
def insque (ss : Session) (ifm : Mbuf) : Session := { ss with rest := ss.rest ++ [ifm] }

/-- What `ifs_remque(ifm)` leaves of the session whose first packet is `ifm`. -/
def remque (ss : Session) : List Session :=
  match ss.rest with
  | [] => []
  | next :: rest => [⟨next, rest⟩]

end Session

/-- The packets of a queue. -/
def packets (q : List Session) : List Mbuf := q.flatMap Session.packets

/-- The session whose first packet is `ifm`, with those before it and behind it. -/
def locate (ifm : Mbuf) : List Session → Option (List Session × Session × List Session)
  | [] => none
  | ss :: q =>
    if ss.first = ifm then some ([], ss, q)
    else (locate ifm q).map fun r => (ss :: r.1, r.2.1, r.2.2)

/-- The last session of the socket, with those before it and behind it. -/
def lastOf (so : Option ℕ) : List Session → Option (List Session × Session × List Session)
  | [] => none
  | ss :: q =>
    match lastOf so q with
    | some r => some (ss :: r.1, r.2.1, r.2.2)
    | none => if ss.so = so then some ([], ss, q) else none

/-! ### The queues -/

/-- `ifm_next` and `next_from_batchq` of the loop. -/
structure Walk where
  ifmNext : Mbuf
  nextFromBatchq : Bool
  deriving DecidableEq

/-- The queues, the counters of the sockets, and the loop of `if_start()` if it is running. What was
queued, sent and expired is recorded, and of the last call of `if_start()` which sessions were delayed
and whether the link refused a packet. -/
structure Queues where
  ifFastq : List Session
  ifBatchq : List Session
  nextM : Link
  soQueued : ℕ → ℤ
  soNqueued : ℕ → ℤ
  walk : Option Walk
  delayed : List (Option ℕ)
  refused : Bool
  outputs : List Mbuf
  sent : List Mbuf
  expired : List Mbuf

/-- `if_init(slirp)` -/
def ifInit : Queues where
  ifFastq := []
  ifBatchq := []
  nextM := .ifBatchq
  soQueued := fun _ => 0
  soNqueued := fun _ => 0
  walk := none
  delayed := []
  refused := false
  outputs := []
  sent := []
  expired := []

namespace Queues

/-- The queue that the loop is on. -/
def queue (s : Queues) (batchq : Bool) : List Session := if batchq then s.ifBatchq else s.ifFastq

/-- The queue that the loop is on, changed. -/
def setQueue (s : Queues) (batchq : Bool) (q : List Session) : Queues :=
  if batchq then { s with ifBatchq := q } else { s with ifFastq := q }

/-- What waits, in the order of the queues. -/
def waiting (s : Queues) : List Mbuf := packets s.ifFastq ++ packets s.ifBatchq

/-- `while (ifm_next)`, with `ifm_next` what `link` is and `NULL` at the end of `if_batchq`. -/
def enter (s : Queues) (link : Link) (nextFromBatchq : Bool) : Option Queues :=
  match link with
  | .ifFastq => none
  | .ifBatchq => some { s with walk := none }
  | .mbuf ifm => some { s with walk := some ⟨ifm, nextFromBatchq⟩ }

/-- `if_start(slirp)`, up to its loop -/
def ifStart (s : Queues) : Option Queues :=
  let s := { s with delayed := [], refused := false }
  match s.ifFastq with
  | ss :: _ => s.enter (.mbuf ss.first) false
  | [] => s.enter s.nextM true

/-! ### `if_output()` -/

/-- The session has queued 6 packets without pausing, and 3 of them have been sent. -/
def Greedy (s : Queues) : Option ℕ → Prop
  | none => False
  | some so => s.soNqueued so ≥ 6 ∧ s.soNqueued so - s.soQueued so ≥ 3

instance (s : Queues) : (so : Option ℕ) → Decidable (s.Greedy so)
  | none => .isFalse not_false
  | some _ => inferInstanceAs (Decidable (_ ∧ _))

/-- `so->so_queued++` and `so->so_nqueued++` -/
def count (s : Queues) : Option ℕ → Queues
  | none => s
  | some so =>
    { s with
      soQueued := Function.update s.soQueued so (s.soQueued so + 1)
      soNqueued := Function.update s.soNqueued so (s.soNqueued so + 1) }

/-- The packet in the last session of `if_fastq`, if that is its session, or in a new one at the end;
and the sessions before it. -/
def placeFast (fastq : List Session) (ifm : Mbuf) : List Session × Session :=
  match fastq.getLast? with
  | some ifq => if ifq.so = ifm.so then (fastq.dropLast, ifq.insque ifm) else (fastq, ⟨ifm, []⟩)
  | none => ([], ⟨ifm, []⟩)

/-- Put the packet on a queue, and its session on `if_batchq` if that is downgraded: `on_fastq` is 1
wherever the session is. -/
def insque (s : Queues) (ifm : Mbuf) (lowDelay : Bool) : Queues :=
  match lastOf ifm.so s.ifBatchq with
  | some (before, ifq, behind) =>
    let ss := ifq.insque ifm
    let s := s.count ifm.so
    if s.Greedy ifm.so then { s with ifBatchq := ss :: (before ++ behind) }
    else { s with ifBatchq := before ++ ss :: behind }
  | none =>
    if ifm.so.isSome ∧ lowDelay then
      let (before, ss) := placeFast s.ifFastq ifm
      let s := s.count ifm.so
      if s.Greedy ifm.so then { s with ifFastq := before, ifBatchq := ss :: s.ifBatchq }
      else { s with ifFastq := before ++ [ss] }
    else
      let nextM := if s.nextM = .ifBatchq then .mbuf ifm else s.nextM
      let s := { s.count ifm.so with nextM }
      if s.Greedy ifm.so then { s with ifBatchq := ⟨ifm, []⟩ :: s.ifBatchq }
      else { s with ifBatchq := s.ifBatchq ++ [⟨ifm, []⟩] }

/-- `if_output(so, ifm)` -/
def ifOutput (s : Queues) (so : Option ℕ) (lowDelay : Bool) : Option Queues :=
  let ifm : Mbuf := ⟨s.outputs.length, so⟩
  ifStart { s.insque ifm lowDelay with outputs := s.outputs ++ [ifm] }

/-! ### `if_start()` -/

/-- What becomes of a packet that the link can take: it expired, or `if_encap()` sends it or waits
for ARP. -/
inductive Attempt
  | expired
  | sent
  | delayed
  deriving DecidableEq

/-- `--ifm->ifq_so->so_queued`, and `so_nqueued` is reset with it. -/
def uncount (s : Queues) : Option ℕ → Queues
  | none => s
  | some so =>
    let queued := s.soQueued so - 1
    { s with
      soQueued := Function.update s.soQueued so queued
      soNqueued := if queued = 0 then Function.update s.soNqueued so 0 else s.soNqueued }

/-- `ifm->ifq_next` -/
def ifqNext (fromBatchq : Bool) : List Session → Link
  | [] => if fromBatchq then .ifBatchq else .ifFastq
  | ss :: _ => .mbuf ss.first

/-- The packet leaves its queue, and the next one of its session takes its place. -/
def leave (s : Queues) (ifm : Mbuf) (fromBatchq : Bool)
    (loc : List Session × Session × List Session) (next : Link × Bool) : Option Queues :=
  let (before, ss, behind) := loc
  let nextM := if s.nextM = .mbuf ifm then ifqNext fromBatchq behind else s.nextM
  let s := (s.uncount ifm.so).setQueue fromBatchq (before ++ (ss.remque ++ behind))
  match ss.rest with
  | [] => { s with nextM }.enter next.1 next.2
  | ifs :: _ =>
    if ¬fromBatchq then { s with nextM }.enter (.mbuf ifs) false
    else if nextM = .ifBatchq then { s with nextM := .mbuf ifs }.enter (.mbuf ifs) next.2
    else { s with nextM }.enter next.1 next.2

/-- The packet that the loop is at, at its place on the queue, and the one it takes next. -/
def turn (s : Queues) (w : Walk) (loc : List Session × Session × List Session) (a : Attempt) :
    Option Queues :=
  let ifm := w.ifmNext
  let link := ifqNext w.nextFromBatchq loc.2.2
  let next := if link = .ifFastq then (s.nextM, true) else (link, w.nextFromBatchq)
  match a with
  | .delayed => { s with delayed := s.delayed ++ [ifm.so] }.enter next.1 next.2
  | .sent => { s with sent := s.sent ++ [ifm] }.leave ifm w.nextFromBatchq loc next
  | .expired => { s with expired := s.expired ++ [ifm] }.leave ifm w.nextFromBatchq loc next

/-- One turn of the loop, for a packet that the link can take. -/
def attempt (s : Queues) (a : Attempt) : Option Queues :=
  s.walk.bind fun w =>
    (locate w.ifmNext (s.queue w.nextFromBatchq)).bind fun loc => s.turn w loc a

end Queues

/-! ### Runs -/

/-- A call, or a turn of the loop of `if_start()`: the link refuses the packet or does not. -/
inductive Action
  | output (so : Option ℕ) (lowDelay : Bool)
  | start
  | refuse
  | attempt (a : Queues.Attempt)

/-- There is no result where a stale pointer is followed. -/
def step (s : Queues) : Action → Option Queues
  | .output so lowDelay => s.ifOutput so lowDelay
  | .start => s.ifStart
  | .refuse => some { s with walk := none, refused := true }
  | .attempt a => s.attempt a

end Limbo.Slirp.Output
