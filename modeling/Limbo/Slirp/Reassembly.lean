import Limbo.Lib.Bytes
import Limbo.Lib.Run

/-!
# Reassembly of the guest's TCP streams

`tcp_input()` cuts a segment to the receive window and gives it to `TCP_REASS`, which appends its
data to the socket, or to `tcp_reass()`, which keeps a list of the segments that came too early.
A segment of a stream is a piece of it, and the list is a list of pieces that do not overlap.

The loop that presents the list does not know the list's end: it compares the next segment with the
control block itself, which no segment is. Behind the last segment it reads a sequence number out of
the control block, the one of `sentinelSeq`, and goes on if that is the number it waits for.
-/

namespace Limbo.Slirp.Tcp

open Lib

/-! ### Segments -/

/-- `(int)((a)-(b))` -/
def seqDiff (a b : UInt32) : ℤ := wrap32 (a.toNat - b.toNat)

/-- `SEQ_GT(a,b)` -/
def SeqGt (a b : UInt32) : Prop := seqDiff a b > 0

instance (a b : UInt32) : Decidable (SeqGt a b) := inferInstanceAs (Decidable (_ > _))

/-- A segment in its mbuf. `ti_len` is the number of bytes the mbuf has. -/
structure Segment where
  seq : UInt32
  fin : Bool
  data : List UInt8
  deriving DecidableEq

namespace Segment

/-- `ti_len` -/
def len (ti : Segment) : ℕ := ti.data.length

/-- `ti_seq + ti_len` -/
def next (ti : Segment) : UInt32 := ti.seq + UInt32.ofNat ti.len

/-- `m_adj(m, i)`, `ti_len -= i` and `ti_seq += i` -/
def dropHead (ti : Segment) (i : ℕ) : Segment :=
  { ti with seq := ti.seq + UInt32.ofNat i, data := ti.data.drop i }

/-- `m_adj(m, -i)` and `ti_len -= i` -/
def dropTail (ti : Segment) (i : ℕ) : Segment := { ti with data := ti.data.take (ti.len - i) }

/-- The segment has the byte with this number. -/
def Covers (ti : Segment) (n : UInt32) : Prop := (n - ti.seq).toNat < ti.len

instance (ti : Segment) (n : UInt32) : Decidable (ti.Covers n) := inferInstanceAs (Decidable (_ < _))

end Segment

/-! ### The control block and its socket -/

abbrev TCPS_SYN_RECEIVED : ℕ := 3
abbrev TCPS_ESTABLISHED : ℕ := 4
abbrev TCPS_TIME_WAIT : ℕ := 10

/-- `TCPS_HAVEESTABLISHED(s)` -/
def HaveEstablished (s : ℕ) : Prop := s ≥ TCPS_ESTABLISHED

/-- `TCPS_HAVERCVDFIN(s)` -/
def HaveRcvdFin (s : ℕ) : Prop := s ≥ TCPS_TIME_WAIT

instance (s : ℕ) : Decidable (HaveEstablished s) := inferInstanceAs (Decidable (_ ≥ _))
instance (s : ℕ) : Decidable (HaveRcvdFin s) := inferInstanceAs (Decidable (_ ≥ _))

/-- What the rest of `tcp_input()` and the socket's other side decide. -/
structure Socket where
  tState : ℕ
  soEmu : Bool
  fcantsendmore : Bool

/-- What the reassembly keeps: `rcv_nxt`, the list of fragments, the bytes that were appended to the
socket, and whether a FIN was reported. -/
structure Tcpcb where
  rcvNxt : UInt32
  queue : List Segment
  received : List UInt8
  finReceived : Bool
  deriving DecidableEq

/-- The stream's first byte has this number. -/
def Tcpcb.init (isn : UInt32) : Tcpcb := ⟨isn, [], [], false⟩

/-! ### `tcp_reass()` -/

/-- Trim the succeeding segments that `ti` overlaps, and dequeue those that it covers. -/
def trimFollowing (ti : Segment) : List Segment → List Segment
  | [] => []
  | q :: rest =>
    let i := seqDiff ti.next q.seq
    if i ≤ 0 then q :: rest
    else if i < q.len then q.dropHead i.toNat :: rest
    else trimFollowing ti rest

/-- The preceding segment may provide some of our data already. If it provides all of it, `ti` is
dropped. -/
def place (ti : Segment) (prev : Option Segment) (rest : List Segment) : List Segment :=
  match prev with
  | none => ti :: trimFollowing ti rest
  | some q =>
    let i := seqDiff q.next ti.seq
    if i > 0 then
      if i ≥ ti.len then rest
      else ti.dropHead i.toNat :: trimFollowing (ti.dropHead i.toNat) rest
    else ti :: trimFollowing ti rest

/-- Find a segment that begins after `ti` does, and stick `ti` in its place. -/
def insertFrom (ti : Segment) : Option Segment → List Segment → List Segment
  | prev, [] => place ti prev []
  | prev, q :: rest =>
    if SeqGt q.seq ti.seq then place ti prev (q :: rest) else q :: insertFrom ti (some q) rest

/-- `ti->ti_seq` where `ti` is the sentinel: what `t_template.ti_mbuf` has there, `NULL`. -/
abbrev sentinelSeq : UInt32 := 0

variable (tcpEmu : List UInt8 → List UInt8)

/-- What is appended to the socket of some data; `tcpEmu` is what `tcp_emu()` makes of it. -/
def Socket.append (so : Socket) (data : List UInt8) : List UInt8 :=
  if so.soEmu then tcpEmu data else data

/-- The loop that presents `ti` and the list behind it, and the flags that it returns. There is no
result where it takes the sentinel for a segment. -/
def presentFrom (so : Socket) (s : Tcpcb) (ti : Segment) : List Segment → Option (Bool × Tcpcb)
  | [] =>
    let rcvNxt := s.rcvNxt + UInt32.ofNat ti.len
    let data := if so.fcantsendmore then [] else so.append tcpEmu ti.data
    if sentinelSeq = rcvNxt then none
    else some (ti.fin, { s with rcvNxt, queue := [], received := s.received ++ data })
  | q :: rest =>
    let rcvNxt := s.rcvNxt + UInt32.ofNat ti.len
    let data := if so.fcantsendmore then [] else so.append tcpEmu ti.data
    if q.seq = rcvNxt then
      presentFrom so { s with rcvNxt, queue := q :: rest, received := s.received ++ data } q rest
    else some (ti.fin, { s with rcvNxt, queue := q :: rest, received := s.received ++ data })

/-- `present:` -/
def present (so : Socket) (s : Tcpcb) : Option (Bool × Tcpcb) :=
  if ¬HaveEstablished so.tState then some (false, s)
  else
    match s.queue with
    | [] => some (false, s)
    | ti :: rest =>
      if ti.seq ≠ s.rcvNxt then some (false, s)
      else if so.tState = TCPS_SYN_RECEIVED ∧ ti.len ≠ 0 then some (false, s)
      else presentFrom tcpEmu so s ti rest

/-- `tcp_reass(tp, ti, m)` -/
def tcpReass (so : Socket) (s : Tcpcb) (ti : Option Segment) : Option (Bool × Tcpcb) :=
  match ti with
  | none => present tcpEmu so s
  | some ti => present tcpEmu so { s with queue := insertFrom ti none s.queue }

/-- The test of `TCP_REASS`: the segment is the next one, and nothing is queued. -/
def IsNext (so : Socket) (s : Tcpcb) (ti : Segment) : Prop :=
  ti.seq = s.rcvNxt ∧ s.queue = [] ∧ so.tState = TCPS_ESTABLISHED

instance (so : Socket) (s : Tcpcb) (ti : Segment) : Decidable (IsNext so s ti) :=
  inferInstanceAs (Decidable (_ ∧ _))

/-- A segment that the socket takes without `tcp_reass()`. -/
def appendNext (so : Socket) (s : Tcpcb) (ti : Segment) : Tcpcb :=
  { s with
    rcvNxt := s.rcvNxt + UInt32.ofNat ti.len
    received := s.received ++ so.append tcpEmu ti.data }

/-- `TCP_REASS(tp, ti, m, so, flags)` -/
def TCP_REASS (so : Socket) (s : Tcpcb) (ti : Segment) : Option (Bool × Tcpcb) :=
  if IsNext so s ti then some (ti.fin, appendNext tcpEmu so s ti)
  else tcpReass tcpEmu so s (some ti)

/-! ### `tcp_input()` -/

/-- A segment that is received on a connection. -/
structure Arrival where
  so : Socket
  ti : Segment
  /-- `TH_SYN` -/
  syn : Bool
  /-- `rcv_wnd`, which is computed as an `int` that is not negative -/
  rcvWnd : Fin (2 ^ 31)
  /-- the tests of the header prediction that are about acknowledgements and buffer space -/
  predicted : Bool

/-- If the segment begins before `rcv_nxt`, drop leading data and SYN. Where the FIN is dropped, it
is in `tiflags` only. A SYN that is not dropped resets the connection. -/
def trimLeading (rcvNxt : UInt32) (a : Arrival) : Option (Segment × Bool) :=
  let todrop := seqDiff rcvNxt a.ti.seq
  if todrop > 0 then
    let ti := if a.syn then { a.ti with seq := a.ti.seq + 1 } else a.ti
    let todrop := if a.syn then todrop - 1 else todrop
    if todrop > ti.len ∨ (todrop = ti.len ∧ ¬ti.fin) then some (ti.dropHead ti.len, false)
    else some (ti.dropHead todrop.toNat, ti.fin)
  else if a.syn then none
  else some (a.ti, a.ti.fin)

/-- If the segment ends after the window, drop trailing data, and FIN in `tiflags`. -/
def trimTrailing (rcvNxt : UInt32) (rcvWnd : ℕ) (ti : Segment) (thFin : Bool) :
    Option (Segment × Bool) :=
  let todrop := seqDiff ti.next (rcvNxt + UInt32.ofNat rcvWnd)
  if todrop > 0 then
    if todrop ≥ ti.len ∧ ¬(rcvWnd = 0 ∧ ti.seq = rcvNxt) then none
    else some (ti.dropTail todrop.toNat, false)
  else some (ti, thFin)

/-- What is left of a segment, and its FIN flag in `tiflags`. The SYN that opens the connection is
cut at `trimthenstep6`, as a segment at `rcv_nxt` is here. -/
def trim (s : Tcpcb) (a : Arrival) : Option (Segment × Bool) :=
  (trimLeading s.rcvNxt a).bind fun p => trimTrailing s.rcvNxt a.rcvWnd p.1 p.2

/-- A segment that the header prediction takes. -/
def Predicted (s : Tcpcb) (a : Arrival) : Prop :=
  IsNext a.so s a.ti ∧ ¬a.ti.fin ∧ ¬a.syn ∧ a.ti.len ≠ 0 ∧ a.predicted

instance (s : Tcpcb) (a : Arrival) : Decidable (Predicted s a) := inferInstanceAs (Decidable (_ ∧ _))

/-- The segment's text and its FIN, from `dodata` on. -/
def dodata (so : Socket) (s : Tcpcb) (ti : Segment) (thFin : Bool) : Option Tcpcb :=
  if (ti.len ≠ 0 ∨ thFin) ∧ ¬HaveRcvdFin so.tState then
    (TCP_REASS tcpEmu so s ti).map fun (fin, s) =>
      if fin then { s with rcvNxt := s.rcvNxt + 1, finReceived := true } else s
  else some s

/-- `tcp_input(m, iphlen, inso)`, as far as it is about the stream. -/
def tcpInput (s : Tcpcb) (a : Arrival) : Option Tcpcb :=
  if Predicted s a then some (appendNext tcpEmu a.so s a.ti)
  else
    match trim s a with
    | none => some s
    | some (ti, thFin) => dodata tcpEmu a.so s ti thFin

end Limbo.Slirp.Tcp
