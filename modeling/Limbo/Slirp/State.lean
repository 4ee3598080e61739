import Limbo.Lib.Bytes

/-!
# Saving the user network

`slirp_state_save()` and `slirp_state_load()`. The control sockets of the guest forwarding rules go
to the file with their buffers and TCP control blocks; they come back as new sockets, with buffers
that are allocated anew. The pointers into a buffer are its offsets from `sb_data`.
-/

namespace Limbo.UserNetwork

open Lib

/-! ### The file -/

/-- The functions that read take the file as the bytes that are still to come. -/
abbrev Load := StateM (List UInt8)

/-- `qemu_get_byte()`, which reads zeros behind the end of the file. -/
def getByte : Load UInt8 := fun f => (f.headD 0, f.tail)

def getBe16 : Load UInt16 := do
  let b1 ← getByte
  let b0 ← getByte
  pure (UInt16.ofNat (beNat [b1, b0]))

def getBe32 : Load UInt32 := do
  let b3 ← getByte
  let b2 ← getByte
  let b1 ← getByte
  let b0 ← getByte
  pure (UInt32.ofNat (beNat [b3, b2, b1, b0]))

def getSbe16 : Load Int16 := return (← getBe16).toInt16

def getSbe32 : Load Int32 := return (← getBe32).toInt32

/-- `qemu_get_buffer()` into a buffer that holds `buf`: what the file lacks stays as it is. -/
def getBuffer (buf : List UInt8) : Load { b : List UInt8 // b.length = buf.length } := fun f =>
  (⟨f.take buf.length ++ buf.drop f.length, by
    rw [List.length_append, List.length_take, List.length_drop]; omega⟩, f.drop buf.length)

/-- An array of `n` elements, read one by one. -/
def getArray {α : Type} (get : Load α) : (n : ℕ) → Load (Vector α n)
  | 0 => pure #v[]
  | n + 1 => do
    let v ← getArray get n
    let a ← get
    pure (v.push a)

def putByte (v : UInt8) : List UInt8 := [v]

def putBe16 (v : UInt16) : List UInt8 := beBytes 2 v.toNat

def putBe32 (v : UInt32) : List UInt8 := beBytes 4 v.toNat

def putSbe16 (v : Int16) : List UInt8 := putBe16 v.toUInt16

def putSbe32 (v : Int32) : List UInt8 := putBe32 v.toUInt32

/-! ### Sockets -/

/-- `struct sbuf`. Its block is allocated for an `int` of bytes. -/
structure Sbuf where
  data : List UInt8
  cc : UInt32
  wptr : ℤ
  rptr : ℤ
  small : data.length < 2 ^ 31

/-- `sb_datalen`. -/
def Sbuf.datalen (sb : Sbuf) : ℕ := sb.data.length

/-- A buffer without a block. -/
def Sbuf.null : Sbuf := ⟨[], 0, 0, 0, by decide⟩

/-- The part of `t_template` that depends on the socket. -/
structure Template where
  tiSrc : UInt32
  tiDst : UInt32
  tiSport : UInt16
  tiDport : UInt16

/-- `struct tcpcb`. The segments behind `seg_next` are those that arrived out of order; the template
is there once `tcp_template()` has made it. -/
structure Tcpcb where
  segs : List (List UInt8)
  tState : Int16
  tTimer : Vector Int16 4
  tRxtshift : Int16
  tRxtcur : Int16
  tDupacks : Int16
  tMaxseg : UInt16
  tForce : UInt8
  tFlags : UInt16
  tTemplate : Option Template
  sndUna : UInt32
  sndNxt : UInt32
  sndUp : UInt32
  sndWl1 : UInt32
  sndWl2 : UInt32
  iss : UInt32
  sndWnd : UInt32
  rcvWnd : UInt32
  rcvNxt : UInt32
  rcvUp : UInt32
  irs : UInt32
  rcvAdv : UInt32
  sndMax : UInt32
  sndCwnd : UInt32
  sndSsthresh : UInt32
  tIdle : Int16
  tRtt : Int16
  tRtseq : UInt32
  tSrtt : Int16
  tRttvar : Int16
  tRttmin : UInt16
  maxSndwnd : UInt32
  tOobflags : UInt8
  tIobc : UInt8
  tSofterror : Int16
  sndScale : UInt8
  rcvScale : UInt8
  requestRScale : UInt8
  requestedSScale : UInt8
  tsRecent : UInt32
  tsRecentAge : UInt32
  lastAckSent : UInt32

/-- `struct socket`, with the character device or command behind it as `extra`. -/
structure Socket where
  soUrgc : Int32
  soFaddr : UInt32
  soLaddr : UInt32
  soFport : UInt16
  soLport : UInt16
  soIptos : UInt8
  soEmu : UInt8
  soType : UInt8
  soState : Int32
  soTcpcb : Tcpcb
  soRcv : Sbuf
  soSnd : Sbuf
  extra : Option ℕ

/-- `struct ex_list`: a rule that hands connections to an address of the virtual network over. -/
structure ExList where
  exPty : ℕ
  exAddr : UInt32
  exFport : UInt16
  exExec : ℕ
deriving DecidableEq

structure BootpClient where
  allocated : UInt16
  macaddr : Vector UInt8 6

/-- `struct Slirp`, with its TCP sockets. `slirp_add_exec()` takes a rule only for an address of the
network and only where there is none yet for the address and the port. -/
structure Slirp where
  vnetworkAddr : UInt32
  vnetworkMask : UInt32
  execList : List ExList
  ipId : UInt16
  bootpClients : Vector BootpClient 16
  tcb : List Socket
  inNetwork : ∀ ex ∈ execList, ex.exAddr &&& vnetworkMask = vnetworkAddr
  distinct : execList.Pairwise fun ex ex' => ¬ (ex.exAddr = ex'.exAddr ∧ ex.exFport = ex'.exFport)

/-! ### Saving -/

def slirpTcpSave (tp : Tcpcb) : List UInt8 :=
  List.flatten [
    putSbe16 tp.tState,
    tp.tTimer.toList.flatMap putSbe16,
    putSbe16 tp.tRxtshift,
    putSbe16 tp.tRxtcur,
    putSbe16 tp.tDupacks,
    putBe16 tp.tMaxseg,
    putByte tp.tForce,
    putBe16 tp.tFlags,
    putBe32 tp.sndUna,
    putBe32 tp.sndNxt,
    putBe32 tp.sndUp,
    putBe32 tp.sndWl1,
    putBe32 tp.sndWl2,
    putBe32 tp.iss,
    putBe32 tp.sndWnd,
    putBe32 tp.rcvWnd,
    putBe32 tp.rcvNxt,
    putBe32 tp.rcvUp,
    putBe32 tp.irs,
    putBe32 tp.rcvAdv,
    putBe32 tp.sndMax,
    putBe32 tp.sndCwnd,
    putBe32 tp.sndSsthresh,
    putSbe16 tp.tIdle,
    putSbe16 tp.tRtt,
    putBe32 tp.tRtseq,
    putSbe16 tp.tSrtt,
    putSbe16 tp.tRttvar,
    putBe16 tp.tRttmin,
    putBe32 tp.maxSndwnd,
    putByte tp.tOobflags,
    putByte tp.tIobc,
    putSbe16 tp.tSofterror,
    putByte tp.sndScale,
    putByte tp.rcvScale,
    putByte tp.requestRScale,
    putByte tp.requestedSScale,
    putBe32 tp.tsRecent,
    putBe32 tp.tsRecentAge,
    putBe32 tp.lastAckSent]

/-- The difference of two pointers as a `uint32_t`. -/
def offset (p : ℤ) : UInt32 := UInt32.ofNat (p % 2 ^ 32).toNat

def slirpSbufSave (sb : Sbuf) : List UInt8 :=
  List.flatten [
    putBe32 sb.cc,
    putBe32 (UInt32.ofNat sb.datalen),
    putSbe32 (offset sb.wptr).toInt32,
    putSbe32 (offset sb.rptr).toInt32,
    sb.data]

def slirpSocketSave (so : Socket) : List UInt8 :=
  List.flatten [
    putBe32 so.soUrgc.toUInt32,
    putBe32 so.soFaddr,
    putBe32 so.soLaddr,
    putBe16 so.soFport,
    putBe16 so.soLport,
    putByte so.soIptos,
    putByte so.soEmu,
    putByte so.soType,
    putBe32 so.soState.toUInt32,
    slirpSbufSave so.soRcv,
    slirpSbufSave so.soSnd,
    slirpTcpSave so.soTcpcb]

def slirpBootpSave (clients : Vector BootpClient 16) : List UInt8 :=
  clients.toList.flatMap fun client => putBe16 client.allocated ++ client.macaddr.toList

/-- `slirp_find_ctl_socket()`: the first socket that is connected to the address and the port. -/
def slirpFindCtlSocket (slirp : Slirp) (guestAddr : UInt32) (guestPort : UInt16) : Option Socket :=
  slirp.tcb.find? fun so => so.soFaddr = guestAddr ∧ so.soFport = guestPort

/-- The sockets that the loop of `slirp_state_save()` finds, in its order. -/
def Slirp.ctlSockets (slirp : Slirp) : List (ExList × Socket) :=
  slirp.execList.filterMap fun ex =>
    if ex.exPty = 3 then (slirpFindCtlSocket slirp ex.exAddr ex.exFport).map (ex, ·) else none

def slirpStateSave (slirp : Slirp) : List UInt8 :=
  List.flatten [
    (slirp.ctlSockets.flatMap fun p => putByte 42 ++ slirpSocketSave p.2),
    putByte 0,
    putBe16 slirp.ipId,
    slirpBootpSave slirp.bootpClients]

/-! ### Loading -/

/-- What `malloc()` returns while one socket is loaded: for `struct socket`, for `struct tcpcb`, and
blocks for the two buffers. -/
structure Heap where
  socket : Bool
  tcpcb : Bool
  block : Bool → (n : ℕ) → Option { block : List UInt8 // block.length = n }

/-- `tcp_newtcpcb()`. -/
def tcpNewtcpcb : Tcpcb where
  segs := []
  tState := 0
  tTimer := #v[0, 0, 0, 0]
  tRxtshift := 0
  tRxtcur := 12
  tDupacks := 0
  tMaxseg := 1460
  tForce := 0
  tFlags := 0
  tTemplate := none
  sndUna := 0
  sndNxt := 0
  sndUp := 0
  sndWl1 := 0
  sndWl2 := 0
  iss := 0
  sndWnd := 0
  rcvWnd := 0
  rcvNxt := 0
  rcvUp := 0
  irs := 0
  rcvAdv := 0
  sndMax := 0
  sndCwnd := 1073725440
  sndSsthresh := 1073725440
  tIdle := 0
  tRtt := 0
  tRtseq := 0
  tSrtt := 0
  tRttvar := 24
  tRttmin := 2
  maxSndwnd := 0
  tOobflags := 0
  tIobc := 0
  tSofterror := 0
  sndScale := 0
  rcvScale := 0
  requestRScale := 0
  requestedSScale := 0
  tsRecent := 0
  tsRecentAge := 0
  lastAckSent := 0

/-- `socreate()` and `tcp_attach()`. -/
def socreate : Socket where
  soUrgc := 0
  soFaddr := 0
  soLaddr := 0
  soFport := 0
  soLport := 0
  soIptos := 0
  soEmu := 0
  soType := 0
  soState := 1
  soTcpcb := tcpNewtcpcb
  soRcv := .null
  soSnd := .null
  extra := none

/-- `tcp_template()`. -/
def tcpTemplate (so : Socket) (tp : Tcpcb) : Tcpcb :=
  { tp with
    tTemplate := some
      { tiSrc := so.soFaddr, tiDst := so.soLaddr, tiSport := so.soFport, tiDport := so.soLport } }

def slirpTcpLoad (so : Socket) (tp : Tcpcb) : Load Tcpcb := do
  let tState ← getSbe16
  let tTimer ← getArray getSbe16 4
  let tRxtshift ← getSbe16
  let tRxtcur ← getSbe16
  let tDupacks ← getSbe16
  let tMaxseg ← getBe16
  let tForce ← getByte
  let tFlags ← getBe16
  let sndUna ← getBe32
  let sndNxt ← getBe32
  let sndUp ← getBe32
  let sndWl1 ← getBe32
  let sndWl2 ← getBe32
  let iss ← getBe32
  let sndWnd ← getBe32
  let rcvWnd ← getBe32
  let rcvNxt ← getBe32
  let rcvUp ← getBe32
  let irs ← getBe32
  let rcvAdv ← getBe32
  let sndMax ← getBe32
  let sndCwnd ← getBe32
  let sndSsthresh ← getBe32
  let tIdle ← getSbe16
  let tRtt ← getSbe16
  let tRtseq ← getBe32
  let tSrtt ← getSbe16
  let tRttvar ← getSbe16
  let tRttmin ← getBe16
  let maxSndwnd ← getBe32
  let tOobflags ← getByte
  let tIobc ← getByte
  let tSofterror ← getSbe16
  let sndScale ← getByte
  let rcvScale ← getByte
  let requestRScale ← getByte
  let requestedSScale ← getByte
  let tsRecent ← getBe32
  let tsRecentAge ← getBe32
  let lastAckSent ← getBe32
  pure (tcpTemplate so
    { tp with
      tState, tTimer, tRxtshift, tRxtcur, tDupacks, tMaxseg, tForce, tFlags, sndUna, sndNxt, sndUp,
      sndWl1, sndWl2, iss, sndWnd, rcvWnd, rcvNxt, rcvUp, irs, rcvAdv, sndMax, sndCwnd, sndSsthresh,
      tIdle, tRtt, tRtseq, tSrtt, tRttvar, tRttmin, maxSndwnd, tOobflags, tIobc, tSofterror,
      sndScale, rcvScale, requestRScale, requestedSScale, tsRecent, tsRecentAge, lastAckSent })

/-- `sbreserve()` on a buffer without a block. A negative `int` is no size that `malloc()` serves. -/
def sbreserve (malloc : (n : ℕ) → Option { block : List UInt8 // block.length = n })
    (size : UInt32) : Sbuf :=
  if h : size.toNat < 2 ^ 31 then
    match malloc size.toNat with
    | some ⟨block, hb⟩ => ⟨block, 0, 0, 0, hb ▸ h⟩
    | none => .null
  else .null

/-- `sb_data + off` as an offset: `off` is unsigned and wraps around with a pointer of 32 bits. -/
def pointer (wide : Bool) (off : UInt32) : ℤ := if wide then off.toNat else off.toInt32.toInt

/-- `-ENOMEM`. -/
def enomem : ℤ := -12

/-- `-EINVAL`. -/
def einval : ℤ := -22

/-- `slirp_sbuf_load()` into a buffer without a block. -/
def slirpSbufLoad (wide : Bool)
    (malloc : (n : ℕ) → Option { block : List UInt8 // block.length = n }) : Load (ℤ × Sbuf) := do
  let cc ← getBe32
  let datalen ← getBe32
  let sb := sbreserve malloc datalen
  if sb.datalen ≠ datalen.toNat then pure (enomem, sb)
  else
    let wptr ← getSbe32
    let rptr ← getSbe32
    let ⟨data, hdata⟩ ← getBuffer sb.data
    pure (0,
      { data, cc, wptr := pointer wide wptr.toUInt32, rptr := pointer wide rptr.toUInt32
        small := hdata ▸ sb.small })

/-- `slirp_socket_load()` into a socket that `tcp_attach()` has served. -/
def slirpSocketLoad (wide : Bool) (heap : Heap) (so : Socket) : Load (ℤ × Socket) := do
  let soUrgc ← getBe32
  let soFaddr ← getBe32
  let soLaddr ← getBe32
  let soFport ← getBe16
  let soLport ← getBe16
  let soIptos ← getByte
  let soEmu ← getByte
  let soType ← getByte
  let soState ← getBe32
  let so : Socket :=
    { so with
      soUrgc := soUrgc.toInt32, soFaddr, soLaddr, soFport, soLport, soIptos, soEmu, soType
      soState := soState.toInt32 }
  let (ret, soRcv) ← slirpSbufLoad wide (heap.block false)
  if ret < 0 then pure (enomem, { so with soRcv })
  else
    let (ret, soSnd) ← slirpSbufLoad wide (heap.block true)
    if ret < 0 then pure (enomem, { so with soRcv, soSnd })
    else
      let soTcpcb ← slirpTcpLoad so so.soTcpcb
      pure (0, { so with soRcv, soSnd, soTcpcb })

/-- The elements of `bootp_clients`, the file being read over those there are. -/
def slirpBootpLoad : {n : ℕ} → Vector BootpClient n → Load (Vector BootpClient n)
  | 0, _ => pure #v[]
  | _ + 1, clients => do
    let v ← slirpBootpLoad clients.pop
    let allocated ← getBe16
    let ⟨macaddr, hmacaddr⟩ ← getBuffer clients.back.macaddr.toList
    pure (v.push ⟨allocated, ⟨macaddr.toArray, by simpa using hmacaddr⟩⟩)

/-- The rule of a loaded socket. -/
def findExec (slirp : Slirp) (so : Socket) : Option ExList :=
  slirp.execList.find? fun ex =>
    ex.exPty = 3 ∧ so.soFaddr = ex.exAddr ∧ so.soFport = ex.exFport

/-- One turn of the loop of `slirp_state_load()`, behind the byte that announces a socket. -/
def slirpStateLoadOne (wide : Bool) (heap : Heap) (slirp : Slirp) : Load (ℤ × Slirp) := do
  if ¬ (heap.socket ∧ heap.tcpcb) then pure (enomem, slirp)
  else
    let (ret, so) ← slirpSocketLoad wide heap socreate
    if ret < 0 then pure (ret, { slirp with tcb := so :: slirp.tcb })
    else if so.soFaddr &&& slirp.vnetworkMask ≠ slirp.vnetworkAddr then
      pure (einval, { slirp with tcb := so :: slirp.tcb })
    else
      match findExec slirp so with
      | none => pure (einval, { slirp with tcb := so :: slirp.tcb })
      | some ex => pure (0, { slirp with tcb := { so with extra := some ex.exExec } :: slirp.tcb })

/-- The loop, over the sockets from number `i` on. It ends with the file, so that `fuel` bytes are
fuel enough. -/
def slirpStateLoadLoop (wide : Bool) (heap : ℕ → Heap) : ℕ → ℕ → Slirp → Load (ℤ × Slirp)
  | 0, _, slirp => pure (0, slirp)
  | fuel + 1, i, slirp => do
    if (← getByte) = 0 then pure (0, slirp)
    else
      let (ret, slirp) ← slirpStateLoadOne wide (heap i) slirp
      if ret < 0 then pure (ret, slirp) else slirpStateLoadLoop wide heap fuel (i + 1) slirp

def slirpStateLoad (wide : Bool) (heap : ℕ → Heap) (slirp : Slirp) (versionId : ℕ) :
    Load (ℤ × Slirp) := do
  let (ret, slirp) ← slirpStateLoadLoop wide heap (← get).length 0 slirp
  if ret < 0 then pure (ret, slirp)
  else
    let ipId ← if 2 ≤ versionId then getBe16 else pure slirp.ipId
    let bootpClients ←
      if 3 ≤ versionId then slirpBootpLoad slirp.bootpClients else pure slirp.bootpClients
    pure (0, { slirp with ipId, bootpClients })

end Limbo.UserNetwork
