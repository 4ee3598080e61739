import Limbo.Lib.Bytes
import Limbo.Lib.Ring
import Limbo.Lib.Run

/-!
# The buffers of a TCP socket

What the guest sends is put into `so_rcv` by `sbappend()` and written to the socket of the host by
`sowrite()`. What the host sends is read into `so_snd` by `soread()`, copied into segments by
`sbcopy()`, and dropped by `sbdrop()` when the guest has acknowledged it. A buffer is a ring: where
`sb_rptr` and `sb_wptr` are equal, it is empty or full.

Pointers are offsets from `sb_data`. An access outside of the allocation has no result.
-/

namespace Limbo.Slirp

open Lib

/-- A conversion to `u_int`. -/
def uInt (z : ℤ) : ℕ := (z % 4294967296).toNat

/-- A conversion to `size_t`. -/
def sizeT (z : ℤ) : ℕ := (z % 18446744073709551616).toNat

/-! ### The buffer -/

/-- `struct sbuf`. No memory is allocated while `sb_datalen` is 0. -/
structure Sbuf where
  sbCc : ℕ
  sbDatalen : ℕ
  sbWptr : ℤ
  sbRptr : ℤ
  sbData : Memory

namespace Sbuf

/-- `n` bytes from `p` on. -/
def load (sb : Sbuf) (p n : ℤ) : Option (List UInt8) :=
  if 0 ≤ p ∧ 0 ≤ n ∧ p + n ≤ sb.sbDatalen then some (cells sb.sbData p.toNat n.toNat) else none

/-- The first `n` bytes of `src`, to `p`. -/
def store (sb : Sbuf) (p : ℤ) (src : List UInt8) (n : ℤ) : Option Sbuf :=
  if 0 ≤ p ∧ 0 ≤ n ∧ n ≤ src.length ∧ p + n ≤ sb.sbDatalen then
    some { sb with sbData := copy sb.sbData p.toNat (fun i => src.getD i 0) 0 n.toNat }
  else none

/-- The update of the fields after `n` bytes were written. -/
def written (sb : Sbuf) (n : ℤ) : Sbuf :=
  let sbWptr := sb.sbWptr + n
  { sb with
    sbCc := uInt (sb.sbCc + n)
    sbWptr := if sbWptr ≥ sb.sbDatalen then sbWptr - sb.sbDatalen else sbWptr }

/-- The update of the fields after `n` bytes were read. -/
def taken (sb : Sbuf) (n : ℤ) : Sbuf :=
  let sbRptr := sb.sbRptr + n
  { sb with
    sbCc := uInt (sb.sbCc - n)
    sbRptr := if sbRptr ≥ sb.sbDatalen then sbRptr - sb.sbDatalen else sbRptr }

end Sbuf

/-- `sbreserve(sb, size)`, with the memory that is allocated, if any is. -/
def sbreserve (sb : Sbuf) (size : ℕ) (memory : Option Memory) : Sbuf :=
  if sb.sbDatalen ≠ size then
    match memory with
    | some sbData => ⟨0, size, 0, 0, sbData⟩
    | none => ⟨0, 0, 0, 0, sb.sbData⟩
  else sb

/-- `sbdrop(sb, num)`, and whether it notifies the main loop. -/
def sbdrop (sb : Sbuf) (num : ℤ) : Sbuf × Bool :=
  let limit := sb.sbDatalen / 2
  -- `num` is compared as an unsigned number
  let num := if uInt num > sb.sbCc then wrap32 sb.sbCc else num
  let sb := sb.taken num
  (sb, sb.sbCc < limit ∧ uInt (sb.sbCc + num) ≥ limit)

/-- `sbappendsb(sb, m)` -/
def sbappendsb (sb : Sbuf) (m : List UInt8) : Option Sbuf := do
  let len : ℤ := m.length
  if sb.sbWptr < sb.sbRptr then
    let n := min (sb.sbRptr - sb.sbWptr) len
    let sb ← sb.store sb.sbWptr m n
    return sb.written n
  else
    -- the right edge first
    let n := min (sb.sbDatalen - sb.sbWptr) len
    let sb ← sb.store sb.sbWptr m n
    let len := len - n
    if len ≠ 0 then
      -- the left edge
      let nn := min sb.sbRptr len
      let sb ← sb.store 0 (m.drop n.toNat) nn
      return sb.written (n + nn)
    else return sb.written n

/-- `sbcopy(sb, off, len, to)`, with what is copied to `to`. -/
def sbcopy (sb : Sbuf) (off len : ℤ) : Option (List UInt8) := do
  let start := sb.sbRptr + off
  let start := if start ≥ sb.sbDatalen then start - sb.sbDatalen else start
  if start < sb.sbWptr then sb.load start (if uInt len > sb.sbCc then sb.sbCc else len)
  else
    let off := min (sb.sbDatalen - start) len
    let first ← sb.load start off
    let len := len - off
    if len ≠ 0 then return first ++ (← sb.load 0 len) else return first

/-! ### The socket of the host -/

/-- How `send()` answers: it takes at most so many bytes, or it fails, with `EAGAIN` or `EINTR` or
with another error. -/
inductive SendAnswer
  | took (n : ℕ)
  | again
  | error

/-- How `recv()` answers: some bytes have arrived, none are left when the connection is closed, or it
fails. -/
inductive RecvAnswer
  | got (bytes : List UInt8)
  | again
  | error

/-- `slirp_send(so, buf, len, flags)`, and the bytes that were sent. -/
def slirpSend (buf : List UInt8) : SendAnswer → ℤ × List UInt8
  | .took n => ((buf.take n).length, buf.take n)
  | .again => (-1, [])
  | .error => (-1, [])

/-- `qemu_recv(so->s, p, len, 0)` into the buffer, and the bytes that were received. -/
def Sbuf.qemuRecv (sb : Sbuf) (p : ℤ) (len : ℕ) : RecvAnswer → Option (Sbuf × List UInt8)
  | .got bytes => do
    guard (0 ≤ p ∧ p + len ≤ sb.sbDatalen)
    let sb ← sb.store p (bytes.take len) (bytes.take len).length
    return (sb, bytes.take len)
  | .again => some (sb, [])
  | .error => some (sb, [])

/-- The fields of `struct socket` for its buffers, with `so_tcpcb->t_maxseg`. -/
structure Socket where
  soRcv : Sbuf
  soSnd : Sbuf
  soUrgc : ℤ
  tMaxseg : ℕ+

/-- `iov[0].iov_len`, `iov[1].iov_len` and the number of elements. The first one starts at a pointer
of the buffer, and the second one starts at `sb_data`. -/
structure Iov where
  len0 : ℕ
  len1 : ℕ
  n : ℕ
deriving DecidableEq

/-! ### What the guest sends -/

/-- `sosendoob(so)`, with what is returned and the bytes that were sent. -/
def sosendoob (so : Socket) (host : SendAnswer) : Option (ℤ × List UInt8 × Socket) := do
  let sb := so.soRcv
  let soUrgc := min so.soUrgc 2048
  if sb.sbRptr < sb.sbWptr then
    let (n, sent) := slirpSend (← sb.load sb.sbRptr soUrgc) host
    return (n, sent, { so with soRcv := sb.taken n, soUrgc := soUrgc - n })
  else
    let len := min (sb.sbDatalen - sb.sbRptr) soUrgc
    let buff ← sb.load sb.sbRptr len
    let soUrgc := soUrgc - len
    if soUrgc ≠ 0 then
      let n := min sb.sbWptr soUrgc
      let (sentLen, sent) := slirpSend (buff ++ (← sb.load 0 n)) host
      return (sentLen, sent, { so with soRcv := sb.taken sentLen, soUrgc := soUrgc - n })
    else
      let (n, sent) := slirpSend buff host
      return (n, sent, { so with soRcv := sb.taken n, soUrgc })

/-- `sbappend(so, m)`, with the bytes that were sent. -/
def sbappend (so : Socket) (m : List UInt8) (host : SendAnswer) :
    Option (List UInt8 × Socket) := do
  if m.length = 0 then return ([], so)
  else if so.soUrgc ≠ 0 then
    let soRcv ← sbappendsb so.soRcv m
    let (_, sent, so) ← sosendoob { so with soRcv } host
    return (sent, so)
  else
    let (ret, sent) := if so.soRcv.sbCc = 0 then slirpSend m host else (0, [])
    if ret ≤ 0 then
      let soRcv ← sbappendsb so.soRcv m
      return (sent, { so with soRcv })
    else if ret ≠ m.length then
      let soRcv ← sbappendsb so.soRcv (m.drop ret.toNat)
      return (sent, { so with soRcv })
    else return (sent, so)

/-- The elements that `sowrite()` computes, with the number of bytes there were when it was called. -/
def sowriteIov (sb : Sbuf) (len : ℤ) : Iov :=
  if sb.sbRptr < sb.sbWptr then ⟨min (sizeT (sb.sbWptr - sb.sbRptr)) (sizeT len), 0, 1⟩
  else
    let len0 := min (sizeT (sb.sbDatalen - sb.sbRptr)) (sizeT len)
    let len := wrap32 (len - len0)
    if len ≠ 0 then ⟨len0, min (sizeT sb.sbWptr) (sizeT len), 2⟩ else ⟨len0, 0, 1⟩

/-- The part of `sowrite()` after the urgent data. -/
def sowriteRest (so : Socket) (len : ℤ) (first second : SendAnswer) :
    Option (ℤ × List UInt8 × Socket) := do
  let sb := so.soRcv
  let iov := sowriteIov sb len
  let (nn, sent) := slirpSend (← sb.load sb.sbRptr iov.len0) first
  if nn < 0 ∧ first matches .again then return (0, [], so)
  else if nn ≤ 0 then return (-1, [], so)
  else if iov.n = 2 ∧ nn = iov.len0 then
    let (ret, sent') := slirpSend (← sb.load 0 iov.len1) second
    let nn := if ret > 0 then nn + ret else nn
    return (nn, sent ++ sent', { so with soRcv := sb.taken nn })
  else return (nn, sent, { so with soRcv := sb.taken nn })

/-- `sowrite(so)`, with what is returned and the bytes that were sent. -/
def sowrite (so : Socket) (urgent first second : SendAnswer) :
    Option (ℤ × List UInt8 × Socket) := do
  let len := wrap32 so.soRcv.sbCc
  if so.soUrgc ≠ 0 then
    let (_, sent, so) ← sosendoob so urgent
    if so.soRcv.sbCc = 0 then return (0, sent, so)
    else
      let (nn, sent', so) ← sowriteRest so len first second
      return (nn, sent ++ sent', so)
  else sowriteRest so len first second

/-! ### What the host sends -/

/-- The elements that `sopreprbuf(so, iov, &n)` computes. They are left as they are when the buffer is
full. -/
def sopreprbuf (so : Socket) : Option Iov :=
  let sb := so.soSnd
  let len := wrap32 (sb.sbDatalen - sb.sbCc)
  let mss : ℕ := so.tMaxseg
  if len ≤ 0 then none
  else if sb.sbWptr < sb.sbRptr then
    let len0 := min (sizeT (sb.sbRptr - sb.sbWptr)) len.toNat
    some ⟨if len0 > mss then len0 - len0 % mss else len0, 0, 1⟩
  else
    let len0 := min (sizeT (sb.sbDatalen - sb.sbWptr)) len.toNat
    let len := len.toNat - len0
    if len ≠ 0 then
      let len1 := min (sizeT sb.sbRptr) len
      let total := len0 + len1
      if total > mss then
        let lss := total % mss
        if len1 > lss then some ⟨len0, len1 - lss, 2⟩ else some ⟨len0 - (lss - len1), len1, 1⟩
      else some ⟨len0, len1, 2⟩
    else some ⟨if len0 > mss then len0 - len0 % mss else len0, 0, 1⟩

/-- `soread(so)`, with what is returned and the bytes that were received. -/
def soread (so : Socket) (first second : RecvAnswer) : Option (ℤ × List UInt8 × Socket) := do
  let iov ← sopreprbuf so
  let (sb, bytes) ← so.soSnd.qemuRecv so.soSnd.sbWptr iov.len0 first
  if bytes.length = 0 then return (if first matches .again then 0 else -1, [], so)
  else if iov.n = 2 ∧ bytes.length = iov.len0 then
    let (sb, bytes') ← sb.qemuRecv 0 iov.len1 second
    let nn : ℤ := bytes.length + bytes'.length
    return (nn, bytes ++ bytes', { so with soSnd := sb.written nn })
  else return (bytes.length, bytes, { so with soSnd := sb.written bytes.length })

end Limbo.Slirp
