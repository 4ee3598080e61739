import Limbo.Lib.Memory

/-!
# The transfers of `posix-aio-compat.c`

`handle_aiocb_rw` reads or writes the elements of a request with one vectored call, through a bounce
buffer or, if there is only one element, in place. The system calls are answered by a list of
results; a list that is used up stands for a call that has not returned.
-/

namespace Limbo.Aio

open Lib

def EINTR : ℕ := 4

def ENOSYS : ℕ := 38

/-- A file; the bytes from its size on are zeros when the file grows over them. -/
@[ext]
structure File where
  size : ℕ
  byte : Memory
  byte_eq_zero : ∀ a, size ≤ a → byte a = 0

/-- `n` bytes of `src` from `q` on are written at `off`; to write none does not let a file grow. -/
def File.write (file : File) (src : Memory) (q off n : ℕ) : File :=
  if n = 0 then file else
  { size := max file.size (off + n)
    byte := copy file.byte off src q n
    byte_eq_zero := fun a ha => by
      rw [copy_of_not_mem (by omega)]
      exact file.byte_eq_zero a (by omega) }

/-- What a system call comes to: `-1` and `errno`, or `n` bytes if there are so many. -/
inductive SysResult where
  | error (errno : ℕ)
  | bytes (n : ℕ)
deriving DecidableEq, Repr

/-- The fields of `struct qemu_paiocb` for a transfer: `write` and `misaligned` are flags of
`aio_type`, and `growable` is `common.bs->growable`. -/
structure Aiocb where
  aioIov : List Iovec
  aioNbytes : ℕ
  aioOffset : ℕ
  write : Bool
  misaligned : Bool
  growable : Bool

/-- What a function returns, and the memory, the file and the results that are left then. -/
structure Outcome where
  ret : ℤ
  mem : Memory
  file : File
  results : List SysResult

section Calls

variable (c : Aiocb)

/-- The bytes of the `n` from `offset` on that a call can transfer: a read ends with the file. -/
def Aiocb.possible (file : File) (offset n : ℕ) : ℕ :=
  if c.write then n else min n (file.size - (c.aioOffset + offset))

/-- `pwrite` or `pread` of `len` bytes of the buffer from `offset` on. -/
def Aiocb.move (buf offset len : ℕ) (file : File) (mem : Memory) : File × Memory :=
  if c.write then (file.write mem (buf + offset) (c.aioOffset + offset) len, mem)
  else (file, copy mem (buf + offset) file.byte (c.aioOffset + offset) len)

/-- `pwritev` or `preadv` of the first `len` bytes of the elements. -/
def Aiocb.moveVector (len : ℕ) (file : File) (guest : Memory) : File × Memory :=
  if c.write then (file.write (gather c.aioIov guest 0 fun _ => 0) 0 c.aioOffset len, guest)
  else (file, scatter c.aioIov len file.byte c.aioOffset guest)

/-- `handle_aiocb_rw_vector(aiocb)` -/
def handleAiocbRwVector : List SysResult → File → Memory → Option Outcome
  | [], _, _ => none
  | .error errno :: results, file, guest =>
    if errno = EINTR then handleAiocbRwVector results file guest
    else some ⟨-errno, guest, file, results⟩
  | .bytes n :: results, file, guest =>
    let len := min n (c.possible file 0 (total c.aioIov))
    let moved := c.moveVector len file guest
    some ⟨len, moved.2, moved.1, results⟩

/-- The loop of `handle_aiocb_rw_linear(aiocb, buf)`, from `offset` on. -/
def handleAiocbRwLinear (buf : ℕ) : List SysResult → ℕ → File → Memory → Option Outcome
  | [], offset, file, mem => if offset < c.aioNbytes then none else some ⟨offset, mem, file, []⟩
  | r :: results, offset, file, mem =>
    if offset < c.aioNbytes then
      match r with
      | .error errno =>
        if errno = EINTR then handleAiocbRwLinear buf results offset file mem
        else some ⟨-errno, mem, file, results⟩
      | .bytes n =>
        let len := min n (c.possible file offset (c.aioNbytes - offset))
        let moved := c.move buf offset len file mem
        if len = 0 then some ⟨offset, mem, file, results⟩
        else handleAiocbRwLinear buf results (offset + len) moved.1 moved.2
    else some ⟨offset, mem, file, r :: results⟩

/-- The part of `handle_aiocb_rw` with a bounce buffer, whose memory `heap` is not initialized. -/
def bounce (heap guest : Memory) (file : File) (results : List SysResult) : Option Outcome := do
  let buf := if c.write then gather c.aioIov guest 0 heap else heap
  let out ← handleAiocbRwLinear c 0 results 0 file buf
  return { out with
    mem := if c.write then guest else scatter c.aioIov c.aioNbytes out.mem 0 guest }

/-- The part of `handle_aiocb_rw` that tries `preadv` or `pwritev` first. -/
def vectorOrBounce (heap guest : Memory) (file : File) (results : List SysResult) :
    Option (Outcome × Bool) := do
  let out ← handleAiocbRwVector c results file guest
  if out.ret = c.aioNbytes then return (out, true)
  else if out.ret < 0 ∧ out.ret ≠ -ENOSYS then return (out, true)
  else
    let out ← bounce c heap out.mem out.file out.results
    return (out, false)

/-- `handle_aiocb_rw(aiocb)`, with the new value of `preadv_present`. -/
def handleAiocbRw (preadvPresent : Bool) (heap guest : Memory) (file : File)
    (results : List SysResult) : Option (Outcome × Bool) :=
  let bounced := do
    let out ← bounce c heap guest file results
    return (out, preadvPresent)
  if c.misaligned then bounced
  else
    match c.aioIov with
    | [v] => do
      let out ← handleAiocbRwLinear c v.iovBase results 0 file guest
      return (out, preadvPresent)
    | _ => if preadvPresent then vectorOrBounce c heap guest file results else bounced

/-- `qemu_iovec_memset_skip(qiov, c, count, skip)`, from an element on. -/
def qemuIovecMemsetSkip (b : UInt8) (count : ℕ) : List Iovec → ℕ → ℕ → Memory → Memory
  | [], _, _, mem => mem
  | v :: vs, done, skip, mem =>
    if done = count then mem
    else if v.iovLen ≤ skip then qemuIovecMemsetSkip b count vs done (skip - v.iovLen) mem
    else
      let iovBase := v.iovBase + skip
      let iovLen := v.iovLen - skip
      if done + iovLen > count then copy mem iovBase (fun _ => b) 0 (count - done)
      else qemuIovecMemsetSkip b count vs (done + iovLen) 0 (copy mem iovBase (fun _ => b) 0 iovLen)

/-- `QEMU_AIO_READ` and `QEMU_AIO_WRITE` in `aio_thread`. -/
def aioThread (preadvPresent : Bool) (heap guest : Memory) (file : File)
    (results : List SysResult) : Option (Outcome × Bool) := do
  let (out, preadvPresent) ← handleAiocbRw c preadvPresent heap guest file results
  if c.write = false ∧ 0 ≤ out.ret ∧ out.ret < c.aioNbytes ∧ c.growable then
    let mem := qemuIovecMemsetSkip 0 (c.aioNbytes - out.ret.toNat) c.aioIov 0 out.ret.toNat out.mem
    return ({ out with
      ret := c.aioNbytes
      mem := mem }, preadvPresent)
  else return (out, preadvPresent)

end Calls

end Limbo.Aio
