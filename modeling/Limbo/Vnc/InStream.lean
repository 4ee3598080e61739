import Limbo.Lib.Run
import Limbo.Vnc.ZlibInStream

/-!
# The buffer of the decompressing stream

`InStream` and `ZlibInStream` with the array `b`, its positions, and a stream below that gets its
bytes in reads of any size. The inflater is a parameter again, here as `Inflater` describes it: it
takes its input when it likes, and its data may end before the input does.
-/

namespace Limbo.Vnc.InStream

open Lib
open Limbo.Vnc.ZlibInStream (bufSize)

/-- `java.util.zip.Inflater`: `inflate` gives at most so many bytes, or throws. -/
structure Inflater where
  State : Type
  setInput : List UInt8 → State → State
  needsInput : State → Bool
  inflate : ℕ → State → Option (List UInt8) × State

/-! ### The stream below -/

/-- The unread bytes of its buffer, and what its next reads will give. -/
structure Underlying where
  buffered : List UInt8
  reads : List (List UInt8)
deriving DecidableEq

namespace Underlying

variable {u u' : Underlying} {reads : List (List UInt8)}

/-- All the bytes to come. -/
def bytes (u : Underlying) : List UInt8 := u.buffered ++ u.reads.flatten

/-- Reads until one has given something. -/
def refill : List (List UInt8) → Option Underlying
  | [] => none
  | [] :: reads => refill reads
  | (b :: bs) :: reads => some ⟨b :: bs, reads⟩

/-- `check(1)`. -/
def check (u : Underlying) : Option Underlying :=
  if u.buffered = [] then refill u.reads else some u

lemma refill_some (h : refill reads = some u) : u.bytes = reads.flatten ∧ u.buffered ≠ [] := by
  induction reads using refill.induct with
  | case1 => cases h
  | case2 reads ih => exact ih h
  | case3 b bs reads =>
    cases h
    exact ⟨rfl, List.cons_ne_nil b bs⟩

lemma refill_none (h : refill reads = none) : reads.flatten = [] := by
  induction reads using refill.induct with
  | case1 => rfl
  | case2 reads ih => exact ih h
  | case3 b bs reads => cases h

/-- The bytes to come stay, and some are in the buffer. -/
lemma check_some (h : u.check = some u') :
    u'.bytes = u.bytes ∧ u'.buffered ≠ [] ∧ (u.buffered ≠ [] → u' = u) := by
  unfold check at h
  split_ifs at h with hempty
  · obtain ⟨hbytes, hne⟩ := refill_some h
    refine ⟨?_, hne, fun hbuf => absurd hempty hbuf⟩
    rw [hbytes, bytes, hempty, List.nil_append]
  · cases h
    exact ⟨rfl, hempty, fun _ => rfl⟩

lemma check_none (h : u.check = none) : u.bytes = [] := by
  unfold check at h
  split_ifs at h with hempty
  rw [bytes, hempty, refill_none h, List.nil_append]

lemma check_of_nil (h : u.bytes = []) : u.check = none := by
  cases hcheck : u.check with
  | none => rfl
  | some u' =>
    obtain ⟨hbytes, hne, -⟩ := check_some hcheck
    rw [h] at hbytes
    exact absurd (List.append_eq_nil_iff.mp hbytes).1 hne

end Underlying

/-! ### The stream -/

/-- `underlying` is null when it is not `attached`; `handed` is what has been read so far. -/
structure ZlibInStream (I : Inflater) where
  b : List UInt8
  ptr : ℕ
  end_ : ℕ
  ptrOffset : ℕ
  underlying : Underlying
  attached : Bool
  bytesIn : ℕ
  inflater : I.State
  handed : List UInt8

/-- The bytes `out` stored into `b` from `i` on. -/
def store (b : List UInt8) (i : ℕ) (out : List UInt8) : List UInt8 :=
  b.take i ++ out ++ b.drop (i + out.length)

section Code

variable {I : Inflater}

/-- A new stream. -/
def ZlibInStream.new (inflater : I.State) : ZlibInStream I where
  b := List.replicate bufSize 0
  ptr := 0
  end_ := 0
  ptrOffset := 0
  underlying := ⟨[], []⟩
  attached := false
  bytesIn := 0
  inflater := inflater
  handed := []

/-- `setUnderlying`; what is read is counted from here. -/
def setUnderlying (is : Underlying) (bytesIn : ℕ) (z : ZlibInStream I) : ZlibInStream I :=
  { z with underlying := is, attached := true, bytesIn := bytesIn, ptr := 0, end_ := 0, handed := [] }

def decompress : EStateM Exn (ZlibInStream I) Unit := fun z =>
  if z.attached = false then .error .nullPointer z
  else
    match z.underlying.check with
    | none => .error .eof z
    | some u =>
      let availIn := min u.buffered.length z.bytesIn
      let inflater :=
        if I.needsInput z.inflater then I.setInput (u.buffered.take availIn) z.inflater
        else z.inflater
      match I.inflate (bufSize - z.end_) inflater with
      | (none, inflater) =>
        .error (.exception "ZlibInStream: inflate failed")
          { z with underlying := u, inflater := inflater }
      | (some out, inflater) =>
        if I.needsInput inflater then
          .ok () { z with
            b := store z.b z.end_ out
            end_ := z.end_ + out.length
            underlying := { u with buffered := u.buffered.drop availIn }
            bytesIn := z.bytesIn - availIn
            inflater := inflater }
        else
          .ok () { z with
            b := store z.b z.end_ out
            end_ := z.end_ + out.length
            underlying := u
            inflater := inflater }

/-- `while (end < itemSize) decompress();` -/
def fill (itemSize : ℕ) : ℕ → EStateM Exn (ZlibInStream I) Unit
  | 0 => fun z => if z.end_ < itemSize then .error .noFuel z else .ok () z
  | fuel + 1 => fun z =>
    if z.end_ < itemSize then (decompress >>= fun _ => fill itemSize fuel) z else .ok () z

/-- The unread bytes moved to the front of `b`. -/
def moveToFront (z : ZlibInStream I) : ZlibInStream I :=
  { z with
    b := store z.b 0 ((z.b.drop z.ptr).take (z.end_ - z.ptr))
    ptrOffset := z.ptrOffset + z.ptr
    end_ := z.end_ - z.ptr
    ptr := 0 }

def overrun (fuel itemSize nItems : ℕ) : EStateM Exn (ZlibInStream I) ℕ := do
  let z ← get
  if bufSize < itemSize then
    throw (.exception "ZlibInStream overrun: max itemSize exceeded")
  else if z.attached = false then
    throw (.exception "ZlibInStream overrun: no underlying stream")
  else
    set (moveToFront z)
    fill itemSize fuel
    let z ← get
    if z.end_ < itemSize * nItems then return z.end_ / itemSize else return nItems

/-- `ptr + itemSize * nItems > end`, on `int`s. -/
@[irreducible]
def runsOver (ptr itemSize nItems end_ : ℕ) : Bool :=
  decide ((end_ : ℤ) < wrap32 (ptr + itemSize * nItems))

/-- `check`: how many items of `nItems` are in the buffer. -/
def check (fuel itemSize nItems : ℕ) : EStateM Exn (ZlibInStream I) ℕ := fun z =>
  if runsOver z.ptr itemSize nItems z.end_ then
    if z.end_ < z.ptr + itemSize then overrun fuel itemSize nItems z
    else .ok ((z.end_ - z.ptr) / itemSize) z
  else .ok nItems z

/-- `n` bytes of `b` from `ptr` on. -/
def take (n : ℕ) : EStateM Exn (ZlibInStream I) (List UInt8) := fun z =>
  if z.ptr + n ≤ z.b.length then
    let bs := (z.b.drop z.ptr).take n
    .ok bs { z with ptr := z.ptr + n, handed := z.handed ++ bs }
  else .error .indexOutOfBounds z

/-- `check(itemSize)` and the bytes `b[ptr++]` that make the value. -/
def readItem (fuel itemSize : ℕ) : EStateM Exn (ZlibInStream I) (List UInt8) := do
  let _ ← check fuel itemSize 1
  take itemSize

/-- The loop of `readBytes` with `n` bytes to go; a round reads at least one. -/
def readBytesLoop (fuel : ℕ) : ℕ → ℕ → EStateM Exn (ZlibInStream I) (List UInt8)
  | _, 0 => pure []
  | 0, _ + 1 => throw .noFuel
  | rounds + 1, n + 1 => do
    let k ← check fuel 1 (n + 1)
    let bs ← take k
    let rest ← readBytesLoop fuel rounds (n + 1 - k)
    return bs ++ rest

def readBytes (fuel n : ℕ) : EStateM Exn (ZlibInStream I) (List UInt8) := readBytesLoop fuel n n

/-- `while (bytesIn > 0) { decompress(); end = 0; }` -/
def drain : ℕ → EStateM Exn (ZlibInStream I) Unit
  | 0 => fun z => if 0 < z.bytesIn then .error .noFuel z else .ok () z
  | fuel + 1 => fun z =>
    if 0 < z.bytesIn then
      (decompress >>= fun _ => modify (fun z => { z with end_ := 0 }) >>= fun _ => drain fuel) z
    else .ok () z

def reset (fuel : ℕ) : EStateM Exn (ZlibInStream I) Unit := do
  modify fun z => { z with ptr := 0, end_ := 0 }
  let z ← get
  if z.attached = false then return ()
  else
    drain fuel
    modify fun z => { z with attached := false }

/-! ### Calls -/

/-- The calls of a reader; a length is an `int`. -/
inductive Call where
  | readU8
  | readU16
  | readU32
  | readOpaque24A
  | readBytes (length : Fin (2 ^ 31))
  | reset

/-- How many bytes the call is to read. -/
def Call.size : Call → ℕ
  | .readU8 => 1
  | .readU16 => 2
  | .readU32 => 4
  | .readOpaque24A => 3
  | .readBytes length => length
  | .reset => 0

/-- The call, with the bytes it has read. -/
def Call.exec (fuel : ℕ) (c : Call) : EStateM Exn (ZlibInStream I) (List UInt8) :=
  match c with
  | .readBytes length => InStream.readBytes fuel length
  | .reset => do
    InStream.reset fuel
    return []
  | c => readItem fuel c.size

/-- The state a call leaves, whether it returns or throws; none if it does neither. -/
def Call.next (fuel : ℕ) (z : ZlibInStream I) (c : Call) : Option (ZlibInStream I) :=
  match c.exec fuel z with
  | .ok _ z' => some z'
  | .error .noFuel _ => none
  | .error _ z' => some z'

end Code

end Limbo.Vnc.InStream
