import Limbo.Lib.Bytes
import Limbo.Lib.WriteLog

/-!
# The decompressing stream

`ZlibInStream` reads from a buffer that it fills by calls of an `Inflater`. The inflater belongs to
the platform: the model takes any, and says of a piece of compressed data what the inflater has to
make of it.
-/

namespace Limbo.Vnc

open Lib (bind_ok)

/-- What the client throws, or why a run is cut off: a loop without a bound has gone `fuel`
rounds. -/
inductive Exn where
  | eof
  | indexOutOfBounds
  | negativeArraySize
  | nullPointer
  | dataFormat
  | exception (message : String)
  | noFuel
deriving DecidableEq, Repr

/-- `java.util.zip.Inflater`: `inflate n` gives at most `n` bytes, or throws. -/
structure Inflater where
  State : Type
  new : State
  setInput : List UInt8 → State → State
  needsInput : State → Bool
  inflate : ℕ → State → Option (List UInt8 × State)
  inflate_zero : ∀ s, inflate 0 s = some ([], s)
  length_inflate : ∀ n s o s', inflate n s = some (o, s') → o.length ≤ n

/-- The inflater makes `d` of the input it has been given, whatever numbers of bytes it is asked
for: it fills the buffer while there is output, and has taken all input with the last of it. `Q` is
what holds of it then. -/
inductive Yields (I : Inflater) (Q : I.State → Prop) : I.State → List UInt8 → Prop where
  | intro {s : I.State} {d : List UInt8} (next : ℕ → I.State)
      (inflates : ∀ n, 0 < n → I.inflate n s = some (d.take n, next n))
      (last : ∀ n, 0 < n → d.length ≤ n → I.needsInput (next n) = true ∧ Q (next n))
      (more : ∀ n, 0 < n → n < d.length → I.needsInput (next n) = false)
      (rest : ∀ n, 0 < n → n < d.length → Yields I Q (next n) (d.drop n)) : Yields I Q s d

/-- The inflater that makes of each of these data the output beside it, and nothing of others. -/
def Inflater.ofTable (table : List (List UInt8 × List UInt8)) : Inflater where
  State := List UInt8
  new := []
  setInput data _ := (table.lookup data).getD []
  needsInput output := output.isEmpty
  inflate n output := some (output.take n, output.drop n)
  inflate_zero _ := rfl
  length_inflate n output o s' h := by
    cases h
    exact List.length_take_le n output

lemma yields_ofTable {table : List (List UInt8 × List UInt8)}
    {Q : (Inflater.ofTable table).State → Prop} (hQ : Q ([] : List UInt8)) (d : List UInt8) :
    Yields (Inflater.ofTable table) Q d d := by
  induction hlen : d.length using Nat.strong_induction_on generalizing d with
  | _ k ih =>
    apply Yields.intro fun n => d.drop n
    · exact fun n _ => rfl
    · intro n _ hn
      have hend : d.drop n = [] := List.drop_eq_nil_of_le hn
      refine ⟨?_, ?_⟩
      · show (d.drop n).isEmpty = true
        rw [hend]
        rfl
      · rwa [hend]
    · intro n _ hn
      show (d.drop n).isEmpty = false
      rw [List.isEmpty_eq_false_iff]
      intro hnil
      exact absurd (List.drop_eq_nil_iff.mp hnil) (not_le.mpr hn)
    · intro n hpos hn
      exact ih (d.drop n).length (by rw [List.length_drop]; omega) _ rfl

/-- The unread bytes of the buffer, the unread bytes of the stream below, and how many of these
belong to the data. -/
structure ZlibInStream (I : Inflater) where
  buf : List UInt8
  underlying : Option (List UInt8)
  bytesIn : ℤ
  inflater : I.State

namespace ZlibInStream

variable {I : Inflater}

/-- `defaultBufSize`. -/
def bufSize : ℕ := 16384

def new : ZlibInStream I := ⟨[], none, 0, I.new⟩

/-- `setUnderlying` on a `MemInStream` over `data`. -/
def setUnderlying (data : List UInt8) (bytesIn : ℤ) : EStateM Exn (ZlibInStream I) Unit :=
  modify fun z => { z with underlying := some data, bytesIn := bytesIn, buf := [] }

def decompress : EStateM Exn (ZlibInStream I) Unit := fun z =>
  match z.underlying with
  | none => .error .nullPointer z
  | some u =>
    if u = [] then .error (.exception "MemInStream overrun: end of stream") z
    else
      let availIn : ℤ := min u.length z.bytesIn
      let inflater :=
        if I.needsInput z.inflater then I.setInput (u.take availIn.toNat) z.inflater
        else z.inflater
      match I.inflate (bufSize - z.buf.length) inflater with
      | none => .error (.exception "ZlibInStream: inflate failed") z
      | some (out, inflater) =>
        if I.needsInput inflater then
          .ok () ⟨z.buf ++ out, some (u.drop availIn.toNat), z.bytesIn - availIn, inflater⟩
        else .ok () { z with buf := z.buf ++ out, inflater := inflater }

/-- The loop of `overrun`. -/
def fill (itemSize : ℕ) : ℕ → EStateM Exn (ZlibInStream I) Unit
  | 0 => fun z => if z.buf.length < itemSize then .error .noFuel z else .ok () z
  | fuel + 1 => fun z =>
    if z.buf.length < itemSize then (decompress >>= fun _ => fill itemSize fuel) z else .ok () z

/-- `overrun`. -/
def overrun (fuel itemSize nItems : ℕ) : EStateM Exn (ZlibInStream I) ℕ := do
  let z ← get
  if bufSize < itemSize then
    throw (.exception "ZlibInStream overrun: max itemSize exceeded")
  else if z.underlying = none then
    throw (.exception "ZlibInStream overrun: no underlying stream")
  else
    fill itemSize fuel
    let z ← get
    return min nItems (z.buf.length / itemSize)

/-- `check(itemSize, nItems)`: how many items can be read. -/
def check (fuel itemSize nItems : ℕ) : EStateM Exn (ZlibInStream I) ℕ := do
  let z ← get
  if z.buf.length < itemSize * nItems then
    if z.buf.length < itemSize then overrun fuel itemSize nItems
    else return z.buf.length / itemSize
  else return nItems

/-- `b[ptr++]` for `n` bytes. -/
def take (n : ℕ) : EStateM Exn (ZlibInStream I) (List UInt8) := fun z =>
  .ok (z.buf.take n) { z with buf := z.buf.drop n }

/-- `readU8`. -/
def readU8 (fuel : ℕ) : EStateM Exn (ZlibInStream I) UInt8 := do
  let _ ← check fuel 1 1
  let b ← take 1
  return b.headD 0

/-- The loop of `readBytes`; a round reads at least one byte. -/
def readBytesLoop (fuel : ℕ) : ℕ → ℕ → EStateM Exn (ZlibInStream I) (List UInt8)
  | _, 0 => pure []
  | 0, _ + 1 => throw .noFuel
  | rounds + 1, n + 1 => do
    let k ← check fuel 1 (n + 1)
    let bs ← take k
    let rest ← readBytesLoop fuel rounds (n + 1 - k)
    return bs ++ rest

/-- `readBytes`. -/
def readBytes (fuel n : ℕ) : EStateM Exn (ZlibInStream I) (List UInt8) := readBytesLoop fuel n n

/-- The loop of `reset`. -/
def drain : ℕ → EStateM Exn (ZlibInStream I) Unit
  | 0 => fun z => if 0 < z.bytesIn then .error .noFuel z else .ok () z
  | fuel + 1 => fun z =>
    if 0 < z.bytesIn then
      (decompress >>= fun _ => (modify fun z => { z with buf := [] }) >>= fun _ => drain fuel) z
    else .ok () z

/-- `reset`. -/
def reset (fuel : ℕ) : EStateM Exn (ZlibInStream I) Unit := do
  modify fun z => { z with buf := [] }
  let z ← get
  if z.underlying = none then pure ()
  else
    drain fuel
    modify fun z => { z with underlying := none }

/-! ### Reading what the inflater makes -/

/-- The stream will give the bytes `d`: it holds the first of them, and the inflater makes the rest
of the data below. -/
inductive Delivers (Q : I.State → Prop) : ZlibInStream I → List UInt8 → Prop where
  | more {buf c rest : List UInt8} {st : I.State} (hc : c ≠ [])
      (h : Yields I Q (if I.needsInput st then I.setInput c st else st) rest) :
      Delivers Q ⟨buf, some c, c.length, st⟩ (buf ++ rest)
  | last {buf : List UInt8} {st : I.State} (hneeds : I.needsInput st = true) (hQ : Q st) :
      Delivers Q ⟨buf, some [], 0, st⟩ buf

variable {Q : I.State → Prop} {z : ZlibInStream I} {d : List UInt8}

/-- The call that gives the last of the output leaves no input. -/
lemma decompress_last {c rest : List UInt8} {st : I.State} (hc : c ≠ [])
    (h : Yields I Q (if I.needsInput st then I.setInput c st else st) rest)
    (hlen : rest.length ≤ bufSize) :
    ∃ st', decompress ⟨[], some c, c.length, st⟩ = .ok () ⟨rest, some [], 0, st'⟩ ∧
      I.needsInput st' = true ∧ Q st' := by
  have htake : c.take (min (c.length : ℤ) c.length).toNat = c := by simp
  have hdrop : c.drop (min (c.length : ℤ) c.length).toNat = [] := by simp
  have hnone : (c.length : ℤ) - min (c.length : ℤ) c.length = 0 := by simp
  cases h with
  | intro next inflates last more hrest =>
    have hrun := inflates bufSize (by decide)
    obtain ⟨hneeds, hQ⟩ := last bufSize (by decide) hlen
    refine ⟨next bufSize, ?_, hneeds, hQ⟩
    simp only [decompress, if_neg hc, htake, hdrop, hnone, List.length_nil, Nat.sub_zero, hrun,
      List.nil_append, if_pos hneeds, List.take_of_length_le hlen]

lemma decompress_yields {c rest : List UInt8} {st : I.State} (hc : c ≠ [])
    (h : Yields I Q (if I.needsInput st then I.setInput c st else st) rest) :
    ∃ z', decompress ⟨[], some c, c.length, st⟩ = .ok () z' ∧ Delivers Q z' rest ∧
      z'.buf = rest.take bufSize := by
  by_cases hlen : rest.length ≤ bufSize
  · obtain ⟨st', hrun, hneeds, hQ⟩ := decompress_last hc h hlen
    exact ⟨_, hrun, .last hneeds hQ, (List.take_of_length_le hlen).symm⟩
  · have htake : c.take (min (c.length : ℤ) c.length).toNat = c := by simp
    have hpos : 0 < bufSize := by decide
    cases h with
    | intro next inflates last more hrest =>
      have hrun := inflates bufSize hpos
      have hneeds := more bufSize hpos (not_le.mp hlen)
      have hstate : (if I.needsInput (next bufSize) then I.setInput c (next bufSize)
          else next bufSize) = next bufSize := if_neg (by simp [hneeds])
      have hmore : Delivers Q ⟨rest.take bufSize, some c, c.length, next bufSize⟩
          (rest.take bufSize ++ rest.drop bufSize) :=
        .more hc (hstate.symm ▸ hrest bufSize hpos (not_le.mp hlen))
      rw [List.take_append_drop] at hmore
      refine ⟨_, ?_, hmore, rfl⟩
      simp only [decompress, if_neg hc, htake, List.length_nil, Nat.sub_zero, hrun,
        List.nil_append, hneeds, Bool.false_eq_true, if_false]

/-- A stream with bytes to come gives at least one. -/
lemma check_delivers (fuel : ℕ) {n : ℕ} (h : Delivers Q z d) (hd : d ≠ []) (hn : 0 < n) :
    ∃ k z', check (fuel + 1) 1 n z = .ok k z' ∧ Delivers Q z' d ∧ 0 < k ∧ k ≤ n ∧
      k ≤ z'.buf.length := by
  by_cases hbuf : z.buf = []
  · -- the buffer is empty, so there is data below
    cases h with
    | last hneeds hQ => exact absurd hbuf hd
    | @more buf c rest st hc hrest =>
      obtain rfl : buf = [] := hbuf
      obtain ⟨z', hz', hdel, hz'buf⟩ := decompress_yields hc hrest
      have hlen : 0 < z'.buf.length := by
        rw [hz'buf, List.length_take]
        exact lt_min (by decide) (List.length_pos_of_ne_nil hd)
      have hfill : fill 1 (fuel + 1) ⟨[], some c, c.length, st⟩ = .ok () z' := by
        have hdone : fill 1 fuel z' = .ok () z' := by
          cases fuel <;> exact if_neg (not_lt.mpr hlen)
        show (decompress >>= fun _ => fill 1 fuel) _ = _
        rw [bind_ok hz', hdone]
      have hover : overrun (fuel + 1) 1 n ⟨[], some c, c.length, st⟩ =
          .ok (min n z'.buf.length) z' := by
        show (fill 1 (fuel + 1) >>= fun _ => get >>= fun z =>
          pure (min n (z.buf.length / 1))) _ = _
        rw [bind_ok hfill]
        show EStateM.Result.ok (min n (z'.buf.length / 1)) z' = _
        rw [Nat.div_one]
      have hshort : ([] : List UInt8).length < 1 * n := by simpa using hn
      refine ⟨min n z'.buf.length, z', ?_, hdel, lt_min hn hlen, min_le_left _ _,
        min_le_right _ _⟩
      show (if _ < 1 * n then if _ < 1 then overrun (fuel + 1) 1 n else _ else _ :
        EStateM Exn (ZlibInStream I) ℕ) _ = _
      rw [if_pos hshort]
      exact hover
  · have hlen : 0 < z.buf.length := List.length_pos_of_ne_nil hbuf
    refine ⟨min n z.buf.length, z, ?_, h, lt_min hn hlen, min_le_left _ _, min_le_right _ _⟩
    show (if _ < 1 * n then if _ < 1 then _ else pure (z.buf.length / 1) else pure n :
      EStateM Exn (ZlibInStream I) ℕ) _ = _
    rw [one_mul, Nat.div_one]
    by_cases hshort : z.buf.length < n
    · rw [if_pos hshort, if_neg (not_lt.mpr hlen), min_eq_right hshort.le]
      rfl
    · rw [if_neg hshort, min_eq_left (not_lt.mp hshort)]
      rfl

/-- What is taken from the buffer is the start of what is to come. -/
lemma take_delivers {k : ℕ} (h : Delivers Q z d) (hk : k ≤ z.buf.length) :
    ∃ z', take k z = .ok (d.take k) z' ∧ Delivers Q z' (d.drop k) := by
  cases h with
  | @more buf c rest st hc hrest =>
    have hk : k ≤ buf.length := hk
    have hdel : Delivers Q ⟨buf.drop k, some c, c.length, st⟩ (buf.drop k ++ rest) :=
      .more hc hrest
    rw [List.take_append_of_le_length hk, List.drop_append_of_le_length hk]
    exact ⟨_, rfl, hdel⟩
  | last hneeds hQ => exact ⟨_, rfl, .last hneeds hQ⟩

lemma readU8_delivers (fuel : ℕ) {b : UInt8} (h : Delivers Q z (b :: d)) :
    ∃ z', readU8 (fuel + 1) z = .ok b z' ∧ Delivers Q z' d := by
  obtain ⟨k, z₁, hcheck, hdel, hpos, hk, hle⟩ :=
    check_delivers fuel (n := 1) h (List.cons_ne_nil b d) one_pos
  obtain ⟨z₂, htake, hdel'⟩ := take_delivers (k := 1) hdel (hpos.trans_le hle)
  refine ⟨z₂, ?_, hdel'⟩
  show (check (fuel + 1) 1 1 >>= fun _ => take 1 >>= fun b => pure (b.headD 0)) z = _
  rw [bind_ok hcheck, bind_ok htake]
  rfl

/-- Each round of the loop reads the next bytes, and at least one. -/
lemma readBytesLoop_delivers {fuel rounds : ℕ} {bs : List UInt8} (hrounds : bs.length ≤ rounds)
    (h : Delivers Q z (bs ++ d)) :
    ∃ z', readBytesLoop (fuel + 1) rounds bs.length z = .ok bs z' ∧ Delivers Q z' d := by
  induction rounds generalizing bs z with
  | zero =>
    obtain rfl : bs = [] := List.length_eq_zero_iff.mp (Nat.le_zero.mp hrounds)
    exact ⟨z, rfl, h⟩
  | succ rounds ih =>
    cases bs with
    | nil => exact ⟨z, rfl, h⟩
    | cons b bs =>
      obtain ⟨k, z₁, hcheck, hdel, hpos, hk, hle⟩ :=
        check_delivers fuel h (List.cons_ne_nil _ _) bs.length.succ_pos
      have hk' : k ≤ (b :: bs).length := hk
      obtain ⟨z₂, htake, hdel'⟩ := take_delivers hdel hle
      rw [List.take_append_of_le_length hk'] at htake
      rw [List.drop_append_of_le_length hk'] at hdel'
      have hlen : ((b :: bs).drop k).length = bs.length + 1 - k := List.length_drop
      obtain ⟨z₃, hrest, hdel''⟩ := ih (by rw [hlen]; simp at hrounds; omega) hdel'
      refine ⟨z₃, ?_, hdel''⟩
      show (check (fuel + 1) 1 (bs.length + 1) >>= fun k => take k >>= fun bs' =>
        readBytesLoop (fuel + 1) rounds (bs.length + 1 - k) >>= fun rest =>
          pure (bs' ++ rest)) z = _
      rw [bind_ok hcheck, bind_ok htake, ← hlen, bind_ok hrest]
      show EStateM.Result.ok _ _ = _
      rw [List.take_append_drop]

lemma readBytes_delivers (fuel : ℕ) {bs : List UInt8} (h : Delivers Q z (bs ++ d)) :
    ∃ z', readBytes (fuel + 1) bs.length z = .ok bs z' ∧ Delivers Q z' d :=
  readBytesLoop_delivers le_rfl h

/-- When everything has been read, a reset brings the inflater to the end of the data. -/
lemma reset_delivers (fuel : ℕ) (h : Delivers Q z []) :
    ∃ st, reset (fuel + 1) z = .ok () ⟨[], none, 0, st⟩ ∧ I.needsInput st = true ∧ Q st := by
  generalize hd : ([] : List UInt8) = d at h
  cases h with
  | @more buf c rest st hc hrest =>
    obtain ⟨rfl, rfl⟩ := List.append_eq_nil_iff.mp hd.symm
    obtain ⟨st', hrun, hneeds, hQ⟩ := decompress_last hc hrest (Nat.zero_le _)
    refine ⟨st', ?_, hneeds, hQ⟩
    have hpos : (0 : ℤ) < c.length := by exact_mod_cast List.length_pos_of_ne_nil hc
    have hdone : drain fuel ⟨[], some [], 0, st'⟩ = .ok () ⟨[], some [], 0, st'⟩ := by
      cases fuel <;> rfl
    have hdrain : drain (fuel + 1) ⟨[], some c, c.length, st⟩ = .ok () ⟨[], some [], 0, st'⟩ := by
      show (if (0 : ℤ) < c.length then (decompress >>= fun _ => _ >>= fun _ => drain fuel) _
        else _) = _
      rw [if_pos hpos, bind_ok hrun]
      exact hdone
    show (drain (fuel + 1) >>= fun _ => _) ⟨[], some c, c.length, st⟩ = _
    rw [bind_ok hdrain]
    rfl
  | @last buf st hneeds hQ =>
    obtain rfl := hd
    exact ⟨st, rfl, hneeds, hQ⟩

/-- A stream over data that the inflater makes something of. -/
lemma setUnderlying_delivers {c : List UInt8} (hc : c ≠ [])
    (hneeds : I.needsInput z.inflater = true) (h : Yields I Q (I.setInput c z.inflater) d) :
    ∃ z', setUnderlying c c.length z = .ok () z' ∧ Delivers Q z' d := by
  refine ⟨_, rfl, ?_⟩
  apply Delivers.more hc
  rwa [if_pos hneeds]

/-- A stream over no data. -/
lemma setUnderlying_nil (hneeds : I.needsInput z.inflater = true) (hQ : Q z.inflater) :
    ∃ z', setUnderlying [] 0 z = .ok () z' ∧ Delivers Q z' [] := ⟨_, rfl, .last hneeds hQ⟩

end ZlibInStream

end Limbo.Vnc
