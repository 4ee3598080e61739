import Limbo.Snapshot.QemuFileRead
import Limbo.Snapshot.VmState

/-!
# What the buffering lets through

What is written to a buffered file reaches the back end in order and complete, as long as the back
end accepts what it is handed. What is read from one are the bytes of the content in order. Peeks
and skips, however, only see what has been fetched, and at the end a byte is `0`.
-/

namespace Limbo.Snapshot

open Lib

/-! ### Writing -/

/-- The calls that write. -/
inductive PutOp where
  | putByte (v : UInt8)
  | putBuffer (buf : List UInt8)
  | putBe16 (v : UInt32)
  | putBe32 (v : UInt32)
  | putBe64 (v : UInt64)

/-- `qemu_put_be16`. -/
def qemuPutBe16 (v : UInt32) : FileProg Unit := do
  put (v >>> 8).toUInt8
  put v.toUInt8

/-- `qemu_put_be64`. -/
def qemuPutBe64 (v : UInt64) : FileProg Unit := do
  qemuPutBe32 (v >>> 32).toUInt32
  qemuPutBe32 v.toUInt32

def PutOp.prog : PutOp → FileProg Unit
  | .putByte v => put v
  | .putBuffer buf => .putBuffer buf (.pure ())
  | .putBe16 v => qemuPutBe16 v
  | .putBe32 v => qemuPutBe32 v
  | .putBe64 v => qemuPutBe64 v

/-- A sequence of calls. -/
def putAll : List PutOp → FileProg Unit
  | [] => .pure ()
  | op :: ops => do
    op.prog
    putAll ops

/-- The bytes that a call writes. -/
def PutOp.bytes : PutOp → List UInt8
  | .putByte v => [v]
  | .putBuffer buf => buf
  | .putBe16 v => beBytes 2 v.toNat
  | .putBe32 v => beBytes 4 v.toNat
  | .putBe64 v => beBytes 8 v.toNat

/-- What a back end has been handed: positions and buffers. -/
abbrev Handed := List (ℕ × List UInt8)

def Handed.bytes (handed : Handed) : List UInt8 := handed.flatMap Prod.snd

/-- Each buffer is handed over at the position behind those before it. -/
def Handed.InOrder (handed : Handed) : Prop :=
  ∀ before pos buf after, handed = before ++ (pos, buf) :: after →
    pos = (Handed.bytes before).length

section

variable {E : Type} (putBuffer : List UInt8 → ℕ → E → ℤ × E)

/-- A back end that keeps what it is handed. -/
def handing (buf : List UInt8) (pos : ℕ) (d : E × Handed) : ℤ × E × Handed :=
  let (len, e) := putBuffer buf pos d.1
  (len, e, d.2 ++ [(pos, buf)])

/-- A back end that accepts each buffer that it is handed. -/
def Accepts : Prop := ∀ buf pos e, buf ≠ [] → 0 < (putBuffer buf pos e).1

/-- A file and its back end have what has been produced, the back end the full buffers. -/
structure HandsOver (p : Produced) (f : QEMUFile) (handed : Handed) : Prop where
  lastError : f.lastError = p.lastError
  bytes : handed.bytes ++ f.buf = p.bytes
  offset : f.bufOffset = handed.bytes.length
  inOrder : handed.InOrder

variable {putBuffer}

lemma Handed.bytes_append_singleton (handed : Handed) (pos : ℕ) (buf : List UInt8) :
    Handed.bytes (handed ++ [(pos, buf)]) = handed.bytes ++ buf := by
  simp [Handed.bytes]

lemma Handed.InOrder.append {handed : Handed} (h : handed.InOrder) (buf : List UInt8) :
    Handed.InOrder (handed ++ [(handed.bytes.length, buf)]) := by
  intro before pos buf' after heq
  rcases List.eq_nil_or_concat after with rfl | ⟨after', last, rfl⟩
  · obtain ⟨rfl, hlast⟩ := List.append_inj' heq rfl
    simp only [List.cons.injEq, Prod.mk.injEq, and_true] at hlast
    exact hlast.1.symm
  · rw [List.concat_eq_append, ← List.cons_append, ← List.append_assoc] at heq
    exact h before pos buf' after' (List.append_inj' heq rfl).1

lemma buf_writeOut {D : Type} (putBuf : List UInt8 → ℕ → D → ℤ × D) (buf : List UInt8)
    (f : QEMUFile) (d : D) : (writeOut putBuf buf f d).1.buf = [] := by
  rw [Snapshot.writeOut]
  obtain ⟨len, d'⟩ := putBuf buf f.bufOffset d
  dsimp only
  split_ifs <;> rfl

lemma HandsOver.writeOut (haccepts : Accepts putBuffer) {p : Produced} {f : QEMUFile} {e : E}
    {handed : Handed} {buf : List UInt8} (h : HandsOver p f handed) (hbuf : buf ≠ []) :
    HandsOver { p with bytes := handed.bytes ++ buf }
        (writeOut (handing putBuffer) buf f (e, handed)).1
        (writeOut (handing putBuffer) buf f (e, handed)).2.2 := by
  have hwrite : Snapshot.writeOut (handing putBuffer) buf f (e, handed) =
      (⟨[], f.bufOffset + buf.length, f.lastError, by decide⟩,
        (putBuffer buf f.bufOffset e).2, handed ++ [(f.bufOffset, buf)]) := by
    show (if 0 < (putBuffer buf f.bufOffset e).1 then _ else _) = _
    rw [if_pos (haccepts buf f.bufOffset e hbuf)]
  rw [hwrite]
  refine ⟨h.lastError, ?_, ?_, ?_⟩
  · rw [List.append_nil, Handed.bytes_append_singleton]
  · rw [Handed.bytes_append_singleton, List.length_append, ← h.offset]
  · rw [h.offset]
    exact h.inOrder.append buf

lemma HandsOver.store (haccepts : Accepts putBuffer) {p : Produced} {f : QEMUFile} {e : E}
    {handed : Handed} (h : HandsOver p f handed) (extra : List UInt8) :
    HandsOver { p with bytes := p.bytes ++ extra }
      (store (handing putBuffer) (f.buf ++ extra) f (e, handed)).1
      (store (handing putBuffer) (f.buf ++ extra) f (e, handed)).2.2 := by
  have hbytes : handed.bytes ++ (f.buf ++ extra) = p.bytes ++ extra := by
    rw [← List.append_assoc, h.bytes]
  rw [Snapshot.store]
  by_cases hlt : (f.buf ++ extra).length < ioBufSize
  · rw [dif_pos hlt]
    exact ⟨h.lastError, hbytes, h.offset, h.inOrder⟩
  · rw [dif_neg hlt, ← hbytes]
    apply h.writeOut haccepts
    intro hnil
    rw [hnil] at hlt
    exact hlt (by decide)

lemma HandsOver.qemuPutBuffer (haccepts : Accepts putBuffer) {p : Produced} {f : QEMUFile}
    {d : E × Handed} (h : HandsOver p f d.2) (buf : List UInt8) :
    HandsOver (if p.lastError ≠ 0 then p else { p with bytes := p.bytes ++ buf })
      (qemuPutBuffer (handing putBuffer) buf f d).1
      (qemuPutBuffer (handing putBuffer) buf f d).2.2 := by
  induction hn : buf.length using Nat.strong_induction_on generalizing buf p f d with
  | _ n ih =>
    rw [Snapshot.qemuPutBuffer]
    by_cases herr : p.lastError ≠ 0
    · rw [if_pos herr, if_pos (.inl (h.lastError ▸ herr))]
      exact h
    · rw [if_neg herr]
      by_cases hnil : buf = []
      · rw [if_pos (.inr hnil), hnil, List.append_nil]
        exact h
      · rw [if_neg (not_or.mpr ⟨h.lastError ▸ herr, hnil⟩)]
        have hpos : 0 < buf.length := List.length_pos_iff.mpr hnil
        have hlt := f.lt
        generalize hl : min (ioBufSize - f.buf.length) buf.length = l
        have hstore := h.store haccepts (e := d.1) (buf.take l)
        have hrest := ih (buf.drop l).length (by rw [List.length_drop]; omega) hstore
          (buf.drop l) rfl
        rw [if_neg herr, List.append_assoc, List.take_append_drop] at hrest
        exact hrest

/-- A routine hands over what it produces. -/
lemma HandsOver.run (haccepts : Accepts putBuffer) {α : Type} {q : FileProg α} {p : Produced}
    {f : QEMUFile} {d : E × Handed} (h : HandsOver p f d.2) :
    HandsOver (q.produce p).2 (q.run (handing putBuffer) f d).2.1
      (q.run (handing putBuffer) f d).2.2.2 := by
  induction q generalizing p f d with
  | pure a => exact h
  | putByte v next ih =>
    apply ih
    exact h.store haccepts [v]
  | putBuffer buf next ih =>
    apply ih
    exact h.qemuPutBuffer haccepts buf
  | getError next ih =>
    have hnext : (FileProg.getError next).run (handing putBuffer) f d =
        (next p.lastError).run (handing putBuffer) f d := by
      rw [← h.lastError]
      rfl
    rw [hnext]
    exact ih p.lastError h
  | setError ret next ih =>
    apply ih
    exact ⟨rfl, h.bytes, h.offset, h.inOrder⟩

/-- The last flush hands over the rest. -/
lemma HandsOver.qemuFclose (haccepts : Accepts putBuffer) {p : Produced} {f : QEMUFile}
    {d : E × Handed} (h : HandsOver p f d.2) :
    (qemuFclose (handing putBuffer) f d).2.2.bytes = p.bytes ∧
      (qemuFclose (handing putBuffer) f d).2.2.InOrder := by
  show (qemuFflush (handing putBuffer) f d).2.2.bytes = _ ∧ (qemuFflush _ f d).2.2.InOrder
  rw [qemuFflush]
  by_cases hnil : f.buf = []
  · rw [if_pos hnil, ← h.bytes, hnil, List.append_nil]
    exact ⟨rfl, h.inOrder⟩
  · rw [if_neg hnil]
    have hwrite := h.writeOut haccepts (e := d.1) hnil
    have hbytes := hwrite.bytes
    rw [buf_writeOut, List.append_nil] at hbytes
    exact ⟨hbytes.trans h.bytes, hwrite.inOrder⟩

end

/-! ### What the calls produce -/

lemma FileProg.produce_bind {α β : Type} (q : FileProg α) (k : α → FileProg β) (p : Produced) :
    (q.bind k).produce p = (k (q.produce p).1).produce (q.produce p).2 := by
  induction q generalizing p with
  | pure a => rfl
  | putByte v next ih => exact ih _
  | putBuffer buf next ih => exact ih _
  | getError next ih => exact ih _ _
  | setError ret next ih => exact ih _

lemma toUInt8_shiftRight (v : UInt32) {k : UInt32} (hk : k.toNat < 32) :
    (v >>> k).toUInt8 = UInt8.ofNat (v.toNat / 2 ^ k.toNat) := by
  apply UInt8.toNat_inj.mp
  rw [UInt32.toNat_toUInt8, UInt32.toNat_shiftRight, Nat.mod_eq_of_lt hk,
    Nat.shiftRight_eq_div_pow, UInt8.toNat_ofNat']

lemma toUInt8_eq_ofNat (v : UInt32) : v.toUInt8 = UInt8.ofNat v.toNat := by
  apply UInt8.toNat_inj.mp
  rw [UInt32.toNat_toUInt8, UInt8.toNat_ofNat']

lemma produce_qemuPutBe16 (v : UInt32) (p : Produced) :
    ((qemuPutBe16 v).produce p).2 = { p with bytes := p.bytes ++ beBytes 2 v.toNat } := by
  show Produced.mk (p.bytes ++ [(v >>> 8).toUInt8] ++ [v.toUInt8]) p.lastError = _
  rw [toUInt8_shiftRight v (by decide), toUInt8_eq_ofNat, List.append_assoc]
  rfl

lemma produce_qemuPutBe32 (v : UInt32) (p : Produced) :
    ((qemuPutBe32 v).produce p).2 = { p with bytes := p.bytes ++ beBytes 4 v.toNat } := by
  show Produced.mk (p.bytes ++ [(v >>> 24).toUInt8] ++ [(v >>> 16).toUInt8] ++
    [(v >>> 8).toUInt8] ++ [v.toUInt8]) p.lastError = _
  have hbytes : beBytes 4 v.toNat = [UInt8.ofNat (v.toNat / 2 ^ 24),
      UInt8.ofNat (v.toNat / 2 ^ 16), UInt8.ofNat (v.toNat / 2 ^ 8), UInt8.ofNat v.toNat] := by
    simp only [beBytes, List.nil_append, List.cons_append, Nat.div_div_eq_div_mul, Nat.reduceMul,
      Nat.reducePow]
  rw [toUInt8_shiftRight v (by decide), toUInt8_shiftRight v (by decide),
    toUInt8_shiftRight v (by decide), toUInt8_eq_ofNat, hbytes]
  simp

lemma produce_qemuPutBe64 (v : UInt64) (p : Produced) :
    ((qemuPutBe64 v).produce p).2 = { p with bytes := p.bytes ++ beBytes 8 v.toNat } := by
  have hhi : (v >>> 32).toUInt32.toNat = v.toNat / 2 ^ 32 := by
    have hlt := v.toNat_lt
    rw [UInt64.toNat_toUInt32, UInt64.toNat_shiftRight]
    change v.toNat >>> 32 % 2 ^ 32 = _
    rw [Nat.shiftRight_eq_div_pow, Nat.mod_eq_of_lt (by omega)]
  have hlo : v.toUInt32.toNat = v.toNat % 2 ^ 32 := UInt64.toNat_toUInt32 v
  have hsplit : beBytes 8 v.toNat =
      beBytes 4 (v.toNat / 2 ^ 32) ++ beBytes 4 (v.toNat % 2 ^ 32) := beBytes_add 4 4 v.toNat
  show ((qemuPutBe32 v.toUInt32).produce ((qemuPutBe32 (v >>> 32).toUInt32).produce p).2).2 = _
  rw [produce_qemuPutBe32, produce_qemuPutBe32, hhi, hlo, hsplit, List.append_assoc]

/-- The calls produce the bytes that they are to write. -/
lemma produce_putAll (ops : List PutOp) (bytes : List UInt8) :
    ((putAll ops).produce ⟨bytes, 0⟩).2 = ⟨bytes ++ ops.flatMap PutOp.bytes, 0⟩ := by
  induction ops generalizing bytes with
  | nil => simp [putAll, FileProg.produce]
  | cons op ops ih =>
    have hop : ((op.prog).produce ⟨bytes, 0⟩).2 = ⟨bytes ++ op.bytes, 0⟩ := by
      cases op with
      | putByte v => rfl
      | putBuffer buf => rfl
      | putBe16 v => exact produce_qemuPutBe16 v _
      | putBe32 v => exact produce_qemuPutBe32 v _
      | putBe64 v => exact produce_qemuPutBe64 v _
    show ((op.prog.bind fun _ => putAll ops).produce _).2 = _
    rw [FileProg.produce_bind, hop, ih, List.flatMap_cons, List.append_assoc]

/-! ### Reading -/

/-- The calls that read. -/
inductive GetOp where
  | getBuffer (size : ℕ)
  | getByte
  | getBe16
  | getBe32
  | getBe64
  | peekBuffer (size offset : ℕ)
  | peekByte (offset : ℕ)
  | skip (size : ℕ)
deriving DecidableEq, Repr

/-- What a call returns. -/
inductive Answer where
  | bytes (bs : List UInt8)
  | number (n : ℕ)
  | nothing
deriving DecidableEq, Repr

def GetOp.run (b : BackEnd) : GetOp → Reading → Option (Answer × Reading)
  | .getBuffer size, r => (qemuGetBuffer b size r).map fun (bs, r) => (.bytes bs, r)
  | .getByte, r => (qemuGetByte b r).map fun (v, r) => (.number v.toNat, r)
  | .getBe16, r => (qemuGetBe16 b r).map fun (v, r) => (.number v.toNat, r)
  | .getBe32, r => (qemuGetBe32 b r).map fun (v, r) => (.number v.toNat, r)
  | .getBe64, r => (qemuGetBe64 b r).map fun (v, r) => (.number v.toNat, r)
  | .peekBuffer size offset, r =>
    (qemuPeekBuffer b size offset r).map fun (bs, r) => (.bytes bs, r)
  | .peekByte offset, r => (qemuPeekByte b offset r).map fun (v, r) => (.number v.toNat, r)
  | .skip size, r => (qemuFileSkip size r).map fun r => (.nothing, r)

/-- The answers to a sequence of calls, each with `qemu_ftell` behind it. -/
def getAll (b : BackEnd) : List GetOp → Reading → Option (List (Answer × ℤ))
  | [], _ => some []
  | op :: ops, r => do
    let (a, r) ← op.run b r
    let rest ← getAll b ops r
    return (a, r.file.ftell) :: rest

/-- How many bytes of the content have been consumed and fetched. -/
structure Position where
  consumed : ℕ
  fetched : ℕ
deriving DecidableEq, Repr

/-- A call that consumes `n` bytes, or those that are left. -/
def Position.Consumes (content : List UInt8) (n : ℕ) (s t : Position) : Prop :=
  t.consumed = min (s.consumed + n) content.length ∧ s.fetched ≤ t.fetched

/-- A call that looks at the next `n` bytes: it fetches if some of them have not been fetched, and
then at least one byte, if there are any and the buffer has room. -/
def Position.LooksAt (content : List UInt8) (n : ℕ) (s t : Position) : Prop :=
  t.consumed = s.consumed ∧
    if s.consumed + n ≤ s.fetched then t.fetched = s.fetched
    else s.fetched ≤ t.fetched ∧ (s.fetched < content.length →
      s.fetched < s.consumed + ioBufSize → s.fetched < t.fetched)

/-- What a call gives. The bytes that are consumed are the next ones of the content. A peek gives
the bytes at its offset as far as they have been fetched, and a skip consumes its bytes if they
have been fetched, and nothing otherwise. -/
def GetOp.Gives (content : List UInt8) (s : Position) : GetOp → Answer → Position → Prop
  | .getBuffer size, a, t =>
    a = .bytes ((content.drop s.consumed).take size) ∧ s.Consumes content size t
  | .getByte, a, t => a = .number (beAt content s.consumed 1) ∧ s.Consumes content 1 t
  | .getBe16, a, t => a = .number (beAt content s.consumed 2) ∧ s.Consumes content 2 t
  | .getBe32, a, t => a = .number (beAt content s.consumed 4) ∧ s.Consumes content 4 t
  | .getBe64, a, t => a = .number (beAt content s.consumed 8) ∧ s.Consumes content 8 t
  | .peekBuffer size offset, a, t =>
    a = .bytes (((content.take t.fetched).drop (s.consumed + offset)).take size) ∧
      s.LooksAt content (offset + size) t
  | .peekByte offset, a, t =>
    a = .number (byteAt (content.take t.fetched) (s.consumed + offset)).toNat ∧
      s.LooksAt content (offset + 1) t
  | .skip size, a, t => a = .nothing ∧
    t = if s.consumed + size ≤ s.fetched then ⟨s.consumed + size, s.fetched⟩ else s

/-- The answers to the calls, from a position on: each is what its call gives there, and
`qemu_ftell` the number of bytes that have been consumed, which have all been fetched before. -/
inductive Answers (content : List UInt8)
    (gives : Position → GetOp → Answer → Position → Prop) :
    Position → List GetOp → List (Answer × ℤ) → Prop where
  | nil (s : Position) : Answers content gives s [] []
  | cons {s t : Position} {op : GetOp} {a : Answer} {tell : ℤ} {ops : List GetOp}
      {as : List (Answer × ℤ)} (step : gives s op a t) (tell_eq : tell = t.consumed)
      (consumed_le : t.consumed ≤ t.fetched) (fetched_le : t.fetched ≤ content.length)
      (rest : Answers content gives t ops as) :
      Answers content gives s (op :: ops) ((a, tell) :: as)

/-- The sizes and offsets that are added to an index of the buffer are such that the sum is an
`int`. -/
def GetOp.Fits : GetOp → Prop
  | .peekBuffer _ offset => FitsInt offset
  | .peekByte offset => FitsInt offset
  | .skip size => FitsInt size
  | _ => True

section

variable {b : BackEnd} {p : ℕ} {r : Reading}

lemma Refills.looksAt {n : ℕ} {r' : Reading} (h : Refills b p n r r') :
    Position.LooksAt b.content n ⟨p, r.file.bufOffset⟩ ⟨p, r'.file.bufOffset⟩ := ⟨rfl, h⟩

/-- Each call gives what it is to give. -/
lemma GetOp.gives_run {op : GetOp} (h : r.Holds b p) (hfits : op.Fits) :
    ∃ a r' p', op.run b r = some (a, r') ∧ r'.Holds b p' ∧
      op.Gives b.content ⟨p, r.file.bufOffset⟩ a ⟨p', r'.file.bufOffset⟩ := by
  cases op with
  | getBuffer size =>
    obtain ⟨r', hget, h', hle⟩ := h.qemuGetBuffer size
    exact ⟨_, r', _, by rw [run, hget]; rfl, h', rfl, rfl, hle⟩
  | getByte =>
    obtain ⟨r', hget, h', hle⟩ := h.qemuGetByte
    refine ⟨_, r', _, by rw [run, hget]; rfl, h', ?_, rfl, hle⟩
    simp [beAt, beNat, byteAt]
  | getBe16 =>
    obtain ⟨v, r', hget, hv, h', hle⟩ := h.qemuGetBe16
    exact ⟨_, r', _, by rw [run, hget]; rfl, h', congrArg Answer.number hv, rfl, hle⟩
  | getBe32 =>
    obtain ⟨v, r', hget, hv, h', hle⟩ := h.first.qemuGetBe32
    exact ⟨_, r', _, by rw [run, hget]; rfl, h', congrArg Answer.number hv,
      by rw [Nat.zero_add], hle⟩
  | getBe64 =>
    obtain ⟨v, r', hget, hv, h', hle⟩ := h.qemuGetBe64
    exact ⟨_, r', _, by rw [run, hget]; rfl, h', congrArg Answer.number hv, rfl, hle⟩
  | peekBuffer size offset =>
    obtain ⟨r', hpeek, h', hrefills⟩ := h.qemuPeekBuffer size hfits
    exact ⟨_, r', p, by rw [run, hpeek]; rfl, h', rfl, hrefills.looksAt⟩
  | peekByte offset =>
    obtain ⟨r', hpeek, h', hrefills⟩ := h.qemuPeekByte hfits
    exact ⟨_, r', p, by rw [run, hpeek]; rfl, h', rfl, hrefills.looksAt⟩
  | skip size =>
    obtain ⟨r', hskip, h', hoffset⟩ := h.qemuFileSkip hfits
    refine ⟨_, r', _, by rw [run, hskip]; rfl, h', rfl, ?_⟩
    rw [hoffset]
    split_ifs <;> rfl

/-- Every call of a sequence gives what it is to give, from where those before it have come to. -/
lemma answers_getAll {ops : List GetOp} (h : r.Holds b p) (hfits : ∀ op ∈ ops, op.Fits) :
    ∃ as, getAll b ops r = some as ∧
      Answers b.content (GetOp.Gives b.content) ⟨p, r.file.bufOffset⟩ ops as := by
  induction ops generalizing r p with
  | nil => exact ⟨[], rfl, .nil _⟩
  | cons op ops ih =>
    obtain ⟨a, r', p', hrun, h', hgives⟩ :=
      GetOp.gives_run h (hfits op List.mem_cons_self)
    obtain ⟨as, hrest, has⟩ := ih h' fun op hop => hfits op (List.mem_cons_of_mem _ hop)
    refine ⟨(a, (p' : ℤ)) :: as, ?_, .cons hgives rfl h'.consumed_le h'.fetched_le has⟩
    simp only [getAll, hrun, hrest, Option.bind_eq_bind, Option.bind_some, h'.ftell]
    rfl

end

/-! ### Both ways -/

/-- A file and its back end after a sequence of calls. -/
def written {E : Type} (putBuffer : List UInt8 → ℕ → E → ℤ × E) (e : E) (ops : List PutOp) :
    QEMUFile × E × Handed :=
  ((putAll ops).run (handing putBuffer) qemuFopenOps (e, [])).2

/-- What a call would give if the file was its content: each byte returned is the next one, and
each call consumes what it is asked to. -/
def GetOp.OfContent (content : List UInt8) (s : Position) : GetOp → Answer → Position → Prop
  | .getBuffer size, a, t => a = .bytes ((content.drop s.consumed).take size) ∧
      t.consumed = min (s.consumed + size) content.length
  | .getByte, a, t => s.consumed + 1 ≤ content.length ∧
      a = .number (beAt content s.consumed 1) ∧ t.consumed = s.consumed + 1
  | .getBe16, a, t => s.consumed + 2 ≤ content.length ∧
      a = .number (beAt content s.consumed 2) ∧ t.consumed = s.consumed + 2
  | .getBe32, a, t => s.consumed + 4 ≤ content.length ∧
      a = .number (beAt content s.consumed 4) ∧ t.consumed = s.consumed + 4
  | .getBe64, a, t => s.consumed + 8 ≤ content.length ∧
      a = .number (beAt content s.consumed 8) ∧ t.consumed = s.consumed + 8
  | .peekBuffer size offset, a, t =>
    (∃ bs, a = .bytes bs ∧ bs <+: (content.drop (s.consumed + offset)).take size) ∧
      t.consumed = s.consumed
  | .peekByte offset, a, t => s.consumed + offset < content.length ∧
      a = .number (byteAt content (s.consumed + offset)).toNat ∧ t.consumed = s.consumed
  | .skip size, a, t => a = .nothing ∧ t.consumed = min (s.consumed + size) content.length

/-- Behind a full buffer that the back end refuses nothing more is written. -/
lemma qemuPutBuffer_refused (buf : List UInt8) :
    qemuPutBuffer (handing fun _ _ (_ : Unit) => (-1, ())) (List.replicate ioBufSize 0 ++ buf)
      qemuFopenOps ((), []) =
        (⟨[], 0, -22, by decide⟩, (), [(0, List.replicate ioBufSize 0)]) := by
  have hsize : 0 < ioBufSize := by decide
  have hne : List.replicate ioBufSize (0 : UInt8) ++ buf ≠ [] := by
    apply List.ne_nil_of_length_pos
    rw [List.length_append, List.length_replicate]
    omega
  have hmin : min (ioBufSize - qemuFopenOps.buf.length)
      (List.replicate ioBufSize (0 : UInt8) ++ buf).length =
        (List.replicate ioBufSize (0 : UInt8)).length := by
    rw [List.length_append, List.length_replicate]
    exact Nat.min_eq_left (Nat.le_add_right _ _)
  have hfull : ¬ (qemuFopenOps.buf ++ List.replicate ioBufSize (0 : UInt8)).length < ioBufSize := by
    rw [List.length_append, List.length_replicate]
    exact Nat.not_lt.mpr (Nat.le_add_left _ _)
  rw [qemuPutBuffer, if_neg (not_or.mpr ⟨fun h => h rfl, hne⟩)]
  simp only [hmin, List.take_left, List.drop_left]
  rw [store, dif_neg hfull, qemuPutBuffer]
  rfl

end Limbo.Snapshot
