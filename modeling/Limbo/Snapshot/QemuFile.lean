import Mathlib

/-!
# The buffered file

`QEMUFile` as it is used for writing. The bytes collect in a buffer of 32 KiB, which goes to the
back end when it is full and when the file is closed. What the back end answers to a write is all
that the file learns of it. A program over the file is a tree of its calls.
-/

namespace Limbo.Snapshot

/-- `IO_BUF_SIZE`. -/
def ioBufSize : ℕ := 32768

/-- `QEMUFile`, opened for writing: `buf` is the part of the buffer in front of `buf_index`, which
stays below the size of the buffer between two calls. -/
structure QEMUFile where
  buf : List UInt8
  bufOffset : ℕ
  lastError : ℤ
  lt : buf.length < ioBufSize

/-- A file that has just been opened. -/
def qemuFopenOps : QEMUFile := ⟨[], 0, 0, by decide⟩

/-- `qemu_ftell`: nothing has been read, `buf_size` is `0`. -/
def qemuFtell (f : QEMUFile) : ℕ := f.bufOffset + f.buf.length

/-! ### The calls -/

section Calls

variable {D : Type} (putBuffer : List UInt8 → ℕ → D → ℤ × D)

/-- The part of `qemu_fflush` for a buffer that is not empty. -/
def writeOut (buf : List UInt8) (f : QEMUFile) (d : D) : QEMUFile × D :=
  let (len, d) := putBuffer buf f.bufOffset d
  if 0 < len then (⟨[], f.bufOffset + buf.length, f.lastError, by decide⟩, d)
  else (⟨[], f.bufOffset, -22, by decide⟩, d)

/-- `qemu_fflush`. -/
def qemuFflush (f : QEMUFile) (d : D) : QEMUFile × D :=
  if f.buf = [] then (f, d) else writeOut putBuffer f.buf f d

/-- The buffer with its new contents, flushed when it is full. -/
def store (buf : List UInt8) (f : QEMUFile) (d : D) : QEMUFile × D :=
  if h : buf.length < ioBufSize then (⟨buf, f.bufOffset, f.lastError, h⟩, d)
  else writeOut putBuffer buf f d

/-- `qemu_put_byte`. -/
def qemuPutByte (v : UInt8) (f : QEMUFile) (d : D) : QEMUFile × D :=
  store putBuffer (f.buf ++ [v]) f d

/-- `qemu_put_buffer`. -/
def qemuPutBuffer (buf : List UInt8) (f : QEMUFile) (d : D) : QEMUFile × D :=
  if f.lastError ≠ 0 ∨ buf = [] then (f, d)
  else
    let l := min (ioBufSize - f.buf.length) buf.length
    let (f', d) := store putBuffer (f.buf ++ buf.take l) f d
    qemuPutBuffer (buf.drop l) f' d
termination_by buf.length
decreasing_by
  have hlt := f.lt
  have hpos : 0 < buf.length := List.length_pos_iff.mpr (by tauto)
  rw [List.length_drop]
  omega

/-- `qemu_fclose`: the last flush, and the error that is left; `bdrv_fclose` returns `0`. -/
def qemuFclose (f : QEMUFile) (d : D) : ℤ × D :=
  let (f, d) := qemuFflush putBuffer f d
  (f.lastError, d)

end Calls

/-! ### Programs over a file -/

/-- A routine that writes to a file: its calls in their order, and what it returns. -/
inductive FileProg (α : Type) where
  | pure (a : α)
  | putByte (v : UInt8) (next : FileProg α)
  | putBuffer (buf : List UInt8) (next : FileProg α)
  | getError (next : ℤ → FileProg α)
  | setError (ret : ℤ) (next : FileProg α)

namespace FileProg

variable {α β : Type}

def bind : FileProg α → (α → FileProg β) → FileProg β
  | pure a, k => k a
  | putByte v next, k => putByte v (next.bind k)
  | putBuffer buf next, k => putBuffer buf (next.bind k)
  | getError next, k => getError fun ret => (next ret).bind k
  | setError ret next, k => setError ret (next.bind k)

instance : Monad FileProg where
  pure := pure
  bind := bind

/-- The run on a file. -/
def run {D : Type} (putBuf : List UInt8 → ℕ → D → ℤ × D) :
    FileProg α → QEMUFile → D → α × QEMUFile × D
  | pure a, f, d => (a, f, d)
  | putByte v next, f, d =>
    let (f, d) := qemuPutByte putBuf v f d
    next.run putBuf f d
  | putBuffer buf next, f, d =>
    let (f, d) := qemuPutBuffer putBuf buf f d
    next.run putBuf f d
  | getError next, f, d => (next f.lastError).run putBuf f d
  | setError ret next, f, d => next.run putBuf { f with lastError := ret } d

end FileProg

/-- What a routine has produced: the bytes, and the error that it has set. -/
structure Produced where
  bytes : List UInt8
  lastError : ℤ

/-- The bytes that a routine produces when no back end interferes. Behind an error a buffer is
dropped, a single byte is not. -/
def FileProg.produce {α : Type} : FileProg α → Produced → α × Produced
  | pure a, p => (a, p)
  | putByte v next, p => next.produce { p with bytes := p.bytes ++ [v] }
  | putBuffer buf next, p =>
    next.produce (if p.lastError ≠ 0 then p else { p with bytes := p.bytes ++ buf })
  | getError next, p => (next p.lastError).produce p
  | setError ret next, p => next.produce { p with lastError := ret }

/-! ### The back end of the VM state -/

/-- The VM-state area of an image, and what the calls of `bdrv_save_vmstate` have returned. -/
structure VmStateDevice where
  area : ℕ → UInt8
  results : List ℤ

/-- A call that fails: a negative result, and what it leaves of the area. -/
structure SaveFailure where
  ret : ℤ
  area : ℕ → UInt8
  neg : ret < 0

/-- The outcome of a call: it writes all bytes, or it fails. -/
abbrev SaveIo := Option SaveFailure

/-- The first bytes of the area. -/
def VmStateDevice.read (d : VmStateDevice) (size : ℕ) : List UInt8 :=
  (List.range size).map d.area

/-- A call of `bdrv_save_vmstate` has failed. -/
def VmStateDevice.Failed (d : VmStateDevice) : Prop := ∃ ret ∈ d.results, ret < 0

/-- `bdrv_save_vmstate`; `io` has the outcomes of the calls in their order. -/
def bdrvSaveVmstate (io : ℕ → SaveIo) (buf : List UInt8) (pos : ℕ) (d : VmStateDevice) :
    ℤ × VmStateDevice :=
  match io d.results.length with
  | some failure => (failure.ret, ⟨failure.area, d.results ++ [failure.ret]⟩)
  | none =>
    let area i := if i < pos then d.area i else buf[i - pos]?.getD (d.area i)
    (buf.length, ⟨area, d.results ++ [(buf.length : ℤ)]⟩)

/-- `block_put_buffer`. -/
def blockPutBuffer (io : ℕ → SaveIo) (buf : List UInt8) (pos : ℕ) (d : VmStateDevice) :
    ℤ × VmStateDevice :=
  (buf.length, (bdrvSaveVmstate io buf pos d).2)

/-! ### The file tracks what is produced -/

/-- A file and the area behind it hold what has been produced: the full buffers are written, as far
as the calls have not failed, and the rest is in the buffer. -/
structure Tracks (io : ℕ → SaveIo) (p : Produced) (f : QEMUFile) (d : VmStateDevice) : Prop where
  lastError : f.lastError = p.lastError
  length : f.bufOffset + f.buf.length = p.bytes.length
  calls : f.bufOffset = d.results.length * ioBufSize
  failed : d.Failed ↔ ∃ k < d.results.length, (io k).isSome
  area : ¬ d.Failed → d.read f.bufOffset ++ f.buf = p.bytes

variable {io : ℕ → SaveIo}

lemma tracks_qemuFopenOps (area : ℕ → UInt8) : Tracks io ⟨[], 0⟩ qemuFopenOps ⟨area, []⟩ where
  lastError := rfl
  length := rfl
  calls := (Nat.zero_mul _).symm
  failed := by simp [VmStateDevice.Failed]
  area := fun _ => rfl

/-- The call with the next number has failed, or an earlier one. -/
lemma failed_bdrvSaveVmstate {buf : List UInt8} {pos : ℕ} {d : VmStateDevice} :
    (bdrvSaveVmstate io buf pos d).2.Failed ↔ d.Failed ∨ (io d.results.length).isSome := by
  have hlast : ∀ ret, (∃ r ∈ d.results ++ [ret], r < 0) ↔ d.Failed ∨ ret < 0 := by
    intro ret
    simp only [List.mem_append, List.mem_singleton, or_and_right, exists_or, exists_eq_left]
    rfl
  unfold bdrvSaveVmstate
  cases h : io d.results.length with
  | some failure => exact (hlast failure.ret).trans (or_congr Iff.rfl (by simp [failure.neg]))
  | none => exact (hlast buf.length).trans (or_congr Iff.rfl (by simp))

lemma length_results_bdrvSaveVmstate {buf : List UInt8} {pos : ℕ} {d : VmStateDevice} :
    (bdrvSaveVmstate io buf pos d).2.results.length = d.results.length + 1 := by
  unfold bdrvSaveVmstate
  cases io d.results.length with
  | some failure => exact List.length_append
  | none => exact List.length_append

/-- A call that does not fail extends what can be read. -/
lemma read_bdrvSaveVmstate {buf : List UInt8} {pos : ℕ} {d : VmStateDevice}
    (h : (io d.results.length).isSome = false) :
    (bdrvSaveVmstate io buf pos d).2.read (pos + buf.length) = d.read pos ++ buf := by
  have hnone : io d.results.length = none := by simpa using h
  apply List.ext_getElem
  · simp [VmStateDevice.read]
  · intro i hi hi'
    simp only [VmStateDevice.read, bdrvSaveVmstate, hnone, List.getElem_map,
      List.getElem_range, List.getElem_append, List.length_map, List.length_range]
    by_cases hlt : i < pos
    · rw [if_pos hlt, dif_pos hlt]
    · have hbuf : i - pos < buf.length := by
        simp only [VmStateDevice.read, List.length_map, List.length_range] at hi
        omega
      rw [if_neg hlt, dif_neg hlt, List.getElem?_eq_getElem hbuf, Option.getD_some]

/-- A write of the buffer, `block_put_buffer` always answering with the length. -/
lemma writeOut_block {buf : List UInt8} (hbuf : buf ≠ []) (f : QEMUFile) (d : VmStateDevice) :
    writeOut (blockPutBuffer io) buf f d =
      (⟨[], f.bufOffset + buf.length, f.lastError, by decide⟩,
        (bdrvSaveVmstate io buf f.bufOffset d).2) := by
  have hpos : (0 : ℤ) < buf.length := by exact_mod_cast List.length_pos_iff.mpr hbuf
  show (if (0 : ℤ) < buf.length then _ else _) = _
  rw [if_pos hpos]

lemma Tracks.store {p : Produced} {f : QEMUFile} {d : VmStateDevice} (h : Tracks io p f d)
    {extra : List UInt8} (hlen : f.buf.length + extra.length ≤ ioBufSize) :
    Tracks io { p with bytes := p.bytes ++ extra }
      (store (blockPutBuffer io) (f.buf ++ extra) f d).1
      (store (blockPutBuffer io) (f.buf ++ extra) f d).2 := by
  have hsum := h.length
  have hcalls := h.calls
  by_cases hlt : (f.buf ++ extra).length < ioBufSize
  · have hstore : Snapshot.store (blockPutBuffer io) (f.buf ++ extra) f d =
        (⟨f.buf ++ extra, f.bufOffset, f.lastError, hlt⟩, d) := dif_pos hlt
    rw [hstore]
    refine ⟨h.lastError, ?_, h.calls, h.failed, ?_⟩
    · simp only [List.length_append]
      omega
    · intro hok
      rw [← h.area hok, List.append_assoc]
  · have hne : f.buf ++ extra ≠ [] := by
      intro hnil
      rw [hnil] at hlt
      exact hlt (by decide)
    have hstore : Snapshot.store (blockPutBuffer io) (f.buf ++ extra) f d =
        (⟨[], f.bufOffset + (f.buf ++ extra).length, f.lastError, by decide⟩,
          (bdrvSaveVmstate io (f.buf ++ extra) f.bufOffset d).2) :=
      (dif_neg hlt).trans (writeOut_block hne f d)
    rw [hstore]
    have hfull : (f.buf ++ extra).length = ioBufSize := by
      rw [List.length_append] at hlt ⊢
      omega
    have hresults : (bdrvSaveVmstate io (f.buf ++ extra) f.bufOffset d).2.results.length =
        d.results.length + 1 := length_results_bdrvSaveVmstate
    refine ⟨h.lastError, ?_, ?_, ?_, ?_⟩
    · simp only [List.length_append, List.length_nil]
      omega
    · rw [hresults, hfull, Nat.succ_mul]
      exact congrArg (· + ioBufSize) hcalls
    · rw [failed_bdrvSaveVmstate, h.failed, hresults]
      constructor
      · rintro (⟨k, hk, hio⟩ | hio)
        · exact ⟨k, Nat.lt_succ_of_lt hk, hio⟩
        · exact ⟨d.results.length, Nat.lt_succ_self _, hio⟩
      · rintro ⟨k, hk, hio⟩
        rcases Nat.lt_succ_iff_lt_or_eq.mp hk with hlt' | rfl
        · exact .inl ⟨k, hlt', hio⟩
        · exact .inr hio
    · intro hok
      rw [failed_bdrvSaveVmstate, not_or] at hok
      show VmStateDevice.read _ (f.bufOffset + (f.buf ++ extra).length) ++ [] = _
      rw [List.append_nil, read_bdrvSaveVmstate (Bool.not_eq_true _ ▸ hok.2), ← List.append_assoc,
        h.area hok.1]

lemma Tracks.qemuPutBuffer {p : Produced} {f : QEMUFile} {d : VmStateDevice}
    (h : Tracks io p f d) (buf : List UInt8) :
    Tracks io (if p.lastError ≠ 0 then p else { p with bytes := p.bytes ++ buf })
      (qemuPutBuffer (blockPutBuffer io) buf f d).1
      (qemuPutBuffer (blockPutBuffer io) buf f d).2 := by
  induction hn : buf.length using Nat.strong_induction_on generalizing buf p f d with
  | _ n ih =>
    rw [Snapshot.qemuPutBuffer]
    by_cases herr : p.lastError ≠ 0
    · rw [if_pos herr, if_pos (.inl (h.lastError ▸ herr))]
      exact h
    · rw [if_neg herr]
      by_cases hnil : buf = []
      · rw [if_pos (.inr hnil), hnil, List.append_nil]
        exact h
      · rw [if_neg (not_or.mpr ⟨h.lastError ▸ herr, hnil⟩)]
        have hpos : 0 < buf.length := List.length_pos_iff.mpr hnil
        have hlt := f.lt
        generalize hl : min (ioBufSize - f.buf.length) buf.length = l
        have hfits : f.buf.length + (buf.take l).length ≤ ioBufSize := by
          rw [List.length_take]
          omega
        have hstore := h.store hfits
        have hrest := ih (buf.drop l).length (by rw [List.length_drop]; omega) hstore
          (buf.drop l) rfl
        rw [if_neg herr, List.append_assoc, List.take_append_drop] at hrest
        exact hrest

/-- A routine returns on the file what it returns without one: the file never has an error of the
back end to show. -/
lemma Tracks.run {α : Type} {q : FileProg α} {p : Produced} {f : QEMUFile} {d : VmStateDevice}
    (h : Tracks io p f d) : (q.run (blockPutBuffer io) f d).1 = (q.produce p).1 ∧
      Tracks io (q.produce p).2 (q.run (blockPutBuffer io) f d).2.1
        (q.run (blockPutBuffer io) f d).2.2 := by
  induction q generalizing p f d with
  | pure a => exact ⟨rfl, h⟩
  | putByte v next ih =>
    apply ih
    apply h.store
    exact f.lt
  | putBuffer buf next ih =>
    apply ih
    exact h.qemuPutBuffer buf
  | getError next ih =>
    have hnext : (FileProg.getError next).run (blockPutBuffer io) f d =
        (next p.lastError).run (blockPutBuffer io) f d := by
      rw [← h.lastError]
      rfl
    rw [hnext]
    exact ih p.lastError h
  | setError ret next ih =>
    apply ih
    exact ⟨rfl, h.length, h.calls, h.failed, h.area⟩

/-- The number of writes for a stream. -/
def writeCalls (size : ℕ) : ℕ := (size + ioBufSize - 1) / ioBufSize

/-- What has been produced is written when the file is closed, if no call fails. -/
lemma Tracks.qemuFclose {p : Produced} {f : QEMUFile} {d : VmStateDevice} (h : Tracks io p f d) :
    ((qemuFclose (blockPutBuffer io) f d).2.Failed ↔
        ∃ k < writeCalls p.bytes.length, (io k).isSome) ∧
      (¬ (qemuFclose (blockPutBuffer io) f d).2.Failed →
        (qemuFclose (blockPutBuffer io) f d).2.read p.bytes.length = p.bytes) := by
  have hsum := h.length
  have hcalls := h.calls
  have hlt := f.lt
  have hsize : 0 < ioBufSize := by decide
  by_cases hnil : f.buf = []
  · have hclose : (Snapshot.qemuFclose (blockPutBuffer io) f d).2 = d := by
      show (qemuFflush _ f d).2 = d
      rw [qemuFflush, if_pos hnil]
    have hcount : writeCalls p.bytes.length = d.results.length := by
      rw [hnil, List.length_nil, Nat.add_zero, hcalls] at hsum
      rw [writeCalls, ← hsum, Nat.add_sub_assoc hsize, Nat.mul_comm, Nat.mul_add_div hsize,
        Nat.div_eq_of_lt (Nat.sub_lt hsize Nat.one_pos), Nat.add_zero]
    rw [hclose, hcount]
    refine ⟨h.failed, fun hok => ?_⟩
    have harea := h.area hok
    rw [hnil, List.append_nil] at harea
    rw [hnil, List.length_nil, Nat.add_zero] at hsum
    rw [← hsum]
    exact harea
  · have hclose : (Snapshot.qemuFclose (blockPutBuffer io) f d).2 =
        (bdrvSaveVmstate io f.buf f.bufOffset d).2 := by
      show (qemuFflush _ f d).2 = _
      rw [qemuFflush, if_neg hnil, writeOut_block hnil]
    have hpos : 0 < f.buf.length := List.length_pos_iff.mpr hnil
    have hcount : writeCalls p.bytes.length = d.results.length + 1 := by
      rw [hcalls] at hsum
      have hsplit : p.bytes.length + ioBufSize - 1 =
          ioBufSize * (d.results.length + 1) + (f.buf.length - 1) := by
        rw [← hsum, Nat.mul_add, Nat.mul_one, Nat.mul_comm ioBufSize]
        omega
      rw [writeCalls, hsplit, Nat.mul_add_div hsize, Nat.div_eq_of_lt (by omega), Nat.add_zero]
    rw [hclose, hcount]
    constructor
    · rw [failed_bdrvSaveVmstate, h.failed]
      constructor
      · rintro (⟨k, hk, hio⟩ | hio)
        · exact ⟨k, Nat.lt_succ_of_lt hk, hio⟩
        · exact ⟨d.results.length, Nat.lt_succ_self _, hio⟩
      · rintro ⟨k, hk, hio⟩
        rcases Nat.lt_succ_iff_lt_or_eq.mp hk with hlt' | rfl
        · exact .inl ⟨k, hlt', hio⟩
        · exact .inr hio
    · intro hok
      rw [failed_bdrvSaveVmstate, not_or] at hok
      rw [← hsum, read_bdrvSaveVmstate (Bool.not_eq_true _ ▸ hok.2), h.area hok.1]

end Limbo.Snapshot
