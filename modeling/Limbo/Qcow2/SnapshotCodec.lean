import Limbo.Qcow2.SnapshotTable

/-!
# Reading the snapshot table

`qcow2_read_snapshots()`, and what it gives for a table that `qcow2_write_snapshots()` has written.
An entry starts at a multiple of eight. Both functions keep the size of the table in an `int`.
-/

namespace Limbo.Qcow2

open Lib Snapshot

/-! ### The reader -/

/-- `bdrv_pread()` of the file: an error, or the bytes at an offset. -/
abbrev Pread := ℤ → ℕ → Except ℤ (List UInt8)

/-- The big-endian field of `n` bytes at a place of a structure. -/
def beField (h : List UInt8) (place n : ℕ) : ℕ := beNat ((h.drop place).take n)

/-- The string in a buffer. -/
def bufString (buf : List UInt8) : CString := buf.takeWhile (· ≠ 0)

/-- One round of the loop of `qcow2_read_snapshots()`. -/
def readEntry (pread : Pread) (totalSectors : ℕ) (offset : ℤ) : Except ℤ (QCowSnapshot × ℤ) := do
  let offset := alignOffset offset 8
  let h ← pread offset headerSize
  let offset := offset + headerSize
  let extraDataSize := beField h 36 4
  let idStrSize := beField h 12 2
  let nameSize := beField h 14 2
  let extra ← pread offset (min extraSize extraDataSize)
  let offset := offset + extraDataSize
  let idStr ← pread offset idStrSize
  let offset := offset + idStrSize
  let name ← pread offset nameSize
  pure ({
    l1TableOffset := beField h 0 8
    l1Size := beField h 8 4
    idStr := bufString idStr
    name := bufString name
    diskSize := if extraDataSize ≥ 16 then beField extra 8 8 else totalSectors * 512
    vmStateSize := if extraDataSize ≥ 8 then beField extra 0 8 else beField h 32 4
    dateSec := beField h 16 4
    dateNsec := beField h 20 4
    vmClockNsec := beField h 24 8 }, offset + nameSize)

/-- The loop: the entries, and the offset behind them. -/
def readEntries (pread : Pread) (totalSectors : ℕ) : ℕ → ℤ → Except ℤ (List QCowSnapshot × ℤ)
  | 0, offset => pure ([], offset)
  | nb + 1, offset => do
    let (sn, offset) ← readEntry pread totalSectors offset
    let (entries, offset) ← readEntries pread totalSectors nb offset
    pure (sn :: entries, offset)

/-- `qcow2_read_snapshots()`: an error, or `snapshots` and `snapshots_size`. -/
def readSnapshots (pread : Pread) (totalSectors : ℕ) (header : SnapshotHeader) :
    Except ℤ (List QCowSnapshot × ℤ) :=
  if header.nbSnapshots = 0 then pure ([], 0)
  else do
    let (snapshots, offset) ←
      readEntries pread totalSectors header.nbSnapshots header.snapshotsOffset
    pure (snapshots, wrap32 (offset - header.snapshotsOffset))

/-! ### The file -/

/-- The bytes of a file from an offset on. -/
def readAt (byte : ℤ → UInt8) (offset : ℤ) (n : ℕ) : List UInt8 :=
  (List.range n).map fun k : ℕ => byte (offset + k)

/-- A write to a file. -/
def writeAt (byte : ℤ → UInt8) (offset : ℤ) (bytes : List UInt8) (i : ℤ) : UInt8 :=
  if offset ≤ i ∧ i < offset + bytes.length then bytes.getD (i - offset).toNat 0 else byte i

variable {W : Type*} {io : Storage W}

/-- How the functions of an image act on the bytes of its file. `data` are the offsets in clusters
that hold neither the header nor a table of the image's metadata: the flushes, the header's update
and the freeing of clusters do not write there, and an allocated cluster is such a cluster. -/
structure Disk (io : Storage W) where
  clusterBits : ℕ
  clusterBits_ge : 9 ≤ clusterBits
  clusterBits_le : clusterBits ≤ 21
  byte : W → ℤ → UInt8
  data : W → Set ℤ
  pwrite {offset : ℤ} {bytes : List UInt8} {w : W} (h : 0 ≤ (io.pwrite offset bytes w).1) :
    data w ⊆ data (io.pwrite offset bytes w).2 ∧
      byte (io.pwrite offset bytes w).2 = writeAt (byte w) offset bytes
  flushFile (w : W) : data w ⊆ data (io.flushFile w).2
  flush (w : W) : data w ⊆ data (io.flush w).2 ∧
    ∀ i ∈ data w, byte (io.flush w).2 i = byte w i
  pwriteHeader (w : W) : data w ⊆ data (io.pwriteHeader w).2 ∧
    ∀ i ∈ data w, byte (io.pwriteHeader w).2 i = byte w i
  freeClusters (offset size : ℤ) (w : W) :
    ∀ i ∈ data w, byte (io.freeClusters offset size w) i = byte w i
  allocClusters_neg {size : ℤ} (h : size < 0) (w : W) : (io.allocClusters size w).1 < 0
  allocClusters_dvd (size : ℤ) (w : W) (h : 0 ≤ (io.allocClusters size w).1) :
    (2 ^ clusterBits : ℤ) ∣ (io.allocClusters size w).1
  allocClusters_data (size : ℤ) (w : W) (h : 0 ≤ (io.allocClusters size w).1) :
    ∀ i, 0 < size → (io.allocClusters size w).1 / 2 ^ clusterBits ≤ i / 2 ^ clusterBits →
      i / 2 ^ clusterBits ≤ ((io.allocClusters size w).1 + size - 1) / 2 ^ clusterBits →
      i ∈ data (io.allocClusters size w).2

namespace Disk

variable (disk : Disk io)

/-- The clusters whose counts `update_refcount(bs, offset, length, addend)` changes, for an
allocation and for freeing them. -/
def clusters (offset length : ℤ) : Set ℤ :=
  {i | 0 < length ∧ offset / 2 ^ disk.clusterBits ≤ i / 2 ^ disk.clusterBits ∧
    i / 2 ^ disk.clusterBits ≤ (offset + length - 1) / 2 ^ disk.clusterBits}

/-- Reading a file without an error. -/
def pread (w : W) : Pread := fun offset n => .ok (readAt (disk.byte w) offset n)

end Disk

/-! ### Offsets -/

lemma alignOffset_spec (offset : ℤ) :
    offset ≤ alignOffset offset 8 ∧ alignOffset offset 8 < offset + 8 ∧ 8 ∣ alignOffset offset 8 := by
  rw [alignOffset]
  omega

lemma alignOffset_add {base : ℤ} (h : 8 ∣ base) (offset : ℤ) :
    alignOffset (base + offset) 8 = base + alignOffset offset 8 := by
  simp only [alignOffset]
  omega

/-- The bytes of an entry. -/
def QCowSnapshot.bytes (sn : QCowSnapshot) : List UInt8 :=
  sn.header ++ sn.extra ++ sn.idStr ++ sn.name

lemma QCowSnapshot.length_header (sn : QCowSnapshot) : sn.header.length = headerSize := by
  simp [header, headerSize]

lemma QCowSnapshot.length_extra (sn : QCowSnapshot) : sn.extra.length = extraSize := by
  simp [extra, extraSize]

lemma QCowSnapshot.length_bytes (sn : QCowSnapshot) :
    sn.bytes.length = headerSize + extraSize + sn.idStr.length + sn.name.length := by
  simp only [bytes, List.length_append, length_header, length_extra]

/-- The offset behind some entries. -/
def endOffset (entries : List QCowSnapshot) (offset : ℤ) : ℤ :=
  entries.foldl (fun offset sn => alignOffset offset 8 + headerSize + extraSize +
    sn.idStr.length + sn.name.length) offset

lemma endOffset_cons (sn : QCowSnapshot) (entries : List QCowSnapshot) (offset : ℤ) :
    endOffset (sn :: entries) offset =
      endOffset entries (alignOffset offset 8 + sn.bytes.length) := by
  rw [endOffset, List.foldl_cons, sn.length_bytes, endOffset]
  push_cast
  simp only [add_assoc]

lemma le_endOffset (entries : List QCowSnapshot) (offset : ℤ) :
    offset ≤ endOffset entries offset := by
  induction entries generalizing offset with
  | nil => exact le_rfl
  | cons sn entries ih =>
    rw [endOffset_cons]
    have := ih (alignOffset offset 8 + sn.bytes.length)
    have := (alignOffset_spec offset).1
    omega

lemma endOffset_add (entries : List QCowSnapshot) {base : ℤ} (h : 8 ∣ base) (offset : ℤ) :
    endOffset entries (base + offset) = base + endOffset entries offset := by
  induction entries generalizing offset with
  | nil => rfl
  | cons sn entries ih => rw [endOffset_cons, endOffset_cons, alignOffset_add h, add_assoc, ih]

/-- A table that starts at a multiple of eight has the size that is computed from zero on. -/
lemma endOffset_eq (entries : List QCowSnapshot) {base : ℤ} (h : 8 ∣ base) :
    endOffset entries base = base + tableSize entries := by
  have hnonneg := le_endOffset entries 0
  rw [← add_zero base, endOffset_add entries h, add_zero, tableSize]
  exact congrArg (base + ·) (Int.toNat_of_nonneg hnonneg).symm

/-! ### Writing -/

/-- The entries stand at their offsets. -/
def Written (byte : ℤ → UInt8) : List QCowSnapshot → ℤ → Prop
  | [], _ => True
  | sn :: entries, offset =>
    readAt byte (alignOffset offset 8) sn.bytes.length = sn.bytes ∧
      Written byte entries (alignOffset offset 8 + sn.bytes.length)

lemma readAt_congr {byte byte' : ℤ → UInt8} {offset : ℤ} {n : ℕ}
    (h : ∀ i, offset ≤ i → i < offset + n → byte' i = byte i) :
    readAt byte' offset n = readAt byte offset n := by
  apply List.map_congr_left
  intro k hk
  have := List.mem_range.mp hk
  exact h _ (by omega) (by omega)

lemma readAt_add (byte : ℤ → UInt8) (offset : ℤ) (m n : ℕ) :
    readAt byte offset (m + n) = readAt byte offset m ++ readAt byte (offset + m) n := by
  simp only [readAt, List.range_add, List.map_append, List.map_map]
  congr 1
  apply List.map_congr_left
  intro k _
  simp [add_assoc]

lemma length_readAt (byte : ℤ → UInt8) (offset : ℤ) (n : ℕ) : (readAt byte offset n).length = n := by
  rw [readAt, List.length_map, List.length_range]

lemma readAt_writeAt (byte : ℤ → UInt8) (offset : ℤ) (bytes : List UInt8) :
    readAt (writeAt byte offset bytes) offset bytes.length = bytes := by
  apply List.ext_getElem
  · rw [length_readAt]
  · intro k _ hk
    have hk' : (offset ≤ offset + k ∧ offset + (k : ℤ) < offset + bytes.length) := by omega
    simp only [readAt, List.getElem_map, List.getElem_range, writeAt, if_pos hk']
    rw [add_sub_cancel_left, Int.toNat_natCast, List.getD_eq_getElem _ _ hk]

/-- Two writes one behind the other are one. -/
lemma writeAt_writeAt (byte : ℤ → UInt8) (offset : ℤ) (bytes bytes' : List UInt8) :
    writeAt (writeAt byte offset bytes) (offset + bytes.length) bytes' =
      writeAt byte offset (bytes ++ bytes') := by
  funext i
  simp only [writeAt, List.length_append, Nat.cast_add]
  by_cases hlow : i < offset + bytes.length
  · rw [if_neg (by omega)]
    by_cases hi : offset ≤ i
    · rw [if_pos ⟨hi, hlow⟩, if_pos (by omega), List.getD_append _ _ _ _ (by omega)]
    · rw [if_neg (by omega), if_neg (by omega)]
  · by_cases hhigh : i < offset + bytes.length + bytes'.length
    · rw [if_pos (by omega), if_pos (by omega), List.getD_append_right _ _ _ _ (by omega)]
      congr 1
      omega
    · rw [if_neg (by omega), if_neg (by omega), if_neg (by omega)]

lemma Written.congr {byte byte' : ℤ → UInt8} {entries : List QCowSnapshot} {offset : ℤ}
    (hsame : ∀ i, offset ≤ i → i < endOffset entries offset → byte' i = byte i)
    (h : Written byte entries offset) : Written byte' entries offset := by
  induction entries generalizing offset with
  | nil => trivial
  | cons sn entries ih =>
    have halign := (alignOffset_spec offset).1
    have hend := le_endOffset entries (alignOffset offset 8 + sn.bytes.length)
    rw [endOffset_cons] at hsame
    refine ⟨?_, ih (fun i hi hi' => hsame i (by omega) hi') h.2⟩
    rw [readAt_congr fun i hi hi' => hsame i (by omega) (by omega)]
    exact h.1

variable (disk : Disk io)

lemma pwriteAll_spec (writes : List (List UInt8)) (offset : ℤ) (w : W)
    (h : 0 ≤ (pwriteAll io writes offset w).1) :
    (pwriteAll io writes offset w).2.1 = offset + writes.flatten.length ∧
      disk.data w ⊆ disk.data (pwriteAll io writes offset w).2.2 ∧
      disk.byte (pwriteAll io writes offset w).2.2 =
        writeAt (disk.byte w) offset writes.flatten := by
  induction writes generalizing offset w with
  | nil =>
    refine ⟨by simp [pwriteAll], subset_rfl, ?_⟩
    funext i
    rw [writeAt, List.flatten_nil, if_neg (by simp)]
    rfl
  | cons bytes rest ih =>
    simp only [pwriteAll] at h ⊢
    by_cases hret : (io.pwrite offset bytes w).1 < 0
    · rw [if_pos hret] at h
      exact absurd h (not_le.mpr hret)
    · rw [if_neg hret] at h ⊢
      obtain ⟨hdata, hbyte⟩ := disk.pwrite (not_lt.mp hret)
      obtain ⟨hoffset, hdata', hbyte'⟩ := ih _ _ h
      refine ⟨?_, hdata.trans hdata', ?_⟩
      · rw [hoffset, List.flatten_cons, List.length_append, Nat.cast_add, add_assoc]
      · rw [hbyte', hbyte, writeAt_writeAt, List.flatten_cons]

/-- The entries that have been written stand at their offsets, and nothing in front of them has
changed. -/
lemma writeEntries_spec (entries : List QCowSnapshot) (offset : ℤ) (w : W)
    (h : 0 ≤ (writeEntries io entries offset w).1) :
    disk.data w ⊆ disk.data (writeEntries io entries offset w).2 ∧
      (∀ i < offset, disk.byte (writeEntries io entries offset w).2 i = disk.byte w i) ∧
      Written (disk.byte (writeEntries io entries offset w).2) entries offset := by
  induction entries generalizing offset w with
  | nil => exact ⟨subset_rfl, fun _ _ => rfl, trivial⟩
  | cons sn entries ih =>
    simp only [writeEntries] at h ⊢
    obtain ⟨r, hr⟩ : ∃ r, pwriteAll io [sn.header, sn.extra, sn.idStr, sn.name]
      (alignOffset offset 8) w = r := ⟨_, rfl⟩
    have hspec := pwriteAll_spec disk [sn.header, sn.extra, sn.idStr, sn.name]
      (alignOffset offset 8) w
    rw [hr] at h hspec ⊢
    obtain ⟨ret, offset', w'⟩ := r
    dsimp only at h hspec ⊢
    by_cases hret : ret < 0
    · rw [if_pos hret] at h
      exact absurd h (not_le.mpr hret)
    rw [if_neg hret] at h ⊢
    have hflatten : [sn.header, sn.extra, sn.idStr, sn.name].flatten = sn.bytes := by
      simp [QCowSnapshot.bytes]
    obtain ⟨hoffset, hdata, hbyte⟩ := hspec (not_lt.mp hret)
    rw [hflatten] at hoffset hbyte
    subst hoffset
    obtain ⟨hdata', hframe, hwritten⟩ := ih _ _ h
    have halign := (alignOffset_spec offset).1
    refine ⟨hdata.trans hdata', fun i hi => ?_, ?_, hwritten⟩
    · rw [hframe i (by omega), hbyte, writeAt, if_neg (by omega)]
    · rw [readAt_congr fun i _ hi => hframe i hi, hbyte, readAt_writeAt]

/-! ### Reading -/

/-- What `struct QCowSnapshot` can hold. -/
structure QCowSnapshot.Held (sn : QCowSnapshot) : Prop where
  l1TableOffset : sn.l1TableOffset < 2 ^ 64
  l1Size : sn.l1Size < 2 ^ 32
  idStr : 0 ∉ sn.idStr
  name : 0 ∉ sn.name
  diskSize : sn.diskSize < 2 ^ 64
  vmStateSize : sn.vmStateSize < 2 ^ 64
  dateSec : sn.dateSec < 2 ^ 32
  dateNsec : sn.dateNsec < 2 ^ 32
  vmClockNsec : sn.vmClockNsec < 2 ^ 64

/-- The id and the name have a length of 16 bits. -/
def QCowSnapshot.Short (sn : QCowSnapshot) : Prop :=
  sn.idStr.length < 2 ^ 16 ∧ sn.name.length < 2 ^ 16

lemma beField_append_right {a b : List UInt8} {place n : ℕ} (h : a.length ≤ place) :
    beField (a ++ b) place n = beField b (place - a.length) n := by
  rw [beField, List.drop_append, List.drop_eq_nil_of_le h, List.nil_append, beField]

lemma beField_beBytes_append {k v : ℕ} (h : v < 256 ^ k) (b : List UInt8) :
    beField (beBytes k v ++ b) 0 k = v := by
  rw [beField, List.drop_zero, List.take_left' (length_beBytes k v), beNat_beBytes h]

lemma beField_beBytes {k v : ℕ} (h : v < 256 ^ k) : beField (beBytes k v) 0 k = v := by
  rw [← List.append_nil (beBytes k v), beField_beBytes_append h]

lemma bufString_eq {s : CString} (h : 0 ∉ s) : bufString s = s := by
  rw [bufString, List.takeWhile_eq_self_iff]
  intro c hc
  exact decide_eq_true fun h0 => h (h0 ▸ hc)

/-- The fields of a header that has been written. -/
lemma beField_header {sn : QCowSnapshot} (hheld : sn.Held) (hshort : sn.Short) :
    beField sn.header 0 8 = sn.l1TableOffset ∧ beField sn.header 8 4 = sn.l1Size ∧
      beField sn.header 12 2 = sn.idStr.length ∧ beField sn.header 14 2 = sn.name.length ∧
      beField sn.header 16 4 = sn.dateSec ∧ beField sn.header 20 4 = sn.dateNsec ∧
      beField sn.header 24 8 = sn.vmClockNsec ∧ beField sn.header 36 4 = extraSize := by
  simp (disch := simp) only [QCowSnapshot.header, List.append_assoc, beField_append_right,
    length_beBytes, Nat.reduceSub]
  exact ⟨beField_beBytes_append hheld.l1TableOffset _, beField_beBytes_append hheld.l1Size _,
    beField_beBytes_append hshort.1 _, beField_beBytes_append hshort.2 _,
    beField_beBytes_append hheld.dateSec _, beField_beBytes_append hheld.dateNsec _,
    beField_beBytes_append hheld.vmClockNsec _, beField_beBytes (by decide)⟩

lemma beField_extra {sn : QCowSnapshot} (hheld : sn.Held) :
    beField sn.extra 0 8 = sn.vmStateSize ∧ beField sn.extra 8 8 = sn.diskSize := by
  simp (disch := simp) only [QCowSnapshot.extra, beField_append_right, length_beBytes,
    Nat.reduceSub]
  exact ⟨beField_beBytes_append hheld.vmStateSize _, beField_beBytes hheld.diskSize⟩

/-- An entry that has been written is read back. -/
lemma readEntry_eq (totalSectors : ℕ) {w : W} {sn : QCowSnapshot} {offset : ℤ} (hheld : sn.Held)
    (hshort : sn.Short)
    (h : readAt (disk.byte w) (alignOffset offset 8) sn.bytes.length = sn.bytes) :
    readEntry (disk.pread w) totalSectors offset =
      .ok (sn, alignOffset offset 8 + sn.bytes.length) := by
  rw [sn.length_bytes, readAt_add, readAt_add, readAt_add, QCowSnapshot.bytes] at h
  obtain ⟨h, hname⟩ := List.append_inj h (by
    simp only [List.length_append, length_readAt, sn.length_header, sn.length_extra])
  obtain ⟨h, hid⟩ := List.append_inj h (by
    simp only [List.length_append, length_readAt, sn.length_header, sn.length_extra])
  obtain ⟨hheader, hextra⟩ := List.append_inj h (by
    simp only [length_readAt, sn.length_header])
  obtain ⟨h0, h8, h12, h14, h16, h20, h24, h36⟩ := beField_header hheld hshort
  obtain ⟨e0, e8⟩ := beField_extra hheld
  have hoffset : alignOffset offset 8 + headerSize + extraSize + sn.idStr.length +
      sn.name.length = alignOffset offset 8 + sn.bytes.length := by
    rw [sn.length_bytes]
    push_cast
    ring
  rw [Nat.cast_add, Nat.cast_add, ← add_assoc, ← add_assoc] at hname
  rw [Nat.cast_add, ← add_assoc] at hid
  simp only [readEntry, Disk.pread, bind, Except.bind, pure, Except.pure]
  simp only [hheader, h0, h8, h12, h14, h16, h20, h24, h36, min_self, hextra, hid, hname, e0, e8,
    bufString_eq hheld.idStr, bufString_eq hheld.name, hoffset]
  rw [if_pos (by decide), if_pos (by decide)]

/-- A table that has been written is read back. -/
lemma readEntries_eq (totalSectors : ℕ) {w : W} {entries : List QCowSnapshot} {offset : ℤ}
    (hheld : ∀ sn ∈ entries, sn.Held) (hshort : ∀ sn ∈ entries, sn.Short)
    (h : Written (disk.byte w) entries offset) :
    readEntries (disk.pread w) totalSectors entries.length offset =
      .ok (entries, endOffset entries offset) := by
  induction entries generalizing offset with
  | nil => rfl
  | cons sn entries ih =>
    simp only [List.length_cons, readEntries]
    rw [readEntry_eq disk totalSectors (hheld sn List.mem_cons_self)
      (hshort sn List.mem_cons_self) h.1]
    simp only [bind, Except.bind]
    rw [ih (fun sn hsn => hheld sn (List.mem_cons_of_mem _ hsn))
      (fun sn hsn => hshort sn (List.mem_cons_of_mem _ hsn)) h.2, endOffset_cons]
    rfl

lemma beField_lt (h : List UInt8) (place n : ℕ) : beField h place n < 256 ^ n :=
  (beNat_lt _).trans_le (Nat.pow_le_pow_right (by decide) (List.length_take_le _ _))

/-- The strings that are read have a length of 16 bits. -/
lemma readEntry_short {totalSectors : ℕ} {w : W} {sn : QCowSnapshot} {offset offset' : ℤ}
    (h : readEntry (disk.pread w) totalSectors offset = .ok (sn, offset')) : sn.Short := by
  have hbuf : ∀ (offset : ℤ) (h : List UInt8) (place : ℕ),
      (bufString (readAt (disk.byte w) offset (beField h place 2))).length < 2 ^ 16 := by
    intro offset h place
    have hle : (bufString (readAt (disk.byte w) offset (beField h place 2))).length ≤
        (readAt (disk.byte w) offset (beField h place 2)).length :=
      (List.takeWhile_sublist _).length_le
    rw [length_readAt] at hle
    exact hle.trans_lt (beField_lt h place 2)
  simp only [readEntry, Disk.pread, bind, Except.bind, pure, Except.pure, Except.ok.injEq,
    Prod.mk.injEq] at h
  obtain ⟨rfl, -⟩ := h
  exact ⟨hbuf _ _ _, hbuf _ _ _⟩

lemma readEntries_short {totalSectors nb : ℕ} {w : W} {entries : List QCowSnapshot}
    {offset offset' : ℤ}
    (h : readEntries (disk.pread w) totalSectors nb offset = .ok (entries, offset')) :
    ∀ sn ∈ entries, sn.Short := by
  induction nb generalizing entries offset with
  | zero =>
    cases h
    exact fun _ hsn => absurd hsn List.not_mem_nil
  | succ nb ih =>
    rw [readEntries] at h
    cases hentry : readEntry (disk.pread w) totalSectors offset with
    | error e =>
      rw [hentry] at h
      cases h
    | ok r =>
      obtain ⟨sn, m⟩ := r
      rw [hentry] at h
      simp only [bind, Except.bind] at h
      cases hrest : readEntries (disk.pread w) totalSectors nb m with
      | error e =>
        rw [hrest] at h
        cases h
      | ok r =>
        rw [hrest] at h
        cases h
        intro sn' hsn'
        rcases List.mem_cons.mp hsn' with rfl | hsn'
        · exact readEntry_short disk hentry
        · exact ih hrest sn' hsn'

/-! ### The table -/

/-- The table is read back as it was written, with its size; and the clusters that were allocated
for it, which are those that are freed later, are those that it occupies. -/
structure Codec (s : BDRVQcowState W) : Prop where
  read : readSnapshots (disk.pread s.image) (io.totalSectors s.image) s.header =
    .ok (s.table, s.snapshotsSize)
  clusters : disk.clusters s.snapshotsOffset s.snapshotsSize =
    {i | ∃ j, s.snapshotsOffset ≤ j ∧ j < s.snapshotsOffset + tableSize s.table ∧
      i / 2 ^ disk.clusterBits = j / 2 ^ disk.clusterBits}

/-- A table that is written starts at a cluster that was allocated for it, and if the table stays
inside the clusters allocated for it, it is there in the end. -/
lemma writeTable_spec {entries : List QCowSnapshot} {w : W}
    (h : 0 ≤ (writeTable io entries w).1) :
    0 ≤ snapshotsSize entries ∧ (2 ^ disk.clusterBits : ℤ) ∣ (writeTable io entries w).1 ∧
      (∀ i ∈ disk.clusters (writeTable io entries w).1 (snapshotsSize entries),
        i ∈ disk.data (writeTable io entries w).2) ∧
      ((∀ i, (writeTable io entries w).1 ≤ i → i < endOffset entries (writeTable io entries w).1 →
          i ∈ disk.clusters (writeTable io entries w).1 (snapshotsSize entries)) →
        Written (disk.byte (writeTable io entries w).2) entries (writeTable io entries w).1) := by
  cases halloc : io.allocClusters (snapshotsSize entries) w with | mk offset w₁
  cases hflushFile : io.flushFile w₁ with | mk _ w₂
  cases hentries : writeEntries io entries offset w₂ with | mk ret₃ w₃
  cases hflush : io.flush w₃ with | mk ret₄ w₄
  cases hheader : io.pwriteHeader w₄ with | mk ret₅ w₅
  have hwrite : writeTable io entries w =
      if offset < 0 then (offset, w₂) else if ret₃ < 0 then (ret₃, w₃) else
        if ret₄ < 0 then (ret₄, w₄) else if ret₅ < 0 then (ret₅, w₅) else (offset, w₅) := by
    simp only [writeTable, halloc, hflushFile, hentries, hflush, hheader]
  rw [hwrite] at h
  split_ifs at h with h₁ h₃ h₄ h₅
  · exact absurd h (not_le.mpr h₁)
  · exact absurd h (not_le.mpr h₃)
  · exact absurd h (not_le.mpr h₄)
  · exact absurd h (not_le.mpr h₅)
  rw [hwrite, if_neg h₁, if_neg h₃, if_neg h₄, if_neg h₅]
  have hneg : snapshotsSize entries < 0 → (io.allocClusters (snapshotsSize entries) w).1 < 0 :=
    fun h => disk.allocClusters_neg h w
  have hdvd := disk.allocClusters_dvd (snapshotsSize entries) w
  have hdata := disk.allocClusters_data (snapshotsSize entries) w
  rw [halloc] at hneg hdvd hdata
  have hdata₂ := disk.flushFile w₁
  rw [hflushFile] at hdata₂
  have hspec := writeEntries_spec disk entries offset w₂
  rw [hentries] at hspec
  obtain ⟨hdata₃, -, hwritten⟩ := hspec (not_lt.mp h₃)
  obtain ⟨hdata₄, hbyte₄⟩ := disk.flush w₃
  obtain ⟨hdata₅, hbyte₅⟩ := disk.pwriteHeader w₄
  rw [hflush] at hdata₄ hbyte₄
  rw [hheader] at hdata₅ hbyte₅
  have hr : ∀ i ∈ disk.clusters offset (snapshotsSize entries), i ∈ disk.data w₃ :=
    fun i hi => hdata₃ (hdata₂ (hdata h i hi.1 hi.2.1 hi.2.2))
  refine ⟨le_of_not_gt fun hsize => h₁ (hneg hsize), hdvd h,
    fun i hi => hdata₅ (hdata₄ (hr i hi)), fun hinside => ?_⟩
  refine hwritten.congr fun i hi hi' => ?_
  have hi := hr i (hinside i hi hi')
  rw [hbyte₅ i (hdata₄ hi), hbyte₄ i hi]

/-- The clusters of a region, each with an offset of the region in it. -/
lemma clusters_eq (offset : ℤ) (n : ℕ) :
    disk.clusters offset n = {i | ∃ j, offset ≤ j ∧ j < offset + n ∧
      i / 2 ^ disk.clusterBits = j / 2 ^ disk.clusterBits} := by
  have hpos : (0 : ℤ) < 2 ^ disk.clusterBits := by positivity
  ext i
  simp only [Disk.clusters, Set.mem_ofPred_eq]
  generalize (2 ^ disk.clusterBits : ℤ) = c at hpos
  constructor
  · rintro ⟨hn, hlow, hhigh⟩
    have hlast : i / c * c ≤ offset + n - 1 := (Int.le_ediv_iff_mul_le hpos).mp hhigh
    rcases le_or_gt offset (i / c * c) with h | h
    · exact ⟨i / c * c, h, by omega, (Int.mul_ediv_cancel _ hpos.ne').symm⟩
    · refine ⟨offset, le_rfl, by omega, le_antisymm ?_ hlow⟩
      exact (Int.le_ediv_iff_mul_le hpos).mpr h.le
  · rintro ⟨j, hlow, hhigh, hij⟩
    rw [hij]
    exact ⟨by omega, Int.ediv_le_ediv hpos hlow, Int.ediv_le_ediv hpos (by omega)⟩

variable {s s' : BDRVQcowState W}

/-- What a successful write of the table comes to. -/
lemma exists_writeTable (h : s.writeSnapshots io = some (0, s')) :
    s'.table = s.snapshots.take s.nbSnapshots ∧ s'.table.length = s.nbSnapshots ∧
      0 ≤ (writeTable io s'.table s.image).1 ∧
      s'.snapshotsOffset = (writeTable io s'.table s.image).1 ∧
      s'.snapshotsSize = snapshotsSize s'.table ∧
      s'.header = ⟨s.nbSnapshots, s'.snapshotsOffset⟩ ∧
      s'.image = io.freeClusters s.snapshotsOffset s.snapshotsSize
        (writeTable io s'.table s.image).2 := by
  simp only [BDRVQcowState.writeSnapshots, BDRVQcowState.entries, firstEntries] at h
  split_ifs at h with hle
  · rw [Option.map_some, Option.some.injEq] at h
    by_cases hoffset : (writeTable io (s.snapshots.take s.nbSnapshots) s.image).1 < 0
    · rw [if_pos hoffset, Prod.mk.injEq] at h
      exact absurd h.1 hoffset.ne
    · rw [if_neg hoffset, Prod.mk.injEq] at h
      obtain ⟨-, rfl⟩ := h
      exact ⟨rfl, by simpa using hle, not_lt.mp hoffset, rfl, rfl, rfl, rfl⟩
  · cases h

/-- The table is written where nothing fails. -/
lemma writeTable_of_success {entries : List QCowSnapshot} {w w₁ : W} {offset : ℤ}
    (halloc : io.allocClusters (snapshotsSize entries) w = (offset, w₁)) (hoffset : 0 ≤ offset)
    (hentries : ∀ w, 0 ≤ (writeEntries io entries offset w).1) (hflush : ∀ w, 0 ≤ (io.flush w).1)
    (hheader : ∀ w, 0 ≤ (io.pwriteHeader w).1) : (writeTable io entries w).1 = offset := by
  cases hflushFile : io.flushFile w₁ with | mk _ w₂
  cases hentries' : writeEntries io entries offset w₂ with | mk ret₃ w₃
  cases hflush' : io.flush w₃ with | mk ret₄ w₄
  cases hheader' : io.pwriteHeader w₄ with | mk ret₅ w₅
  have h₃ := hentries w₂
  have h₄ := hflush w₃
  have h₅ := hheader w₄
  rw [hentries'] at h₃
  rw [hflush'] at h₄
  rw [hheader'] at h₅
  simp only [writeTable, halloc, hflushFile, hentries', hflush', hheader']
  rw [if_neg hoffset.not_gt, if_neg h₃.not_gt, if_neg h₄.not_gt, if_neg h₅.not_gt]

lemma exists_writeSnapshots {entries : List QCowSnapshot} (hentries : s.entries = some entries)
    (h : 0 ≤ (writeTable io entries s.image).1) :
    ∃ s', s.writeSnapshots io = some (0, s') ∧ s'.table = entries := by
  rw [BDRVQcowState.writeSnapshots, hentries]
  exact ⟨_, congrArg some (if_neg h.not_gt), rfl⟩

/-- The size of a table that stays inside its clusters is an `int`. -/
lemma tableSize_lt_of_clusters {offset : ℤ} {entries : List QCowSnapshot}
    (hsize : 0 ≤ snapshotsSize entries)
    (h : disk.clusters offset (snapshotsSize entries) =
      {i | ∃ j, offset ≤ j ∧ j < offset + tableSize entries ∧
        i / 2 ^ disk.clusterBits = j / 2 ^ disk.clusterBits}) :
    tableSize entries < 2 ^ 31 := by
  by_contra hlarge
  have hlast : offset + tableSize entries - 1 ∈
      disk.clusters offset (snapshotsSize entries) := by
    rw [h]
    exact ⟨_, by omega, by omega, rfl⟩
  have hwrap : snapshotsSize entries + 2 ^ 32 ≤ tableSize entries := by
    rw [snapshotsSize, wrap32] at *
    omega
  have hpos : (0 : ℤ) < 2 ^ disk.clusterBits := by positivity
  have hcluster : (2 ^ disk.clusterBits : ℤ) ≤ 2 ^ 32 :=
    pow_le_pow_right₀ (by decide) (disk.clusterBits_le.trans (by decide))
  have hnext : offset + snapshotsSize entries - 1 + 2 ^ disk.clusterBits ≤
      offset + tableSize entries - 1 := by omega
  have hdiv := Int.ediv_le_ediv hpos hnext
  have hone := Int.add_mul_ediv_right (offset + snapshotsSize entries - 1) 1 hpos.ne'
  rw [one_mul] at hone
  have := hlast.2.2
  omega

/-- The bytes of a file with 64k clusters, and the number of clusters that have been allocated. -/
structure MemoryFile where
  bytes : ℤ → UInt8
  allocated : ℕ

/-- An image whose first four clusters are the header and tables, and that never fails. -/
def memory : Storage MemoryFile where
  totalSectors _ := 8
  l1Table _ := [0]
  l1TableOffset _ := 0x30000
  allocClusters size w := if size < 0 then (-22, w) else
    (0x10000 * (4 + w.allocated),
      { w with allocated := w.allocated + ((size + 0xffff) / 0x10000).toNat })
  freeClusters _ _ w := w
  pwrite offset bytes w := (0, { w with bytes := writeAt w.bytes offset bytes })
  flushFile w := (0, w)
  flush w := (0, w)
  updateSnapshotRefcount _ _ _ w := (0, w)
  pwriteHeader w := (0, w)
  goto _ w := (0, w)
  checkActive w := (0, w)
  checkL1 _ _ w := (0, w)
  updateHeader w := (0, w)

lemma allocClusters_memory {size : ℤ} (h : 0 ≤ size) (w : MemoryFile) :
    memory.allocClusters size w = (0x10000 * (4 + (w.allocated : ℤ)),
      { w with allocated := w.allocated + ((size + 0xffff) / 0x10000).toNat }) :=
  if_neg h.not_gt

lemma allocClusters_memory_neg {size : ℤ} (h : size < 0) (w : MemoryFile) :
    memory.allocClusters size w = (-22, w) :=
  if_pos h

def memoryDisk : Disk memory where
  clusterBits := 16
  clusterBits_ge := by decide
  clusterBits_le := by decide
  byte := MemoryFile.bytes
  data _ := {i | 0x40000 ≤ i}
  pwrite _ := ⟨subset_rfl, rfl⟩
  flushFile _ := subset_rfl
  flush _ := ⟨subset_rfl, fun _ _ => rfl⟩
  pwriteHeader _ := ⟨subset_rfl, fun _ _ => rfl⟩
  freeClusters _ _ _ _ _ := rfl
  allocClusters_neg {size} h w := by
    rw [allocClusters_memory_neg h]
    exact neg_neg_of_pos (by decide)
  allocClusters_dvd size w h := by
    rcases lt_or_ge size 0 with hsize | hsize
    · rw [allocClusters_memory_neg hsize] at h
      exact absurd (show (0 : ℤ) ≤ -22 from h) (by decide)
    · rw [allocClusters_memory hsize]
      exact Dvd.intro _ rfl
  allocClusters_data size w h i hsize hlow _ := by
    rw [allocClusters_memory hsize.le] at hlow
    rw [Set.mem_ofPred_eq]
    dsimp only at hlow
    omega

lemma writeEntries_memory (entries : List QCowSnapshot) (offset : ℤ) (w : MemoryFile) :
    (writeEntries memory entries offset w).1 = 0 := by
  induction entries generalizing offset w with
  | nil => rfl
  | cons sn entries ih => exact ih _ _

/-- Snapshots in an empty image. -/
def inMemory (snapshots : List QCowSnapshot) : BDRVQcowState MemoryFile where
  snapshots := snapshots
  nbSnapshots := snapshots.length
  snapshotsOffset := 0
  snapshotsSize := 0
  header := ⟨0, 0⟩
  table := []
  saves := 0
  image := ⟨fun _ => 0, 0⟩

lemma exists_writeSnapshots_memory {snapshots : List QCowSnapshot}
    (h : 0 ≤ snapshotsSize snapshots) :
    ∃ s', (inMemory snapshots).writeSnapshots memory = some (0, s') ∧ s'.table = snapshots := by
  have hoffset : 0 ≤ 0x10000 * (4 + ((inMemory snapshots).image.allocated : ℤ)) := by omega
  have htable : (writeTable memory snapshots (inMemory snapshots).image).1 =
      0x10000 * (4 + ((inMemory snapshots).image.allocated : ℤ)) :=
    writeTable_of_success (allocClusters_memory h _) hoffset
      (fun w => (writeEntries_memory snapshots _ w).ge) (fun _ => le_rfl) (fun _ => le_rfl)
  have hentries : (inMemory snapshots).entries = some snapshots := by
    simp [BDRVQcowState.entries, firstEntries, inMemory]
  exact exists_writeSnapshots hentries (htable ▸ hoffset)

/-- An entry of 64 bytes. -/
def savedvm : QCowSnapshot := ⟨0x30000, 1, cstr "1", cstr "savedvm", 4096, 2 ^ 33, 0, 0, 0⟩

lemma savedvm_held : savedvm.Held := ⟨by decide, by decide, by decide, by decide, by decide,
  by decide, by decide, by decide, by decide⟩

lemma endOffset_savedvm (n : ℕ) (k : ℤ) :
    endOffset (List.replicate n savedvm) (64 * k) = 64 * (k + n) := by
  induction n generalizing k with
  | zero => simp [endOffset]
  | succ n ih =>
    have hnext : alignOffset (64 * k) 8 + savedvm.bytes.length = 64 * (k + 1) := by
      have : savedvm.bytes.length = 64 := by decide
      rw [this, alignOffset]
      omega
    rw [List.replicate_succ, endOffset_cons, hnext, ih]
    push_cast
    ring

lemma tableSize_savedvm (n : ℕ) : tableSize (List.replicate n savedvm) = 64 * n := by
  have hend := endOffset_savedvm n 0
  rw [mul_zero, endOffset, zero_add] at hend
  rw [tableSize, hend]
  omega

lemma not_codec_savedvm {n : ℕ} (hn : n = 2 ^ 26 + 1) :
    ∃ s', (inMemory (List.replicate n savedvm)).writeSnapshots memory = some (0, s') ∧
      ¬ Codec memoryDisk s' := by
  have hsize := tableSize_savedvm n
  have hint : snapshotsSize (List.replicate n savedvm) = 64 := by
    rw [snapshotsSize, hsize, hn]
    decide
  obtain ⟨s', hwrite, htable⟩ := exists_writeSnapshots_memory
    (show 0 ≤ snapshotsSize (List.replicate n savedvm) by rw [hint]; decide)
  refine ⟨s', hwrite, fun hcodec => ?_⟩
  obtain ⟨-, -, -, -, hsize', -⟩ := exists_writeTable hwrite
  have hclusters := hcodec.clusters
  rw [hsize', htable] at hclusters
  have hlt := tableSize_lt_of_clusters memoryDisk (by rw [hint]; decide) hclusters
  rw [hsize, hn] at hlt
  exact absurd hlt (by decide)

end Limbo.Qcow2
