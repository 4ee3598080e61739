import Limbo.VncServer.ClientMessages
import Limbo.VncServer.HextileRows

/-!
# The size of a pixel on the wire

The rectangles that are sent in a format that the client has set: how long they are, and which parts
of the buffers and which shifts their pixels need.
-/

namespace Limbo.VncServer

open Vnc

/-! ### What is sent -/

/-- The format in the data of a SetPixelFormat message. -/
def readPixelFormat (data : List UInt8) : Vnc.PixelFormat where
  bitsPerPixel := data.getD 4 0
  depth := data.getD 5 0
  bigEndian := data.getD 6 0 ≠ 0
  trueColour := data.getD 7 0 ≠ 0
  redMax := readU16 data 8
  greenMax := readU16 data 10
  blueMax := readU16 data 12
  redShift := data.getD 14 0
  greenShift := data.getD 15 0
  blueShift := data.getD 16 0
  fGreyScale := false

/-- A cursor. The size of its pixels in bytes is an `int`. -/
structure QEMUCursor where
  width : ℕ
  height : ℕ
  data : ℕ → UInt32
  size_lt : width * height * 4 < 2 ^ 31

namespace VncState

variable (vs : VncState)

/-- `set_pixel_conversion()`. -/
def setPixelConversion : VncState :=
  { vs with generic := ¬ (vs.bigEndian = false ∧ vs.clientds = vs.fb.pf) }

/-- The client has set this format with a message, and since then the guest has drawn, or has
changed its display. -/
inductive Since (f : Vnc.PixelFormat) : VncState → Prop
  | set {data : List UInt8} {fb : Framebuffer} {beyond : ℕ → UInt8} {vs : VncState}
      (message : readPixelFormat data = f) (h : setPixelFormat fb beyond f = some vs) : Since f vs
  | draw {vs : VncState} (h : Since f vs) (pixel : ℕ → ℕ → UInt32)
      (lt : ∀ x y, (pixel x y).toNat < 256 ^ vs.fb.pf.bytesPerPixel.toNat) (beyond : ℕ → UInt8) :
      Since f { vs with fb := { vs.fb with pixel, pixel_lt := lt }, beyond }
  | resize {vs : VncState} (h : Since f vs) (fb : Framebuffer) :
      Since f { vs with fb }.setPixelConversion

/-- The pixels that `vnc_raw_send_framebuffer_update()` writes. -/
def vncRawSendFramebufferUpdate (x y w h : ℕ) : List UInt8 :=
  (vs.fb.rows x y w h).flatMap fun row => row.flatMap vs.writePixel

/-- The pixels that `vnc_cursor_define()` writes. `isize` is counted with the pixels of the client,
and divided by the four bytes of a pixel of the cursor. -/
def vncCursorDefine (c : QEMUCursor) : List UInt8 :=
  let isize := toInt (c.width * c.height * vs.clientds.bytesPerPixel.toNat)
  (List.range (isize / 4).toNat).flatMap fun i => vs.genericPixel (c.data i)

/-- The amounts of the shifts, in `set_pixel_format()` and for every pixel. -/
def shiftAmounts (f : Vnc.PixelFormat) : List UInt8 :=
  [f.redShift, f.greenShift, f.blueShift] ++ vs.fb.pf.shifts ++ vs.clientds.shifts

/-- By how much `n_data` grows for the colour of a subrectangle. -/
def colorSize : ℕ := if vs.generic then vs.clientds.bytesPerPixel.toNat else vs.sizeofPixel

/-- The bytes that are written for the colour of a subrectangle. -/
def colorBytes (color : UInt32) : List UInt8 :=
  if vs.generic then vs.vncConvertPixel color else (leBytes color).take vs.sizeofPixel

/-- The bounds of the writes into `data` from `n_data` on. -/
def dataWrites (colors : Colors) (nData : ℕ) : List Subtile → List (ℕ × ℕ)
  | [] => []
  | t :: ts =>
    if colors.nColors = 3 then
      (nData, nData + (vs.colorBytes t.color).length) ::
        (nData + vs.colorSize, nData + vs.colorSize + 2) ::
          dataWrites colors (nData + vs.colorSize + 2) ts
    else (nData, nData + 2) :: dataWrites colors (nData + 2) ts

/-- The length of `data`. -/
def dataLength : ℕ := (vs.clientds.bytesPerPixel.toNat + 2) * 16 * 16

end VncState

/-! ### What is expected -/

section Reader

variable (bpp : ℕ)

def skip (n : ℕ) (bytes : List UInt8) : Option (List UInt8) :=
  if n ≤ bytes.length then some (bytes.drop n) else none

/-- The subrectangles of a tile, each in its own colour or not. -/
def skipSubrects (coloured : Bool) : List UInt8 → Option (List UInt8)
  | [] => none
  | n :: bytes => skip (n.toNat * if coloured then bpp + 2 else 2) bytes

/-- A Hextile tile with this number of pixels is read over. -/
def skipTile (area : ℕ) : List UInt8 → Option (List UInt8)
  | [] => none
  | flags :: bytes =>
    if flags &&& 0x01 ≠ 0 then skip (area * bpp) bytes
    else do
      let bytes ← skip (if flags &&& 0x02 ≠ 0 then bpp else 0) bytes
      let bytes ← skip (if flags &&& 0x04 ≠ 0 then bpp else 0) bytes
      if flags &&& 0x08 ≠ 0 then skipSubrects bpp (flags &&& 0x10 ≠ 0) bytes else some bytes

/-- A Hextile rectangle is read over. -/
def skipHextile (w h : ℕ) (bytes : List UInt8) : Option (List UInt8) :=
  (List.range (tileCount 16 h)).foldlM (fun bytes r =>
    (List.range (tileCount 16 w)).foldlM (fun bytes k =>
      skipTile bpp (tileLength 16 w k * tileLength 16 h r) bytes) bytes) bytes

end Reader

/-- Every rectangle has the pixel bytes that belong to it, every write stays in its buffer, and
no shift is too far. -/
structure VncState.PixelSizes (vs : VncState) (f : Vnc.PixelFormat) (c : QEMUCursor) : Prop where
  raw (x y w h : ℕ) :
    (vs.vncRawSendFramebufferUpdate x y w h).length = w * h * (f.bitsPerPixel.toNat / 8)
  hextile (x y w h : ℕ) :
    skipHextile (f.bitsPerPixel.toNat / 8) w h (vs.vncHextileSendFramebufferUpdate x y w h) =
      some []
  cursor : (vs.vncCursorDefine c).length = c.width * c.height * (f.bitsPerPixel.toNat / 8)
  converted (v : UInt32) : (vs.vncConvertPixel v).length ≤ 4
  written (v : UInt32) : (vs.genericPixel v).length ≤ 4
  data (x y : ℕ) {w h : ℕ} (hw : w ≤ 16) (hh : h ≤ 16) :
    let colors := hextileColors (vs.fb.rows x y w h)
    ∀ p ∈ vs.dataWrites colors 0 (colors.subtiles (vs.fb.rows x y w h)), p.2 ≤ vs.dataLength
  shifts : ∀ n ∈ vs.shiftAmounts f, n < 32

lemma skip_append {bytes : List UInt8} {n : ℕ} (h : bytes.length = n) (rest : List UInt8) :
    skip n (bytes ++ rest) = some rest := by
  rw [skip, if_pos (by rw [List.length_append]; omega), List.drop_left' h]

/-- What has been written from `before` to `after` is what is read. -/
def Reads (read : List UInt8 → Option (List UInt8)) (before after : List UInt8) : Prop :=
  ∃ bytes, after = before ++ bytes ∧ ∀ rest, read (bytes ++ rest) = some rest

/-- What is written in a loop is read in a loop. -/
lemma Reads.foldl {α σ : Type} {f : List UInt8 × σ → α → List UInt8 × σ}
    {read : α → List UInt8 → Option (List UInt8)} (h : ∀ p a, Reads (read a) p.1 (f p a).1)
    (l : List α) (p : List UInt8 × σ) :
    Reads (fun bytes => l.foldlM (fun bytes a => read a bytes) bytes) p.1 (l.foldl f p).1 := by
  induction l generalizing p with
  | nil => exact ⟨[], (List.append_nil _).symm, fun rest => rfl⟩
  | cons a l ih =>
    obtain ⟨first, hfirst, hread⟩ := h p a
    obtain ⟨bytes, hbytes, hreads⟩ := ih (f p a)
    refine ⟨first ++ bytes, ?_, fun rest => ?_⟩
    · rw [List.foldl_cons, hbytes, hfirst, List.append_assoc]
    · dsimp only
      rw [List.append_assoc, List.foldlM_cons, hread]
      exact hreads rest

lemma Framebuffer.length_rows_flatten (fb : Framebuffer) (x y w h : ℕ) :
    (fb.rows x y w h).flatten.length = w * h := by
  have hrow : ∀ row ∈ fb.rows x y w h, row.length = w := by
    intro row hrow
    obtain ⟨j, -, rfl⟩ := List.mem_map.mp hrow
    rw [List.length_map, List.length_range]
  rw [List.length_flatten, List.map_congr_left hrow, List.map_const', List.sum_replicate,
    Framebuffer.rows, List.length_map, List.length_range, smul_eq_mul, mul_comm]

/-- What the flags of a tile that is not raw say. -/
lemma tileFlags (newBg newFg : Bool) (n : ℕ) :
    let flags : UInt8 := (if newBg then 0x02 else 0) ||| (if newFg then 0x04 else 0) |||
      (if n = 2 then 0x08 else if n = 3 then 0x18 else 0)
    flags &&& 0x01 = 0 ∧ (flags &&& 0x08 ≠ 0 ↔ n = 2 ∨ n = 3) ∧ (flags &&& 0x10 ≠ 0 ↔ n = 3) := by
  by_cases htwo : n = 2
  · subst htwo
    revert newBg newFg
    decide
  · by_cases hthree : n = 3
    · subst hthree
      revert newBg newFg
      decide
    · simp only [htwo, hthree, if_false, or_self]
      revert newBg newFg
      decide

/-! ### The format of the client -/

lemma hweightLong_lt {n : ℕ} (h : n < 2 ^ 16) : hweightLong n < 32 := by
  have hle : hweightLong n ≤ 32 := by
    have hcount := List.countP_le_length (p := n.testBit) (l := List.range 32)
    rwa [List.length_range] at hcount
  refine lt_of_le_of_ne hle fun heq => ?_
  have hbit : n.testBit 31 := List.countP_eq_length.mp (heq.trans List.length_range.symm) 31
    (List.mem_range.mpr (by decide))
  rw [Nat.testBit_lt_two_pow (h.trans (by decide))] at hbit
  cases hbit

lemma hweightLong_readU16 (data : List UInt8) (offset : ℕ) :
    UInt8.ofNat (hweightLong (readU16 data offset)) < 32 := by
  have hlt := hweightLong_lt (readU16_lt data offset)
  rw [UInt8.lt_iff_toNat_lt, UInt8.toNat_ofNat_of_lt' (hlt.trans (by decide))]
  exact hlt

namespace VncState

variable {vs : VncState} {f : Vnc.PixelFormat}

/-- What the rectangles depend on. -/
structure Sized (vs : VncState) (f : Vnc.PixelFormat) : Prop where
  bytes : vs.clientds.bytesPerPixel = f.bitsPerPixel / 8
  shifts : vs.clientds.shifts = [f.redShift, f.greenShift, f.blueShift,
    UInt8.ofNat (hweightLong f.redMax), UInt8.ofNat (hweightLong f.greenMax),
    UInt8.ofNat (hweightLong f.blueMax)]
  copies : vs.generic = false → vs.clientds = vs.fb.pf

lemma Sized.of_setPixelFormat {fb : Framebuffer} {beyond : ℕ → UInt8}
    (h : setPixelFormat fb beyond f = some vs) : vs.Sized f := by
  have hcopies : vs.generic = false → vs.clientds = vs.fb.pf := copies_of_setPixelFormat h
  rw [setPixelFormat] at h
  split at h
  · cases h
  · obtain rfl := Option.some.inj h
    exact ⟨rfl, rfl, hcopies⟩

lemma Since.message (h : Since f vs) : ∃ data, readPixelFormat data = f := by
  induction h with
  | set message h => exact ⟨_, message⟩
  | draw h pixel lt beyond ih => exact ih
  | resize h fb ih => exact ih

lemma Since.sized (h : Since f vs) : vs.Sized f := by
  induction h with
  | set message h => exact .of_setPixelFormat h
  | draw h pixel lt beyond ih => exact ⟨ih.bytes, ih.shifts, ih.copies⟩
  | resize h fb ih =>
    refine ⟨ih.bytes, ih.shifts, fun hcopy => ?_⟩
    simp only [setPixelConversion, decide_eq_false_iff_not, not_not] at hcopy
    exact hcopy.2

namespace Sized

variable (h : vs.Sized f)

include h

lemma bytes_toNat : vs.clientds.bytesPerPixel.toNat = f.bitsPerPixel.toNat / 8 := by
  rw [h.bytes]
  rfl

lemma colorSize_eq : vs.colorSize = f.bitsPerPixel.toNat / 8 := by
  unfold colorSize sizeofPixel
  split_ifs with hgeneric
  · exact h.bytes_toNat
  · rw [← h.copies (by simpa using hgeneric), h.bytes_toNat]

lemma length_writePixel (v : UInt32) : (vs.writePixel v).length = f.bitsPerPixel.toNat / 8 := by
  unfold writePixel sizeofPixel
  split_ifs with hgeneric
  · rw [length_genericPixel, h.bytes_toNat]
  · have hcopy := h.copies (by simpa using hgeneric)
    have hbytes := vs.fb.bytes
    rw [← hcopy] at hbytes ⊢
    rw [← h.bytes_toNat]
    rcases hbytes with hbytes | hbytes | hbytes <;> rw [hbytes] <;> rfl

lemma length_flatMap_writePixel {row : List UInt32} :
    (row.flatMap vs.writePixel).length = row.length * (f.bitsPerPixel.toNat / 8) := by
  rw [List.length_flatMap, List.map_congr_left fun v _ => h.length_writePixel v, List.map_const',
    List.sum_replicate, smul_eq_mul]

lemma length_rows (x y w k : ℕ) :
    ((vs.fb.rows x y w k).flatMap fun row => row.flatMap vs.writePixel).length =
      w * k * (f.bitsPerPixel.toNat / 8) := by
  have hrow : ∀ row ∈ vs.fb.rows x y w k,
      (row.flatMap vs.writePixel).length = w * (f.bitsPerPixel.toNat / 8) := by
    intro row hrow
    obtain ⟨j, -, rfl⟩ := List.mem_map.mp hrow
    rw [h.length_flatMap_writePixel, List.length_map, List.length_range]
  rw [List.length_flatMap, List.map_congr_left hrow, List.map_const', List.sum_replicate,
    Framebuffer.rows, List.length_map, List.length_range, smul_eq_mul]
  ring

lemma length_vncCursorDefine (c : QEMUCursor) : (vs.vncCursorDefine c).length =
    (toInt (c.width * c.height * (f.bitsPerPixel.toNat / 8 : ℕ)) / 4).toNat *
      (f.bitsPerPixel.toNat / 8) := by
  have hpixel : ∀ i ∈ List.range
      (toInt (c.width * c.height * (f.bitsPerPixel.toNat / 8 : ℕ)) / 4).toNat,
      (vs.genericPixel (c.data i)).length = f.bitsPerPixel.toNat / 8 := by
    intro i _
    rw [length_genericPixel, h.bytes_toNat]
  unfold vncCursorDefine
  rw [h.bytes_toNat, List.length_flatMap, List.map_congr_left hpixel, List.map_const',
    List.sum_replicate, List.length_range, smul_eq_mul]

/-! ### Tiles -/

/-- The writes into `data` stay inside, if it has room for so many subrectangles. -/
lemma dataWrites_le (colors : Colors) {ts : List Subtile} {nData : ℕ}
    (hroom : nData + ts.length * (f.bitsPerPixel.toNat / 8 + 2) ≤
      255 * (f.bitsPerPixel.toNat / 8 + 2)) :
    ∀ p ∈ vs.dataWrites colors nData ts, p.2 ≤ vs.dataLength := by
  have hlength : vs.dataLength = 256 * (f.bitsPerPixel.toNat / 8 + 2) := by
    rw [dataLength, h.bytes_toNat]
    ring
  have hcolor (v : UInt32) : (vs.colorBytes v).length ≤ 4 := by
    unfold colorBytes
    split_ifs
    · rw [length_vncConvertPixel]
      split_ifs <;> decide
    · exact List.length_take_le' _ _
  rw [hlength]
  induction ts generalizing nData with
  | nil => exact List.forall_mem_nil _
  | cons t ts ih =>
    rw [List.length_cons, Nat.succ_mul] at hroom
    have hcolor := hcolor t.color
    unfold dataWrites
    split_ifs
    · rw [h.colorSize_eq]
      refine List.forall_mem_cons.mpr ⟨by dsimp only; omega,
        List.forall_mem_cons.mpr ⟨by dsimp only; omega, ih (by omega)⟩⟩
    · exact List.forall_mem_cons.mpr ⟨by dsimp only; omega, ih (by omega)⟩

lemma length_subtileBytes (colors : Colors) (t : Subtile) :
    (vs.subtileBytes colors t).length =
      if colors.nColors = 3 then f.bitsPerPixel.toNat / 8 + 2 else 2 := by
  unfold subtileBytes
  split_ifs
  · rw [List.length_append, h.length_writePixel]
    rfl
  · rfl

/-- The subrectangles are read over. -/
lemma skipSubrects_data (colors : Colors) (ts : List Subtile) (hlen : ts.length < 256)
    (rest : List UInt8) :
    skipSubrects (f.bitsPerPixel.toNat / 8) (colors.nColors = 3)
      (UInt8.ofNat ts.length :: (ts.flatMap (vs.subtileBytes colors) ++ rest)) = some rest := by
  have hdata : (ts.flatMap (vs.subtileBytes colors)).length = (UInt8.ofNat ts.length).toNat *
      if colors.nColors = 3 then f.bitsPerPixel.toNat / 8 + 2 else 2 := by
    rw [List.length_flatMap, List.map_congr_left fun t _ => h.length_subtileBytes colors t,
      List.map_const', List.sum_replicate, smul_eq_mul, UInt8.toNat_ofNat_of_lt' hlen]
  simp only [skipSubrects, decide_eq_true_eq]
  exact skip_append hdata rest

lemma length_color (c : Prop) [Decidable c] (v : UInt32) :
    (if c then vs.writePixel v else []).length = if c then f.bitsPerPixel.toNat / 8 else 0 := by
  split_ifs
  · exact h.length_writePixel v
  · rfl

/-- A tile that is not raw is read over. -/
lemma skipTile_flags (colors : Colors) (newBg newFg : Bool) (bg fg : UInt32) {ts : List Subtile}
    (hlen : ts.length < 256) (hsome : ts.length ≠ 0 ↔ colors.nColors = 2 ∨ colors.nColors = 3)
    (area : ℕ) (rest : List UInt8) :
    let flags : UInt8 := (if newBg then 0x02 else 0) ||| (if newFg then 0x04 else 0) |||
      (if colors.nColors = 2 then 0x08 else if colors.nColors = 3 then 0x18 else 0)
    skipTile (f.bitsPerPixel.toNat / 8) area
      (flags :: ((if flags &&& 0x02 ≠ 0 then vs.writePixel bg else []) ++
        ((if flags &&& 0x04 ≠ 0 then vs.writePixel fg else []) ++
          if ts.length ≠ 0 then UInt8.ofNat ts.length :: ts.flatMap (vs.subtileBytes colors)
          else [])) ++ rest) = some rest := by
  obtain ⟨hraw, hsubrects, hcoloured⟩ := tileFlags newBg newFg colors.nColors
  intro flags
  have hflags : (flags &&& 0x08 ≠ 0) ↔ ts.length ≠ 0 := hsubrects.trans hsome.symm
  rw [List.cons_append, List.append_assoc, List.append_assoc, skipTile, if_neg (by simpa using hraw),
    skip_append (h.length_color _ bg), Option.bind_eq_bind, Option.bind_some,
    skip_append (h.length_color _ fg), Option.bind_some]
  by_cases hts : ts.length ≠ 0
  · rw [if_pos (hflags.mpr hts), if_pos hts, List.cons_append,
      show decide (flags &&& 0x10 ≠ 0) = decide (colors.nColors = 3) from
        decide_eq_decide.mpr hcoloured]
    exact h.skipSubrects_data colors ts hlen rest
  · rw [if_neg (mt hflags.mp hts), if_neg hts]
    rfl

/-- A tile is read over. -/
lemma skipTile_sendHextileTile {rows : List (List UInt32)} {w k : ℕ} (s : Carried)
    (hlen : rows.flatten.length ≤ 256)
    (hrows : (rows.flatMap fun row => row.flatMap vs.writePixel).length =
      w * k * (f.bitsPerPixel.toNat / 8)) (rest : List UInt8) :
    skipTile (f.bitsPerPixel.toNat / 8) (w * k) ((vs.sendHextileTile rows w k s).1 ++ rest) =
      some rest := by
  obtain ⟨hcount, hsome⟩ := length_subtiles (counted_hextileColors rows) hlen
  rw [hextileColors] at hcount hsome
  unfold sendHextileTile
  dsimp only
  generalize (Colors.countRows ⟨0, 0, 0, 0, 0⟩ rows).swap = colors at hcount hsome
  by_cases hlong : vs.TooLong colors rows w k
  · rw [if_pos hlong]
    exact skip_append hrows rest
  · rw [if_neg hlong]
    exact h.skipTile_flags colors _ _ _ _ hcount hsome _ rest

lemma reads_sendTile (x y w k i r : ℕ) (p : List UInt8 × Carried) :
    Reads (skipTile (f.bitsPerPixel.toNat / 8) (tileLength 16 w i * tileLength 16 k r)) p.1
      (vs.sendTile x y w k p r i).1 := by
  have hw : tileLength 16 w i ≤ 16 := min_le_right _ _
  have hh : tileLength 16 k r ≤ 16 := min_le_right _ _
  refine ⟨_, rfl, h.skipTile_sendHextileTile p.2 ?_ (h.length_rows _ _ _ _)⟩
  rw [Framebuffer.length_rows_flatten]
  exact Nat.mul_le_mul hw hh

lemma skipHextile_vncHextileSend (x y w k : ℕ) :
    skipHextile (f.bitsPerPixel.toNat / 8) w k (vs.vncHextileSendFramebufferUpdate x y w k) =
      some [] := by
  have hrows := Reads.foldl (fun p r => Reads.foldl (fun p i => h.reads_sendTile x y w k i r p)
    (List.range (tileCount 16 w)) p) (List.range (tileCount 16 k)) ([], ⟨0, 0, false, false⟩)
  obtain ⟨bytes, hbytes, hread⟩ := hrows
  have hrest := hread []
  rw [List.append_nil] at hrest
  rw [vncHextileSendFramebufferUpdate, hbytes]
  exact hrest

end Sized

end VncState

/-! ### The sizes of the rectangles -/

namespace VncState

variable {vs : VncState} {f : Vnc.PixelFormat}

/-- As long as a pixel fits the conversion buffer, the cursor has its size if the pixels of the
client are as long as the cursor's, or empty. -/
lemma cursorLength_iff (c : QEMUCursor) {bpp : ℕ} (hbpp : bpp ≤ 4) :
    (toInt (c.width * c.height * bpp) / 4).toNat * bpp = c.width * c.height * bpp ↔
      bpp = 0 ∨ bpp = 4 ∨ bpp < 4 ∧ c.width * c.height = 0 := by
  have hsize := c.size_lt
  rw [← Nat.cast_mul, ← Nat.cast_mul]
  generalize c.width * c.height = area at hsize ⊢
  have hle : area * bpp ≤ area * 4 := Nat.mul_le_mul_left _ hbpp
  rw [toInt, Int.bmod_eq_of_le_mul_two (by push_cast; omega) (by push_cast; omega),
    show ((area * bpp : ℕ) : ℤ) / 4 = ((area * bpp / 4 : ℕ) : ℤ) from rfl, Int.toNat_natCast]
  interval_cases bpp <;> omega

/-- The rectangles that are sent in the format of the client have their sizes, and the buffers and
the shifts are enough, if its shifts are in range and its pixels are as long as the cursor's. -/
theorem pixelSizes_iff (h : Since f vs) (c : QEMUCursor) :
    vs.PixelSizes f c ↔ (f.redShift < 32 ∧ f.greenShift < 32 ∧ f.blueShift < 32) ∧
      (f.bitsPerPixel.toNat / 8 = 0 ∨ f.bitsPerPixel.toNat / 8 = 4 ∨
        f.bitsPerPixel.toNat / 8 < 4 ∧ c.width * c.height = 0) := by
  have hsized := h.sized
  constructor
  · intro hsizes
    have hwritten := hsizes.written 0
    rw [length_genericPixel, hsized.bytes_toNat] at hwritten
    have hcursor := hsizes.cursor
    rw [hsized.length_vncCursorDefine] at hcursor
    refine ⟨⟨?_, ?_, ?_⟩, (cursorLength_iff c hwritten).mp hcursor⟩ <;>
      exact hsizes.shifts _ (by simp [shiftAmounts])
  · rintro ⟨⟨hr, hg, hb⟩, hbytes⟩
    have hle : f.bitsPerPixel.toNat / 8 ≤ 4 := by omega
    constructor
    case raw => exact fun x y w k => hsized.length_rows x y w k
    case hextile => exact fun x y w k => hsized.skipHextile_vncHextileSend x y w k
    case cursor => rw [hsized.length_vncCursorDefine, cursorLength_iff c hle]; exact hbytes
    case converted =>
      intro v
      rw [length_vncConvertPixel]
      split_ifs <;> decide
    case written =>
      intro v
      rw [length_genericPixel, hsized.bytes_toNat]
      exact hle
    case data =>
      intro x y w k hw hk colors
      have harea : (vs.fb.rows x y w k).flatten.length ≤ 256 := by
        rw [Framebuffer.length_rows_flatten]
        exact Nat.mul_le_mul hw hk
      obtain ⟨hcount, -⟩ := length_subtiles (counted_hextileColors _) harea
      refine hsized.dataWrites_le colors ?_
      rw [zero_add]
      exact Nat.mul_le_mul_right _ (Nat.le_of_lt_succ hcount)
    case shifts =>
      obtain ⟨data, rfl⟩ := h.message
      have hbits : ∀ offset, UInt8.ofNat (hweightLong (readU16 data offset)) < 32 :=
        hweightLong_readU16 data
      rw [shiftAmounts, hsized.shifts]
      refine List.forall_mem_append.mpr ⟨List.forall_mem_append.mpr ⟨?_, vs.fb.shifts⟩, ?_⟩
      · simp [hr, hg, hb]
      · simp only [List.forall_mem_cons]
        exact ⟨hr, hg, hb, hbits 8, hbits 10, hbits 12, List.forall_mem_nil _⟩

/-! ### Two formats -/

/-- A black frame with pixels of 32 bits. -/
def blackFrame : Framebuffer where
  pf :=
    { bitsPerPixel := 32, bytesPerPixel := 4, depth := 24
      rmask := 0xff0000, gmask := 0xff00, bmask := 0xff, amask := 0
      rshift := 16, gshift := 8, bshift := 0, ashift := 24
      rmax := 255, gmax := 255, bmax := 255, amax := 255
      rbits := 8, gbits := 8, bbits := 8, abits := 8 }
  pixel _ _ := 0
  shifts := by decide +kernel
  bits := rfl
  bytes := .inr (.inr rfl)
  pixel_lt _ _ := by decide

/-- A cursor of two by two pixels. -/
def smallCursor : QEMUCursor := ⟨2, 2, fun _ => 0xffffffff, by decide⟩

/-- A SetPixelFormat message for 32 bits, red first. -/
def rgb32 : Vnc.PixelFormat :=
  readPixelFormat [0, 0, 0, 0, 32, 24, 0, 1, 0, 255, 0, 255, 0, 255, 0, 8, 16, 0, 0, 0]

/-- A SetPixelFormat message for 16 bits. -/
def rgb565 : Vnc.PixelFormat :=
  readPixelFormat [0, 0, 0, 0, 16, 16, 0, 1, 0, 31, 0, 63, 0, 31, 11, 5, 0, 0, 0, 0]

theorem pixelSizes_rgb32 :
    ∃ vs, setPixelFormat blackFrame (fun _ => 0) rgb32 = some vs ∧
      vs.PixelSizes rgb32 smallCursor := by
  obtain ⟨vs, hset⟩ : ∃ vs, setPixelFormat blackFrame (fun _ => 0) rgb32 = some vs := ⟨_, rfl⟩
  exact ⟨vs, hset, (pixelSizes_iff (.set rfl hset) smallCursor).mpr ⟨by decide, by decide⟩⟩

/-- Of a cursor of four pixels, a client with 16 bits for a pixel gets two. -/
theorem not_pixelSizes_rgb565 :
    ∃ vs, setPixelFormat blackFrame (fun _ => 0) rgb565 = some vs ∧
      ¬ vs.PixelSizes rgb565 smallCursor :=
  ⟨_, rfl, fun h => absurd h.cursor (by decide +kernel)⟩

end VncState

end Limbo.VncServer
