import Limbo.Vnc.Encoding

/-!
# The pixels that the server sends

The pixel formats of the frame and of the client, and the bytes in which a pixel of the frame is
sent.
-/

namespace Limbo.VncServer

open Vnc

/-- `struct PixelFormat`. -/
structure PixelFormat where
  bitsPerPixel : UInt8
  bytesPerPixel : UInt8
  depth : UInt8
  rmask : UInt32
  gmask : UInt32
  bmask : UInt32
  amask : UInt32
  rshift : UInt8
  gshift : UInt8
  bshift : UInt8
  ashift : UInt8
  rmax : UInt8
  gmax : UInt8
  bmax : UInt8
  amax : UInt8
  rbits : UInt8
  gbits : UInt8
  bbits : UInt8
  abits : UInt8
deriving DecidableEq

/-- The shifts that take the components out of a pixel and cut them down to their bits. -/
def PixelFormat.shifts (pf : PixelFormat) : List UInt8 :=
  [pf.rshift, pf.gshift, pf.bshift, pf.rbits, pf.gbits, pf.bbits]

/-- The frame in the memory of a little-endian host, as its pixels. -/
structure Framebuffer where
  pf : PixelFormat
  pixel : ℕ → ℕ → UInt32
  shifts : ∀ n ∈ pf.shifts, n < 32
  bits : pf.bitsPerPixel = 8 * pf.bytesPerPixel
  bytes : pf.bytesPerPixel = 1 ∨ pf.bytesPerPixel = 2 ∨ pf.bytesPerPixel = 4
  pixel_lt : ∀ x y, (pixel x y).toNat < 256 ^ pf.bytesPerPixel.toNat

/-- What `struct VncState` knows of pixels: the frame, the format of the client, and whether
`set_pixel_conversion()` has chosen the generic functions. `beyond` stands on the stack after the
four bytes in which a pixel is converted. -/
structure VncState where
  fb : Framebuffer
  beyond : ℕ → UInt8
  clientds : PixelFormat
  bigEndian : Bool
  generic : Bool

/-- `hweight_long()`. -/
def hweightLong (n : ℕ) : ℕ := (List.range 32).countP n.testBit

/-- `set_pixel_format()` with `set_pixel_conversion()`, for the message that the client sends. -/
def setPixelFormat (fb : Framebuffer) (beyond : ℕ → UInt8) (f : Vnc.PixelFormat) :
    Option VncState :=
  if ¬ f.trueColour then none
  else
    let clientds : PixelFormat :=
      { fb.pf with
        rmax := UInt8.ofNat f.redMax
        rbits := UInt8.ofNat (hweightLong f.redMax)
        rshift := f.redShift
        rmask := UInt32.ofNat (f.redMax <<< f.redShift.toNat)
        gmax := UInt8.ofNat f.greenMax
        gbits := UInt8.ofNat (hweightLong f.greenMax)
        gshift := f.greenShift
        gmask := UInt32.ofNat (f.greenMax <<< f.greenShift.toNat)
        bmax := UInt8.ofNat f.blueMax
        bbits := UInt8.ofNat (hweightLong f.blueMax)
        bshift := f.blueShift
        bmask := UInt32.ofNat (f.blueMax <<< f.blueShift.toNat)
        bitsPerPixel := f.bitsPerPixel
        bytesPerPixel := f.bitsPerPixel / 8
        depth := if f.bitsPerPixel = 32 then 24 else f.bitsPerPixel }
    some
      { fb, beyond, clientds, bigEndian := f.bigEndian
        generic := ¬ (f.bigEndian = false ∧ clientds = fb.pf) }

/-- The bytes of a number, the least significant one first. -/
def leBytes (v : UInt32) : List UInt8 :=
  [v.toUInt8, (v >>> 8).toUInt8, (v >>> 16).toUInt8, (v >>> 24).toUInt8]

/-- A colour component of the server as one of the client. -/
def convertComponent (v mask : UInt32) (shift clientBits serverBits : UInt8) : UInt8 :=
  ((((v &&& mask) >>> shift.toUInt32) <<< clientBits.toUInt32) >>> serverBits.toUInt32).toUInt8

namespace VncState

variable (vs : VncState)

/-- `vnc_convert_pixel()`: the bytes of the pixel in `buf`. -/
def vncConvertPixel (v : UInt32) : List UInt8 :=
  let r := convertComponent v vs.fb.pf.rmask vs.fb.pf.rshift vs.clientds.rbits vs.fb.pf.rbits
  let g := convertComponent v vs.fb.pf.gmask vs.fb.pf.gshift vs.clientds.gbits vs.fb.pf.gbits
  let b := convertComponent v vs.fb.pf.bmask vs.fb.pf.bshift vs.clientds.bbits vs.fb.pf.bbits
  let v := (r.toUInt32 <<< vs.clientds.rshift.toUInt32) |||
    (g.toUInt32 <<< vs.clientds.gshift.toUInt32) ||| (b.toUInt32 <<< vs.clientds.bshift.toUInt32)
  if vs.clientds.bytesPerPixel = 1 then (leBytes v).take 1
  else if vs.clientds.bytesPerPixel = 2 then
    if vs.bigEndian then ((leBytes v).take 2).reverse else (leBytes v).take 2
  else if vs.bigEndian then (leBytes v).reverse else leBytes v

/-- `sizeof(pixel_t)`. -/
def sizeofPixel : ℕ := vs.fb.pf.bytesPerPixel.toNat

/-- What `vnc_write_pixels_generic()` writes for one pixel. -/
def genericPixel (v : UInt32) : List UInt8 :=
  (vs.vncConvertPixel v ++ (List.range 256).map vs.beyond).take vs.clientds.bytesPerPixel.toNat

/-- What `write_pixels` writes for one pixel, `vnc_write_pixels_generic()` or
`vnc_write_pixels_copy()`. -/
def writePixel (v : UInt32) : List UInt8 :=
  if vs.generic then vs.genericPixel v else (leBytes v).take vs.sizeofPixel

/-- The client has set the format of this colour model. -/
def ClientOf (m : ColorModel) : Prop := setPixelFormat vs.fb vs.beyond m.pixelFormat = some vs

/-- The pixel as it is on the wire. -/
def wirePixel (v : UInt32) : Pixel :=
  ⟨(vs.writePixel v).getD 0 0, (vs.writePixel v).getD 1 0, (vs.writePixel v).getD 2 0,
    (vs.writePixel v).getD 3 0⟩

end VncState

/-! ### The formats of the client -/

variable {vs : VncState} {m : ColorModel}

/-- A component of eight bits is cut out of the pixel. -/
lemma convertComponent_byte (v : UInt32) {shift : UInt8} (h : shift = 0 ∨ shift = 8 ∨ shift = 16) :
    convertComponent v (0xff <<< shift.toUInt32) shift 8 8 = (v >>> shift.toUInt32).toUInt8 := by
  apply UInt8.toBitVec_inj.mp
  ext i hi
  rcases h with rfl | rfl | rfl <;> interval_cases i <;>
    simp [convertComponent, BitVec.getElem_ushiftRight]

/-- Three bytes next to each other. -/
lemma leBytes_rgb (r g b : UInt8) :
    leBytes ((r.toUInt32 <<< (16 : UInt8).toUInt32) ||| (g.toUInt32 <<< (8 : UInt8).toUInt32) |||
      (b.toUInt32 <<< (0 : UInt8).toUInt32)) = [b, g, r, 0] := by
  simp only [leBytes, List.cons.injEq, and_true]
  refine ⟨?_, ?_, ?_, ?_⟩ <;> apply UInt8.toBitVec_inj.mp <;> ext i hi <;> interval_cases i <;>
    simp

/-- In the format of 8 bits, red, green and blue together are the pixel. -/
lemma leBytes_bgr233 : ∀ v < 256, (leBytes
    (((convertComponent (UInt32.ofNat v) 7 0 3 3).toUInt32 <<< (0 : UInt8).toUInt32) |||
      ((convertComponent (UInt32.ofNat v) 56 3 3 3).toUInt32 <<< (3 : UInt8).toUInt32) |||
      ((convertComponent (UInt32.ofNat v) 192 6 2 2).toUInt32 <<< (6 : UInt8).toUInt32))).take 1 =
    (leBytes (UInt32.ofNat v)).take 1 := by
  decide +kernel

namespace VncState

/-- Where the pixels are copied, the formats are the same. -/
lemma copies_of_setPixelFormat {fb : Framebuffer} {beyond : ℕ → UInt8} {f : Vnc.PixelFormat}
    (h : setPixelFormat fb beyond f = some vs) (hcopy : vs.generic = false) :
    vs.clientds = vs.fb.pf := by
  have htrue : ¬ ¬ f.trueColour := by
    intro hfalse
    rw [setPixelFormat, if_pos hfalse] at h
    cases h
  rw [setPixelFormat, if_neg htrue] at h
  have hstate := Option.some.inj h
  have hgeneric := congrArg VncState.generic hstate
  have hclient := congrArg VncState.clientds hstate
  have hfb := congrArg VncState.fb hstate
  dsimp only at hgeneric hclient hfb
  rw [hclient, hcopy, decide_eq_false_iff_not, not_not, hfb] at hgeneric
  exact hgeneric.2

lemma ClientOf.copies (h : vs.ClientOf m) (hcopy : vs.generic = false) :
    vs.clientds = vs.fb.pf := copies_of_setPixelFormat h hcopy

/-- What `set_pixel_format()` makes of the model with 24 bits. -/
lemma ClientOf.c24bit (h : vs.ClientOf .c24bit) :
    vs.bigEndian = false ∧ vs.clientds =
      { vs.fb.pf with
        rmax := 255, rbits := 8, rshift := 16, rmask := 0xff <<< (16 : UInt8).toUInt32
        gmax := 255, gbits := 8, gshift := 8, gmask := 0xff <<< (8 : UInt8).toUInt32
        bmax := 255, bbits := 8, bshift := 0, bmask := 0xff <<< (0 : UInt8).toUInt32
        bitsPerPixel := 32, bytesPerPixel := 4, depth := 24 } := by
  have hstate := Option.some.inj h
  exact ⟨(congrArg VncState.bigEndian hstate).symm, (congrArg VncState.clientds hstate).symm⟩

/-- What `set_pixel_format()` makes of the model with 256 colours. -/
lemma ClientOf.c256 (h : vs.ClientOf .c256) :
    vs.clientds =
      { vs.fb.pf with
        rmax := 7, rbits := 3, rshift := 0, rmask := 7
        gmax := 7, gbits := 3, gshift := 3, gmask := 56
        bmax := 3, bbits := 2, bshift := 6, bmask := 192
        bitsPerPixel := 8, bytesPerPixel := 1, depth := 8 } :=
  (congrArg VncState.clientds (Option.some.inj h)).symm

lemma vncConvertPixel_c256 (h : vs.ClientOf .c256) (v : UInt32) :
    vs.vncConvertPixel v = (leBytes (
      ((convertComponent v vs.fb.pf.rmask vs.fb.pf.rshift 3 vs.fb.pf.rbits).toUInt32 <<<
        (0 : UInt8).toUInt32) |||
      ((convertComponent v vs.fb.pf.gmask vs.fb.pf.gshift 3 vs.fb.pf.gbits).toUInt32 <<<
        (3 : UInt8).toUInt32) |||
      ((convertComponent v vs.fb.pf.bmask vs.fb.pf.bshift 2 vs.fb.pf.bbits).toUInt32 <<<
        (6 : UInt8).toUInt32))).take 1 := by
  rw [vncConvertPixel, h.c256]
  rfl

lemma vncConvertPixel_c24bit (h : vs.ClientOf .c24bit) (v : UInt32) :
    vs.vncConvertPixel v =
      [convertComponent v vs.fb.pf.bmask vs.fb.pf.bshift 8 vs.fb.pf.bbits,
        convertComponent v vs.fb.pf.gmask vs.fb.pf.gshift 8 vs.fb.pf.gbits,
        convertComponent v vs.fb.pf.rmask vs.fb.pf.rshift 8 vs.fb.pf.rbits, 0] := by
  obtain ⟨hbe, hclient⟩ := h.c24bit
  rw [← leBytes_rgb, vncConvertPixel, hclient, hbe]
  rfl

lemma length_vncConvertPixel (vs : VncState) (v : UInt32) : (vs.vncConvertPixel v).length =
    if vs.clientds.bytesPerPixel = 1 then 1 else if vs.clientds.bytesPerPixel = 2 then 2 else 4 := by
  unfold vncConvertPixel
  dsimp only
  split_ifs <;> rfl

/-- However many bytes the client wants of a pixel, it gets them. -/
lemma length_genericPixel (v : UInt32) :
    (vs.genericPixel v).length = vs.clientds.bytesPerPixel.toNat := by
  have hlt := vs.clientds.bytesPerPixel.toNat_lt
  rw [genericPixel, List.length_take, List.length_append, List.length_map, List.length_range]
  omega

/-- The buffer holds the whole pixel. -/
lemma genericPixel_eq (h : vs.clientds.bytesPerPixel = 1 ∨ vs.clientds.bytesPerPixel = 4)
    (v : UInt32) : vs.genericPixel v = vs.vncConvertPixel v := by
  have hlen := vs.length_vncConvertPixel v
  have hbytes : (vs.vncConvertPixel v).length = vs.clientds.bytesPerPixel.toNat := by
    rcases h with h | h
    · rw [hlen, h]; rfl
    · rw [hlen, h]; rfl
  rw [genericPixel, List.take_append_of_le_length hbytes.ge, ← hbytes, List.take_length]

lemma ClientOf.bytesPerPixel (hm : m = .c256 ∨ m = .c24bit) (h : vs.ClientOf m) :
    vs.clientds.bytesPerPixel.toNat = m.bpp ∧
      (vs.clientds.bytesPerPixel = 1 ∨ vs.clientds.bytesPerPixel = 4) := by
  rcases hm with rfl | rfl
  · rw [h.c256]
    exact ⟨rfl, .inl rfl⟩
  · rw [h.c24bit.2]
    exact ⟨rfl, .inr rfl⟩

/-- A pixel of the frame in the bytes of the client. -/
lemma length_writePixel (hm : m = .c256 ∨ m = .c24bit) (h : vs.ClientOf m) (v : UInt32) :
    (vs.writePixel v).length = m.bpp := by
  obtain ⟨hbytes, hfour⟩ := h.bytesPerPixel hm
  unfold writePixel sizeofPixel
  split_ifs with hgeneric
  · rw [length_genericPixel, hbytes]
  · rw [← h.copies (by simpa using hgeneric), ← hbytes]
    rcases hfour with h | h <;> rw [h] <;> rfl

lemma bytes_wirePixel (hm : m = .c256 ∨ m = .c24bit) (h : vs.ClientOf m) (v : UInt32) :
    (vs.wirePixel v).bytes m = vs.writePixel v := by
  have hlen := length_writePixel hm h v
  unfold wirePixel
  rcases hm with rfl | rfl
  · obtain ⟨b, hb⟩ := List.length_eq_one_iff.mp hlen
    rw [hb]
    rfl
  · obtain ⟨b0, b1, b2, b3, hb⟩ := List.length_eq_four.mp hlen
    rw [hb]
    rfl

/-- Copied or converted, a pixel has the colour that `vnc_convert_pixel()` gives it. -/
lemma rawColor_wirePixel (hm : m = .c256 ∨ m = .c24bit) (h : vs.ClientOf m) (x y : ℕ) :
    (vs.wirePixel (vs.fb.pixel x y)).rawColor m =
      m.pixelColor (vs.vncConvertPixel (vs.fb.pixel x y)) := by
  have hbytes := Pixel.pixelColor_bytes m (vs.wirePixel (vs.fb.pixel x y)) []
  rw [← hbytes, List.append_nil, bytes_wirePixel hm h, writePixel]
  have hlt := vs.fb.pixel_lt x y
  generalize vs.fb.pixel x y = v at hlt ⊢
  split_ifs with hgeneric
  · rw [genericPixel_eq (h.bytesPerPixel hm).2]
  have hcopy := h.copies (by simpa using hgeneric)
  rw [sizeofPixel, ← hcopy]
  rw [← hcopy] at hlt
  rcases hm with rfl | rfl
  · rw [vncConvertPixel_c256 h, ← hcopy]
    rw [h.c256] at hlt ⊢
    have hv := leBytes_bgr233 v.toNat hlt
    rw [UInt32.ofNat_toNat] at hv
    exact congrArg _ hv.symm
  · rw [vncConvertPixel_c24bit h, ← hcopy, h.c24bit.2]
    dsimp only
    rw [convertComponent_byte v (.inl rfl), convertComponent_byte v (.inr (.inl rfl)),
      convertComponent_byte v (.inr (.inr rfl))]
    rfl

end VncState

end Limbo.VncServer
