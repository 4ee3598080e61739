import Limbo.Vnc.Decoders

/-!
# The encodings of a rectangle

What the RFB protocol says of the data of a rectangle: the parts it has, the bytes of each part, and
which pixels the rectangle then has.
-/

namespace Limbo.Vnc

open Lib

/-! ### Pixels -/

/-- A pixel on the wire: an index in one byte, or blue, green, red and a byte of padding. -/
structure Pixel where
  b0 : UInt8
  b1 : UInt8
  b2 : UInt8
  pad : UInt8
deriving DecidableEq, Repr, Inhabited

namespace Pixel

variable (m : ColorModel)

def bytes (p : Pixel) : List UInt8 :=
  match m.palette with
  | some _ => [p.b0]
  | none => [p.b0, p.b1, p.b2, p.pad]

/-- The bytes in ZRLE data. -/
def cbytes (p : Pixel) : List UInt8 :=
  match m.palette with
  | some _ => [p.b0]
  | none => [p.b0, p.b1, p.b2]

/-- The colour of the pixel as a handler gives it to a `Paint`. -/
def color (p : Pixel) : UInt32 :=
  match m.palette with
  | some colors => colors p.b0
  | none => rgb p.b2 p.b1 p.b0

/-- The colour of the pixel as a handler puts it into `bitmapPixels`. -/
def rawColor (p : Pixel) : UInt32 :=
  match m.palette with
  | some colors => colors p.b0
  | none => (p.b2.toUInt32 <<< 16) ||| (p.b1.toUInt32 <<< 8) ||| p.b0.toUInt32

lemma paintColor_bytes (p : Pixel) (bs : List UInt8) :
    m.paintColor (p.bytes m ++ bs) = p.color m := by cases m <;> rfl

lemma pixelColor_bytes (p : Pixel) (bs : List UInt8) :
    m.pixelColor (p.bytes m ++ bs) = p.rawColor m := by cases m <;> rfl

/-- Any `bpp` bytes are a pixel. -/
lemma exists_bytes {bs : List UInt8} (h : bs.length = m.bpp) : ∃ p : Pixel, p.bytes m = bs := by
  cases hm : m.palette with
  | some colors =>
    have hbpp : m.bpp = 1 := ColorModel.bpp_eq_one.mpr (by rw [hm]; rfl)
    rw [hbpp] at h
    obtain ⟨b, rfl⟩ := List.length_eq_one_iff.mp h
    exact ⟨⟨b, 0, 0, 0⟩, by rw [bytes, hm]⟩
  | none =>
    obtain rfl : m = .c24bit := by cases m <;> first | rfl | cases hm
    obtain _ | ⟨b0, _ | ⟨b1, _ | ⟨b2, _ | ⟨b3, _ | ⟨b4, bs⟩⟩⟩⟩⟩ := bs <;> cases h
    exact ⟨⟨b0, b1, b2, b3⟩, rfl⟩

@[simp] lemma length_bytes (p : Pixel) : (p.bytes m).length = m.bpp := by cases m <;> rfl

@[simp] lemma length_cbytes (p : Pixel) : (p.cbytes m).length = m.cpixelSize := by cases m <;> rfl

end Pixel

/-! ### RRE -/

/-- A subrectangle with coordinates of `size` bytes. -/
structure Subrect (size : ℕ) where
  pixel : Pixel
  x : Fin (256 ^ size)
  y : Fin (256 ^ size)
  w : Fin (256 ^ size)
  h : Fin (256 ^ size)

namespace Subrect

variable {size : ℕ} (r : Subrect size)

def coords : List ℕ := [r.x, r.y, r.w, r.h]

def bytes (m : ColorModel) : List UInt8 := r.pixel.bytes m ++ r.coords.flatMap (beBytes size)

@[simp] lemma length_bytes (m : ColorModel) : (r.bytes m).length = m.bpp + 4 * size := by
  rw [bytes, List.length_append, Pixel.length_bytes, length_items (length_beBytes size)]
  rfl

lemma coordinate_bytes {k : ℕ} (hk : k < 4) (m : ColorModel) :
    coordinate size k ((r.bytes m).drop m.bpp) = r.coords[k] := by
  have hlt : r.coords[k] < 256 ^ size := by
    have hall : ∀ n ∈ r.coords, n < 256 ^ size := by simp [coords]
    exact hall _ (List.getElem_mem _)
  have hdrop : (r.bytes m).drop m.bpp = r.coords.flatMap (beBytes size) := by
    rw [bytes, List.drop_left' (Pixel.length_bytes m _)]
  rw [coordinate, hdrop, drop_items_eq (length_beBytes size) hk,
    List.take_left' (length_beBytes _ _), beNat_beBytes hlt]

end Subrect

/-! ### Hextile -/

/-- A subrectangle of a tile; its size is one more than `w` and `h`. -/
structure HextileSubrect where
  x : Fin 16
  y : Fin 16
  w : Fin 16
  h : Fin 16

def HextileSubrect.bytes (r : HextileSubrect) : List UInt8 :=
  [UInt8.ofNat (16 * r.x + r.y), UInt8.ofNat (16 * r.w + r.h)]

lemma nibbles (a b : Fin 16) :
    (UInt8.ofNat (16 * a + b)).toNat >>> 4 = a ∧ (UInt8.ofNat (16 * a + b)).toNat &&& 0xf = b := by
  have hval : (UInt8.ofNat (16 * a + b)).toNat = 16 * a + b := by
    rw [UInt8.toNat_ofNat']
    omega
  rw [hval, Nat.shiftRight_eq_div_pow, show (0xf : ℕ) = 2 ^ 4 - 1 from rfl,
    Nat.and_two_pow_sub_one_eq_mod]
  omega

/-- A tile; the bits of the subencoding say which of its parts are sent. -/
structure HextileTile where
  subencoding : UInt8
  pixels : List Pixel
  bg : Pixel
  fg : Pixel
  subrects : List (Pixel × HextileSubrect)

namespace HextileTile

variable (m : ColorModel) (t : HextileTile)

def Raw : Prop := t.subencoding.toNat &&& hextileRaw ≠ 0
def BackgroundSpecified : Prop := t.subencoding.toNat &&& hextileBackgroundSpecified ≠ 0
def ForegroundSpecified : Prop := t.subencoding.toNat &&& hextileForegroundSpecified ≠ 0
def AnySubrects : Prop := t.subencoding.toNat &&& hextileAnySubrects ≠ 0
def SubrectsColoured : Prop := t.subencoding.toNat &&& hextileSubrectsColoured ≠ 0

instance : Decidable t.Raw := inferInstanceAs (Decidable (_ ≠ _))
instance : Decidable t.BackgroundSpecified := inferInstanceAs (Decidable (_ ≠ _))
instance : Decidable t.ForegroundSpecified := inferInstanceAs (Decidable (_ ≠ _))
instance : Decidable t.AnySubrects := inferInstanceAs (Decidable (_ ≠ _))
instance : Decidable t.SubrectsColoured := inferInstanceAs (Decidable (_ ≠ _))

def subrectBytes (r : Pixel × HextileSubrect) : List UInt8 :=
  if t.SubrectsColoured then r.1.bytes m ++ r.2.bytes else r.2.bytes

@[simp] lemma length_subrectBytes (r : Pixel × HextileSubrect) :
    (t.subrectBytes m r).length = if t.SubrectsColoured then m.bpp + 2 else 2 := by
  unfold subrectBytes
  split_ifs
  · rw [List.length_append, Pixel.length_bytes]
    rfl
  · rfl

def partBytes : List UInt8 :=
  (if t.BackgroundSpecified then t.bg.bytes m else []) ++
    ((if t.ForegroundSpecified then t.fg.bytes m else []) ++
      if t.AnySubrects then
        UInt8.ofNat t.subrects.length :: t.subrects.flatMap (t.subrectBytes m)
      else [])

def bytes : List UInt8 :=
  t.subencoding :: if t.Raw then t.pixels.flatMap (Pixel.bytes m) else t.partBytes m

end HextileTile

/-! ### ZRLE -/

/-- A run of a palette tile: one pixel, or a run with its length. -/
inductive PaletteRun where
  | one (index : ℕ)
  | run (index length : ℕ)

/-- A tile in the uncompressed data. The rows of a packed tile are bytes of indices. -/
inductive ZrleTile where
  | raw (pixels : List Pixel)
  | solid (pixel : Pixel)
  | packed (palette : List Pixel) (rows : List (List UInt8))
  | plainRle (runs : List (Pixel × ℕ))
  | paletteRle (palette : List Pixel) (runs : List PaletteRun)

/-- The length of a run: bytes that add up to one less. -/
def runLengthBytes (length : ℕ) : List UInt8 :=
  List.replicate ((length - 1) / 255) 255 ++ [UInt8.ofNat ((length - 1) % 255)]

namespace PaletteRun

def index : PaletteRun → ℕ
  | one index => index
  | run index _ => index

def length : PaletteRun → ℕ
  | one _ => 1
  | run _ length => length

def bytes : PaletteRun → List UInt8
  | one index => [UInt8.ofNat index]
  | run index length => UInt8.ofNat (index + 128) :: runLengthBytes length

end PaletteRun

def ZrleTile.bytes (m : ColorModel) : ZrleTile → List UInt8
  | raw pixels => 0 :: pixels.flatMap (Pixel.cbytes m)
  | solid pixel => 1 :: pixel.cbytes m
  | packed palette rows =>
    UInt8.ofNat palette.length :: palette.flatMap (Pixel.cbytes m) ++ rows.flatten
  | plainRle runs => 128 :: runs.flatMap fun r => r.1.cbytes m ++ runLengthBytes r.2
  | paletteRle palette runs =>
    UInt8.ofNat (128 + palette.length) :: palette.flatMap (Pixel.cbytes m) ++
      runs.flatMap PaletteRun.bytes

/-! ### Rectangles and messages -/

/-- The data of a rectangle; the two with compressed data come with what it is to be inflated to. -/
inductive Encoding where
  | raw (pixels : List Pixel)
  | copyRect (srcX srcY : UInt16)
  | rre (bg : Pixel) (subrects : List (Subrect 2))
  | coRRE (bg : Pixel) (subrects : List (Subrect 1))
  | hextile (tiles : List HextileTile)
  | zlib (data : List UInt8) (pixels : List Pixel)
  | zrle (data : List UInt8) (tiles : List ZrleTile)
  | lastRect
  | newFBSize

end Limbo.Vnc
