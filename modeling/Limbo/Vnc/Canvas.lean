import Limbo.Vnc.ZlibInStream

/-!
# The canvas

The state of the VNC client: the connection and its decoders, and the bitmap. The operations of the
bitmap write `bitmapPixels` and never read it.
-/

namespace Limbo.Vnc

open Lib

/-! ### Colours -/

/-- `Color.rgb`. -/
def rgb (r g b : UInt8) : UInt32 :=
  (0xff000000 : UInt32) ||| (r.toUInt32 <<< 16) ||| (g.toUInt32 <<< 8) ||| b.toUInt32

/-- `Color.BLACK`. -/
def black : UInt32 := 0xff000000

/-- `COLORMODEL`. -/
inductive ColorModel where
  | c24bit | c256 | c64 | c8 | c4 | c2
deriving DecidableEq, Repr

/-- The arguments of `writeSetPixelFormat`. -/
structure PixelFormat where
  bitsPerPixel : UInt8
  depth : UInt8
  bigEndian : Bool
  trueColour : Bool
  redMax : ℕ
  greenMax : ℕ
  blueMax : ℕ
  redShift : UInt8
  greenShift : UInt8
  blueShift : UInt8
  fGreyScale : Bool

namespace ColorModel

/-- The steps of a colour component of two bits. -/
def level4 (i : UInt8) : UInt8 := [0x00, 0x55, 0xaa, 0xff].getD i.toNat 0

/-- The steps of a colour component of three bits. -/
def level8 (i : UInt8) : UInt8 :=
  [0x00, 0x24, 0x49, 0x6d, 0x92, 0xb6, 0xdb, 0xff].getD i.toNat 0

/-- The table `ColorModel256.colors`. -/
def colors256 (i : UInt8) : UInt32 :=
  rgb (level8 (i &&& 7)) (level8 ((i >>> 3) &&& 7)) (level4 (i >>> 6))

/-- The table `ColorModel64.colors`. -/
def colors64 (i : UInt8) : UInt32 :=
  rgb (level4 ((i >>> 4) &&& 3)) (level4 ((i >>> 2) &&& 3)) (level4 (i &&& 3))

/-- The table `ColorModel8.colors`. -/
def colors8 (i : UInt8) : UInt32 :=
  rgb (if i &&& 4 = 0 then 0 else 0xff) (if i &&& 2 = 0 then 0 else 0xff)
    (if i &&& 1 = 0 then 0 else 0xff)

/-- `bpp`. -/
def bpp : ColorModel → ℕ
  | c24bit => 4
  | _ => 1

/-- `palette`, which is null for the model without one. -/
def palette : ColorModel → Option (UInt8 → UInt32)
  | c24bit => none
  | c256 => some colors256
  | c64 | c4 => some colors64
  | c8 | c2 => some colors8

/-- `setPixelFormat`. -/
def pixelFormat : ColorModel → PixelFormat
  | c24bit => ⟨32, 24, false, true, 255, 255, 255, 16, 8, 0, false⟩
  | c256 => ⟨8, 8, false, true, 7, 7, 3, 0, 3, 6, false⟩
  | c64 => ⟨8, 6, false, true, 3, 3, 3, 4, 2, 0, false⟩
  | c8 => ⟨8, 3, false, true, 1, 1, 1, 2, 1, 0, false⟩
  | c4 => ⟨8, 6, false, true, 3, 3, 3, 4, 2, 0, true⟩
  | c2 => ⟨8, 3, false, true, 1, 1, 1, 2, 1, 0, true⟩

/-- The colour of the pixel in `bytesPerPixel` bytes, as the handlers give it to a `Paint`. -/
def paintColor (m : ColorModel) (bs : List UInt8) : UInt32 :=
  match m.palette with
  | some colors => colors (bs.getD 0 0)
  | none => rgb (bs.getD 2 0) (bs.getD 1 0) (bs.getD 0 0)

/-- The same pixel as the handlers put it into `bitmapPixels`: without a palette there is no
alpha. -/
def pixelColor (m : ColorModel) (bs : List UInt8) : UInt32 :=
  match m.palette with
  | some colors => colors (bs.getD 0 0)
  | none => ((bs.getD 2 0).toUInt32 <<< 16) ||| ((bs.getD 1 0).toUInt32 <<< 8) |||
      (bs.getD 0 0).toUInt32

lemma bpp_pos (m : ColorModel) : 0 < m.bpp := by cases m <;> decide

lemma bpp_le (m : ColorModel) : m.bpp ≤ 4 := by cases m <;> decide

/-- The models with a palette are those of one byte. -/
lemma bpp_eq_one {m : ColorModel} : m.bpp = 1 ↔ m.palette.isSome := by cases m <;> decide

end ColorModel

/-! ### The bitmap -/

/-- How the frame lies in `bitmapPixels`: `FullBufferBitmapData` has the whole frame,
`LargeBitmapData` the part of it that is scrolled to. -/
inductive Layout where
  | full (framebufferwidth framebufferheight : ℕ)
  | large (xoffset yoffset : ℤ) (bitmapwidth bitmapheight : ℕ)

namespace Layout

def bitmapwidth : Layout → ℕ
  | full w _ => w
  | large _ _ w _ => w

def bitmapheight : Layout → ℕ
  | full _ h => h
  | large _ _ _ h => h

def validDraw : Layout → ℤ → ℤ → ℤ → ℤ → Bool
  | full _ _, _, _, _, _ => true
  | large xoffset yoffset bitmapwidth bitmapheight, x, y, w, h =>
    x - xoffset ≥ 0 && x - xoffset + w ≤ bitmapwidth && y - yoffset ≥ 0 &&
      y - yoffset + h ≤ bitmapheight

def offset : Layout → ℤ → ℤ → ℤ
  | full framebufferwidth _, x, y => wrap32 (x + y * framebufferwidth)
  | large xoffset yoffset bitmapwidth _, x, y =>
    wrap32 ((y - yoffset) * bitmapwidth + x - xoffset)

end Layout

/-- The bitmap with its pixels, as many as its constructor has made room for. -/
structure BitmapData where
  layout : Layout
  bitmapPixels : List UInt32
  length_bitmapPixels : bitmapPixels.length = layout.bitmapwidth * layout.bitmapheight
  bounded : layout.bitmapwidth * layout.bitmapheight < 2147483648

def BitmapData.set (b : BitmapData) (i : ℕ) (c : UInt32) : BitmapData :=
  { b with
    bitmapPixels := b.bitmapPixels.set i c
    length_bitmapPixels := by rw [List.length_set, b.length_bitmapPixels] }

/-! ### The state -/

/-- The connection and the fields of `VncCanvas` and `RfbProto`. What is written to the server is
collected in `os`; `zlibBuf` and `zrleBuf` are lengths, since they are read only after they have
been filled. -/
structure Conn (I : Inflater) where
  is : List UInt8
  os : List UInt8
  framebufferWidth : ℕ
  framebufferHeight : ℕ
  inNormalProtocol : Bool
  colorModel : ColorModel
  pendingColorModel : Option ColorModel
  useCopyRect : Bool
  preferredEncoding : ℤ
  requestCursorUpdates : Bool
  ignoreCursorUpdates : Bool
  compressLevel : ℤ
  jpegQuality : ℤ
  encodingsSaved : List ℤ
  mouseX : ℕ
  mouseY : ℕ
  hextileBg : UInt32
  hextileFg : UInt32
  rreBuf : List UInt8
  zlibBuf : Option ℕ
  zlibInflater : I.State
  handleZlibRectBuffer : List UInt8
  zrleBuf : Option ℕ
  zrleInStream : ZlibInStream I
  handleZRLERectPalette : List UInt32

/-- The connection with these bytes to come. -/
def Conn.next {I : Inflater} (c : Conn I) (is : List UInt8) : Conn I := { c with is := is }

def Conn.setHextileBg {I : Inflater} (c : Conn I) (color : UInt32) : Conn I :=
  { c with hextileBg := color }

def Conn.setHextileFg {I : Inflater} (c : Conn I) (color : UInt32) : Conn I :=
  { c with hextileFg := color }

structure VncCanvas (I : Inflater) where
  conn : Conn I
  bitmapData : BitmapData

variable {I : Inflater}

/-- Everything but the pixels. -/
def core (s : VncCanvas I) : Conn I × Layout := (s.conn, s.bitmapData.layout)

def bitmapPixels (s : VncCanvas I) : List UInt32 := s.bitmapData.bitmapPixels

abbrev ConnM (I : Inflater) := EStateM Exn (Conn I)

abbrev Client (I : Inflater) := EStateM Exn (VncCanvas I)

/-- An action on the connection. -/
def rfb {β : Type} (x : ConnM I β) : Client I β := fun s =>
  match x s.conn with
  | .ok b c => .ok b { s with conn := c }
  | .error e c => .error e { s with conn := c }

/-- An action on `zrleInStream`. -/
def zrle {β : Type} (x : EStateM Exn (ZlibInStream I) β) : ConnM I β := fun c =>
  match x c.zrleInStream with
  | .ok b z => .ok b { c with zrleInStream := z }
  | .error e z => .error e { c with zrleInStream := z }

/-! ### Reading from the server -/

/-- `readFully` of `len` bytes. -/
def readFully (len : ℤ) : ConnM I (List UInt8) := fun c =>
  if len < 0 then .error .indexOutOfBounds c
  else if c.is.length < len then .error .eof c
  else .ok (c.is.take len.toNat) (c.next (c.is.drop len.toNat))

def readUnsignedByte : ConnM I ℕ := do
  let bs ← readFully 1
  return beNat bs

def readUnsignedShort : ConnM I ℕ := do
  let bs ← readFully 2
  return beNat bs

def readInt : ConnM I ℤ := do
  let bs ← readFully 4
  return wrap32 (beNat bs)

/-! ### Drawing -/

def getLayout : Client I Layout := fun s => .ok s.bitmapData.layout s

/-- `pixels[i] = c`. -/
def setPixel (i : ℤ) (c : UInt32) : Client I Unit := fun s =>
  if 0 ≤ i ∧ i < s.bitmapData.bitmapPixels.length then
    .ok () { s with bitmapData := s.bitmapData.set i.toNat c }
  else .error .indexOutOfBounds s

/-- The range check of `Arrays.fill` and `System.arraycopy`. -/
def rangeCheck (i : ℤ) (w : ℕ) : Client I Unit := fun s =>
  if 0 ≤ i ∧ i + w ≤ s.bitmapData.bitmapPixels.length then .ok () s
  else .error .indexOutOfBounds s

/-- `bitmapData.drawRect`; the large bitmap draws into its `Bitmap`, not into `bitmapPixels`. -/
def drawRect (x y w h : ℕ) (color : UInt32) : Client I Unit := do
  let layout ← getLayout
  match layout with
  | .full framebufferwidth _ =>
    loop h fun j =>
      let offset := wrap32 (layout.offset x y + j * framebufferwidth)
      if w > 10 then do
        rangeCheck offset w
        loop w fun k => setPixel (offset + k) color
      else loop w fun k => setPixel (offset + k) color
  | .large .. => pure ()

/-- `bitmapData.copyRect`. -/
def copyRect : Client I Unit := throw (.exception "copyrect Not implemented")

end Limbo.Vnc
