import Limbo.Vnc.Canvas

/-!
# The decoders

One handler for each encoding of a rectangle. A handler reads the rectangle from the server and
draws it into the bitmap where `validDraw` lets it.
-/

namespace Limbo.Vnc

open Lib

variable {I : Inflater}

def getColorModel : ConnM I ColorModel := do
  let c ← get
  return c.colorModel

/-- The rounds of `for (t = 0; t < n; t += size)`. -/
def tileCount (size n : ℕ) : ℕ := (n + size - 1) / size

/-- The extent of the tile in round `i`. -/
def tileLength (size n i : ℕ) : ℕ := min (n - size * i) size

/-! ### Raw and CopyRect -/

/-- A row of `w` pixels, `bytesPerPixel` bytes each, goes to the bitmap. -/
def drawRow (m : ColorModel) (offset : ℤ) (w : ℕ) (row : List UInt8) : Client I Unit :=
  loop w fun i => setPixel (offset + i) (m.pixelColor (row.drop (i * m.bpp)))

def handleRawRect (x y w h : ℕ) : Client I Unit := do
  let layout ← getLayout
  let m ← rfb getColorModel
  let valid := layout.validDraw x y w h
  loop h fun j => do
    let row ← rfb (readFully (w * m.bpp : ℕ))
    (if valid then drawRow m (layout.offset x (y + j)) w row else pure ())

def handleCopyRect (x y w h : ℕ) : Client I Unit := do
  let _srcX ← rfb readUnsignedShort
  let _srcY ← rfb readUnsignedShort
  let layout ← getLayout
  if layout.validDraw x y w h then copyRect else pure ()

/-! ### RRE and CoRRE -/

/-- `readFully(rre_buf, 0, len)`, with a new buffer if the old one is too short. -/
def fillRreBuf (len : ℤ) : ConnM I Unit := do
  let bs ← readFully len
  modify fun c => { c with rreBuf := bs ++ c.rreBuf.drop bs.length }

/-- `rre_buf[i]` and the bytes after it, `k` in all. -/
def rreBufAt (i : ℤ) (k : ℕ) : ConnM I (List UInt8) := fun c =>
  if 0 ≤ i ∧ i + k ≤ c.rreBuf.length then .ok ((c.rreBuf.drop i.toNat).take k) c
  else .error .indexOutOfBounds c

/-- The coordinate with the number `k` in a list of coordinates of `size` bytes. -/
def coordinate (size k : ℕ) (bs : List UInt8) : ℕ := beNat ((bs.drop (k * size)).take size)

/-- The handlers of RRE and of CoRRE, whose coordinates have `size` bytes. Both read a buffer of
`bytesPerPixel + 8` bytes for each subrectangle. -/
def handleRRERectWith (size x y w h : ℕ) : Client I Unit := do
  let layout ← getLayout
  let m ← rfb getColorModel
  let valid := layout.validDraw x y w h
  let nSubrects ← rfb readInt
  let bg ← rfb (readFully m.bpp)
  (if valid then drawRect x y w h (m.paintColor bg) else pure ())
  rfb (fillRreBuf (wrap32 (nSubrects * (m.bpp + 8))))
  (if valid then
    loop nSubrects.toNat fun j => do
      let bs ← rfb (rreBufAt (wrap32 (j * (m.bpp + 4 * size : ℕ))) (m.bpp + 4 * size))
      let coords := bs.drop m.bpp
      drawRect (x + coordinate size 0 coords) (y + coordinate size 1 coords)
        (coordinate size 2 coords) (coordinate size 3 coords) (m.paintColor bs)
  else pure ())

def handleRRERect (x y w h : ℕ) : Client I Unit := handleRRERectWith 2 x y w h

def handleCoRRERect (x y w h : ℕ) : Client I Unit := handleRRERectWith 1 x y w h

/-! ### Hextile -/

def hextileRaw : ℕ := 1
def hextileBackgroundSpecified : ℕ := 2
def hextileForegroundSpecified : ℕ := 4
def hextileAnySubrects : ℕ := 8
def hextileSubrectsColoured : ℕ := 16

/-- A subrectangle of a tile, from the two bytes of its position and size. -/
def drawHextileSubrect (valid : Bool) (tx ty : ℕ) (color : UInt32) (bs : List UInt8) :
    Client I Unit :=
  let b1 := (bs.getD 0 0).toNat
  let b2 := (bs.getD 1 0).toNat
  if valid then
    drawRect (tx + (b1 >>> 4)) (ty + (b1 &&& 0xf)) ((b2 >>> 4) + 1) ((b2 &&& 0xf) + 1) color
  else pure ()

/-- The subrectangles of a tile: all in the foreground colour, or each with its own. -/
def handleHextileSubrects (m : ColorModel) (valid : Bool) (subencoding tx ty : ℕ) :
    Client I Unit := do
  let nSubrects ← rfb readUnsignedByte
  if subencoding &&& hextileSubrectsColoured = 0 then do
    rfb (fillRreBuf (nSubrects * 2 : ℕ))
    let c ← rfb get
    loop nSubrects fun j => do
      let bs ← rfb (rreBufAt (j * 2 : ℕ) 2)
      drawHextileSubrect valid tx ty c.hextileFg bs
  else do
    rfb (fillRreBuf (nSubrects * 2 + nSubrects * m.bpp : ℕ))
    loop nSubrects fun j => do
      let bs ← rfb (rreBufAt (j * (m.bpp + 2) : ℕ) (m.bpp + 2))
      rfb (modify fun c => c.setHextileFg (m.paintColor bs))
      drawHextileSubrect valid tx ty (m.paintColor bs) (bs.drop m.bpp)

/-- A tile that is not raw. -/
def handleHextileParts (subencoding tx ty tw th : ℕ) : Client I Unit := do
  let layout ← getLayout
  let m ← rfb getColorModel
  let valid := layout.validDraw tx ty tw th
  (if subencoding &&& hextileBackgroundSpecified ≠ 0 then do
    let bs ← rfb (readFully m.bpp)
    rfb (modify fun c => c.setHextileBg (m.paintColor bs))
  else pure ())
  let c ← rfb get
  (if valid then drawRect tx ty tw th c.hextileBg else pure ())
  (if subencoding &&& hextileForegroundSpecified ≠ 0 then do
    let bs ← rfb (readFully m.bpp)
    rfb (modify fun c => c.setHextileFg (m.paintColor bs))
  else pure ())
  (if subencoding &&& hextileAnySubrects ≠ 0 then
    handleHextileSubrects m valid subencoding tx ty
  else pure ())

def handleHextileSubrect (tx ty tw th : ℕ) : Client I Unit := do
  let subencoding ← rfb readUnsignedByte
  if subencoding &&& hextileRaw ≠ 0 then handleRawRect tx ty tw th
  else handleHextileParts subencoding tx ty tw th

def handleHextileRect (x y w h : ℕ) : Client I Unit := do
  rfb (modify fun c => (c.setHextileBg black).setHextileFg black)
  loop (tileCount 16 h) fun r =>
    loop (tileCount 16 w) fun k =>
      handleHextileSubrect (x + 16 * k) (y + 16 * r) (tileLength 16 w k) (tileLength 16 h r)

/-! ### Zlib -/

/-- A buffer of at least `nBytes` bytes; a new one gets `size` bytes. -/
def reserve (buf : Option ℕ) (nBytes size : ℤ) : ConnM I (Option ℕ) :=
  match buf with
  | some len => if len < nBytes then alloc size else pure buf
  | none => alloc size
where
  alloc (size : ℤ) : ConnM I (Option ℕ) :=
    if size < 0 then throw .negativeArraySize else pure (some size.toNat)

/-- `zlibInflater.inflate(handleZlibRectBuffer, 0, len)`: what the inflater does not fill stays as
it was. -/
def inflateRow (len : ℕ) : ConnM I (List UInt8) := fun c =>
  match I.inflate len c.zlibInflater with
  | none => .error .dataFormat c
  | some (out, st) =>
    let buffer := out ++ c.handleZlibRectBuffer.drop out.length
    .ok buffer { c with zlibInflater := st, handleZlibRectBuffer := buffer }

/-- The new input, and a row buffer of at least `len` bytes. -/
def Conn.startZlib (c : Conn I) (zlibBuf : Option ℕ) (data : List UInt8) (len : ℕ) : Conn I :=
  { c with
    zlibBuf := zlibBuf
    zlibInflater := I.setInput data c.zlibInflater
    handleZlibRectBuffer :=
      if c.handleZlibRectBuffer.length < len then List.replicate len 0
      else c.handleZlibRectBuffer }

/-- What `handleZlibRect` does before the rows. -/
def startZlibRect (len : ℕ) : ConnM I Unit := do
  let nBytes ← readInt
  let c ← get
  let zlibBuf ← reserve c.zlibBuf nBytes (wrap32 (nBytes * 2))
  let data ← readFully nBytes
  modify fun c => c.startZlib zlibBuf data len

def handleZlibRect (x y w h : ℕ) : Client I Unit := do
  let layout ← getLayout
  let m ← rfb getColorModel
  let valid := layout.validDraw x y w h
  rfb (startZlibRect (w * m.bpp))
  loop h fun j => do
    let row ← rfb (inflateRow (w * m.bpp))
    (if valid then drawRow m (layout.offset x (y + j)) w row else pure ())

/-! ### ZRLE -/

/-- The bytes of a pixel in the ZRLE data. -/
def ColorModel.cpixelSize (m : ColorModel) : ℕ :=
  match m.palette with
  | some _ => 1
  | none => 3

/-- The pixel in these bytes. -/
def ColorModel.cpixel (m : ColorModel) (bs : List UInt8) : UInt32 :=
  match m.palette with
  | some _ => (bs.getD 0 0).toUInt32
  | none => ((bs.getD 2 0).toUInt32 <<< 16) ||| ((bs.getD 1 0).toUInt32 <<< 8) |||
      (bs.getD 0 0).toUInt32

/-- What a tile stores for a pixel: its colour in the palette, if there is one. -/
def ColorModel.lookup (m : ColorModel) (pix : UInt32) : UInt32 :=
  match m.palette with
  | some colors => colors pix.toUInt8
  | none => pix

/-- The colour of a tile of one pixel value. -/
def ColorModel.solidColor (m : ColorModel) (pix : UInt32) : UInt32 :=
  match m.palette with
  | some colors => colors pix.toUInt8
  | none => 0xff000000 ||| pix

section Zrle

variable (fuel : ℕ)

def readPixel : ConnM I UInt32 := do
  let m ← getColorModel
  match m.palette with
  | some _ =>
    let p ← zrle (ZlibInStream.readU8 fuel)
    return p.toUInt32
  | none =>
    let p1 ← zrle (ZlibInStream.readU8 fuel)
    let p2 ← zrle (ZlibInStream.readU8 fuel)
    let p3 ← zrle (ZlibInStream.readU8 fuel)
    return m.cpixel [p1, p2, p3]

def readPixels (count : ℕ) : ConnM I (List UInt32) := do
  let m ← getColorModel
  let bs ← zrle (ZlibInStream.readBytes fuel (count * m.cpixelSize))
  return (List.range count).map fun i => m.cpixel (bs.drop (i * m.cpixelSize))

def readZrlePalette (palSize : ℕ) : ConnM I Unit := do
  let pixels ← readPixels fuel palSize
  modify fun c =>
    { c with handleZRLERectPalette := pixels ++ c.handleZRLERectPalette.drop pixels.length }

/-- `palette[index]`. -/
def paletteAt (index : ℕ) : ConnM I UInt32 := fun c =>
  match c.handleZRLERectPalette[index]? with
  | some pix => .ok pix c
  | none => .error .indexOutOfBounds c

/-- The rest of a row of packed pixels, `nbits` bits of `b` being left. -/
def readZrlePackedRow (bppp : ℕ) : ℕ → ℕ → ℕ → ConnM I (List UInt32)
  | 0, _, _ => pure []
  | n + 1, b, nbits => do
    let m ← getColorModel
    let (b, nbits) ←
      if nbits = 0 then do
        let b ← zrle (ZlibInStream.readU8 fuel)
        pure (b.toNat, 8)
      else pure (b, nbits)
    let nbits := nbits - bppp
    let index := (b >>> nbits) &&& (1 <<< bppp - 1) &&& 127
    let pix ← paletteAt index
    let rest ← readZrlePackedRow bppp n b nbits
    return m.lookup pix :: rest

/-- The number of bits of a packed pixel. -/
def bitsPerPackedPixel (palSize : ℕ) : ℕ :=
  if palSize > 16 then 8 else if palSize > 4 then 4 else if palSize > 2 then 2 else 1

/-- `readZrlePackedPixels`. -/
def readZrlePackedPixels (tw palSize : ℕ) : ℕ → ConnM I (List UInt32)
  | 0 => pure []
  | th + 1 => do
    let row ← readZrlePackedRow fuel (bitsPerPackedPixel palSize) tw 0 0
    let rest ← readZrlePackedPixels tw palSize th
    return row ++ rest

/-- The loop that adds up the length of a run. -/
def readRunLength : ℕ → ℤ → ConnM I ℤ
  | 0, _ => throw .noFuel
  | rounds + 1, len => do
    let b ← zrle (ZlibInStream.readU8 fuel)
    let len := wrap32 (len + b.toNat)
    if b = 255 then readRunLength rounds len else pure len

/-- The loop of `readZrlePlainRLEPixels`, with `left` pixels to go. -/
def readZrlePlainRLEPixels : ℕ → ℕ → ConnM I (List UInt32)
  | _, 0 => pure []
  | 0, _ + 1 => throw .noFuel
  | rounds + 1, left + 1 => do
    let m ← getColorModel
    let pix ← readPixel fuel
    let len ← readRunLength fuel fuel 1
    if len ≤ (left + 1 : ℕ) then do
      let rest ← readZrlePlainRLEPixels rounds (left + 1 - len.toNat)
      return List.replicate len.toNat (m.lookup pix) ++ rest
    else throw (.exception "ZRLE decoder: assertion failed (len <= end-ptr)")

/-- The loop of `readZrlePackedRLEPixels`. -/
def readZrlePackedRLEPixels : ℕ → ℕ → ConnM I (List UInt32)
  | _, 0 => pure []
  | 0, _ + 1 => throw .noFuel
  | rounds + 1, left + 1 => do
    let m ← getColorModel
    let index ← zrle (ZlibInStream.readU8 fuel)
    let len ← if index &&& 128 ≠ 0 then readRunLength fuel fuel 1 else pure 1
    if len ≤ (left + 1 : ℕ) then do
      let pix ← paletteAt (index &&& 127).toNat
      let rest ← readZrlePackedRLEPixels rounds (left + 1 - len.toNat)
      return List.replicate len.toNat (m.lookup pix) ++ rest
    else throw (.exception "ZRLE decoder: assertion failed (len <= end - ptr)")

/-- The pixels that a tile leaves in `zrleTilePixels`. -/
def readZrleTilePixels (rle : Bool) (palSize tw th : ℕ) : ConnM I (List UInt32) :=
  if rle then
    if palSize = 0 then readZrlePlainRLEPixels fuel fuel (tw * th)
    else readZrlePackedRLEPixels fuel fuel (tw * th)
  else
    if palSize = 0 then readPixels fuel (tw * th)
    else readZrlePackedPixels fuel tw palSize th

def handleUpdatedZrleTile (x y w h : ℕ) (pixels : List UInt32) : Client I Unit := do
  let layout ← getLayout
  loop h fun j => do
    rangeCheck (layout.offset x (y + j)) w
    loop w fun i => setPixel (layout.offset x (y + j) + i) (pixels.getD (j * w + i) 0)

/-- The body of the loops of `handleZRLERect`. -/
def handleZrleTile (valid : Bool) (tx ty tw th : ℕ) : Client I Unit := do
  let mode ← rfb (zrle (ZlibInStream.readU8 fuel))
  let palSize := (mode &&& 127).toNat
  rfb (readZrlePalette fuel palSize)
  if palSize = 1 then do
    let m ← rfb getColorModel
    let pix ← rfb (paletteAt 0)
    (if valid then drawRect tx ty tw th (m.solidColor pix) else pure ())
  else do
    let pixels ← rfb (readZrleTilePixels fuel (mode &&& 128 ≠ 0) palSize tw th)
    (if valid then handleUpdatedZrleTile tx ty tw th pixels else pure ())

/-- What `handleZRLERect` does before the tiles. -/
def startZRLERect : ConnM I Unit := do
  let nBytes ← readInt
  if nBytes > 64 * 1024 * 1024 then
    throw (.exception "ZRLE decoder: illegal compressed data size")
  else do
    let c ← get
    let zrleBuf ← reserve c.zrleBuf nBytes (nBytes + 4096)
    let data ← readFully nBytes
    modify fun c => { c with zrleBuf := zrleBuf }
    zrle (ZlibInStream.setUnderlying data nBytes)

def handleZRLERect (x y w h : ℕ) : Client I Unit := do
  rfb startZRLERect
  let layout ← getLayout
  let valid := layout.validDraw x y w h
  loop (tileCount 64 h) fun r =>
    loop (tileCount 64 w) fun k =>
      handleZrleTile fuel valid (x + 64 * k) (y + 64 * r) (tileLength 64 w k) (tileLength 64 h r)
  rfb (zrle (ZlibInStream.reset fuel))

end Zrle

end Limbo.Vnc
