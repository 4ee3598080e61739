import Limbo.Lib.Meets
import Limbo.Vnc.ZrleStream

/-!
# The decoder of a tile

The functions that decode one ZRLE tile, on the inflated bytes, with a record of the palette indices
they use and of the lengths of runs they come to. A length is an `int` to which any number of bytes
is added; the record keeps the number that it stands for beside it.
-/

namespace Limbo.Vnc.TileDecoder

open Lib

/-- The inflated bytes to come, `handleZRLERectPalette`, the pixels of `zrleTilePixels` so far (or
those of the rectangle that is drawn), and the record. -/
structure TileState where
  bytes : List UInt8
  palette : List UInt32
  pixels : List UInt32
  indices : List ℕ
  runs : List (ℤ × ℕ)
deriving DecidableEq

abbrev TileM := EStateM Exn TileState

def readU8 : TileM UInt8 := fun s =>
  match s.bytes with
  | [] => .error .eof s
  | b :: bytes => .ok b { s with bytes := bytes }

def readBytes (n : ℕ) : TileM (List UInt8) := fun s =>
  if n ≤ s.bytes.length then .ok (s.bytes.take n) { s with bytes := s.bytes.drop n }
  else .error .eof s

/-- `palette[index]`. -/
def paletteAt (index : ℕ) : TileM UInt32 := fun s =>
  match s.palette[index]? with
  | some pix => .ok pix { s with indices := s.indices ++ [index] }
  | none => .error .indexOutOfBounds s

/-- `zrleTilePixels[ptr++] = pixel`, for each of the pixels. -/
def store (pixels : List UInt32) : TileM Unit := fun s =>
  .ok () { s with pixels := s.pixels ++ pixels }

section Pixels

variable (m : ColorModel)

def readPixel : TileM UInt32 :=
  match m.palette with
  | some _ => do
    let p ← readU8
    return p.toUInt32
  | none => do
    let p1 ← readU8
    let p2 ← readU8
    let p3 ← readU8
    return m.cpixel [p1, p2, p3]

def readPixels (count : ℕ) : TileM (List UInt32) := do
  let bs ← readBytes (count * m.cpixelSize)
  return (List.range count).map fun i => m.cpixel (bs.drop (i * m.cpixelSize))

def readZrlePalette (palSize : ℕ) : TileM Unit := do
  let pixels ← readPixels m palSize
  modify fun s => { s with palette := pixels ++ s.palette.drop pixels.length }

def readZrleRawPixels (tw th : ℕ) : TileM Unit := do
  let pixels ← readPixels m (tw * th)
  store pixels

/-- `if (nbits == 0) { b = readU8(); nbits = 8; }` -/
def readPackedByte (b nbits : ℕ) : TileM (ℕ × ℕ) :=
  if nbits = 0 then do
    let b ← readU8
    return (b.toNat, 8)
  else return (b, nbits)

/-- A row of packed pixels, `nbits` bits of `b` being left. -/
def readZrlePackedRow (bppp : ℕ) : ℕ → ℕ → ℕ → TileM Unit
  | 0, _, _ => pure ()
  | n + 1, b, nbits => do
    let (b, nbits) ← readPackedByte b nbits
    let nbits := nbits - bppp
    let index := (b >>> nbits) &&& (1 <<< bppp - 1) &&& 127
    let pix ← paletteAt index
    store [m.lookup pix]
    readZrlePackedRow bppp n b nbits

/-- `for (int i = 0; i < th; i++)` -/
def readZrlePackedPixels (tw palSize : ℕ) : ℕ → TileM Unit
  | 0 => pure ()
  | th + 1 => do
    readZrlePackedRow m (bitsPerPackedPixel palSize) tw 0 0
    readZrlePackedPixels tw palSize th

/-- `do { b = readU8(); len += b; } while (b == 255);` with the number that `len` stands for. -/
def runLength : List UInt8 → ℤ → ℕ → Option (ℤ × ℕ × List UInt8)
  | [], _, _ => none
  | b :: bytes, len, total =>
    if b = 255 then runLength bytes (wrap32 (len + b.toNat)) (total + b.toNat)
    else some (wrap32 (len + b.toNat), total + b.toNat, bytes)

/-- The length of a run, from `int len = 1` on. -/
def readRunLength : TileM ℤ := fun s =>
  match runLength s.bytes 1 1 with
  | none => .error .eof { s with bytes := [] }
  | some (len, total, bytes) =>
    .ok len { s with bytes := bytes, runs := s.runs ++ [(len, total)] }

/-- A run of plain RLE with `left` pixels to go: its pixel and its length. -/
def readPlainRun (left : ℕ) : TileM (UInt32 × ℤ) := do
  let pix ← readPixel m
  let len ← readRunLength
  if len ≤ left then return (m.lookup pix, len)
  else throw (.exception "ZRLE decoder: assertion failed (len <= end-ptr)")

/-- The length of a palette run; only that of a run of several pixels is read and checked. -/
def readPackedLength (index : UInt8) (left : ℕ) : TileM ℤ :=
  if index &&& 128 ≠ 0 then do
    let len ← readRunLength
    if len ≤ left then return len
    else throw (.exception "ZRLE decoder: assertion failed (len <= end - ptr)")
  else do
    modify fun s => { s with runs := s.runs ++ [(1, 1)] }
    return 1

/-- A run of palette RLE. -/
def readPackedRun (left : ℕ) : TileM (UInt32 × ℤ) := do
  let index ← readU8
  let len ← readPackedLength index left
  let pix ← paletteAt (index &&& 127).toNat
  return (m.lookup pix, len)

/-- `while (ptr < end)`: `len--` pixels a round, as long as `len` is positive. -/
def readRuns (readRun : ℕ → TileM (UInt32 × ℤ)) (end_ : ℕ) : ℕ → TileM Unit
  | 0 => fun s => if s.pixels.length < end_ then .error .noFuel s else .ok () s
  | rounds + 1 => fun s =>
    if s.pixels.length < end_ then
      (readRun (end_ - s.pixels.length) >>= fun run =>
        store (List.replicate run.2.toNat run.1) >>= fun _ => readRuns readRun end_ rounds) s
    else .ok () s

/-- A round reads at least one byte. -/
def readZrlePlainRLEPixels (tw th : ℕ) : TileM Unit := fun s =>
  readRuns (readPlainRun m) (tw * th) (s.bytes.length + 1) s

def readZrlePackedRLEPixels (tw th : ℕ) : TileM Unit := fun s =>
  readRuns (readPackedRun m) (tw * th) (s.bytes.length + 1) s

/-- What comes after the palette. -/
def readZrleTilePixels (tw th : ℕ) (rle : Bool) (palSize : ℕ) : TileM Unit :=
  if palSize = 1 then do
    let pix ← paletteAt 0
    store (List.replicate (tw * th) (m.solidColor pix))
  else if rle then
    if palSize = 0 then readZrlePlainRLEPixels m tw th
    else readZrlePackedRLEPixels m tw th
  else
    if palSize = 0 then readZrleRawPixels m tw th
    else readZrlePackedPixels m tw palSize th

/-- A tile, from its mode on. -/
def decodeTile (tw th : ℕ) : TileM Unit := do
  let mode ← readU8
  let palSize := (mode &&& 127).toNat
  readZrlePalette m palSize
  readZrleTilePixels m tw th (mode &&& 128 ≠ 0) palSize

end Pixels

end Limbo.Vnc.TileDecoder
