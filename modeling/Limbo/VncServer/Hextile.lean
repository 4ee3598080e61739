import Limbo.VncServer.PixelFormat

/-!
# Sending Hextile rectangles

`send_hextile_tile` and the loop over the tiles. The background and the foreground are carried from
tile to tile.
-/

namespace Limbo.VncServer

open Vnc

/-! ### Counting colours -/

/-- What `send_hextile_tile` knows of the colours of the tile; three stand for more than two. -/
structure Colors where
  nColors : ℕ
  bg : UInt32
  fg : UInt32
  bgCount : ℕ
  fgCount : ℕ

namespace Colors

def count (s : Colors) (pixel : UInt32) : Colors :=
  match s.nColors with
  | 0 => { s with bg := pixel, nColors := 1 }
  | 1 => if pixel ≠ s.bg then { s with fg := pixel, nColors := 2 } else s
  | 2 =>
    if pixel ≠ s.bg ∧ pixel ≠ s.fg then { s with nColors := 3 }
    else if pixel = s.bg then { s with bgCount := s.bgCount + 1 }
    else if pixel = s.fg then { s with fgCount := s.fgCount + 1 }
    else s
  | _ => s

/-- The rows, up to one with a third colour. -/
def countRows (s : Colors) : List (List UInt32) → Colors
  | [] => s
  | row :: rows =>
    let s := row.foldl count s
    if s.nColors > 2 then s else s.countRows rows

/-- The more frequent of two colours becomes the background. -/
def swap (s : Colors) : Colors :=
  if s.nColors > 1 ∧ s.fgCount > s.bgCount then { s with fg := s.bg, bg := s.fg } else s

end Colors

/-! ### Subrectangles -/

/-- A subrectangle of the tile. -/
structure Subtile where
  color : UInt32
  x : ℕ
  y : ℕ
  w : ℕ
  h : ℕ

def hextileEncCord (t : Subtile) : List UInt8 :=
  [UInt8.ofNat (((t.x &&& 0x0f) <<< 4) ||| (t.y &&& 0x0f)),
    UInt8.ofNat ((((t.w - 1) &&& 0x0f) <<< 4) ||| ((t.h - 1) &&& 0x0f))]

/-- A row of a tile with two colours: `min_x`, if it is not -1, and the subrectangles so far. -/
structure PlainRow where
  minX : Option ℕ
  subtiles : List Subtile

/-- The pixel `i` of row `j`. -/
def PlainRow.next (fg : UInt32) (j : ℕ) (s : PlainRow) (pixel : UInt32) (i : ℕ) : PlainRow :=
  if pixel = fg then
    match s.minX with
    | none => { s with minX := some i }
    | some _ => s
  else
    match s.minX with
    | none => s
    | some minX => { minX := none, subtiles := s.subtiles ++ [⟨fg, minX, j, i - minX, 1⟩] }

/-- The row from pixel `i` on. -/
def PlainRow.scan (fg : UInt32) (j : ℕ) (s : PlainRow) (i : ℕ) : List UInt32 → List Subtile
  | [] =>
    match s.minX with
    | none => s.subtiles
    | some minX => s.subtiles ++ [⟨fg, minX, j, i - minX, 1⟩]
  | pixel :: row => scan fg j (s.next fg j pixel i) (i + 1) row

/-- A row of a tile with more colours: `color` and `min_x`, if `has_color`. -/
structure ColouredRow where
  color : Option (UInt32 × ℕ)
  subtiles : List Subtile

def ColouredRow.next (bg : UInt32) (j : ℕ) (s : ColouredRow) (pixel : UInt32) (i : ℕ) :
    ColouredRow :=
  match s.color with
  | none => if pixel = bg then s else { s with color := some (pixel, i) }
  | some (color, minX) =>
    if pixel ≠ color then
      { color := if pixel ≠ bg then some (pixel, i) else none
        subtiles := s.subtiles ++ [⟨color, minX, j, i - minX, 1⟩] }
    else s

def ColouredRow.scan (bg : UInt32) (j : ℕ) (s : ColouredRow) (i : ℕ) : List UInt32 → List Subtile
  | [] =>
    match s.color with
    | none => s.subtiles
    | some (color, minX) => s.subtiles ++ [⟨color, minX, j, i - minX, 1⟩]
  | pixel :: row => scan bg j (s.next bg j pixel i) (i + 1) row

/-- The subrectangles of the tile, row by row. -/
def Colors.subtiles (s : Colors) (rows : List (List UInt32)) : List Subtile :=
  match s.nColors with
  | 2 => rows.zipIdx.flatMap fun p => PlainRow.scan s.fg p.2 ⟨none, []⟩ 0 p.1
  | 3 => rows.zipIdx.flatMap fun p => ColouredRow.scan s.bg p.2 ⟨none, []⟩ 0 p.1
  | _ => []

/-! ### Tiles -/

/-- What is carried from tile to tile. -/
structure Carried where
  lastBg : UInt32
  lastFg : UInt32
  hasBg : Bool
  hasFg : Bool

namespace VncState

variable (vs : VncState)

/-- The bytes of a subrectangle in `data`. -/
def subtileBytes (colors : Colors) (t : Subtile) : List UInt8 :=
  if colors.nColors = 3 then vs.writePixel t.color ++ hextileEncCord t else hextileEncCord t

/-- The subrectangles take more room than the pixels. -/
def TooLong (colors : Colors) (rows : List (List UInt32)) (w h : ℕ) : Prop :=
  colors.nColors = 3 ∧
    ((colors.subtiles rows).flatMap (vs.subtileBytes colors)).length > w * h * vs.sizeofPixel

instance (colors : Colors) (rows : List (List UInt32)) (w h : ℕ) :
    Decidable (vs.TooLong colors rows w h) := inferInstanceAs (Decidable (_ ∧ _))

/-- `send_hextile_tile` for the tile with these rows: what is written, and what is carried on. -/
def sendHextileTile (rows : List (List UInt32)) (w h : ℕ) (s : Carried) : List UInt8 × Carried :=
  let colors := (Colors.countRows ⟨0, 0, 0, 0, 0⟩ rows).swap
  let subtiles := colors.subtiles rows
  let data := subtiles.flatMap (vs.subtileBytes colors)
  let newBg : Bool := ¬ s.hasBg ∨ s.lastBg ≠ colors.bg
  let newFg : Bool := colors.nColors < 3 ∧ (¬ s.hasFg ∨ s.lastFg ≠ colors.fg)
  let s := if newBg then { s with hasBg := true, lastBg := colors.bg } else s
  let s := if newFg then { s with hasFg := true, lastFg := colors.fg } else s
  -- with three colours the background is tested once more, but by then it is the last one
  let s := if colors.nColors = 3 then { s with hasFg := false } else s
  if vs.TooLong colors rows w h then
    (0x01 :: rows.flatMap fun row => row.flatMap vs.writePixel,
      { s with hasBg := false, hasFg := false })
  else
    let flags : UInt8 := (if newBg then 0x02 else 0) ||| (if newFg then 0x04 else 0) |||
      (if colors.nColors = 2 then 0x08 else if colors.nColors = 3 then 0x18 else 0)
    (flags ::
      ((if flags &&& 0x02 ≠ 0 then vs.writePixel s.lastBg else []) ++
        ((if flags &&& 0x04 ≠ 0 then vs.writePixel s.lastFg else []) ++
          if subtiles.length ≠ 0 then UInt8.ofNat subtiles.length :: data else [])), s)

end VncState

/-- The pixels of a rectangle of the frame, row by row. -/
def Framebuffer.rows (fb : Framebuffer) (x y w h : ℕ) : List (List UInt32) :=
  (List.range h).map fun j => (List.range w).map fun i => fb.pixel (x + i) (y + j)

/-- The tile `k` of the row `r` of tiles is sent. -/
def VncState.sendTile (vs : VncState) (x y w h : ℕ) (p : List UInt8 × Carried) (r k : ℕ) :
    List UInt8 × Carried :=
  let tw := tileLength 16 w k
  let th := tileLength 16 h r
  let (bytes, s) :=
    vs.sendHextileTile (vs.fb.rows (x + 16 * k) (y + 16 * r) tw th) tw th p.2
  (p.1 ++ bytes, s)

/-- The bytes that `vnc_hextile_send_framebuffer_update()` writes. The colours that it allocates are
not looked at until they are set. -/
def VncState.vncHextileSendFramebufferUpdate (vs : VncState) (x y w h : ℕ) : List UInt8 :=
  ((List.range (tileCount 16 h)).foldl (fun p r =>
    (List.range (tileCount 16 w)).foldl (fun p k => vs.sendTile x y w h p r k) p)
    ([], ⟨0, 0, false, false⟩)).1

end Limbo.VncServer
