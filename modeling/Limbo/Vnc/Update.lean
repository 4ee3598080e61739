import Limbo.Vnc.Hextile
import Limbo.Vnc.Protocol
import Limbo.Vnc.Zrle

/-!
# The rectangles of an update

A rectangle of an update as the protocol has it: its bytes, what makes it well formed, and what the
client writes for it. The client takes all of a rectangle off the stream unless its encoding is one
of those that it cannot take.
-/

namespace Limbo.Vnc

open Lib

variable {I : Inflater} {c c' : Conn I} {l : Layout} {m : ColorModel} {x y w h fuel : ℕ}
  {rest : List UInt8} {P : I.State → I.State → Prop}

/-! ### Encodings -/

def Subrect.Inside {size : ℕ} (r : Subrect size) (w h : ℕ) : Prop :=
  r.x + r.w ≤ w ∧ r.y + r.h ≤ h

def HextileSubrect.Inside (r : HextileSubrect) (tw th : ℕ) : Prop :=
  r.x + r.w + 1 ≤ tw ∧ r.y + r.h + 1 ≤ th

/-- The subrectangles of a tile are in the tile. -/
def HextileInside (tiles : List HextileTile) (w h : ℕ) : Prop :=
  ∀ r k t, k < tileCount 16 w → tiles[r * tileCount 16 w + k]? = some t → t.AnySubrects →
    ∀ s ∈ t.subrects, s.2.Inside (tileLength 16 w k) (tileLength 16 h r)

namespace Encoding

def code : Encoding → ℤ
  | raw _ => encodingRaw
  | copyRect .. => encodingCopyRect
  | rre .. => encodingRRE
  | coRRE .. => encodingCoRRE
  | hextile _ => encodingHextile
  | zlib .. => encodingZlib
  | zrle .. => encodingZRLE
  | lastRect => encodingLastRect
  | newFBSize => encodingNewFBSize

/-- The bytes after the header. -/
def bytes (m : ColorModel) : Encoding → List UInt8
  | raw pixels => pixels.flatMap (Pixel.bytes m)
  | copyRect srcX srcY => beBytes 2 srcX.toNat ++ beBytes 2 srcY.toNat
  | rre bg subrects =>
    intBytes subrects.length ++ (bg.bytes m ++ subrects.flatMap (Subrect.bytes · m))
  | coRRE bg subrects =>
    intBytes subrects.length ++ (bg.bytes m ++ subrects.flatMap (Subrect.bytes · m))
  | hextile tiles => tiles.flatMap (HextileTile.bytes m)
  | zlib data _ | zrle data _ => intBytes data.length ++ data
  | lastRect | newFBSize => []

/-- What the protocol asks of the data of a rectangle of this size. -/
def WellFormed (w h : ℕ) : Encoding → Prop
  | raw pixels => pixels.length = w * h
  | rre _ subrects => subrects.length < 4294967296 ∧ ∀ r ∈ subrects, r.Inside w h
  | coRRE _ subrects => subrects.length < 4294967296 ∧ ∀ r ∈ subrects, r.Inside w h
  | hextile tiles => HextileFramed tiles w h ∧ HextileInside tiles w h
  | zlib data pixels => data.length < 4294967296 ∧ pixels.length = w * h
  | zrle data tiles => data.length < 4294967296 ∧ ZrleFramed tiles w h
  | copyRect .. | lastRect | newFBSize => True

/-- What the client can take: no copy into the part of the frame that the bitmap has, no
subrectangles of CoRRE, and no data that is longer than its buffers. -/
def Taken (m : ColorModel) (l : Layout) (x y w h : ℕ) : Encoding → Prop
  | copyRect .. => l.validDraw x y w h = false
  | rre _ subrects => subrects.length * (m.bpp + 8) < 2147483648
  | coRRE _ subrects => subrects = []
  | zlib data _ => data.length < 1073741824
  | zrle data _ => data.length ≤ 67108864
  | raw _ | hextile _ | lastRect | newFBSize => True

/-- What the client writes for the rectangle. -/
def writes (m : ColorModel) (l : Layout) (x y w h : ℕ) : Encoding → List (ℤ × UInt32)
  | raw pixels | zlib _ pixels => rawWrites l m x y w h pixels
  | rre bg subrects => rreWrites l m x y w h bg subrects
  | coRRE bg subrects => rreWrites l m x y w h bg subrects
  | hextile tiles => hextileWrites l m x y w h tiles
  | zrle _ tiles => zrleWrites l m x y w h tiles
  | copyRect .. | lastRect | newFBSize => []

/-- The inflaters make of the data of the rectangle what it is said to be compressed from, and then
`P` holds of them. -/
def Inflates (I : Inflater) (m : ColorModel) (P : I.State → I.State → Prop) (e : Encoding)
    (zlibInflater zrleInflater : I.State) : Prop :=
  match e with
  | zlib data pixels =>
    InflatesRows I (fun st => P st zrleInflater) (I.setInput data zlibInflater)
      (pixels.flatMap (Pixel.bytes m))
  | zrle data tiles =>
    I.needsInput zrleInflater = true ∧
      InflatesData I (fun st => P zlibInflater st) zrleInflater data
        (tiles.flatMap (ZrleTile.bytes m))
  | raw _ | copyRect .. | rre .. | coRRE .. | hextile _ | lastRect | newFBSize =>
    P zlibInflater zrleInflater

end Encoding

/-! ### Writes in the array -/

/-- The frame has the rectangle, if it is the frame that is in the array. -/
def Layout.Takes (l : Layout) (x y w h : ℕ) : Prop :=
  match l with
  | full .. => l.Holds x y w h
  | large .. => True

lemma Layout.Takes.holds (htakes : l.Takes x y w h) (hvalid : l.validDraw x y w h = true) :
    l.Holds x y w h := by
  cases l with
  | full fw fh => exact htakes
  | large xo yo bw bh => exact Layout.holds_of_validDraw hvalid

lemma Layout.Holds.mono {x' y' w' h' : ℕ} (hold : l.Holds x y w h) (hx : x ≤ x')
    (hxw : x' + w' ≤ x + w) (hy : y ≤ y') (hyh : y' + h' ≤ y + h) : l.Holds x' y' w' h' := by
  cases l with
  | full fw fh =>
    obtain ⟨hw, hh⟩ := hold
    exact ⟨hxw.trans hw, hyh.trans hh⟩
  | large xo yo bw bh =>
    obtain ⟨hleft, hright, htop, hbottom⟩ := hold
    refine ⟨?_, ?_, ?_, ?_⟩ <;> omega

lemma Layout.Takes.mono {x' y' w' h' : ℕ} (htakes : l.Takes x y w h) (hx : x ≤ x')
    (hxw : x' + w' ≤ x + w) (hy : y ≤ y') (hyh : y' + h' ≤ y + h) : l.Takes x' y' w' h' := by
  cases l with
  | large xo yo bw bh => trivial
  | full fw fh => exact Layout.Holds.mono (l := .full fw fh) htakes hx hxw hy hyh

lemma tile_le {size n i : ℕ} (hi : i < tileCount size n) (hsize : 0 < size) :
    size * i + tileLength size n i ≤ n := by
  have hpos := tileLength_pos hsize hi
  unfold tileLength at *
  omega

/-- A tile of the rectangle is in it. -/
lemma tile_add_le {size i : ℕ} (hi : i < tileCount size w) (hsize : 0 < size) :
    x + size * i + tileLength size w i ≤ x + w := by
  have hle := tile_le hi hsize
  omega

lemma Layout.Takes.tile {size r k : ℕ} (htakes : l.Takes x y w h) (hsize : 0 < size)
    (hr : r < tileCount size h) (hk : k < tileCount size w) :
    l.Takes (x + size * k) (y + size * r) (tileLength size w k) (tileLength size h r) :=
  htakes.mono (Nat.le_add_right _ _) (tile_add_le hk hsize) (Nat.le_add_right _ _)
    (tile_add_le hr hsize)

lemma Layout.Holds.tile {size r k : ℕ} (hold : l.Holds x y w h) (hsize : 0 < size)
    (hr : r < tileCount size h) (hk : k < tileCount size w) :
    l.Holds (x + size * k) (y + size * r) (tileLength size w k) (tileLength size h r) :=
  hold.mono (Nat.le_add_right _ _) (tile_add_le hk hsize) (Nat.le_add_right _ _)
    (tile_add_le hr hsize)

section InArray

variable {ws ws' : List (ℤ × UInt32)}

lemma Layout.inArray_append : l.InArray (ws ++ ws') ↔ l.InArray ws ∧ l.InArray ws' :=
  List.forall_mem_append

lemma Layout.inArray_if {p : Prop} [Decidable p] (hws : p → l.InArray ws) :
    l.InArray (if p then ws else []) := by
  split_ifs with hp
  · exact hws hp
  · exact List.forall_mem_nil _

lemma Layout.inArray_flatMap {α : Type} {as : List α} {f : α → List (ℤ × UInt32)}
    (hf : ∀ a ∈ as, l.InArray (f a)) : l.InArray (as.flatMap f) := by
  intro p hp
  obtain ⟨a, ha, hpa⟩ := List.mem_flatMap.mp hp
  exact hf a ha p hpa

variable (hsize : l.bitmapwidth * l.bitmapheight < 2147483648)
include hsize

lemma inArray_drawWrites {b : Block} (htakes : l.Takes b.x b.y b.w b.h) :
    l.InArray (drawWrites l b) := by
  cases l with
  | large xo yo bw bh => exact List.forall_mem_nil _
  | full fw fh => exact Block.inArray htakes hsize

lemma inArray_rawWrites {pixels : List Pixel} (htakes : l.Takes x y w h) :
    l.InArray (rawWrites l m x y w h pixels) :=
  Layout.inArray_if fun hvalid => Block.inArray (b := pixelBlock m x y w h pixels)
    (htakes.holds hvalid) hsize

lemma inArray_rreWrites {size : ℕ} {bg : Pixel} {subrects : List (Subrect size)}
    (htakes : l.Takes x y w h) (hinside : ∀ r ∈ subrects, r.Inside w h) :
    l.InArray (rreWrites l m x y w h bg subrects) := by
  apply Layout.inArray_if
  intro _
  apply Layout.inArray_append.mpr
  refine ⟨inArray_drawWrites hsize htakes, Layout.inArray_flatMap fun r hr => ?_⟩
  obtain ⟨hw, hh⟩ := hinside r hr
  apply inArray_drawWrites hsize
  exact htakes.mono (Nat.le_add_right _ _) (by simp only [Subrect.block]; omega)
    (Nat.le_add_right _ _) (by simp only [Subrect.block]; omega)

lemma inArray_hextileWrites {tiles : List HextileTile} (htakes : l.Takes x y w h)
    (hinside : HextileInside tiles w h) : l.InArray (hextileWrites l m x y w h tiles) := by
  apply Layout.inArray_flatMap
  intro r hr
  apply Layout.inArray_flatMap
  intro k hk
  have hk' := List.mem_range.mp hk
  have htile := htakes.tile (by decide) (List.mem_range.mp hr) hk'
  cases ht : tiles[r * tileCount 16 w + k]? with
  | none => exact List.forall_mem_nil _
  | some t =>
    show l.InArray (t.writes m l _ _ _ _ _ _)
    unfold HextileTile.writes
    split_ifs with hraw
    · exact inArray_rawWrites hsize htile
    · apply Layout.inArray_append.mpr
      refine ⟨Layout.inArray_if fun _ => inArray_drawWrites hsize htile, ?_⟩
      apply Layout.inArray_if
      intro hany
      apply Layout.inArray_flatMap
      intro s hs
      obtain ⟨hw, hh⟩ := hinside r k t hk' ht hany s hs
      apply Layout.inArray_if
      intro _
      apply inArray_drawWrites hsize
      exact htile.mono (Nat.le_add_right _ _) (by simp only [HextileSubrect.block]; omega)
        (Nat.le_add_right _ _) (by simp only [HextileSubrect.block]; omega)

lemma inArray_zrleWrites {tiles : List ZrleTile} (htakes : l.Takes x y w h) :
    l.InArray (zrleWrites l m x y w h tiles) := by
  apply Layout.inArray_flatMap
  intro r hr
  apply Layout.inArray_flatMap
  intro k hk
  have hr' := List.mem_range.mp hr
  have hk' := List.mem_range.mp hk
  have htile := htakes.tile (by decide) hr' hk'
  cases tiles[r * tileCount 64 w + k]? with
  | none => exact List.forall_mem_nil _
  | some t =>
    apply Layout.inArray_if
    intro hvalid
    have hheld := (htakes.holds hvalid).tile (by decide) hr' hk'
    cases t with
    | solid p => exact inArray_drawWrites hsize htile
    | _ => exact Block.inArray hheld hsize

end InArray

/-! ### One rectangle -/

/-- A rectangle of an update. -/
structure Rect where
  x : UInt16
  y : UInt16
  w : UInt16
  h : UInt16
  encoding : Encoding

namespace Rect

variable (r : Rect)

def hdr : RectHdr := ⟨r.x.toNat, r.y.toNat, r.w.toNat, r.h.toNat, r.encoding.code⟩

def hdrBytes : List UInt8 :=
  beBytes 2 r.x.toNat ++ (beBytes 2 r.y.toNat ++ (beBytes 2 r.w.toNat ++ (beBytes 2 r.h.toNat ++
    intBytes r.encoding.code)))

def bytes (m : ColorModel) : List UInt8 := r.hdrBytes ++ r.encoding.bytes m

def WellFormed : Prop := r.encoding.WellFormed r.w.toNat r.h.toNat

/-- What the client can take: it knows what to do with the data, and has the part of the frame that
the rectangle is for. -/
def Taken (m : ColorModel) (l : Layout) : Prop :=
  r.encoding.Taken m l r.x.toNat r.y.toNat r.w.toNat r.h.toNat ∧
    l.Takes r.x.toNat r.y.toNat r.w.toNat r.h.toNat

def writes (m : ColorModel) (l : Layout) : List (ℤ × UInt32) :=
  r.encoding.writes m l r.x.toNat r.y.toNat r.w.toNat r.h.toNat

end Rect

lemma Rect.inArray_writes {r : Rect} (hsize : l.bitmapwidth * l.bitmapheight < 2147483648)
    (hwf : r.WellFormed) (htaken : r.Taken m l) : l.InArray (r.writes m l) := by
  obtain ⟨x, y, w, h, e⟩ := r
  obtain ⟨-, htakes⟩ := htaken
  cases e with
  | raw pixels | zlib data pixels => exact inArray_rawWrites hsize htakes
  | rre bg subrects | coRRE bg subrects => exact inArray_rreWrites hsize htakes hwf.2
  | hextile tiles => exact inArray_hextileWrites hsize htakes hwf.2
  | zrle data tiles => exact inArray_zrleWrites hsize htakes
  | copyRect srcX srcY | lastRect | newFBSize => exact List.forall_mem_nil _

/-- The connections differ in the stream and what the decoders keep only. -/
def Conn.SameProtocol (c c' : Conn I) : Prop :=
  c' = { c with
    is := c'.is, hextileBg := c'.hextileBg, hextileFg := c'.hextileFg, rreBuf := c'.rreBuf,
    zlibBuf := c'.zlibBuf, zlibInflater := c'.zlibInflater,
    handleZlibRectBuffer := c'.handleZlibRectBuffer, zrleBuf := c'.zrleBuf,
    zrleInStream := c'.zrleInStream, handleZRLERectPalette := c'.handleZRLERectPalette }

namespace Conn.SameProtocol

lemma trans {c'' : Conn I} (h : c.SameProtocol c') (h' : c'.SameProtocol c'') :
    c.SameProtocol c'' := by
  unfold SameProtocol at *
  rw [h', h]

lemma of_sameSession (h : c.SameSession c') : c.SameProtocol c' := by
  unfold SameProtocol
  rw [h]

lemma of_sameButZlib (h : c.SameButZlib c') : c.SameProtocol c' := by
  unfold SameProtocol
  rw [h]

lemma of_sameButZrle (h : c.SameButZrle c') : c.SameProtocol c' := by
  unfold SameProtocol
  rw [h]

end Conn.SameProtocol

/-- What the handler of a rectangle has to do: take its bytes off the stream, make its writes, and
leave the inflaters at the end of its data. -/
def Handles (x : Client I Unit) (c : Conn I) (l : Layout) (ws : List (ℤ × UInt32))
    (rest : List UInt8) (P : I.State → I.State → Prop) : Prop :=
  ∃ c', Runs x (c, l) ws () (c', l) ∧ c'.is = rest ∧ c.SameProtocol c' ∧
    P c'.zlibInflater c'.zrleInStream.inflater

lemma handles_handleRRERectWith {size : ℕ} (hsize : size ≤ 2) {bg : Pixel}
    {subrects : List (Subrect size)} {skipped : List UInt8}
    (hskipped : skipped.length + 4 * size * subrects.length = 8 * subrects.length)
    (hsmall : subrects.length * (m.bpp + 8) < 2147483648) (hm : c.colorModel = m)
    (hc : c.is = intBytes subrects.length ++ (bg.bytes m ++
      (subrects.flatMap (Subrect.bytes · m) ++ skipped ++ rest)))
    (hP : P c.zlibInflater c.zrleInStream.inflater) :
    Handles (handleRRERectWith size x y w h) c l (rreWrites l m x y w h bg subrects) rest P :=
  ⟨_, runs_handleRRERectWith hsize hskipped hsmall hm hc, rfl, rfl, hP⟩

/-- Each rectangle that the client can take is read to its end. -/
theorem handles_handleRect {r : Rect} (hwf : r.WellFormed) (htaken : r.Taken m l)
    (hfuel : 4096 ≤ fuel) (hm : c.colorModel = m) (hc : c.is = r.encoding.bytes m ++ rest)
    (hP : r.encoding.Inflates I m P c.zlibInflater c.zrleInStream.inflater) :
    Handles (handleRect (fuel + 1) r.hdr) c l (r.writes m l) rest P := by
  obtain ⟨x, y, w, h, e⟩ := r
  obtain ⟨htaken, -⟩ := htaken
  cases e with
  | raw pixels =>
    exact ⟨_, runs_handleRawRect hwf hm hc, rfl, rfl, hP⟩
  | copyRect srcX srcY =>
    have hvalid : l.validDraw x.toNat y.toNat w.toNat h.toNat = false := htaken
    have hc : c.is = beBytes 2 srcX.toNat ++ (beBytes 2 srcY.toNat ++ rest) := by
      rw [hc, ← List.append_assoc]
      rfl
    refine ⟨c.next rest, ?_, rfl, rfl, hP⟩
    show Runs (handleCopyRect x.toNat y.toNat w.toNat h.toNat) _ _ _ _
    apply Does.bind_read (runs_rfb (readUnsignedShort_append srcX.toNat_lt hc))
    apply Does.bind_read (runs_rfb (readUnsignedShort_append srcY.toNat_lt rfl))
    apply Does.bind_read runs_getLayout
    show Runs (if l.validDraw x.toNat y.toNat w.toNat h.toNat = true then _ else _) _ _ _ _
    rw [if_neg (by simp [hvalid])]
    exact Does.pure () _
  | rre bg subrects =>
    have hc : c.is = intBytes subrects.length ++ (bg.bytes m ++
        (subrects.flatMap (Subrect.bytes · m) ++ [] ++ rest)) := by
      rw [hc]
      simp [Encoding.bytes]
    exact handles_handleRRERectWith le_rfl (by simp) htaken hm hc hP
  | coRRE bg subrects =>
    obtain rfl : subrects = [] := htaken
    have hc : c.is = intBytes ([] : List (Subrect 1)).length ++ (bg.bytes m ++
        (([] : List (Subrect 1)).flatMap (Subrect.bytes · m) ++ [] ++ rest)) := by
      rw [hc]
      simp [Encoding.bytes]
    exact handles_handleRRERectWith one_le_two rfl (by simp) hm hc hP
  | hextile tiles =>
    obtain ⟨c', hrun, his, hsame⟩ := runs_handleHextileRect (x := x.toNat) (y := y.toNat) (l := l)
      hwf.1 hm hc
    refine ⟨c', hrun, his, .of_sameSession hsame, ?_⟩
    rw [hsame]
    exact hP
  | zlib data pixels =>
    have hc : c.is = intBytes data.length ++ (data ++ rest) := by
      rw [hc, ← List.append_assoc]
      rfl
    obtain ⟨c', hrun, his, hsame, hQ⟩ := runs_handleZlibRect (x := x.toNat) (y := y.toNat) (l := l)
      hwf.2 htaken hm hP hc
    refine ⟨c', hrun, his, .of_sameButZlib hsame, ?_⟩
    rw [hsame]
    exact hQ
  | zrle data tiles =>
    have hc : c.is = intBytes data.length ++ (data ++ rest) := by
      rw [hc, ← List.append_assoc]
      rfl
    obtain ⟨hneeds, hinflates⟩ := hP
    obtain ⟨c', hrun, his, hsame, -, hQ⟩ := runs_handleZRLERect (x := x.toNat) (y := y.toNat)
      (l := l) hwf.2 htaken hfuel hm hneeds hinflates hc
    refine ⟨c', hrun, his, .of_sameButZrle hsame, ?_⟩
    rw [hsame]
    exact hQ
  | lastRect => exact ⟨c, Does.pure () _, hc, rfl, hP⟩
  | newFBSize => exact ⟨c, Does.pure () _, hc, rfl, hP⟩

end Limbo.Vnc
