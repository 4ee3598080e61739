import Limbo.Vnc.Encoding
import Limbo.Vnc.Paint

/-!
# Raw and RRE rectangles

What the handlers of Raw, RRE and CoRRE rectangles read and write.
-/

namespace Limbo.Vnc

open Lib

variable {I : Inflater} {c : Conn I} {l : Layout} {v : Conn I × Layout} {m : ColorModel}
  {x y w h : ℕ} {rest : List UInt8}

lemma runs_getColorModel : Runs (rfb getColorModel) (c, l) [] c.colorModel (c, l) :=
  runs_rfb rfl

lemma rowWrites_congr {o : ℤ} {f g : ℕ → UInt32} (hfg : ∀ i < w, f i = g i) :
    rowWrites o w f = rowWrites o w g := by
  apply List.map_congr_left
  intro i hi
  rw [hfg i (List.mem_range.mp hi)]

/-! ### Raw -/

/-- Pixels in rows, as a block. -/
def pixelBlock (m : ColorModel) (x y w h : ℕ) (pixels : List Pixel) : Block :=
  ⟨x, y, w, h, fun i j => (pixels.getD (j * w + i) default).rawColor m⟩

lemma runs_drawRow {o : ℤ} {pixels : List Pixel} (hlen : w ≤ pixels.length) (bs : List UInt8) :
    Runs (I := I) (drawRow m o w (pixels.flatMap (Pixel.bytes m) ++ bs)) v
      (rowWrites o w fun i => (pixels.getD i default).rawColor m) () v := by
  have hrow := runs_row (I := I) (v := v) o w fun i =>
    m.pixelColor ((pixels.flatMap (Pixel.bytes m) ++ bs).drop (i * m.bpp))
  rwa [rowWrites_congr (g := fun i => (pixels.getD i default).rawColor m)] at hrow
  intro i hi
  have hi' : i < pixels.length := hi.trans_le hlen
  have hle : i * m.bpp ≤ (pixels.flatMap (Pixel.bytes m)).length := by
    rw [length_items (Pixel.length_bytes m)]
    exact Nat.mul_le_mul_right _ hi'.le
  rw [List.drop_append_of_le_length hle, drop_items_eq (Pixel.length_bytes m) hi',
    List.append_assoc, Pixel.pixelColor_bytes, List.getD_eq_getElem _ _ hi']

/-- What `handleRawRect` writes. -/
def rawWrites (l : Layout) (m : ColorModel) (x y w h : ℕ) (pixels : List Pixel) :
    List (ℤ × UInt32) :=
  if l.validDraw x y w h then (pixelBlock m x y w h pixels).writes l else []

/-- The pixels of row `j`. -/
def pixelRow (w : ℕ) (pixels : List Pixel) (j : ℕ) : List Pixel := (pixels.drop (j * w)).take w

lemma length_pixelRow {pixels : List Pixel} {j : ℕ} (hlen : pixels.length = w * h) (hj : j < h) :
    (pixelRow w pixels j).length = w := by
  have hle : j * w + w ≤ pixels.length := by
    rw [hlen, ← Nat.succ_mul, mul_comm w]
    exact Nat.mul_le_mul_right _ hj
  rw [pixelRow, List.length_take, List.length_drop]
  omega

/-- A row and the rows after it. -/
lemma pixelRow_append (m : ColorModel) (w : ℕ) (pixels : List Pixel) (j : ℕ) :
    (pixelRow w pixels j).flatMap (Pixel.bytes m) ++
        (pixels.drop ((j + 1) * w)).flatMap (Pixel.bytes m) =
      (pixels.drop (j * w)).flatMap (Pixel.bytes m) := by
  rw [← List.flatMap_append, pixelRow, Nat.succ_mul, ← List.drop_drop, List.take_append_drop]

/-- What is written for row `j`, if anything is drawn. -/
def pixelRowWrites (l : Layout) (m : ColorModel) (x y w h : ℕ) (pixels : List Pixel) (j : ℕ) :
    List (ℤ × UInt32) :=
  if l.validDraw x y w h then
    rowWrites (l.offset x (y + j)) w fun i => (pixels.getD (j * w + i) default).rawColor m
  else []

lemma flatMap_pixelRowWrites {pixels : List Pixel} :
    (List.range h).flatMap (pixelRowWrites l m x y w h pixels) = rawWrites l m x y w h pixels := by
  unfold pixelRowWrites rawWrites
  by_cases hvalid : l.validDraw x y w h
  · simp only [if_pos hvalid]
    rfl
  · simp [hvalid]

lemma runs_drawPixelRow {pixels : List Pixel} {j : ℕ} (hlen : pixels.length = w * h) (hj : j < h)
    (bs : List UInt8) :
    Runs (I := I) (if l.validDraw x y w h then
        drawRow m (l.offset x (y + j)) w ((pixelRow w pixels j).flatMap (Pixel.bytes m) ++ bs)
      else pure ()) v (pixelRowWrites l m x y w h pixels j) () v := by
  have hrow := length_pixelRow hlen hj
  apply runs_if
  intro _
  have hdraw := runs_drawRow (I := I) (m := m) (v := v) (o := l.offset x (y + j)) hrow.ge bs
  rwa [rowWrites_congr (g := fun i => (pixels.getD (j * w + i) default).rawColor m)] at hdraw
  intro i hi
  have hi' : i < (pixelRow w pixels j).length := hi.trans_eq hrow.symm
  have hlong : j * w + i < pixels.length := by
    rw [pixelRow, List.length_take, List.length_drop] at hi'
    omega
  rw [List.getD_eq_getElem _ _ hi', List.getD_eq_getElem _ _ hlong]
  simp only [pixelRow, List.getElem_take, List.getElem_drop]

lemma runs_handleRawRect {pixels : List Pixel} (hlen : pixels.length = w * h)
    (hm : c.colorModel = m) (hc : c.is = pixels.flatMap (Pixel.bytes m) ++ rest) :
    Runs (handleRawRect x y w h) (c, l) (rawWrites l m x y w h pixels) ()
      (c.next rest, l) := by
  subst hm
  set m := c.colorModel
  have hround : ∀ j < h, Runs (do
        let row ← rfb (readFully (w * m.bpp : ℕ))
        if l.validDraw x y w h then drawRow m (l.offset x (y + j)) w row else pure ())
      (c.next ((pixels.drop (j * w)).flatMap (Pixel.bytes m) ++ rest), l)
      (pixelRowWrites l m x y w h pixels j) ()
      (c.next ((pixels.drop ((j + 1) * w)).flatMap (Pixel.bytes m) ++ rest), l) := by
    intro j hj
    have hread : readFully (w * m.bpp : ℕ)
        (c.next ((pixels.drop (j * w)).flatMap (Pixel.bytes m) ++ rest)) =
        .ok ((pixelRow w pixels j).flatMap (Pixel.bytes m))
          (c.next ((pixels.drop ((j + 1) * w)).flatMap (Pixel.bytes m) ++ rest)) := by
      apply readFully_append
      · rw [length_items (Pixel.length_bytes m), length_pixelRow hlen hj]
      · rw [← List.append_assoc, pixelRow_append]
        rfl
    apply Does.bind_read (runs_rfb hread)
    have hdraw := runs_drawPixelRow (I := I) (l := l) (m := m) (x := x) (y := y)
      (v := (c.next ((pixels.drop ((j + 1) * w)).flatMap (Pixel.bytes m) ++ rest), l)) hlen hj []
    rwa [List.append_nil] at hdraw
  have hloop := Does.loop_states
    (fun j => (c.next ((pixels.drop (j * w)).flatMap (Pixel.bytes m) ++ rest), l)) hround
  have hstart : c.next ((pixels.drop (0 * w)).flatMap (Pixel.bytes m) ++ rest) = c := by
    rw [Nat.zero_mul, List.drop_zero, ← hc]
    rfl
  have hend : (pixels.drop (h * w)).flatMap (Pixel.bytes m) ++ rest = rest := by
    rw [mul_comm h, ← hlen, List.drop_length, List.flatMap_nil, List.nil_append]
  rw [hstart, hend, flatMap_pixelRowWrites] at hloop
  apply Does.bind_read runs_getLayout
  exact Does.bind_read runs_getColorModel hloop

/-! ### RRE and CoRRE -/

/-- A subrectangle of the rectangle at `(x, y)`, as a block. -/
def Subrect.block {size : ℕ} (m : ColorModel) (x y : ℕ) (r : Subrect size) : Block :=
  ⟨x + r.x, y + r.y, r.w, r.h, fun _ _ => r.pixel.color m⟩

/-- What `handleRRERectWith` writes. -/
def rreWrites {size : ℕ} (l : Layout) (m : ColorModel) (x y w h : ℕ) (bg : Pixel)
    (subrects : List (Subrect size)) : List (ℤ × UInt32) :=
  if l.validDraw x y w h then
    drawWrites l ⟨x, y, w, h, fun _ _ => bg.color m⟩ ++
      subrects.flatMap fun r => drawWrites l (r.block m x y)
  else []

/-- The connection after a read into `rre_buf`. -/
def Conn.fillRreBuf (c : Conn I) (bs rest : List UInt8) : Conn I :=
  { c with is := rest, rreBuf := bs ++ c.rreBuf.drop bs.length }

lemma fillRreBuf_append {bs : List UInt8} {n : ℤ} (hn : n = bs.length) (hc : c.is = bs ++ rest) :
    fillRreBuf n c = .ok () (c.fillRreBuf bs rest) := by
  show (readFully n >>= fun _ => _) c = _
  rw [bind_ok (readFully_append hn hc)]
  rfl

/-- The items at the start of `rre_buf`. -/
lemma rreBufAt_items {α : Type} {f : α → List UInt8} {k i : ℕ} (hf : ∀ a, (f a).length = k)
    {as : List α} {bs : List UInt8} (hi : i < as.length) (hc : c.rreBuf = as.flatMap f ++ bs) :
    rreBufAt (i * k : ℕ) k c = .ok (f as[i]) c := by
  have hle : i * k + k ≤ (as.flatMap f).length := by
    rw [length_items hf, ← Nat.succ_mul]
    exact Nat.mul_le_mul_right _ hi
  have hrange : 0 ≤ ((i * k : ℕ) : ℤ) ∧ ((i * k : ℕ) : ℤ) + k ≤ c.rreBuf.length := by
    rw [hc, List.length_append]
    omega
  rw [rreBufAt, if_pos hrange, Int.toNat_natCast, hc, List.drop_append_of_le_length (by omega),
    drop_items_eq hf hi, List.append_assoc, List.take_left' (hf _)]

lemma runs_rreSubrect {size j : ℕ} {subrects : List (Subrect size)} {bs : List UInt8}
    (hj : j < subrects.length)
    (hc : c.rreBuf = subrects.flatMap (Subrect.bytes · m) ++ bs)
    (hsmall : subrects.length * (m.bpp + 4 * size) < 2147483648) :
    Runs (do
        let bs ← rfb (rreBufAt (wrap32 (j * (m.bpp + 4 * size : ℕ))) (m.bpp + 4 * size))
        let coords := bs.drop m.bpp
        drawRect (x + coordinate size 0 coords) (y + coordinate size 1 coords)
          (coordinate size 2 coords) (coordinate size 3 coords) (m.paintColor bs))
      (c, l) (subrects[j]?.elim [] fun r => drawWrites l (r.block m x y)) () (c, l) := by
  have hlt : j * (m.bpp + 4 * size) < 2147483648 :=
    (Nat.mul_le_mul_right _ hj.le).trans_lt hsmall
  have hwrap : wrap32 (j * (m.bpp + 4 * size : ℕ)) = (j * (m.bpp + 4 * size) : ℕ) := by
    rw [wrap32_of_range (by omega) (by exact_mod_cast hlt), Nat.cast_mul]
  have hread := rreBufAt_items (fun r : Subrect size => r.length_bytes m) hj hc
  rw [hwrap, List.getElem?_eq_getElem hj]
  apply Does.bind_read (runs_rfb hread)
  have hcolor : m.paintColor (subrects[j].bytes m) = subrects[j].pixel.color m :=
    Pixel.paintColor_bytes m _ _
  show Runs (drawRect _ _ _ _ _) _ _ _ _
  rw [hcolor, Subrect.coordinate_bytes _ (by decide), Subrect.coordinate_bytes _ (by decide),
    Subrect.coordinate_bytes _ (by decide), Subrect.coordinate_bytes _ (by decide)]
  exact runs_drawRect _ _ _ _ _

/-- `data` has the subrectangles; where it is longer, the rest of it is skipped. -/
lemma runs_handleRRERectWith {size : ℕ} (hsize : size ≤ 2) {bg : Pixel}
    {subrects : List (Subrect size)} {skipped : List UInt8}
    (hskipped : skipped.length + 4 * size * subrects.length = 8 * subrects.length)
    (hsmall : subrects.length * (m.bpp + 8) < 2147483648) (hm : c.colorModel = m)
    (hc : c.is = intBytes subrects.length ++ (bg.bytes m ++
      (subrects.flatMap (Subrect.bytes · m) ++ skipped ++ rest))) :
    Runs (handleRRERectWith size x y w h) (c, l) (rreWrites l m x y w h bg subrects) ()
      (c.fillRreBuf (subrects.flatMap (Subrect.bytes · m) ++ skipped) rest, l) := by
  subst hm
  set m := c.colorModel
  set data := subrects.flatMap (Subrect.bytes · m) ++ skipped with hdata
  have hbpp : 1 ≤ m.bpp := m.bpp_pos
  have hlen : data.length = subrects.length * (m.bpp + 8) := by
    rw [hdata, List.length_append, length_items (fun r : Subrect size => r.length_bytes m)]
    linarith
  have hcount : subrects.length < 2147483648 :=
    (Nat.le_mul_of_pos_right _ (by omega)).trans_lt hsmall
  have hn := readInt_append (z := subrects.length) (by omega) (by exact_mod_cast hcount) hc
  have hbg : readFully m.bpp (c.next (bg.bytes m ++ (data ++ rest))) =
      .ok (bg.bytes m) (c.next (data ++ rest)) :=
    readFully_append (by rw [Pixel.length_bytes]) rfl
  have hfill : fillRreBuf (wrap32 (subrects.length * (m.bpp + 8))) (c.next (data ++ rest)) =
      .ok () (c.fillRreBuf data rest) := by
    apply fillRreBuf_append _ rfl
    have hcast : (subrects.length : ℤ) * (m.bpp + 8) = (subrects.length * (m.bpp + 8) : ℕ) := by
      push_cast
      ring
    rw [hlen, hcast, wrap32_of_range (by omega) (by exact_mod_cast hsmall)]
  have hcolor : m.paintColor (bg.bytes m) = bg.color m := by
    have h := Pixel.paintColor_bytes m bg []
    rwa [List.append_nil] at h
  have hwrites : rreWrites l m x y w h bg subrects =
      (if l.validDraw x y w h then drawWrites l ⟨x, y, w, h, fun _ _ => bg.color m⟩ else []) ++
        if l.validDraw x y w h then subrects.flatMap fun r => drawWrites l (r.block m x y)
        else [] := by
    unfold rreWrites
    split_ifs <;> rfl
  apply Does.bind_read runs_getLayout
  apply Does.bind_read runs_getColorModel
  apply Does.bind_read (runs_rfb hn)
  apply Does.bind_read (runs_rfb hbg)
  rw [hwrites]
  refine Does.bind (runs_if fun _ => ?_) (Does.bind_read (runs_rfb hfill) (runs_if fun _ => ?_))
  · rw [← hcolor]
    exact runs_drawRect _ _ _ _ _
  · rw [Int.toNat_natCast, ← flatMap_range_getElem?]
    apply Does.loop_keeps
    intro j hj
    apply runs_rreSubrect (m := m) hj
    · show data ++ _ = _
      rw [hdata, List.append_assoc]
    · exact (Nat.mul_le_mul_left _ (by omega)).trans_lt hsmall

end Limbo.Vnc
