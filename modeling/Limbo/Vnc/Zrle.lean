import Limbo.Vnc.ZrleStream

/-!
# ZRLE rectangles

A ZRLE rectangle is tiles of 64 by 64 pixels in compressed data. What the handler reads and writes,
tile by tile.
-/

namespace Limbo.Vnc

open Lib
open ZlibInStream (Delivers)

variable {I : Inflater} {Q : I.State → Prop} {c c' : Conn I} {l : Layout} {m : ColorModel}
  {x y w h tx ty tw th fuel : ℕ} {rest : List UInt8}

/-! ### One tile -/

namespace ZrleTile

variable (m)

/-- The pixels of the tile, row by row. -/
def pixels (tw th : ℕ) : ZrleTile → List Pixel
  | raw pixels => pixels
  | solid pixel => List.replicate (tw * th) pixel
  | packed palette rows => packedPixels (bitsPerPackedPixel palette.length) tw palette rows
  | plainRle runs => runs.flatMap fun r => List.replicate r.2 r.1
  | paletteRle palette runs =>
    runs.flatMap fun r => List.replicate r.length (palette.getD r.index default)

def palette : ZrleTile → List Pixel
  | raw _ | plainRle _ => []
  | solid pixel => [pixel]
  | packed palette _ | paletteRle palette _ => palette

/-- What the protocol asks of a tile of this size. -/
def Framed (tw th : ℕ) : ZrleTile → Prop
  | raw pixels => pixels.length = tw * th
  | solid _ => True
  | packed palette rows => 2 ≤ palette.length ∧ palette.length ≤ 16 ∧ rows.length = th ∧
      (∀ row ∈ rows, row.length = (tw * bitsPerPackedPixel palette.length + 7) / 8) ∧
      ∀ row ∈ rows, ∀ j < tw,
        packedIndex (bitsPerPackedPixel palette.length) row j < palette.length
  | plainRle runs => RunsFill (runs.map Prod.snd) (tw * th)
  | paletteRle palette runs => 2 ≤ palette.length ∧ palette.length ≤ 127 ∧
      (∀ r ∈ runs, r.index < palette.length) ∧
      RunsFill (runs.map PaletteRun.length) (tw * th)

/-- What the decoder leaves in the bitmap for a pixel of the tile: for a raw tile it is the number
on the wire, also where the other tiles look it up. -/
def color (t : ZrleTile) (p : Pixel) : UInt32 :=
  match t with
  | raw _ => p.value m
  | solid _ => p.color m
  | packed .. | plainRle _ | paletteRle .. => p.rawColor m

def mode : ZrleTile → UInt8
  | raw _ => 0
  | solid _ => 1
  | packed palette _ => UInt8.ofNat palette.length
  | plainRle _ => 128
  | paletteRle palette _ => UInt8.ofNat (palette.length + 128)

/-- What comes after the palette. -/
def body : ZrleTile → List UInt8
  | raw pixels => pixels.flatMap (Pixel.cbytes m)
  | solid _ => []
  | packed _ rows => rows.flatten
  | plainRle runs => runs.flatMap fun r => r.1.cbytes m ++ runLengthBytes r.2
  | paletteRle _ runs => runs.flatMap PaletteRun.bytes

def rle : ZrleTile → Bool
  | raw _ | solid _ | packed .. => false
  | plainRle _ | paletteRle .. => true

lemma bytes_eq (t : ZrleTile) :
    t.bytes m = [t.mode] ++ (t.palette.flatMap (Pixel.cbytes m) ++ t.body m) := by
  cases t with
  | solid pixel => simp [bytes, mode, palette, body]
  | paletteRle palette runs => simp [bytes, mode, ZrleTile.palette, body, add_comm]
  | _ => rfl

variable {t : ZrleTile}

lemma Framed.mode_and (ht : t.Framed tw th) :
    (t.mode &&& 127).toNat = t.palette.length ∧ decide (t.mode &&& 128 ≠ 0) = t.rle := by
  cases t with
  | raw pixels =>
    obtain ⟨hzero, hindex, -⟩ := index_bits 0 (by decide)
    exact ⟨hindex, decide_eq_false (not_not.mpr hzero)⟩
  | solid pixel =>
    obtain ⟨hzero, hindex, -⟩ := index_bits 1 (by decide)
    exact ⟨hindex, decide_eq_false (not_not.mpr hzero)⟩
  | plainRle runs =>
    obtain ⟨-, -, hset, hindex⟩ := index_bits 0 (by decide)
    exact ⟨hindex, decide_eq_true hset⟩
  | packed palette rows =>
    obtain ⟨-, hle, -⟩ := ht
    obtain ⟨hzero, hindex, -⟩ := index_bits palette.length (by omega)
    exact ⟨hindex, decide_eq_false (not_not.mpr hzero)⟩
  | paletteRle palette runs =>
    obtain ⟨-, hle, -⟩ := ht
    obtain ⟨-, -, hset, hindex⟩ := index_bits palette.length (by omega)
    exact ⟨hindex, decide_eq_true hset⟩

lemma length_runs {α : Type} (runs : List α) (length : α → ℕ) (pixel : α → Pixel) :
    (runs.flatMap fun r => List.replicate (length r) (pixel r)).length =
      (runs.map length).sum := by
  simp [List.length_flatMap]

lemma Framed.length_pixels (ht : t.Framed tw th) : (t.pixels tw th).length = tw * th := by
  cases t with
  | raw pixels => exact ht
  | solid pixel => exact List.length_replicate
  | packed palette rows =>
    have hrow : ∀ row : List UInt8, ((List.range tw).map fun j =>
        palette.getD (packedIndex (bitsPerPackedPixel palette.length) row j) default).length =
          tw := by
      intro row
      rw [List.length_map, List.length_range]
    obtain ⟨-, -, hth, -⟩ := ht
    rw [pixels, packedPixels, length_items hrow, hth, mul_comm]
  | plainRle runs =>
    rw [pixels, length_runs]
    exact ht.sum
  | paletteRle palette runs =>
    obtain ⟨-, -, -, hruns⟩ := ht
    rw [pixels, length_runs]
    exact hruns.sum

/-- The tile as a block. -/
def block (t : ZrleTile) (tx ty tw th : ℕ) : Block :=
  ⟨tx, ty, tw, th, fun i j => t.color m ((t.pixels tw th).getD (j * tw + i) default)⟩

/-- What `handleZrleTile` writes. -/
def writes (l : Layout) (valid : Bool) (t : ZrleTile) (tx ty tw th : ℕ) : List (ℤ × UInt32) :=
  if valid then
    match t with
    | solid _ => drawWrites l (t.block m tx ty tw th)
    | raw _ | packed .. | plainRle _ | paletteRle .. => (t.block m tx ty tw th).writes l
  else []

end ZrleTile

lemma Reads.runs {β : Type} {a : ConnM I β} {bs d : List UInt8} {b : β} {z : ZlibInStream I}
    (ha : Reads Q a c bs b c') (hz : Delivers Q z (bs ++ d)) :
    ∃ z', Runs (rfb a) (c.withStream z, l) [] b (c'.withStream z', l) ∧ Delivers Q z' d := by
  obtain ⟨z', hrun, hz'⟩ := ha z d hz
  exact ⟨z', runs_rfb hrun, hz'⟩

variable {t : ZrleTile}

lemma reads_readZrleTilePixels (ht : t.Framed tw th) (hsolid : ∀ p, t ≠ .solid p)
    (hm : c.colorModel = m) (hpal : HasPalette m c t.palette) (hfuel : tw * th ≤ fuel)
    (hsmall : tw * th < 2147483648) :
    Reads Q (readZrleTilePixels (fuel + 1) t.rle t.palette.length tw th) c (t.body m)
      ((t.pixels tw th).map (t.color m)) c := by
  have hruns : ∀ {α : Type} (runs : List α) (length : α → ℕ) (pixel : α → Pixel),
      (runs.flatMap fun r => List.replicate (length r) (pixel r)).map (Pixel.rawColor m) =
        runs.flatMap fun r => List.replicate (length r) ((pixel r).rawColor m) := by
    intro α runs length pixel
    simp [List.map_flatMap]
  cases t with
  | raw pixels =>
    have hlen : pixels.length = tw * th := ht
    show Reads Q (readPixels (fuel + 1) (tw * th)) _ _ _ _
    rw [← hlen]
    exact reads_readPixels hm pixels
  | solid p => exact absurd rfl (hsolid p)
  | packed palette rows =>
    obtain ⟨htwo, hle, rfl, hrows, hindex⟩ := ht
    have hpos : palette.length ≠ 0 := by omega
    show Reads Q (if palette.length = 0 then _ else _) _ _ _ _
    rw [if_neg hpos]
    exact reads_readZrlePackedPixels hle hm hpal hrows hindex
  | plainRle runs =>
    show Reads Q (readZrlePlainRLEPixels (fuel + 1) (fuel + 1) (tw * th)) _ _
      ((runs.flatMap fun r => List.replicate r.2 r.1).map (Pixel.rawColor m)) _
    rw [hruns]
    exact reads_readZrlePlainRLEPixels hm ht (by omega) hfuel hsmall
  | paletteRle palette runs =>
    obtain ⟨htwo, hle, hindex, hfill⟩ := ht
    have hpos : palette.length ≠ 0 := by omega
    show Reads Q (if palette.length = 0 then _ else
      readZrlePackedRLEPixels (fuel + 1) (fuel + 1) (tw * th)) _ _
      ((runs.flatMap fun r =>
        List.replicate r.length (palette.getD r.index default)).map (Pixel.rawColor m)) _
    rw [if_neg hpos, hruns]
    exact reads_readZrlePackedRLEPixels hm hpal hle hindex hfill (by omega) hfuel hsmall

lemma Block.writes_congr {f g : ℕ → ℕ → UInt32} (hfg : ∀ i < w, ∀ j < h, f i j = g i j) :
    Block.writes l ⟨x, y, w, h, f⟩ = Block.writes l ⟨x, y, w, h, g⟩ := by
  apply List.flatMap_congr
  intro j hj
  apply rowWrites_congr
  intro i hi
  exact hfg i hi j (List.mem_range.mp hj)

lemma runs_handleUpdatedZrleTile {v : Conn I × Layout} (hv : v.2 = l) (hw : 0 < w)
    (pixels : List UInt32) :
    Runs (handleUpdatedZrleTile x y w h pixels) v
      (Block.writes l ⟨x, y, w, h, fun i j => pixels.getD (j * w + i) 0⟩) () v := by
  subst hv
  apply Does.bind_read runs_getLayout
  apply Does.loop_keeps
  intro j _
  exact runs_checked hw fun i => pixels.getD (j * w + i) 0

lemma runs_handleZrleTile {valid : Bool} {d : List UInt8} {z : ZlibInStream I}
    (ht : t.Framed tw th) (htw : 0 < tw) (hfuel : tw * th ≤ fuel) (hsmall : tw * th < 2147483648)
    (hm : c.colorModel = m) (hz : Delivers Q z (t.bytes m ++ d)) :
    ∃ z', Runs (handleZrleTile (fuel + 1) valid tx ty tw th) (c.withStream z, l)
      (t.writes m l valid tx ty tw th) () ((c.readPalette m t.palette).withStream z', l) ∧
      Delivers Q z' d := by
  obtain ⟨hsize, hrle⟩ := ht.mode_and
  rw [ZrleTile.bytes_eq, List.append_assoc, List.append_assoc] at hz
  have hu8 : Reads Q (zrle (ZlibInStream.readU8 (fuel + 1))) c [t.mode] t.mode c :=
    reads_readU8 t.mode
  obtain ⟨z₁, hmode, hz₁⟩ := hu8.runs (l := l) hz
  have hread : Reads Q (readZrlePalette (fuel + 1) t.palette.length) c
      (t.palette.flatMap (Pixel.cbytes m)) () (c.readPalette m t.palette) :=
    reads_readZrlePalette hm t.palette
  obtain ⟨z₂, hpalette, hz₂⟩ := hread.runs (l := l) hz₁
  have hpal := hasPalette_readPalette (m := m) (c := c) t.palette
  by_cases hsolid : ∃ p, t = .solid p
  · obtain ⟨p, rfl⟩ := hsolid
    refine ⟨z₂, ?_, hz₂⟩
    apply Does.bind_read hmode
    rw [hsize]
    apply Does.bind_read hpalette
    show Runs (rfb getColorModel >>= _) _ _ _ _
    apply Does.bind_read runs_getColorModel
    have hat : paletteAt 0 ((c.readPalette m [p]).withStream z₂) =
        .ok (p.value m) ((c.readPalette m [p]).withStream z₂) := rfl
    apply Does.bind_read (runs_rfb hat)
    apply runs_if
    intro _
    show Runs (drawRect tx ty tw th (c.colorModel.solidColor (p.value m))) _ (drawWrites l _) _ _
    have hcells : drawWrites l (ZrleTile.block m (.solid p) tx ty tw th) =
        drawWrites l ⟨tx, ty, tw, th, fun _ _ => p.color m⟩ := by
      cases l with
      | large xo yo bw bh => rfl
      | full fw fh =>
        apply Block.writes_congr
        intro i hi j hj
        have hlt : j * tw + i < tw * th := by
          rw [mul_comm tw th]
          exact nested_index_lt hj hi
        have hcell : (List.replicate (tw * th) p).getD (j * tw + i) default = p := by
          rw [List.getD_eq_getElem _ _ (by rwa [List.length_replicate]), List.getElem_replicate]
        show Pixel.color m ((List.replicate (tw * th) p).getD (j * tw + i) default) = _
        rw [hcell]
    rw [hm, Pixel.solidColor_value, hcells]
    exact runs_drawRect tx ty tw th (p.color m)
  · have hsolid' : ∀ p, t ≠ .solid p := fun p hp => hsolid ⟨p, hp⟩
    have hone : t.palette.length ≠ 1 := by
      cases t with
      | solid p => exact absurd rfl (hsolid' p)
      | packed palette rows =>
        have htwo : 2 ≤ palette.length := ht.1
        show palette.length ≠ 1
        omega
      | paletteRle palette runs =>
        have htwo : 2 ≤ palette.length := ht.1
        show palette.length ≠ 1
        omega
      | _ => exact Nat.zero_ne_one
    have hreads := reads_readZrleTilePixels (Q := Q) (c := c.readPalette m t.palette) ht hsolid' hm
      hpal hfuel hsmall
    obtain ⟨z₃, hpixels, hz₃⟩ := hreads.runs (l := l) hz₂
    refine ⟨z₃, ?_, hz₃⟩
    apply Does.bind_read hmode
    rw [hsize]
    apply Does.bind_read hpalette
    rw [if_neg hone, hrle]
    apply Does.bind_read hpixels
    have hwrites : t.writes m l valid tx ty tw th =
        if valid then (t.block m tx ty tw th).writes l else [] := by
      cases t with
      | solid p => exact absurd rfl (hsolid' p)
      | _ => rfl
    rw [hwrites]
    apply runs_if
    intro _
    have hupdate := runs_handleUpdatedZrleTile (I := I) (x := tx) (y := ty) (h := th)
      (v := ((c.readPalette m t.palette).withStream z₃, l)) rfl htw
      ((t.pixels tw th).map (t.color m))
    have hcells : Block.writes l ⟨tx, ty, tw, th, fun i j =>
        ((t.pixels tw th).map (t.color m)).getD (j * tw + i) 0⟩ =
        (t.block m tx ty tw th).writes l := by
      apply Block.writes_congr
      intro i hi j hj
      have hlt : j * tw + i < (t.pixels tw th).length := by
        rw [ht.length_pixels, mul_comm tw th]
        exact nested_index_lt hj hi
      show ((t.pixels tw th).map (t.color m)).getD (j * tw + i) 0 =
        t.color m ((t.pixels tw th).getD (j * tw + i) default)
      rw [List.getD_eq_getElem _ _ (by rwa [List.length_map]), List.getElem_map,
        List.getD_eq_getElem _ _ hlt]
    rwa [hcells] at hupdate

/-! ### The rectangle -/

/-- The tiles cover a rectangle of this size, and each has its parts. -/
structure ZrleFramed (tiles : List ZrleTile) (w h : ℕ) : Prop where
  length : tiles.length = tileCount 64 h * tileCount 64 w
  framed : ∀ r k t, k < tileCount 64 w → tiles[r * tileCount 64 w + k]? = some t →
    t.Framed (tileLength 64 w k) (tileLength 64 h r)

/-- What `handleZRLERect` writes. -/
def zrleWrites (l : Layout) (m : ColorModel) (x y w h : ℕ) (tiles : List ZrleTile) :
    List (ℤ × UInt32) :=
  (List.range (tileCount 64 h)).flatMap fun r => (List.range (tileCount 64 w)).flatMap fun k =>
    tiles[r * tileCount 64 w + k]?.elim [] fun t =>
      t.writes m l (l.validDraw x y w h) (x + 64 * k) (y + 64 * r) (tileLength 64 w k)
        (tileLength 64 h r)

/-- The connections differ in the stream and the state of the ZRLE decoder only. -/
def Conn.SameButZrle (c c' : Conn I) : Prop :=
  c' = { c with
    is := c'.is, zrleBuf := c'.zrleBuf, zrleInStream := c'.zrleInStream,
    handleZRLERectPalette := c'.handleZRLERectPalette }

/-- The inflater makes `d` of the data of a rectangle, and `Q` holds of it then. -/
def InflatesData (I : Inflater) (Q : I.State → Prop) (st : I.State) (data d : List UInt8) : Prop :=
  if data = [] then d = [] ∧ Q st else Yields I Q (I.setInput data st) d

lemma tileLength_pos {size n i : ℕ} (hsize : 0 < size) (hi : i < tileCount size n) :
    0 < tileLength size n i := by
  have hmul : (i + 1) * size ≤ n + size - 1 := (Nat.le_div_iff_mul_le hsize).mp hi
  have hlt : size * i < n := by
    rw [Nat.succ_mul, mul_comm] at hmul
    omega
  exact lt_min (Nat.sub_pos_of_lt hlt) hsize

lemma tileLength_le (size n i : ℕ) : tileLength size n i ≤ size := min_le_right _ _

lemma setUnderlying_inflates {z : ZlibInStream I} {data d : List UInt8}
    (hneeds : I.needsInput z.inflater = true) (h : InflatesData I Q z.inflater data d) :
    ∃ z', ZlibInStream.setUnderlying data data.length z = .ok () z' ∧ Delivers Q z' d := by
  unfold InflatesData at h
  split_ifs at h with hdata
  · obtain ⟨rfl, hQ⟩ := h
    subst hdata
    exact ZlibInStream.setUnderlying_nil hneeds hQ
  · exact ZlibInStream.setUnderlying_delivers hdata hneeds h

lemma startZRLERect_append {data d : List UInt8} (hdata : data.length ≤ 67108864)
    (hneeds : I.needsInput c.zrleInStream.inflater = true)
    (hQ : InflatesData I Q c.zrleInStream.inflater data d)
    (hc : c.is = intBytes data.length ++ (data ++ rest)) :
    ∃ c₁ z, startZRLERect c = .ok () (c₁.withStream z) ∧ c₁.is = rest ∧ c.SameButZrle c₁ ∧
      Delivers Q z d := by
  have hread := readInt_append (z := data.length) (by omega) (by omega) hc
  have hlegal : ¬ (data.length : ℤ) > 64 * 1024 * 1024 := by omega
  obtain ⟨b, hb⟩ : ∃ b, reserve c.zrleBuf data.length (data.length + 4096)
      (c.next (data ++ rest)) = .ok b (c.next (data ++ rest)) := reserve_ok (by omega)
  have hfull : readFully data.length (c.next (data ++ rest)) = .ok data (c.next rest) :=
    readFully_append rfl rfl
  obtain ⟨z, hset, hz⟩ := setUnderlying_inflates hneeds hQ
  refine ⟨{ c.next rest with zrleBuf := b }, z, ?_, rfl, rfl, hz⟩
  show (readInt >>= fun nBytes => if nBytes > 64 * 1024 * 1024 then _ else get >>= fun c =>
    reserve c.zrleBuf nBytes (nBytes + 4096) >>= fun zrleBuf => readFully nBytes >>= fun data =>
      modify _ >>= fun _ => zrle (ZlibInStream.setUnderlying data nBytes)) c = _
  rw [bind_ok hread, if_neg hlegal]
  show (reserve c.zrleBuf data.length (data.length + 4096) >>= fun zrleBuf =>
    readFully data.length >>= fun data' => modify _ >>= fun _ =>
      zrle (ZlibInStream.setUnderlying data' data.length)) (c.next (data ++ rest)) = _
  rw [bind_ok hb, bind_ok hfull]
  exact zrle_ok (c := { c.next rest with zrleBuf := b }) hset

/-- In front of tile `i` the stream has the tiles from it on. -/
def ZrleTiles (Q : I.State → Prop) (m : ColorModel) (tiles : List ZrleTile) (rest : List UInt8)
    (c : Conn I) (l : Layout) (i : ℕ) (v : Conn I × Layout) : Prop :=
  ∃ c' z, v = (c'.withStream z, l) ∧ c'.is = rest ∧ c.SameButZrle c' ∧
    Delivers Q z ((tiles.drop i).flatMap (ZrleTile.bytes m))

theorem runs_handleZRLERect {data : List UInt8} {tiles : List ZrleTile}
    (ht : ZrleFramed tiles w h) (hdata : data.length ≤ 67108864) (hfuel : 4096 ≤ fuel)
    (hm : c.colorModel = m) (hneeds : I.needsInput c.zrleInStream.inflater = true)
    (hQ : InflatesData I Q c.zrleInStream.inflater data (tiles.flatMap (ZrleTile.bytes m)))
    (hc : c.is = intBytes data.length ++ (data ++ rest)) :
    ∃ c', Runs (handleZRLERect (fuel + 1) x y w h) (c, l) (zrleWrites l m x y w h tiles) ()
        (c', l) ∧ c'.is = rest ∧ c.SameButZrle c' ∧
      I.needsInput c'.zrleInStream.inflater = true ∧ Q c'.zrleInStream.inflater := by
  obtain ⟨c₁, z₁, hstart, his₁, hsame₁, hz₁⟩ := startZRLERect_append hdata hneeds hQ hc
  have hround : ∀ r < tileCount 64 h, ∀ k < tileCount 64 w, ∀ v,
      ZrleTiles Q m tiles rest c l (r * tileCount 64 w + k) v →
      ∃ v', Runs (handleZrleTile (fuel + 1) (l.validDraw x y w h) (x + 64 * k) (y + 64 * r)
          (tileLength 64 w k) (tileLength 64 h r)) v
          (tiles[r * tileCount 64 w + k]?.elim [] fun t =>
            t.writes m l (l.validDraw x y w h) (x + 64 * k) (y + 64 * r) (tileLength 64 w k)
              (tileLength 64 h r)) () v' ∧
        ZrleTiles Q m tiles rest c l (r * tileCount 64 w + k + 1) v' := by
    rintro r hr k hk v ⟨c', z, rfl, his, hsame, hz⟩
    have hi : r * tileCount 64 w + k < tiles.length := by
      rw [ht.length]
      exact nested_index_lt hr hk
    have hframed := ht.framed r k _ hk (List.getElem?_eq_getElem hi)
    have harea : tileLength 64 w k * tileLength 64 h r ≤ 64 * 64 :=
      Nat.mul_le_mul (tileLength_le 64 w k) (tileLength_le 64 h r)
    have hcolor : c'.colorModel = m := by
      rw [hsame]
      exact hm
    rw [List.drop_eq_getElem_cons hi, List.flatMap_cons] at hz
    rw [List.getElem?_eq_getElem hi]
    have hfits : tileLength 64 w k * tileLength 64 h r ≤ fuel := by omega
    obtain ⟨z', hrun, hz'⟩ : ∃ z', Runs (handleZrleTile (fuel + 1) (l.validDraw x y w h)
        (x + 64 * k) (y + 64 * r) (tileLength 64 w k) (tileLength 64 h r)) (c'.withStream z, l)
        _ () ((c'.readPalette m (tiles[r * tileCount 64 w + k]).palette).withStream z', l) ∧
        Delivers Q z' ((tiles.drop (r * tileCount 64 w + k + 1)).flatMap (ZrleTile.bytes m)) :=
      runs_handleZrleTile hframed (tileLength_pos (by decide) hk) hfits (by omega) hcolor hz
    refine ⟨_, hrun, c'.readPalette m (tiles[r * tileCount 64 w + k]).palette, z', rfl, his, ?_,
      hz'⟩
    unfold Conn.SameButZrle at *
    rw [hsame]
    rfl
  have hfirst : ZrleTiles Q m tiles rest c l 0 (c₁.withStream z₁, l) :=
    ⟨c₁, z₁, rfl, his₁, hsame₁, hz₁⟩
  obtain ⟨v', hloop, c₂, z₂, rfl, his₂, hsame₂, hz₂⟩ := Does.nested hround hfirst
  rw [← ht.length, List.drop_length, List.flatMap_nil] at hz₂
  obtain ⟨st, hreset, hst, hQst⟩ := ZlibInStream.reset_delivers fuel hz₂
  refine ⟨c₂.withStream ⟨[], none, 0, st⟩, ?_, his₂, ?_, hst, hQst⟩
  · apply Does.bind_read (runs_rfb hstart)
    apply Does.bind_read runs_getLayout
    exact Does.bind_silent hloop (runs_rfb (zrle_ok hreset))
  · unfold Conn.SameButZrle at *
    rw [hsame₂]
    rfl

end Limbo.Vnc
