import Limbo.Vnc.Rectangles

/-!
# Hextile rectangles

What the handler of a Hextile rectangle reads and writes, tile by tile. The background and the
foreground are carried from tile to tile.
-/

namespace Limbo.Vnc

open Lib

variable {I : Inflater} {c c' : Conn I} {l : Layout} {m : ColorModel} {x y w h tx ty tw th : ℕ}
  {rest : List UInt8} {t : HextileTile}

/-! ### One tile -/

/-- A subrectangle of the tile at `(tx, ty)`, as a block. -/
def HextileSubrect.block (tx ty : ℕ) (color : UInt32) (r : HextileSubrect) : Block :=
  ⟨tx + r.x, ty + r.y, r.w + 1, r.h + 1, fun _ _ => color⟩

namespace HextileTile

variable (m t)

/-- The background of the tile, where `bg` is that of the tile before it. -/
def background (bg : UInt32) : UInt32 := if t.BackgroundSpecified then t.bg.color m else bg

def foreground (fg : UInt32) : UInt32 := if t.ForegroundSpecified then t.fg.color m else fg

def subrectColor (fg : UInt32) (r : Pixel × HextileSubrect) : UInt32 :=
  if t.SubrectsColoured then r.1.color m else t.foreground m fg

/-- The foreground that the tile leaves: a coloured subrectangle replaces it. -/
def lastForeground (fg : UInt32) : UInt32 :=
  if t.AnySubrects ∧ t.SubrectsColoured then
    t.subrects.getLast?.elim (t.foreground m fg) fun r => r.1.color m
  else t.foreground m fg

/-- What `handleHextileParts` writes. -/
def partWrites (l : Layout) (tx ty tw th : ℕ) (bg fg : UInt32) : List (ℤ × UInt32) :=
  (if l.validDraw tx ty tw th then drawWrites l ⟨tx, ty, tw, th, fun _ _ => t.background m bg⟩
    else []) ++
  if t.AnySubrects then
    t.subrects.flatMap fun r =>
      if l.validDraw tx ty tw th then drawWrites l (r.2.block tx ty (t.subrectColor m fg r)) else []
  else []

/-- What `handleHextileSubrect` writes. -/
def writes (l : Layout) (tx ty tw th : ℕ) (bg fg : UInt32) : List (ℤ × UInt32) :=
  if t.Raw then rawWrites l m tx ty tw th t.pixels else t.partWrites m l tx ty tw th bg fg

/-- The connection after the tile. -/
def after (c : Conn I) (rest : List UInt8) : Conn I :=
  if t.Raw then c.next rest
  else
    ((if t.AnySubrects then c.fillRreBuf (t.subrects.flatMap (t.subrectBytes m)) rest
      else c.next rest).setHextileBg (t.background m c.hextileBg)).setHextileFg
        (t.lastForeground m c.hextileFg)

/-- What the protocol asks of a tile for its parts to be there. -/
structure Framed (tw th : ℕ) : Prop where
  pixels : t.Raw → t.pixels.length = tw * th
  subrects : t.subrects.length < 256

end HextileTile

lemma runs_drawHextileSubrect (valid : Bool) (color : UInt32) (r : HextileSubrect) :
    Runs (drawHextileSubrect valid tx ty color r.bytes) (c, l)
      (if valid then drawWrites l (r.block tx ty color) else []) () (c, l) := by
  apply runs_if
  intro _
  obtain ⟨hx, hy⟩ := nibbles r.x r.y
  obtain ⟨hw, hh⟩ := nibbles r.w r.h
  show Runs (drawRect (tx + (UInt8.ofNat (16 * r.x + r.y)).toNat >>> 4)
    (ty + ((UInt8.ofNat (16 * r.x + r.y)).toNat &&& 0xf))
    ((UInt8.ofNat (16 * r.w + r.h)).toNat >>> 4 + 1)
    (((UInt8.ofNat (16 * r.w + r.h)).toNat &&& 0xf) + 1) color) _ _ _ _
  rw [hx, hy, hw, hh]
  exact runs_drawRect _ _ _ _ _

/-- A colour that is sent if a bit says so. -/
lemma runs_specified {P : Prop} [Decidable P] {p : Pixel} (set : Conn I → UInt32 → Conn I)
    {old : UInt32} (hold : set (c.next rest) old = c.next rest)
    (hc : c.is = (if P then p.bytes m else []) ++ rest) :
    Runs (if P then do
        let bs ← rfb (readFully m.bpp)
        rfb (modify fun c => set c (m.paintColor bs))
      else pure ())
      (c, l) [] () (set (c.next rest) (if P then p.color m else old), l) := by
  by_cases hP : P
  · rw [if_pos hP] at hc
    have hcolor : m.paintColor (p.bytes m) = p.color m := by
      have h := Pixel.paintColor_bytes m p []
      rwa [List.append_nil] at h
    rw [if_pos hP, if_pos hP, ← hcolor]
    apply Does.bind_read (runs_rfb (readFully_append (by rw [Pixel.length_bytes]) hc))
    exact runs_modify _
  · rw [if_neg hP, List.nil_append] at hc
    rw [if_neg hP, if_neg hP, hold, ← hc]
    exact Does.pure () _

/-- The subrectangles of one colour. -/
lemma runs_plainSubrects {valid : Bool} {bs : List UInt8} (hplain : ¬ t.SubrectsColoured)
    (hc : c.rreBuf = t.subrects.flatMap (t.subrectBytes m) ++ bs) {color fg : UInt32}
    (hcolor : color = t.foreground m fg) :
    Runs (loop t.subrects.length fun j => do
        let bs ← rfb (rreBufAt (j * 2 : ℕ) 2)
        drawHextileSubrect valid tx ty color bs)
      (c, l)
      (t.subrects.flatMap fun r =>
        if valid then drawWrites l (r.2.block tx ty (t.subrectColor m fg r)) else []) () (c, l) := by
  have hlen : ∀ r, (t.subrectBytes m r).length = 2 := by
    intro r
    rw [HextileTile.length_subrectBytes, if_neg hplain]
  rw [← flatMap_range_getElem?]
  apply Does.loop_keeps
  intro j hj
  apply Does.bind_read (runs_rfb (rreBufAt_items hlen hj hc))
  have hbytes : t.subrectBytes m t.subrects[j] = t.subrects[j].2.bytes := if_neg hplain
  have hsame : t.subrectColor m fg t.subrects[j] = color := (if_neg hplain).trans hcolor.symm
  rw [List.getElem?_eq_getElem hj, hbytes]
  show Runs _ _ (if valid then drawWrites l (_ : Block) else []) _ _
  rw [hsame]
  exact runs_drawHextileSubrect _ _ _

/-- The foreground in front of the coloured subrectangle `j`. -/
private def colouredFg (m : ColorModel) (t : HextileTile) (fg : UInt32) (j : ℕ) : UInt32 :=
  (t.subrects.take j).getLast?.elim fg fun r => r.1.color m

private lemma colouredFg_succ {fg : UInt32} {j : ℕ} (hj : j < t.subrects.length) :
    colouredFg m t fg (j + 1) = t.subrects[j].1.color m := by
  rw [colouredFg, List.take_succ_eq_append_getElem hj, List.getLast?_concat]
  rfl

lemma runs_colouredSubrects {valid : Bool} {bs : List UInt8} (hcoloured : t.SubrectsColoured)
    (hc : c.rreBuf = t.subrects.flatMap (t.subrectBytes m) ++ bs) (fg : UInt32) :
    Runs (loop t.subrects.length fun j => do
        let bs ← rfb (rreBufAt (j * (m.bpp + 2) : ℕ) (m.bpp + 2))
        rfb (modify fun c => c.setHextileFg (m.paintColor bs))
        drawHextileSubrect valid tx ty (m.paintColor bs) (bs.drop m.bpp))
      (c, l)
      (t.subrects.flatMap fun r =>
        if valid then drawWrites l (r.2.block tx ty (t.subrectColor m fg r)) else []) ()
      (c.setHextileFg (t.subrects.getLast?.elim c.hextileFg fun r => r.1.color m), l) := by
  have hlen : ∀ r, (t.subrectBytes m r).length = m.bpp + 2 := by
    intro r
    rw [HextileTile.length_subrectBytes, if_pos hcoloured]
  have hround : ∀ j < t.subrects.length, Runs (do
        let bs ← rfb (rreBufAt (j * (m.bpp + 2) : ℕ) (m.bpp + 2))
        rfb (modify fun c => c.setHextileFg (m.paintColor bs))
        drawHextileSubrect valid tx ty (m.paintColor bs) (bs.drop m.bpp))
      (c.setHextileFg (colouredFg m t c.hextileFg j), l)
      (t.subrects[j]?.elim [] fun r =>
        if valid then drawWrites l (r.2.block tx ty (t.subrectColor m fg r)) else []) ()
      (c.setHextileFg (colouredFg m t c.hextileFg (j + 1)), l) := by
    intro j hj
    have hbytes : t.subrectBytes m t.subrects[j] =
        t.subrects[j].1.bytes m ++ t.subrects[j].2.bytes := if_pos hcoloured
    have hread := rreBufAt_items (c := c.setHextileFg (colouredFg m t c.hextileFg j)) hlen hj hc
    rw [hbytes] at hread
    rw [colouredFg_succ hj, List.getElem?_eq_getElem hj]
    apply Does.bind_read (runs_rfb hread)
    rw [Pixel.paintColor_bytes, List.drop_left' (Pixel.length_bytes m _)]
    apply Does.bind_read (runs_modify _)
    have hcolor : t.subrectColor m fg t.subrects[j] = t.subrects[j].1.color m := if_pos hcoloured
    show Runs _ _ (if valid then drawWrites l (_ : Block) else []) _ _
    rw [hcolor]
    exact runs_drawHextileSubrect _ _ _
  have hloop := Does.loop_states (fun j => (c.setHextileFg (colouredFg m t c.hextileFg j), l)) hround
  rw [flatMap_range_getElem?] at hloop
  have hend : colouredFg m t c.hextileFg t.subrects.length =
      t.subrects.getLast?.elim c.hextileFg fun r => r.1.color m := by
    rw [colouredFg, List.take_length]
  rw [hend] at hloop
  exact hloop

lemma runs_handleHextileSubrects {valid : Bool} (ht : t.subrects.length < 256)
    (hany : t.AnySubrects) {fg : UInt32} (hfg : c.hextileFg = t.foreground m fg)
    (hc : c.is =
      UInt8.ofNat t.subrects.length :: (t.subrects.flatMap (t.subrectBytes m) ++ rest)) :
    Runs (handleHextileSubrects m valid t.subencoding.toNat tx ty) (c, l)
      (t.subrects.flatMap fun r =>
        if valid then drawWrites l (r.2.block tx ty (t.subrectColor m fg r)) else []) ()
      ((c.fillRreBuf (t.subrects.flatMap (t.subrectBytes m)) rest).setHextileFg
        (t.lastForeground m fg), l) := by
  set data := t.subrects.flatMap (t.subrectBytes m) with hdata
  have hcount : (UInt8.ofNat t.subrects.length).toNat = t.subrects.length := by
    rw [UInt8.toNat_ofNat', Nat.mod_eq_of_lt ht]
  have hread : readUnsignedByte c = .ok _ (c.next (data ++ rest)) := readUnsignedByte_append hc
  rw [hcount] at hread
  have hlen := length_items (HextileTile.length_subrectBytes m t) t.subrects
  apply Does.bind_read (runs_rfb hread)
  by_cases hcoloured : t.SubrectsColoured
  · rw [if_pos hcoloured] at hlen
    have hfill : fillRreBuf (t.subrects.length * 2 + t.subrects.length * m.bpp : ℕ)
        (c.next (data ++ rest)) = .ok () (c.fillRreBuf data rest) := by
      apply fillRreBuf_append _ rfl
      rw [hlen]
      push_cast
      ring
    show Runs (if t.subencoding.toNat &&& hextileSubrectsColoured = 0 then _ else _) _ _ _ _
    rw [if_neg hcoloured]
    apply Does.bind_read (runs_rfb hfill)
    have hlast : t.lastForeground m fg =
        t.subrects.getLast?.elim (c.fillRreBuf data rest).hextileFg fun r => r.1.color m := by
      rw [HextileTile.lastForeground, if_pos ⟨hany, hcoloured⟩, ← hfg]
      rfl
    rw [hlast]
    exact runs_colouredSubrects hcoloured rfl fg
  · rw [if_neg hcoloured] at hlen
    have hfill : fillRreBuf (t.subrects.length * 2 : ℕ) (c.next (data ++ rest)) =
        .ok () (c.fillRreBuf data rest) := fillRreBuf_append (by rw [hlen]) rfl
    rw [if_pos (not_not.mp hcoloured)]
    apply Does.bind_read (runs_rfb hfill)
    apply Does.bind_read runs_get
    have hlast : t.lastForeground m fg = c.hextileFg := by
      rw [HextileTile.lastForeground, if_neg fun h => hcoloured h.2, hfg]
    rw [hlast]
    exact runs_plainSubrects hcoloured rfl hfg

lemma runs_handleHextileParts (ht : t.subrects.length < 256) (hraw : ¬ t.Raw)
    (hm : c.colorModel = m) (hc : c.is = t.partBytes m ++ rest) :
    Runs (handleHextileParts t.subencoding.toNat tx ty tw th) (c, l)
      (t.partWrites m l tx ty tw th c.hextileBg c.hextileFg) () (t.after m c rest, l) := by
  subst hm
  set m := c.colorModel
  set fgBytes := if t.ForegroundSpecified then t.fg.bytes m else [] with hfgBytes
  set subBytes := if t.AnySubrects then
    UInt8.ofNat t.subrects.length :: t.subrects.flatMap (t.subrectBytes m) else [] with hsubBytes
  rw [HextileTile.partBytes, List.append_assoc, List.append_assoc] at hc
  -- the connection after the background, and after the foreground
  set c₁ := (c.next (fgBytes ++ (subBytes ++ rest))).setHextileBg (t.background m c.hextileBg)
  set c₂ := (c₁.next (subBytes ++ rest)).setHextileFg (t.foreground m c.hextileFg)
  have hbg : Runs (if t.subencoding.toNat &&& hextileBackgroundSpecified ≠ 0 then do
      let bs ← rfb (readFully m.bpp)
      rfb (modify fun c => c.setHextileBg (m.paintColor bs))
      else pure ()) (c, l) [] () (c₁, l) := runs_specified Conn.setHextileBg rfl hc
  have hfg : Runs (if t.subencoding.toNat &&& hextileForegroundSpecified ≠ 0 then do
      let bs ← rfb (readFully m.bpp)
      rfb (modify fun c => c.setHextileFg (m.paintColor bs))
      else pure ()) (c₁, l) [] () (c₂, l) := runs_specified Conn.setHextileFg rfl rfl
  have hsub : Runs (if t.subencoding.toNat &&& hextileAnySubrects ≠ 0 then
      handleHextileSubrects m (l.validDraw tx ty tw th) t.subencoding.toNat tx ty else pure ())
      (c₂, l) (if t.AnySubrects then t.subrects.flatMap fun r =>
        if l.validDraw tx ty tw th then
          drawWrites l (r.2.block tx ty (t.subrectColor m c.hextileFg r)) else [] else []) ()
      (t.after m c rest, l) := by
    by_cases hany : t.AnySubrects
    · have hany' : t.subencoding.toNat &&& hextileAnySubrects ≠ 0 := hany
      have hc₂ : c₂.is = UInt8.ofNat t.subrects.length ::
          (t.subrects.flatMap (t.subrectBytes m) ++ rest) := by
        show subBytes ++ rest = _
        rw [hsubBytes, if_pos hany, List.cons_append]
      rw [if_pos hany', if_pos hany, HextileTile.after, if_neg hraw, if_pos hany]
      exact runs_handleHextileSubrects ht hany rfl hc₂
    · have hany' : ¬ t.subencoding.toNat &&& hextileAnySubrects ≠ 0 := hany
      have hlast : t.lastForeground m c.hextileFg = t.foreground m c.hextileFg :=
        if_neg fun h => hany h.1
      have hend : t.after m c rest = c₂ := by
        rw [HextileTile.after, if_neg hraw, if_neg hany, hlast]
        show _ = (c₁.next (subBytes ++ rest)).setHextileFg _
        rw [hsubBytes, if_neg hany]
        rfl
      rw [if_neg hany', if_neg hany, hend]
      exact Does.pure () _
  apply Does.bind_read runs_getLayout
  apply Does.bind_read runs_getColorModel
  apply Does.bind_read hbg
  apply Does.bind_read runs_get
  exact Does.bind (runs_if fun _ => runs_drawRect _ _ _ _ _) (Does.bind_read hfg hsub)

lemma runs_handleHextileSubrect (ht : t.Framed tw th) (hm : c.colorModel = m)
    (hc : c.is = t.bytes m ++ rest) :
    Runs (handleHextileSubrect tx ty tw th) (c, l)
      (t.writes m l tx ty tw th c.hextileBg c.hextileFg) () (t.after m c rest, l) := by
  by_cases hraw : t.Raw
  · have hraw' : t.subencoding.toNat &&& hextileRaw ≠ 0 := hraw
    rw [HextileTile.bytes, if_pos hraw] at hc
    have hread : readUnsignedByte c = .ok _ (c.next (t.pixels.flatMap (Pixel.bytes m) ++ rest)) :=
      readUnsignedByte_append hc
    rw [HextileTile.writes, HextileTile.after, if_pos hraw, if_pos hraw]
    apply Does.bind_read (runs_rfb hread)
    rw [if_pos hraw']
    exact runs_handleRawRect (ht.pixels hraw) hm rfl
  · have hraw' : ¬ t.subencoding.toNat &&& hextileRaw ≠ 0 := hraw
    rw [HextileTile.bytes, if_neg hraw] at hc
    have hread : readUnsignedByte c = .ok _ (c.next (t.partBytes m ++ rest)) :=
      readUnsignedByte_append hc
    rw [HextileTile.writes, if_neg hraw]
    apply Does.bind_read (runs_rfb hread)
    rw [if_neg hraw']
    have hafter : t.after m c rest = t.after m (c.next (t.partBytes m ++ rest)) rest := by
      rfl
    rw [hafter]
    exact runs_handleHextileParts ht.subrects hraw hm rfl

/-! ### All tiles -/

/-- The background and the foreground in front of the tile `i`. -/
def carried (m : ColorModel) (tiles : List HextileTile) : ℕ → UInt32 × UInt32
  | 0 => (black, black)
  | i + 1 =>
    tiles[i]?.elim (carried m tiles i) fun t =>
      if t.Raw then carried m tiles i
      else (t.background m (carried m tiles i).1, t.lastForeground m (carried m tiles i).2)

/-- The tiles from the tile `i` on are still to come. -/
def tilesFrom (m : ColorModel) (tiles : List HextileTile) (rest : List UInt8) (i : ℕ) :
    List UInt8 := (tiles.drop i).flatMap (HextileTile.bytes m) ++ rest

/-- The connection in front of the tile `i`. -/
def hextileConn (m : ColorModel) (tiles : List HextileTile) (rest : List UInt8) (c : Conn I) :
    ℕ → Conn I
  | 0 => (c.setHextileBg black).setHextileFg black
  | i + 1 =>
    tiles[i]?.elim (hextileConn m tiles rest c i) fun t =>
      t.after m (hextileConn m tiles rest c i) (tilesFrom m tiles rest (i + 1))

/-- What `handleHextileRect` writes. -/
def hextileWrites (l : Layout) (m : ColorModel) (x y w h : ℕ) (tiles : List HextileTile) :
    List (ℤ × UInt32) :=
  (List.range (tileCount 16 h)).flatMap fun r => (List.range (tileCount 16 w)).flatMap fun k =>
    tiles[r * tileCount 16 w + k]?.elim [] fun t =>
      t.writes m l (x + 16 * k) (y + 16 * r) (tileLength 16 w k) (tileLength 16 h r)
        (carried m tiles (r * tileCount 16 w + k)).1 (carried m tiles (r * tileCount 16 w + k)).2

/-- The tiles cover a rectangle of this size, and each has its parts. -/
structure HextileFramed (tiles : List HextileTile) (w h : ℕ) : Prop where
  length : tiles.length = tileCount 16 h * tileCount 16 w
  framed : ∀ r k t, k < tileCount 16 w → tiles[r * tileCount 16 w + k]? = some t →
    t.Framed (tileLength 16 w k) (tileLength 16 h r)

/-- The connections differ in the stream, the colours of the tiles and `rre_buf` only. -/
def Conn.SameSession (c c' : Conn I) : Prop :=
  c' = { c with is := c'.is, hextileBg := c'.hextileBg, hextileFg := c'.hextileFg, rreBuf := c'.rreBuf }

namespace HextileTile

lemma after_is : (t.after m c rest).is = rest := by
  unfold after
  split_ifs <;> rfl

lemma after_hextileBg (hraw : ¬ t.Raw) :
    (t.after m c rest).hextileBg = t.background m c.hextileBg := by
  rw [after, if_neg hraw]
  rfl

lemma after_hextileFg (hraw : ¬ t.Raw) :
    (t.after m c rest).hextileFg = t.lastForeground m c.hextileFg := by
  rw [after, if_neg hraw]
  rfl

lemma sameSession_after (h : c.SameSession c') : c.SameSession (t.after m c' rest) := by
  unfold after Conn.SameSession at *
  split_ifs <;> (rw [h]; rfl)

end HextileTile

variable {tiles : List HextileTile}

lemma hextileConn_succ {i : ℕ} (hi : i < tiles.length) :
    hextileConn m tiles rest c (i + 1) =
      tiles[i].after m (hextileConn m tiles rest c i) (tilesFrom m tiles rest (i + 1)) := by
  rw [hextileConn, List.getElem?_eq_getElem hi]
  rfl

lemma hextileConn_is (hc : c.is = tilesFrom m tiles rest 0) {i : ℕ} (hi : i ≤ tiles.length) :
    (hextileConn m tiles rest c i).is = tilesFrom m tiles rest i := by
  cases i with
  | zero => exact hc
  | succ i => rw [hextileConn_succ hi, HextileTile.after_is]

lemma sameSession_hextileConn (i : ℕ) : c.SameSession (hextileConn m tiles rest c i) := by
  induction i with
  | zero => rfl
  | succ i ih =>
    rw [hextileConn]
    cases tiles[i]? with
    | none => exact ih
    | some t => exact HextileTile.sameSession_after ih

/-- The colours that the connection has are those that are carried. -/
lemma hextileConn_carried (i : ℕ) :
    (hextileConn m tiles rest c i).hextileBg = (carried m tiles i).1 ∧
      (hextileConn m tiles rest c i).hextileFg = (carried m tiles i).2 := by
  induction i with
  | zero => exact ⟨rfl, rfl⟩
  | succ i ih =>
    obtain ⟨hbg, hfg⟩ := ih
    rw [hextileConn, carried]
    cases tiles[i]? with
    | none => exact ⟨hbg, hfg⟩
    | some t =>
      show (t.after m _ _).hextileBg = _ ∧ (t.after m _ _).hextileFg = _
      by_cases hraw : t.Raw
      · simp only [Option.elim, HextileTile.after, if_pos hraw]
        exact ⟨hbg, hfg⟩
      · rw [HextileTile.after_hextileBg hraw, HextileTile.after_hextileFg hraw, hbg, hfg]
        simp [hraw]

theorem runs_handleHextileRect (ht : HextileFramed tiles w h) (hm : c.colorModel = m)
    (hc : c.is = tiles.flatMap (HextileTile.bytes m) ++ rest) :
    ∃ c', Runs (handleHextileRect x y w h) (c, l) (hextileWrites l m x y w h tiles) () (c', l) ∧
      c'.is = rest ∧ c.SameSession c' := by
  have hround : ∀ r < tileCount 16 h, ∀ k < tileCount 16 w,
      Runs (handleHextileSubrect (x + 16 * k) (y + 16 * r) (tileLength 16 w k) (tileLength 16 h r))
        (hextileConn m tiles rest c (r * tileCount 16 w + k), l)
        (tiles[r * tileCount 16 w + k]?.elim [] fun t =>
          t.writes m l (x + 16 * k) (y + 16 * r) (tileLength 16 w k) (tileLength 16 h r)
            (carried m tiles (r * tileCount 16 w + k)).1
            (carried m tiles (r * tileCount 16 w + k)).2) ()
        (hextileConn m tiles rest c (r * tileCount 16 w + k + 1), l) := by
    intro r hr k hk
    have hi : r * tileCount 16 w + k < tiles.length := by
      rw [ht.length]
      exact nested_index_lt hr hk
    have hframed := ht.framed r k _ hk (List.getElem?_eq_getElem hi)
    generalize r * tileCount 16 w + k = i at hi hframed
    obtain ⟨hbg, hfg⟩ : (hextileConn m tiles rest c i).hextileBg = _ ∧
      (hextileConn m tiles rest c i).hextileFg = _ := hextileConn_carried i
    have hsession : c.SameSession (hextileConn m tiles rest c i) := sameSession_hextileConn i
    rw [hextileConn_succ hi, List.getElem?_eq_getElem hi, ← hbg, ← hfg]
    apply runs_handleHextileSubrect hframed
    · rw [hsession]
      exact hm
    · rw [hextileConn_is hc hi.le, tilesFrom, List.drop_eq_getElem_cons hi, List.flatMap_cons,
        List.append_assoc]
      rfl
  have hloop := Does.loop_nested (fun i => (hextileConn m tiles rest c i, l)) hround
  rw [← ht.length] at hloop
  refine ⟨hextileConn m tiles rest c tiles.length, ?_, ?_, sameSession_hextileConn _⟩
  · exact Does.bind_read (runs_modify _) hloop
  · rw [hextileConn_is hc le_rfl, tilesFrom, List.drop_length, List.flatMap_nil, List.nil_append]

end Limbo.Vnc
