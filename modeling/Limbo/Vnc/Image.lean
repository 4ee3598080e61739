import Limbo.Vnc.Content

/-!
# The image

Whatever encoding a rectangle comes in, the bitmap should have the same red, green and blue in the
end. It has, but for ZRLE tiles that are raw, whose pixels are not looked up in the palette, and for
what the large bitmap draws with `drawRect`.
-/

namespace Limbo.Vnc

open Lib

variable {I : Inflater} {l : Layout} {m : ColorModel} {w h i j fuel : ℕ} {rest rest' : List UInt8}
  {P : I.State → I.State → Prop}

/-! ### Colours -/

/-- Red, green and blue of a cell. -/
def rgb24 (c : UInt32) : UInt32 := c &&& 0xffffff

lemma rgb24_alpha (c : UInt32) : rgb24 (0xff000000 ||| c) = rgb24 c := by
  have halpha : (0xff000000 : BitVec 32) &&& 0xffffff = 0 := by decide
  apply UInt32.toBitVec_inj.mp
  show ((0xff000000 : BitVec 32) ||| c.toBitVec) &&& 0xffffff = c.toBitVec &&& 0xffffff
  rw [BitVec.and_or_distrib_right, halpha]
  exact BitVec.zero_or

/-- The colour for a `Paint` has only the alpha that the other one has not. -/
lemma rgb24_color (p : Pixel) : rgb24 (p.color m) = rgb24 (p.rawColor m) := by
  cases hpal : m.palette with
  | some colors => simp only [Pixel.color, Pixel.rawColor, hpal]
  | none =>
    simp only [Pixel.color, Pixel.rawColor, hpal, rgb, UInt32.or_assoc]
    exact rgb24_alpha _

/-- The colour of a pixel is that of its number. -/
lemma rawColor_congr {p q : Pixel} (h : p.value m = q.value m) : p.rawColor m = q.rawColor m := by
  rw [← Pixel.lookup_value, ← Pixel.lookup_value, h]

/-- A number of the palette is its own colour only if it is that of black. -/
lemma colors256_eq_self : ∀ n < 256,
    rgb24 (ColorModel.colors256 (UInt8.ofNat n)) = rgb24 (UInt8.ofNat n).toUInt32 ↔ n = 0 := by
  decide +kernel

lemma rgb24_value (hm : m = .c256 ∨ m = .c24bit) (p : Pixel) :
    rgb24 (p.value m) = rgb24 (p.rawColor m) ↔ m = .c24bit ∨ p.b0 = 0 := by
  rcases hm with rfl | rfl
  · have hself := colors256_eq_self p.b0.toNat p.b0.toNat_lt
    rw [UInt8.ofNat_toNat] at hself
    show rgb24 p.b0.toUInt32 = rgb24 (ColorModel.colors256 p.b0) ↔ _
    rw [eq_comm, hself, or_iff_right (by decide)]
    exact ⟨fun h => UInt8.toNat_inj.mp h, fun h => by rw [h]; rfl⟩
  · exact iff_of_true rfl (.inl rfl)

/-! ### What a run leaves in the bitmap -/

/-- Red, green and blue of a place of the rectangle at `(x, y)`. -/
def rgbAt (s : VncCanvas I) (x y i j : ℕ) : Option UInt32 :=
  (bitmapPixels s)[(s.bitmapData.layout.cell (x + i) (y + j)).toNat]?.map rgb24

/-- After the writes of the patches a place has what is stored for it, or what it had. -/
lemma Handles.rgbAt {x : Client I Unit} {s : VncCanvas I} {X Y : ℕ} {ps : List Patch}
    (hx : Handles x s.conn s.bitmapData.layout (ps.flatMap (Patch.writes m s.bitmapData.layout X Y))
      rest P)
    (hold : s.bitmapData.layout.Holds X Y w h) (hps : ∀ p ∈ ps, p.Inside w h)
    (hin : s.bitmapData.layout.InArray (ps.flatMap (Patch.writes m s.bitmapData.layout X Y))) :
    ∃ t, x s = .ok () t ∧ ∀ i < w, ∀ j < h, Vnc.rgbAt t X Y i j =
      ((stored m s.bitmapData.layout ps i j).map rgb24).or (Vnc.rgbAt s X Y i j) := by
  obtain ⟨c', hrun, -⟩ := hx
  obtain ⟨t, ht, hcore, hwrites⟩ := Runs.ok (s := s) hrun hin
  have hlayout : t.bitmapData.layout = s.bitmapData.layout := congrArg Prod.snd hcore
  refine ⟨t, ht, fun i hi j hj => ?_⟩
  have hpos : 0 ≤ s.bitmapData.layout.cell (X + i) (Y + j) := by
    rw [← hold.offset_eq_cell s.bitmapData.bounded hi hj]
    exact (hold.offset_mem s.bitmapData.bounded hi hj).1
  have hlast := lastWrite_patches (m := m) s.bitmapData.bounded hold hps hi hj
  rw [Vnc.rgbAt, Vnc.rgbAt, hlayout, getElem?_applyWrites hwrites, Int.toNat_of_nonneg hpos, hlast,
    Option.map_or]

/-! ### Two ways to send a rectangle -/

/-- The data of the rectangle describes the pixels: the patches show the same numbers. -/
structure Describes (m : ColorModel) (r : Rect) (pixels : List Pixel) : Prop where
  length : pixels.length = r.w.toNat * r.h.toNat
  wellFormed : r.WellFormed
  specified : r.encoding.Specified
  picture : ∀ i < r.w.toNat, ∀ j < r.h.toNat,
    (picture (r.encoding.patches r.w.toNat r.h.toNat) i j).map (Pixel.value m) =
      some ((pixels.getD (j * r.w.toNat + i) default).value m)

/-- Whatever the bitmap has, the pixels as they are and the rectangle with its own encoding leave
the same red, green and blue. -/
def SameImage (fuel : ℕ) (c c' : Conn I) (l : Layout) (r : Rect) : Prop :=
  ∀ b : BitmapData, b.layout = l → ∃ s t,
    handleRawRect r.x.toNat r.y.toNat r.w.toNat r.h.toNat ⟨c, b⟩ = .ok () s ∧
    handleRect fuel r.hdr ⟨c', b⟩ = .ok () t ∧
    ∀ i < r.w.toNat, ∀ j < r.h.toNat,
      rgbAt s r.x.toNat r.y.toNat i j = rgbAt t r.x.toNat r.y.toNat i j

/-- The bitmap with one colour everywhere. -/
def BitmapData.fill (b : BitmapData) (color : UInt32) : BitmapData :=
  { b with
    bitmapPixels := List.replicate b.bitmapPixels.length color
    length_bitmapPixels := by rw [List.length_replicate, b.length_bitmapPixels] }

lemma rgbAt_fill {b : BitmapData} {c : Conn I} {color : UInt32} {x y : ℕ}
    (hold : b.layout.Holds x y w h) (hi : i < w) (hj : j < h) :
    rgbAt ⟨c, b.fill color⟩ x y i j = some (rgb24 color) := by
  obtain ⟨hlow, hhigh⟩ := hold.offset_mem b.bounded hi hj
  rw [hold.offset_eq_cell b.bounded hi hj] at hlow hhigh
  have hlen : (b.bitmapPixels.length : ℤ) = b.layout.bitmapwidth * b.layout.bitmapheight := by
    rw [b.length_bitmapPixels]
    exact Nat.cast_mul _ _
  have hlt : (b.layout.cell (x + i) (y + j)).toNat < b.bitmapPixels.length := by omega
  show ((List.replicate b.bitmapPixels.length color)[(b.layout.cell (x + i) (y + j)).toNat]?).map
    rgb24 = _
  rw [List.getElem?_replicate, if_pos hlt, Option.map_some]

section TwoWays

variable {c c' : Conn I} {b : BitmapData} {r : Rect} {pixels : List Pixel}

/-- What the pixels as they are leave. -/
lemma rgbAt_raw (hold : b.layout.Holds r.x.toNat r.y.toNat r.w.toNat r.h.toNat)
    (hlen : pixels.length = r.w.toNat * r.h.toNat) (hm : c.colorModel = m)
    (hc : c.is = pixels.flatMap (Pixel.bytes m) ++ rest) :
    ∃ s, handleRawRect r.x.toNat r.y.toNat r.w.toNat r.h.toNat ⟨c, b⟩ = .ok () s ∧
      ∀ i < r.w.toNat, ∀ j < r.h.toNat, rgbAt s r.x.toNat r.y.toNat i j =
        some (rgb24 ((pixels.getD (j * r.w.toNat + i) default).rawColor m)) := by
  set p : Patch := ⟨0, 0, r.w.toNat, r.h.toNat,
    fun i j => pixels.getD (j * r.w.toNat + i) default, .pixels⟩
  have hinside : ∀ q ∈ [p], q.Inside r.w.toNat r.h.toNat := by
    intro q hq
    obtain rfl := List.mem_singleton.mp hq
    exact ⟨(Nat.zero_add _).le, (Nat.zero_add _).le⟩
  have hwrites : rawWrites b.layout m r.x.toNat r.y.toNat r.w.toNat r.h.toNat pixels =
      [p].flatMap (Patch.writes m b.layout r.x.toNat r.y.toNat) := by
    rw [List.flatMap_singleton]
    exact if_pos hold.validDraw
  have hrun : Handles (handleRawRect r.x.toNat r.y.toNat r.w.toNat r.h.toNat) c b.layout
      ([p].flatMap (Patch.writes m b.layout r.x.toNat r.y.toNat)) rest fun _ _ => True := by
    rw [← hwrites]
    exact ⟨_, runs_handleRawRect hlen hm hc, rfl, rfl, trivial⟩
  have hin : b.layout.InArray ([p].flatMap (Patch.writes m b.layout r.x.toNat r.y.toNat)) := by
    rw [← hwrites]
    exact Layout.inArray_if fun _ => Block.inArray hold b.bounded
  obtain ⟨s, hs, hrgb⟩ := Handles.rgbAt (s := ⟨c, b⟩) hrun hold hinside hin
  refine ⟨s, hs, fun i hi j hj => ?_⟩
  have hcovers : p.Covers i j := by
    show 0 ≤ i ∧ i < 0 + r.w.toNat ∧ 0 ≤ j ∧ j < 0 + r.h.toNat
    omega
  have hpaint : p.Stored b.layout := by
    unfold Patch.Stored
    cases b.layout with
    | full fw fh => trivial
    | large xo yo bw bh => exact nofun
  have hstored : stored m b.layout [p] i j =
      some ((pixels.getD (j * r.w.toNat + i) default).rawColor m) := by
    rw [stored, List.filter_cons, if_pos (decide_eq_true hpaint), List.filter_nil, topPatch,
      topPatch, Option.none_or, if_pos hcovers]
    rfl
  rw [hrgb i hi j hj, hstored]
  rfl

/-- The images are the same if each place gets the colour of its pixel, and in general only then:
otherwise the bitmap may have had another colour there. -/
lemma sameImage_iff_stored (hold : b.layout.Holds r.x.toNat r.y.toNat r.w.toNat r.h.toNat)
    (hdesc : Describes m r pixels) (htaken : r.Taken m b.layout) (hfuel : 4096 < fuel)
    (hm : c.colorModel = m) (hm' : c'.colorModel = m)
    (hc : c.is = pixels.flatMap (Pixel.bytes m) ++ rest)
    (hc' : c'.is = r.encoding.bytes m ++ rest')
    (hP : r.encoding.Inflates I m P c'.zlibInflater c'.zrleInStream.inflater) :
    SameImage fuel c c' b.layout r ↔ ∀ i < r.w.toNat, ∀ j < r.h.toNat,
      (stored m b.layout (r.encoding.patches r.w.toNat r.h.toNat) i j).map rgb24 =
        some (rgb24 ((pixels.getD (j * r.w.toNat + i) default).rawColor m)) := by
  obtain ⟨fuel, rfl⟩ := Nat.exists_eq_add_one_of_ne_zero (Nat.ne_zero_of_lt hfuel)
  have hwrites := r.encoding.writes_eq (m := m) hold hdesc.specified
  have hinside := r.encoding.patches_inside hdesc.wellFormed
  have hrun := handles_handleRect hdesc.wellFormed htaken (Nat.lt_succ_iff.mp hfuel) hm' hc' hP
  have hin := Rect.inArray_writes b.bounded hdesc.wellFormed htaken
  unfold Rect.writes at hrun hin
  rw [hwrites] at hrun hin
  -- both runs, from any bitmap of this layout
  have hboth : ∀ b' : BitmapData, b'.layout = b.layout → ∃ s t,
      handleRawRect r.x.toNat r.y.toNat r.w.toNat r.h.toNat ⟨c, b'⟩ = .ok () s ∧
      handleRect (fuel + 1) r.hdr ⟨c', b'⟩ = .ok () t ∧
      ∀ i < r.w.toNat, ∀ j < r.h.toNat,
        rgbAt s r.x.toNat r.y.toNat i j =
          some (rgb24 ((pixels.getD (j * r.w.toNat + i) default).rawColor m)) ∧
        rgbAt t r.x.toNat r.y.toNat i j =
          ((stored m b.layout (r.encoding.patches r.w.toNat r.h.toNat) i j).map rgb24).or
            (rgbAt (⟨c', b'⟩ : VncCanvas I) r.x.toNat r.y.toNat i j) := by
    intro b' hb'
    obtain ⟨s, hs, hraw⟩ := rgbAt_raw (b := b') (by rwa [hb']) hdesc.length hm hc
    obtain ⟨t, ht, hrgb⟩ := Handles.rgbAt (s := ⟨c', b'⟩) (by rwa [hb']) (by rwa [hb']) hinside
      (by rwa [hb'])
    rw [hb'] at hrgb
    exact ⟨s, t, hs, ht, fun i hi j hj => ⟨hraw i hi j hj, hrgb i hi j hj⟩⟩
  constructor
  · intro hsame i hi j hj
    -- a bitmap with another colour
    obtain ⟨other, hother⟩ : ∃ color, rgb24 color ≠
        rgb24 ((pixels.getD (j * r.w.toNat + i) default).rawColor m) := by
      by_cases hzero : rgb24 ((pixels.getD (j * r.w.toNat + i) default).rawColor m) = 0
      · exact ⟨1, by rw [hzero]; decide⟩
      · exact ⟨0, fun h => hzero h.symm⟩
    obtain ⟨s, t, hs, ht, hrgb⟩ := hboth (b.fill other) rfl
    obtain ⟨s', t', hs', ht', heq⟩ := hsame (b.fill other) rfl
    rw [hs] at hs'
    rw [ht] at ht'
    cases hs'
    cases ht'
    obtain ⟨hraw, hstored⟩ := hrgb i hi j hj
    have hcell := heq i hi j hj
    rw [hraw, hstored, rgbAt_fill hold hi hj] at hcell
    cases hst : stored m b.layout (r.encoding.patches r.w.toNat r.h.toNat) i j with
    | none =>
      rw [hst] at hcell
      exact absurd (Option.some.inj hcell).symm hother
    | some color =>
      rw [hst] at hcell
      exact hcell.symm
  · intro hstored b' hb'
    obtain ⟨s, t, hs, ht, hrgb⟩ := hboth b' hb'
    refine ⟨s, t, hs, ht, fun i hi j hj => ?_⟩
    obtain ⟨hraw, hcell⟩ := hrgb i hi j hj
    rw [hraw, hcell, hstored i hi j hj, Option.some_or]

end TwoWays

/-! ### When the images are the same -/

/-- A raw tile has to be of 24 bits, or black; a solid tile is drawn with `drawRect`. -/
def ZrleTile.Exact (m : ColorModel) (l : Layout) : ZrleTile → Prop
  | raw pixels => m = .c24bit ∨ ∀ p ∈ pixels, p.b0 = 0
  | solid _ => l.Full
  | packed .. | plainRle _ | paletteRle .. => True

/-- The client leaves the image that the data describes. -/
def Encoding.Exact (m : ColorModel) (l : Layout) (w h : ℕ) : Encoding → Prop
  | rre .. | coRRE .. => l.Full ∨ w = 0 ∨ h = 0
  | hextile tiles => l.Full ∨ ∀ t ∈ tiles, t.Raw
  | zrle _ tiles => ∀ t ∈ tiles, t.Exact m l
  | raw _ | zlib .. | copyRect .. | lastRect | newFBSize => True

def Patch.Exact (m : ColorModel) (l : Layout) (p : Patch) : Prop :=
  p.Stored l ∧ (p.paint = .numbers → m = .c24bit ∨ ∀ i j, p.Covers i j → (p.pixelAt i j).b0 = 0)

lemma Patch.stored_of_full {p : Patch} (h : l.Full) : p.Stored l := by
  cases l with
  | full fw fh => trivial
  | large xo yo bw bh => exact h.elim

lemma Patch.stored_of_paint {p : Patch} (h : p.paint ≠ .rect) : p.Stored l := by
  cases l with
  | full fw fh => trivial
  | large xo yo bw bh => exact h

/-- A patch of `drawRect` is exact in the full bitmap. -/
lemma Patch.exact_rect {p : Patch} (hfull : l.Full) (hp : p.paint = .rect) : p.Exact m l :=
  ⟨stored_of_full hfull, fun h => absurd (h.symm.trans hp) (by decide)⟩

lemma Patch.exact_pixels {p : Patch} (hp : p.paint = .pixels) : p.Exact m l :=
  ⟨stored_of_paint (by rw [hp]; decide), fun h => absurd (h.symm.trans hp) (by decide)⟩

/-- Patches that are exact leave the colours of the picture. -/
lemma stored_of_exact (hm : m = .c256 ∨ m = .c24bit) {ps : List Patch} {q : Pixel}
    (hps : ∀ p ∈ ps, p.Exact m l)
    (hpicture : (picture ps i j).map (Pixel.value m) = some (q.value m)) :
    (stored m l ps i j).map rgb24 = some (rgb24 (q.rawColor m)) := by
  have hfilter : ps.filter (·.Stored l) = ps := by
    apply List.filter_eq_self.mpr
    intro p hp
    exact decide_eq_true (hps p hp).1
  rw [picture, Option.map_map, Option.map_eq_some_iff] at hpicture
  obtain ⟨p, htop, hvalue⟩ := hpicture
  obtain ⟨hp, hcovers⟩ := topPatch_mem htop
  rw [stored, hfilter, htop, Option.map_some, Option.map_some, ← rawColor_congr hvalue]
  cases hpaint : p.paint with
  | rect => exact congrArg some (rgb24_color _)
  | pixels => rfl
  | numbers =>
    have hexact := ((hps p hp).2 hpaint).imp_right fun h => h i j hcovers
    exact congrArg some ((rgb24_value hm _).mpr hexact)

lemma HextileTile.patches_paint {t : HextileTile} {x y tw th : ℕ} {bg fg : Option Pixel} :
    ∀ p ∈ t.patches x y tw th bg fg, p.paint = if t.Raw then .pixels else .rect := by
  intro p hp
  unfold patches at hp
  split_ifs at hp ⊢ with hraw hany
  · obtain rfl := List.mem_singleton.mp hp
    rfl
  · rcases List.mem_cons.mp hp with rfl | hp
    · rfl
    · obtain ⟨s, -, rfl⟩ := List.mem_map.mp hp
      rfl
  · obtain rfl := List.mem_singleton.mp hp
    rfl

lemma ZrleTile.patch_exact {t : ZrleTile} {x y tw th : ℕ} (ht : t.Framed tw th)
    (h : t.Exact m l) : (t.patch x y tw th).Exact m l := by
  cases t with
  | raw pixels =>
    refine ⟨Patch.stored_of_paint (by show Paint.numbers ≠ .rect; decide), fun _ => ?_⟩
    apply Or.imp_right _ h
    intro hzero i j hcovers
    obtain ⟨hx, hxw, hy, hyh⟩ : x ≤ i ∧ i < x + tw ∧ y ≤ j ∧ j < y + th := hcovers
    have hlt : (j - y) * tw + (i - x) < pixels.length := by
      rw [show pixels.length = tw * th from ht, mul_comm tw th]
      exact nested_index_lt (by omega) (by omega)
    show (pixels.getD ((j - y) * tw + (i - x)) default).b0 = 0
    rw [List.getD_eq_getElem _ _ hlt]
    exact hzero _ (List.getElem_mem hlt)
  | solid pixel => exact Patch.exact_rect h rfl
  | packed palette rows | plainRle runs | paletteRle palette runs => exact Patch.exact_pixels rfl

/-- What the condition says of the patches. -/
lemma Encoding.patches_exact {e : Encoding} (hwf : e.WellFormed w h) (hexact : e.Exact m l w h)
    (hw : 0 < w) (hh : 0 < h) : ∀ p ∈ e.patches w h, p.Exact m l := by
  intro p hp
  cases e with
  | raw pixels | zlib data pixels =>
    obtain rfl := List.mem_singleton.mp hp
    exact Patch.exact_pixels rfl
  | rre bg subrects | coRRE bg subrects =>
    have hfull : l.Full := hexact.resolve_right (by omega)
    rcases List.mem_cons.mp hp with rfl | hp
    · exact Patch.exact_rect hfull rfl
    · obtain ⟨r, -, rfl⟩ := List.mem_map.mp hp
      exact Patch.exact_rect hfull rfl
  | hextile tiles =>
    obtain ⟨r, -, hp⟩ := List.mem_flatMap.mp hp
    obtain ⟨k, -, hp⟩ := List.mem_flatMap.mp hp
    rw [hextilePatches] at hp
    cases ht : tiles[r * tileCount 16 w + k]? with
    | none =>
      rw [ht] at hp
      cases hp
    | some t =>
      rw [ht] at hp
      have hpaint := HextileTile.patches_paint p hp
      rcases hexact with hfull | hraw
      · split_ifs at hpaint
        · exact Patch.exact_pixels hpaint
        · exact Patch.exact_rect hfull hpaint
      · rw [if_pos (hraw t (List.mem_of_getElem? ht))] at hpaint
        exact Patch.exact_pixels hpaint
  | zrle data tiles =>
    obtain ⟨r, -, hp⟩ := List.mem_flatMap.mp hp
    obtain ⟨k, hk, hp⟩ := List.mem_flatMap.mp hp
    rw [zrlePatches] at hp
    cases ht : tiles[r * tileCount 64 w + k]? with
    | none =>
      rw [ht] at hp
      cases hp
    | some t =>
      rw [ht] at hp
      obtain rfl := List.mem_singleton.mp hp
      exact ZrleTile.patch_exact (hwf.2.framed r k t (List.mem_range.mp hk) ht)
        (hexact t (List.mem_of_getElem? ht))
  | copyRect srcX srcY | lastRect | newFBSize => cases hp

/-! ### Only then -/

lemma stored_eq_none {ps : List Patch} (hps : ∀ p ∈ ps, ¬ p.Stored l) :
    stored m l ps i j = none := by
  have hfilter : ps.filter (·.Stored l) = [] := by
    apply List.filter_eq_nil_iff.mpr
    intro p hp
    simpa using hps p hp
  rw [stored, hfilter]
  rfl

lemma Patch.not_stored {p : Patch} (hfull : ¬ l.Full) (hp : p.paint = .rect) : ¬ p.Stored l := by
  cases l with
  | full fw fh => exact absurd trivial hfull
  | large xo yo bw bh => exact not_not.mpr hp

/-- The number of a tile in a row of tiles. -/
lemma exists_tile {n rows columns : ℕ} (hn : n < rows * columns) :
    ∃ r < rows, ∃ k < columns, r * columns + k = n := by
  have hpos : 0 < columns := Nat.pos_of_mul_pos_left (Nat.zero_lt_of_lt hn)
  refine ⟨n / columns, (Nat.div_lt_iff_lt_mul hpos).mpr hn, n % columns, Nat.mod_lt n hpos, ?_⟩
  rw [mul_comm]
  exact Nat.div_add_mod n columns

section Tiles

variable {size r k : ℕ} {f : ℕ → ℕ → List Patch} (hr : r < tileCount size h)
  (hk : k < tileCount size w)
  (hf : ∀ r < tileCount size h, ∀ k < tileCount size w, ∀ p ∈ f r k, p.InTile size w h r k)
  (hi : i < tileLength size w k) (hj : j < tileLength size h r)
include hr hk hf hi hj

lemma picture_tiled : picture (tiled size w h f) (size * k + i) (size * r + j) =
    picture (f r k) (size * k + i) (size * r + j) := by
  rw [picture, topPatch_tiled hr hk hf hi hj, picture]

lemma stored_tiled : stored m l (tiled size w h f) (size * k + i) (size * r + j) =
    stored m l (f r k) (size * k + i) (size * r + j) := by
  rw [stored, filter_tiled, stored]
  congr 1
  apply topPatch_tiled hr hk _ hi hj
  intro r hr k hk p hp
  exact hf r hr k hk p (List.mem_filter.mp hp).1

end Tiles

/-- The image is the same only if the client leaves the image that the data describes. -/
lemma Encoding.exact_of_stored {e : Encoding} {pixels : List Pixel}
    (hm : m = .c256 ∨ m = .c24bit) (hwf : e.WellFormed w h)
    (hpicture : ∀ i < w, ∀ j < h, (picture (e.patches w h) i j).map (Pixel.value m) =
      some ((pixels.getD (j * w + i) default).value m))
    (hstored : ∀ i < w, ∀ j < h, (stored m l (e.patches w h) i j).map rgb24 =
      some (rgb24 ((pixels.getD (j * w + i) default).rawColor m))) : e.Exact m l w h := by
  have hsome : ∀ i < w, ∀ j < h, stored m l (e.patches w h) i j ≠ none := by
    intro i hi j hj hnone
    have hcell := hstored i hi j hj
    rw [hnone] at hcell
    cases hcell
  cases e with
  | raw pixels' | zlib data pixels' | copyRect srcX srcY | lastRect | newFBSize => trivial
  | rre bg subrects | coRRE bg subrects =>
    by_contra hnot
    obtain ⟨hfull, hw, hh⟩ : ¬ l.Full ∧ w ≠ 0 ∧ h ≠ 0 := by
      simpa only [Encoding.Exact, not_or] using hnot
    apply hsome 0 (Nat.pos_of_ne_zero hw) 0 (Nat.pos_of_ne_zero hh)
    apply stored_eq_none
    intro p hp
    apply Patch.not_stored hfull
    rcases List.mem_cons.mp hp with rfl | hp
    · rfl
    · obtain ⟨s, -, rfl⟩ := List.mem_map.mp hp
      rfl
  | hextile tiles =>
    by_contra hnot
    obtain ⟨hfull, hraw⟩ : ¬ l.Full ∧ ¬ ∀ t ∈ tiles, t.Raw := not_or.mp hnot
    push Not at hraw
    obtain ⟨t, ht, hraw⟩ := hraw
    obtain ⟨n, hn, rfl⟩ := List.mem_iff_getElem.mp ht
    obtain ⟨r, hr, k, hk, rfl⟩ := exists_tile (hwf.1.length ▸ hn)
    have hw := tileLength_pos (by decide) hk
    have hh := tileLength_pos (by decide) hr
    have hcolumn := tile_le hk (by decide)
    have hrow := tile_le hr (by decide)
    apply hsome (16 * k + 0) (by omega) (16 * r + 0) (by omega)
    have htile : stored m l (tiled 16 w h (hextilePatches tiles w h)) (16 * k + 0) (16 * r + 0) =
        stored m l (hextilePatches tiles w h r k) (16 * k + 0) (16 * r + 0) :=
      stored_tiled hr hk (fun r _ k hk => hextilePatches_inTile hwf.2 hk) hw hh
    rw [Encoding.patches, htile]
    apply stored_eq_none
    intro p hp
    rw [hextilePatches, List.getElem?_eq_getElem hn] at hp
    apply Patch.not_stored hfull
    rw [HextileTile.patches_paint p hp, if_neg hraw]
  | zrle data tiles =>
    intro t ht
    obtain ⟨n, hn, rfl⟩ := List.mem_iff_getElem.mp ht
    obtain ⟨r, hr, k, hk, rfl⟩ := exists_tile (hwf.2.length ▸ hn)
    have hcolumn := tile_le hk (by decide)
    have hrow := tile_le hr (by decide)
    have hone : zrlePatches tiles w h r k = [(tiles[r * tileCount 64 w + k]).patch (64 * k)
        (64 * r) (tileLength 64 w k) (tileLength 64 h r)] := by
      rw [zrlePatches, List.getElem?_eq_getElem hn]
      rfl
    have hframed := hwf.2.framed r k _ hk (List.getElem?_eq_getElem hn)
    -- what the tile shows and what is stored at a place of the tile
    have hplace : ∀ i < tileLength 64 w k, ∀ j < tileLength 64 h r,
        picture (tiled 64 w h (zrlePatches tiles w h)) (64 * k + i) (64 * r + j) =
          picture (zrlePatches tiles w h r k) (64 * k + i) (64 * r + j) ∧
        stored m l (tiled 64 w h (zrlePatches tiles w h)) (64 * k + i) (64 * r + j) =
          stored m l (zrlePatches tiles w h r k) (64 * k + i) (64 * r + j) := by
      intro i hi j hj
      exact ⟨picture_tiled hr hk (fun _ _ _ _ => zrlePatches_inTile) hi hj,
        stored_tiled hr hk (fun _ _ _ _ => zrlePatches_inTile) hi hj⟩
    rw [hone] at hplace
    generalize tiles[r * tileCount 64 w + k] = t at hplace hframed
    cases t with
    | packed palette rows | plainRle runs | paletteRle palette runs => trivial
    | solid pixel =>
      by_contra hfull
      have hw := tileLength_pos (by decide) hk
      have hh := tileLength_pos (by decide) hr
      apply hsome (64 * k + 0) (by omega) (64 * r + 0) (by omega)
      rw [Encoding.patches, (hplace 0 hw 0 hh).2]
      apply stored_eq_none
      intro p hp
      obtain rfl := List.mem_singleton.mp hp
      exact Patch.not_stored hfull rfl
    | raw pixels' =>
      by_contra hnot
      obtain ⟨hdeep, hzero⟩ : ¬ m = .c24bit ∧ ¬ ∀ p ∈ pixels', p.b0 = 0 := not_or.mp hnot
      push Not at hzero
      obtain ⟨p, hp, hb0⟩ := hzero
      obtain ⟨n, hn, rfl⟩ := List.mem_iff_getElem.mp hp
      have hlen : pixels'.length = tileLength 64 w k * tileLength 64 h r := hframed
      have hn' : n < tileLength 64 h r * tileLength 64 w k := by
        rw [mul_comm, ← hlen]
        exact hn
      obtain ⟨j, hj, i, hi, rfl⟩ := exists_tile hn'
      obtain ⟨hpic, hst⟩ := hplace i hi j hj
      set patch := ZrleTile.patch (.raw pixels') (64 * k) (64 * r) (tileLength 64 w k)
        (tileLength 64 h r)
      have hcovers : patch.Covers (64 * k + i) (64 * r + j) :=
        ⟨Nat.le_add_right _ _, Nat.add_lt_add_left hi _, Nat.le_add_right _ _,
          Nat.add_lt_add_left hj _⟩
      have hat : patch.pixelAt (64 * k + i) (64 * r + j) =
          pixels'[j * tileLength 64 w k + i] := by
        show pixels'.getD ((64 * r + j - 64 * r) * tileLength 64 w k + (64 * k + i - 64 * k))
          default = _
        rw [Nat.add_sub_cancel_left, Nat.add_sub_cancel_left, List.getD_eq_getElem _ _ hn]
      have htop : topPatch [patch] (64 * k + i) (64 * r + j) = some patch := by
        rw [topPatch, topPatch, Option.none_or, if_pos hcovers]
      have hkept : [patch].filter (·.Stored l) = [patch] := by
        have hstoredPatch : patch.Stored l := Patch.stored_of_paint (by
          show Paint.numbers ≠ .rect
          decide)
        rw [List.filter_cons, if_pos (decide_eq_true hstoredPatch), List.filter_nil]
      have hshown := hpicture (64 * k + i) (by omega) (64 * r + j) (by omega)
      have hleft := hstored (64 * k + i) (by omega) (64 * r + j) (by omega)
      rw [Encoding.patches, hpic, picture, htop, Option.map_some, Option.map_some, hat] at hshown
      rw [Encoding.patches, hst, stored, hkept, htop, Option.map_some, Option.map_some, hat,
        ← rawColor_congr (Option.some.inj hshown)] at hleft
      have hsame : rgb24 ((pixels'[j * tileLength 64 w k + i]).value m) =
          rgb24 ((pixels'[j * tileLength 64 w k + i]).rawColor m) := Option.some.inj hleft
      exact hb0 (((rgb24_value hm _).mp hsame).resolve_left hdeep)

/-! ### The decoders -/

lemma Layout.Holds.takes {x y : ℕ} (hold : l.Holds x y w h) : l.Takes x y w h := by
  cases l with
  | full fw fh => exact hold
  | large xo yo bw bh => trivial

/-- One pixel of the palette. -/
def onePixel : Pixel := ⟨5, 0, 0, 0⟩

/-- The pixel as the background of an RRE rectangle. -/
def rreOfOne : Rect := ⟨0, 0, 1, 1, .rre onePixel []⟩

/-- One raw tile of one pixel, compressed. -/
def rawTileData : List UInt8 := [120, 156, 98, 96, 5, 0, 0, 0, 255, 255]

/-- The pixel as a raw tile of a ZRLE rectangle. -/
def zrleOfOne : Rect := ⟨0, 0, 1, 1, .zrle rawTileData [.raw [onePixel]]⟩

def rawTileInflater : Inflater := .ofTable [(rawTileData, [0, 5])]

/-- Red, green and blue at the origin after a run that returns. -/
def rgbAtOrigin (r : EStateM.Result Exn (VncCanvas I) Unit) : Option UInt32 :=
  match r with
  | .ok _ t => rgbAt t 0 0 0 0
  | .error _ _ => none

end Limbo.Vnc
