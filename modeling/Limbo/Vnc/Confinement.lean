import Limbo.Vnc.Framing
import Limbo.Vnc.Subrectangles

/-!
# Confinement

A handler that returns should change cells of its rectangle only. It does, if the bitmap of the
whole frame is as wide as the rectangle needs it and the cells of all subrectangles are in the
rectangle; the large bitmap is always safe.
-/

namespace Limbo.Vnc

open Lib

variable {I : Inflater} {c : Conn I} {l : Layout} {m : ColorModel} {x y w h tx ty tw th fuel : ℕ}
  {K S : Set ℤ} {ws : List (ℤ × UInt32)}

/-! ### Confined runs -/

/-- The cell is one of the rectangle. -/
def Layout.InRect (l : Layout) (x y w h : ℕ) (k : ℤ) : Prop :=
  (x ≤ l.column k ∧ l.column k < x + w) ∧ y ≤ l.row k ∧ l.row k < y + h

/-- The program returns in some state of the bitmap. -/
def Returns (z : Client I Unit) (c : Conn I) (l : Layout) : Prop :=
  ∃ s t, core s = (c, l) ∧ z s = .ok () t

/-- If the program returns, then the cells outside the rectangle are as they were. -/
def Confined (z : Client I Unit) (c : Conn I) (l : Layout) (x y w h : ℕ) : Prop :=
  ∀ s t, core s = (c, l) → z s = .ok () t →
    ∀ k : ℕ, ¬ l.InRect x y w h k → (bitmapPixels t)[k]? = (bitmapPixels s)[k]?

lemma Throws.not_returns {z : Client I Unit} (h : Throws z (c, l)) : ¬ Returns z c l := by
  rintro ⟨s, t, hs, hrun⟩
  obtain ⟨e, t', herr⟩ := h s hs
  rw [hrun] at herr
  cases herr

/-- A run that returns makes writes to the array. -/
lemma Returns.inArray {z : Client I Unit} {v : Conn I × Layout} (hret : Returns z c l)
    (hrun : Runs z (c, l) ws () v) : l.InArray ws := by
  obtain ⟨s, t, hs, hok⟩ := hret
  obtain ⟨-, -, happly⟩ := hrun.of_ok hs hok
  obtain rfl : s.bitmapData.layout = l := congrArg Prod.snd hs
  have hin := applyWrites_ne_none.mp (Option.ne_none_iff_exists'.mpr ⟨_, happly⟩)
  rw [bitmapPixels, s.bitmapData.length_bitmapPixels] at hin
  exact_mod_cast hin

lemma Returns.bounded {z : Client I Unit} (hret : Returns z c l) :
    l.bitmapwidth * l.bitmapheight < 2147483648 := by
  obtain ⟨s, -, hs, -⟩ := hret
  obtain rfl : s.bitmapData.layout = l := congrArg Prod.snd hs
  exact s.bitmapData.bounded

/-- The state with other pixels. -/
def VncCanvas.withPixels (s : VncCanvas I) (a : List UInt32)
    (ha : a.length = (bitmapPixels s).length) : VncCanvas I :=
  { s with
    bitmapData :=
      { s.bitmapData with
        bitmapPixels := a
        length_bitmapPixels := ha.trans s.bitmapData.length_bitmapPixels } }

/-- Whatever the bitmap has, the cells outside the rectangle are left alone if and only if none of
them is written. -/
lemma Returns.confined_iff_writes {z : Client I Unit} {v : Conn I × Layout} (hret : Returns z c l)
    (hrun : Runs z (c, l) ws () v) :
    Confined z c l x y w h ↔ ∀ p ∈ ws, l.InRect x y w h p.1 := by
  obtain ⟨s, t, hs, hok⟩ := hret
  obtain ⟨-, -, happly⟩ := hrun.of_ok hs hok
  have : Nontrivial UInt32 := ⟨0, 1, by decide⟩
  rw [← unchanged_iff (Option.ne_none_iff_exists'.mpr ⟨_, happly⟩)]
  constructor
  · intro hconf a' ha' b hb k hk
    obtain ⟨t', hok', -, harray⟩ := hrun.returns (s.withPixels a' ha') b hs hb
    rw [← harray]
    exact hconf (s.withPixels a' ha') t' hs hok' k hk
  · intro hsame s' t' hs' hok' k hk
    have hlen : (bitmapPixels s').length = (bitmapPixels s).length := by
      rw [bitmapPixels, bitmapPixels, s'.bitmapData.length_bitmapPixels,
        s.bitmapData.length_bitmapPixels, show s'.bitmapData.layout = l from congrArg Prod.snd hs',
        show s.bitmapData.layout = l from congrArg Prod.snd hs]
    exact hsame _ hlen _ (hrun.of_ok hs' hok').2.2 k hk

/-! ### The cells of a rectangle -/

/-- A rectangle with cells is not wider than the frame is to its right. -/
def Layout.Fits (l : Layout) (x w h : ℕ) : Prop :=
  match l with
  | full framebufferwidth _ => w = 0 ∨ h = 0 ∨ x + w ≤ framebufferwidth
  | large .. => True

/-- The cells are those of parts of the rectangle, the last pixel of it among them; where the bitmap
does not have the whole frame, it has these parts. -/
structure RectCells (l : Layout) (x y w h : ℕ) (K : Set ℤ) : Prop where
  inside : ∀ k ∈ K, ∃ tx ty tw th, k ∈ blockCells l tx ty tw th ∧ x ≤ tx ∧ tx + tw ≤ x + w ∧
    y ≤ ty ∧ ty + th ≤ y + h ∧ (l.Full ∨ l.Holds tx ty tw th)
  last : l.Full → 0 < w → 0 < h → ∃ tx i ty j : ℕ, tx + i + 1 = x + w ∧ ty + j + 1 = y + h ∧
    l.offset tx (ty + j) + i ∈ K

lemma Layout.Holds.inRect {k : ℤ} (hold : l.Holds tx ty tw th)
    (hsize : l.bitmapwidth * l.bitmapheight < 2147483648) (hx : x ≤ tx) (hxw : tx + tw ≤ x + w)
    (hy : y ≤ ty) (hyh : ty + th ≤ y + h) (hk : k ∈ blockCells l tx ty tw th) :
    l.InRect x y w h k := by
  obtain ⟨j, hj, i, hi, rfl⟩ := hk
  obtain ⟨hcolumn, hrow⟩ := hold.column_row_cell (j := j) hi
  rw [hold.offset_eq_cell hsize hi hj, InRect, hcolumn, hrow]
  omega

/-- An offset that leads into the array has not overflowed. -/
lemma offset_add_of_mem {fw fh tx i ty j : ℕ} (hx : tx + i < 65536) (hy : ty + j < 65536)
    (hfw : fw < 65536) (hlow : 0 ≤ (Layout.full fw fh).offset tx (ty + j) + i)
    (hhigh : (Layout.full fw fh).offset tx (ty + j) + i < 2147483648) :
    (Layout.full fw fh).offset tx (ty + j) + i = tx + i + (ty + j) * fw := by
  have hmul : (ty + j) * fw ≤ 65535 * 65535 := Nat.mul_le_mul (by omega) (by omega)
  have hcast : ((ty : ℤ) + j) * fw = ((ty + j) * fw : ℕ) := by push_cast; ring
  simp only [Layout.offset, hcast, wrap32] at *
  omega

lemma RectCells.inRect_iff (hK : RectCells l x y w h K)
    (hsize : l.bitmapwidth * l.bitmapheight < 2147483648) (hx : x + w < 65536)
    (hy : y + h < 65536) (hl : l.Full → l.bitmapwidth < 65536)
    (hin : l.Full → ∀ k ∈ K, 0 ≤ k ∧ k < l.bitmapwidth * l.bitmapheight) :
    (∀ k ∈ K, l.InRect x y w h k) ↔ l.Fits x w h := by
  cases l with
  | large xo yo bw bh =>
    refine iff_of_true (fun k hk => ?_) trivial
    obtain ⟨tx, ty, tw, th, hblock, hx, hxw, hy, hyh, hheld⟩ := hK.inside k hk
    exact (hheld.resolve_left id).inRect hsize hx hxw hy hyh hblock
  | full fw fh =>
    -- the cell of the last pixel says how far the rectangle goes to the right and to the bottom
    have hlast : 0 < w → 0 < h → ∃ k ∈ K, k = x + w - 1 + (y + h - 1) * fw ∧ 0 ≤ k ∧
        k < fw * fh := by
      intro hw hh
      obtain ⟨tx, i, ty, j, hxw, hyh, hmem⟩ := hK.last trivial hw hh
      obtain ⟨hlow, hhigh⟩ := hin trivial _ hmem
      have hsize' : (fw : ℤ) * fh < 2147483648 := by exact_mod_cast hsize
      have hfw : fw < 65536 := hl trivial
      have hcell := offset_add_of_mem (by omega) (by omega) hfw hlow (hhigh.trans hsize')
      have htx : (tx : ℤ) + i = x + w - 1 := by omega
      have hty : (ty : ℤ) + j = y + h - 1 := by omega
      exact ⟨_, hmem, hcell.trans (by rw [htx, hty]), hlow, hhigh⟩
    constructor
    · intro hall
      by_contra hnot
      obtain ⟨hw, hh, hwide⟩ : w ≠ 0 ∧ h ≠ 0 ∧ fw < x + w := by
        simpa only [Layout.Fits, not_or, not_le] using hnot
      obtain ⟨k, hmem, hk, hlow, hhigh⟩ := hlast (Nat.pos_of_ne_zero hw) (Nat.pos_of_ne_zero hh)
      have hfw : 0 < (fw : ℤ) := by
        rcases Nat.eq_zero_or_pos fw with rfl | hpos
        · rw [Nat.cast_zero, Int.zero_mul] at hhigh
          exact absurd hhigh (not_lt.mpr hlow)
        · exact_mod_cast hpos
      have hrow : k / fw < y + h := (hall k hmem).2.2
      have hone : 1 ≤ ((x : ℤ) + w - 1) / fw := (Int.le_ediv_iff_mul_le hfw).mpr (by omega)
      rw [hk, Int.add_mul_ediv_right _ _ hfw.ne'] at hrow
      omega
    · intro hfits k hk
      obtain ⟨tx, ty, tw, th, hblock, hx', hxw, hy', hyh, -⟩ := hK.inside k hk
      obtain ⟨j, hj, i, hi, -⟩ := id hblock
      have hwide : x + w ≤ fw := by
        rcases hfits with hw | hh | hwide
        · omega
        · omega
        · exact hwide
      obtain ⟨k', -, hk', -, hhigh⟩ := hlast (by omega) (by omega)
      have hhigh' : y + h ≤ fh := by
        by_contra hlong
        have hmul : (fh : ℤ) * fw ≤ (y + h - 1) * fw :=
          Int.mul_le_mul_of_nonneg_right (by omega) (by omega)
        rw [hk', mul_comm (fw : ℤ)] at hhigh
        omega
      have hold : (Layout.full fw fh).Holds tx ty tw th := ⟨by omega, by omega⟩
      exact hold.inRect hsize hx' hxw hy' hyh hblock

/-- What a program that throws or draws the cells `K` of its rectangle and the cells `S` has to do
to be confined. -/
lemma confined_iff_of_touches {z : Client I Unit} (hK : RectCells l x y w h K)
    (hS : ∀ k ∈ S, l.Full) (hx : x + w < 65536) (hy : y + h < 65536)
    (hl : l.Full → l.bitmapwidth < 65536)
    (hz : Throws z (c, l) ∨ ∃ ws v', Runs z (c, l) ws () v' ∧ Touches l ws (K ∪ S)) :
    Confined z c l x y w h ↔
      (Returns z c l → l.Fits x w h ∧ ∀ k ∈ S, l.InRect x y w h k) := by
  by_cases hret : Returns z c l
  · obtain ⟨ws, v', hrun, hws, hfull⟩ := hz.resolve_left fun hfail => hfail.not_returns hret
    have hin : l.Full → ∀ k ∈ K, 0 ≤ k ∧ k < l.bitmapwidth * l.bitmapheight := by
      intro hl k hk
      obtain ⟨p, hp, rfl⟩ := hfull hl k (.inl hk)
      exact hret.inArray hrun p hp
    have hrect := hK.inRect_iff hret.bounded hx hy hl hin
    rw [hret.confined_iff_writes hrun, imp_iff_right hret, ← hrect]
    constructor
    · intro hall
      refine ⟨?_, fun k hk => ?_⟩
      · cases l with
        | full fw fh =>
          intro k hk
          obtain ⟨p, hp, rfl⟩ := hfull trivial k (.inl hk)
          exact hall p hp
        | large xo yo bw bh => exact hrect.mpr trivial
      · obtain ⟨p, hp, rfl⟩ := hfull (hS k hk) k (.inr hk)
        exact hall p hp
    · rintro ⟨hallK, hallS⟩ p hp
      exact (hws p hp).elim (hallK _) (hallS _)
  · exact iff_of_true (fun s t hs hok => absurd ⟨s, t, hs, hok⟩ hret) fun h => absurd h hret

/-! ### The handlers -/

/-- A rectangle that is drawn is in a bitmap that has a part of the frame. -/
lemma full_or_holds (hvalid : l.validDraw x y w h) : l.Full ∨ l.Holds x y w h := by
  cases l with
  | full fw fh => exact .inl trivial
  | large xo yo bw bh => exact .inr (Layout.holds_of_validDraw hvalid)

lemma rectCells_block : RectCells l x y w h {k | l.validDraw x y w h ∧ k ∈ blockCells l x y w h} := by
  refine ⟨?_, ?_⟩
  · rintro k ⟨hvalid, hk⟩
    exact ⟨x, y, w, h, hk, le_rfl, le_rfl, le_rfl, le_rfl, full_or_holds hvalid⟩
  · intro hl hw hh
    exact ⟨x, w - 1, y, h - 1, by omega, by omega, hl.validDraw, h - 1, by omega, w - 1, by omega,
      rfl⟩

/-- The last place of a row is the last one of a tile. -/
lemma last_of_tiles {size : ℕ} (hsize : 0 < size) (hw : 0 < w) :
    (w - 1) / size < tileCount size w ∧ (w - 1) % size < tileLength size w ((w - 1) / size) ∧
      x + size * ((w - 1) / size) + (w - 1) % size + 1 = x + w := by
  have hdiv := Nat.div_add_mod (w - 1) size
  have hmod := Nat.mod_lt (w - 1) hsize
  refine ⟨?_, ?_, by omega⟩
  · rw [tileCount, Nat.lt_iff_add_one_le, Nat.le_div_iff_mul_le hsize, Nat.succ_mul, mul_comm]
    omega
  · exact lt_min (by omega) hmod

lemma rectCells_tiles {size : ℕ} {valid : ℕ → ℕ → Prop} (hsize : 0 < size)
    (hfull : l.Full → ∀ r q, valid r q)
    (hvalid : ∀ r < tileCount size h, ∀ q < tileCount size w, valid r q → l.Full ∨
      l.Holds (x + size * q) (y + size * r) (tileLength size w q) (tileLength size h r)) :
    RectCells l x y w h (tileCells size valid l x y w h) := by
  refine ⟨?_, ?_⟩
  · rintro k ⟨r, hr, q, hq, hv, hk⟩
    exact ⟨_, _, _, _, hk, Nat.le_add_right _ _, tile_add_le hq hsize, Nat.le_add_right _ _,
      tile_add_le hr hsize, hvalid r hr q hq hv⟩
  · intro hl hw hh
    obtain ⟨hq, hi, hxw⟩ := last_of_tiles (x := x) hsize hw
    obtain ⟨hr, hj, hyh⟩ := last_of_tiles (x := y) hsize hh
    exact ⟨_, _, _, _, hxw, hyh, _, hr, _, hq, hfull hl _ _, _, hj, _, hi, rfl⟩

/-- The cells of the subrectangles that the handler reads from the stream, if it reads any. -/
def RectHdr.subrectCells (hdr : RectHdr) (l : Layout) (m : ColorModel) (is : List UInt8) : Set ℤ :=
  if hdr.encoding = encodingRRE then rreSubrectCells l m 2 hdr.x hdr.y is
  else if hdr.encoding = encodingCoRRE then rreSubrectCells l m 1 hdr.x hdr.y is
  else if hdr.encoding = encodingHextile then
    {k | ∃ tiles rest, HextileFramed tiles hdr.w hdr.h ∧
      is = tiles.flatMap (HextileTile.bytes m) ++ rest ∧
      k ∈ hextileSubrectCells l hdr.x hdr.y hdr.w hdr.h tiles}
  else ∅

/-- The encodings whose rectangles are drawn. -/
def drawnEncodings : List ℤ :=
  [encodingRaw, encodingRRE, encodingCoRRE, encodingHextile, encodingZlib, encodingZRLE]

lemma Settles.confined_iff_fits {z : Client I Unit} (hz : Settles z l K) (hK : RectCells l x y w h K)
    (hx : x + w < 65536) (hy : y + h < 65536) (hl : l.Full → l.bitmapwidth < 65536) :
    Confined z c l x y w h ↔ (Returns z c l → l.Fits x w h ∧ ∀ k ∈ (∅ : Set ℤ),
      l.InRect x y w h k) := by
  refine confined_iff_of_touches hK (fun k hk => hk.elim) hx hy hl ?_
  rw [Set.union_empty]
  refine (hz c).imp_right ?_
  rintro ⟨ws, c', hrun, hws⟩
  exact ⟨ws, _, hrun, hws⟩

lemma next_of_readShort {c c' : Conn I} {n : ℕ} (h : readUnsignedShort c = .ok n c') :
    ∃ rest, c' = c.next rest := by
  obtain ⟨bs, c₁, hread, hpure⟩ := ok_of_bind h
  rcases readFully_settles 2 c with ⟨e, herr⟩ | ⟨bs', rest, -, -, hok⟩
  · rw [hread] at herr
    cases herr
  · obtain ⟨-, rfl⟩ := EStateM.Result.ok.inj (hread.symm.trans hok)
    obtain ⟨-, rfl⟩ := EStateM.Result.ok.inj hpure
    exact ⟨rest, rfl⟩

lemma next_of_readInt {c c' : Conn I} {n : ℤ} (h : readInt c = .ok n c') :
    ∃ rest, c' = c.next rest := by
  rcases readInt_settles c with ⟨e, c₁, herr⟩ | ⟨bs, rest, -, -, hok⟩
  · rw [h] at herr
    cases herr
  · obtain ⟨-, rfl⟩ := EStateM.Result.ok.inj (h.symm.trans hok)
    exact ⟨rest, rfl⟩

/-- A header that passes the check is that of a rectangle of the frame. -/
lemma inFrame_of_isChecked {c₀ : Conn I} {hdr : RectHdr}
    (hhdr : readFramebufferUpdateRectHdr c₀ = .ok hdr c) (hchecked : hdr.isChecked) :
    hdr.x + hdr.w ≤ c₀.framebufferWidth ∧ hdr.y + hdr.h ≤ c₀.framebufferHeight := by
  obtain ⟨x, c₁, hx, hhdr⟩ := ok_of_bind hhdr
  obtain ⟨y, c₂, hy, hhdr⟩ := ok_of_bind hhdr
  obtain ⟨w, c₃, hw, hhdr⟩ := ok_of_bind hhdr
  obtain ⟨h, c₄, hh, hhdr⟩ := ok_of_bind hhdr
  obtain ⟨encoding, c₅, he, hhdr⟩ := ok_of_bind hhdr
  obtain ⟨r₁, rfl⟩ := next_of_readShort hx
  obtain ⟨r₂, rfl⟩ := next_of_readShort hy
  obtain ⟨r₃, rfl⟩ := next_of_readShort hw
  obtain ⟨r₄, rfl⟩ := next_of_readShort hh
  obtain ⟨r₅, rfl⟩ := next_of_readInt he
  by_cases hchecked' : (⟨x, y, w, h, encoding⟩ : RectHdr).isChecked
  · rw [if_pos hchecked'] at hhdr
    obtain ⟨c', s', hget, hhdr⟩ := ok_of_bind hhdr
    cases hget
    by_cases hlarge : x + w > c₀.framebufferWidth ∨ y + h > c₀.framebufferHeight
    · have herr : (if x + w > c₀.framebufferWidth ∨ y + h > c₀.framebufferHeight then
          throw (.exception s!"Framebuffer update rectangle too large: {w}x{h} at ({x},{y})")
        else pure ⟨x, y, w, h, encoding⟩ : ConnM I RectHdr) _ = .ok hdr c := hhdr
      rw [if_pos hlarge] at herr
      cases herr
    · have hok : (if x + w > c₀.framebufferWidth ∨ y + h > c₀.framebufferHeight then
          throw (.exception s!"Framebuffer update rectangle too large: {w}x{h} at ({x},{y})")
        else pure ⟨x, y, w, h, encoding⟩ : ConnM I RectHdr) _ = .ok hdr c := hhdr
      rw [if_neg hlarge] at hok
      cases hok
      rw [not_or, not_lt, not_lt] at hlarge
      exact hlarge
  · rw [if_neg hchecked'] at hhdr
    cases hhdr
    exact absurd hchecked hchecked'

lemma isChecked_of_drawn {hdr : RectHdr} (henc : hdr.encoding ∈ drawnEncodings) :
    hdr.isChecked := by
  have hall : ∀ z ∈ drawnEncodings, 0 ≤ z ∧ z ≤ maxNormalEncoding := by decide
  exact .inr (hall _ henc)

lemma confined_iff_handleRRERectWith {size : ℕ} (hsize : size = 1 ∨ size = 2)
    (hx : x + w < 65536) (hy : y + h < 65536) (hl : l.Full → l.bitmapwidth < 65536) :
    Confined (handleRRERectWith size x y w h) c l x y w h ↔
      (Returns (handleRRERectWith size x y w h) c l → l.Fits x w h ∧
        ∀ k ∈ rreSubrectCells l c.colorModel size x y c.is, l.InRect x y w h k) := by
  refine confined_iff_of_touches rectCells_block ?_ hx hy hl
    ((settles_handleRRERectWith hsize c).imp_right ?_)
  · rintro k ⟨j, hj, hfull, hk⟩
    exact hfull
  · rintro ⟨ws, v', hrun, hws⟩
    refine ⟨ws, v', hrun, hws.mono (Set.union_subset_union_left _ ?_) fun hfull => ?_⟩
    · rintro k ⟨hfull, hk⟩
      exact ⟨hfull.validDraw, hk⟩
    · exact Set.union_subset_union_left _ fun k hk => ⟨hfull, hk.2⟩

lemma rectCells_hextile : RectCells l x y w h (tileCells 16 (fun r q =>
    l.validDraw (x + 16 * q : ℕ) (y + 16 * r : ℕ) (tileLength 16 w q) (tileLength 16 h r))
      l x y w h) :=
  rectCells_tiles (by decide) (fun hfull _ _ => hfull.validDraw) fun _ _ _ _ => full_or_holds

lemma rectCells_zrle :
    RectCells l x y w h (tileCells 64 (fun _ _ => l.validDraw x y w h) l x y w h) :=
  rectCells_tiles (by decide) (fun hfull _ _ => hfull.validDraw) fun _ hr _ hq hvalid =>
    (full_or_holds hvalid).imp_right fun hold => hold.tile (by decide) hr hq

lemma confined_iff_handleHextileRect (hx : x + w < 65536) (hy : y + h < 65536)
    (hl : l.Full → l.bitmapwidth < 65536) :
    Confined (handleHextileRect x y w h) c l x y w h ↔
      (Returns (handleHextileRect x y w h) c l → l.Fits x w h ∧
        ∀ k ∈ {k | ∃ tiles rest, HextileFramed tiles w h ∧
          c.is = tiles.flatMap (HextileTile.bytes c.colorModel) ++ rest ∧
          k ∈ hextileSubrectCells l x y w h tiles}, l.InRect x y w h k) := by
  -- what one way to read the stream as tiles says of the run
  have hparsed : ∀ tiles rest, HextileFramed tiles w h →
      c.is = tiles.flatMap (HextileTile.bytes c.colorModel) ++ rest →
      (Confined (handleHextileRect x y w h) c l x y w h ↔
        (Returns (handleHextileRect x y w h) c l → l.Fits x w h ∧
          ∀ k ∈ hextileSubrectCells l x y w h tiles, l.InRect x y w h k)) := by
    intro tiles rest htiles his
    obtain ⟨c', hrun, -⟩ := runs_handleHextileRect (x := x) (y := y) (l := l) htiles rfl his
    refine confined_iff_of_touches rectCells_hextile ?_ hx hy hl
      (.inr ⟨_, _, hrun, touches_hextileWrites htiles⟩)
    rintro k ⟨r, hr, q, hq, t, ht, hpart, s, hs, hfull, hk⟩
    exact hfull
  rcases handleHextileRect_parses (x := x) (y := y) (w := w) (h := h) (l := l) c with
    hfail | ⟨tiles, rest, htiles, his⟩
  · exact iff_of_true (fun s t hs hok => absurd ⟨s, t, hs, hok⟩ hfail.not_returns)
      fun hret => absurd hret hfail.not_returns
  · constructor
    · intro hconf hret
      refine ⟨((hparsed tiles rest htiles his).mp hconf hret).1, ?_⟩
      rintro k ⟨tiles', rest', htiles', his', hk⟩
      exact ((hparsed tiles' rest' htiles' his').mp hconf hret).2 k hk
    · intro hcond
      apply (hparsed tiles rest htiles his).mpr
      exact fun hret => (hcond hret).imp_right fun hall k hk => hall k ⟨tiles, rest, htiles, his, hk⟩

/-- A rectangle of one pixel, with a subrectangle at the place beside it. -/
def stray : Rect := ⟨0, 0, 1, 1, .rre ⟨5, 0, 0, 0⟩ [⟨⟨9, 0, 0, 0⟩, 1, 0, 1, 1⟩]⟩

/-- The connection in front of the data of the only rectangle. -/
def Conn.ofRect (r : Rect) : Conn (.ofTable []) :=
  .initial (.ofTable []) 2 1 .c256 (r.encoding.bytes .c256)

lemma readHdr_ofRect {r : Rect} (hr : r.InFrame 2 1) :
    readFramebufferUpdateRectHdr ((Conn.ofRect r).next (r.bytes .c256)) = .ok r.hdr (Conn.ofRect r) :=
  readFramebufferUpdateRectHdr_append (fun _ => hr) rfl

/-- The pixels after a run that returns. -/
def pixelsAfter (r : EStateM.Result Exn (VncCanvas I) Unit) : List UInt32 :=
  match r with
  | .ok _ t => bitmapPixels t
  | .error _ _ => []

/-- The pixels as they are. -/
def rawOfTwo : Rect := ⟨0, 0, 2, 1, .raw [⟨5, 0, 0, 0⟩, ⟨9, 0, 0, 0⟩]⟩

end Limbo.Vnc
