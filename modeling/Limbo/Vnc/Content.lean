import Limbo.Vnc.Picture

/-!
# The content of an encoding

The patches of pixels that the data of a rectangle describes, and that the client writes just these
patches, in their order.
-/

namespace Limbo.Vnc

open Lib

variable {l : Layout} {m : ColorModel} {x y w h tx ty tw th : ℕ}

/-! ### Hextile -/

namespace HextileTile

variable (t : HextileTile)

/-- The background of the tile, where `bg` is that of the tile before it, if there is one. -/
def backgroundPixel (bg : Option Pixel) : Option Pixel :=
  if t.BackgroundSpecified then some t.bg else bg

def foregroundPixel (fg : Option Pixel) : Option Pixel :=
  if t.ForegroundSpecified then some t.fg else fg

def subrectPixel (fg : Option Pixel) (s : Pixel × HextileSubrect) : Pixel :=
  if t.SubrectsColoured then s.1 else (t.foregroundPixel fg).getD default

/-- The patches of the tile at `(x, y)` of the rectangle. -/
def patches (x y tw th : ℕ) (bg fg : Option Pixel) : List Patch :=
  if t.Raw then [⟨x, y, tw, th, fun i j => t.pixels.getD (j * tw + i) default, .pixels⟩]
  else
    ⟨x, y, tw, th, fun _ _ => (t.backgroundPixel bg).getD default, .rect⟩ ::
      if t.AnySubrects then
        t.subrects.map fun s =>
          ⟨x + s.2.x, y + s.2.y, s.2.w + 1, s.2.h + 1, fun _ _ => t.subrectPixel fg s, .rect⟩
      else []

/-- The colours that the tile makes use of are there. -/
def Specified (bg fg : Option Pixel) : Prop :=
  ¬ t.Raw → (t.backgroundPixel bg).isSome ∧
    (t.AnySubrects → ¬ t.SubrectsColoured → t.subrects ≠ [] → (t.foregroundPixel fg).isSome)

end HextileTile

/-- The background and the foreground in front of tile `i`; after coloured subrectangles there is no
foreground. -/
def carriedPixels (tiles : List HextileTile) : ℕ → Option Pixel × Option Pixel
  | 0 => (none, none)
  | i + 1 =>
    tiles[i]?.elim (carriedPixels tiles i) fun t =>
      if t.Raw then carriedPixels tiles i
      else
        (t.backgroundPixel (carriedPixels tiles i).1,
          if t.AnySubrects ∧ t.SubrectsColoured then none
          else t.foregroundPixel (carriedPixels tiles i).2)

/-- The colour that the client has carried is that of the pixel, if there is one. -/
def Carries (m : ColorModel) (p : Option Pixel) (color : UInt32) : Prop :=
  ∀ q, p = some q → q.color m = color

lemma carries_none (color : UInt32) : Carries m none color := by
  intro p hp
  cases hp

lemma carries_background {t : HextileTile} {bg : Option Pixel} {color : UInt32}
    (h : Carries m bg color) : Carries m (t.backgroundPixel bg) (t.background m color) := by
  unfold HextileTile.backgroundPixel HextileTile.background
  split_ifs
  · rintro q ⟨⟩
    rfl
  · exact h

lemma carries_foreground {t : HextileTile} {fg : Option Pixel} {color : UInt32}
    (h : Carries m fg color) : Carries m (t.foregroundPixel fg) (t.foreground m color) := by
  unfold HextileTile.foregroundPixel HextileTile.foreground
  split_ifs
  · rintro q ⟨⟩
    rfl
  · exact h

lemma carries_carried (tiles : List HextileTile) (i : ℕ) :
    Carries m (carriedPixels tiles i).1 (carried m tiles i).1 ∧
      Carries m (carriedPixels tiles i).2 (carried m tiles i).2 := by
  induction i with
  | zero => exact ⟨carries_none _, carries_none _⟩
  | succ i ih =>
    rw [carriedPixels, carried]
    cases tiles[i]? with
    | none => exact ih
    | some t =>
      simp only [Option.elim]
      by_cases hraw : t.Raw
      · rw [if_pos hraw, if_pos hraw]
        exact ih
      · rw [if_neg hraw, if_neg hraw]
        refine ⟨carries_background ih.1, ?_⟩
        show Carries m (if _ then none else _) (t.lastForeground m _)
        by_cases hcoloured : t.AnySubrects ∧ t.SubrectsColoured
        · rw [if_pos hcoloured]
          exact carries_none _
        · rw [if_neg hcoloured, HextileTile.lastForeground, if_neg hcoloured]
          exact carries_foreground ih.2

lemma Carries.getD {p : Option Pixel} {color : UInt32} (h : Carries m p color)
    (hp : p.isSome = true) : (p.getD default).color m = color := by
  obtain ⟨q, rfl⟩ := Option.isSome_iff_exists.mp hp
  exact h q rfl

lemma Layout.Holds.validDraw (hold : l.Holds x y w h) : l.validDraw x y w h = true := by
  cases l with
  | full fw fh => rfl
  | large xo yo bw bh => simpa [Layout.validDraw, Layout.Holds, and_assoc] using hold

lemma rawWrites_eq (hold : l.Holds (x + tx) (y + ty) tw th) (pixels : List Pixel) :
    rawWrites l m (x + tx) (y + ty) tw th pixels =
      Patch.writes m l x y
        ⟨tx, ty, tw, th, fun i j => pixels.getD (j * tw + i) default, .pixels⟩ :=
  if_pos hold.validDraw

lemma HextileTile.writes_eq {t : HextileTile} {bg fg : Option Pixel} {bgColor fgColor : UInt32}
    (hold : l.Holds (x + tx) (y + ty) tw th) (hspecified : t.Specified bg fg)
    (hbg : Carries m bg bgColor) (hfg : Carries m fg fgColor) :
    t.writes m l (x + tx) (y + ty) tw th bgColor fgColor =
      (t.patches tx ty tw th bg fg).flatMap (Patch.writes m l x y) := by
  by_cases hraw : t.Raw
  · rw [writes, if_pos hraw, patches, if_pos hraw, List.flatMap_singleton]
    exact rawWrites_eq hold _
  · obtain ⟨hbgSome, hfgSome⟩ := hspecified hraw
    have hback : t.background m bgColor = ((t.backgroundPixel bg).getD default).color m :=
      ((carries_background hbg).getD hbgSome).symm
    rw [writes, if_neg hraw, patches, if_neg hraw, List.flatMap_cons, partWrites, hold.validDraw,
      if_pos rfl, hback]
    congr 1
    by_cases hany : t.AnySubrects
    · rw [if_pos hany, if_pos hany, List.flatMap_map]
      apply List.flatMap_congr
      intro s hs
      have hcolor : t.subrectColor m fgColor s = (t.subrectPixel fg s).color m := by
        unfold subrectColor subrectPixel
        by_cases hcoloured : t.SubrectsColoured
        · rw [if_pos hcoloured, if_pos hcoloured]
        · rw [if_neg hcoloured, if_neg hcoloured]
          have hsome := hfgSome hany hcoloured (List.ne_nil_of_mem hs)
          exact ((carries_foreground hfg).getD hsome).symm
      rw [if_pos rfl, hcolor]
      show drawWrites l ⟨x + tx + s.2.x, y + ty + s.2.y, _, _, _⟩ =
        drawWrites l ⟨x + (tx + s.2.x), y + (ty + s.2.y), _, _, _⟩
      rw [Nat.add_assoc, Nat.add_assoc]
      rfl
    · rw [if_neg hany, if_neg hany]
      rfl

/-! ### ZRLE -/

namespace ZrleTile

def paint : ZrleTile → Paint
  | raw _ => .numbers
  | solid _ => .rect
  | packed .. | plainRle _ | paletteRle .. => .pixels

/-- The tile at `(x, y)` of the rectangle. -/
def patch (t : ZrleTile) (x y tw th : ℕ) : Patch :=
  ⟨x, y, tw, th, fun i j => (t.pixels tw th).getD (j * tw + i) default, t.paint⟩

lemma writes_eq (t : ZrleTile) :
    t.writes m l true (x + tx) (y + ty) tw th = (t.patch tx ty tw th).writes m l x y := by
  cases t <;> rfl

end ZrleTile

/-! ### All encodings -/

/-- The patches of all tiles. -/
def tiled (size w h : ℕ) (f : ℕ → ℕ → List Patch) : List Patch :=
  (List.range (tileCount size h)).flatMap fun r => (List.range (tileCount size w)).flatMap (f r)

/-- The patches of the tile `(r, k)`. -/
def hextilePatches (tiles : List HextileTile) (w h r k : ℕ) : List Patch :=
  tiles[r * tileCount 16 w + k]?.elim [] fun t =>
    t.patches (16 * k) (16 * r) (tileLength 16 w k) (tileLength 16 h r)
      (carriedPixels tiles (r * tileCount 16 w + k)).1
      (carriedPixels tiles (r * tileCount 16 w + k)).2

def zrlePatches (tiles : List ZrleTile) (w h r k : ℕ) : List Patch :=
  tiles[r * tileCount 64 w + k]?.elim [] fun t =>
    [t.patch (64 * k) (64 * r) (tileLength 64 w k) (tileLength 64 h r)]

namespace Encoding

/-- The patches that the data describes. -/
def patches (w h : ℕ) : Encoding → List Patch
  | raw pixels | zlib _ pixels =>
    [⟨0, 0, w, h, fun i j => pixels.getD (j * w + i) default, .pixels⟩]
  | rre bg subrects =>
    ⟨0, 0, w, h, fun _ _ => bg, .rect⟩ ::
      subrects.map fun r => ⟨r.x, r.y, r.w, r.h, fun _ _ => r.pixel, .rect⟩
  | coRRE bg subrects =>
    ⟨0, 0, w, h, fun _ _ => bg, .rect⟩ ::
      subrects.map fun r => ⟨r.x, r.y, r.w, r.h, fun _ _ => r.pixel, .rect⟩
  | hextile tiles => tiled 16 w h (hextilePatches tiles w h)
  | zrle _ tiles => tiled 64 w h (zrlePatches tiles w h)
  | copyRect .. | lastRect | newFBSize => []

/-- The tiles of Hextile data make use of colours that are there only. -/
def Specified : Encoding → Prop
  | hextile tiles => ∀ (i : ℕ) (t : HextileTile), tiles[i]? = some t →
    t.Specified (carriedPixels tiles i).1 (carriedPixels tiles i).2
  | raw _ | copyRect .. | rre .. | coRRE .. | zlib .. | zrle .. | lastRect | newFBSize => True

end Encoding

lemma rreWrites_eq {size : ℕ} (hold : l.Holds x y w h) (bg : Pixel)
    (subrects : List (Subrect size)) :
    rreWrites l m x y w h bg subrects =
      ((⟨0, 0, w, h, fun _ _ => bg, .rect⟩ :: subrects.map fun r =>
        ⟨r.x, r.y, r.w, r.h, fun _ _ => r.pixel, .rect⟩ : List Patch)).flatMap
          (Patch.writes m l x y) := by
  rw [rreWrites, if_pos hold.validDraw, List.flatMap_cons, List.flatMap_map]
  rfl

/-- The client writes the patches. -/
theorem Encoding.writes_eq {e : Encoding} (hold : l.Holds x y w h) (hspecified : e.Specified) :
    e.writes m l x y w h = (e.patches w h).flatMap (Patch.writes m l x y) := by
  cases e with
  | raw pixels | zlib data pixels =>
    rw [patches, List.flatMap_singleton]
    exact if_pos hold.validDraw
  | rre bg subrects | coRRE bg subrects => exact rreWrites_eq hold bg subrects
  | hextile tiles =>
    rw [patches, tiled, List.flatMap_assoc]
    apply List.flatMap_congr
    intro r hr
    rw [List.flatMap_assoc]
    apply List.flatMap_congr
    intro k hk
    have hold' := hold.tile (by decide) (List.mem_range.mp hr) (List.mem_range.mp hk)
    rw [hextilePatches]
    cases ht : tiles[r * tileCount 16 w + k]? with
    | none => rfl
    | some t =>
      obtain ⟨hbg, hfg⟩ := carries_carried (m := m) tiles (r * tileCount 16 w + k)
      exact HextileTile.writes_eq hold' (hspecified _ t ht) hbg hfg
  | zrle data tiles =>
    rw [patches, tiled, List.flatMap_assoc]
    apply List.flatMap_congr
    intro r hr
    rw [List.flatMap_assoc]
    apply List.flatMap_congr
    intro k hk
    rw [hold.validDraw, zrlePatches]
    cases tiles[r * tileCount 64 w + k]? with
    | none => rfl
    | some t =>
      simp only [Option.elim, List.flatMap_singleton]
      exact t.writes_eq
  | copyRect srcX srcY | lastRect | newFBSize => rfl

/-! ### Patches of tiles -/

/-- The patch is in the tile `(r, k)`. -/
def Patch.InTile (size w h r k : ℕ) (p : Patch) : Prop :=
  size * k ≤ p.x ∧ p.x + p.w ≤ size * k + tileLength size w k ∧
    size * r ≤ p.y ∧ p.y + p.h ≤ size * r + tileLength size h r

lemma HextileTile.patches_inTile {t : HextileTile} {bg fg : Option Pixel} {r k : ℕ}
    (hinside : t.AnySubrects → ∀ s ∈ t.subrects,
      s.2.Inside (tileLength 16 w k) (tileLength 16 h r)) :
    ∀ p ∈ t.patches (16 * k) (16 * r) (tileLength 16 w k) (tileLength 16 h r) bg fg,
      p.InTile 16 w h r k := by
  intro p hp
  unfold patches at hp
  split_ifs at hp with hraw hany
  · obtain rfl := List.mem_singleton.mp hp
    exact ⟨le_rfl, le_rfl, le_rfl, le_rfl⟩
  · rcases List.mem_cons.mp hp with rfl | hp
    · exact ⟨le_rfl, le_rfl, le_rfl, le_rfl⟩
    · obtain ⟨s, hs, rfl⟩ := List.mem_map.mp hp
      obtain ⟨hw, hh⟩ := hinside hany s hs
      unfold Patch.InTile
      dsimp only
      omega
  · obtain rfl := List.mem_singleton.mp hp
    exact ⟨le_rfl, le_rfl, le_rfl, le_rfl⟩

lemma hextilePatches_inTile {tiles : List HextileTile} (hinside : HextileInside tiles w h)
    {r k : ℕ} (hk : k < tileCount 16 w) :
    ∀ p ∈ hextilePatches tiles w h r k, p.InTile 16 w h r k := by
  intro p hp
  rw [hextilePatches] at hp
  cases ht : tiles[r * tileCount 16 w + k]? with
  | none =>
    rw [ht] at hp
    cases hp
  | some t =>
    rw [ht] at hp
    exact HextileTile.patches_inTile (hinside r k t hk ht) p hp

lemma zrlePatches_inTile {tiles : List ZrleTile} {r k : ℕ} :
    ∀ p ∈ zrlePatches tiles w h r k, p.InTile 64 w h r k := by
  intro p hp
  rw [zrlePatches] at hp
  cases ht : tiles[r * tileCount 64 w + k]? with
  | none =>
    rw [ht] at hp
    cases hp
  | some t =>
    rw [ht] at hp
    obtain rfl := List.mem_singleton.mp hp
    exact ⟨le_rfl, le_rfl, le_rfl, le_rfl⟩

lemma Patch.InTile.inside {size r k : ℕ} {p : Patch} (hp : p.InTile size w h r k)
    (hsize : 0 < size) (hr : r < tileCount size h) (hk : k < tileCount size w) :
    p.Inside w h := by
  obtain ⟨-, hw, -, hh⟩ := hp
  exact ⟨hw.trans (tile_le hk hsize), hh.trans (tile_le hr hsize)⟩

lemma Encoding.patches_inside {e : Encoding} (hwf : e.WellFormed w h) :
    ∀ p ∈ e.patches w h, p.Inside w h := by
  have hall : ∀ f paint, (⟨0, 0, w, h, f, paint⟩ : Patch).Inside w h := fun _ _ =>
    ⟨(Nat.zero_add w).le, (Nat.zero_add h).le⟩
  intro p hp
  cases e with
  | raw pixels | zlib data pixels =>
    obtain rfl := List.mem_singleton.mp hp
    exact hall _ _
  | rre bg subrects | coRRE bg subrects =>
    rcases List.mem_cons.mp hp with rfl | hp
    · exact hall _ _
    · obtain ⟨r, hr, rfl⟩ := List.mem_map.mp hp
      exact hwf.2 r hr
  | hextile tiles =>
    obtain ⟨r, hr, hp⟩ := List.mem_flatMap.mp hp
    obtain ⟨k, hk, hp⟩ := List.mem_flatMap.mp hp
    have hk' := List.mem_range.mp hk
    exact (hextilePatches_inTile hwf.2 hk' p hp).inside (by decide) (List.mem_range.mp hr) hk'
  | zrle data tiles =>
    obtain ⟨r, hr, hp⟩ := List.mem_flatMap.mp hp
    obtain ⟨k, hk, hp⟩ := List.mem_flatMap.mp hp
    exact (zrlePatches_inTile p hp).inside (by decide) (List.mem_range.mp hr)
      (List.mem_range.mp hk)
  | copyRect srcX srcY | lastRect | newFBSize => cases hp

lemma tile_unique (size : ℕ) {k k' i : ℕ} (hlow : size * k ≤ i) (hhigh : i < size * k + size)
    (hlow' : size * k' ≤ i) (hhigh' : i < size * k' + size) : k = k' := by
  rcases Nat.lt_trichotomy k k' with hlt | heq | hlt
  · have hle := Nat.mul_le_mul_left size (Nat.succ_le_of_lt hlt)
    rw [Nat.mul_succ] at hle
    omega
  · exact heq
  · have hle := Nat.mul_le_mul_left size (Nat.succ_le_of_lt hlt)
    rw [Nat.mul_succ] at hle
    omega

lemma topPatch_flatMap {n r i j : ℕ} {g : ℕ → List Patch} (hr : r < n)
    (hg : ∀ r' < n, r' ≠ r → ∀ p ∈ g r', ¬ p.Covers i j) :
    topPatch ((List.range n).flatMap g) i j = topPatch (g r) i j := by
  induction n with
  | zero => exact absurd hr r.not_lt_zero
  | succ n ih =>
    rw [List.range_succ, List.flatMap_append, List.flatMap_singleton, topPatch_append]
    by_cases hlast : r = n
    · subst hlast
      have hnone : topPatch ((List.range r).flatMap g) i j = none := by
        apply topPatch_eq_none.mpr
        intro p hp
        obtain ⟨r', hr', hp⟩ := List.mem_flatMap.mp hp
        have hlt := List.mem_range.mp hr'
        exact hg r' (Nat.lt_succ_of_lt hlt) hlt.ne p hp
      rw [hnone, Option.or_none]
    · have hnone : topPatch (g n) i j = none :=
        topPatch_eq_none.mpr (hg n n.lt_succ_self (Ne.symm hlast))
      rw [hnone, Option.none_or]
      exact ih (by omega) fun r' hr' => hg r' (Nat.lt_succ_of_lt hr')

/-- A place is covered by patches of its own tile only. -/
lemma topPatch_tiled {size r k i j : ℕ} {f : ℕ → ℕ → List Patch} (hr : r < tileCount size h)
    (hk : k < tileCount size w)
    (hf : ∀ r < tileCount size h, ∀ k < tileCount size w, ∀ p ∈ f r k, p.InTile size w h r k)
    (hi : i < tileLength size w k) (hj : j < tileLength size h r) :
    topPatch (tiled size w h f) (size * k + i) (size * r + j) =
      topPatch (f r k) (size * k + i) (size * r + j) := by
  have hplace : ∀ r' < tileCount size h, ∀ k' < tileCount size w, ∀ p ∈ f r' k',
      p.Covers (size * k + i) (size * r + j) → r' = r ∧ k' = k := by
    intro r' hr' k' hk' p hp hcovers
    obtain ⟨hx, hxw, hy, hyh⟩ := hcovers
    obtain ⟨hleft, hright, htop, hbottom⟩ := hf r' hr' k' hk' p hp
    have hw := tileLength_le size w k
    have hw' := tileLength_le size w k'
    have hh := tileLength_le size h r
    have hh' := tileLength_le size h r'
    exact ⟨tile_unique size (i := size * r + j) (by omega) (by omega) (by omega) (by omega),
      tile_unique size (i := size * k + i) (by omega) (by omega) (by omega) (by omega)⟩
  have hrow : topPatch (tiled size w h f) (size * k + i) (size * r + j) =
      topPatch ((List.range (tileCount size w)).flatMap (f r)) (size * k + i) (size * r + j) := by
    apply topPatch_flatMap hr
    intro r' hr' hne p hp hcovers
    obtain ⟨k', hk', hp⟩ := List.mem_flatMap.mp hp
    exact hne (hplace r' hr' k' (List.mem_range.mp hk') p hp hcovers).1
  rw [hrow]
  apply topPatch_flatMap hk
  intro k' hk' hne p hp hcovers
  exact hne (hplace r hr k' hk' p hp hcovers).2

lemma filter_tiled {size : ℕ} {f : ℕ → ℕ → List Patch} (q : Patch → Bool) :
    (tiled size w h f).filter q = tiled size w h fun r k => (f r k).filter q := by
  simp only [tiled, List.filter_flatMap]

end Limbo.Vnc
