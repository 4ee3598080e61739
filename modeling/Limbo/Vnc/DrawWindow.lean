import Limbo.Lib.Run

/-!
# The window that is drawn

`VncCanvas.pan` clamps the position of the view, `ZoomScaling` changes the scale, and the drawable of
`FullBufferBitmapData` draws the part of the frame that is seen from the position on. The view may
be moved below the frame by a part of the display's height.

Java's `double` and `float` are rational numbers that are rounded after each operation. Frames and
screens are so small that no `int` overflows.
-/

namespace Limbo.Vnc.Zoom

open Lib

/-! ### Numbers -/

/-- Rounding to a format with a significand of `p` bits, as far as it matters. -/
structure Rounding (p : ℕ) where
  round : ℚ → ℚ
  mono : Monotone round
  quarter : ∀ k : ℤ, |k| ≤ 2 ^ p → round (k / 4) = k / 4

instance {p : ℕ} : CoeFun (Rounding p) fun _ => ℚ → ℚ := ⟨Rounding.round⟩

/-- The conversion to `int`. -/
def toInt (x : ℚ) : ℤ := max (-2 ^ 31) (min (2 ^ 31 - 1) (if x < 0 then ⌈x⌉ else ⌊x⌋))

/-! ### The code -/

/-- The size of the framebuffer. -/
structure Frame where
  framebufferwidth : ℕ
  framebufferheight : ℕ
  width_lt : framebufferwidth < 2 ^ 16
  height_lt : framebufferheight < 2 ^ 16

/-- The size of the canvas, once it has been laid out, and the height of the display. -/
structure Screen where
  width : ℕ
  height : ℕ
  displayHeight : ℕ
  width_mem : 0 < width ∧ width < 2 ^ 28
  height_mem : 0 < height ∧ height < 2 ^ 28

/-- The canvas under `ZoomScaling`; `scrollX` and `scrollY` are the position of the Android view,
`xoffset` and `yoffset` what the bitmap has been told by `scrollChanged`. -/
structure View where
  absoluteXPosition : ℤ
  absoluteYPosition : ℤ
  scrollX : ℤ
  scrollY : ℤ
  xoffset : ℤ
  yoffset : ℤ
  scaling : ℚ
  minimumScale : ℚ
  screen : Screen

variable (dbl : Rounding 53) (flt : Rounding 24) (frame : Frame)

namespace View

/-- `getVisibleWidth()` -/
def visibleWidth (s : View) : ℤ := toInt (dbl (dbl (s.screen.width / s.scaling) + 1 / 2))

/-- `getVisibleHeight()` -/
def visibleHeight (s : View) : ℤ := toInt (dbl (dbl (s.screen.height / s.scaling) + 1 / 2))

/-- The coordinate that `scrollToAbsolute()` scrolls to on one axis. -/
def scrollTarget (s : View) (position : ℤ) (size imageSize : ℕ) : ℤ :=
  toInt (flt (flt (flt position + flt (flt (flt size - flt imageSize) / 2)) * s.scaling))

/-- `scrollToAbsolute()`: the view calls `onScrollChanged` if it moves. -/
def scrollToAbsolute (s : View) : View :=
  let x := s.scrollTarget flt s.absoluteXPosition s.screen.width frame.framebufferwidth
  let y := s.scrollTarget flt s.absoluteYPosition s.screen.height frame.framebufferheight
  if x ≠ s.scrollX ∨ y ≠ s.scrollY then
    { s with
      scrollX := x
      scrollY := y
      xoffset := s.absoluteXPosition
      yoffset := s.absoluteYPosition }
  else s

/-- `VncCanvasActivity.display.getHeight() * .6` -/
def margin (s : View) : ℚ := dbl (s.screen.displayHeight * dbl (6 / 10))

/-- `sX` in `pan(dX, dY)`, once it has been clamped. -/
def panX (dX : ℤ) (s : View) : ℚ :=
  let sX := dbl (dX / s.scaling)
  let sX := if dbl (s.absoluteXPosition + sX) < 0 then (-s.absoluteXPosition : ℚ) else sX
  if dbl (↑(s.absoluteXPosition + s.visibleWidth dbl) + sX) > frame.framebufferwidth then
    ((frame.framebufferwidth - s.visibleWidth dbl - s.absoluteXPosition : ℤ) : ℚ)
  else sX

/-- `sY` in `pan(dX, dY)`, once it has been clamped. -/
def panY (dY : ℤ) (s : View) : ℚ :=
  let sY := dbl (dY / s.scaling)
  let sY := if dbl (s.absoluteYPosition + sY) < 0 then (-s.absoluteYPosition : ℚ) else sY
  let bottom := dbl (frame.framebufferheight + s.margin dbl)
  if dbl (↑(s.absoluteYPosition + s.visibleHeight dbl) + sY) > bottom then
    dbl (dbl (bottom - s.visibleHeight dbl) - s.absoluteYPosition)
  else sY

/-- `pan(dX, dY)` -/
def pan (dX dY : ℤ) (s : View) : View :=
  let sX := s.panX dbl frame dX
  let sY := s.panY dbl frame dY
  let s := { s with
    absoluteXPosition := toInt (dbl (s.absoluteXPosition + sX))
    absoluteYPosition := toInt (dbl (s.absoluteYPosition + sY)) }
  if sX ≠ 0 ∨ sY ≠ 0 then s.scrollToAbsolute flt frame else s

/-- `resolveZoom(activity)` -/
def resolveZoom (s : View) : View := (s.scrollToAbsolute flt frame).pan dbl flt frame 0 0

/-- `getMinimumScale()` -/
def getMinimumScale (screen : Screen) : ℚ :=
  (([3 / 4, 1 / 2, 1 / 4, 0] : List ℚ).find? fun scale : ℚ =>
    scale * frame.framebufferwidth < screen.width ∨
      scale * frame.framebufferheight < screen.height).getD (-1 / 4 : ℚ) + 1 / 4

/-- `setScaleTypeForActivity(activity)` -/
def setScaleTypeForActivity (s : View) : View :=
  { s with
    scaling := 1
    minimumScale := getMinimumScale frame s.screen }.resolveZoom dbl flt frame

/-- `standardizeScaling()` -/
def standardizeScaling (s : View) : View :=
  { s with scaling := flt (flt (toInt (flt (s.scaling * 4))) / 4) }

def zoomIn (s : View) : View :=
  let s := s.standardizeScaling flt
  let scaling := flt (dbl (s.scaling + 1 / 4))
  { s with scaling := if scaling > 4 then 4 else scaling }.resolveZoom dbl flt frame

def zoomOut (s : View) : View :=
  let s := s.standardizeScaling flt
  let scaling := flt (dbl (s.scaling - 1 / 4))
  { s with scaling := if scaling < s.minimumScale then s.minimumScale else scaling }.resolveZoom
    dbl flt frame

/-- The scale that `adjust` changes to. -/
def adjusted (s : View) (scaleFactor : ℚ) : ℚ :=
  let newScale := flt (scaleFactor * s.scaling)
  if scaleFactor < 1 then if newScale < s.minimumScale then s.minimumScale else newScale
  else if newScale > 4 then 4 else newScale

/-- The pan on one axis that keeps the focus of a change of scale where it is. -/
def focusPan (s : View) (newScale f : ℚ) (position : ℤ) : ℤ :=
  let a := flt (flt (f / s.scaling) + flt position)
  let newPan := flt (flt (flt (flt (s.scaling * flt position) - flt (s.scaling * a)) +
    flt (newScale * a)) / newScale)
  toInt (flt (newPan - flt position))

/-- `adjust(activity, scaleFactor, fx, fy)`, before the view is panned. -/
def rescale (s : View) (scaleFactor : ℚ) : View :=
  { s with scaling := s.adjusted flt scaleFactor }.resolveZoom dbl flt frame

/-- `adjust(activity, scaleFactor, fx, fy)` -/
def adjust (s : View) (scaleFactor fx fy : ℚ) : View :=
  (s.rescale dbl flt frame scaleFactor).pan dbl flt frame
    (s.focusPan flt (s.adjusted flt scaleFactor) fx s.absoluteXPosition)
    (s.focusPan flt (s.adjusted flt scaleFactor) fy s.absoluteYPosition)

/-- The activity starts with the frame's corner in the corner of the canvas. -/
def start (screen : Screen) : View :=
  View.setScaleTypeForActivity dbl flt frame ⟨0, 0, 0, 0, 0, 0, 1, 0, screen⟩

end View

/-- What `Drawable.draw` passes to `drawBitmap`: the part of the pixel array that is read. -/
structure Window where
  xo : ℤ
  yo : ℤ
  drawWidth : ℤ
  drawHeight : ℤ

/-- The window of `Drawable.draw` where the scale type is not `FIT_CENTER`. -/
def View.window (s : View) : Window :=
  let xo := if s.xoffset < 0 then 0 else s.xoffset
  let yo := if s.yoffset < 0 then 0 else s.yoffset
  let drawWidth := s.visibleWidth dbl
  let drawHeight := s.visibleHeight dbl
  { xo := xo
    yo := yo
    drawWidth := if drawWidth + xo > frame.framebufferwidth then frame.framebufferwidth - xo
      else drawWidth
    drawHeight := if drawHeight + yo > frame.framebufferheight then frame.framebufferheight - yo
      else drawHeight }

/-- The window lies in the frame. -/
structure Window.InBounds (window : Window) (frame : Frame) : Prop where
  xo : 0 ≤ window.xo
  yo : 0 ≤ window.yo
  drawWidth : 0 ≤ window.drawWidth
  drawHeight : 0 ≤ window.drawHeight
  right : window.xo + window.drawWidth ≤ frame.framebufferwidth
  bottom : window.yo + window.drawHeight ≤ frame.framebufferheight

/-- What happens to the view. -/
inductive Event where
  | setScaleTypeForActivity
  | zoomIn
  | zoomOut
  | adjust (scaleFactor fx fy : ℚ)
  | pan (dX dY : ℤ)
  /-- The canvas or the display has another size. -/
  | layout (screen : Screen)

/-- One event. -/
def step (s : View) : Event → Option View
  | .setScaleTypeForActivity => some (s.setScaleTypeForActivity dbl flt frame)
  | .zoomIn => some (s.zoomIn dbl flt frame)
  | .zoomOut => some (s.zoomOut dbl flt frame)
  | .adjust scaleFactor fx fy => some (s.adjust dbl flt frame scaleFactor fx fy)
  | .pan dX dY => some (s.pan dbl flt frame dX dY)
  | .layout screen => some { s with screen := screen }

/-! ### Rounding -/

namespace Rounding

variable {p : ℕ} (r : Rounding p)

lemma intCast {k : ℤ} (h : |4 * k| ≤ 2 ^ p) : r k = k := by
  have hquarter := r.quarter (4 * k) h
  rwa [Int.cast_mul, Int.cast_ofNat, mul_div_cancel_left₀ _ four_ne_zero] at hquarter

lemma le_intCast {k : ℤ} (h : |4 * k| ≤ 2 ^ p) {x : ℚ} (hx : x ≤ k) : r x ≤ k :=
  r.intCast h ▸ r.mono hx

lemma intCast_le {k : ℤ} (h : |4 * k| ≤ 2 ^ p) {x : ℚ} (hx : k ≤ x) : k ≤ r x :=
  r.intCast h ▸ r.mono hx

lemma zero : r 0 = 0 := by
  exact_mod_cast r.intCast (k := 0) (by simp)

lemma nonneg {x : ℚ} (h : 0 ≤ x) : 0 ≤ r x := r.zero ▸ r.mono h

end Rounding

lemma toInt_le {x : ℚ} {k : ℤ} (hk : 0 ≤ k) (h : x < k + 1) : toInt x ≤ k := by
  refine max_le (hk.trans' (by norm_num)) ((min_le_right _ _).trans ?_)
  split_ifs with hx
  · rw [Int.ceil_le]
    exact hx.le.trans (by exact_mod_cast hk)
  · rw [← Int.lt_add_one_iff, Int.floor_lt]
    exact_mod_cast h

lemma toInt_nonneg {x : ℚ} (h : 0 ≤ x) : 0 ≤ toInt x := by
  refine le_max_of_le_right (le_min (by norm_num) ?_)
  rw [if_neg h.not_gt]
  exact Int.floor_nonneg.mpr h

lemma toInt_mem (x : ℚ) : -2 ^ 31 ≤ toInt x ∧ toInt x ≤ 2 ^ 31 - 1 :=
  ⟨le_max_left _ _, max_le (by norm_num) (min_le_left _ _)⟩
/-! ### The scale -/

namespace View

variable {dbl flt frame} {s : View}

lemma visibleWidth_mem (dbl : Rounding 53) (h : 1 / 4 ≤ s.scaling) :
    0 ≤ s.visibleWidth dbl ∧ s.visibleWidth dbl ≤ 2 ^ 31 - 1 := by
  refine ⟨toInt_nonneg (dbl.nonneg ?_), (toInt_mem _).2⟩
  have := dbl.nonneg (div_nonneg s.screen.width.cast_nonneg (by linarith : 0 ≤ s.scaling))
  linarith

lemma visibleHeight_mem (dbl : Rounding 53) (h : 1 / 4 ≤ s.scaling) :
    0 ≤ s.visibleHeight dbl ∧ s.visibleHeight dbl ≤ 2 ^ 31 - 1 := by
  refine ⟨toInt_nonneg (dbl.nonneg ?_), (toInt_mem _).2⟩
  have := dbl.nonneg (div_nonneg s.screen.height.cast_nonneg (by linarith : 0 ≤ s.scaling))
  linarith

lemma quarter_le_getMinimumScale (screen : Screen) : 1 / 4 ≤ getMinimumScale frame screen := by
  rw [getMinimumScale]
  cases hfind : ([3 / 4, 1 / 2, 1 / 4, 0] : List ℚ).find? _ with
  | none =>
    have := List.find?_eq_none.mp hfind 0 (by simp)
    simp [screen.width_mem.1] at this
  | some scale =>
    have hmem := List.mem_of_find?_eq_some hfind
    have hscale : 0 ≤ scale := by
      simp only [List.mem_cons, List.not_mem_nil, or_false] at hmem
      rcases hmem with rfl | rfl | rfl | rfl <;> norm_num
    rw [Option.getD_some]
    linarith

lemma quarter_le_standardizeScaling (flt : Rounding 24) (h : 1 / 4 ≤ s.scaling) :
    1 / 4 ≤ (s.standardizeScaling flt).scaling := by
  have hone : (1 : ℚ) ≤ flt (s.scaling * 4) := by
    exact_mod_cast flt.intCast_le (k := 1) (by norm_num) (by push_cast; linarith)
  have hint : (1 : ℤ) ≤ toInt (flt (s.scaling * 4)) := by
    refine le_max_of_le_right (le_min (by norm_num) ?_)
    rw [if_neg (by linarith), Int.le_floor]
    exact_mod_cast hone
  have hfloat : (1 : ℚ) ≤ flt (toInt (flt (s.scaling * 4))) := by
    exact_mod_cast flt.intCast_le (k := 1) (by norm_num) (by exact_mod_cast hint)
  have hquarter := flt.quarter 1 (by norm_num)
  rw [Int.cast_one] at hquarter
  rw [standardizeScaling, ← hquarter]
  exact flt.mono (by linarith)

lemma quarter_le_adjusted (h : 1 / 4 ≤ s.scaling) (hmin : 1 / 4 ≤ s.minimumScale)
    (scaleFactor : ℚ) : 1 / 4 ≤ s.adjusted flt scaleFactor := by
  have hquarter := flt.quarter 1 (by norm_num)
  rw [Int.cast_one] at hquarter
  rw [adjusted]
  split_ifs with hfactor hlow hhigh
  · exact hmin
  · linarith
  · norm_num
  · rw [← hquarter]
    exact flt.mono (by nlinarith)

/-! ### One pan -/

/-- The clamped pan to the right does not leave the frame. -/
lemma panRight_le {position visible image : ℤ} {sX : ℚ} (hvisible : 0 ≤ visible ∧ visible ≤ 2 ^ 31 - 1)
    (himage : 0 ≤ image ∧ image < 2 ^ 16) :
    toInt (dbl (position + if dbl (↑(position + visible) + sX) > image then
      ((image - visible - position : ℤ) : ℚ) else sX)) ≤ image := by
  have hfix : |4 * image| ≤ 2 ^ 53 := by rw [abs_le]; omega
  refine toInt_le himage.1 (lt_of_le_of_lt (b := (image : ℚ)) ?_ (lt_add_one _))
  split_ifs with hover
  · refine dbl.le_intCast hfix ?_
    push_cast
    have : (0 : ℚ) ≤ visible := by exact_mod_cast hvisible.1
    linarith
  · refine (dbl.mono ?_).trans (not_lt.mp hover)
    push_cast
    have : (0 : ℚ) ≤ visible := by exact_mod_cast hvisible.1
    linarith

/-- The clamped pan downwards does not leave the frame if it does not ask for it, or if the margin
is not larger than what is visible. -/
lemma panDown_le {position visible image : ℤ} {sY margin : ℚ}
    (hposition : -2 ^ 31 ≤ position ∧ position ≤ image)
    (hvisible : 0 ≤ visible ∧ visible ≤ 2 ^ 31 - 1) (himage : 0 ≤ image ∧ image < 2 ^ 16)
    (hfits : position + sY ≤ image ∨ margin ≤ visible) :
    toInt (dbl (position + if dbl (↑(position + visible) + sY) > dbl (image + margin) then
      dbl (dbl (dbl (image + margin) - visible) - position) else sY)) ≤ image := by
  have hfix : |4 * image| ≤ 2 ^ 53 := by rw [abs_le]; omega
  have hfix₂ : |4 * (image + visible)| ≤ 2 ^ 53 := by rw [abs_le]; omega
  have hfix₃ : |4 * (image - position)| ≤ 2 ^ 53 := by rw [abs_le]; omega
  -- the bottom is not below the frame where the view is moved to it
  have hbottom : dbl (↑(position + visible) + sY) > dbl (image + margin) →
      dbl (image + margin) ≤ ↑(image + visible) := by
    intro hover
    rcases hfits with hfits | hfits
    · refine hover.le.trans (dbl.le_intCast hfix₂ ?_)
      push_cast
      linarith
    · refine dbl.le_intCast hfix₂ ?_
      push_cast
      linarith
  refine toInt_le himage.1 ?_
  split_ifs with hover
  · have h₁ : dbl (dbl (image + margin) - visible) ≤ image := by
      refine dbl.le_intCast hfix ?_
      have := hbottom hover
      push_cast at this
      linarith
    have h₂ : dbl (dbl (dbl (image + margin) - visible) - position) ≤ ↑(image - position) := by
      refine dbl.le_intCast hfix₃ ?_
      push_cast
      linarith
    push_cast at h₂
    exact (dbl.le_intCast hfix (by linarith)).trans_lt (lt_add_one _)
  · rcases hfits with hfits | hfits
    · exact (dbl.le_intCast hfix hfits).trans_lt (lt_add_one _)
    · -- a quarter of a pixel below the frame would have been clamped
      have hquarter : |4 * image + 1| ≤ 2 ^ 53 := by rw [abs_le]; omega
      have hquarter₂ : |4 * (image + visible) + 1| ≤ 2 ^ 53 := by rw [abs_le]; omega
      have hlow : position + sY ≤ image + 1 / 4 := by
        by_contra hlow
        have h₁ := dbl.quarter _ hquarter₂
        have h₂ : dbl (((4 * (image + visible) + 1 : ℤ) : ℚ) / 4) ≤
            dbl (↑(position + visible) + sY) := by
          apply dbl.mono
          push_cast
          linarith
        have h₃ : dbl (image + margin) ≤ ↑(image + visible) := by
          refine dbl.le_intCast hfix₂ ?_
          push_cast
          linarith
        rw [h₁] at h₂
        push_cast at h₂ h₃ hover
        linarith
      have h := dbl.mono (show position + sY ≤ ((4 * image + 1 : ℤ) : ℚ) / 4 by
        push_cast
        linarith)
      rw [dbl.quarter _ hquarter] at h
      push_cast at h
      linarith

/-- No position is to the right of the frame or below it, and the scale is not too small. -/
structure Inside (frame : Frame) (s : View) : Prop where
  x : -2 ^ 31 ≤ s.absoluteXPosition ∧ s.absoluteXPosition ≤ frame.framebufferwidth
  y : -2 ^ 31 ≤ s.absoluteYPosition ∧ s.absoluteYPosition ≤ frame.framebufferheight
  xoffset : s.xoffset ≤ frame.framebufferwidth
  yoffset : s.yoffset ≤ frame.framebufferheight
  scaling : 1 / 4 ≤ s.scaling
  minimumScale : 1 / 4 ≤ s.minimumScale

/-- A pan does not ask to move below the frame, or at least as much as the margin is visible. -/
def PanFits (dbl : Rounding 53) (frame : Frame) (s : View) (dY : ℤ) : Prop :=
  s.absoluteYPosition + dY / s.scaling ≤ frame.framebufferheight ∨
    s.margin dbl ≤ s.visibleHeight dbl

instance (dbl : Rounding 53) (frame : Frame) (s : View) (dY : ℤ) :
    Decidable (PanFits dbl frame s dY) :=
  inferInstanceAs (Decidable (_ ∨ _))

lemma Inside.scrollToAbsolute (h : Inside frame s) : Inside frame (s.scrollToAbsolute flt frame) := by
  rw [View.scrollToAbsolute]
  split_ifs
  · exact ⟨h.x, h.y, h.x.2, h.y.2, h.scaling, h.minimumScale⟩
  · exact h

lemma toInt_panX_le (h : Inside frame s) (dX : ℤ) :
    toInt (dbl (s.absoluteXPosition + s.panX dbl frame dX)) ≤ frame.framebufferwidth := by
  have hwidth := frame.width_lt
  exact_mod_cast panRight_le (visibleWidth_mem dbl h.scaling)
    (show (0 : ℤ) ≤ frame.framebufferwidth ∧ (frame.framebufferwidth : ℤ) < 2 ^ 16 by omega)

lemma toInt_panY_le (h : Inside frame s) {dY : ℤ} (hfits : PanFits dbl frame s dY) :
    toInt (dbl (s.absoluteYPosition + s.panY dbl frame dY)) ≤ frame.framebufferheight := by
  have hheight := frame.height_lt
  have hrequest : s.absoluteYPosition + (if dbl (s.absoluteYPosition + dbl (dY / s.scaling)) < 0
      then (-s.absoluteYPosition : ℚ) else dbl (dY / s.scaling)) ≤
        ((frame.framebufferheight : ℤ) : ℚ) ∨ s.margin dbl ≤ s.visibleHeight dbl := by
    refine hfits.imp_left fun hfits => ?_
    split_ifs
    · rw [add_neg_cancel]
      exact_mod_cast Nat.zero_le _
    · have hfix : |4 * ((frame.framebufferheight : ℤ) - s.absoluteYPosition)| ≤ 2 ^ 53 := by
        have := h.y
        rw [abs_le]
        omega
      have := dbl.le_intCast hfix (x := dY / s.scaling) (by push_cast; linarith)
      push_cast at this ⊢
      linarith
  exact_mod_cast panDown_le h.y (visibleHeight_mem dbl h.scaling)
    (show (0 : ℤ) ≤ frame.framebufferheight ∧ (frame.framebufferheight : ℤ) < 2 ^ 16 by omega)
    hrequest

lemma Inside.pan (h : Inside frame s) {dX dY : ℤ} (hfits : PanFits dbl frame s dY) :
    Inside frame (s.pan dbl flt frame dX dY) := by
  have hpanned : Inside frame { s with
      absoluteXPosition := toInt (dbl (s.absoluteXPosition + s.panX dbl frame dX))
      absoluteYPosition := toInt (dbl (s.absoluteYPosition + s.panY dbl frame dY)) } :=
    ⟨⟨(toInt_mem _).1, toInt_panX_le h dX⟩, ⟨(toInt_mem _).1, toInt_panY_le h hfits⟩, h.xoffset,
      h.yoffset, h.scaling, h.minimumScale⟩
  rw [View.pan]
  split_ifs
  · exact hpanned.scrollToAbsolute
  · exact hpanned

/-- A pan that only clamps. -/
lemma Inside.panFits_zero (h : Inside frame s) : PanFits dbl frame s 0 := by
  left
  rw [Int.cast_zero, zero_div, add_zero]
  exact_mod_cast h.y.2

lemma Inside.resolveZoom (h : Inside frame s) : Inside frame (s.resolveZoom dbl flt frame) :=
  h.scrollToAbsolute.pan h.scrollToAbsolute.panFits_zero

lemma Inside.setScaling (h : Inside frame s) {scaling : ℚ} (hscaling : 1 / 4 ≤ scaling) :
    Inside frame { s with scaling := scaling } :=
  ⟨h.x, h.y, h.xoffset, h.yoffset, hscaling, h.minimumScale⟩

lemma Inside.setScaleTypeForActivity (h : Inside frame s) :
    Inside frame (s.setScaleTypeForActivity dbl flt frame) :=
  Inside.resolveZoom ⟨h.x, h.y, h.xoffset, h.yoffset, by norm_num, quarter_le_getMinimumScale _⟩

lemma Inside.zoomIn (h : Inside frame s) : Inside frame (s.zoomIn dbl flt frame) := by
  have hstandard := quarter_le_standardizeScaling flt h.scaling
  refine Inside.resolveZoom ((h.setScaling hstandard).setScaling ?_)
  split_ifs
  · norm_num
  · have hhalf := dbl.quarter 2 (by norm_num)
    have hhalf' := flt.quarter 2 (by norm_num)
    have h₁ := dbl.mono (show ((2 : ℤ) : ℚ) / 4 ≤ (s.standardizeScaling flt).scaling + 1 / 4 by
      push_cast
      linarith)
    rw [hhalf] at h₁
    have h₂ := flt.mono h₁
    rw [hhalf'] at h₂
    push_cast at h₂
    linarith

lemma Inside.zoomOut (h : Inside frame s) : Inside frame (s.zoomOut dbl flt frame) := by
  have hstandard := quarter_le_standardizeScaling flt h.scaling
  refine Inside.resolveZoom ((h.setScaling hstandard).setScaling ?_)
  split_ifs with hlow
  · exact h.minimumScale
  · exact h.minimumScale.trans (not_lt.mp hlow)

lemma Inside.rescale (h : Inside frame s) (scaleFactor : ℚ) :
    Inside frame (s.rescale dbl flt frame scaleFactor) :=
  Inside.resolveZoom (h.setScaling (quarter_le_adjusted h.scaling h.minimumScale scaleFactor))

lemma Inside.inBounds_window (h : Inside frame s) : (s.window dbl frame).InBounds frame := by
  have hwidth := visibleWidth_mem dbl h.scaling
  have hheight := visibleHeight_mem dbl h.scaling
  have hx := h.xoffset
  have hy := h.yoffset
  constructor <;> dsimp only [View.window] <;> split_ifs <;> omega

end View

/-! ### Runs -/

/-- The pans of an event do not ask to move below the frame, or at least as much as the margin is
visible. -/
def Fits (s : View) : Event → Prop
  | .pan _ dY => View.PanFits dbl frame s dY
  | .adjust scaleFactor _ fy => View.PanFits dbl frame (s.rescale dbl flt frame scaleFactor)
      (s.focusPan flt (s.adjusted flt scaleFactor) fy s.absoluteYPosition)
  | _ => True

instance (s : View) : (e : Event) → Decidable (Fits dbl flt frame s e)
  | .pan _ _ | .adjust _ _ _ => inferInstanceAs (Decidable (View.PanFits dbl frame _ _))
  | .setScaleTypeForActivity | .zoomIn | .zoomOut | .layout _ => .isTrue trivial

variable {dbl flt frame}

lemma inside_start (screen : Screen) : View.Inside frame (.start dbl flt frame screen) := by
  have hx : (0 : ℤ) ≤ frame.framebufferwidth := by omega
  have hy : (0 : ℤ) ≤ frame.framebufferheight := by omega
  exact View.Inside.resolveZoom ⟨⟨by norm_num, hx⟩, ⟨by norm_num, hy⟩, hx, hy, by norm_num,
    View.quarter_le_getMinimumScale _⟩

lemma inside_step {s s' : View} {e : Event} (h : View.Inside frame s)
    (hfits : Fits dbl flt frame s e) (hstep : step dbl flt frame s e = some s') :
    View.Inside frame s' := by
  cases e <;> cases hstep
  case setScaleTypeForActivity => exact h.setScaleTypeForActivity
  case zoomIn => exact h.zoomIn
  case zoomOut => exact h.zoomOut
  case adjust scaleFactor fx fy => exact (h.rescale scaleFactor).pan hfits
  case pan dX dY => exact h.pan hfits
  case layout screen => exact ⟨h.x, h.y, h.xoffset, h.yoffset, h.scaling, h.minimumScale⟩

/-- However the view is zoomed and panned, and whatever the sizes are: if no pan asks to move below
the frame while less than the margin is visible, then only pixels of the frame are drawn. -/
theorem window_inBounds (dbl : Rounding 53) (flt : Rounding 24) (frame : Frame) (screen : Screen)
    (events : List Event) (s : View)
    (hfits : Guarded (step dbl flt frame) (Fits dbl flt frame) (.start dbl flt frame screen) events)
    (hrun : run (step dbl flt frame) (.start dbl flt frame screen) events = some s) :
    (s.window dbl frame).InBounds frame :=
  View.Inside.inBounds_window (run_invariant_of_guarded
    (fun _ _ _ h hfits hstep => inside_step h hfits hstep) (inside_start screen) hfits hrun)

/-- No rounding, which is what happens to the numbers of the runs below. -/
def exact (p : ℕ) : Rounding p := ⟨id, monotone_id, fun _ _ => rfl⟩

def frame640 : Frame := ⟨640, 480, by decide, by decide⟩

def screen800 : Screen := ⟨800, 480, 480, by decide, by decide⟩

/-- A view that is zoomed and panned inside the frame. -/
theorem window_inBounds_frame640 :
    ∃ s, run (step (exact 53) (exact 24) frame640) (.start (exact 53) (exact 24) frame640 screen800)
        [.zoomIn, .zoomIn, .pan 100 50, .adjust 2 400 240, .pan (-30) 20, .zoomOut] = some s ∧
      (s.window (exact 53) frame640).InBounds frame640 := by
  have hfits : Guarded (step (exact 53) (exact 24) frame640) (Fits (exact 53) (exact 24) frame640)
      (.start (exact 53) (exact 24) frame640 screen800)
      [.zoomIn, .zoomIn, .pan 100 50, .adjust 2 400 240, .pan (-30) 20, .zoomOut] := by
    decide +kernel
  obtain ⟨s, hrun⟩ := Option.isSome_iff_exists.mp (by decide +kernel :
    (run (step (exact 53) (exact 24) frame640) (.start (exact 53) (exact 24) frame640 screen800)
      [.zoomIn, .zoomIn, .pan 100 50, .adjust 2 400 240, .pan (-30) 20, .zoomOut]).isSome)
  exact ⟨s, hrun, window_inBounds _ _ _ screen800 _ s hfits hrun⟩

/-- At a scale of four the view is moved to 168 pixels below the frame. -/
theorem not_window_inBounds :
    ∃ s, run (step (exact 53) (exact 24) frame640) (.start (exact 53) (exact 24) frame640 screen800)
        [.adjust 4 0 0, .pan 0 4000] = some s ∧
      ¬ (s.window (exact 53) frame640).InBounds frame640 := by
  have hheight : ∀ s ∈ run (step (exact 53) (exact 24) frame640)
      (.start (exact 53) (exact 24) frame640 screen800) [.adjust 4 0 0, .pan 0 4000],
      (s.window (exact 53) frame640).drawHeight = -168 := by
    decide +kernel
  obtain ⟨s, hrun⟩ := Option.isSome_iff_exists.mp (by decide +kernel :
    (run (step (exact 53) (exact 24) frame640) (.start (exact 53) (exact 24) frame640 screen800)
      [.adjust 4 0 0, .pan 0 4000]).isSome)
  refine ⟨s, hrun, fun h => ?_⟩
  have hnonneg := h.drawHeight
  rw [hheight s hrun] at hnonneg
  exact absurd hnonneg (by decide)

end Limbo.Vnc.Zoom
