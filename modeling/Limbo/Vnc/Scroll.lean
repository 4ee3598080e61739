import Limbo.Drawing.Overlap

/-!
# The window of a large bitmap

`LargeBitmapData` keeps a bitmap that is smaller than the frame and moves it over the frame in two
phases: `scrollChanged` chooses where it is to go, `syncScroll` moves it there. Both sides of the
window are computed alike, the left one with the widths, the top one with the heights.
-/

namespace Limbo.Vnc

open Drawing

/-! ### The sizes -/

/-- The arguments of the constructor. The scale is a square root of the capacity over the size of
the frame; any number may come out of it. -/
structure LargeBitmap where
  framebufferwidth : ℕ
  framebufferheight : ℕ
  displayWidth : ℕ
  displayHeight : ℕ
  scaleMultiplier : ℚ
deriving DecidableEq, Repr

namespace LargeBitmap

/-- A side of the bitmap, from the sides of the frame and of the display. -/
def scaled (scaleMultiplier : ℚ) (framebuffer display : ℕ) : ℕ :=
  let scaleMultiplier := if scaleMultiplier > 1 then 1 else scaleMultiplier
  let bitmap := ⌊framebuffer * scaleMultiplier⌋₊
  if bitmap < display then display else bitmap

variable (b : LargeBitmap)

def bitmapwidth : ℕ := scaled b.scaleMultiplier b.framebufferwidth b.displayWidth

def bitmapheight : ℕ := scaled b.scaleMultiplier b.framebufferheight b.displayHeight

/-- The frame. -/
def frame : Rect := ⟨0, 0, b.framebufferwidth, b.framebufferheight⟩

end LargeBitmap

/-- A rectangle lies inside another one. -/
structure Inside (a b : Rect) : Prop where
  left : b.left ≤ a.left
  right : a.right ≤ b.right
  top : b.top ≤ a.top
  bottom : a.bottom ≤ b.bottom

instance (a b : Rect) : Decidable (Inside a b) :=
  decidable_of_iff (b.left ≤ a.left ∧ a.right ≤ b.right ∧ b.top ≤ a.top ∧ a.bottom ≤ b.bottom)
    ⟨fun h => ⟨h.1, h.2.1, h.2.2.1, h.2.2.2⟩, fun h => ⟨h.left, h.right, h.top, h.bottom⟩⟩

/-! ### The two phases -/

/-- Where the bitmap is and where it is to go. -/
structure Window where
  xoffset : ℤ
  yoffset : ℤ
  scrolledToX : ℤ
  scrolledToY : ℤ
  waitingForInput : Bool
deriving DecidableEq, Repr

/-- A new `LargeBitmapData`. -/
def Window.init : Window := ⟨0, 0, 0, 0, false⟩

/-- A scroll position, with the visible sizes of the canvas at it. -/
structure Scroll where
  newx : ℤ
  newy : ℤ
  visibleWidth : ℕ
  visibleHeight : ℕ
deriving DecidableEq, Repr

/-- The visible rectangle. -/
def Scroll.visible (v : Scroll) : Rect :=
  ⟨v.newx, v.newy, v.newx + v.visibleWidth, v.newy + v.visibleHeight⟩

/-- The visible area is no larger than the bitmap. -/
structure Scroll.Fits (b : LargeBitmap) (v : Scroll) : Prop where
  width : v.visibleWidth ≤ b.bitmapwidth
  height : v.visibleHeight ≤ b.bitmapheight

/-- `newScrolledToX` or `newScrolledToY` of `scrollChanged`. -/
def scrollTo (offset scrolledTo new : ℤ) (visible bitmap framebuffer : ℕ) : ℤ :=
  if new - offset < 0 then
    let newScrolledTo := new + (visible / 2 : ℕ) - (bitmap / 2 : ℕ)
    if newScrolledTo < 0 then 0 else newScrolledTo
  else if new - offset + visible > bitmap then
    let newScrolledTo := new + (visible / 2 : ℕ) - (bitmap / 2 : ℕ)
    if newScrolledTo + bitmap > framebuffer then framebuffer - bitmap else newScrolledTo
  else scrolledTo

namespace Window

variable (b : LargeBitmap)

/-- The part of the frame that the bitmap holds. -/
def rect (w : Window) : Rect :=
  ⟨w.xoffset, w.yoffset, w.xoffset + b.bitmapwidth, w.yoffset + b.bitmapheight⟩

/-- The part of the frame that the bitmap is to hold. -/
def target (w : Window) : Rect :=
  ⟨w.scrolledToX, w.scrolledToY, w.scrolledToX + b.bitmapwidth, w.scrolledToY + b.bitmapheight⟩

/-- `syncScroll()`, as far as it moves the window. -/
def syncScroll (w : Window) : Window :=
  { w with
    xoffset := w.scrolledToX
    yoffset := w.scrolledToY
    waitingForInput := true }

/-- `doneWaiting()`. -/
def doneWaiting (w : Window) : Window := { w with waitingForInput := false }

/-- The first half of `scrollChanged`: the fields `scrolledToX` and `scrolledToY`. -/
def aim (v : Scroll) (w : Window) : Window :=
  { w with
    scrolledToX := scrollTo w.xoffset w.scrolledToX v.newx v.visibleWidth b.bitmapwidth
      b.framebufferwidth
    scrolledToY := scrollTo w.yoffset w.scrolledToY v.newy v.visibleHeight b.bitmapheight
      b.framebufferheight }

/-- `scrollChanged(newx, newy)`. -/
def scrollChanged (v : Scroll) (w : Window) : Window :=
  let w' := w.aim b v
  if w'.scrolledToX ≠ w.scrolledToX ∨ w'.scrolledToY ≠ w.scrolledToY then
    if w.waitingForInput then w'.syncScroll else w'
  else w

/-- What happens to the window. -/
inductive Event where
  | scrollChanged (v : Scroll)
  | syncScroll
  | doneWaiting
deriving DecidableEq, Repr

/-- One event. -/
def after (w : Window) : Event → Window
  | .scrollChanged v => w.scrollChanged b v
  | .syncScroll => w.syncScroll
  | .doneWaiting => w.doneWaiting

/-- One event after the other. -/
def run (w : Window) (events : List Event) : Window := events.foldl (after b) w

end Window

/-! ### The window after a scroll -/

section Axis

variable {offset scrolledTo new : ℤ} {visible bitmap framebuffer : ℕ}

/-- On one axis, the visible area is out of the window, so that the scroll aims anew, or it is in
the window that the bitmap is already to go to. -/
def Aimed (offset scrolledTo new : ℤ) (visible bitmap : ℕ) : Prop :=
  new < offset ∨ offset + bitmap < new + visible ∨
    (scrolledTo ≤ new ∧ new + visible ≤ scrolledTo + bitmap)

instance (offset scrolledTo new : ℤ) (visible bitmap : ℕ) :
    Decidable (Aimed offset scrolledTo new visible bitmap) := inferInstanceAs (Decidable (_ ∨ _))

/-- A scroll never aims out of the frame. -/
lemma scrollTo_inFrame (new : ℤ) (hv : visible ≤ bitmap) (h₁ : 0 ≤ offset)
    (h₂ : offset + bitmap ≤ framebuffer) (h₃ : 0 ≤ scrolledTo)
    (h₄ : scrolledTo + bitmap ≤ framebuffer) :
    0 ≤ scrollTo offset scrolledTo new visible bitmap framebuffer ∧
      scrollTo offset scrolledTo new visible bitmap framebuffer + bitmap ≤ framebuffer := by
  simp only [scrollTo]
  split_ifs <;> omega

/-- The place that a scroll aims at shows the visible area exactly in these cases. -/
lemma scrollTo_shows_iff (hv : visible ≤ bitmap) (h₁ : 0 ≤ new) (h₂ : new + visible ≤ framebuffer) :
    (scrollTo offset scrolledTo new visible bitmap framebuffer ≤ new ∧
        new + visible ≤ scrollTo offset scrolledTo new visible bitmap framebuffer + bitmap) ↔
      Aimed offset scrolledTo new visible bitmap := by
  simp only [scrollTo, Aimed]
  split_ifs <;> omega

end Axis

namespace Window

variable {b : LargeBitmap} {w : Window} {v : Scroll}

/-- The window lies inside the frame and shows the visible rectangle. -/
def Shows (b : LargeBitmap) (w : Window) (v : Scroll) : Prop :=
  Inside (w.rect b) b.frame ∧ Inside v.visible (w.rect b)

instance (b : LargeBitmap) (w : Window) (v : Scroll) : Decidable (w.Shows b v) :=
  inferInstanceAs (Decidable (_ ∧ _))

/-- The bitmap is no larger than the frame, the visible rectangle no larger than the bitmap and
inside the frame, and on either axis a window that is still to come is not left as it is where the
visible rectangle is in the present one only. -/
structure Kept (b : LargeBitmap) (w : Window) (v : Scroll) : Prop where
  width : b.bitmapwidth ≤ b.framebufferwidth
  height : b.bitmapheight ≤ b.framebufferheight
  fits : v.Fits b
  visible : Inside v.visible b.frame
  x : Aimed w.xoffset w.scrolledToX v.newx v.visibleWidth b.bitmapwidth
  y : Aimed w.yoffset w.scrolledToY v.newy v.visibleHeight b.bitmapheight

/-- The window is inside the frame, and so is the one to come. -/
structure InFrame (b : LargeBitmap) (w : Window) : Prop where
  rect : Inside (w.rect b) b.frame
  target : Inside (w.target b) b.frame

lemma InFrame.init (hw : b.bitmapwidth ≤ b.framebufferwidth)
    (hh : b.bitmapheight ≤ b.framebufferheight) : InFrame b .init := by
  have h : Inside (Window.init.rect b) b.frame := by
    constructor <;> simp [Window.init, Window.rect, LargeBitmap.frame, hw, hh]
  exact ⟨h, h⟩

lemma InFrame.syncScroll (h : InFrame b w) : InFrame b w.syncScroll := ⟨h.target, h.target⟩

lemma InFrame.aim (h : InFrame b w) (hv : v.Fits b) : InFrame b (w.aim b v) := by
  have hx := scrollTo_inFrame v.newx hv.width h.rect.left h.rect.right
    h.target.left h.target.right
  have hy := scrollTo_inFrame v.newy hv.height h.rect.top h.rect.bottom
    h.target.top h.target.bottom
  exact ⟨h.rect, hx.1, hx.2, hy.1, hy.2⟩

/-- Whether or not the window moves at once, it is to go where the scroll aims. -/
lemma target_scrollChanged : (w.scrollChanged b v).target b = (w.aim b v).target b := by
  simp only [Window.scrollChanged]
  split_ifs with hne hwait
  · rfl
  · rfl
  · push Not at hne
    simp [Window.target, hne]

/-- After a scroll the window is where it was or where the scroll aims. -/
lemma rect_scrollChanged : (w.scrollChanged b v).rect b = w.rect b ∨
    (w.scrollChanged b v).rect b = (w.aim b v).target b := by
  simp only [Window.scrollChanged]
  split_ifs
  · exact .inr rfl
  · exact .inl rfl
  · exact .inl rfl

lemma InFrame.after (h : InFrame b w) {e : Event} (hfits : ∀ v, e = .scrollChanged v → v.Fits b) :
    InFrame b (w.after b e) := by
  cases e with
  | syncScroll => exact h.syncScroll
  | doneWaiting => exact ⟨h.rect, h.target⟩
  | scrollChanged v =>
    have haim := h.aim (hfits v rfl)
    refine ⟨?_, target_scrollChanged ▸ haim.target⟩
    rcases rect_scrollChanged (b := b) (w := w) (v := v) with heq | heq
    · exact heq ▸ h.rect
    · exact heq ▸ haim.target

lemma InFrame.run (h : InFrame b w) {events : List Event}
    (hfits : ∀ v, .scrollChanged v ∈ events → v.Fits b) : InFrame b (w.run b events) := by
  induction events generalizing w with
  | nil => exact h
  | cons e events ih =>
    exact ih (h.after fun v he => hfits v (he ▸ List.mem_cons_self))
      fun v he => hfits v (List.mem_cons_of_mem _ he)

/-- Until the next scroll the window is to go to the same place. -/
lemma target_run {events : List Event} (hscroll : ∀ v, .scrollChanged v ∉ events) :
    (w.run b events).target b = w.target b := by
  induction events generalizing w with
  | nil => rfl
  | cons e events ih =>
    have hafter : (w.after b e).target b = w.target b := by
      cases e with
      | scrollChanged v => exact absurd List.mem_cons_self (hscroll v)
      | syncScroll => rfl
      | doneWaiting => rfl
    exact (ih fun v he => hscroll v (List.mem_cons_of_mem _ he)).trans hafter

/-- A window that is where it is to go stays there until the next scroll. -/
lemma rect_run_of_eq {events : List Event} (hscroll : ∀ v, .scrollChanged v ∉ events)
    (h : w.rect b = w.target b) : (w.run b events).rect b = w.target b := by
  induction events generalizing w with
  | nil => exact h
  | cons e events ih =>
    have hscroll' : ∀ v, .scrollChanged v ∉ events := fun v he =>
      hscroll v (List.mem_cons_of_mem _ he)
    cases e with
    | scrollChanged v => exact absurd List.mem_cons_self (hscroll v)
    | syncScroll => exact ih hscroll' rfl
    | doneWaiting => exact ih hscroll' h

/-- With a `syncScroll` the window has got there. -/
lemma rect_run {events : List Event} (hscroll : ∀ v, .scrollChanged v ∉ events)
    (hsync : .syncScroll ∈ events) : (w.run b events).rect b = w.target b := by
  induction events generalizing w with
  | nil => simp at hsync
  | cons e events ih =>
    have hscroll' : ∀ v, .scrollChanged v ∉ events := fun v he =>
      hscroll v (List.mem_cons_of_mem _ he)
    cases e with
    | scrollChanged v => exact absurd List.mem_cons_self (hscroll v)
    | syncScroll => exact rect_run_of_eq (w := w.syncScroll) hscroll' rfl
    | doneWaiting => exact ih hscroll' (by simpa using hsync)

/-- Inside the frame, a scroll aims at a place that shows it exactly when the branch that it takes
on either axis does. -/
lemma target_aim_shows_iff (h : b.bitmapwidth ≤ b.framebufferwidth →
    b.bitmapheight ≤ b.framebufferheight → InFrame b w) :
    (Inside ((w.aim b v).target b) b.frame ∧ Inside v.visible ((w.aim b v).target b)) ↔
      w.Kept b v := by
  have hframe (h₁ : Inside ((w.aim b v).target b) b.frame) :
      b.bitmapwidth ≤ b.framebufferwidth ∧ b.bitmapheight ≤ b.framebufferheight := by
    have hx := add_le_add_left h₁.left b.bitmapwidth
    have hy := add_le_add_left h₁.top b.bitmapheight
    have hright := h₁.right
    have hbottom := h₁.bottom
    simp only [LargeBitmap.frame, Window.target] at hx hy hright hbottom
    omega
  have hfits (h₂ : Inside v.visible ((w.aim b v).target b)) : v.Fits b := by
    have hleft := h₂.left
    have hright := h₂.right
    have htop := h₂.top
    have hbottom := h₂.bottom
    simp only [Scroll.visible, Window.target] at hleft hright htop hbottom
    exact ⟨by omega, by omega⟩
  constructor
  · rintro ⟨h₁, h₂⟩
    obtain ⟨hwidth, hheight⟩ := hframe h₁
    have hv := hfits h₂
    have hvisible : Inside v.visible b.frame :=
      ⟨h₁.left.trans h₂.left, h₂.right.trans h₁.right, h₁.top.trans h₂.top,
        h₂.bottom.trans h₁.bottom⟩
    exact ⟨hwidth, hheight, hv, hvisible,
      (scrollTo_shows_iff hv.width hvisible.left hvisible.right).mp ⟨h₂.left, h₂.right⟩,
      (scrollTo_shows_iff hv.height hvisible.top hvisible.bottom).mp ⟨h₂.top, h₂.bottom⟩⟩
  · intro hk
    have hx := (scrollTo_shows_iff hk.fits.width hk.visible.left hk.visible.right).mpr hk.x
    have hy := (scrollTo_shows_iff hk.fits.height hk.visible.top hk.visible.bottom).mpr hk.y
    exact ⟨((h hk.width hk.height).aim hk.fits).target, hx.1, hx.2, hy.1, hy.2⟩

/-- After the `syncScroll` that follows a scroll, the window lies inside the frame and shows the
visible rectangle exactly when the scroll met the condition in the state before it. -/
theorem shows_run_iff (b : LargeBitmap) (pre : List Event) (v : Scroll) (rest : List Event)
    (hfits : ∀ u, .scrollChanged u ∈ pre → u.Fits b) (hscroll : ∀ u, .scrollChanged u ∉ rest)
    (hsync : .syncScroll ∈ rest) :
    (Window.init.run b (pre ++ .scrollChanged v :: rest)).Shows b v ↔
      (Window.init.run b pre).Kept b v := by
  have hrect : (Window.init.run b (pre ++ .scrollChanged v :: rest)).rect b =
      ((Window.init.run b pre).aim b v).target b := by
    rw [Window.run, List.foldl_append, List.foldl_cons]
    exact (rect_run hscroll hsync).trans target_scrollChanged
  rw [Window.Shows, hrect]
  exact target_aim_shows_iff fun hwidth hheight => (InFrame.init hwidth hheight).run hfits

/-- A bitmap of 40 by 30 over a frame of 100 by 90. -/
def small : LargeBitmap := ⟨100, 90, 40, 30, 1 / 5⟩

/-- Two scrolls to the right, each of which leaves the window, with a `syncScroll` between them. -/
theorem shows_run_right :
    (Window.init.run small ([.scrollChanged ⟨30, 0, 20, 15⟩, .syncScroll] ++
      .scrollChanged ⟨70, 5, 20, 15⟩ :: [.syncScroll])).Shows small ⟨70, 5, 20, 15⟩ := by
  have hfits : (⟨30, 0, 20, 15⟩ : Scroll).Fits small := ⟨by decide +kernel, by decide +kernel⟩
  refine (shows_run_iff small _ _ _ (by simpa using hfits) (by simp) (by simp)).mpr ?_
  exact {
    width := by decide +kernel
    height := by decide +kernel
    fits := ⟨by decide +kernel, by decide +kernel⟩
    visible := by decide +kernel
    x := by decide +kernel
    y := by decide +kernel }

/-- A scroll away and back before a `syncScroll`: the window goes away all the same. -/
theorem not_shows_run_back :
    ¬ (Window.init.run small ([.scrollChanged ⟨60, 0, 20, 15⟩] ++
      .scrollChanged ⟨10, 0, 20, 15⟩ :: [.syncScroll])).Shows small ⟨10, 0, 20, 15⟩ := by
  decide +kernel

end Window

end Limbo.Vnc
