import Mathlib

/-!
# Where the pointer is

Touches and the trackball move the pointer to a point that is clamped to the frame. When the view
scrolls away from the pointer, it is warped to the middle of the view; this point is not clamped,
and neither is the pointer when the server changes the size of the frame. `panToMouse` avoids the
warp: it scrolls the view so far that the pointer is in it.
-/

namespace Limbo.Vnc

/-! ### `VncCanvas` -/

/-- What the view and its settings are when an event arrives. -/
structure View where
  visibleWidth : ℤ
  visibleHeight : ℤ
  imageWidth : ℤ
  imageHeight : ℤ
  /-- `connection.getFollowMouse()`. -/
  followMouse : Bool
  /-- `scaling.isAbleToPan()`. -/
  ableToPan : Bool
  /-- The position that `scrollToAbsolute` scrolls the view to is another one. -/
  moves : Bool
deriving DecidableEq, Repr

/-- A pointer event, with the size of the frame when it was sent. -/
structure Sent where
  x : ℤ
  y : ℤ
  modifiers : ℤ
  pointerMask : ℤ
  framebufferWidth : ℤ
  framebufferHeight : ℤ
deriving DecidableEq, Repr

inductive MotionAction where
  | down
  | move
  | up
  | other
deriving DecidableEq, Repr

structure Pointer where
  framebufferWidth : ℤ
  framebufferHeight : ℤ
  inNormalProtocol : Bool
  mouseX : ℤ
  mouseY : ℤ
  pointerMask : ℤ
  absoluteXPosition : ℤ
  absoluteYPosition : ℤ
  sent : List Sent
deriving DecidableEq, Repr

namespace Pointer

/-- A canvas that has just connected, over a frame of this size. -/
def init (framebufferWidth framebufferHeight : ℤ) : Pointer :=
  ⟨framebufferWidth, framebufferHeight, true, framebufferWidth.tdiv 2, framebufferHeight.tdiv 2, 0,
    0, 0, []⟩

/-- `rfb.writePointerEvent(x, y, modifiers, pointerMask)`. -/
def writePointerEvent (x y modifiers pointerMask : ℤ) (s : Pointer) : Pointer :=
  { s with sent := s.sent ++
      [⟨x, y, modifiers, pointerMask, s.framebufferWidth, s.framebufferHeight⟩] }

/-- `warpMouse(x, y)`. -/
def warpMouse (x y : ℤ) (s : Pointer) : Pointer :=
  { s with
    mouseX := x
    mouseY := y }.writePointerEvent x y 0 0

/-- Where `mouseFollowPan` warps the pointer to, if it does. -/
def followTarget (v : View) (s : Pointer) : Option (ℤ × ℤ) :=
  let scrollx := s.absoluteXPosition
  let scrolly := s.absoluteYPosition
  if v.ableToPan ∧ (s.mouseX < scrollx ∨ s.mouseX ≥ scrollx + v.visibleWidth ∨
      s.mouseY < scrolly ∨ s.mouseY ≥ scrolly + v.visibleHeight) then
    some (scrollx + v.visibleWidth.tdiv 2, scrolly + v.visibleHeight.tdiv 2)
  else none

/-- `mouseFollowPan()`. -/
def mouseFollowPan (v : View) (s : Pointer) : Pointer :=
  match s.followTarget v with
  | some p => s.warpMouse p.1 p.2
  | none => s

/-- The new position of the view on one axis in `panToMouse`. -/
def panned (mouse position visible image : ℤ) : ℤ :=
  if mouse - position ≥ visible - 5 then
    let new := mouse - visible + 5
    if new + visible > image then image - visible else new
  else if mouse < position + 5 then
    let new := mouse - 5
    if new < 0 then 0 else new
  else position

/-- `panToMouse()`, before it scrolls the view. -/
def pan (v : View) (s : Pointer) : Pointer :=
  if v.followMouse ∧ v.ableToPan then
    { s with
      absoluteXPosition := panned s.mouseX s.absoluteXPosition v.visibleWidth v.imageWidth
      absoluteYPosition := panned s.mouseY s.absoluteYPosition v.visibleHeight v.imageHeight }
  else s

/-- `panToMouse()`. -/
def panToMouse (v : View) (s : Pointer) : Pointer :=
  let t := s.pan v
  if (t.absoluteXPosition ≠ s.absoluteXPosition ∨ t.absoluteYPosition ≠ s.absoluteYPosition) ∧
      v.moves then
    t.mouseFollowPan v
  else t

/-- A coordinate of the pointer, clamped to the frame. -/
def clamp (mouse framebuffer : ℤ) : ℤ :=
  if mouse < 0 then 0 else if mouse ≥ framebuffer then framebuffer - 1 else mouse

/-- `processPointerEvent`, up to `panToMouse`. -/
def touch (x y : ℤ) (action : MotionAction) (modifiers : ℤ) (mouseIsDown useRightButton : Bool)
    (s : Pointer) : Pointer :=
  let pointerMask :=
    if action = .down ∨ (mouseIsDown ∧ action = .move) then if useRightButton then 4 else 1
    else if action = .up then 0
    else s.pointerMask
  let mouseX := clamp x s.framebufferWidth
  let mouseY := clamp y s.framebufferHeight
  { s with
    pointerMask := pointerMask
    mouseX := mouseX
    mouseY := mouseY }.writePointerEvent mouseX mouseY modifiers pointerMask

/-- `processPointerEvent(x, y, action, modifiers, mouseIsDown, useRightButton)`. -/
def processPointerEvent (v : View) (x y : ℤ) (action : MotionAction) (modifiers : ℤ)
    (mouseIsDown useRightButton : Bool) (s : Pointer) : Pointer :=
  if s.inNormalProtocol then
    (s.touch x y action modifiers mouseIsDown useRightButton).panToMouse v
  else s

/-- What happens on the canvas. -/
inductive Event where
  /-- A touch or the trackball. -/
  | pointer (v : View) (x y : ℤ) (action : MotionAction) (modifiers : ℤ)
      (mouseIsDown useRightButton : Bool)
  | warpMouse (x y : ℤ)
  /-- `onScrollChanged`, once the view has been panned to a position. -/
  | scroll (v : View) (absoluteXPosition absoluteYPosition : ℤ)
  /-- A pointer event at the remembered position: the scroll runnable and the volume keys. -/
  | wheel (modifiers pointerMask : ℤ)
  /-- The server changes the size of the frame. -/
  | newFBSize (width height : ℕ)
deriving DecidableEq, Repr

def step (s : Pointer) : Event → Pointer
  | .pointer v x y action modifiers mouseIsDown useRightButton =>
    s.processPointerEvent v x y action modifiers mouseIsDown useRightButton
  | .warpMouse x y => s.warpMouse x y
  | .scroll v x y => { s with
      absoluteXPosition := x
      absoluteYPosition := y }.mouseFollowPan v
  | .wheel modifiers pointerMask => s.writePointerEvent s.mouseX s.mouseY modifiers pointerMask
  | .newFBSize width height => { s with
      framebufferWidth := width
      framebufferHeight := height }

/-- One event after the other. -/
def run (s : Pointer) (events : List Event) : Pointer := events.foldl step s

/-! ### Inside the frame -/

/-- A point lies inside a frame of this size. -/
def InFrame (x y framebufferWidth framebufferHeight : ℤ) : Prop :=
  (0 ≤ x ∧ x < framebufferWidth) ∧ 0 ≤ y ∧ y < framebufferHeight

instance (x y w h : ℤ) : Decidable (InFrame x y w h) := inferInstanceAs (Decidable (_ ∧ _))

/-- The pointer is inside the frame, and every event was sent for a point inside the frame of its
time. -/
structure Confined (s : Pointer) : Prop where
  mouse : InFrame s.mouseX s.mouseY s.framebufferWidth s.framebufferHeight
  sent : ∀ e ∈ s.sent, InFrame e.x e.y e.framebufferWidth e.framebufferHeight

/-- If the pointer is warped to the middle of the view, this is a point of the frame. -/
def FollowsInFrame (v : View) (s : Pointer) : Prop :=
  ∀ p ∈ s.followTarget v, InFrame p.1 p.2 s.framebufferWidth s.framebufferHeight

instance (v : View) (s : Pointer) : Decidable (s.FollowsInFrame v) :=
  inferInstanceAs (Decidable (∀ p ∈ s.followTarget v, _))

/-- An event warps the pointer to points of the frame only, and does not take the frame away from
under it. -/
def Kept (s : Pointer) : Event → Prop
  | .pointer v x y action modifiers mouseIsDown useRightButton =>
    ((s.touch x y action modifiers mouseIsDown useRightButton).pan v).FollowsInFrame v
  | .warpMouse x y => InFrame x y s.framebufferWidth s.framebufferHeight
  | .scroll v x y => { s with
      absoluteXPosition := x
      absoluteYPosition := y }.FollowsInFrame v
  | .wheel _ _ => True
  | .newFBSize width height => InFrame s.mouseX s.mouseY width height

instance (s : Pointer) : (e : Event) → Decidable (s.Kept e)
  | .pointer v _ _ _ _ _ _ => inferInstanceAs (Decidable (FollowsInFrame v _))
  | .warpMouse _ _ => inferInstanceAs (Decidable (InFrame _ _ _ _))
  | .scroll v _ _ => inferInstanceAs (Decidable (FollowsInFrame v _))
  | .wheel _ _ => .isTrue trivial
  | .newFBSize _ _ => inferInstanceAs (Decidable (InFrame _ _ _ _))

/-- Every event of a run is kept. -/
def AllKept : Pointer → List Event → Prop
  | _, [] => True
  | s, e :: events => s.Kept e ∧ AllKept (s.step e) events

instance AllKept.decidable : (s : Pointer) → (events : List Event) → Decidable (AllKept s events)
  | _, [] => .isTrue trivial
  | s, e :: events =>
    have := AllKept.decidable (s.step e) events
    inferInstanceAs (Decidable (_ ∧ _))

variable {s : Pointer}

lemma clamp_inRange {mouse framebuffer : ℤ} (h : 0 < framebuffer) :
    0 ≤ clamp mouse framebuffer ∧ clamp mouse framebuffer < framebuffer := by
  unfold clamp
  split_ifs <;> omega

lemma Confined.writePointerEvent (h : Confined s) {x y modifiers pointerMask : ℤ}
    (hp : InFrame x y s.framebufferWidth s.framebufferHeight) :
    Confined (s.writePointerEvent x y modifiers pointerMask) := by
  refine ⟨h.mouse, fun e he => ?_⟩
  rcases List.mem_append.mp he with he | he
  · exact h.sent e he
  · rw [List.mem_singleton.mp he]
    exact hp

/-- The pointer moves to a point of the frame. -/
lemma Confined.move (h : Confined s) {x y : ℤ}
    (hp : InFrame x y s.framebufferWidth s.framebufferHeight) (pointerMask : ℤ) :
    Confined { s with
      pointerMask := pointerMask
      mouseX := x
      mouseY := y } := ⟨hp, h.sent⟩

lemma Confined.warpMouse (h : Confined s) {x y : ℤ}
    (hp : InFrame x y s.framebufferWidth s.framebufferHeight) : Confined (s.warpMouse x y) :=
  (h.move hp s.pointerMask).writePointerEvent hp

lemma Confined.mouseFollowPan (h : Confined s) {v : View} (hv : s.FollowsInFrame v) :
    Confined (s.mouseFollowPan v) := by
  unfold Pointer.mouseFollowPan
  split
  next p hp => exact h.warpMouse (hv p hp)
  next => exact h

lemma Confined.pan (h : Confined s) (v : View) : Confined (s.pan v) := by
  unfold Pointer.pan
  split_ifs
  · exact ⟨h.mouse, h.sent⟩
  · exact h

lemma Confined.panToMouse (h : Confined s) {v : View} (hv : (s.pan v).FollowsInFrame v) :
    Confined (s.panToMouse v) := by
  simp only [Pointer.panToMouse]
  split_ifs
  · exact (h.pan v).mouseFollowPan hv
  · exact h.pan v

/-- Wherever a touch is, the pointer moves to a point of the frame. -/
lemma Confined.touch (h : Confined s) (x y : ℤ) (action : MotionAction) (modifiers : ℤ)
    (mouseIsDown useRightButton : Bool) :
    Confined (s.touch x y action modifiers mouseIsDown useRightButton) := by
  have hframe := h.mouse
  have hp : InFrame (clamp x s.framebufferWidth) (clamp y s.framebufferHeight) s.framebufferWidth
      s.framebufferHeight :=
    ⟨clamp_inRange (hframe.1.1.trans_lt hframe.1.2), clamp_inRange (hframe.2.1.trans_lt hframe.2.2)⟩
  exact (h.move hp _).writePointerEvent hp

lemma Confined.step (h : Confined s) {e : Event} (he : s.Kept e) : Confined (s.step e) := by
  cases e with
  | pointer v x y action modifiers mouseIsDown useRightButton =>
    simp only [Pointer.step, processPointerEvent]
    split_ifs
    · exact (h.touch x y action modifiers mouseIsDown useRightButton).panToMouse he
    · exact h
  | warpMouse x y => exact h.warpMouse he
  | scroll v x y =>
    have hpan : Confined { s with
        absoluteXPosition := x
        absoluteYPosition := y } := ⟨h.mouse, h.sent⟩
    exact hpan.mouseFollowPan he
  | wheel modifiers pointerMask => exact h.writePointerEvent h.mouse
  | newFBSize width height => exact ⟨he, h.sent⟩

/-- In a run that starts over a frame with a point and whose events are all kept, every pointer
event is sent for a point of the frame, and the pointer stays inside it. -/
theorem confined_run (framebufferWidth framebufferHeight : ℤ) (events : List Event)
    (hwidth : 0 < framebufferWidth) (hheight : 0 < framebufferHeight)
    (hkept : AllKept (init framebufferWidth framebufferHeight) events) :
    Confined ((init framebufferWidth framebufferHeight).run events) := by
  have hrun (events : List Event) (s : Pointer) (h : Confined s) (hkept : AllKept s events) :
      Confined (s.run events) := by
    induction events generalizing s with
    | nil => exact h
    | cons e events ih => exact ih (s.step e) (h.step hkept.1) hkept.2
  refine hrun events _ ⟨?_, by simp [init]⟩ hkept
  simp only [init, InFrame]
  rw [Int.tdiv_eq_ediv_of_nonneg hwidth.le, Int.tdiv_eq_ediv_of_nonneg hheight.le]
  omega

/-- A view of 400 by 300 over a frame of 800 by 600. -/
def smallView : View := ⟨400, 300, 800, 600, true, true, true⟩

/-- A touch outside the frame, a scroll to its right side, and a larger frame. -/
theorem confined_run_touch : Confined ((init 800 600).run
    [.pointer smallView 900 20 .down 0 true false, .scroll smallView 300 100, .wheel 0 16,
      .newFBSize 1024 768]) :=
  confined_run 800 600 _ (by decide) (by decide) (by decide)

/-- A frame that becomes smaller than the position of the pointer. -/
theorem not_confined_newFBSize :
    ¬ Confined ((init 800 600).run [.pointer smallView 700 500 .down 0 true false,
      .newFBSize 640 480, .wheel 0 16]) := by
  intro h
  exact absurd h.mouse (by decide)

/-! ### In the view -/

/-- The view lies inside the image, and the point in the view. -/
structure InView (v : View) (x y : ℤ) (s : Pointer) : Prop where
  left : 0 ≤ s.absoluteXPosition
  right : s.absoluteXPosition ≤ v.imageWidth - v.visibleWidth
  top : 0 ≤ s.absoluteYPosition
  bottom : s.absoluteYPosition ≤ v.imageHeight - v.visibleHeight
  column : s.absoluteXPosition ≤ x ∧ x < s.absoluteXPosition + v.visibleWidth
  row : s.absoluteYPosition ≤ y ∧ y < s.absoluteYPosition + v.visibleHeight

/-- On one axis the view stays inside the image, and the pointer comes into it. -/
lemma panned_inView {mouse position visible image : ℤ} (hvisible : 5 < visible)
    (hposition : 0 ≤ position ∧ position ≤ image - visible) (hmouse : 0 ≤ mouse ∧ mouse < image) :
    (0 ≤ panned mouse position visible image ∧
      panned mouse position visible image ≤ image - visible) ∧
      panned mouse position visible image ≤ mouse ∧
        mouse < panned mouse position visible image + visible := by
  simp only [panned]
  split_ifs <;> omega

/-- Nothing is scrolled away from the pointer, so it is not warped. -/
lemma followTarget_of_inView {v : View} {s : Pointer} (h : InView v s.mouseX s.mouseY s) :
    s.followTarget v = none := by
  have hcolumn := h.column
  have hrow := h.row
  rw [followTarget, if_neg]
  omega

/-- If the view follows the pointer and can be panned, and is larger than the margin that it keeps
to the pointer, `panToMouse` brings the pointer into view and leaves it where it is. -/
theorem panToMouse_inView (v : View) (s : Pointer) (hfollow : v.followMouse) (hpan : v.ableToPan)
    (hwidth : 5 < v.visibleWidth) (hheight : 5 < v.visibleHeight)
    (hx : 0 ≤ s.absoluteXPosition ∧ s.absoluteXPosition ≤ v.imageWidth - v.visibleWidth)
    (hy : 0 ≤ s.absoluteYPosition ∧ s.absoluteYPosition ≤ v.imageHeight - v.visibleHeight)
    (hmouse : InFrame s.mouseX s.mouseY v.imageWidth v.imageHeight) :
    InView v s.mouseX s.mouseY (s.panToMouse v) ∧ (s.panToMouse v).mouseX = s.mouseX ∧
      (s.panToMouse v).mouseY = s.mouseY := by
  obtain ⟨⟨hleft, hright⟩, hcolumn⟩ := panned_inView hwidth hx hmouse.1
  obtain ⟨⟨htop, hbottom⟩, hrow⟩ := panned_inView hheight hy hmouse.2
  have hview : InView v s.mouseX s.mouseY (s.pan v) := by
    rw [pan, if_pos ⟨hfollow, hpan⟩]
    exact ⟨hleft, hright, htop, hbottom, hcolumn, hrow⟩
  have hstays : (s.pan v).mouseX = s.mouseX ∧ (s.pan v).mouseY = s.mouseY := by
    rw [pan, if_pos ⟨hfollow, hpan⟩]
    exact ⟨rfl, rfl⟩
  have hwarp : (s.pan v).followTarget v = none := by
    apply followTarget_of_inView
    rw [hstays.1, hstays.2]
    exact hview
  have hpanned : s.panToMouse v = s.pan v := by
    simp only [panToMouse, mouseFollowPan, hwarp, ite_self]
  rw [hpanned]
  exact ⟨hview, hstays⟩

/-- The pointer at the lower right of the frame, where the view ends at its border. -/
theorem panToMouse_inView_corner :
    InView smallView 798 599 (Pointer.panToMouse smallView
        ⟨800, 600, true, 798, 599, 0, 20, 30, []⟩) ∧
      (Pointer.panToMouse smallView ⟨800, 600, true, 798, 599, 0, 20, 30, []⟩).mouseX = 798 ∧
      (Pointer.panToMouse smallView ⟨800, 600, true, 798, 599, 0, 20, 30, []⟩).mouseY = 599 :=
  panToMouse_inView smallView ⟨800, 600, true, 798, 599, 0, 20, 30, []⟩ rfl rfl (by decide)
    (by decide) (by decide) (by decide) (by decide)

/-- A view that does not follow the pointer stays where it is; and one that is as large as the
margin is scrolled to beside the pointer. -/
theorem not_panToMouse_inView :
    ¬ InView ⟨400, 300, 800, 600, false, true, true⟩ 798 599 (Pointer.panToMouse
        ⟨400, 300, 800, 600, false, true, true⟩ ⟨800, 600, true, 798, 599, 0, 20, 30, []⟩) ∧
      ¬ InView ⟨5, 300, 800, 600, true, true, true⟩ 40 100 (Pointer.panToMouse
        ⟨5, 300, 800, 600, true, true, true⟩ ⟨800, 600, true, 40, 100, 0, 60, 30, []⟩) := by
  refine ⟨fun h => ?_, fun h => ?_⟩
  · exact absurd h.column (by decide)
  · exact absurd h.column (by decide)

end Pointer

end Limbo.Vnc
