import Limbo.Drawing.Overlap

/-!
# Copying a rectangle onto one that it overlaps

`OverlappingCopy.Copy` moves a rectangle of a bitmap within the bitmap. `Canvas.drawBitmap` may not
be used on a source and a destination that overlap, so the rectangle is copied in steps. They are
planned as if the destination lay to the lower right: a negative delta turns the coordinates around.
-/

namespace Limbo.Drawing

variable {β : Type*}

/-! ### The code -/

/-- `android.graphics.Bitmap` -/
structure Bitmap (β : Type*) where
  width : ℤ
  height : ℤ
  pixels : ℤ × ℤ → β

namespace Rect

/-- `Rect.offset(dx, dy)`, as a new rectangle. -/
def offset (r : Rect) (dx dy : ℤ) : Rect := ⟨r.left + dx, r.top + dy, r.right + dx, r.bottom + dy⟩

/-- The rectangle lies in a bitmap. -/
def Within (r : Rect) (b : Bitmap β) : Prop :=
  0 ≤ r.left ∧ 0 ≤ r.top ∧ r.right ≤ b.width ∧ r.bottom ≤ b.height

instance (r : Rect) (b : Bitmap β) : Decidable (r.Within b) :=
  inferInstanceAs (Decidable (_ ∧ _))

instance (r : Rect) (q : ℤ × ℤ) : Decidable (q ∈ r.cells) :=
  decidable_of_iff _ mem_cells.symm

end Rect

/-- `drawBitmap(data, source, source.offset(dx, dy), paint)` on a canvas over the same bitmap. What
it does to a source that overlaps its destination, or to one outside the bitmap, is not specified:
`none`. -/
def drawBitmap (b : Bitmap β) (source : Rect) (dx dy : ℤ) : Option (Bitmap β) :=
  let dest := source.offset dx dy
  if ¬ source.Nonempty then some b
  else if source.Within b ∧ dest.Within b ∧ source.intersect dest = none then
    some { b with
      pixels := fun q => if q ∈ dest.cells then b.pixels (q.1 - dx, q.2 - dy) else b.pixels q }
  else none

namespace OverlappingCopy

/-- `transformRect` -/
def transformRect (source : Rect) (deltaX deltaY : ℤ) : Rect where
  left := if deltaX < 0 then source.right * -1 else source.left
  top := if deltaY < 0 then source.bottom * -1 else source.top
  right := if deltaX < 0 then source.left * -1 else source.right
  bottom := if deltaY < 0 then source.top * -1 else source.bottom

/-- `copyTransformedRect` -/
def copyTransformedRect (stepSourceRect : Rect) (deltaX deltaY : ℤ) (b : Bitmap β) :
    Option (Bitmap β) :=
  drawBitmap b (transformRect stepSourceRect deltaX deltaY) deltaX deltaY

/-- The inner loop, from its `yStep`-th round on. -/
def yLoop (intersect : Rect) (deltaX deltaY yStepHeight stepLeft stepRight : ℤ) :
    ℕ → ℤ → Bitmap β → Option (Bitmap β)
  | 0, _, _ => none
  | fuel + 1, yStep, b =>
    let stepBottom := intersect.bottom - yStep * yStepHeight
    let yStepDone := stepBottom - yStepHeight ≤ intersect.top
    let stepTop := if yStepDone then intersect.top else stepBottom - yStepHeight
    (copyTransformedRect ⟨stepLeft, stepTop, stepRight, stepBottom⟩ deltaX deltaY b).bind fun b =>
      if yStepDone then some b
      else yLoop intersect deltaX deltaY yStepHeight stepLeft stepRight fuel (yStep + 1) b

/-- The outer loop, from its `xStep`-th round on. -/
def xLoop (intersect : Rect) (deltaX deltaY xStepWidth yStepHeight : ℤ) (yFuel : ℕ) :
    ℕ → ℤ → Bitmap β → Option (Bitmap β)
  | 0, _, _ => none
  | fuel + 1, xStep, b =>
    let stepRight := intersect.right - xStep * xStepWidth
    let xStepDone := stepRight - xStepWidth ≤ intersect.left
    let stepLeft := if xStepDone then intersect.left else stepRight - xStepWidth
    (yLoop intersect deltaX deltaY yStepHeight stepLeft stepRight yFuel 0 b).bind fun b =>
      if xStepDone then some b
      else xLoop intersect deltaX deltaY xStepWidth yStepHeight yFuel fuel (xStep + 1) b

/-- `Copy`. The loops give up when the fuel is used up. -/
def copy (fuel : ℕ) (source : Rect) (destX destY : ℤ) (b : Bitmap β) : Option (Bitmap β) :=
  let deltaX := destX - source.left
  let deltaY := destY - source.top
  let absDeltaX := if deltaX < 0 then -deltaX else deltaX
  let absDeltaY := if deltaY < 0 then -deltaY else deltaY
  if absDeltaX = 0 ∧ absDeltaY = 0 then some b
  else if absDeltaX ≥ source.right - source.left ∨ absDeltaY ≥ source.bottom - source.top then
    drawBitmap b source deltaX deltaY
  else
    let transformedSource := transformRect source deltaX deltaY
    let transformedDest := transformedSource.offset absDeltaX absDeltaY
    let intersect := (transformedSource.intersect transformedDest).getD ⟨0, 0, 0, 0⟩
    let xStepWidth :=
      if absDeltaX > absDeltaY then absDeltaX else source.right - source.left - absDeltaX
    let yStepHeight :=
      if absDeltaX > absDeltaY then source.bottom - source.top - absDeltaY else absDeltaY
    (xLoop intersect deltaX deltaY xStepWidth yStepHeight fuel fuel 0 b).bind fun b =>
    (if absDeltaX > 0 then
      copyTransformedRect ⟨transformedSource.left, transformedSource.top, intersect.left,
        transformedSource.bottom⟩ deltaX deltaY b
    else some b).bind fun b =>
    if absDeltaY > 0 then
      copyTransformedRect ⟨intersect.left, transformedSource.top, transformedSource.right,
        intersect.top⟩ deltaX deltaY b
    else some b

/-! ### Steps -/

/-- A coordinate, turned around if the delta is negative. -/
def turn (delta x : ℤ) : ℤ := if delta < 0 then -1 - x else x

lemma mem_transformRect {r : Rect} {deltaX deltaY : ℤ} {q : ℤ × ℤ} :
    q ∈ (transformRect r deltaX deltaY).cells ↔ (turn deltaX q.1, turn deltaY q.2) ∈ r.cells := by
  simp only [Rect.mem_cells, transformRect, turn]
  split_ifs <;> omega

lemma turn_sub (delta x : ℤ) : turn delta (x - delta) = turn delta x - |delta| := by
  simp only [turn]
  split_ifs with h
  · rw [abs_of_neg h]
    ring
  · rw [abs_of_nonneg (not_lt.mp h)]

lemma transformRect_width (r : Rect) (deltaX deltaY : ℤ) :
    (transformRect r deltaX deltaY).right - (transformRect r deltaX deltaY).left =
      r.right - r.left := by
  simp only [transformRect]
  split_ifs <;> omega

lemma transformRect_height (r : Rect) (deltaX deltaY : ℤ) :
    (transformRect r deltaX deltaY).bottom - (transformRect r deltaX deltaY).top =
      r.bottom - r.top := by
  simp only [transformRect]
  split_ifs <;> omega

lemma transformRect_transformRect (r : Rect) (deltaX deltaY : ℤ) :
    transformRect (transformRect r deltaX deltaY) deltaX deltaY = r := by
  obtain ⟨left, top, right, bottom⟩ := r
  simp only [transformRect, Rect.mk.injEq]
  split_ifs <;> simp

lemma abs_eq_ite (x : ℤ) : (if x < 0 then -x else x) = |x| := by
  split_ifs with h
  · exact (abs_of_neg h).symm
  · exact (abs_of_nonneg (not_lt.mp h)).symm

/-- The cells of `done`, in turned coordinates, have been copied, and nothing else has changed. -/
def Copied (deltaX deltaY : ℤ) (done : Set (ℤ × ℤ)) (b b' : Bitmap β) : Prop :=
  (b'.width = b.width ∧ b'.height = b.height) ∧
    ∀ q : ℤ × ℤ, ((turn deltaX q.1 - |deltaX|, turn deltaY q.2 - |deltaY|) ∈ done →
      b'.pixels q = b.pixels (q.1 - deltaX, q.2 - deltaY)) ∧
      ((turn deltaX q.1 - |deltaX|, turn deltaY q.2 - |deltaY|) ∉ done → b'.pixels q = b.pixels q)

variable {deltaX deltaY : ℤ} {done : Set (ℤ × ℤ)} {b b' : Bitmap β}

lemma Copied.congr (h : Copied deltaX deltaY done b b') {done' : Set (ℤ × ℤ)}
    (hdone : ∀ q, q ∈ done' ↔ q ∈ done) : Copied deltaX deltaY done' b b' := by
  rwa [Set.ext hdone]

/-- A source lies beside its destination if it is moved by its width or its height. -/
lemma intersect_offset_eq_none {r : Rect} {dx dy : ℤ}
    (h : r.right - r.left ≤ |dx| ∨ r.bottom - r.top ≤ |dy|) :
    r.intersect (r.offset dx dy) = none := by
  rw [Rect.intersect, if_neg]
  simp only [Rect.offset]
  rintro ⟨hleft, hright, htop, hbottom⟩
  rcases h with h | h
  · rcases abs_cases dx with ⟨habs, -⟩ | ⟨habs, -⟩ <;> omega
  · rcases abs_cases dy with ⟨habs, -⟩ | ⟨habs, -⟩ <;> omega

lemma drawBitmap_of_beside {r : Rect} {dx dy : ℤ} (hr : r.Nonempty) (hsource : r.Within b)
    (hdest : (r.offset dx dy).Within b) (hbeside : r.intersect (r.offset dx dy) = none) :
    drawBitmap b r dx dy = some { b with
      pixels := fun q =>
        if q ∈ (r.offset dx dy).cells then b.pixels (q.1 - dx, q.2 - dy) else b.pixels q } := by
  rw [drawBitmap, if_neg (not_not.mpr hr), if_pos ⟨hsource, hdest, hbeside⟩]

/-- One step: it does not overlap its destination, and none of its cells has been written to. -/
lemma Copied.draw (h : Copied deltaX deltaY done b b') (step : Rect)
    (hin : step.Nonempty → (transformRect step deltaX deltaY).Within b ∧
      ((transformRect step deltaX deltaY).offset deltaX deltaY).Within b)
    (hbeside : step.right - step.left ≤ |deltaX| ∨ step.bottom - step.top ≤ |deltaY|)
    (hfresh : ∀ q ∈ step.cells, (q.1 - |deltaX|, q.2 - |deltaY|) ∉ done) :
    ∃ b'', copyTransformedRect step deltaX deltaY b' = some b'' ∧
      Copied deltaX deltaY (done ∪ step.cells) b b'' := by
  have hwidth := transformRect_width step deltaX deltaY
  have hheight := transformRect_height step deltaX deltaY
  by_cases hstep : step.Nonempty
  case neg =>
    have hempty : ¬ (transformRect step deltaX deltaY).Nonempty := by
      simp only [Rect.Nonempty] at hstep ⊢
      omega
    refine ⟨b', ?_, h.congr fun q => ?_⟩
    · rw [copyTransformedRect, drawBitmap, if_pos hempty]
    · simp only [Set.mem_union, Rect.mem_cells, Rect.Nonempty] at hstep ⊢
      constructor
      · rintro (hq | hq)
        · exact hq
        · omega
      · exact Or.inl
  case pos =>
    have hnonempty : (transformRect step deltaX deltaY).Nonempty := by
      simp only [Rect.Nonempty] at hstep ⊢
      omega
    obtain ⟨hsource, hdest⟩ := hin hstep
    obtain ⟨hsame, hpixels⟩ := h
    have hwithin : ∀ {r : Rect}, r.Within b → r.Within b' := by
      intro r hr
      simp only [Rect.Within] at hr ⊢
      omega
    have hbeside' := intersect_offset_eq_none (r := transformRect step deltaX deltaY)
      (by rwa [hwidth, hheight])
    refine ⟨_, drawBitmap_of_beside hnonempty (hwithin hsource) (hwithin hdest) hbeside',
      hsame, fun q => ?_⟩
    have hmem : q ∈ ((transformRect step deltaX deltaY).offset deltaX deltaY).cells ↔
        (turn deltaX q.1 - |deltaX|, turn deltaY q.2 - |deltaY|) ∈ step.cells := by
      rw [← turn_sub, ← turn_sub, ← mem_transformRect (q := (q.1 - deltaX, q.2 - deltaY))]
      simp only [Rect.mem_cells, Rect.offset]
      omega
    constructor
    · intro hdone
      by_cases hq : (turn deltaX q.1 - |deltaX|, turn deltaY q.2 - |deltaY|) ∈ step.cells
      · simp only [if_pos (hmem.mpr hq)]
        refine (hpixels _).2 ?_
        rw [turn_sub, turn_sub]
        exact hfresh _ hq
      · simp only [if_neg (hmem.not.mpr hq)]
        exact (hpixels q).1 (hdone.resolve_right hq)
    · intro hdone
      have hq := fun hq => hdone (Or.inr hq)
      simp only [if_neg (hmem.not.mpr hq)]
      exact (hpixels q).2 fun hq => hdone (Or.inl hq)

/-! ### The loops -/

/-- A rectangle has no sides outside another. -/
def Inside (r r' : Rect) : Prop :=
  r'.left ≤ r.left ∧ r'.top ≤ r.top ∧ r.right ≤ r'.right ∧ r.bottom ≤ r'.bottom

/-- A step and its destination may be drawn. -/
def Drawable (deltaX deltaY : ℤ) (b : Bitmap β) (step : Rect) : Prop :=
  (transformRect step deltaX deltaY).Within b ∧
    ((transformRect step deltaX deltaY).offset deltaX deltaY).Within b

lemma drawable_of_inside {source : Rect} (hsource : source.Within b)
    (hdest : (source.offset deltaX deltaY).Within b) (step : Rect)
    (hin : Inside step (transformRect source deltaX deltaY)) : Drawable deltaX deltaY b step := by
  simp only [Drawable, Inside, transformRect, Rect.Within, Rect.offset] at *
  split_ifs at * <;> omega

variable {I : Rect} {xStepWidth yStepHeight stepLeft stepRight : ℤ}

/-- The strip of the intersection between two columns, from a row on. -/
def strip (I : Rect) (stepLeft stepRight top : ℤ) : Set (ℤ × ℤ) :=
  {q | (stepLeft ≤ q.1 ∧ q.1 < stepRight) ∧ top ≤ q.2 ∧ q.2 < I.bottom}

/-- The inner loop copies a strip from the bottom up. What has been copied before lies to the right
of it. -/
lemma yLoop_copied (hheight : 0 < yStepHeight)
    (hbeside : stepRight - stepLeft ≤ |deltaX| ∨ yStepHeight ≤ |deltaY|)
    (hdraw : ∀ step, Inside step ⟨stepLeft, I.top, stepRight, I.bottom⟩ →
      Drawable deltaX deltaY b step)
    (hright : ∀ q ∈ done, stepRight ≤ q.1) {fuel : ℕ} {yStep : ℤ} (hstep : 0 ≤ yStep * yStepHeight)
    (hpos : 0 < I.bottom - yStep * yStepHeight - I.top)
    (hfuel : I.bottom - yStep * yStepHeight - I.top ≤ fuel)
    (h : Copied deltaX deltaY
      (done ∪ strip I stepLeft stepRight (I.bottom - yStep * yStepHeight)) b b') :
    ∃ b'', yLoop I deltaX deltaY yStepHeight stepLeft stepRight fuel yStep b' = some b'' ∧
      Copied deltaX deltaY (done ∪ strip I stepLeft stepRight I.top) b b'' := by
  induction fuel generalizing yStep b' with
  | zero =>
    rw [Nat.cast_zero] at hfuel
    omega
  | succ fuel ih =>
    have hnext : (yStep + 1) * yStepHeight = yStep * yStepHeight + yStepHeight := by ring
    have hdx := abs_nonneg deltaX
    have hdy := abs_nonneg deltaY
    rw [Nat.cast_succ] at hfuel
    simp only [yLoop]
    generalize hm : yStep * yStepHeight = m at *
    have hfresh : ∀ q : ℤ × ℤ, q.1 < stepRight → q.2 < I.bottom - m →
        (q.1 - |deltaX|, q.2 - |deltaY|) ∉ done ∪ strip I stepLeft stepRight (I.bottom - m) := by
      rintro q hq₁ hq₂ (hq | hq)
      · have := hright _ hq
        dsimp only at this
        omega
      · have := hq.2.1
        dsimp only at this
        omega
    by_cases hlast : I.bottom - m - yStepHeight ≤ I.top
    · rw [if_pos hlast]
      obtain ⟨b'', hdrawn, hcopied⟩ := h.draw ⟨stepLeft, I.top, stepRight, I.bottom - m⟩
        (fun _ => hdraw _ ⟨le_rfl, le_rfl, le_rfl, by dsimp only; omega⟩)
        (by dsimp only; omega) (fun q hq => hfresh q hq.1.2 hq.2.2)
      refine ⟨b'', by rw [hdrawn, Option.bind_some, if_pos hlast], hcopied.congr fun q => ?_⟩
      simp only [Set.mem_union, strip, Set.mem_ofPred_eq, Rect.mem_cells]
      by_cases hq : q ∈ done
      · simp [hq]
      · simp only [hq, false_or]
        omega
    · rw [if_neg hlast]
      obtain ⟨b'', hdrawn, hcopied⟩ := h.draw
        ⟨stepLeft, I.bottom - m - yStepHeight, stepRight, I.bottom - m⟩
        (fun _ => hdraw _ ⟨le_rfl, by dsimp only; omega, le_rfl, by dsimp only; omega⟩)
        (by dsimp only; omega) (fun q hq => hfresh q hq.1.2 hq.2.2)
      rw [hdrawn, Option.bind_some, if_neg hlast]
      apply ih (by omega) (by omega) (by omega)
      refine hcopied.congr fun q => ?_
      simp only [Set.mem_union, strip, Set.mem_ofPred_eq, Rect.mem_cells]
      by_cases hq : q ∈ done
      · simp [hq]
      · simp only [hq, false_or]
        omega

/-- The outer loop copies the intersection from the right to the left. -/
lemma xLoop_copied (hwidth : 0 < xStepWidth) (hheight : 0 < yStepHeight)
    (hbeside : xStepWidth ≤ |deltaX| ∨ yStepHeight ≤ |deltaY|)
    (hdraw : ∀ step, Inside step I → Drawable deltaX deltaY b step)
    (hI : I.top < I.bottom) {yFuel : ℕ} (hyFuel : I.bottom - I.top ≤ yFuel) {fuel : ℕ} {xStep : ℤ}
    (hstep : 0 ≤ xStep * xStepWidth) (hpos : 0 < I.right - xStep * xStepWidth - I.left)
    (hfuel : I.right - xStep * xStepWidth - I.left ≤ fuel)
    (h : Copied deltaX deltaY (strip I (I.right - xStep * xStepWidth) I.right I.top) b b') :
    ∃ b'', xLoop I deltaX deltaY xStepWidth yStepHeight yFuel fuel xStep b' = some b'' ∧
      Copied deltaX deltaY I.cells b b'' := by
  induction fuel generalizing xStep b' with
  | zero =>
    rw [Nat.cast_zero] at hfuel
    omega
  | succ fuel ih =>
    have hnext : (xStep + 1) * xStepWidth = xStep * xStepWidth + xStepWidth := by ring
    rw [Nat.cast_succ] at hfuel
    simp only [xLoop]
    generalize hm : xStep * xStepWidth = m at *
    -- one strip, whatever its left side is
    have hstrip : ∀ stepLeft, I.left ≤ stepLeft → I.right - m - stepLeft ≤ xStepWidth →
        ∃ b'', yLoop I deltaX deltaY yStepHeight stepLeft (I.right - m) yFuel 0 b' = some b'' ∧
          Copied deltaX deltaY (strip I (I.right - m) I.right I.top ∪
            strip I stepLeft (I.right - m) I.top) b b'' := by
      intro stepLeft hleft hstepWidth
      apply yLoop_copied hheight (by omega)
      · rintro step ⟨h₁, h₂, h₃, h₄⟩
        exact hdraw step ⟨by dsimp only at h₁; omega, h₂, by dsimp only at h₃; omega, h₄⟩
      · exact fun q hq => hq.1.1
      · rw [zero_mul]
      · rw [zero_mul]
        omega
      · rw [zero_mul]
        omega
      · refine h.congr fun q => ?_
        simp only [Set.mem_union, strip, Set.mem_ofPred_eq, zero_mul]
        omega
    by_cases hlast : I.right - m - xStepWidth ≤ I.left
    · rw [if_pos hlast]
      obtain ⟨b'', hrow, hcopied⟩ := hstrip I.left le_rfl (by omega)
      refine ⟨b'', by rw [hrow, Option.bind_some, if_pos hlast], hcopied.congr fun q => ?_⟩
      simp only [Set.mem_union, strip, Set.mem_ofPred_eq, Rect.mem_cells]
      omega
    · rw [if_neg hlast]
      obtain ⟨b'', hrow, hcopied⟩ := hstrip (I.right - m - xStepWidth) (by omega) (by omega)
      rw [hrow, Option.bind_some, if_neg hlast]
      apply ih (by omega) (by omega) (by omega)
      refine hcopied.congr fun q => ?_
      simp only [Set.mem_union, strip, Set.mem_ofPred_eq]
      omega

/-! ### The copy -/

/-- Each cell of the destination has the value of its source, and the others are as they were. -/
def Moves (source : Rect) (destX destY : ℤ) (b b' : Bitmap β) : Prop :=
  (b'.width = b.width ∧ b'.height = b.height) ∧
    ∀ q : ℤ × ℤ, b'.pixels q =
      if q ∈ (source.offset (destX - source.left) (destY - source.top)).cells then
        b.pixels (q.1 - (destX - source.left), q.2 - (destY - source.top))
      else b.pixels q

lemma moves_of_copied {source : Rect} {destX destY : ℤ}
    (h : Copied (destX - source.left) (destY - source.top)
      (transformRect source (destX - source.left) (destY - source.top)).cells b b') :
    Moves source destX destY b b' := by
  refine ⟨h.1, fun q => ?_⟩
  generalize destX - source.left = deltaX at *
  generalize destY - source.top = deltaY at *
  have hmem : q ∈ (source.offset deltaX deltaY).cells ↔
      (turn deltaX q.1 - |deltaX|, turn deltaY q.2 - |deltaY|) ∈
        (transformRect source deltaX deltaY).cells := by
    rw [mem_transformRect, ← turn_sub, ← turn_sub]
    simp only [Rect.mem_cells, Rect.offset, turn]
    split_ifs <;> omega
  split_ifs with hq
  · exact (h.2 q).1 (hmem.mp hq)
  · exact (h.2 q).2 (hmem.not.mp hq)

/-- The copy when source and destination overlap. -/
lemma copy_overlapping {source : Rect} {destX destY : ℤ} (hsource : source.Within b)
    (hdest : (source.offset (destX - source.left) (destY - source.top)).Within b)
    (hmoved : ¬ (destX - source.left = 0 ∧ destY - source.top = 0))
    (hx : |destX - source.left| < source.right - source.left)
    (hy : |destY - source.top| < source.bottom - source.top) {fuel : ℕ}
    (hfuel : source.right - source.left ≤ fuel ∧ source.bottom - source.top ≤ fuel) :
    ∃ b', copy fuel source destX destY b = some b' ∧
      Copied (destX - source.left) (destY - source.top)
        (transformRect source (destX - source.left) (destY - source.top)).cells b b' := by
  have hdraw := drawable_of_inside hsource hdest
  simp only [copy]
  generalize destX - source.left = deltaX at *
  generalize destY - source.top = deltaY at *
  have hzero : ¬ (|deltaX| = 0 ∧ |deltaY| = 0) := by
    rwa [abs_eq_zero, abs_eq_zero]
  have hTwidth := transformRect_width source deltaX deltaY
  have hTheight := transformRect_height source deltaX deltaY
  have hax := abs_nonneg deltaX
  have hay := abs_nonneg deltaY
  simp only [abs_eq_ite]
  rw [if_neg hzero, if_neg (by omega)]
  generalize hTdef : transformRect source deltaX deltaY = T at *
  generalize hX : |deltaX| = ax at *
  generalize hY : |deltaY| = ay at *
  have hI : (T.intersect (T.offset ax ay)).getD ⟨0, 0, 0, 0⟩ =
      ⟨T.left + ax, T.top + ay, T.right, T.bottom⟩ := by
    rw [Rect.intersect, if_pos (by simp only [Rect.offset]; omega)]
    simp only [Option.getD_some, Rect.offset, Rect.mk.injEq]
    omega
  rw [hI]
  obtain ⟨b₁, hrun₁, h₁⟩ : ∃ b₁, xLoop ⟨T.left + ax, T.top + ay, T.right, T.bottom⟩ deltaX deltaY
      (if ax > ay then ax else source.right - source.left - ax)
      (if ax > ay then source.bottom - source.top - ay else ay) fuel fuel 0 b = some b₁ ∧
      Copied deltaX deltaY (Rect.cells ⟨T.left + ax, T.top + ay, T.right, T.bottom⟩) b b₁ := by
    apply xLoop_copied
    case hwidth | hheight => split_ifs <;> omega
    case hbeside =>
      rw [hX, hY]
      split_ifs <;> omega
    case hdraw =>
      rintro step ⟨h₁, h₂, h₃, h₄⟩
      dsimp only at h₁ h₂ h₃ h₄
      exact hdraw step ⟨by omega, by omega, h₃, h₄⟩
    case hI | hyFuel =>
      dsimp only
      omega
    case hstep => rw [zero_mul]
    case hpos | hfuel =>
      rw [zero_mul]
      dsimp only
      omega
    case h =>
      refine ⟨⟨rfl, rfl⟩, fun q => ⟨fun hq => ?_, fun _ => rfl⟩⟩
      rw [zero_mul, strip, Set.mem_ofPred_eq] at hq
      dsimp only at hq
      omega
  rw [hrun₁, Option.bind_some]
  -- the left edge, and then what is left of the top
  obtain ⟨b₂, hrun₂, h₂⟩ : ∃ b₂, (if ax > 0 then
      copyTransformedRect ⟨T.left, T.top, T.left + ax, T.bottom⟩ deltaX deltaY b₁
      else some b₁) = some b₂ ∧
      Copied deltaX deltaY {q | q ∈ T.cells ∧ (q.1 < T.left + ax ∨ T.top + ay ≤ q.2)} b b₂ := by
    by_cases hpos : ax > 0
    · obtain ⟨b₂, hrun₂, h₂⟩ := h₁.draw ⟨T.left, T.top, T.left + ax, T.bottom⟩
        (fun _ => hdraw _ ⟨le_rfl, le_rfl, by dsimp only; omega, le_rfl⟩)
        (by rw [hX]; dsimp only; omega)
        (by
          intro q hq
          simp only [Rect.mem_cells, hX] at hq ⊢
          omega)
      refine ⟨b₂, by rw [if_pos hpos, hrun₂], h₂.congr fun q => ?_⟩
      simp only [Set.mem_union, Rect.mem_cells, Set.mem_ofPred_eq]
      omega
    · refine ⟨b₁, if_neg hpos, h₁.congr fun q => ?_⟩
      simp only [Rect.mem_cells, Set.mem_ofPred_eq]
      omega
  rw [hrun₂, Option.bind_some]
  by_cases hpos : ay > 0
  · obtain ⟨b₃, hrun₃, h₃⟩ := h₂.draw ⟨T.left + ax, T.top, T.right, T.top + ay⟩
      (fun _ => hdraw _ ⟨by dsimp only; omega, le_rfl, le_rfl, by dsimp only; omega⟩)
      (by rw [hY]; dsimp only; omega)
      (by
        intro q hq
        simp only [Rect.mem_cells, Set.mem_ofPred_eq, hY] at hq ⊢
        omega)
    refine ⟨b₃, by rw [if_pos hpos, hrun₃], h₃.congr fun q => ?_⟩
    simp only [Set.mem_union, Rect.mem_cells, Set.mem_ofPred_eq]
    omega
  · refine ⟨b₂, if_neg hpos, h₂.congr fun q => ?_⟩
    simp only [Rect.mem_cells, Set.mem_ofPred_eq]
    omega

/-- For a source and a destination inside the bitmap the copy ends, and it is a move. -/
theorem copy_moves (b : Bitmap β) (source : Rect) (destX destY : ℤ) (hsource : source.Within b)
    (hdest : (source.offset (destX - source.left) (destY - source.top)).Within b) :
    ∃ n : ℕ, ∀ fuel ≥ n, ∃ b', copy fuel source destX destY b = some b' ∧
      Moves source destX destY b b' := by
  refine ⟨(max (source.right - source.left) (source.bottom - source.top)).toNat,
    fun fuel hfuel => ?_⟩
  by_cases hmoved : destX - source.left = 0 ∧ destY - source.top = 0
  · refine ⟨b, ?_, ⟨rfl, rfl⟩, fun q => ?_⟩
    · simp [copy, hmoved]
    · simp [hmoved]
  by_cases hbeside : |destX - source.left| < source.right - source.left ∧
      |destY - source.top| < source.bottom - source.top
  case neg =>
    have hcopy : copy fuel source destX destY b =
        copyTransformedRect (transformRect source (destX - source.left) (destY - source.top))
          (destX - source.left) (destY - source.top) b := by
      simp only [copy, abs_eq_ite]
      rw [copyTransformedRect, transformRect_transformRect, if_neg (by rwa [abs_eq_zero, abs_eq_zero]),
        if_pos (by omega)]
    rw [hcopy]
    have hnone : Copied (destX - source.left) (destY - source.top) ∅ b b :=
      ⟨⟨rfl, rfl⟩, fun q => ⟨fun h => h.elim, fun _ => rfl⟩⟩
    obtain ⟨b', hdrawn, hcopied⟩ := hnone.draw
      (transformRect source (destX - source.left) (destY - source.top))
      (fun _ => drawable_of_inside hsource hdest _ ⟨le_rfl, le_rfl, le_rfl, le_rfl⟩)
      (by rw [transformRect_width, transformRect_height]; omega) (fun _ _ h => h)
    exact ⟨b', hdrawn, moves_of_copied (hcopied.congr fun q => (by simp))⟩
  case pos =>
    obtain ⟨b', hcopy, hcopied⟩ := copy_overlapping hsource hdest hmoved hbeside.1 hbeside.2
      (show source.right - source.left ≤ (fuel : ℤ) ∧ source.bottom - source.top ≤ (fuel : ℤ) by
        omega)
    exact ⟨b', hcopy, moves_of_copied hcopied⟩

/-- A rectangle that is moved up and to the left by less than its size. -/
theorem copy_moves_upLeft :
    ∃ n : ℕ, ∀ fuel ≥ n, ∃ b', copy fuel ⟨3, 2, 7, 6⟩ 1 1 ⟨8, 8, fun q => q.1 + 8 * q.2⟩ = some b' ∧
      Moves ⟨3, 2, 7, 6⟩ 1 1 ⟨8, 8, fun q => q.1 + 8 * q.2⟩ b' :=
  copy_moves ⟨8, 8, fun q => q.1 + 8 * q.2⟩ ⟨3, 2, 7, 6⟩ 1 1 (by decide) (by decide)

end OverlappingCopy

end Limbo.Drawing
