import Mathlib

/-!
# Overlap of two rectangles

`NonOverlappingPortion.overlap(r1, r2)` of `RectList` compares two rectangles side by side. The
four sides go through the same comparison: the left and the top side through `lowSide`, the right
and the bottom side through `highSide`, on the horizontal or the vertical coordinates. A side is
owned by the rectangle that sticks out there, or is common to both.
-/

namespace Limbo.Drawing

/-- `android.graphics.Rect`: the points with `left ≤ x < right` and `top ≤ y < bottom`. -/
structure Rect where
  left : ℤ
  top : ℤ
  right : ℤ
  bottom : ℤ
deriving DecidableEq, Repr

namespace Rect

/-- The integer points a rectangle covers. -/
def cells (r : Rect) : Set (ℤ × ℤ) := Set.Ico r.left r.right ×ˢ Set.Ico r.top r.bottom

@[simp] lemma mem_cells {r : Rect} {p : ℤ × ℤ} :
    p ∈ r.cells ↔ (r.left ≤ p.1 ∧ p.1 < r.right) ∧ (r.top ≤ p.2 ∧ p.2 < r.bottom) := Iff.rfl

/-- `Rect.isEmpty` is false. -/
def Nonempty (r : Rect) : Prop := r.left < r.right ∧ r.top < r.bottom

instance (r : Rect) : Decidable r.Nonempty := inferInstanceAs (Decidable (_ ∧ _))

/-- `Rect.intersect(bounds)`: `none` when it returns false and leaves the rectangle alone. -/
def intersect (r bounds : Rect) : Option Rect :=
  if r.left < bounds.right ∧ bounds.left < r.right ∧ r.top < bounds.bottom ∧ bounds.top < r.bottom
  then some ⟨max r.left bounds.left, max r.top bounds.top,
    min r.right bounds.right, min r.bottom bounds.bottom⟩
  else none

end Rect

/-- `RectList.OverlapType`. -/
inductive OverlapType where
  | none | same | contains | containedBy | coalescible | partialOverlap
deriving DecidableEq, Repr

/-- Who sticks out at a side: the bit is set in `r1Owns`, in `r2Owns` or in `common`. -/
inductive Owner where
  | r1 | r2 | common
deriving DecidableEq, Repr

/-- What one side block of `overlap` computes: the outer and the inner grid line of the side, its
owner, and the contributions to the overlap flag and to `adjacent`. -/
structure Side where
  outer : ℤ
  inner : ℤ
  owner : Owner
  overlap : Bool
  adjacent : Bool
deriving DecidableEq, Repr

/-- The left block of `overlap`, and with the vertical coordinates the top block. -/
def lowSide (lo1 hi1 lo2 hi2 : ℤ) : Side :=
  if lo1 < lo2 then
    if lo2 < hi1 then ⟨lo1, lo2, .r1, true, false⟩
    else ⟨lo1, hi1, .r1, false, lo2 = hi1⟩
  else
    let owner := if lo2 < lo1 then Owner.r2 else .common
    if lo1 < hi2 then ⟨lo2, lo1, owner, true, false⟩
    else ⟨lo2, hi2, owner, false, lo1 = hi2⟩

/-- The right block of `overlap`, and with the vertical coordinates the bottom block. -/
def highSide (lo1 hi1 lo2 hi2 : ℤ) : Side :=
  if hi1 > hi2 then
    if hi2 > lo1 then ⟨hi1, hi2, .r1, true, false⟩
    else ⟨hi1, lo1, .r1, false, hi2 = lo1⟩
  else
    let owner := if hi2 > hi1 then Owner.r2 else .common
    if hi1 > lo2 then ⟨hi2, hi1, owner, true, false⟩
    else ⟨hi2, lo2, owner, false, hi1 = lo2⟩

/-- The part a rectangle `o` owns at a left or top side. -/
def Side.Below (s : Side) (o : Owner) (x : ℤ) : Prop := s.owner = o ∧ s.outer ≤ x ∧ x < s.inner

/-- The part a rectangle `o` owns at a right or bottom side. -/
def Side.Above (s : Side) (o : Owner) (x : ℤ) : Prop := s.owner = o ∧ s.inner ≤ x ∧ x < s.outer

/-- The part between the inner lines of two opposite sides. -/
def Between (low high : Side) (x : ℤ) : Prop := low.inner ≤ x ∧ x < high.inner

/-- `RectList.NonOverlappingPortion` after `overlap(r1, r2)`. The eight portions of the source are
the cells of the grid that the outer and inner lines of the four sides span. -/
structure NonOverlappingPortion where
  left : Side
  top : Side
  right : Side
  bottom : Side

namespace NonOverlappingPortion

def of (r1 r2 : Rect) : NonOverlappingPortion where
  left := lowSide r1.left r1.right r2.left r2.right
  top := lowSide r1.top r1.bottom r2.top r2.bottom
  right := highSide r1.left r1.right r2.left r2.right
  bottom := highSide r1.top r1.bottom r2.top r2.bottom

variable (p : NonOverlappingPortion)

def leftPortion : Rect := ⟨p.left.outer, p.top.inner, p.left.inner, p.bottom.inner⟩
def topLeftPortion : Rect := ⟨p.left.outer, p.top.outer, p.left.inner, p.top.inner⟩
def topPortion : Rect := ⟨p.left.inner, p.top.outer, p.right.inner, p.top.inner⟩
def topRightPortion : Rect := ⟨p.right.inner, p.top.outer, p.right.outer, p.top.inner⟩
def rightPortion : Rect := ⟨p.right.inner, p.top.inner, p.right.outer, p.bottom.inner⟩
def bottomRightPortion : Rect := ⟨p.right.inner, p.bottom.inner, p.right.outer, p.bottom.outer⟩
def bottomPortion : Rect := ⟨p.left.inner, p.bottom.inner, p.right.inner, p.bottom.outer⟩
def bottomLeftPortion : Rect := ⟨p.left.outer, p.bottom.inner, p.left.inner, p.bottom.outer⟩

def horizontalOverlap : Bool := p.left.overlap || p.right.overlap
def verticalOverlap : Bool := p.top.overlap || p.bottom.overlap

/-- `(adjacent & (LEFT | RIGHT)) != 0`. -/
def adjacentHorizontal : Bool := p.left.adjacent || p.right.adjacent

/-- `(adjacent & (TOP | BOTTOM)) != 0`. -/
def adjacentVertical : Bool := p.top.adjacent || p.bottom.adjacent

/-- `(common & (LEFT | RIGHT)) == (LEFT | RIGHT)`. -/
def commonHorizontal : Prop := p.left.owner = .common ∧ p.right.owner = .common

/-- `(common & (TOP | BOTTOM)) == (TOP | BOTTOM)`. -/
def commonVertical : Prop := p.top.owner = .common ∧ p.bottom.owner = .common

instance : Decidable p.commonHorizontal := inferInstanceAs (Decidable (_ ∧ _))
instance : Decidable p.commonVertical := inferInstanceAs (Decidable (_ ∧ _))

/-- The rectangle `o` owns one of the four sides. -/
def owns (o : Owner) : Prop :=
  p.left.owner = o ∨ p.top.owner = o ∨ p.right.owner = o ∨ p.bottom.owner = o

instance (o : Owner) : Decidable (p.owns o) := inferInstanceAs (Decidable (_ ∨ _))

end NonOverlappingPortion

open NonOverlappingPortion in
/-- The result of `overlap(r1, r2)`. -/
def overlap (r1 r2 : Rect) : OverlapType :=
  let p := of r1 r2
  if p.commonHorizontal ∧ p.commonVertical then .same
  else if p.commonHorizontal ∧ (p.verticalOverlap || p.adjacentVertical) then .coalescible
  else if p.commonVertical ∧ (p.horizontalOverlap || p.adjacentHorizontal) then .coalescible
  else if p.verticalOverlap && p.horizontalOverlap then
    if ¬ p.owns .r2 then .containedBy
    else if ¬ p.owns .r1 then .contains
    else .partialOverlap
  else .none

/-- `nonOverlappingPortion.coalesced` after a comparison that found `r1` and `r2` coalescible. -/
def coalesced (r1 r2 : Rect) : Rect :=
  let p := NonOverlappingPortion.of r1 r2
  if p.commonHorizontal ∧ (p.verticalOverlap || p.adjacentVertical) then
    ⟨r1.left, p.topPortion.top, r1.right, p.bottomPortion.bottom⟩
  else ⟨p.leftPortion.left, r1.top, p.rightPortion.right, r1.bottom⟩

/-- A portion is taken when its sides are owned by the wanted rectangle. -/
def ownedPortion (owned : Prop) [Decidable owned] (r : Rect) : List Rect := if owned then [r] else []

@[simp] lemma mem_ownedPortion {owned : Prop} [Decidable owned] {r s : Rect} :
    s ∈ ownedPortion owned r ↔ owned ∧ s = r := by
  unfold ownedPortion; split_ifs with h <;> simp [h]

/-- `setCornerOwnership` and `NonOverlappingRects.Populate`: the portions `o` owns, a corner being
owned by the owner of both its sides. As in the source, the bottom portion is taken twice and the
right portion is not taken. -/
def populate (p : NonOverlappingPortion) (o : Owner) : List Rect :=
  ownedPortion (p.bottom.owner = o ∧ p.left.owner = o) p.bottomLeftPortion ++
    ownedPortion (p.bottom.owner = o) p.bottomPortion ++
    ownedPortion (p.bottom.owner = o ∧ p.right.owner = o) p.bottomRightPortion ++
    ownedPortion (p.bottom.owner = o) p.bottomPortion ++
    ownedPortion (p.top.owner = o ∧ p.right.owner = o) p.topRightPortion ++
    ownedPortion (p.top.owner = o) p.topPortion ++
    ownedPortion (p.top.owner = o ∧ p.left.owner = o) p.topLeftPortion ++
    ownedPortion (p.left.owner = o) p.leftPortion

/-! ### The sides of a comparison -/

section Sides

variable {lo1 hi1 lo2 hi2 : ℤ}

@[simp] lemma lowSide_owner_r1 : (lowSide lo1 hi1 lo2 hi2).owner = .r1 ↔ lo1 < lo2 := by
  unfold lowSide; split_ifs <;> simp_all

@[simp] lemma lowSide_owner_r2 : (lowSide lo1 hi1 lo2 hi2).owner = .r2 ↔ lo2 < lo1 := by
  unfold lowSide; split_ifs <;> simp_all <;> omega

@[simp] lemma lowSide_owner_common : (lowSide lo1 hi1 lo2 hi2).owner = .common ↔ lo1 = lo2 := by
  unfold lowSide; split_ifs <;> simp_all <;> omega

@[simp] lemma highSide_owner_r1 : (highSide lo1 hi1 lo2 hi2).owner = .r1 ↔ hi2 < hi1 := by
  unfold highSide; split_ifs <;> simp_all

@[simp] lemma highSide_owner_r2 : (highSide lo1 hi1 lo2 hi2).owner = .r2 ↔ hi1 < hi2 := by
  unfold highSide; split_ifs <;> simp_all <;> omega

@[simp] lemma highSide_owner_common : (highSide lo1 hi1 lo2 hi2).owner = .common ↔ hi1 = hi2 := by
  unfold highSide; split_ifs <;> simp_all <;> omega

@[simp] lemma lowSide_outer : (lowSide lo1 hi1 lo2 hi2).outer = min lo1 lo2 := by
  unfold lowSide; split_ifs <;> simp <;> omega

@[simp] lemma highSide_outer : (highSide lo1 hi1 lo2 hi2).outer = max hi1 hi2 := by
  unfold highSide; split_ifs <;> simp <;> omega

/-- The overlap flag of an axis, as the four blocks set it. -/
lemma axis_overlap :
    ((lowSide lo1 hi1 lo2 hi2).overlap || (highSide lo1 hi1 lo2 hi2).overlap) = true ↔
      (lo1 < lo2 ∧ lo2 < hi1) ∨ (lo2 ≤ lo1 ∧ lo1 < hi2) ∨
        (hi2 < hi1 ∧ lo1 < hi2) ∨ (hi1 ≤ hi2 ∧ lo2 < hi1) := by
  unfold lowSide highSide; split_ifs <;> simp <;> omega

/-- Two intervals that share a point set the overlap flag. -/
lemma axis_overlap_of_mem {x : ℤ} (h1 : lo1 ≤ x ∧ x < hi1) (h2 : lo2 ≤ x ∧ x < hi2) :
    ((lowSide lo1 hi1 lo2 hi2).overlap || (highSide lo1 hi1 lo2 hi2).overlap) = true := by
  rw [axis_overlap]; omega

/-- The adjacency flag of an axis, as the four blocks set it. -/
lemma axis_adjacent :
    ((lowSide lo1 hi1 lo2 hi2).adjacent || (highSide lo1 hi1 lo2 hi2).adjacent) = true ↔
      (lo1 < lo2 ∧ lo2 = hi1) ∨ (lo2 ≤ lo1 ∧ lo1 = hi2) ∨
        (hi2 < hi1 ∧ hi2 = lo1) ∨ (hi1 ≤ hi2 ∧ hi1 = lo2) := by
  unfold lowSide highSide; split_ifs <;> simp <;> omega

/-- With the overlap flag set, the first interval is its own part below the inner lines, the part
between them and its own part above them. -/
lemma axis_mem_fst (h : ((lowSide lo1 hi1 lo2 hi2).overlap || (highSide lo1 hi1 lo2 hi2).overlap))
    (x : ℤ) : lo1 ≤ x ∧ x < hi1 ↔
      (lowSide lo1 hi1 lo2 hi2).Below .r1 x ∨
        Between (lowSide lo1 hi1 lo2 hi2) (highSide lo1 hi1 lo2 hi2) x ∨
        (highSide lo1 hi1 lo2 hi2).Above .r1 x := by
  revert h
  unfold Side.Below Side.Above Between lowSide highSide
  split_ifs <;> simp <;> omega

/-- With the overlap flag set, the second interval is its own part below the inner lines, the part
between them and its own part above them. -/
lemma axis_mem_snd (h : ((lowSide lo1 hi1 lo2 hi2).overlap || (highSide lo1 hi1 lo2 hi2).overlap))
    (x : ℤ) : lo2 ≤ x ∧ x < hi2 ↔
      (lowSide lo1 hi1 lo2 hi2).Below .r2 x ∨
        Between (lowSide lo1 hi1 lo2 hi2) (highSide lo1 hi1 lo2 hi2) x ∨
        (highSide lo1 hi1 lo2 hi2).Above .r2 x := by
  revert h
  unfold Side.Below Side.Above Between lowSide highSide
  split_ifs <;> simp <;> omega

/-- What the first interval owns at a side is outside the second. -/
lemma axis_own_fst {x : ℤ}
    (h : (lowSide lo1 hi1 lo2 hi2).Below .r1 x ∨ (highSide lo1 hi1 lo2 hi2).Above .r1 x) :
    ¬ (lo2 ≤ x ∧ x < hi2) := by
  revert h
  unfold Side.Below Side.Above lowSide highSide
  split_ifs <;> simp <;> omega

/-- For non-empty intervals with the overlap flag set the three parts are in order, and a part
with an owner is not empty. -/
lemma axis_parts (h1 : lo1 < hi1) (h2 : lo2 < hi2)
    (h : ((lowSide lo1 hi1 lo2 hi2).overlap || (highSide lo1 hi1 lo2 hi2).overlap)) :
    (lowSide lo1 hi1 lo2 hi2).inner < (highSide lo1 hi1 lo2 hi2).inner ∧
      ((lowSide lo1 hi1 lo2 hi2).owner ≠ .common →
        (lowSide lo1 hi1 lo2 hi2).outer < (lowSide lo1 hi1 lo2 hi2).inner) ∧
      ((highSide lo1 hi1 lo2 hi2).owner ≠ .common →
        (highSide lo1 hi1 lo2 hi2).inner < (highSide lo1 hi1 lo2 hi2).outer) := by
  revert h
  unfold lowSide highSide
  split_ifs <;> simp <;> omega

end Sides

section Products

variable {l m r t n b x2 y2 : Prop}

/-- What a product of three parts by three parts loses against a second product, when each of its
outer parts is outside the second factor and each middle part inside. -/
private lemma product_diff (hr : ¬ r) (hl : l → ¬ x2) (ht : t → ¬ y2) (hb : b → ¬ y2) (hm : m → x2)
    (hn : n → y2) :
    (b ∧ (l ∨ m ∨ r)) ∨ (t ∧ (l ∨ m ∨ r)) ∨ (l ∧ n) ↔
      ((l ∨ m ∨ r) ∧ (t ∨ n ∨ b)) ∧ ¬ (x2 ∧ y2) := by
  tauto

/-- What a product of three parts by three parts adds to a product that has both middle parts. -/
private lemma product_union (hr : ¬ r) (hm : m → x2) (hn : n → y2) :
    (x2 ∧ y2) ∨ ((b ∧ (l ∨ m ∨ r)) ∨ (t ∧ (l ∨ m ∨ r)) ∨ (l ∧ n)) ↔
      (x2 ∧ y2) ∨ ((l ∨ m ∨ r) ∧ (t ∨ n ∨ b)) := by
  tauto

end Products

section Comparison

variable {r1 r2 : Rect}

lemma commonHorizontal_of : (NonOverlappingPortion.of r1 r2).commonHorizontal ↔
    r1.left = r2.left ∧ r1.right = r2.right := by
  simp [NonOverlappingPortion.commonHorizontal, NonOverlappingPortion.of]

lemma commonVertical_of : (NonOverlappingPortion.of r1 r2).commonVertical ↔
    r1.top = r2.top ∧ r1.bottom = r2.bottom := by
  simp [NonOverlappingPortion.commonVertical, NonOverlappingPortion.of]

lemma owns_r1_of : (NonOverlappingPortion.of r1 r2).owns .r1 ↔
    r1.left < r2.left ∨ r1.top < r2.top ∨ r2.right < r1.right ∨ r2.bottom < r1.bottom := by
  simp [NonOverlappingPortion.owns, NonOverlappingPortion.of]

lemma owns_r2_of : (NonOverlappingPortion.of r1 r2).owns .r2 ↔
    r2.left < r1.left ∨ r2.top < r1.top ∨ r1.right < r2.right ∨ r1.bottom < r2.bottom := by
  simp [NonOverlappingPortion.owns, NonOverlappingPortion.of]

/-- Rectangles that share a point overlap on both axes. -/
lemma overlaps_of_mem {p : ℤ × ℤ} (h1 : p ∈ r1.cells) (h2 : p ∈ r2.cells) :
    (NonOverlappingPortion.of r1 r2).horizontalOverlap = true ∧
      (NonOverlappingPortion.of r1 r2).verticalOverlap = true :=
  ⟨axis_overlap_of_mem h1.1 h2.1, axis_overlap_of_mem h1.2 h2.2⟩

/-- The comparison finds nothing exactly when the rectangles overlap on at most one axis and do
not continue each other along a common side. -/
lemma overlap_eq_none : overlap r1 r2 = .none ↔
    let p := NonOverlappingPortion.of r1 r2
    ¬ (p.commonHorizontal ∧ p.commonVertical) ∧
      ¬ (p.commonHorizontal ∧ (p.verticalOverlap || p.adjacentVertical) = true) ∧
      ¬ (p.commonVertical ∧ (p.horizontalOverlap || p.adjacentHorizontal) = true) ∧
      ¬ (p.verticalOverlap && p.horizontalOverlap) = true := by
  unfold overlap
  dsimp only
  split_ifs <;> simp_all

/-- Rectangles the comparison finds unrelated have no point in common. -/
lemma disjoint_of_overlap_none (h : overlap r1 r2 = .none) : Disjoint r1.cells r2.cells := by
  rw [Set.disjoint_left]
  intro p h1 h2
  obtain ⟨hh, hv⟩ := overlaps_of_mem h1 h2
  exact (overlap_eq_none.mp h).2.2.2 (by simp [hh, hv])

lemma eq_of_overlap_same (h : overlap r1 r2 = .same) : r1 = r2 := by
  have hc : (NonOverlappingPortion.of r1 r2).commonHorizontal ∧
      (NonOverlappingPortion.of r1 r2).commonVertical := by
    by_contra hc
    unfold overlap at h
    rw [if_neg hc] at h
    split_ifs at h
  rw [commonHorizontal_of, commonVertical_of] at hc
  obtain ⟨⟨h1, h2⟩, h3, h4⟩ := hc
  cases r1; cases r2
  simp_all

lemma overlap_eq_partialOverlap (h : overlap r1 r2 = .partialOverlap) :
    (NonOverlappingPortion.of r1 r2).horizontalOverlap = true ∧
      (NonOverlappingPortion.of r1 r2).verticalOverlap = true := by
  unfold overlap at h
  dsimp only at h
  split_ifs at h
  simp_all

lemma overlap_eq_contains (h : overlap r1 r2 = .contains) :
    ((NonOverlappingPortion.of r1 r2).horizontalOverlap = true ∧
      (NonOverlappingPortion.of r1 r2).verticalOverlap = true) ∧
      ¬ (NonOverlappingPortion.of r1 r2).owns .r1 := by
  unfold overlap at h
  dsimp only at h
  split_ifs at h
  simp_all

lemma overlap_eq_containedBy (h : overlap r1 r2 = .containedBy) :
    (NonOverlappingPortion.of r1 r2).horizontalOverlap = true ∧
      (NonOverlappingPortion.of r1 r2).verticalOverlap = true := by
  unfold overlap at h
  dsimp only at h
  split_ifs at h
  simp_all

/-- The portions taken for `o`, as a list of cases. -/
lemma mem_populate {p : NonOverlappingPortion} {o : Owner} {r : Rect} : r ∈ populate p o ↔
    (p.bottom.owner = o ∧ p.left.owner = o) ∧ r = p.bottomLeftPortion ∨
    p.bottom.owner = o ∧ r = p.bottomPortion ∨
    (p.bottom.owner = o ∧ p.right.owner = o) ∧ r = p.bottomRightPortion ∨
    (p.top.owner = o ∧ p.right.owner = o) ∧ r = p.topRightPortion ∨
    p.top.owner = o ∧ r = p.topPortion ∨
    (p.top.owner = o ∧ p.left.owner = o) ∧ r = p.topLeftPortion ∨
    p.left.owner = o ∧ r = p.leftPortion := by
  have hdrop {a b c d : Prop} : a ∨ b ∨ c ∨ b ∨ d ↔ a ∨ b ∨ c ∨ d := by tauto
  simp only [populate, List.mem_append, mem_ownedPortion, or_assoc]
  exact hdrop

section Portions

variable {p : NonOverlappingPortion} {o : Owner} {q : ℤ × ℤ}

/-- A side and its two corners, for the bottom side. -/
lemma mem_bottom_portions :
    (((p.bottom.owner = o ∧ p.left.owner = o) ∧ q ∈ p.bottomLeftPortion.cells) ∨
      (p.bottom.owner = o ∧ q ∈ p.bottomPortion.cells) ∨
      ((p.bottom.owner = o ∧ p.right.owner = o) ∧ q ∈ p.bottomRightPortion.cells)) ↔
      p.bottom.Above o q.2 ∧
        (p.left.Below o q.1 ∨ Between p.left p.right q.1 ∨ p.right.Above o q.1) := by
  simp only [Rect.mem_cells, NonOverlappingPortion.bottomLeftPortion,
    NonOverlappingPortion.bottomPortion, NonOverlappingPortion.bottomRightPortion,
    Side.Below, Side.Above, Between]
  constructor
  · rintro (⟨⟨hb, hl⟩, hx, hy⟩ | ⟨hb, hx, hy⟩ | ⟨⟨hb, hr⟩, hx, hy⟩)
    · exact ⟨⟨hb, hy⟩, .inl ⟨hl, hx⟩⟩
    · exact ⟨⟨hb, hy⟩, .inr (.inl hx)⟩
    · exact ⟨⟨hb, hy⟩, .inr (.inr ⟨hr, hx⟩)⟩
  · rintro ⟨⟨hb, hy⟩, ⟨hl, hx⟩ | hx | ⟨hr, hx⟩⟩
    · exact .inl ⟨⟨hb, hl⟩, hx, hy⟩
    · exact .inr (.inl ⟨hb, hx, hy⟩)
    · exact .inr (.inr ⟨⟨hb, hr⟩, hx, hy⟩)

/-- A side and its two corners, for the top side. -/
lemma mem_top_portions :
    (((p.top.owner = o ∧ p.right.owner = o) ∧ q ∈ p.topRightPortion.cells) ∨
      (p.top.owner = o ∧ q ∈ p.topPortion.cells) ∨
      ((p.top.owner = o ∧ p.left.owner = o) ∧ q ∈ p.topLeftPortion.cells)) ↔
      p.top.Below o q.2 ∧
        (p.left.Below o q.1 ∨ Between p.left p.right q.1 ∨ p.right.Above o q.1) := by
  simp only [Rect.mem_cells, NonOverlappingPortion.topLeftPortion,
    NonOverlappingPortion.topPortion, NonOverlappingPortion.topRightPortion,
    Side.Below, Side.Above, Between]
  constructor
  · rintro (⟨⟨ht, hr⟩, hx, hy⟩ | ⟨ht, hx, hy⟩ | ⟨⟨ht, hl⟩, hx, hy⟩)
    · exact ⟨⟨ht, hy⟩, .inr (.inr ⟨hr, hx⟩)⟩
    · exact ⟨⟨ht, hy⟩, .inr (.inl hx)⟩
    · exact ⟨⟨ht, hy⟩, .inl ⟨hl, hx⟩⟩
  · rintro ⟨⟨ht, hy⟩, ⟨hl, hx⟩ | hx | ⟨hr, hx⟩⟩
    · exact .inr (.inr ⟨⟨ht, hl⟩, hx, hy⟩)
    · exact .inr (.inl ⟨ht, hx, hy⟩)
    · exact .inl ⟨⟨ht, hr⟩, hx, hy⟩

/-- The points in the portions taken for `o`: all combinations of its parts but the one between
the inner lines on both axes, and, since the right portion is not taken, the one to the right. -/
lemma mem_cells_populate : (∃ r ∈ populate p o, q ∈ r.cells) ↔
    (p.bottom.Above o q.2 ∧
      (p.left.Below o q.1 ∨ Between p.left p.right q.1 ∨ p.right.Above o q.1)) ∨
    (p.top.Below o q.2 ∧
      (p.left.Below o q.1 ∨ Between p.left p.right q.1 ∨ p.right.Above o q.1)) ∨
    (p.left.Below o q.1 ∧ Between p.top p.bottom q.2) := by
  have hleft : (p.left.owner = o ∧ q ∈ p.leftPortion.cells) ↔
      p.left.Below o q.1 ∧ Between p.top p.bottom q.2 := and_assoc.symm
  rw [← mem_bottom_portions, ← mem_top_portions, ← hleft]
  simp only [mem_populate, or_and_right, exists_or, and_assoc, exists_and_left, exists_eq_left,
    or_assoc]

end Portions

/-- A rectangle that sticks out of another, but not to the right, is cut without loss: the first
one falls into the portions it owns and its points in the second. -/
lemma mem_populate_fst (hh : (NonOverlappingPortion.of r1 r2).horizontalOverlap = true)
    (hv : (NonOverlappingPortion.of r1 r2).verticalOverlap = true) (hr : r1.right ≤ r2.right)
    (q : ℤ × ℤ) :
    (∃ r ∈ populate (.of r1 r2) .r1, q ∈ r.cells) ↔ q ∈ r1.cells ∧ q ∉ r2.cells := by
  have hright : ¬ (NonOverlappingPortion.of r1 r2).right.Above .r1 q.1 := fun h =>
    hr.not_gt (highSide_owner_r1.mp h.1)
  have hx1 := axis_mem_fst hh q.1
  have hx2 := axis_mem_snd hh q.1
  have hy1 := axis_mem_fst hv q.2
  have hy2 := axis_mem_snd hv q.2
  rw [mem_cells_populate, Rect.mem_cells, Rect.mem_cells, hx1, hy1]
  exact product_diff hright (fun h => axis_own_fst (.inl h))
    (fun h => axis_own_fst (.inl h)) (fun h => axis_own_fst (.inr h))
    (fun h => hx2.mpr (.inr (.inl h))) (fun h => hy2.mpr (.inr (.inl h)))

/-- The same for the second rectangle: the portions it owns and the first rectangle cover it. -/
lemma mem_populate_snd (hh : (NonOverlappingPortion.of r1 r2).horizontalOverlap = true)
    (hv : (NonOverlappingPortion.of r1 r2).verticalOverlap = true) (hr : r2.right ≤ r1.right)
    (q : ℤ × ℤ) :
    q ∈ r1.cells ∨ (∃ r ∈ populate (.of r1 r2) .r2, q ∈ r.cells) ↔ q ∈ r1.cells ∨ q ∈ r2.cells := by
  have hright : ¬ (NonOverlappingPortion.of r1 r2).right.Above .r2 q.1 := fun h =>
    hr.not_gt (highSide_owner_r2.mp h.1)
  have hx1 := axis_mem_fst hh q.1
  have hx2 := axis_mem_snd hh q.1
  have hy1 := axis_mem_fst hv q.2
  have hy2 := axis_mem_snd hv q.2
  rw [mem_cells_populate, Rect.mem_cells, Rect.mem_cells, hx2, hy2]
  exact product_union hright (fun h => hx1.mpr (.inr (.inl h))) (fun h => hy1.mpr (.inr (.inl h)))

/-- The portions a non-empty rectangle owns are not empty. -/
lemma populate_nonempty (h1 : r1.Nonempty) (h2 : r2.Nonempty)
    (hh : (NonOverlappingPortion.of r1 r2).horizontalOverlap = true)
    (hv : (NonOverlappingPortion.of r1 r2).verticalOverlap = true) {o : Owner} (ho : o ≠ .common) :
    ∀ r ∈ populate (.of r1 r2) o, r.Nonempty := by
  obtain ⟨hx, hxl, hxr⟩ := axis_parts h1.1 h2.1 hh
  obtain ⟨hy, hyt, hyb⟩ := axis_parts h1.2 h2.2 hv
  intro r hr
  rcases mem_populate.mp hr with ⟨⟨hb, hl⟩, rfl⟩ | ⟨hb, rfl⟩ | ⟨⟨hb, hl⟩, rfl⟩ | ⟨⟨ht, hl⟩, rfl⟩ |
    ⟨ht, rfl⟩ | ⟨⟨ht, hl⟩, rfl⟩ | ⟨hl, rfl⟩
  · exact ⟨hxl (hl.trans_ne ho), hyb (hb.trans_ne ho)⟩
  · exact ⟨hx, hyb (hb.trans_ne ho)⟩
  · exact ⟨hxr (hl.trans_ne ho), hyb (hb.trans_ne ho)⟩
  · exact ⟨hxr (hl.trans_ne ho), hyt (ht.trans_ne ho)⟩
  · exact ⟨hx, hyt (ht.trans_ne ho)⟩
  · exact ⟨hxl (hl.trans_ne ho), hyt (ht.trans_ne ho)⟩
  · exact ⟨hxl (hl.trans_ne ho), hy⟩

end Comparison

end Limbo.Drawing
