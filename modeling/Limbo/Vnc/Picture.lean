import Limbo.Vnc.Cells

/-!
# Pictures

The picture that an encoding describes, as patches of pixels that are painted one over the other;
how each patch gets into the bitmap; and what the bitmap then has in a cell.
-/

namespace Limbo.Vnc

open Lib

variable {l : Layout} {m : ColorModel} {x y w h i j : ℕ}

/-! ### Patches -/

/-- How a decoder puts pixels into the bitmap: by `drawRect`, or as values of `bitmapPixels`, or as
the numbers on the wire. -/
inductive Paint where
  | rect | pixels | numbers
deriving DecidableEq

def Paint.color (m : ColorModel) : Paint → Pixel → UInt32
  | rect => Pixel.color m
  | pixels => Pixel.rawColor m
  | numbers => Pixel.value m

/-- A rectangle of pixels, relative to the rectangle of the encoding. -/
structure Patch where
  x : ℕ
  y : ℕ
  w : ℕ
  h : ℕ
  pixel : ℕ → ℕ → Pixel
  paint : Paint

namespace Patch

def Covers (p : Patch) (i j : ℕ) : Prop := p.x ≤ i ∧ i < p.x + p.w ∧ p.y ≤ j ∧ j < p.y + p.h

instance (p : Patch) (i j : ℕ) : Decidable (p.Covers i j) := inferInstanceAs (Decidable (_ ∧ _))

/-- The pixel of the patch at a place of the rectangle that it covers. -/
def pixelAt (p : Patch) (i j : ℕ) : Pixel := p.pixel (i - p.x) (j - p.y)

/-- The patch of a rectangle at `(x, y)`, as a block. -/
def block (m : ColorModel) (x y : ℕ) (p : Patch) : Block :=
  ⟨x + p.x, y + p.y, p.w, p.h, fun i j => p.paint.color m (p.pixel i j)⟩

def writes (m : ColorModel) (l : Layout) (x y : ℕ) (p : Patch) : List (ℤ × UInt32) :=
  match p.paint with
  | .rect => drawWrites l (p.block m x y)
  | .pixels | .numbers => (p.block m x y).writes l

/-- The patch gets into the array; `drawRect` of the large bitmap does not draw there. -/
def Stored (l : Layout) (p : Patch) : Prop :=
  match l with
  | .full .. => True
  | .large .. => p.paint ≠ .rect

instance (l : Layout) (p : Patch) : Decidable (p.Stored l) := by
  unfold Stored
  cases l <;> infer_instance

/-- The patch is in a rectangle of this size. -/
def Inside (p : Patch) (w h : ℕ) : Prop := p.x + p.w ≤ w ∧ p.y + p.h ≤ h

end Patch

/-- The last of the patches that cover a place. -/
def topPatch : List Patch → ℕ → ℕ → Option Patch
  | [], _, _ => none
  | p :: ps, i, j => (topPatch ps i j).or (if p.Covers i j then some p else none)

/-- The pixel that the patches show at a place. -/
def picture (ps : List Patch) (i j : ℕ) : Option Pixel := (topPatch ps i j).map (·.pixelAt i j)

/-- What the array has in the cell of a place after the writes of the patches. -/
def stored (m : ColorModel) (l : Layout) (ps : List Patch) (i j : ℕ) : Option UInt32 :=
  (topPatch (ps.filter (·.Stored l)) i j).map fun p => p.paint.color m (p.pixelAt i j)

lemma topPatch_append (ps ps' : List Patch) :
    topPatch (ps ++ ps') i j = (topPatch ps' i j).or (topPatch ps i j) := by
  induction ps with
  | nil => simp [topPatch]
  | cons p ps ih => rw [List.cons_append, topPatch, topPatch, ih, Option.or_assoc]

lemma topPatch_mem {ps : List Patch} {p : Patch} (h : topPatch ps i j = some p) :
    p ∈ ps ∧ p.Covers i j := by
  induction ps with
  | nil => cases h
  | cons q ps ih =>
    rw [topPatch, Option.or_eq_some_iff] at h
    rcases h with hlast | ⟨-, hq⟩
    · exact ⟨List.mem_cons_of_mem _ (ih hlast).1, (ih hlast).2⟩
    · split_ifs at hq with hcovers
      cases hq
      exact ⟨List.mem_cons_self, hcovers⟩

lemma topPatch_eq_none {ps : List Patch} : topPatch ps i j = none ↔ ∀ p ∈ ps, ¬ p.Covers i j := by
  induction ps with
  | nil => simp [topPatch]
  | cons p ps ih =>
    rw [topPatch, Option.or_eq_none_iff, ih, List.forall_mem_cons, and_comm]
    simp

/-! ### Writes of patches -/

variable (hsize : l.bitmapwidth * l.bitmapheight < 2147483648) (hold : l.Holds x y w h)
include hsize hold

/-- The writes of a patch to the cell of a place. -/
lemma lastWrite_patch {p : Patch} (hp : p.Inside w h) (hi : i < w) (hj : j < h) :
    lastWrite (p.writes m l x y) (l.cell (x + i) (y + j)) =
      if p.Stored l ∧ p.Covers i j then some (p.paint.color m (p.pixelAt i j)) else none := by
  obtain ⟨hpw, hph⟩ := hp
  -- the writes are those of the block, unless nothing of it gets into the array
  by_cases hstored : p.Stored l
  swap
  · have hnone : p.writes m l x y = [] := by
      cases l with
      | full fw fh => exact absurd trivial hstored
      | large xo yo bw bh =>
        have hrect : p.paint = .rect := not_not.mp hstored
        rw [Patch.writes, hrect]
        rfl
    rw [hnone, if_neg fun h => hstored h.1]
    rfl
  have hwrites : p.writes m l x y = (p.block m x y).writes l := by
    unfold Patch.writes
    cases hpaint : p.paint with
    | rect =>
      cases l with
      | full fw fh => rfl
      | large xo yo bw bh => exact absurd hpaint hstored
    | pixels | numbers => rfl
  have hblock : l.Holds (x + p.x) (y + p.y) p.w p.h :=
    hold.mono (Nat.le_add_right _ _) (by omega) (Nat.le_add_right _ _) (by omega)
  have hplace := hold.column_row_cell (j := j) hi
  have hcell : ∀ i' < p.w, ∀ j' < p.h,
      l.offset (x + p.x : ℕ) ((y + p.y : ℕ) + j') + i' = l.cell (x + i) (y + j) →
        p.x + i' = i ∧ p.y + j' = j := by
    intro i' hi' j' hj' heq
    have hplace' := hblock.column_row_cell (j := j') hi'
    rw [← hblock.offset_eq_cell hsize hi' hj', heq, hplace.1, hplace.2] at hplace'
    omega
  rw [hwrites]
  by_cases hcovers : p.Covers i j
  · rw [if_pos ⟨hstored, hcovers⟩]
    obtain ⟨hx, hxw, hy, hyh⟩ := hcovers
    apply lastWrite_eq_some
    · apply Block.mem_writes.mpr
      refine ⟨j - p.y, (by omega : j - p.y < p.h), i - p.x, (by omega : i - p.x < p.w), ?_⟩
      have hoffset := hblock.offset_eq_cell hsize (i := i - p.x) (j := j - p.y) (by omega) (by omega)
      have hX : ((x + p.x : ℕ) : ℤ) + (i - p.x : ℕ) = x + i := by omega
      have hY : ((y + p.y : ℕ) : ℤ) + (j - p.y : ℕ) = y + j := by omega
      have hsame : l.cell (x + i) (y + j) =
          l.offset (x + p.x : ℕ) ((y + p.y : ℕ) + (j - p.y : ℕ)) + (i - p.x : ℕ) := by
        rw [hoffset, hX, hY]
      exact Prod.ext hsame rfl
    · intro q hq heq
      obtain ⟨j', hj', i', hi', rfl⟩ := Block.mem_writes.mp hq
      obtain ⟨rfl, rfl⟩ := hcell i' hi' j' hj' heq
      show p.paint.color m (p.pixel i' j') = p.paint.color m (p.pixel _ _)
      rw [Nat.add_sub_cancel_left, Nat.add_sub_cancel_left]
  · rw [if_neg fun h => hcovers h.2]
    apply lastWrite_eq_none.mpr
    intro q hq heq
    obtain ⟨j', hj', i', hi', rfl⟩ := Block.mem_writes.mp hq
    obtain ⟨rfl, rfl⟩ := hcell i' hi' j' hj' heq
    have hi' : i' < p.w := hi'
    have hj' : j' < p.h := hj'
    apply hcovers
    unfold Patch.Covers
    omega

/-- What the patches leave in the cell of a place. -/
lemma lastWrite_patches {ps : List Patch} (hps : ∀ p ∈ ps, p.Inside w h) (hi : i < w)
    (hj : j < h) :
    lastWrite (ps.flatMap (Patch.writes m l x y)) (l.cell (x + i) (y + j)) =
      stored m l ps i j := by
  induction ps with
  | nil => rfl
  | cons p ps ih =>
    rw [List.flatMap_cons, lastWrite_append, ih fun p hp => hps p (List.mem_cons_of_mem _ hp),
      lastWrite_patch hsize hold (hps p List.mem_cons_self) hi hj, stored, stored, List.filter_cons]
    by_cases hstored : p.Stored l
    · rw [if_pos (decide_eq_true hstored), topPatch, Option.map_or]
      congr 1
      by_cases hcovers : p.Covers i j
      · rw [if_pos ⟨hstored, hcovers⟩, if_pos hcovers, Option.map_some]
      · rw [if_neg fun h => hcovers h.2, if_neg hcovers, Option.map_none]
    · have hfilter : ¬ decide (p.Stored l) = true := by simpa using hstored
      rw [if_neg hfilter, if_neg fun h : p.Stored l ∧ p.Covers i j => hstored h.1, Option.or_none]

end Limbo.Vnc
