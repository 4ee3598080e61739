import Limbo.Vnc.Update

/-!
# Cells

The cell of the array that a pixel of the frame has, computed without overflow: in the part of the
frame that the bitmap has, the offsets of the code are these cells, and different pixels have
different cells.
-/

namespace Limbo.Vnc

open Lib

variable {l : Layout} {x y w h i j : ℕ}

namespace Layout

/-- The whole frame is in the array. -/
def Full : Layout → Prop
  | full .. => True
  | large .. => False

/-- The cell of the pixel at `(x, y)`. -/
def cell : Layout → ℤ → ℤ → ℤ
  | full framebufferwidth _, x, y => x + y * framebufferwidth
  | large xoffset yoffset bitmapwidth _, x, y => x - xoffset + (y - yoffset) * bitmapwidth

/-- The column of the frame that a cell of the array is in. -/
def column : Layout → ℤ → ℤ
  | full framebufferwidth _, k => k % framebufferwidth
  | large xoffset _ bitmapwidth _, k => k % bitmapwidth + xoffset

/-- The row of the frame that a cell of the array is in. -/
def row : Layout → ℤ → ℤ
  | full framebufferwidth _, k => k / framebufferwidth
  | large _ yoffset bitmapwidth _, k => k / bitmapwidth + yoffset

lemma add_mul_emod_ediv {X Y b : ℤ} (hX : 0 ≤ X) (hb : X < b) :
    (X + Y * b) % b = X ∧ (X + Y * b) / b = Y := by
  rw [Int.add_mul_emod_self_right, Int.emod_eq_of_lt hX hb, Int.add_mul_ediv_right _ _ (by omega),
    Int.ediv_eq_zero_of_lt hX hb, zero_add]
  exact ⟨rfl, rfl⟩

/-- The pixel of a cell. -/
lemma Holds.column_row_cell (hold : l.Holds x y w h) (hi : i < w) :
    l.column (l.cell (x + i) (y + j)) = x + i ∧ l.row (l.cell (x + i) (y + j)) = y + j := by
  cases l with
  | full fw fh =>
    obtain ⟨hx, -⟩ := hold
    exact add_mul_emod_ediv (by omega) (by omega)
  | large xo yo bw bh =>
    obtain ⟨hx, hxw, -, -⟩ := hold
    obtain ⟨hmod, hdiv⟩ := add_mul_emod_ediv (X := x + i - xo) (Y := y + j - yo) (b := bw)
      (by omega) (by omega)
    simp only [column, row, cell, hmod, hdiv]
    omega

lemma Holds.offset_eq_cell (hold : l.Holds x y w h)
    (hsize : l.bitmapwidth * l.bitmapheight < 2147483648) (hi : i < w) (hj : j < h) :
    l.offset x (y + j) + i = l.cell (x + i) (y + j) := by
  cases l with
  | full fw fh =>
    rw [hold.offset_full hsize (by omega) hj, cell]
    ring
  | large xo yo bw bh =>
    obtain ⟨hx, hxw, hy, hyh⟩ := hold
    have hcell := cell_mem (X := x - xo) (Y := y + j - yo) (w := bw) (h := bh) (by omega)
      (by omega) (by omega) (by omega)
    have hsize' : (bw : ℤ) * bh < 2147483648 := by exact_mod_cast hsize
    rw [offset, cell, wrap32_of_range (by linarith) (by linarith)]
    ring

end Layout

end Limbo.Vnc
