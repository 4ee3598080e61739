import Limbo.VncServer.Hextile

/-!
# The colours and the subrectangles of a tile

What is known of the pixels of a tile once its colours are counted, and that the subrectangles of a
row are its pixels that are not of the background, each of one colour.
-/

namespace Limbo.VncServer

open Vnc

variable {s : Colors} {ps : List UInt32} {bg fg pixel : UInt32} {i j n : ℕ}

/-! ### Colours -/

/-- What the counted colours say of the pixels. -/
inductive Colors.Counted (s : Colors) (ps : List UInt32) : Prop
  | zero (h : s.nColors = 0) (nil : ps = [])
  | one (h : s.nColors = 1) (bg : s.bg ∈ ps) (all : ∀ p ∈ ps, p = s.bg)
  | two (h : s.nColors = 2) (bg : s.bg ∈ ps) (fg : s.fg ∈ ps) (ne : s.fg ≠ s.bg)
      (all : ∀ p ∈ ps, p = s.bg ∨ p = s.fg)
  | three (h : s.nColors = 3) (bg : s.bg ∈ ps) (fg : s.fg ∈ ps) (ne : s.fg ≠ s.bg)

namespace Colors.Counted

lemma count (h : s.Counted ps) (pixel : UInt32) : (s.count pixel).Counted (ps ++ [pixel]) := by
  have hlast : pixel ∈ ps ++ [pixel] := List.mem_append_right _ (List.mem_singleton.mpr rfl)
  cases h with
  | zero h nil =>
    subst nil
    simp only [Colors.count, h]
    exact .one rfl hlast fun p hp => List.mem_singleton.mp hp
  | one h bg all =>
    simp only [Colors.count, h]
    by_cases hne : pixel ≠ s.bg
    · rw [if_pos hne]
      refine .two rfl (List.mem_append_left _ bg) hlast hne fun p hp => ?_
      rcases List.mem_append.mp hp with hp | hp
      · exact .inl (all p hp)
      · exact .inr (List.mem_singleton.mp hp)
    · rw [if_neg hne]
      refine .one h (List.mem_append_left _ bg) fun p hp => ?_
      rcases List.mem_append.mp hp with hp | hp
      · exact all p hp
      · rw [List.mem_singleton.mp hp]
        exact not_not.mp hne
  | two h bg fg ne all =>
    simp only [Colors.count, h]
    by_cases hnew : pixel ≠ s.bg ∧ pixel ≠ s.fg
    · rw [if_pos hnew]
      exact .three rfl (List.mem_append_left _ bg) (List.mem_append_left _ fg) ne
    · rw [if_neg hnew]
      have hall : ∀ p ∈ ps ++ [pixel], p = s.bg ∨ p = s.fg := by
        intro p hp
        rcases List.mem_append.mp hp with hp | hp
        · exact all p hp
        · rw [List.mem_singleton.mp hp]
          tauto
      split_ifs <;>
        exact .two (by first | rfl | exact h) (List.mem_append_left _ bg)
          (List.mem_append_left _ fg) ne hall
  | three h bg fg ne =>
    simp only [Colors.count, h]
    exact .three h (List.mem_append_left _ bg) (List.mem_append_left _ fg) ne

lemma foldl (h : s.Counted ps) (row : List UInt32) :
    (row.foldl Colors.count s).Counted (ps ++ row) := by
  induction row generalizing s ps with
  | nil => rwa [List.append_nil]
  | cons pixel row ih =>
    have hrow := ih (h.count pixel)
    rwa [List.append_assoc] at hrow

/-- More pixels do not take a third colour away. -/
lemma append (h : s.Counted ps) (hmore : s.nColors > 2) (ps' : List UInt32) :
    s.Counted (ps ++ ps') := by
  cases h with
  | three h bg fg ne => exact .three h (List.mem_append_left _ bg) (List.mem_append_left _ fg) ne
  | _ => omega

lemma countRows (h : s.Counted ps) (rows : List (List UInt32)) :
    (s.countRows rows).Counted (ps ++ rows.flatten) := by
  induction rows generalizing s ps with
  | nil => rwa [List.flatten_nil, List.append_nil]
  | cons row rows ih =>
    have hrow := h.foldl row
    rw [List.flatten_cons, ← List.append_assoc, Colors.countRows]
    split_ifs with hmore
    · exact hrow.append hmore _
    · exact ih hrow

lemma swap (h : s.Counted ps) : s.swap.Counted ps := by
  unfold Colors.swap
  split_ifs with hswap
  · cases h with
    | two h bg fg ne all => exact .two h fg bg ne.symm fun p hp => (all p hp).symm
    | three h bg fg ne => exact .three h fg bg ne.symm
    | _ => omega
  · exact h

end Colors.Counted

/-- The colours of a tile. -/
def hextileColors (rows : List (List UInt32)) : Colors :=
  (Colors.countRows ⟨0, 0, 0, 0, 0⟩ rows).swap

lemma counted_hextileColors (rows : List (List UInt32)) :
    (hextileColors rows).Counted rows.flatten :=
  ((Colors.Counted.zero rfl rfl).countRows rows).swap

/-! ### Subrectangles of a row -/

def Subtile.Covers (t : Subtile) (i j : ℕ) : Prop :=
  t.x ≤ i ∧ i < t.x + t.w ∧ t.y ≤ j ∧ j < t.y + t.h

/-- The subrectangles of row `j` show its first `n` pixels, but for those of the background. -/
structure Shows (bg : UInt32) (j : ℕ) (row : List UInt32) (n : ℕ) (ts : List Subtile) : Prop where
  y_eq : ∀ t ∈ ts, t.y = j ∧ t.h = 1
  inside : ∀ t ∈ ts, 0 < t.w ∧ t.x + t.w ≤ n
  color : ∀ t ∈ ts, t.color ≠ bg ∧ ∀ i, t.Covers i j → row[i]? = some t.color
  covered : ∀ i < n, ∀ p, row[i]? = some p → p ≠ bg → ∃ t ∈ ts, t.Covers i j
  length_le : ts.length ≤ (row.take n).countP (· ≠ bg)

namespace Shows

variable {row : List UInt32} {ts : List Subtile}

lemma zero : Shows bg j row 0 [] where
  y_eq := List.forall_mem_nil _
  inside := List.forall_mem_nil _
  color := List.forall_mem_nil _
  covered i hi := absurd hi (Nat.not_lt_zero i)
  length_le := Nat.zero_le _

/-- A pixel of the background. -/
lemma skip (h : Shows bg j row n ts) (hn : row[n]? = some bg) : Shows bg j row (n + 1) ts where
  y_eq := h.y_eq
  inside t ht := ⟨(h.inside t ht).1, (h.inside t ht).2.trans n.le_succ⟩
  color := h.color
  covered i hi p hp hne := by
    rcases Nat.lt_succ_iff_lt_or_eq.mp hi with hi | rfl
    · exact h.covered i hi p hp hne
    · exact absurd (Option.some.inj (hp.symm.trans hn)) hne
  length_le := by
    rw [List.take_add_one, List.countP_append]
    exact h.length_le.trans (Nat.le_add_right _ _)

/-- The first pixel of a subrectangle. -/
lemma add (h : Shows bg j row n ts) (hn : row[n]? = some pixel) (hne : pixel ≠ bg) :
    Shows bg j row (n + 1) (ts ++ [⟨pixel, n, j, 1, 1⟩]) where
  y_eq := List.forall_mem_append.mpr ⟨h.y_eq, by simp⟩
  inside := List.forall_mem_append.mpr
    ⟨fun t ht => ⟨(h.inside t ht).1, (h.inside t ht).2.trans n.le_succ⟩, by simp⟩
  color := by
    refine List.forall_mem_append.mpr ⟨h.color, List.forall_mem_singleton.mpr ⟨hne, ?_⟩⟩
    rintro i ⟨hi, hi', -⟩
    obtain rfl : i = n := by simp only at hi hi'; omega
    exact hn
  covered i hi p hp hne' := by
    rcases Nat.lt_succ_iff_lt_or_eq.mp hi with hi | rfl
    · obtain ⟨t, ht, hcovers⟩ := h.covered i hi p hp hne'
      exact ⟨t, List.mem_append_left _ ht, hcovers⟩
    · exact ⟨_, List.mem_append_right _ (List.mem_singleton.mpr rfl), le_rfl, Nat.lt_succ_self _,
        le_rfl, Nat.lt_succ_self _⟩
  length_le := by
    rw [List.take_add_one, List.countP_append, hn, List.length_append]
    have hlast : [pixel].countP (· ≠ bg) = 1 := by simp [hne]
    exact Nat.add_le_add h.length_le hlast.ge

/-- One more pixel of the last subrectangle. -/
lemma widen {minX : ℕ} (h : Shows bg j row n (ts ++ [⟨pixel, minX, j, n - minX, 1⟩]))
    (hn : row[n]? = some pixel) :
    Shows bg j row (n + 1) (ts ++ [⟨pixel, minX, j, n + 1 - minX, 1⟩]) := by
  obtain ⟨hy, -⟩ := List.forall_mem_append.mp h.y_eq
  obtain ⟨hinside, hlast⟩ := List.forall_mem_append.mp h.inside
  obtain ⟨hcolor, hlastColor⟩ := List.forall_mem_append.mp h.color
  have hpos : 0 < n - minX := (List.forall_mem_singleton.mp hlast).1
  obtain ⟨hne, hsame⟩ := List.forall_mem_singleton.mp hlastColor
  constructor
  case y_eq => exact List.forall_mem_append.mpr ⟨hy, by simp⟩
  case inside =>
    refine List.forall_mem_append.mpr ⟨fun t ht => ?_, List.forall_mem_singleton.mpr ?_⟩
    · exact ⟨(hinside t ht).1, (hinside t ht).2.trans n.le_succ⟩
    · dsimp only
      omega
  case color =>
    refine List.forall_mem_append.mpr ⟨hcolor, List.forall_mem_singleton.mpr ⟨hne, ?_⟩⟩
    rintro i ⟨hi, hi', hj⟩
    by_cases hin : i = n
    · rw [hin]
      exact hn
    · refine hsame i ⟨hi, ?_, hj⟩
      simp only at hi hi' ⊢
      omega
  case covered =>
    intro i hi p hp hne'
    by_cases hin : i = n
    · refine ⟨_, List.mem_append_right _ (List.mem_singleton.mpr rfl), ?_⟩
      simp only [Subtile.Covers]
      omega
    · obtain ⟨t, ht, hcovers⟩ := h.covered i (by omega) p hp hne'
      rcases List.mem_append.mp ht with ht | ht
      · exact ⟨t, List.mem_append_left _ ht, hcovers⟩
      · obtain rfl := List.mem_singleton.mp ht
        refine ⟨_, List.mem_append_right _ (List.mem_singleton.mpr rfl), ?_⟩
        simp only [Subtile.Covers] at hcovers ⊢
        omega
  case length_le =>
    rw [List.take_add_one, List.countP_append]
    have hlen := h.length_le
    simp only [List.length_append, List.length_singleton] at hlen ⊢
    omega

end Shows

/-- The subrectangles so far, with the one that is not finished. -/
def ColouredRow.all (s : ColouredRow) (i j : ℕ) : List Subtile :=
  match s.color with
  | none => s.subtiles
  | some (color, minX) => s.subtiles ++ [⟨color, minX, j, i - minX, 1⟩]

lemma shows_next {s : ColouredRow} {row : List UInt32} (h : Shows bg j row i (s.all i j))
    (hi : row[i]? = some pixel) :
    Shows bg j row (i + 1) ((s.next bg j pixel i).all (i + 1) j) := by
  obtain ⟨color, subtiles⟩ := s
  have hone : i + 1 - i = 1 := Nat.add_sub_cancel_left i 1
  cases color with
  | none =>
    simp only [ColouredRow.next]
    by_cases hbg : pixel = bg
    · rw [if_pos hbg]
      exact h.skip (hbg ▸ hi)
    · rw [if_neg hbg]
      simp only [ColouredRow.all, hone]
      exact h.add hi hbg
  | some p =>
    obtain ⟨color, minX⟩ := p
    simp only [ColouredRow.next]
    by_cases hcolor : pixel ≠ color
    · rw [if_pos hcolor]
      by_cases hbg : pixel ≠ bg
      · rw [if_pos hbg]
        simp only [ColouredRow.all, hone]
        exact h.add hi hbg
      · rw [if_neg hbg]
        exact h.skip (not_not.mp hbg ▸ hi)
    · rw [if_neg hcolor]
      exact h.widen (not_not.mp hcolor ▸ hi)

/-- The scan from pixel `i` on, of a row whose first pixels are `front`. -/
lemma shows_scan {s : ColouredRow} {front row : List UInt32} (hfront : front.length = i)
    (h : Shows bg j (front ++ row) i (s.all i j)) :
    Shows bg j (front ++ row) (front ++ row).length (s.scan bg j i row) := by
  induction row generalizing s front i with
  | nil =>
    rw [List.append_nil] at h ⊢
    rw [hfront]
    exact h
  | cons pixel row ih =>
    have hpixel : (front ++ pixel :: row)[i]? = some pixel := by
      rw [← hfront, List.getElem?_append_right le_rfl, Nat.sub_self]
      rfl
    have hnext := shows_next h hpixel
    rw [List.append_cons] at hnext ⊢
    exact ih (by rw [List.length_append, hfront, List.length_singleton]) hnext

/-- In two colours, both ways to scan a row find the same subrectangles. -/
lemma plainRow_scan {row : List UInt32} (hne : fg ≠ bg) (hrow : ∀ p ∈ row, p = bg ∨ p = fg)
    (s : PlainRow) (i : ℕ) : s.scan fg j i row =
      ColouredRow.scan bg j ⟨s.minX.map (fg, ·), s.subtiles⟩ i row := by
  induction row generalizing s i with
  | nil =>
    obtain ⟨minX, subtiles⟩ := s
    cases minX <;> rfl
  | cons pixel row ih =>
    obtain ⟨hpixel, hrow⟩ := List.forall_mem_cons.mp hrow
    rw [PlainRow.scan, ColouredRow.scan, ih hrow]
    congr 1
    obtain ⟨minX, subtiles⟩ := s
    rcases hpixel with rfl | rfl
    · cases minX <;> simp [PlainRow.next, ColouredRow.next, hne.symm]
    · cases minX <;> simp [PlainRow.next, ColouredRow.next, hne]

/-! ### Subrectangles of a tile -/

lemma shows_row (bg : UInt32) (j : ℕ) (row : List UInt32) :
    Shows bg j row row.length (ColouredRow.scan bg j ⟨none, []⟩ 0 row) :=
  @shows_scan bg 0 j ⟨none, []⟩ [] row rfl Shows.zero

/-- With two colours or more, the subrectangles are those of the pixels that are not of the
background. -/
lemma subtiles_eq {rows : List (List UInt32)} (h : s.Counted rows.flatten)
    (hcolors : s.nColors = 2 ∨ s.nColors = 3) : s.subtiles rows =
      rows.zipIdx.flatMap fun p => ColouredRow.scan s.bg p.2 ⟨none, []⟩ 0 p.1 := by
  cases h with
  | two h bg fg ne all =>
    rw [Colors.subtiles, h]
    refine List.flatMap_congr fun p hp => ?_
    have hrow : ∀ q ∈ p.1, q = s.bg ∨ q = s.fg := fun q hq =>
      all q (List.mem_flatten.mpr ⟨p.1, (List.mem_zipIdx' hp).2 ▸ List.getElem_mem _, hq⟩)
    exact plainRow_scan ne hrow _ _
  | three h bg fg ne =>
    rw [Colors.subtiles, h]
    rfl
  | _ => omega

/-- There are not more subrectangles than pixels that are not of the background. -/
lemma length_flatMap_scan_le (bg : UInt32) (rows : List (List UInt32)) (k : ℕ) :
    ((rows.zipIdx k).flatMap fun p => ColouredRow.scan bg p.2 ⟨none, []⟩ 0 p.1).length ≤
      rows.flatten.countP (· ≠ bg) := by
  induction rows generalizing k with
  | nil => exact le_rfl
  | cons row rows ih =>
    rw [List.zipIdx_cons, List.flatMap_cons, List.length_append, List.flatten_cons,
      List.countP_append]
    have hrow := (shows_row bg k row).length_le
    rw [List.take_length] at hrow
    exact Nat.add_le_add hrow (ih (k + 1))

lemma flatMap_scan_ne_nil {rows : List (List UInt32)} (k : ℕ) (hpixel : pixel ∈ rows.flatten)
    (hne : pixel ≠ bg) :
    ((rows.zipIdx k).flatMap fun p => ColouredRow.scan bg p.2 ⟨none, []⟩ 0 p.1) ≠ [] := by
  induction rows generalizing k with
  | nil => cases hpixel
  | cons row rows ih =>
    rw [List.zipIdx_cons, List.flatMap_cons]
    intro hnil
    obtain ⟨hrow, hrows⟩ := List.append_eq_nil_iff.mp hnil
    rcases List.mem_append.mp (List.flatten_cons ▸ hpixel) with hmem | hmem
    · obtain ⟨i, hi⟩ := List.getElem?_of_mem hmem
      obtain ⟨hlt, -⟩ := List.getElem?_eq_some_iff.mp hi
      obtain ⟨t, ht, -⟩ := (shows_row bg k row).covered i hlt pixel hi hne
      dsimp only at hrow
      rw [hrow] at ht
      cases ht
    · exact ih (k + 1) hmem hrows

/-- The number of subrectangles of a tile fits a byte, and is not zero where there are two colours
or more. -/
lemma length_subtiles {rows : List (List UInt32)} (h : s.Counted rows.flatten)
    (hlen : rows.flatten.length ≤ 256) :
    (s.subtiles rows).length < 256 ∧
      ((s.subtiles rows).length ≠ 0 ↔ s.nColors = 2 ∨ s.nColors = 3) := by
  by_cases hcolors : s.nColors = 2 ∨ s.nColors = 3
  · rw [subtiles_eq h hcolors]
    obtain ⟨hbg, hfg, hne⟩ : s.bg ∈ rows.flatten ∧ s.fg ∈ rows.flatten ∧ s.fg ≠ s.bg := by
      cases h with
      | two _ bg fg ne _ => exact ⟨bg, fg, ne⟩
      | three _ bg fg ne => exact ⟨bg, fg, ne⟩
      | _ => omega
    have hle := length_flatMap_scan_le s.bg rows 0
    have hlt : rows.flatten.countP (· ≠ s.bg) < rows.flatten.length := by
      refine lt_of_le_of_ne List.countP_le_length fun heq => ?_
      simpa using List.countP_eq_length.mp heq s.bg hbg
    refine ⟨by omega, fun _ => hcolors, fun _ hzero => ?_⟩
    exact flatMap_scan_ne_nil 0 hfg hne (List.length_eq_zero_iff.mp hzero)
  · have hnil : s.subtiles rows = [] := by
      unfold Colors.subtiles
      split <;> first | rfl | omega
    rw [hnil]
    exact ⟨by decide, fun h => absurd rfl h, fun h => absurd h hcolors⟩

end Limbo.VncServer
