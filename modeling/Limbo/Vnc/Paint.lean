import Limbo.Vnc.Canvas

/-!
# Painting

What the operations of the bitmap write, as blocks of pixels, and what reading from the server does
to the connection.
-/

namespace Limbo.Vnc

open Lib

variable {I : Inflater} {c c' : Conn I} {l : Layout} {v : Conn I × Layout}

/-- From a state with the core `v` the program makes the writes `ws` and returns `b` with the core
`v'`, or throws at one of the writes. -/
abbrev Runs {β : Type} (x : Client I β) (v : Conn I × Layout) (ws : List (ℤ × UInt32)) (b : β)
    (v' : Conn I × Layout) : Prop := Does core bitmapPixels x v ws b v'

abbrev Throws {β : Type} (x : Client I β) (v : Conn I × Layout) : Prop := Fails core x v

/-! ### Reading -/

section Reading

variable {β : Type} {x : ConnM I β} {b : β}

lemma runs_rfb (h : x c = .ok b c') : Runs (rfb x) (c, l) [] b (c', l) := by
  apply Does.of_eq
  intro s hs
  obtain ⟨rfl, rfl⟩ := Prod.mk.inj hs
  refine ⟨{ s with conn := c' }, ?_, rfl, rfl⟩
  show rfb x s = _
  rw [rfb, h]

lemma throws_rfb {e : Exn} (h : x c = .error e c') : Throws (rfb x) (c, l) := by
  intro s hs
  obtain ⟨rfl, rfl⟩ := Prod.mk.inj hs
  refine ⟨e, { s with conn := c' }, ?_⟩
  show rfb x s = _
  rw [rfb, h]

/-- Reading leaves the bitmap alone. -/
lemma rfb_settles (x : ConnM I β) (c : Conn I) (l : Layout) :
    Throws (rfb x) (c, l) ∨ ∃ b c', x c = .ok b c' ∧ Runs (rfb x) (c, l) [] b (c', l) := by
  cases h : x c with
  | ok b c' => exact .inr ⟨b, c', rfl, runs_rfb h⟩
  | error e c' => exact .inl (throws_rfb h)

lemma runs_modify (g : Conn I → Conn I) : Runs (rfb (modify g)) (c, l) [] () (g c, l) := runs_rfb rfl

lemma runs_get : Runs (rfb get) (c, l) [] c (c, l) := runs_rfb rfl

lemma runs_getLayout : Runs getLayout (c, l) [] l (c, l) := by
  apply Does.of_eq
  intro s hs
  exact ⟨s, congrArg (EStateM.Result.ok · s) (Prod.mk.inj hs).2, hs, rfl⟩

lemma runs_if {P : Prop} [Decidable P] {x : Client I Unit} {ws : List (ℤ × UInt32)}
    (h : P → Runs x v ws () v) :
    Runs (if P then x else pure ()) v (if P then ws else []) () v := by
  by_cases hP : P
  · rw [if_pos hP, if_pos hP]
    exact h hP
  · rw [if_neg hP, if_neg hP]
    exact Does.pure () v

/-- The bytes that are next on the stream are read. -/
lemma readFully_append {bs rest : List UInt8} {n : ℤ} (hn : n = bs.length)
    (h : c.is = bs ++ rest) : readFully n c = .ok bs (c.next rest) := by
  have hlong : ¬ (c.is.length : ℤ) < n := by
    rw [h, List.length_append]
    omega
  have hneg : ¬ n < 0 := by omega
  rw [readFully, if_neg hneg, if_neg hlong, hn, Int.toNat_natCast, h, List.take_left,
    List.drop_left]

/-- `readFully` throws or reads the bytes that are next on the stream. -/
lemma readFully_settles (n : ℤ) (c : Conn I) :
    (∃ e, readFully n c = .error e c) ∨ ∃ bs rest, n = bs.length ∧ c.is = bs ++ rest ∧
      readFully n c = .ok bs (c.next rest) := by
  by_cases hneg : n < 0
  · exact .inl ⟨_, if_pos hneg⟩
  · by_cases hlong : (c.is.length : ℤ) < n
    · exact .inl ⟨_, by rw [readFully, if_neg hneg, if_pos hlong]⟩
    · have hn : n = (c.is.take n.toNat).length := by
        rw [List.length_take]
        omega
      exact .inr ⟨_, c.is.drop n.toNat, hn, (List.take_append_drop _ _).symm,
        readFully_append hn (List.take_append_drop _ _).symm⟩

lemma readUnsignedByte_append {b : UInt8} {rest : List UInt8} (h : c.is = b :: rest) :
    readUnsignedByte c = .ok b.toNat (c.next rest) := by
  have hread : readFully 1 c = .ok [b] (c.next rest) := readFully_append rfl h
  show (readFully 1 >>= fun bs => pure (beNat bs)) c = _
  rw [bind_ok hread]
  show EStateM.Result.ok (256 * 0 + b.toNat) _ = _
  rw [Nat.mul_zero, Nat.zero_add]

lemma readUnsignedShort_append {n : ℕ} {rest : List UInt8} (hn : n < 65536)
    (h : c.is = beBytes 2 n ++ rest) :
    readUnsignedShort c = .ok n (c.next rest) := by
  have hread : readFully 2 c = .ok (beBytes 2 n) (c.next rest) :=
    readFully_append (by rw [length_beBytes]; rfl) h
  show (readFully 2 >>= fun bs => pure (beNat bs)) c = _
  rw [bind_ok hread]
  show EStateM.Result.ok (beNat (beBytes 2 n)) _ = _
  rw [beNat_beBytes hn]

lemma readInt_append {z : ℤ} {rest : List UInt8} (hlow : -2147483648 ≤ z) (hhigh : z < 2147483648)
    (h : c.is = intBytes z ++ rest) : readInt c = .ok z (c.next rest) := by
  have hread : readFully 4 c = .ok (intBytes z) (c.next rest) :=
    readFully_append (by rw [length_intBytes]; rfl) h
  show (readFully 4 >>= fun bs => pure (wrap32 (beNat bs))) c = _
  rw [bind_ok hread]
  show EStateM.Result.ok (wrap32 (beNat (intBytes z))) _ = _
  rw [wrap32_beNat_intBytes hlow hhigh]

end Reading

/-! ### Blocks of pixels -/

/-- A block of pixels of the frame with their colours. -/
structure Block where
  x : ℕ
  y : ℕ
  w : ℕ
  h : ℕ
  color : ℕ → ℕ → UInt32

/-- Writes to `w` cells in a row. -/
def rowWrites (o : ℤ) (w : ℕ) (f : ℕ → UInt32) : List (ℤ × UInt32) :=
  (List.range w).map fun i : ℕ => (o + i, f i)

/-- The writes of a block, row by row. -/
def Block.writes (l : Layout) (b : Block) : List (ℤ × UInt32) :=
  (List.range b.h).flatMap fun j : ℕ =>
    rowWrites (l.offset b.x (b.y + j)) b.w fun i => b.color i j

def blockWrites (l : Layout) (bs : List Block) : List (ℤ × UInt32) := bs.flatMap (Block.writes l)

lemma mem_rowWrites {o : ℤ} {w : ℕ} {f : ℕ → UInt32} {p : ℤ × UInt32} :
    p ∈ rowWrites o w f ↔ ∃ i < w, p = (o + i, f i) := by
  simp [rowWrites, eq_comm]

lemma Block.mem_writes {b : Block} {p : ℤ × UInt32} :
    p ∈ b.writes l ↔ ∃ j < b.h, ∃ i < b.w, p = (l.offset b.x (b.y + j) + i, b.color i j) := by
  simp [Block.writes, mem_rowWrites]

lemma runs_setPixel (i : ℤ) (color : UInt32) : Runs (I := I) (setPixel i color) v [(i, color)] () v where
  returns := by
    intro s a hs h
    rw [applyWrites_cons] at h
    obtain ⟨m, hm, hrest⟩ := Option.bind_eq_some_iff.mp h
    obtain rfl : m = a := Option.some.inj hrest
    unfold writeAt at hm
    split_ifs at hm with hi
    cases hm
    exact ⟨{ s with bitmapData := s.bitmapData.set i.toNat color }, if_pos hi, hs, rfl⟩
  throws := by
    intro s _ h
    by_cases hi : 0 ≤ i ∧ i < (bitmapPixels s).length
    · have hall : ∀ w ∈ [(i, color)], 0 ≤ w.1 ∧ w.1 < (bitmapPixels s).length := by simpa using hi
      exact absurd h (applyWrites_ne_none.mpr hall)
    · exact ⟨_, _, if_neg hi⟩

lemma runs_row (o : ℤ) (w : ℕ) (f : ℕ → UInt32) :
    Runs (I := I) (loop w fun k => setPixel (o + k) (f k)) v (rowWrites o w f) () v := by
  have hrow : rowWrites o w f = (List.range w).flatMap fun k : ℕ => [(o + (k : ℤ), f k)] :=
    List.map_eq_flatMap
  rw [hrow]
  apply Does.loop_keeps
  intro k _
  exact runs_setPixel _ _

/-- With at least one cell, the range check throws when one of the writes would. -/
lemma runs_checked {o : ℤ} {w : ℕ} (hw : 0 < w) (f : ℕ → UInt32) :
    Runs (I := I) (rangeCheck o w >>= fun _ => loop w fun k => setPixel (o + k) (f k)) v
      (rowWrites o w f) () v where
  returns := by
    intro s a hs h
    have hin := applyWrites_ne_none.mp (Option.ne_none_iff_exists'.mpr ⟨a, h⟩)
    have hfirst := hin (o + (0 : ℕ), f 0) (mem_rowWrites.mpr ⟨0, hw, rfl⟩)
    have hlast := hin (o + (w - 1 : ℕ), f (w - 1)) (mem_rowWrites.mpr ⟨w - 1, by omega, rfl⟩)
    have hrange : 0 ≤ o ∧ o + w ≤ (bitmapPixels s).length := by
      constructor
      · simpa using hfirst.1
      · have := hlast.2
        push_cast [Nat.cast_sub hw] at this
        omega
    have hcheck : rangeCheck o w s = .ok () s := if_pos hrange
    rw [bind_ok hcheck]
    exact (runs_row o w f).returns s a hs h
  throws := by
    intro s hs h
    by_cases hrange : 0 ≤ o ∧ o + w ≤ (bitmapPixels s).length
    · have hcheck : rangeCheck o w s = .ok () s := if_pos hrange
      rw [bind_ok hcheck]
      exact (runs_row o w f).throws s hs h
    · have hcheck : rangeCheck o w s = .error .indexOutOfBounds s := if_neg hrange
      exact ⟨_, _, bind_error hcheck⟩

/-- What `drawRect` writes. -/
def drawWrites (l : Layout) (b : Block) : List (ℤ × UInt32) :=
  match l with
  | .full .. => b.writes l
  | .large .. => []

lemma runs_drawRect (x y w h : ℕ) (color : UInt32) :
    Runs (drawRect x y w h color) (c, l) (drawWrites l ⟨x, y, w, h, fun _ _ => color⟩) ()
      (c, l) := by
  apply Does.bind_read runs_getLayout
  cases l with
  | large xoffset yoffset bitmapwidth bitmapheight => exact Does.pure () _
  | full framebufferwidth framebufferheight =>
    apply Does.loop_keeps
    intro j _
    have hoffset : wrap32 ((Layout.full framebufferwidth framebufferheight).offset x y +
        j * framebufferwidth) = (Layout.full framebufferwidth framebufferheight).offset x (y + j) := by
      show wrap32 (wrap32 _ + _) = wrap32 _
      rw [wrap32_wrap32_add]
      congr 1
      ring
    show Runs (if w > 10 then _ else _) _ _ _ _
    rw [hoffset]
    by_cases hw : w > 10
    · rw [if_pos hw]
      exact runs_checked (by omega) fun _ => color
    · rw [if_neg hw]
      exact runs_row _ w fun _ => color

/-! ### Where the blocks lie -/

/-- The rectangle is in the part of the frame that the bitmap has. -/
def Layout.Holds (l : Layout) (x y w h : ℕ) : Prop :=
  match l with
  | full framebufferwidth framebufferheight => x + w ≤ framebufferwidth ∧ y + h ≤ framebufferheight
  | large xoffset yoffset bitmapwidth bitmapheight =>
    0 ≤ x - xoffset ∧ x - xoffset + w ≤ bitmapwidth ∧ 0 ≤ y - yoffset ∧
      y - yoffset + h ≤ bitmapheight

/-- A valid rectangle of the large bitmap is in it. -/
lemma Layout.holds_of_validDraw {xoffset yoffset : ℤ} {bitmapwidth bitmapheight x y w h : ℕ}
    (hvalid : (large xoffset yoffset bitmapwidth bitmapheight).validDraw x y w h = true) :
    (large xoffset yoffset bitmapwidth bitmapheight).Holds x y w h := by
  simpa [validDraw, Holds, and_assoc] using hvalid

lemma cell_mem {X Y w h : ℤ} (hX : 0 ≤ X) (hXw : X < w) (hY : 0 ≤ Y) (hYh : Y < h) :
    0 ≤ X + Y * w ∧ X + Y * w < w * h := by
  have hrow : Y * w + w ≤ h * w := by
    calc Y * w + w = (Y + 1) * w := by ring
      _ ≤ h * w := Int.mul_le_mul_of_nonneg_right hYh (by omega)
  have hpos : 0 ≤ Y * w := mul_nonneg hY (by omega)
  constructor
  · omega
  · rw [mul_comm w h]
    omega

/-- In the part of the frame that the bitmap has, no offset overflows. -/
lemma Layout.Holds.offset_full {fw fh x y w h j : ℕ} (hold : (full fw fh).Holds x y w h)
    (hsize : fw * fh < 2147483648) (hw : 0 < w) (hj : j < h) :
    (full fw fh).offset x (y + j) = x + (y + j) * fw := by
  obtain ⟨hx, hy⟩ := hold
  have hcell := cell_mem (X := x) (Y := y + j) (w := fw) (h := fh) (by omega) (by omega)
    (by omega) (by omega)
  have hsize' : (fw : ℤ) * fh < 2147483648 := by exact_mod_cast hsize
  exact wrap32_of_range (by omega) (by omega)

/-- The cells of a rectangle that the bitmap has are cells of the array. -/
lemma Layout.Holds.offset_mem {x y w h i j : ℕ} (hold : l.Holds x y w h)
    (hsize : l.bitmapwidth * l.bitmapheight < 2147483648) (hi : i < w) (hj : j < h) :
    0 ≤ l.offset x (y + j) + i ∧ l.offset x (y + j) + i < l.bitmapwidth * l.bitmapheight := by
  cases l with
  | full fw fh =>
    rw [hold.offset_full hsize (by omega) hj]
    obtain ⟨hx, hy⟩ := hold
    have hcell := cell_mem (X := x + i) (Y := y + j) (w := fw) (h := fh) (by omega) (by omega)
      (by omega) (by omega)
    rwa [add_right_comm] at hcell
  | large xo yo bw bh =>
    obtain ⟨hx, hxw, hy, hyh⟩ := hold
    have hcell := cell_mem (X := x - xo) (Y := y + j - yo) (w := bw) (h := bh) (by omega)
      (by omega) (by omega) (by omega)
    have hcell' := cell_mem (X := x - xo + i) (Y := y + j - yo) (w := bw) (h := bh) (by omega)
      (by omega) (by omega) (by omega)
    have hsize' : (bw : ℤ) * bh < 2147483648 := by exact_mod_cast hsize
    have hoffset : (large xo yo bw bh).offset x (y + j) = x - xo + (y + j - yo) * bw := by
      show wrap32 _ = _
      rw [wrap32_of_range (by omega) (by omega)]
      ring
    rw [hoffset, add_right_comm]
    exact hcell'

/-- All writes of the blocks are to cells of the array. -/
def Layout.InArray (l : Layout) (ws : List (ℤ × UInt32)) : Prop :=
  ∀ p ∈ ws, 0 ≤ p.1 ∧ p.1 < l.bitmapwidth * l.bitmapheight

lemma Block.inArray {b : Block} (hold : l.Holds b.x b.y b.w b.h)
    (hsize : l.bitmapwidth * l.bitmapheight < 2147483648) : l.InArray (b.writes l) := by
  intro p hp
  obtain ⟨j, hj, i, hi, rfl⟩ := mem_writes.mp hp
  exact hold.offset_mem hsize hi hj

/-- With all writes in the array, the program returns. -/
lemma Runs.ok {β : Type} {x : Client I β} {ws : List (ℤ × UInt32)} {b : β} {v' : Conn I × Layout}
    {s : VncCanvas I} (h : Runs x (core s) ws b v') (hin : s.bitmapData.layout.InArray ws) :
    ∃ t, x s = .ok b t ∧ core t = v' ∧ applyWrites ws (bitmapPixels s) = some (bitmapPixels t) := by
  have hlen : (bitmapPixels s).length = _ := s.bitmapData.length_bitmapPixels
  have hok : applyWrites ws (bitmapPixels s) ≠ none := by
    apply applyWrites_ne_none.mpr
    intro p hp
    have hmem := hin p hp
    rw [hlen]
    exact_mod_cast hmem
  obtain ⟨a, ha⟩ := Option.ne_none_iff_exists'.mp hok
  obtain ⟨t, ht, hcore, harray⟩ := h.returns s a rfl ha
  exact ⟨t, ht, hcore, by rw [harray, ha]⟩

end Limbo.Vnc
