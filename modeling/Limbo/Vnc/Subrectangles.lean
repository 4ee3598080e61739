import Limbo.Vnc.Touched

/-!
# Subrectangles for any stream

The subrectangles that the handlers of RRE, CoRRE and Hextile read from any stream, and the cells
that they are drawn to.
-/

namespace Limbo.Vnc

open Lib

variable {I : Inflater} {c c' : Conn I} {l : Layout} {m : ColorModel}
  {x y w h tx ty tw th : ℕ} {rest : List UInt8}

/-! ### One step of a handler -/

section Steps

variable {β : Type} {v v₁ : Conn I × Layout} {f : β → Client I Unit}
  {P : List (ℤ × UInt32) → Conn I × Layout → Prop}

/-- A read in front of a program that throws or runs. -/
lemma ends_read {a : Client I β} {b : β} (ha : Runs a v [] b v₁)
    (h : Throws (f b) v₁ ∨ ∃ ws v', Runs (f b) v₁ ws () v' ∧ P ws v') :
    Throws (a >>= f) v ∨ ∃ ws v', Runs (a >>= f) v ws () v' ∧ P ws v' := by
  rcases h with hfail | ⟨ws, v', hrun, hP⟩
  · exact .inl (ha.bind_fails hfail)
  · exact .inr ⟨ws, v', ha.bind_read hrun, hP⟩

/-- Something drawn in front of a program that throws or runs. -/
lemma ends_draw {a b : Client I Unit} {ws₀ : List (ℤ × UInt32)} (ha : Runs a v ws₀ () v₁)
    (h : Throws b v₁ ∨ ∃ ws v', Runs b v₁ ws () v' ∧ P (ws₀ ++ ws) v') :
    Throws (a >>= fun _ => b) v ∨ ∃ ws v', Runs (a >>= fun _ => b) v ws () v' ∧ P ws v' := by
  rcases h with hfail | ⟨ws, v', hrun, hP⟩
  · exact .inl (ha.bind_fails hfail)
  · exact .inr ⟨ws₀ ++ ws, v', ha.bind hrun, hP⟩

end Steps

/-! ### RRE and CoRRE -/

/-- The number of subrectangles in RRE data. -/
def rreCount (is : List UInt8) : ℕ := (wrap32 (beNat (is.take 4))).toNat

/-- The subrectangle in these bytes, in a rectangle at `(x, y)`. -/
def rreBlock (m : ColorModel) (size x y : ℕ) (bs : List UInt8) : Block :=
  let coords := bs.drop m.bpp
  ⟨x + coordinate size 0 coords, y + coordinate size 1 coords, coordinate size 2 coords,
    coordinate size 3 coords, fun _ _ => m.paintColor bs⟩

/-- The bytes of the subrectangle `j` of RRE data. -/
def rreBytes (m : ColorModel) (size : ℕ) (is : List UInt8) (j : ℕ) : List UInt8 :=
  (is.drop (4 + m.bpp + j * (m.bpp + 4 * size))).take (m.bpp + 4 * size)

/-- The cells of the subrectangles. -/
def rreSubrectCells (l : Layout) (m : ColorModel) (size x y : ℕ) (is : List UInt8) : Set ℤ :=
  {k | ∃ j < rreCount is, l.Full ∧
    k ∈ blockCells l (rreBlock m size x y (rreBytes m size is j)).x
      (rreBlock m size x y (rreBytes m size is j)).y (rreBlock m size x y (rreBytes m size is j)).w
      (rreBlock m size x y (rreBytes m size is j)).h}

/-- The body of the loop of `handleRRERectWith`. -/
def rreRound (m : ColorModel) (size x y j : ℕ) : Client I Unit := do
  let bs ← rfb (rreBufAt (wrap32 (j * (m.bpp + 4 * size : ℕ))) (m.bpp + 4 * size))
  let coords := bs.drop m.bpp
  drawRect (x + coordinate size 0 coords) (y + coordinate size 1 coords)
    (coordinate size 2 coords) (coordinate size 3 coords) (m.paintColor bs)

lemma runs_rreRound {size j : ℕ} {bs : List UInt8}
    (hread : rreBufAt (wrap32 (j * (m.bpp + 4 * size : ℕ))) (m.bpp + 4 * size) c = .ok bs c) :
    Runs (rreRound m size x y j) (c, l) (drawWrites l (rreBlock m size x y bs)) () (c, l) := by
  apply Does.bind_read (runs_rfb hread)
  exact runs_drawRect _ _ _ _ _

lemma rreRound_settles (size j : ℕ) : Throws (rreRound m size x y j) (c, l) ∨
    ∃ ws, Runs (rreRound m size x y j) (c, l) ws () (c, l) := by
  by_cases hrange : 0 ≤ wrap32 (j * (m.bpp + 4 * size : ℕ)) ∧
      wrap32 (j * (m.bpp + 4 * size : ℕ)) + (m.bpp + 4 * size : ℕ) ≤ c.rreBuf.length
  · exact .inr ⟨_, runs_rreRound (if_pos hrange)⟩
  · exact .inl ((throws_rfb (if_neg hrange)).bind _)

/-- If the bytes of all subrectangles are more than a number can say, then one of them is at a
negative index of the buffer. -/
lemma throws_rreRounds {size n : ℕ} (hsize : size = 1 ∨ size = 2)
    (hn : 4294967296 ≤ n * (m.bpp + 8)) :
    Throws (I := I) (Lib.loop n (rreRound m size x y)) (c, l) := by
  have hbpp : m.bpp = 1 ∨ m.bpp = 4 := by cases m <;> decide
  obtain ⟨j, hj, hlow, hhigh⟩ : ∃ j < n, 2147483648 ≤ j * (m.bpp + 4 * size) ∧
      j * (m.bpp + 4 * size) < 4294967296 := by
    refine ⟨2147483648 / (m.bpp + 4 * size) + 1, ?_, ?_, ?_⟩ <;>
      rcases hbpp with hbpp | hbpp <;> rcases hsize with rfl | rfl <;> rw [hbpp] at hn ⊢ <;> omega
  apply loop_fails hj fun j' _ => rreRound_settles size j'
  have hneg : wrap32 (j * (m.bpp + 4 * size : ℕ)) < 0 := by
    have hcast : (j : ℤ) * (m.bpp + 4 * size : ℕ) = (j * (m.bpp + 4 * size) : ℕ) := by push_cast; ring
    rw [hcast, wrap32]
    omega
  have hrange : ¬ (0 ≤ wrap32 (j * (m.bpp + 4 * size : ℕ)) ∧
      wrap32 (j * (m.bpp + 4 * size : ℕ)) + (m.bpp + 4 * size : ℕ) ≤ c.rreBuf.length) := by
    omega
  exact (throws_rfb (if_neg hrange)).bind _

lemma readInt_settles (c : Conn I) : (∃ e c', readInt c = .error e c') ∨
    ∃ bs rest, bs.length = 4 ∧ c.is = bs ++ rest ∧
      readInt c = .ok (wrap32 (beNat bs)) (c.next rest) := by
  rcases readFully_settles 4 c with ⟨e, herr⟩ | ⟨bs, rest, hlen, his, hread⟩
  · exact .inl ⟨e, c, bind_error herr⟩
  · exact .inr ⟨bs, rest, by omega, his, bind_ok hread⟩

lemma fillRreBuf_settles (n : ℤ) (c : Conn I) : (∃ e c', fillRreBuf n c = .error e c') ∨
    ∃ bs rest, n = bs.length ∧ c.is = bs ++ rest ∧
      fillRreBuf n c = .ok () (c.fillRreBuf bs rest) := by
  rcases readFully_settles n c with ⟨e, herr⟩ | ⟨bs, rest, hlen, his, hread⟩
  · exact .inl ⟨e, c, bind_error herr⟩
  · exact .inr ⟨bs, rest, hlen, his, fillRreBuf_append hlen his⟩

/-- The subrectangle `j` is read from the buffer, which has the bytes of all of them. -/
lemma rreBufAt_rreBytes {size n j : ℕ} {head data : List UInt8} (hsize : size = 1 ∨ size = 2)
    (hhead : head.length = 4 + m.bpp) (hdata : data.length = n * (m.bpp + 8))
    (hn : n * (m.bpp + 8) < 2147483648) (hj : j < n) :
    rreBufAt (wrap32 (j * (m.bpp + 4 * size : ℕ))) (m.bpp + 4 * size) (c.fillRreBuf data rest) =
      .ok (rreBytes m size (head ++ (data ++ rest)) j) (c.fillRreBuf data rest) := by
  have hle : (j + 1) * (m.bpp + 4 * size) ≤ data.length := by
    rw [hdata]
    exact Nat.mul_le_mul hj (by omega)
  rw [Nat.succ_mul] at hle
  have hcast : (j : ℤ) * (m.bpp + 4 * size : ℕ) = (j * (m.bpp + 4 * size) : ℕ) := by
    push_cast
    ring
  have hbuf : (c.fillRreBuf data rest).rreBuf = data ++ c.rreBuf.drop data.length := rfl
  have hrange : 0 ≤ ((j * (m.bpp + 4 * size) : ℕ) : ℤ) ∧
      ((j * (m.bpp + 4 * size) : ℕ) : ℤ) + (m.bpp + 4 * size : ℕ) ≤
        (c.fillRreBuf data rest).rreBuf.length := by
    rw [hbuf, List.length_append]
    omega
  rw [hcast, wrap32_of_range (by omega) (by omega), rreBufAt, if_pos hrange, Int.toNat_natCast,
    hbuf, rreBytes, ← hhead, List.drop_length_add_append,
    List.drop_append_of_le_length (by omega), List.drop_append_of_le_length (by omega),
    List.take_append_of_le_length (by rw [List.length_drop]; omega),
    List.take_append_of_le_length (by rw [List.length_drop]; omega)]

/-- A length that is not negative is the right one, or has gone through all numbers. -/
lemma length_of_wrap32 {n : ℤ} {b k : ℕ} (hn : 0 < n.toNat) (hk : wrap32 (n * (b + 8)) = k) :
    n.toNat * (b + 8) < 2147483648 ∧ k = n.toNat * (b + 8) ∨ 4294967296 ≤ n.toNat * (b + 8) := by
  obtain ⟨n, rfl⟩ := Int.eq_ofNat_of_zero_le (show 0 ≤ n by omega)
  have hcast : (n : ℤ) * (b + 8) = (n * (b + 8) : ℕ) := by
    push_cast
    ring
  rw [Int.toNat_natCast]
  rw [hcast] at hk
  generalize n * (b + 8) = p at hk
  unfold wrap32 at hk
  omega

/-- The cells of an RRE rectangle: its background, and its subrectangles. -/
def rreCells (l : Layout) (m : ColorModel) (size x y w h : ℕ) (is : List UInt8) : Set ℤ :=
  {k | l.Full ∧ k ∈ blockCells l x y w h} ∪ rreSubrectCells l m size x y is

lemma settles_handleRRERectWith {size : ℕ} (hsize : size = 1 ∨ size = 2) (c : Conn I) :
    Throws (handleRRERectWith size x y w h) (c, l) ∨
      ∃ ws v', Runs (handleRRERectWith size x y w h) (c, l) ws () v' ∧
        Touches l ws (rreCells l c.colorModel size x y w h c.is) := by
  set m := c.colorModel
  apply ends_read (P := fun ws _ => Touches l ws _) runs_getLayout
  apply ends_read runs_getColorModel
  rcases readInt_settles c with ⟨e, c₁, herr⟩ | ⟨count, is₁, hcount, his, hread⟩
  · exact .inl ((throws_rfb herr).bind _)
  apply ends_read (runs_rfb hread)
  rcases readFully_settles m.bpp (c.next is₁) with ⟨e, herr⟩ | ⟨bg, is₂, hbg, his₁, hread₁⟩
  · exact .inl ((throws_rfb herr).bind _)
  apply ends_read (runs_rfb hread₁)
  obtain rfl : is₁ = bg ++ is₂ := his₁
  apply ends_draw (runs_if fun _ => runs_drawRect x y w h (m.paintColor bg))
  set n := wrap32 (beNat count)
  rcases fillRreBuf_settles (wrap32 (n * (m.bpp + 8))) (c.next is₂) with
    ⟨e, c₁, herr⟩ | ⟨data, is₃, hdata, his₂, hread₂⟩
  · exact .inl ((throws_rfb herr).bind _)
  apply ends_read (runs_rfb hread₂)
  obtain rfl : is₂ = data ++ is₃ := his₂
  have hn : rreCount c.is = n.toNat := by
    rw [rreCount, his, List.take_left' hcount]
  by_cases hvalid : l.validDraw x y w h
  · rw [if_pos hvalid, if_pos hvalid]
    show Throws (Lib.loop n.toNat (rreRound m size x y)) _ ∨
      ∃ ws v', Runs (Lib.loop n.toNat (rreRound m size x y)) _ ws () v' ∧ _
    by_cases hsmall : n.toNat * (m.bpp + 8) < 2147483648
    · have hround : ∀ j < n.toNat, Runs (rreRound m size x y j)
          ((c.next (data ++ is₃)).fillRreBuf data is₃, l)
          (drawWrites l (rreBlock m size x y (rreBytes m size c.is j))) ()
          ((c.next (data ++ is₃)).fillRreBuf data is₃, l) := by
        intro j hj
        obtain ⟨-, hlen⟩ :=
          (length_of_wrap32 (Nat.zero_lt_of_lt hj) hdata).resolve_right (by omega)
        have hhead : (count ++ bg).length = 4 + m.bpp := by
          rw [List.length_append]
          omega
        have hat : _ = EStateM.Result.ok (rreBytes m size (count ++ bg ++ (data ++ is₃)) j)
            ((c.next (data ++ is₃)).fillRreBuf data is₃) :=
          rreBufAt_rreBytes hsize hhead hlen hsmall hj
        rw [List.append_assoc, ← his] at hat
        exact runs_rreRound hat
      refine .inr ⟨_, _, Does.loop_keeps hround, (touches_drawWrites _).append ?_⟩
      have hsub : Touches l ((List.range n.toNat).flatMap fun j =>
          drawWrites l (rreBlock m size x y (rreBytes m size c.is j))) _ :=
        touches_flatMap fun j _ => touches_drawWrites _
      rw [rreSubrectCells, hn]
      simp only [List.mem_range] at hsub
      exact hsub
    · have hpos : 0 < n.toNat := by
        by_contra hzero
        rw [Nat.eq_zero_of_not_pos hzero, Nat.zero_mul] at hsmall
        exact hsmall (by decide)
      have hlarge := (length_of_wrap32 hpos hdata).resolve_left fun h => hsmall h.1
      exact .inl (throws_rreRounds hsize hlarge)
  · -- only the large bitmap has parts of the frame that it does not draw
    have hpart : ¬ l.Full := by
      cases l with
      | full fw fh => exact absurd rfl hvalid
      | large xo yo bw bh => exact id
    rw [if_neg hvalid, if_neg hvalid]
    refine .inr ⟨[], _, Does.pure () _, List.forall_mem_nil _, fun hfull => absurd hfull hpart⟩

/-! ### Hextile -/

/-- A Raw rectangle that is read to its end has its pixels on the stream. -/
lemma handleRawRect_parses (c : Conn I) : Throws (handleRawRect x y w h) (c, l) ∨
    ∃ (pixels : List Pixel) (rest : List UInt8), pixels.length = w * h ∧
      c.is = pixels.flatMap (Pixel.bytes c.colorModel) ++ rest := by
  set m := c.colorModel
  have hround : ∀ j (_ : List (ℤ × UInt32)) (v : Conn I × Layout), j < h →
      (∃ pixels : List Pixel, pixels.length = j * w ∧
        c.is = pixels.flatMap (Pixel.bytes m) ++ v.1.is) →
      Throws (do
        let row ← rfb (readFully (w * m.bpp : ℕ))
        if l.validDraw x y w h then drawRow m (l.offset x (y + j)) w row else pure ()) v ∨
      ∃ ws v', Runs (do
        let row ← rfb (readFully (w * m.bpp : ℕ))
        if l.validDraw x y w h then drawRow m (l.offset x (y + j)) w row else pure ()) v ws () v' ∧
        ∃ pixels : List Pixel, pixels.length = (j + 1) * w ∧
          c.is = pixels.flatMap (Pixel.bytes m) ++ v'.1.is := by
    rintro j - ⟨c', l'⟩ - ⟨pixels, hlen, his⟩
    rcases readFully_settles (w * m.bpp : ℕ) c' with ⟨e, herr⟩ | ⟨bs, rest, hbs, his', hread⟩
    · exact .inl ((throws_rfb herr).bind _)
    · obtain ⟨row, hrow, hbytes⟩ := exists_items (fun bs => Pixel.exists_bytes m)
        (show bs.length = w * m.bpp by exact_mod_cast hbs.symm)
      refine .inr ⟨_, (c'.next rest, l'), Does.bind_read (runs_rfb hread)
        (runs_if fun _ => runs_row _ _ _), pixels ++ row, ?_, ?_⟩
      · rw [List.length_append, hlen, hrow, Nat.succ_mul]
      · rw [List.flatMap_append, hbytes, List.append_assoc, his]
        exact congrArg _ his'
  have hstart : ∃ pixels : List Pixel, pixels.length = 0 * w ∧
      c.is = pixels.flatMap (Pixel.bytes m) ++ (c, l).1.is := ⟨[], (Nat.zero_mul w).symm, rfl⟩
  rcases loop_settles (J := fun j _ (v : Conn I × Layout) => ∃ pixels : List Pixel,
      pixels.length = j * w ∧ c.is = pixels.flatMap (Pixel.bytes m) ++ v.1.is)
      hround hstart with hfail | ⟨ws, v', -, pixels, hlen, his⟩
  · exact .inl (runs_getLayout.bind_fails (runs_getColorModel.bind_fails hfail))
  · exact .inr ⟨pixels, v'.1.is, by rw [hlen, mul_comm], his⟩

lemma HextileSubrect.exists_bytes {bs : List UInt8} (h : bs.length = 2) :
    ∃ r : HextileSubrect, r.bytes = bs := by
  obtain ⟨b1, b2, rfl⟩ := List.length_eq_two.mp h
  have hb1 := b1.toNat_lt
  have hb2 := b2.toNat_lt
  refine ⟨⟨⟨b1.toNat / 16, by omega⟩, ⟨b1.toNat % 16, by omega⟩, ⟨b2.toNat / 16, by omega⟩,
    ⟨b2.toNat % 16, by omega⟩⟩, ?_⟩
  show [UInt8.ofNat (16 * (b1.toNat / 16) + b1.toNat % 16),
    UInt8.ofNat (16 * (b2.toNat / 16) + b2.toNat % 16)] = _
  rw [Nat.div_add_mod, Nat.div_add_mod, UInt8.ofNat_toNat, UInt8.ofNat_toNat]

lemma readUnsignedByte_settles (c : Conn I) : (∃ e c', readUnsignedByte c = .error e c') ∨
    ∃ b rest, c.is = b :: rest ∧ readUnsignedByte c = .ok b.toNat (c.next rest) := by
  rcases readFully_settles 1 c with ⟨e, herr⟩ | ⟨bs, rest, hlen, his, -⟩
  · exact .inl ⟨e, c, bind_error herr⟩
  · obtain ⟨b, rfl⟩ := List.length_eq_one_iff.mp (show bs.length = 1 by omega)
    exact .inr ⟨b, rest, his, readUnsignedByte_append his⟩

/-- The colour that is sent if a bit says so. -/
lemma specified_settles {P : Prop} [Decidable P] (set : Conn I → UInt32 → Conn I) (c : Conn I) :
    Throws (if P then do
        let bs ← rfb (readFully m.bpp)
        rfb (modify fun c => set c (m.paintColor bs))
      else pure ()) (c, l) ∨
    ∃ (p : Pixel) (rest : List UInt8), c.is = (if P then p.bytes m else []) ++ rest := by
  by_cases hP : P
  · simp only [if_pos hP]
    rcases readFully_settles m.bpp c with ⟨e, herr⟩ | ⟨bs, rest, hlen, his, -⟩
    · exact .inl ((throws_rfb herr).bind _)
    · obtain ⟨p, rfl⟩ := Pixel.exists_bytes m (show bs.length = m.bpp by exact_mod_cast hlen.symm)
      exact .inr ⟨p, rest, his⟩
  · exact .inr ⟨default, c.is, by rw [if_neg hP, List.nil_append]⟩

/-- The bytes of subrectangles, with or without a colour each. -/
lemma exists_subrects (t : HextileTile) {n : ℕ} {bs : List UInt8}
    (h : bs.length = n * if t.SubrectsColoured then m.bpp + 2 else 2) :
    ∃ subrects : List (Pixel × HextileSubrect), subrects.length = n ∧
      subrects.flatMap (t.subrectBytes m) = bs := by
  apply exists_items _ h
  intro bs hbs
  unfold HextileTile.subrectBytes
  split_ifs at hbs ⊢ with hcoloured
  · have hpixel : (bs.take m.bpp).length = m.bpp := by
      rw [List.length_take]
      omega
    have hcoords : (bs.drop m.bpp).length = 2 := by
      rw [List.length_drop]
      omega
    obtain ⟨p, hp⟩ := Pixel.exists_bytes m hpixel
    obtain ⟨r, hr⟩ := HextileSubrect.exists_bytes hcoords
    exact ⟨(p, r), by rw [hp, hr, List.take_append_drop]⟩
  · obtain ⟨r, hr⟩ := HextileSubrect.exists_bytes hbs
    exact ⟨(default, r), hr⟩

lemma handleHextileSubrects_parses {valid : Bool} (t : HextileTile) (c : Conn I) :
    Throws (handleHextileSubrects m valid t.subencoding.toNat tx ty) (c, l) ∨
      ∃ (subrects : List (Pixel × HextileSubrect)) (rest : List UInt8), subrects.length < 256 ∧
        c.is = UInt8.ofNat subrects.length :: (subrects.flatMap (t.subrectBytes m) ++ rest) := by
  rcases readUnsignedByte_settles c with ⟨e, c₁, herr⟩ | ⟨b, is₁, his, hread⟩
  · exact .inl ((throws_rfb herr).bind _)
  have hparse : ∀ n : ℕ, (n = b.toNat * if t.SubrectsColoured then m.bpp + 2 else 2) →
      (∃ e c', fillRreBuf n (c.next is₁) = .error e c') ∨
      ∃ (subrects : List (Pixel × HextileSubrect)) (rest : List UInt8), subrects.length < 256 ∧
        c.is = UInt8.ofNat subrects.length :: (subrects.flatMap (t.subrectBytes m) ++ rest) := by
    intro n hn
    rcases fillRreBuf_settles n (c.next is₁) with herr | ⟨bs, rest, hlen, his₁, -⟩
    · exact .inl herr
    · have hlen' : bs.length = n := by exact_mod_cast hlen.symm
      obtain ⟨subrects, hcount, hbytes⟩ := exists_subrects t (hlen'.trans hn)
      refine .inr ⟨subrects, rest, hcount ▸ b.toNat_lt, ?_⟩
      rw [hcount, UInt8.ofNat_toNat, hbytes, his]
      exact congrArg _ his₁
  by_cases hcoloured : t.SubrectsColoured
  · rcases hparse (b.toNat * 2 + b.toNat * m.bpp) (by rw [if_pos hcoloured]; ring) with
      ⟨e, c₁, herr⟩ | hsub
    · refine .inl ((runs_rfb hread).bind_fails ?_)
      show Throws (if t.subencoding.toNat &&& hextileSubrectsColoured = 0 then _ else _) _
      rw [if_neg hcoloured]
      exact (throws_rfb herr).bind _
    · exact .inr hsub
  · rcases hparse (b.toNat * 2) (by rw [if_neg hcoloured]) with ⟨e, c₁, herr⟩ | hsub
    · refine .inl ((runs_rfb hread).bind_fails ?_)
      rw [if_pos (not_not.mp hcoloured)]
      exact (throws_rfb herr).bind _
    · exact .inr hsub

lemma handleHextileParts_parses (subencoding : UInt8) (c : Conn I) :
    Throws (handleHextileParts subencoding.toNat tx ty tw th) (c, l) ∨
      ∃ (t : HextileTile) (rest : List UInt8), t.subencoding = subencoding ∧
        t.subrects.length < 256 ∧ c.is = t.partBytes c.colorModel ++ rest := by
  set m := c.colorModel
  set t : HextileTile := ⟨subencoding, [], default, default, []⟩
  rcases specified_settles (m := m) (l := l) (P := t.BackgroundSpecified) Conn.setHextileBg c with
    hfail | ⟨bg, is₁, his⟩
  · exact .inl (runs_getLayout.bind_fails (runs_getColorModel.bind_fails (hfail.bind _)))
  set c₁ := (c.next is₁).setHextileBg (if t.BackgroundSpecified then bg.color m else c.hextileBg)
  have hbg : Runs (if t.BackgroundSpecified then do
      let bs ← rfb (readFully m.bpp)
      rfb (modify fun c => c.setHextileBg (m.paintColor bs))
      else pure ()) (c, l) [] () (c₁, l) := runs_specified Conn.setHextileBg rfl his
  have hdraw := runs_if (P := l.validDraw tx ty tw th) fun _ =>
    runs_drawRect (c := c₁) (l := l) tx ty tw th c₁.hextileBg
  rcases specified_settles (m := m) (l := l) (P := t.ForegroundSpecified) Conn.setHextileFg c₁ with
    hfail | ⟨fg, is₂, his₁⟩
  · exact .inl (runs_getLayout.bind_fails (runs_getColorModel.bind_fails
      (hbg.bind_fails (runs_get.bind_fails (hdraw.bind_fails (hfail.bind _))))))
  set c₂ := (c₁.next is₂).setHextileFg (if t.ForegroundSpecified then fg.color m else c₁.hextileFg)
  have hfg : Runs (if t.ForegroundSpecified then do
      let bs ← rfb (readFully m.bpp)
      rfb (modify fun c => c.setHextileFg (m.paintColor bs))
      else pure ()) (c₁, l) [] () (c₂, l) := runs_specified Conn.setHextileFg rfl his₁
  have hparts : ∀ (subrects : List (Pixel × HextileSubrect)) (rest : List UInt8),
      is₂ = (if t.AnySubrects then
        UInt8.ofNat subrects.length :: subrects.flatMap (t.subrectBytes m) else []) ++ rest →
      c.is = (⟨subencoding, [], bg, fg, subrects⟩ : HextileTile).partBytes m ++ rest := by
    intro subrects rest hsub
    rw [HextileTile.partBytes, List.append_assoc, List.append_assoc]
    exact his.trans (congrArg _ (his₁.trans (congrArg _ hsub)))
  by_cases hany : t.AnySubrects
  · have hsub : Throws (handleHextileSubrects m (l.validDraw tx ty tw th) subencoding.toNat tx ty)
        (c₂, l) ∨ _ := handleHextileSubrects_parses t c₂
    rcases hsub with hfail | ⟨subrects, rest, hlen, his₂⟩
    · refine .inl (runs_getLayout.bind_fails (runs_getColorModel.bind_fails
        (hbg.bind_fails (runs_get.bind_fails (hdraw.bind_fails (hfg.bind_fails ?_))))))
      have hany' : subencoding.toNat &&& hextileAnySubrects ≠ 0 := hany
      rw [if_pos hany']
      exact hfail
    · refine .inr ⟨_, rest, rfl, hlen, hparts subrects rest ?_⟩
      rw [if_pos hany]
      exact his₂
  · refine .inr ⟨⟨subencoding, [], bg, fg, []⟩, is₂, rfl, Nat.zero_lt_succ _,
      hparts [] is₂ ?_⟩
    rw [if_neg hany, List.nil_append]

lemma handleHextileSubrect_parses (c : Conn I) : Throws (handleHextileSubrect tx ty tw th) (c, l) ∨
    ∃ (t : HextileTile) (rest : List UInt8), t.Framed tw th ∧
      c.is = t.bytes c.colorModel ++ rest := by
  rcases readUnsignedByte_settles c with ⟨e, c₁, herr⟩ | ⟨subencoding, is₁, his, hread⟩
  · exact .inl ((throws_rfb herr).bind _)
  by_cases hraw : subencoding.toNat &&& hextileRaw ≠ 0
  · rcases handleRawRect_parses (l := l) (x := tx) (y := ty) (w := tw) (h := th) (c.next is₁) with
      hfail | ⟨pixels, rest, hlen, his₁⟩
    · refine .inl ((runs_rfb hread).bind_fails ?_)
      rw [if_pos hraw]
      exact hfail
    · refine .inr ⟨⟨subencoding, pixels, default, default, []⟩, rest, ⟨fun _ => hlen, ?_⟩, ?_⟩
      · exact Nat.zero_lt_succ _
      · have hraw' : (⟨subencoding, pixels, default, default, []⟩ : HextileTile).Raw := hraw
        rw [his, HextileTile.bytes, if_pos hraw', List.cons_append]
        exact congrArg _ his₁
  · have hparts : Throws (handleHextileParts subencoding.toNat tx ty tw th) (c.next is₁, l) ∨ _ :=
      handleHextileParts_parses subencoding (c.next is₁)
    rcases hparts with hfail | ⟨t, rest, rfl, hlen, his₁⟩
    · refine .inl ((runs_rfb hread).bind_fails ?_)
      rw [if_neg hraw]
      exact hfail
    · have hraw' : ¬ t.Raw := hraw
      refine .inr ⟨t, rest, ⟨fun h => absurd h hraw', hlen⟩, ?_⟩
      rw [his, HextileTile.bytes, if_neg hraw', List.cons_append]
      exact congrArg _ his₁

lemma nested_index_inj {n r k r' k' : ℕ} (hk : k < n) (hk' : k' < n)
    (h : r * n + k = r' * n + k') : r = r' ∧ k = k' := by
  have hpos : 0 < n := Nat.zero_lt_of_lt hk
  have hdiv : (r * n + k) / n = r := by
    rw [mul_comm, Nat.mul_add_div hpos, Nat.div_eq_of_lt hk, Nat.add_zero]
  have hdiv' : (r' * n + k') / n = r' := by
    rw [mul_comm, Nat.mul_add_div hpos, Nat.div_eq_of_lt hk', Nat.add_zero]
  have hr : r = r' := by rw [← hdiv, h, hdiv']
  subst hr
  exact ⟨rfl, Nat.add_left_cancel h⟩

/-- The first tiles of a rectangle, and what comes after them. -/
structure HextileRead (m : ColorModel) (w h : ℕ) (is : List UInt8) (i : ℕ) (rest : List UInt8)
    (tiles : List HextileTile) : Prop where
  length : tiles.length = i
  framed : ∀ r k t, k < tileCount 16 w → tiles[r * tileCount 16 w + k]? = some t →
    t.Framed (tileLength 16 w k) (tileLength 16 h r)
  is_eq : is = tiles.flatMap (HextileTile.bytes m) ++ rest

lemma HextileRead.tile {is : List UInt8} {r k : ℕ} {tiles : List HextileTile} {t : HextileTile}
    {rest' : List UInt8} (hread : HextileRead m w h is (r * tileCount 16 w + k) rest tiles)
    (hk : k < tileCount 16 w) (ht : t.Framed (tileLength 16 w k) (tileLength 16 h r))
    (hrest : rest = t.bytes m ++ rest') :
    HextileRead m w h is (r * tileCount 16 w + k + 1) rest' (tiles ++ [t]) where
  length := by rw [List.length_append, hread.length, List.length_singleton]
  framed := by
    intro r' k' t' hk' ht'
    rcases lt_or_ge (r' * tileCount 16 w + k') tiles.length with hlt | hge
    · rw [List.getElem?_append_left hlt] at ht'
      exact hread.framed r' k' t' hk' ht'
    · -- it is the tile that has just been read
      have hlast : r' * tileCount 16 w + k' = r * tileCount 16 w + k := by
        obtain ⟨hlt, -⟩ := List.getElem?_eq_some_iff.mp ht'
        rw [List.length_append, List.length_singleton] at hlt
        rw [hread.length] at hlt hge
        omega
      obtain ⟨rfl, rfl⟩ := nested_index_inj hk' hk hlast
      rw [← hread.length, List.getElem?_concat_length] at ht'
      exact Option.some.inj ht' ▸ ht
  is_eq := by
    rw [hread.is_eq, hrest, List.flatMap_append, List.flatMap_singleton, List.append_assoc]

/-- A Hextile rectangle that is read to its end has its tiles on the stream. -/
theorem handleHextileRect_parses (c : Conn I) : Throws (handleHextileRect x y w h) (c, l) ∨
    ∃ (tiles : List HextileTile) (rest : List UInt8), HextileFramed tiles w h ∧
      c.is = tiles.flatMap (HextileTile.bytes c.colorModel) ++ rest := by
  set m := c.colorModel with hm
  have hround : ∀ r < tileCount 16 h, ∀ k < tileCount 16 w, ∀ v : Conn I × Layout,
      (v.2 = l ∧ v.1.colorModel = m ∧
        ∃ tiles, HextileRead m w h c.is (r * tileCount 16 w + k) v.1.is tiles) →
      Throws (handleHextileSubrect (x + 16 * k) (y + 16 * r) (tileLength 16 w k)
        (tileLength 16 h r)) v ∨
      ∃ ws v', Runs (handleHextileSubrect (x + 16 * k) (y + 16 * r) (tileLength 16 w k)
        (tileLength 16 h r)) v ws () v' ∧
        (v'.2 = l ∧ v'.1.colorModel = m ∧
          ∃ tiles, HextileRead m w h c.is (r * tileCount 16 w + k + 1) v'.1.is tiles) := by
    rintro r hr k hk ⟨c', l'⟩ ⟨rfl, hm', tiles, hread⟩
    have htile : Throws (handleHextileSubrect (x + 16 * k) (y + 16 * r) (tileLength 16 w k)
        (tileLength 16 h r)) (c', l') ∨ _ := handleHextileSubrect_parses c'
    rcases htile with hfail | ⟨t, rest, ht, his⟩
    · exact .inl hfail
    · refine .inr ⟨_, _, runs_handleHextileSubrect ht rfl his, rfl, ?_, tiles ++ [t], ?_⟩
      · show (t.after c'.colorModel c' rest).colorModel = m
        have hsame : c'.SameSession (t.after c'.colorModel c' rest) :=
          HextileTile.sameSession_after rfl
        rw [hsame]
        exact hm'
      · show HextileRead m w h c.is _ (t.after c'.colorModel c' rest).is _
        rw [HextileTile.after_is]
        apply hread.tile hk ht
        rw [← hm']
        exact his
  have hstart : ((c.setHextileBg black).setHextileFg black, l).2 = l ∧
      ((c.setHextileBg black).setHextileFg black, l).1.colorModel = m ∧
      ∃ tiles, HextileRead m w h c.is 0 ((c.setHextileBg black).setHextileFg black, l).1.is tiles :=
    ⟨rfl, rfl, [], rfl, fun _ _ _ _ h => absurd h (by simp), rfl⟩
  rcases nested_settles (J := fun i (v : Conn I × Layout) => v.2 = l ∧ v.1.colorModel = m ∧
      ∃ tiles, HextileRead m w h c.is i v.1.is tiles) hround hstart with
    hfail | ⟨ws, v', -, -, -, tiles, hread⟩
  · exact .inl ((runs_modify _).bind_fails hfail)
  · exact .inr ⟨tiles, v'.1.is, ⟨hread.length, hread.framed⟩, hread.is_eq⟩

/-- The cells of the subrectangles of a tile. -/
def HextileTile.subrectCells (l : Layout) (tx ty : ℕ) (t : HextileTile) : Set ℤ :=
  {k | (¬ t.Raw ∧ t.AnySubrects) ∧ ∃ s ∈ t.subrects,
    l.Full ∧ k ∈ blockCells l (tx + s.2.x) (ty + s.2.y) (s.2.w + 1) (s.2.h + 1)}

lemma Layout.Full.validDraw {x y w h : ℤ} (hl : l.Full) : l.validDraw x y w h = true := by
  cases l with
  | full fw fh => rfl
  | large xo yo bw bh => exact hl.elim

lemma HextileTile.touches (t : HextileTile) (bg fg : UInt32) :
    Touches l (t.writes m l tx ty tw th bg fg)
      ({k | l.validDraw tx ty tw th ∧ k ∈ blockCells l tx ty tw th} ∪ t.subrectCells l tx ty) := by
  unfold HextileTile.writes
  split_ifs with hraw
  · have hpixels := touches_if (P := l.validDraw tx ty tw th) fun _ =>
      (pixelBlock m tx ty tw th t.pixels).touches (l := l)
    refine hpixels.mono Set.subset_union_left fun _ => ?_
    rintro k (hk | hk)
    · exact hk
    · exact absurd hraw hk.1.1
  · have hbackground := touches_if (P := l.validDraw tx ty tw th) fun _ =>
      touches_drawWrites (l := l) ⟨tx, ty, tw, th, fun _ _ => t.background m bg⟩
    have hsubrects : Touches l (if t.AnySubrects then t.subrects.flatMap fun r =>
        if l.validDraw tx ty tw th then drawWrites l (r.2.block tx ty (t.subrectColor m fg r))
        else [] else []) _ :=
      touches_if fun _ => touches_flatMap fun r _ => touches_if fun _ => touches_drawWrites _
    refine (hbackground.append hsubrects).mono ?_ fun hl => ?_
    · rintro k (⟨hvalid, -, hk⟩ | ⟨hany, r, hr, hvalid, hl, hk⟩)
      · exact .inl ⟨hvalid, hk⟩
      · exact .inr ⟨⟨hraw, hany⟩, r, hr, hl, hk⟩
    · rintro k (⟨hvalid, hk⟩ | ⟨⟨-, hany⟩, r, hr, -, hk⟩)
      · exact .inl ⟨hvalid, hl, hk⟩
      · exact .inr ⟨hany, r, hr, hl.validDraw, hl, hk⟩

/-- The cells of the subrectangles of all tiles. -/
def hextileSubrectCells (l : Layout) (x y w h : ℕ) (tiles : List HextileTile) : Set ℤ :=
  {k | ∃ r < tileCount 16 h, ∃ q < tileCount 16 w, ∃ t, tiles[r * tileCount 16 w + q]? = some t ∧
    k ∈ t.subrectCells l (x + 16 * q) (y + 16 * r)}

lemma touches_hextileWrites {tiles : List HextileTile} (ht : HextileFramed tiles w h) :
    Touches l (hextileWrites l m x y w h tiles)
      (tileCells 16 (fun r q => l.validDraw (x + 16 * q : ℕ) (y + 16 * r : ℕ) (tileLength 16 w q)
        (tileLength 16 h r)) l x y w h ∪ hextileSubrectCells l x y w h tiles) := by
  have htile : ∀ r ∈ List.range (tileCount 16 h), ∀ q ∈ List.range (tileCount 16 w),
      Touches l (tiles[r * tileCount 16 w + q]?.elim [] fun t =>
        t.writes m l (x + 16 * q) (y + 16 * r) (tileLength 16 w q) (tileLength 16 h r)
          (carried m tiles (r * tileCount 16 w + q)).1 (carried m tiles (r * tileCount 16 w + q)).2)
        ({k | l.validDraw (x + 16 * q : ℕ) (y + 16 * r : ℕ) (tileLength 16 w q)
            (tileLength 16 h r) ∧ k ∈ blockCells l (x + 16 * q) (y + 16 * r) (tileLength 16 w q)
            (tileLength 16 h r)} ∪
          {k | ∃ t, tiles[r * tileCount 16 w + q]? = some t ∧
            k ∈ t.subrectCells l (x + 16 * q) (y + 16 * r)}) := by
    intro r hr q hq
    have hi : r * tileCount 16 w + q < tiles.length := by
      rw [ht.length]
      exact nested_index_lt (List.mem_range.mp hr) (List.mem_range.mp hq)
    rw [List.getElem?_eq_getElem hi]
    simpa only [Option.elim_some, Option.some.injEq, exists_eq_left', Set.ofPred_mem_eq] using
      HextileTile.touches (m := m) (l := l) tiles[r * tileCount 16 w + q] _ _
  have hall := touches_flatMap fun r hr => touches_flatMap (htile r hr)
  refine hall.mono ?_ fun _ => ?_
  · rintro k ⟨r, hr, q, hq, hk⟩
    rw [List.mem_range] at hr hq
    rcases hk with ⟨hvalid, hk⟩ | ⟨t, ht, hk⟩
    · exact .inl ⟨r, hr, q, hq, hvalid, hk⟩
    · exact .inr ⟨r, hr, q, hq, t, ht, hk⟩
  · rintro k (⟨r, hr, q, hq, hvalid, hk⟩ | ⟨r, hr, q, hq, t, ht, hk⟩)
    · exact ⟨r, List.mem_range.mpr hr, q, List.mem_range.mpr hq, .inl ⟨hvalid, hk⟩⟩
    · exact ⟨r, List.mem_range.mpr hr, q, List.mem_range.mpr hq, .inr ⟨t, ht, hk⟩⟩

end Limbo.Vnc
