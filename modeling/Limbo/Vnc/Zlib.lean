import Limbo.Vnc.Rectangles

/-!
# Zlib rectangles

A Zlib rectangle is a Raw rectangle that the inflater has to make of the data, row by row.
-/

namespace Limbo.Vnc

open Lib

variable {I : Inflater} {c c' : Conn I} {l : Layout} {m : ColorModel} {x y w h : ℕ}
  {rest : List UInt8} {Q : I.State → Prop}

/-- The connections differ in the stream and the state of the Zlib decoder only. -/
def Conn.SameButZlib (c c' : Conn I) : Prop :=
  c' = { c with
    is := c'.is, zlibBuf := c'.zlibBuf, zlibInflater := c'.zlibInflater,
    handleZlibRectBuffer := c'.handleZlibRectBuffer }

lemma Conn.SameButZlib.trans {c'' : Conn I} (h : c.SameButZlib c') (h' : c'.SameButZlib c'') :
    c.SameButZlib c'' := by
  unfold Conn.SameButZlib at *
  rw [h', h]

/-- The inflater makes the rows of a rectangle; of an empty rectangle it makes nothing. -/
def InflatesRows (I : Inflater) (Q : I.State → Prop) (s : I.State) (d : List UInt8) : Prop :=
  if d = [] then Q s else Yields I Q s d

lemma reserve_ok {buf : Option ℕ} {n size : ℤ} (hsize : 0 ≤ size) :
    ∃ b, reserve buf n size c = .ok b c := by
  have halloc : reserve.alloc size c = .ok (some size.toNat) c := by
    rw [reserve.alloc, if_neg (not_lt.mpr hsize)]
    rfl
  cases buf with
  | none => exact ⟨_, halloc⟩
  | some len =>
    by_cases hlen : (len : ℤ) < n
    · exact ⟨_, (congrFun (if_pos hlen) c).trans halloc⟩
    · exact ⟨_, congrFun (if_neg hlen) c⟩

lemma startZlibRect_append (len : ℕ) {data : List UInt8} (hdata : data.length < 1073741824)
    (hc : c.is = intBytes data.length ++ (data ++ rest)) :
    ∃ c', startZlibRect len c = .ok () c' ∧ c'.is = rest ∧ c.SameButZlib c' ∧
      c'.zlibInflater = I.setInput data c.zlibInflater := by
  have hread := readInt_append (z := data.length) (by omega) (by omega) hc
  have hsize : 0 ≤ wrap32 ((data.length : ℤ) * 2) := by
    rw [wrap32_of_range (by omega) (by omega)]
    omega
  obtain ⟨b, hb⟩ : ∃ b, reserve c.zlibBuf data.length (wrap32 ((data.length : ℤ) * 2))
      (c.next (data ++ rest)) = .ok b (c.next (data ++ rest)) := reserve_ok hsize
  have hfull : readFully data.length (c.next (data ++ rest)) = .ok data (c.next rest) :=
    readFully_append rfl rfl
  refine ⟨(c.next rest).startZlib b data len, ?_, rfl, rfl, rfl⟩
  show (readInt >>= fun nBytes => get >>= fun c => reserve c.zlibBuf nBytes (wrap32 (nBytes * 2))
    >>= fun zlibBuf => readFully nBytes >>= fun data => modify _) c = _
  rw [bind_ok hread]
  show (reserve c.zlibBuf data.length (wrap32 (data.length * 2)) >>= fun zlibBuf =>
    readFully data.length >>= fun data => modify _) (c.next (data ++ rest)) = _
  rw [bind_ok hb, bind_ok hfull]
  rfl

/-- A row of the rectangle is made by the inflater. -/
lemma inflateRow_yields {d : List UInt8} {n : ℕ} (hd : n ≤ d.length)
    (h : InflatesRows I Q c.zlibInflater d) :
    ∃ c' old, inflateRow n c = .ok (d.take n ++ old) c' ∧ c.SameButZlib c' ∧ c'.is = c.is ∧
      InflatesRows I Q c'.zlibInflater (d.drop n) := by
  rcases Nat.eq_zero_or_pos n with rfl | hn
  · refine ⟨c, c.handleZlibRectBuffer, ?_, rfl, rfl, h⟩
    rw [inflateRow, I.inflate_zero]
    rfl
  have hne : d ≠ [] := List.length_pos_iff.mp (hn.trans_le hd)
  rw [InflatesRows, if_neg hne] at h
  cases h with
  | intro next inflates last more hrest =>
    have hrow : inflateRow n c = .ok
        (d.take n ++ c.handleZlibRectBuffer.drop (d.take n).length)
        { c with
          zlibInflater := next n,
          handleZlibRectBuffer := d.take n ++ c.handleZlibRectBuffer.drop (d.take n).length } := by
      rw [inflateRow, inflates n hn]
    refine ⟨_, _, hrow, rfl, rfl, ?_⟩
    by_cases hlast : d.length ≤ n
    · rw [InflatesRows, if_pos (List.drop_eq_nil_of_le hlast)]
      exact (last n hn hlast).2
    · have hmore : d.drop n ≠ [] := by
        intro hnil
        exact hlast (List.drop_eq_nil_iff.mp hnil)
      rw [InflatesRows, if_neg hmore]
      exact hrest n hn (not_le.mp hlast)

/-- In front of row `j` the inflater makes the rows from it on. -/
def ZlibRows (Q : I.State → Prop) (m : ColorModel) (w : ℕ) (pixels : List Pixel)
    (rest : List UInt8) (c : Conn I) (l : Layout) (j : ℕ) (v : Conn I × Layout) : Prop :=
  ∃ c', v = (c', l) ∧ c'.is = rest ∧ c.SameButZlib c' ∧
    InflatesRows I Q c'.zlibInflater ((pixels.drop (j * w)).flatMap (Pixel.bytes m))

theorem runs_handleZlibRect {data : List UInt8} {pixels : List Pixel}
    (hlen : pixels.length = w * h) (hdata : data.length < 1073741824) (hm : c.colorModel = m)
    (hQ : InflatesRows I Q (I.setInput data c.zlibInflater) (pixels.flatMap (Pixel.bytes m)))
    (hc : c.is = intBytes data.length ++ (data ++ rest)) :
    ∃ c', Runs (handleZlibRect x y w h) (c, l) (rawWrites l m x y w h pixels) () (c', l) ∧
      c'.is = rest ∧ c.SameButZlib c' ∧ Q c'.zlibInflater := by
  subst hm
  set m := c.colorModel
  have hbpp : 0 < m.bpp := m.bpp_pos
  obtain ⟨c₁, hrun₁, his₁, hsame₁, hst₁⟩ := startZlibRect_append (w * m.bpp) hdata hc
  have hround : ∀ j (v : Conn I × Layout), j < h → ZlibRows Q m w pixels rest c l j v →
      ∃ v', Runs (do
          let row ← rfb (inflateRow (w * m.bpp))
          if l.validDraw x y w h then drawRow m (l.offset x (y + j)) w row else pure ())
        v (pixelRowWrites l m x y w h pixels j) () v' ∧ ZlibRows Q m w pixels rest c l (j + 1) v' := by
    rintro j v hj ⟨c', rfl, his, hsame, hrows⟩
    have hlenRow : ((pixelRow w pixels j).flatMap (Pixel.bytes m)).length = w * m.bpp := by
      rw [length_items (Pixel.length_bytes m), length_pixelRow hlen hj]
    have hsplit := pixelRow_append m w pixels j
    have hlong : w * m.bpp ≤ ((pixels.drop (j * w)).flatMap (Pixel.bytes m)).length := by
      rw [← hsplit, List.length_append, hlenRow]
      exact Nat.le_add_right _ _
    obtain ⟨c'', old, hrun, hsame', his', hrows'⟩ := inflateRow_yields hlong hrows
    rw [← hsplit, List.take_left' hlenRow] at hrun
    rw [← hsplit, List.drop_left' hlenRow] at hrows'
    refine ⟨(c'', l), ?_, c'', rfl, his'.trans his, hsame.trans hsame', hrows'⟩
    apply Does.bind_read (runs_rfb hrun)
    exact runs_drawPixelRow hlen hj old
  have hstart : ZlibRows Q m w pixels rest c l 0 (c₁, l) := by
    refine ⟨c₁, rfl, his₁, hsame₁, ?_⟩
    rwa [hst₁, Nat.zero_mul, List.drop_zero]
  obtain ⟨v', hloop, c', rfl, his, hsame, hrows⟩ := Does.loop hround hstart
  rw [flatMap_pixelRowWrites] at hloop
  have hend : (pixels.drop (h * w)).flatMap (Pixel.bytes m) = [] := by
    rw [mul_comm h, ← hlen, List.drop_length, List.flatMap_nil]
  rw [InflatesRows, if_pos hend] at hrows
  refine ⟨c', ?_, his, hsame, hrows⟩
  apply Does.bind_read runs_getLayout
  apply Does.bind_read runs_getColorModel
  exact Does.bind_read (runs_rfb hrun₁) hloop

end Limbo.Vnc
