import Limbo.Vnc.TileDecoder

/-!
# What decoding a tile uses

A tile that is decoded has all its pixels. The palette indices are those on the wire, which nothing
compares with the size of the palette, and the lengths of runs are those on the wire modulo `2 ^ 32`:
both are right exactly when the bytes that fill the tile have no index from the palette's size on
and no length of `2 ^ 31` or more.
-/

namespace Limbo.Vnc.TileDecoder

open Lib

/-! ### Runs on the wire -/

/-- A run: its pixel or index, and the number of 255s and the last byte of its length, if it has
one. -/
structure Token where
  head : List UInt8
  length? : Option (ℕ × UInt8)

namespace Token

def lengthBytes : Option (ℕ × UInt8) → List UInt8
  | none => []
  | some (k, last) => List.replicate k 255 ++ [last]

/-- The number of pixels. -/
def lengthTotal : Option (ℕ × UInt8) → ℕ
  | none => 1
  | some (k, last) => 1 + (255 * k + last.toNat)

/-- The number of pixels as an `int`. -/
@[irreducible]
def lengthInt (length : Option (ℕ × UInt8)) : ℤ := wrap32 (lengthTotal length)

def bytes (t : Token) : List UInt8 := t.head ++ lengthBytes t.length?

def total (t : Token) : ℕ := lengthTotal t.length?

def len (t : Token) : ℤ := lengthInt t.length?

lemma lengthInt_eq (length : Option (ℕ × UInt8)) :
    lengthInt length = wrap32 (lengthTotal length) := by
  unfold lengthInt
  rfl

lemma lengthInt_none : lengthInt none = 1 := by
  have hone : wrap32 1 = 1 := wrap32_of_range (by norm_num) (by norm_num)
  exact (lengthInt_eq none).trans hone

lemma len_of_lt (t : Token) (h : t.total < 2 ^ 31) : t.len = t.total := by
  have hlow : (-2147483648 : ℤ) ≤ t.total := by omega
  have hhigh : (t.total : ℤ) < 2147483648 := by omega
  exact (lengthInt_eq t.length?).trans (wrap32_of_range hlow hhigh)

/-- The index of a palette run. -/
def index (t : Token) : ℕ := (t.head.getD 0 0 &&& 127).toNat

/-- A run of plain RLE: a pixel and a length. -/
def Plain (m : ColorModel) (t : Token) : Prop :=
  t.head.length = m.cpixelSize ∧ ∃ k last, last ≠ 255 ∧ t.length? = some (k, last)

/-- A run of palette RLE: an index, and a length if its first bit is set. -/
def Packed (t : Token) : Prop :=
  ∃ b, t.head = [b] ∧ (b &&& 128 = 0 → t.length? = none) ∧
    (b &&& 128 ≠ 0 → ∃ k last, last ≠ 255 ∧ t.length? = some (k, last))

end Token

/-- The runs fill `left` pixels; a length that is negative as an `int` counts as none. -/
def Fills : List Token → ℕ → Prop
  | [], left => left = 0
  | t :: ts, left => 0 < left ∧ t.len ≤ left ∧ Fills ts (left - t.len.toNat)

/-- The state after a run. -/
def TileState.after (indices : Token → List ℕ) (s : TileState) (t : Token) (bytes : List UInt8) :
    TileState :=
  { s with bytes := bytes, indices := s.indices ++ indices t, runs := s.runs ++ [(t.len, t.total)] }

lemma runLength_some {k : ℕ} {last : UInt8} (hlast : last ≠ 255) (rest : List UInt8) (len : ℤ)
    (total : ℕ) :
    runLength (List.replicate k 255 ++ last :: rest) len total =
      some (wrap32 (len + (255 * k + last.toNat : ℕ)), total + (255 * k + last.toNat), rest) := by
  induction k generalizing len total with
  | zero => simp only [List.replicate_zero, List.nil_append, runLength, if_neg hlast, Nat.mul_zero,
      Nat.zero_add]
  | succ k ih =>
    have h255 : (255 : UInt8).toNat = 255 := rfl
    rw [List.replicate_succ, List.cons_append, runLength, if_pos rfl, ih, h255]
    congr 2
    · rw [wrap32_wrap32_add]
      congr 1
      push_cast
      ring
    · congr 1
      ring

lemma exists_of_runLength {bytes rest : List UInt8} {len len' : ℤ} {total total' : ℕ}
    (h : runLength bytes len total = some (len', total', rest)) :
    ∃ k last, last ≠ 255 ∧ bytes = List.replicate k 255 ++ last :: rest := by
  induction bytes generalizing len total with
  | nil => cases h
  | cons b bytes ih =>
    rw [runLength] at h
    split_ifs at h with hb
    · obtain ⟨k, last, hlast, rfl⟩ := ih h
      exact ⟨k + 1, last, hlast, by rw [hb]; rfl⟩
    · cases h
      exact ⟨0, b, hb, rfl⟩

/-- `readRunLength` reads the length of a run, or runs out of bytes. -/
lemma readRunLength_ok {k : ℕ} {last : UInt8} (hlast : last ≠ 255) {s : TileState}
    {rest : List UInt8} (h : s.bytes = List.replicate k 255 ++ [last] ++ rest) :
    readRunLength s = .ok (Token.lengthInt (some (k, last))) { s with
      bytes := rest
      runs := s.runs ++
        [(Token.lengthInt (some (k, last)), Token.lengthTotal (some (k, last)))] } := by
  have hrun : runLength s.bytes 1 1 =
      some (Token.lengthInt (some (k, last)), Token.lengthTotal (some (k, last)), rest) := by
    have hcast : ((Token.lengthTotal (some (k, last)) : ℕ) : ℤ) =
        1 + (255 * k + last.toNat : ℕ) := by
      rw [Token.lengthTotal, Nat.cast_add, Nat.cast_one]
    rw [h, List.append_assoc, List.singleton_append, runLength_some hlast, Token.lengthInt_eq,
      hcast]
    rfl
  rw [readRunLength, hrun]

lemma readRunLength_meets (s : TileState) :
    Meets readRunLength s
      (fun len s' => ∃ k last, last ≠ 255 ∧
        s.bytes = List.replicate k 255 ++ [last] ++ s'.bytes ∧
        len = Token.lengthInt (some (k, last)) ∧
        s' = { s with
          bytes := s'.bytes
          runs := s.runs ++ [(len, Token.lengthTotal (some (k, last)))] })
      (fun e _ => e ≠ .noFuel) := by
  cases hrun : runLength s.bytes 1 1 with
  | none =>
    have hread : readRunLength s = .error .eof { s with bytes := [] } := by
      rw [readRunLength, hrun]
    exact Meets.of_error hread nofun
  | some found =>
    obtain ⟨len, total, rest⟩ := found
    obtain ⟨k, last, hlast, hbytes⟩ := exists_of_runLength hrun
    have hsplit : s.bytes = List.replicate k 255 ++ [last] ++ rest := by
      rw [hbytes, List.append_assoc, List.singleton_append]
    exact Meets.of_ok (readRunLength_ok hlast hsplit) ⟨k, last, hlast, hsplit, rfl, rfl⟩

/-! ### One run -/

lemma readU8_ok {s : TileState} {b : UInt8} {rest : List UInt8} (h : s.bytes = b :: rest) :
    readU8 s = .ok b { s with bytes := rest } := by
  rw [readU8, h]

lemma readU8_meets (s : TileState) :
    Meets readU8 s (fun b s' => s.bytes = b :: s'.bytes ∧ s' = { s with bytes := s'.bytes })
      (fun e _ => e ≠ .noFuel) := by
  cases hbytes : s.bytes with
  | nil =>
    have hread : readU8 s = .error .eof s := by rw [readU8, hbytes]
    exact Meets.of_error hread nofun
  | cons b rest => exact Meets.of_ok (readU8_ok hbytes) ⟨rfl, rfl⟩

lemma paletteAt_ok {s : TileState} {index : ℕ} (h : index < s.palette.length) :
    ∃ pix, paletteAt index s = .ok pix { s with indices := s.indices ++ [index] } := by
  refine ⟨s.palette[index], ?_⟩
  rw [paletteAt, List.getElem?_eq_getElem h]

section Run

variable {m : ColorModel} {s : TileState} {left : ℕ} {t : Token} {rest : List UInt8}

lemma readPixel_ok {head : List UInt8} (hlen : head.length = m.cpixelSize)
    (h : s.bytes = head ++ rest) : ∃ pix, readPixel m s = .ok pix { s with bytes := rest } := by
  unfold readPixel ColorModel.cpixelSize at *
  cases hpalette : m.palette with
  | some colors =>
    rw [hpalette] at hlen
    match head, hlen with
    | [b], _ => exact ⟨_, bind_ok (readU8_ok h)⟩
  | none =>
    rw [hpalette] at hlen
    match head, hlen with
    | [b1, b2, b3], _ =>
      have h₁ : readU8 s = .ok b1 { s with bytes := b2 :: b3 :: rest } := readU8_ok h
      have h₂ : readU8 { s with bytes := b2 :: b3 :: rest } = .ok b2 { s with bytes := b3 :: rest } :=
        readU8_ok rfl
      have h₃ : readU8 { s with bytes := b3 :: rest } = .ok b3 { s with bytes := rest } :=
        readU8_ok rfl
      exact ⟨_, (bind_ok h₁).trans ((bind_ok h₂).trans (bind_ok h₃))⟩

lemma readPixel_meets (m : ColorModel) (s : TileState) :
    Meets (readPixel m) s
      (fun _ s' => ∃ head : List UInt8, head.length = m.cpixelSize ∧ s.bytes = head ++ s'.bytes ∧
        s' = { s with bytes := s'.bytes })
      (fun e _ => e ≠ .noFuel) := by
  unfold readPixel ColorModel.cpixelSize
  cases m.palette with
  | some colors =>
    refine Meets.bind (readU8_meets s) ?_
    rintro b s₁ ⟨hbytes, hs₁⟩
    exact Meets.pure ⟨[b], rfl, hbytes, hs₁⟩
  | none =>
    refine Meets.bind (readU8_meets s) ?_
    rintro b1 s₁ ⟨hbytes₁, hs₁⟩
    refine Meets.bind (readU8_meets s₁) ?_
    rintro b2 s₂ ⟨hbytes₂, hs₂⟩
    refine Meets.bind (readU8_meets s₂) ?_
    rintro b3 s₃ ⟨hbytes₃, hs₃⟩
    refine Meets.pure ⟨[b1, b2, b3], rfl, ?_, ?_⟩
    · rw [hbytes₁, hbytes₂, hbytes₃]
      rfl
    · rw [hs₃, hs₂, hs₁]

/-- What a reader of runs reads: a run on the wire, whole, or it throws. -/
structure ReadsRuns (readRun : ℕ → TileM (UInt32 × ℤ)) (valid : Token → Prop)
    (indices : Token → List ℕ) : Prop where
  bytes_pos : ∀ {t}, valid t → 0 < t.bytes.length
  ok : ∀ {left : ℕ} {t s rest}, s.palette.length = 128 → valid t → s.bytes = t.bytes ++ rest →
    t.len ≤ left → ∃ pix, readRun left s = .ok (pix, t.len) (s.after indices t rest)
  meets : ∀ {left : ℕ} {s}, 0 < left → s.palette.length = 128 → Meets (readRun left) s
    (fun p s' => ∃ t, valid t ∧ s.bytes = t.bytes ++ s'.bytes ∧ t.len ≤ left ∧ p.2 = t.len ∧
      s' = s.after indices t s'.bytes)
    (fun e _ => e ≠ .noFuel)

lemma length_bytes_pos (h : 0 < t.head.length) : 0 < t.bytes.length := by
  rw [Token.bytes, List.length_append]
  omega

lemma cpixelSize_pos (m : ColorModel) : 0 < m.cpixelSize := by
  unfold ColorModel.cpixelSize
  split <;> decide

lemma readsRuns_plain (m : ColorModel) :
    ReadsRuns (readPlainRun m) (Token.Plain m) fun _ => [] where
  bytes_pos := by
    rintro t ⟨hhead, -⟩
    exact length_bytes_pos (hhead.symm ▸ cpixelSize_pos m)
  ok := by
    rintro left ⟨head, _⟩ s rest - ⟨hhead, k, last, hlast, rfl⟩ hbytes hle
    rw [Token.bytes, Token.lengthBytes, List.append_assoc] at hbytes
    obtain ⟨pix, hpix⟩ := readPixel_ok hhead hbytes
    have hlength := readRunLength_ok (s := { s with
      bytes := List.replicate k 255 ++ [last] ++ rest }) hlast rfl
    refine ⟨m.lookup pix, (bind_ok hpix).trans ((bind_ok hlength).trans ?_)⟩
    simp only [TileState.after, List.append_nil]
    exact congrFun (if_pos hle) _
  meets := by
    intro left s _ _
    refine Meets.bind (readPixel_meets m s) ?_
    rintro pix s₁ ⟨head, hhead, hbytes₁, hs₁⟩
    refine Meets.bind (readRunLength_meets s₁) ?_
    rintro len s₂ ⟨k, last, hlast, hbytes₂, hlen, hs₂⟩
    by_cases hle : len ≤ left
    · have hlen' : len = (⟨head, some (k, last)⟩ : Token).len := hlen
      have hle' : (⟨head, some (k, last)⟩ : Token).len ≤ left := hlen' ▸ hle
      rw [if_pos hle]
      refine Meets.pure ⟨⟨head, some (k, last)⟩, ⟨hhead, k, last, hlast, rfl⟩, ?_, hle', hlen, ?_⟩
      · rw [hbytes₁, hbytes₂, Token.bytes, Token.lengthBytes]
        simp only [List.append_assoc]
      · rw [hs₂, hs₁, hlen]
        simp only [TileState.after, List.append_nil]
        rfl
    · rw [if_neg hle]
      exact Meets.throw nofun

/-- The length of a palette run with its index. -/
structure Length (b : UInt8) (length : Option (ℕ × UInt8)) : Prop where
  one : b &&& 128 = 0 → length = none
  many : b &&& 128 ≠ 0 → ∃ k last, last ≠ 255 ∧ length = some (k, last)

lemma readPackedLength_ok {b : UInt8} {length : Option (ℕ × UInt8)} (hlength : Length b length)
    (h : s.bytes = Token.lengthBytes length ++ rest) (hle : (⟨[b], length⟩ : Token).len ≤ left) :
    readPackedLength b left s = .ok (⟨[b], length⟩ : Token).len { s with
      bytes := rest
      runs := s.runs ++ [((⟨[b], length⟩ : Token).len, (⟨[b], length⟩ : Token).total)] } := by
  unfold readPackedLength
  by_cases hb : b &&& 128 = 0
  · obtain rfl := hlength.one hb
    have hrest : s.bytes = rest := h
    have hone : ¬ b &&& 128 ≠ 0 := not_not.mpr hb
    rw [if_neg hone, ← hrest, Token.len, Token.lengthInt_none]
    rfl
  · obtain ⟨k, last, hlast, rfl⟩ := hlength.many hb
    have hmany : b &&& 128 ≠ 0 := hb
    rw [if_pos hmany]
    refine (bind_ok (readRunLength_ok hlast h)).trans ?_
    exact congrFun (if_pos hle) _

lemma readPackedLength_meets (b : UInt8) (s : TileState) (hleft : 0 < left) :
    Meets (readPackedLength b left) s
      (fun len s' => ∃ length, Length b length ∧ s.bytes = Token.lengthBytes length ++ s'.bytes ∧
        len ≤ left ∧ len = (⟨[b], length⟩ : Token).len ∧
        s' = { s with
          bytes := s'.bytes
          runs := s.runs ++ [(len, (⟨[b], length⟩ : Token).total)] })
      (fun e _ => e ≠ .noFuel) := by
  unfold readPackedLength
  by_cases hb : b &&& 128 = 0
  · have hone : ¬ b &&& 128 ≠ 0 := not_not.mpr hb
    have hpos : (1 : ℤ) ≤ left := by exact_mod_cast hleft
    rw [if_neg hone]
    exact Meets.of_ok rfl
      ⟨none, ⟨fun _ => rfl, fun h => absurd hb h⟩, rfl, hpos, Token.lengthInt_none.symm, rfl⟩
  · have hmany : b &&& 128 ≠ 0 := hb
    rw [if_pos hmany]
    refine Meets.bind (readRunLength_meets s) ?_
    rintro len s₁ ⟨k, last, hlast, hbytes, hlen, hs₁⟩
    by_cases hle : len ≤ left
    · rw [if_pos hle]
      exact Meets.pure ⟨some (k, last), ⟨fun h => absurd h hb, fun _ => ⟨k, last, hlast, rfl⟩⟩,
        hbytes, hle, hlen, hs₁⟩
    · rw [if_neg hle]
      exact Meets.throw nofun

lemma packed_iff {t : Token} : t.Packed ↔ ∃ b, t.head = [b] ∧ Length b t.length? :=
  ⟨fun ⟨b, hhead, hone, hmany⟩ => ⟨b, hhead, hone, hmany⟩,
    fun ⟨b, hhead, hlength⟩ => ⟨b, hhead, hlength.one, hlength.many⟩⟩

lemma and_127_lt (b : UInt8) : (b &&& 127).toNat < 128 := by
  rw [UInt8.toNat_and]
  exact Nat.and_lt_two_pow (n := 7) _ (by decide)

lemma readsRuns_packed (m : ColorModel) :
    ReadsRuns (readPackedRun m) Token.Packed fun t => [t.index] where
  bytes_pos := by
    rintro t ⟨b, hhead, -⟩
    exact length_bytes_pos (hhead.symm ▸ Nat.one_pos)
  ok := by
    rintro left ⟨head, length⟩ s rest hpalette hpacked hbytes hle
    obtain ⟨b, rfl, hlength⟩ := packed_iff.mp hpacked
    have hread : readU8 s = .ok b { s with bytes := Token.lengthBytes length ++ rest } :=
      readU8_ok hbytes
    have hlen := readPackedLength_ok (s := { s with bytes := Token.lengthBytes length ++ rest })
      hlength rfl hle
    obtain ⟨pix, hpix⟩ := paletteAt_ok (s := { s with
      bytes := rest
      runs := s.runs ++ [((⟨[b], length⟩ : Token).len, (⟨[b], length⟩ : Token).total)] })
      (hpalette ▸ and_127_lt b)
    exact ⟨m.lookup pix, (bind_ok hread).trans ((bind_ok hlen).trans (bind_ok hpix))⟩
  meets := by
    intro left s hleft hpalette
    refine Meets.bind (readU8_meets s) ?_
    rintro b s₁ ⟨hbytes₁, hs₁⟩
    refine Meets.bind (readPackedLength_meets b s₁ hleft) ?_
    rintro len s₂ ⟨length, hlength, hbytes₂, hle, hlen, hs₂⟩
    have hindex : (b &&& 127).toNat < s₂.palette.length := by
      rw [hs₂, hs₁, hpalette]
      exact and_127_lt b
    obtain ⟨pix, hpix⟩ := paletteAt_ok hindex
    refine Meets.congr (bind_ok hpix) (Meets.pure ⟨⟨[b], length⟩,
      packed_iff.mpr ⟨b, rfl, hlength⟩, ?_, hlen ▸ hle, hlen, ?_⟩)
    · rw [hbytes₁, hbytes₂]
      rfl
    · rw [hs₂, hs₁, hlen]
      rfl

end Run

/-! ### The loop over the runs -/

section Runs

variable {readRun : ℕ → TileM (UInt32 × ℤ)} {valid : Token → Prop} {indices : Token → List ℕ}
  {end_ rounds : ℕ} {s s' : TileState} {ts : List Token} {rest : List UInt8}

/-- The state after some runs, but for the pixels. -/
structure AfterRuns (indices : Token → List ℕ) (s : TileState) (ts : List Token) (s' : TileState) :
    Prop where
  bytes_eq : s.bytes = ts.flatMap Token.bytes ++ s'.bytes
  palette_eq : s'.palette = s.palette
  indices_eq : s'.indices = s.indices ++ ts.flatMap indices
  runs_eq : s'.runs = s.runs ++ ts.map fun t => (t.len, t.total)

lemma AfterRuns.refl (s : TileState) : AfterRuns indices s [] s :=
  ⟨rfl, rfl, (List.append_nil _).symm, (List.append_nil _).symm⟩

/-- One more run before. -/
lemma AfterRuns.cons {t : Token} (hbytes : s.bytes = t.bytes ++ rest) {pixels : List UInt32}
    (h : AfterRuns indices { s.after indices t rest with pixels := pixels } ts s') :
    AfterRuns indices s (t :: ts) s' := by
  refine ⟨?_, h.palette_eq, ?_, ?_⟩
  · have hrest : rest = ts.flatMap Token.bytes ++ s'.bytes := h.bytes_eq
    rw [hbytes, hrest, List.flatMap_cons, List.append_assoc]
  · rw [h.indices_eq, List.flatMap_cons, ← List.append_assoc]
    rfl
  · rw [h.runs_eq, List.map_cons, ← List.singleton_append, ← List.append_assoc]
    rfl

/-- The pixels that are left after a run. -/
lemma left_after {pixels : List UInt32} {len : ℤ} (pix : UInt32) (hlt : pixels.length < end_)
    (hle : len ≤ (end_ - pixels.length : ℕ)) :
    (pixels ++ List.replicate len.toNat pix).length ≤ end_ ∧
      end_ - (pixels ++ List.replicate len.toNat pix).length =
        end_ - pixels.length - len.toNat := by
  rw [List.length_append, List.length_replicate]
  omega

/-- Runs that fill the tile are read. -/
lemma readRuns_ok (hr : ReadsRuns readRun valid indices) (hpalette : s.palette.length = 128)
    (hvalid : ∀ t ∈ ts, valid t) (hbytes : s.bytes = ts.flatMap Token.bytes ++ rest)
    (hle : s.pixels.length ≤ end_) (hfills : Fills ts (end_ - s.pixels.length))
    (hrounds : ts.length ≤ rounds) :
    ∃ s', readRuns readRun end_ rounds s = .ok () s' ∧ AfterRuns indices s ts s' ∧
      s'.pixels.length = end_ := by
  induction ts generalizing s rounds with
  | nil =>
    have hzero : end_ - s.pixels.length = 0 := hfills
    have hend : ¬ s.pixels.length < end_ := by omega
    have hrun : readRuns readRun end_ rounds s = .ok () s := by
      cases rounds <;> exact if_neg hend
    exact ⟨s, hrun, .refl s, by omega⟩
  | cons t ts ih =>
    obtain ⟨ht, hts⟩ := List.forall_mem_cons.mp hvalid
    obtain ⟨hpos, hlen, hfills⟩ := hfills
    obtain ⟨rounds, rfl⟩ := Nat.exists_eq_add_one_of_ne_zero
      (Nat.ne_zero_of_lt (Nat.lt_of_lt_of_le ts.length.succ_pos hrounds))
    have hlt : s.pixels.length < end_ := by omega
    rw [List.flatMap_cons, List.append_assoc] at hbytes
    obtain ⟨pix, hread⟩ := hr.ok hpalette ht hbytes hlen
    obtain ⟨hle', hleft⟩ := left_after pix hlt hlen
    rw [← hleft] at hfills
    obtain ⟨s', hrest, hafter, hend⟩ := ih (s := { s.after indices t _ with
      pixels := s.pixels ++ List.replicate t.len.toNat pix }) hpalette hts rfl hle' hfills
      (Nat.le_of_succ_le_succ hrounds)
    refine ⟨s', ?_, hafter.cons hbytes, hend⟩
    exact (if_pos hlt).trans ((bind_ok hread).trans ((bind_ok rfl).trans hrest))

/-- What is read are runs that fill the tile. -/
lemma readRuns_meets (hr : ReadsRuns readRun valid indices) (hpalette : s.palette.length = 128)
    (hle : s.pixels.length ≤ end_) (hrounds : s.bytes.length < rounds) :
    Meets (readRuns readRun end_ rounds) s
      (fun _ s' => ∃ ts, (∀ t ∈ ts, valid t) ∧ Fills ts (end_ - s.pixels.length) ∧
        AfterRuns indices s ts s' ∧ s'.pixels.length = end_)
      (fun e _ => e ≠ .noFuel) := by
  induction rounds generalizing s with
  | zero => exact absurd hrounds (Nat.not_lt_zero _)
  | succ rounds ih =>
    by_cases hlt : s.pixels.length < end_
    · have hrun : readRuns readRun end_ (rounds + 1) s =
          (readRun (end_ - s.pixels.length) >>= fun run =>
            store (List.replicate run.2.toNat run.1) >>= fun _ => readRuns readRun end_ rounds) s :=
        if_pos hlt
      refine Meets.congr hrun (Meets.bind (hr.meets (by omega) hpalette) ?_)
      rintro ⟨pix, len⟩ s₁ ⟨t, ht, hbytes, hlen, rfl, hs₁⟩
      obtain ⟨hle', hleft⟩ := left_after pix hlt hlen
      have hshort : s₁.bytes.length < rounds := by
        have hpos := hr.bytes_pos ht
        rw [hbytes, List.length_append] at hrounds
        omega
      obtain ⟨rest, hrest⟩ : ∃ rest, rest = s₁.bytes := ⟨_, rfl⟩
      rw [← hrest] at hbytes hs₁ hshort
      subst hs₁
      have hstore : store (List.replicate t.len.toNat pix) (s.after indices t rest) = .ok ()
          { s.after indices t rest with pixels := s.pixels ++ List.replicate t.len.toNat pix } := rfl
      have hround : (store (List.replicate t.len.toNat pix) >>= fun _ =>
          readRuns readRun end_ rounds) (s.after indices t rest) = readRuns readRun end_ rounds
          { s.after indices t rest with pixels := s.pixels ++ List.replicate t.len.toNat pix } :=
        bind_ok hstore
      have hrest := ih (s := { s.after indices t rest with
        pixels := s.pixels ++ List.replicate t.len.toNat pix }) hpalette hle' hshort
      refine Meets.congr hround (hrest.mono ?_ fun _ _ h => h)
      rintro - s' ⟨ts, hts, hfills, hafter, hend⟩
      have hfills' : Fills (t :: ts) (end_ - s.pixels.length) := by
        refine ⟨Nat.sub_pos_of_lt hlt, hlen, ?_⟩
        rw [← hleft]
        exact hfills
      exact ⟨t :: ts, List.forall_mem_cons.mpr ⟨ht, hts⟩, hfills', hafter.cons hbytes, hend⟩
    · refine Meets.of_ok (if_neg hlt) ⟨[], nofun, ?_, .refl s, by omega⟩
      show end_ - s.pixels.length = 0
      omega

/-- Lengths that fit an `int` are what they stand for. -/
lemma Fills.sum {left : ℕ} (h : Fills ts left) (hint : ∀ t ∈ ts, t.total < 2 ^ 31) :
    (ts.map Token.len).sum = left ∧ ∀ t ∈ ts, t.len = t.total := by
  induction ts generalizing left with
  | nil =>
    have hzero : left = 0 := h
    exact ⟨by simp [hzero], nofun⟩
  | cons t ts ih =>
    obtain ⟨ht, hts⟩ := List.forall_mem_cons.mp hint
    obtain ⟨-, hle, hrest⟩ := h
    obtain ⟨hsum, hall⟩ := ih hrest hts
    have hlen := t.len_of_lt ht
    refine ⟨?_, List.forall_mem_cons.mpr ⟨hlen, hall⟩⟩
    rw [List.map_cons, List.sum_cons, hsum]
    omega

end Runs

/-! ### Packed pixels -/

/-- The palette index of pixel `j` of a row; of an index of eight bits the first one is ignored. -/
def indexAt (bppp : ℕ) (row : List UInt8) (j : ℕ) : ℕ := packedIndex bppp row j % 128

/-- The bytes of a row. -/
def rowSize (bppp tw : ℕ) : ℕ := (tw * bppp + 7) / 8

/-- The bits of a packed pixel divide a byte. -/
def Divides (bppp : ℕ) : Prop := bppp = 1 ∨ bppp = 2 ∨ bppp = 4 ∨ bppp = 8

lemma divides_bitsPerPackedPixel (palSize : ℕ) : Divides (bitsPerPackedPixel palSize) := by
  unfold bitsPerPackedPixel Divides
  split_ifs <;> omega

lemma packedMask (bppp n : ℕ) :
    (n &&& (1 <<< bppp - 1)) &&& 127 = n % 2 ^ bppp % 128 := by
  have hmask : 1 <<< bppp - 1 = 2 ^ bppp - 1 := by rw [Nat.one_shiftLeft]
  have hlow : (127 : ℕ) = 2 ^ 7 - 1 := rfl
  rw [hmask, Nat.and_two_pow_sub_one_eq_mod, hlow, Nat.and_two_pow_sub_one_eq_mod]

section Packed

variable {m : ColorModel} {bppp tw i n b nbits : ℕ} {row : List UInt8} {s : TileState}

/-- The byte with the bits of pixel `i`, of a row of which `row` has been read. -/
lemma readPackedByte_meets (hb : Divides bppp) (hat : PackedAt bppp row i b nbits)
    (hrow : row.length = rowSize bppp i) :
    Meets (readPackedByte b nbits) s
      (fun p s' => ∃ more, s.bytes = more ++ s'.bytes ∧ s' = { s with bytes := s'.bytes } ∧
        (row ++ more).length = rowSize bppp (i + 1) ∧
        p = (((row ++ more).getD (i * bppp / 8) 0).toNat, 8 - i * bppp % 8))
      (fun e _ => e ≠ .noFuel ∧ row.length + s.bytes.length < rowSize bppp (i + 1)) := by
  have hbits := hat.bits
  unfold readPackedByte rowSize at *
  by_cases hzero : nbits = 0
  · have hfull : i * bppp % 8 = 0 := by omega
    have hnext : ((i + 1) * bppp + 7) / 8 = row.length + 1 := by
      obtain rfl | rfl | rfl | rfl := hb <;> omega
    have hlast : i * bppp / 8 = row.length := by omega
    rw [if_pos hzero, hnext, hlast, hfull]
    cases hbytes : s.bytes with
    | nil =>
      have hread : readU8 s = .error .eof s := by rw [readU8, hbytes]
      exact Meets.of_error (bind_error hread) ⟨nofun, by simp⟩
    | cons c rest =>
      refine Meets.congr (bind_ok (readU8_ok hbytes)) (Meets.pure ⟨[c], rfl, rfl, ?_, ?_⟩)
      · rw [List.length_append]
        rfl
      · rw [List.getD_append_right _ _ _ _ le_rfl, Nat.sub_self]
        rfl
  · have hsame : ((i + 1) * bppp + 7) / 8 = row.length := by
      obtain rfl | rfl | rfl | rfl := hb <;> omega
    have hleft : nbits = 8 - i * bppp % 8 := by omega
    rw [if_neg hzero]
    refine Meets.pure ⟨[], rfl, rfl, ?_, ?_⟩
    · rw [List.append_nil, hsame]
    · rw [List.append_nil, ← hat.byte hzero, ← hleft]

lemma packedAt_next (hb : Divides bppp) :
    PackedAt bppp row (i + 1) (row.getD (i * bppp / 8) 0).toNat (8 - i * bppp % 8 - bppp) where
  bits := by obtain rfl | rfl | rfl | rfl := hb <;> omega
  byte := by
    intro hleft
    have hsame : (i + 1) * bppp / 8 = i * bppp / 8 := by
      obtain rfl | rfl | rfl | rfl := hb <;> omega
    rw [hsame]

/-- The index of a pixel is in the bytes that have been read when it is. -/
lemma indexAt_append (hb : Divides bppp) (hrow : rowSize bppp (i + 1) ≤ row.length)
    (more : List UInt8) : indexAt bppp (row ++ more) i = indexAt bppp row i := by
  have hlt : i * bppp / 8 < row.length := by
    unfold rowSize at hrow
    obtain rfl | rfl | rfl | rfl := hb <;> omega
  rw [indexAt, packedIndex, List.getD_append _ _ _ _ hlt]
  rfl

lemma rowSize_mono (hle : i ≤ n) : rowSize bppp i ≤ rowSize bppp n :=
  Nat.div_le_div_right (Nat.add_le_add_right (Nat.mul_le_mul_right _ hle) _)

/-- The rest of a row. -/
lemma readZrlePackedRow_meets (hb : Divides bppp) (row : List UInt8)
    (hpalette : s.palette.length = 128) (hat : PackedAt bppp row i b nbits) (hrow : row.length = rowSize bppp i) :
    Meets (readZrlePackedRow m bppp n b nbits) s
      (fun _ s' => ∃ more, s.bytes = more ++ s'.bytes ∧
        (row ++ more).length = rowSize bppp (i + n) ∧ s'.palette.length = 128 ∧
        s'.pixels.length = s.pixels.length + n ∧ s'.runs = s.runs ∧
        s'.indices = s.indices ++ (List.range' i n).map (indexAt bppp (row ++ more)))
      (fun e _ => e ≠ .noFuel ∧ row.length + s.bytes.length < rowSize bppp (i + n)) := by
  induction n generalizing i b nbits row s with
  | zero =>
    refine Meets.pure ⟨[], rfl, ?_, hpalette, rfl, rfl, ?_⟩
    · rw [List.append_nil, hrow, Nat.add_zero]
    · simp
  | succ n ih =>
    have hle : rowSize bppp (i + 1) ≤ rowSize bppp (i + (n + 1)) := rowSize_mono (by omega)
    refine Meets.bind ((readPackedByte_meets (s := s) hb hat hrow).mono (fun _ _ h => h)
      fun e _ h => ⟨h.1, h.2.trans_le hle⟩) ?_
    rintro - s₁ ⟨more, hbytes, hs₁, hlen, rfl⟩
    have hindex : (((row ++ more).getD (i * bppp / 8) 0).toNat >>> (8 - i * bppp % 8 - bppp) &&&
        (1 <<< bppp - 1)) &&& 127 = indexAt bppp (row ++ more) i := by
      rw [packedMask, indexAt, packedIndex, Nat.sub_right_comm]
    have hin : indexAt bppp (row ++ more) i < s₁.palette.length := by
      rw [hs₁, hpalette]
      exact Nat.mod_lt _ (by decide)
    obtain ⟨pix, hpix⟩ := paletteAt_ok hin
    rw [← hindex] at hpix
    refine Meets.congr (bind_ok hpix) ?_
    have hstore : store [m.lookup pix] { s₁ with
        indices := s₁.indices ++ [indexAt bppp (row ++ more) i] } = .ok () { s₁ with
        indices := s₁.indices ++ [indexAt bppp (row ++ more) i]
        pixels := s₁.pixels ++ [m.lookup pix] } := rfl
    rw [hindex]
    refine Meets.congr (bind_ok hstore) ?_
    have hpalette₁ : s₁.palette.length = 128 := by rw [hs₁, hpalette]
    refine (ih (row ++ more) (s := { s₁ with
      indices := s₁.indices ++ [indexAt bppp (row ++ more) i]
      pixels := s₁.pixels ++ [m.lookup pix] }) hpalette₁ (packedAt_next hb) hlen).mono ?_ ?_
    · rintro - s₂ ⟨rest, hbytes₂, hlen₂, hpalette₂, hpixels, hruns, hindices⟩
      have hrest : s₁.bytes = rest ++ s₂.bytes := hbytes₂
      refine ⟨more ++ rest, ?_, ?_, hpalette₂, ?_, ?_, ?_⟩
      · rw [hbytes, hrest, List.append_assoc]
      · rw [← List.append_assoc, hlen₂]
        congr 1
        omega
      · rw [hpixels, hs₁]
        simp only [List.length_append, List.length_singleton]
        omega
      · rw [hruns, hs₁]
      · have hsame := indexAt_append hb hlen.ge rest
        rw [hindices, hs₁, ← List.append_assoc row, List.range'_succ, List.map_cons, hsame]
        simp only [List.append_assoc, List.singleton_append]
    · rintro e s₂ ⟨he, hshort⟩
      refine ⟨he, ?_⟩
      have hlength := congrArg List.length hbytes
      rw [List.length_append] at hlength hshort
      have hsum : i + 1 + n = i + (n + 1) := by omega
      rw [hsum] at hshort
      have hshort' : row.length + more.length + s₁.bytes.length < rowSize bppp (i + (n + 1)) :=
        hshort
      omega

/-- The palette indices of a packed tile. -/
def packedIndices (bppp tw : ℕ) (body : List UInt8) (th : ℕ) : List ℕ :=
  (List.range th).flatMap fun i =>
    (List.range tw).map (indexAt bppp (body.drop (i * rowSize bppp tw)))

lemma packedIndices_succ {body rest : List UInt8} (hb : Divides bppp) (hbody : body = row ++ rest)
    (hlen : row.length = rowSize bppp tw) (th : ℕ) :
    packedIndices bppp tw body (th + 1) =
      (List.range tw).map (indexAt bppp row) ++ packedIndices bppp tw rest th := by
  rw [packedIndices, List.range_succ_eq_map, List.flatMap_cons, List.flatMap_map]
  congr 1
  · refine List.map_congr_left fun j hj => ?_
    have hj' : rowSize bppp (j + 1) ≤ row.length := by
      rw [hlen]
      exact rowSize_mono (List.mem_range.mp hj)
    rw [Nat.zero_mul, List.drop_zero, hbody, indexAt_append hb hj']
  · refine List.flatMap_congr fun i _ => ?_
    have hnext : (i + 1) * rowSize bppp tw = row.length + i * rowSize bppp tw := by
      rw [hlen, Nat.succ_mul, Nat.add_comm]
    rw [hnext, hbody, List.drop_length_add_append]

lemma readZrlePackedPixels_meets (m : ColorModel) (tw palSize th : ℕ)
    (hpalette : s.palette.length = 128) :
    Meets (readZrlePackedPixels m tw palSize th) s
      (fun _ s' => s'.pixels.length = s.pixels.length + th * tw ∧ s'.runs = s.runs ∧
        th * rowSize (bitsPerPackedPixel palSize) tw ≤ s.bytes.length ∧
        s'.indices = s.indices ++ packedIndices (bitsPerPackedPixel palSize) tw s.bytes th)
      (fun e _ => e ≠ .noFuel ∧
        s.bytes.length < th * rowSize (bitsPerPackedPixel palSize) tw) := by
  have hb := divides_bitsPerPackedPixel palSize
  induction th generalizing s with
  | zero =>
    refine Meets.pure ⟨?_, rfl, ?_, ?_⟩
    · rw [Nat.zero_mul, Nat.add_zero]
    · rw [Nat.zero_mul]
      exact Nat.zero_le _
    · exact (List.append_nil _).symm
  | succ th ih =>
    have hat : PackedAt (bitsPerPackedPixel palSize) [] 0 0 0 :=
      ⟨by rw [Nat.zero_mul], fun h => absurd rfl h⟩
    have hzero : ([] : List UInt8).length = rowSize (bitsPerPackedPixel palSize) 0 := by
      rw [rowSize, Nat.zero_mul]
      rfl
    refine Meets.bind ((readZrlePackedRow_meets hb [] hpalette hat hzero).mono (fun _ _ h => h)
      ?_) ?_
    · rintro e s₁ ⟨he, hshort⟩
      refine ⟨he, ?_⟩
      rw [List.length_nil, Nat.zero_add, Nat.zero_add] at hshort
      rw [Nat.succ_mul]
      omega
    · rintro - s₁ ⟨row, hbytes, hlen, hpalette₁, hpixels, hruns, hindices⟩
      rw [List.nil_append, Nat.zero_add] at hlen
      rw [List.nil_append, ← List.range_eq_range'] at hindices
      refine (ih hpalette₁).mono ?_ ?_
      · rintro - s₂ ⟨hpixels₂, hruns₂, hlong, hindices₂⟩
        refine ⟨?_, hruns₂.trans hruns, ?_, ?_⟩
        · rw [hpixels₂, hpixels, Nat.succ_mul]
          omega
        · rw [hbytes, List.length_append, hlen, Nat.succ_mul]
          omega
        · rw [hindices₂, hindices, List.append_assoc]
          congr 1
          exact (packedIndices_succ hb hbytes hlen th).symm
      · rintro e s₂ ⟨he, hshort⟩
        refine ⟨he, ?_⟩
        rw [hbytes, List.length_append, hlen, Nat.succ_mul]
        omega

end Packed

/-! ### A tile -/

section Tile

variable {m : ColorModel} {tw th palSize n : ℕ} {s : TileState}

lemma readPixels_meets (m : ColorModel) (count : ℕ) (s : TileState) :
    Meets (readPixels m count) s
      (fun pixels s' => pixels.length = count ∧ count * m.cpixelSize ≤ s.bytes.length ∧
        s' = { s with bytes := s.bytes.drop (count * m.cpixelSize) })
      (fun e _ => e ≠ .noFuel ∧ s.bytes.length < count * m.cpixelSize) := by
  by_cases hlong : count * m.cpixelSize ≤ s.bytes.length
  · have hread : readBytes (count * m.cpixelSize) s = .ok (s.bytes.take (count * m.cpixelSize))
        { s with bytes := s.bytes.drop (count * m.cpixelSize) } := if_pos hlong
    refine Meets.congr (bind_ok hread) (Meets.pure ⟨?_, hlong, rfl⟩)
    rw [List.length_map, List.length_range]
  · have hread : readBytes (count * m.cpixelSize) s = .error .eof s := if_neg hlong
    exact Meets.of_error (bind_error hread) ⟨nofun, not_le.mp hlong⟩

/-- What a tile that has been decoded is to have: all its pixels, palette indices below the size of
its palette, and, if it has runs, lengths that add up to its size, each of them the number that it
stands for. -/
structure Exact (tw th palSize : ℕ) (rle : Bool) (s : TileState) : Prop where
  pixels : s.pixels.length = tw * th
  indices : ∀ i ∈ s.indices, i < palSize
  runs : rle = true → palSize ≠ 1 → (s.runs.map Prod.fst).sum = (tw * th : ℕ)
  lengths : ∀ r ∈ s.runs, r.1 = r.2

/-- Nothing has been decoded yet. -/
def Fresh (s : TileState) : Prop :=
  s.palette.length = 128 ∧ s.pixels = [] ∧ s.indices = [] ∧ s.runs = []

/-- The lengths of the runs that fill the tile fit an `int`, and their indices are below the size of
the palette. -/
def RunsInRange (valid : Token → Prop) (indices : Token → List ℕ) (palSize n : ℕ)
    (body : List UInt8) : Prop :=
  ∀ ts rest, (∀ t ∈ ts, valid t) → body = ts.flatMap Token.bytes ++ rest → Fills ts n →
    ∀ t ∈ ts, t.total < 2 ^ 31 ∧ ∀ i ∈ indices t, i < palSize

lemma length_le_flatMap {valid : Token → Prop} {ts : List Token}
    (hpos : ∀ {t}, valid t → 0 < t.bytes.length) (hvalid : ∀ t ∈ ts, valid t) :
    ts.length ≤ (ts.flatMap Token.bytes).length := by
  induction ts with
  | nil => exact le_rfl
  | cons t ts ih =>
    obtain ⟨ht, hts⟩ := List.forall_mem_cons.mp hvalid
    have hone := hpos ht
    have hrest := ih hts
    rw [List.flatMap_cons, List.length_append, List.length_cons]
    omega

lemma Token.total_lt_of_len_eq {t : Token} (h : t.len = t.total) : t.total < 2 ^ 31 := by
  have hwrap : wrap32 t.total = t.total := (Token.lengthInt_eq t.length?).symm.trans h
  unfold wrap32 at hwrap
  omega

/-- Reading runs is exact if and only if those that fill the tile are in range. -/
lemma readRuns_exact_iff {readRun : ℕ → TileM (UInt32 × ℤ)} {valid : Token → Prop}
    {indices : Token → List ℕ} (hr : ReadsRuns readRun valid indices) (hs : Fresh s) :
    Meets (readRuns readRun (tw * th) (s.bytes.length + 1)) s (fun _ => Exact tw th palSize true)
        (fun e _ => e ≠ .noFuel) ↔
      RunsInRange valid indices palSize (tw * th) s.bytes := by
  obtain ⟨hpalette, hpixels, hindices, hruns⟩ := hs
  have hleft : tw * th - s.pixels.length = tw * th := by rw [hpixels]; rfl
  have hle : s.pixels.length ≤ tw * th := by
    rw [hpixels]
    exact Nat.zero_le _
  constructor
  · intro hexact ts rest hvalid hbytes hfills t ht
    have hrounds : ts.length ≤ s.bytes.length + 1 := by
      have hlen := length_le_flatMap hr.bytes_pos hvalid
      rw [hbytes, List.length_append]
      omega
    obtain ⟨s', hrun, hafter, -⟩ :=
      readRuns_ok hr hpalette hvalid hbytes hle (hleft.symm ▸ hfills) hrounds
    have hs' := hexact.ok hrun
    refine ⟨Token.total_lt_of_len_eq (hs'.lengths (t.len, t.total) ?_),
      fun i hi => hs'.indices i ?_⟩
    · rw [hafter.runs_eq, hruns]
      exact List.mem_map_of_mem ht
    · rw [hafter.indices_eq, hindices]
      exact List.mem_flatMap.mpr ⟨t, ht, hi⟩
  · intro hrange
    refine (readRuns_meets hr hpalette hle (Nat.lt_succ_self _)).mono ?_ fun _ _ h => h
    rintro - s' ⟨ts, hvalid, hfills, hafter, hend⟩
    rw [hleft] at hfills
    have hts := hrange ts s'.bytes hvalid hafter.bytes_eq hfills
    obtain ⟨hsum, hlen⟩ := hfills.sum fun t ht => (hts t ht).1
    refine ⟨hend, ?_, fun _ _ => ?_, ?_⟩
    · intro i hi
      rw [hafter.indices_eq, hindices] at hi
      obtain ⟨t, ht, hi⟩ := List.mem_flatMap.mp hi
      exact (hts t ht).2 i hi
    · rw [hafter.runs_eq, hruns, List.nil_append, List.map_map]
      exact hsum
    · intro r hr
      rw [hafter.runs_eq, hruns] at hr
      obtain ⟨t, ht, rfl⟩ := List.mem_map.mp hr
      exact hlen t ht

/-- The indices of a packed tile are below the size of its palette, if it has all its bytes. -/
def PackedInRange (tw th palSize : ℕ) (body : List UInt8) : Prop :=
  th * rowSize (bitsPerPackedPixel palSize) tw ≤ body.length →
    ∀ i ∈ packedIndices (bitsPerPackedPixel palSize) tw body th, i < palSize

lemma readZrlePackedPixels_exact_iff (hs : Fresh s) :
    Meets (readZrlePackedPixels m tw palSize th) s (fun _ => Exact tw th palSize false)
        (fun e _ => e ≠ .noFuel) ↔
      PackedInRange tw th palSize s.bytes := by
  obtain ⟨hpalette, hpixels, hindices, hruns⟩ := hs
  have hmeets := readZrlePackedPixels_meets m tw palSize th hpalette
  constructor
  · intro hexact hlong i hi
    cases hrun : readZrlePackedPixels m tw palSize th s with
    | ok u s' =>
      obtain ⟨-, -, -, hall⟩ := hmeets.ok hrun
      rw [hindices] at hall
      exact (hexact.ok hrun).indices i (hall ▸ hi)
    | error e s' => exact absurd (hmeets.error hrun).2 (not_lt.mpr hlong)
  · intro hrange
    refine hmeets.mono ?_ fun _ _ h => h.1
    rintro - s' ⟨hlen, hruns', hlong, hall⟩
    refine ⟨?_, ?_, nofun, ?_⟩
    · rw [hlen, hpixels, List.length_nil, Nat.zero_add, Nat.mul_comm]
    · intro i hi
      rw [hall, hindices] at hi
      exact hrange hlong i hi
    · rw [hruns', hruns]
      nofun

/-- What the bytes after the palette have to meet. -/
def BodyInRange (m : ColorModel) (tw th : ℕ) (rle : Bool) (palSize : ℕ) (body : List UInt8) : Prop :=
  if palSize = 1 then True
  else if rle then
    if palSize = 0 then RunsInRange (Token.Plain m) (fun _ => []) palSize (tw * th) body
    else RunsInRange Token.Packed (fun t => [t.index]) palSize (tw * th) body
  else
    if palSize = 0 then True else PackedInRange tw th palSize body

lemma readZrleTilePixels_exact_iff (rle : Bool) (hs : Fresh s) :
    Meets (readZrleTilePixels m tw th rle palSize) s (fun _ => Exact tw th palSize rle)
        (fun e _ => e ≠ .noFuel) ↔
      BodyInRange m tw th rle palSize s.bytes := by
  obtain ⟨hpalette, hpixels, hindices, hruns⟩ := hs
  unfold readZrleTilePixels BodyInRange
  by_cases hone : palSize = 1
  · rw [if_pos hone, if_pos hone, iff_true]
    obtain ⟨pix, hpix⟩ := @paletteAt_ok s 0 (hpalette ▸ by decide)
    refine Meets.congr (bind_ok hpix) (Meets.of_ok rfl ⟨?_, ?_, fun _ hno => absurd hone hno, ?_⟩)
    · simp [hpixels]
    · simp [hindices, hone]
    · simp [hruns]
  · rw [if_neg hone, if_neg hone]
    cases rle with
    | true =>
      rw [if_pos rfl, if_pos rfl]
      by_cases hzero : palSize = 0
      · rw [if_pos hzero, if_pos hzero]
        exact readRuns_exact_iff (readsRuns_plain m) ⟨hpalette, hpixels, hindices, hruns⟩
      · rw [if_neg hzero, if_neg hzero]
        exact readRuns_exact_iff (readsRuns_packed m) ⟨hpalette, hpixels, hindices, hruns⟩
    | false =>
      rw [if_neg Bool.false_ne_true, if_neg Bool.false_ne_true]
      by_cases hzero : palSize = 0
      · rw [if_pos hzero, if_pos hzero, iff_true]
        refine Meets.bind ((readPixels_meets m (tw * th) s).mono (fun _ _ h => h)
          fun _ _ h => h.1) ?_
        rintro pixels s' ⟨hlen, -, rfl⟩
        refine Meets.of_ok rfl ⟨?_, ?_, nofun, ?_⟩
        · simp [hpixels, hlen]
        · simp [hindices]
        · simp [hruns]
      · rw [if_neg hzero, if_neg hzero]
        exact readZrlePackedPixels_exact_iff ⟨hpalette, hpixels, hindices, hruns⟩

lemma readZrlePalette_meets (m : ColorModel) (hsize : palSize ≤ 128) (hs : Fresh s) :
    Meets (readZrlePalette m palSize) s
      (fun _ s' => palSize * m.cpixelSize ≤ s.bytes.length ∧ Fresh s' ∧
        s'.bytes = s.bytes.drop (palSize * m.cpixelSize))
      (fun e _ => e ≠ .noFuel ∧ s.bytes.length < palSize * m.cpixelSize) := by
  obtain ⟨hpalette, hpixels, hindices, hruns⟩ := hs
  refine Meets.bind (readPixels_meets m palSize s) ?_
  rintro pixels s₁ ⟨hlen, hlong, rfl⟩
  refine Meets.of_ok rfl ⟨hlong, ⟨?_, hpixels, hindices, hruns⟩, rfl⟩
  rw [List.length_append, List.length_drop, hpalette, hlen]
  omega

/-- A tile with a mode and the colours of its palette has a body in range. -/
def TileInRange (m : ColorModel) (tw th : ℕ) : List UInt8 → Prop
  | [] => True
  | mode :: rest =>
    (mode &&& 127).toNat * m.cpixelSize ≤ rest.length →
      BodyInRange m tw th (mode &&& 128 ≠ 0) (mode &&& 127).toNat
        (rest.drop ((mode &&& 127).toNat * m.cpixelSize))

/-- What decoding the tile of these bytes is to come to, after the mode. -/
def TileExact (tw th : ℕ) : List UInt8 → TileState → Prop
  | [], _ => False
  | mode :: _, s => Exact tw th (mode &&& 127).toNat (mode &&& 128 ≠ 0) s

/-- Decoding the tile of these bytes, with what the palette holds from the tiles before, throws or
is exact. -/
@[irreducible]
def DecodesExactly (m : ColorModel) (tw th : ℕ) (palette : List UInt32) (bytes : List UInt8) :
    Prop :=
  Meets (decodeTile m tw th) ⟨bytes, palette, [], [], []⟩ (fun _ => TileExact tw th bytes)
    (fun e _ => e ≠ .noFuel)

lemma DecodesExactly.exact {palette : List UInt32} {bytes : List UInt8} {s' : TileState}
    (h : DecodesExactly m tw th palette bytes)
    (hrun : decodeTile m tw th ⟨bytes, palette, [], [], []⟩ = .ok () s') :
    TileExact tw th bytes s' := by
  unfold DecodesExactly at h
  exact h.ok hrun

/-- A tile of any mode is decoded exactly if and only if its indices and the lengths of its runs are
in range. -/
theorem decodesExactly_iff (m : ColorModel) (tw th : ℕ) (bytes : List UInt8)
    {palette : List UInt32} (hpalette : palette.length = 128) :
    DecodesExactly m tw th palette bytes ↔ TileInRange m tw th bytes := by
  unfold DecodesExactly
  cases bytes with
  | nil => exact ⟨fun _ => trivial, fun _ => Meets.of_error (bind_error rfl) nofun⟩
  | cons mode rest =>
    have hread : readU8 ⟨mode :: rest, palette, [], [], []⟩ =
        .ok mode ⟨rest, palette, [], [], []⟩ := rfl
    have hsize : (mode &&& 127).toNat ≤ 128 := (and_127_lt mode).le
    have hcolors := @readZrlePalette_meets _ ⟨rest, palette, [], [], []⟩ m hsize
      ⟨hpalette, rfl, rfl, rfl⟩
    have hbody {s' : TileState} (hs' : Fresh s') :=
      @readZrleTilePixels_exact_iff m tw th (mode &&& 127).toNat s' (mode &&& 128 ≠ 0) hs'
    constructor
    · intro hexact hlong
      cases hrun : readZrlePalette m (mode &&& 127).toNat ⟨rest, palette, [], [], []⟩ with
      | ok u s' =>
        obtain ⟨-, hs', hbytes⟩ := hcolors.ok hrun
        have hrest := Meets.congr ((bind_ok hread).trans (bind_ok hrun)).symm hexact
        exact hbytes ▸ (hbody hs').mp hrest
      | error e s' => exact absurd (hcolors.error hrun).2 (not_lt.mpr hlong)
    · intro hrange
      refine Meets.congr (bind_ok hread) (Meets.bind (hcolors.mono (fun _ _ h => h)
        fun _ _ h => h.1) ?_)
      rintro - s' ⟨hlong, hs', hbytes⟩
      exact (hbody hs').mpr (hbytes ▸ hrange hlong)

/-- A tile of three pixels with three colours, which are the first three of its palette. -/
theorem decodesExactly_three_colours :
    DecodesExactly .c256 3 1 (List.replicate 128 0) [3, 10, 20, 30, 0b00011000] := by
  have hpacked : PackedInRange 3 1 3 [0b00011000] := fun _ => by decide +kernel
  have hbody : BodyInRange .c256 3 1 false 3 [0b00011000] := by
    unfold BodyInRange
    rwa [if_neg (by decide), if_neg (by decide), if_neg (by decide)]
  exact (decodesExactly_iff .c256 3 1 [3, 10, 20, 30, 0b00011000] List.length_replicate).mpr
    fun _ => hbody

lemma decodeTile_fourth_colour :
    Meets (decodeTile .c256 3 1) ⟨[3, 10, 20, 30, 0b00011100], List.replicate 128 0, [], [], []⟩
      (fun _ s => s.indices = [0, 1, 3]) (fun _ _ => False) := by
  decide +kernel

/-- The last pixel is of a fourth colour, which an earlier tile left in the palette. -/
theorem not_decodesExactly_fourth_colour :
    ¬ DecodesExactly .c256 3 1 (List.replicate 128 0) [3, 10, 20, 30, 0b00011100] := by
  intro h
  cases hrun : decodeTile .c256 3 1
      ⟨[3, 10, 20, 30, 0b00011100], List.replicate 128 0, [], [], []⟩ with
  | ok u s' =>
    have hindices : s'.indices = [0, 1, 3] := decodeTile_fourth_colour.ok hrun
    have hthree : 3 ∈ s'.indices := by
      rw [hindices]
      decide
    exact absurd ((h.exact hrun).indices 3 hthree) (by decide)
  | error e s' => exact decodeTile_fourth_colour.error hrun

end Tile

end Limbo.Vnc.TileDecoder
