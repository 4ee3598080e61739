import Limbo.Vnc.Zlib

/-!
# Reading ZRLE data

`Reads` says what an action takes off the stream of the decompressed bytes, whatever comes after
them. The readers of pixels, palettes, runs and packed rows are specified with it.
-/

namespace Limbo.Vnc

open Lib
open ZlibInStream (Delivers)

variable {I : Inflater} {Q : I.State → Prop} {c c' c₁ : Conn I} {m : ColorModel} {tw fuel : ℕ}

/-! ### Reading the decompressed bytes -/

/-- The connection with this stream of decompressed bytes. -/
def Conn.withStream (c : Conn I) (z : ZlibInStream I) : Conn I := { c with zrleInStream := z }

def Conn.withPalette (c : Conn I) (palette : List UInt32) : Conn I :=
  { c with handleZRLERectPalette := palette }

section Reads

variable {β γ : Type} {a : ConnM I β} {f : β → ConnM I γ} {b : β} {r : γ} {bs bs' : List UInt8}

/-- The action takes the bytes `bs` off any stream that has them next, and returns `b`. -/
def Reads (Q : I.State → Prop) (a : ConnM I β) (c : Conn I) (bs : List UInt8) (b : β)
    (c' : Conn I) : Prop :=
  ∀ z d, Delivers Q z (bs ++ d) →
    ∃ z', a (c.withStream z) = .ok b (c'.withStream z') ∧ Delivers Q z' d

lemma Reads.pure (b : β) (c : Conn I) : Reads Q (Pure.pure b) c [] b c :=
  fun z _ hz => ⟨z, rfl, hz⟩

/-- An action that leaves the stream alone. -/
lemma Reads.of_eq (h : ∀ z, a (c.withStream z) = .ok b (c'.withStream z)) :
    Reads Q a c [] b c' :=
  fun z _ hz => ⟨z, h z, hz⟩

lemma Reads.bind (ha : Reads Q a c bs b c₁) (hf : Reads Q (f b) c₁ bs' r c') :
    Reads Q (a >>= f) c (bs ++ bs') r c' := by
  intro z d hz
  rw [List.append_assoc] at hz
  obtain ⟨z₁, hrun, hz₁⟩ := ha z (bs' ++ d) hz
  obtain ⟨z₂, hrun', hz₂⟩ := hf z₁ d hz₁
  exact ⟨z₂, (bind_ok hrun).trans hrun', hz₂⟩

/-- An action that reads nothing in front of another one. -/
lemma Reads.bind_silent (ha : Reads Q a c [] b c₁) (hf : Reads Q (f b) c₁ bs r c') :
    Reads Q (a >>= f) c bs r c' := ha.bind hf

/-- An action that reads nothing behind another one. -/
lemma Reads.bind_last (ha : Reads Q a c bs b c₁) (hf : Reads Q (f b) c₁ [] r c') :
    Reads Q (a >>= f) c bs r c' := by
  have h := ha.bind hf
  rwa [List.append_nil] at h

/-- What is returned is made of the last that is read. -/
lemma Reads.map (ha : Reads Q a c bs b c') (g : β → γ) :
    Reads Q (a >>= fun b => Pure.pure (g b)) c bs (g b) c' :=
  ha.bind_last (Reads.pure (g b) c')

lemma reads_getColorModel : Reads Q getColorModel c [] c.colorModel c := .of_eq fun _ => rfl

lemma reads_paletteAt {i : ℕ} {pix : UInt32} (h : c.handleZRLERectPalette[i]? = some pix) :
    Reads Q (paletteAt i) c [] pix c := by
  apply Reads.of_eq
  intro z
  have hz : (c.withStream z).handleZRLERectPalette[i]? = some pix := h
  simp only [paletteAt, hz]

lemma zrle_ok {x : EStateM Exn (ZlibInStream I) β} {z z' : ZlibInStream I} (h : x z = .ok b z') :
    zrle x (c.withStream z) = .ok b (c.withStream z') := by
  have hz : x (c.withStream z).zrleInStream = .ok b z' := h
  simp only [zrle, hz]
  rfl

lemma reads_readU8 (u : UInt8) :
    Reads Q (zrle (ZlibInStream.readU8 (fuel + 1))) c [u] u c := by
  intro z d hz
  obtain ⟨z', hrun, hz'⟩ := ZlibInStream.readU8_delivers fuel hz
  exact ⟨z', zrle_ok hrun, hz'⟩

lemma reads_readBytes (bs : List UInt8) :
    Reads Q (zrle (ZlibInStream.readBytes (fuel + 1) bs.length)) c bs bs c := by
  intro z d hz
  obtain ⟨z', hrun, hz'⟩ := ZlibInStream.readBytes_delivers fuel hz
  exact ⟨z', zrle_ok hrun, hz'⟩

end Reads

/-! ### Pixels -/

namespace Pixel

variable (m)

/-- The number that the decoder has for the pixel. -/
def value (p : Pixel) : UInt32 :=
  match m.palette with
  | some _ => p.b0.toUInt32
  | none => (p.b2.toUInt32 <<< 16) ||| (p.b1.toUInt32 <<< 8) ||| p.b0.toUInt32

lemma cpixel_cbytes (p : Pixel) (bs : List UInt8) : m.cpixel (p.cbytes m ++ bs) = p.value m := by
  cases m <;> rfl

lemma lookup_value (p : Pixel) : m.lookup (p.value m) = p.rawColor m := by
  cases m <;> simp [ColorModel.lookup, value, rawColor, ColorModel.palette]

lemma solidColor_value (p : Pixel) : m.solidColor (p.value m) = p.color m := by
  cases m <;> simp [ColorModel.solidColor, value, color, ColorModel.palette, rgb, UInt32.or_assoc]

end Pixel

lemma reads_readPixel (hm : c.colorModel = m) (p : Pixel) :
    Reads Q (readPixel (fuel + 1)) c (p.cbytes m) (p.value m) c := by
  apply reads_getColorModel.bind_silent
  rw [hm]
  cases hpal : m.palette with
  | some colors =>
    simp only [Pixel.cbytes, Pixel.value, hpal]
    exact (reads_readU8 p.b0).map UInt8.toUInt32
  | none =>
    have hvalue : m.cpixel [p.b0, p.b1, p.b2] = p.value m := by
      simp only [ColorModel.cpixel, Pixel.value, hpal]
      rfl
    simp only [Pixel.cbytes, hpal, ← hvalue]
    apply (reads_readU8 p.b0).bind
    apply (reads_readU8 p.b1).bind
    exact (reads_readU8 p.b2).map fun p3 => m.cpixel [p.b0, p.b1, p3]

lemma cpixels_eq (pixels : List Pixel) :
    ((List.range pixels.length).map fun i =>
      m.cpixel ((pixels.flatMap (Pixel.cbytes m)).drop (i * m.cpixelSize))) =
      pixels.map (Pixel.value m) := by
  apply List.ext_getElem
  · simp
  · intro i hi _
    have hi' : i < pixels.length := by simpa using hi
    simp only [List.getElem_map, List.getElem_range,
      drop_items_eq (Pixel.length_cbytes m) hi', Pixel.cpixel_cbytes]

lemma reads_readPixels (hm : c.colorModel = m) (pixels : List Pixel) :
    Reads Q (readPixels (fuel + 1) pixels.length) c (pixels.flatMap (Pixel.cbytes m))
      (pixels.map (Pixel.value m)) c := by
  apply reads_getColorModel.bind_silent
  rw [hm, ← length_items (Pixel.length_cbytes m), ← cpixels_eq]
  exact (reads_readBytes _).map fun bs =>
    (List.range pixels.length).map fun i => m.cpixel (bs.drop (i * m.cpixelSize))

/-- The palette of a tile replaces the start of the palette of the tile before it. -/
def Conn.readPalette (m : ColorModel) (c : Conn I) (palette : List Pixel) : Conn I :=
  c.withPalette (palette.map (Pixel.value m) ++ c.handleZRLERectPalette.drop palette.length)

lemma reads_readZrlePalette (hm : c.colorModel = m) (palette : List Pixel) :
    Reads Q (readZrlePalette (fuel + 1) palette.length) c (palette.flatMap (Pixel.cbytes m)) ()
      (c.readPalette m palette) := by
  apply (reads_readPixels hm palette).bind_last
  apply Reads.of_eq
  intro z
  show EStateM.Result.ok () _ = _
  rw [List.length_map]
  rfl

/-! ### Runs -/

/-- The bytes of a length add up to one less. -/
lemma reads_readRunLength {n rounds : ℕ} {len : ℤ} (hrounds : (n - 1) / 255 < rounds)
    (hlow : 0 ≤ len) (hhigh : len + (n - 1 : ℕ) < 2147483648) :
    Reads Q (readRunLength (fuel + 1) rounds len) c (runLengthBytes n) (len + (n - 1 : ℕ)) c := by
  rw [runLengthBytes]
  generalize n - 1 = k at hrounds hhigh ⊢
  induction k using Nat.strong_induction_on generalizing rounds len with
  | _ k ih =>
    obtain ⟨rounds, rfl⟩ := Nat.exists_eq_add_one_of_ne_zero (Nat.ne_zero_of_lt hrounds)
    by_cases hk : k < 255
    · have hbyte : (UInt8.ofNat k).toNat = k := by
        rw [UInt8.toNat_ofNat']
        omega
      have hlast : UInt8.ofNat k ≠ 255 := by
        intro h
        have h255 := congrArg UInt8.toNat h
        rw [hbyte] at h255
        exact hk.ne h255
      rw [Nat.div_eq_of_lt hk, Nat.mod_eq_of_lt hk]
      apply (reads_readU8 (UInt8.ofNat k)).bind_last
      dsimp only
      rw [if_neg hlast, hbyte, wrap32_of_range (by omega) hhigh]
      exact Reads.pure _ c
    · have hsplit : List.replicate (k / 255) (255 : UInt8) ++ [UInt8.ofNat (k % 255)] =
          [255] ++ (List.replicate ((k - 255) / 255) 255 ++ [UInt8.ofNat ((k - 255) % 255)]) := by
        have hdiv : k / 255 = (k - 255) / 255 + 1 := by omega
        have hmod : k % 255 = (k - 255) % 255 := by omega
        rw [hdiv, hmod, List.replicate_succ]
        rfl
      have hsum : len + k = len + 255 + (k - 255 : ℕ) := by omega
      rw [hsplit, hsum]
      apply (reads_readU8 255).bind
      show Reads Q (if (255 : UInt8) = 255 then readRunLength (fuel + 1) rounds
        (wrap32 (len + (255 : UInt8).toNat)) else _) _ _ _ _
      have h255 : ((255 : UInt8).toNat : ℤ) = 255 := rfl
      rw [if_pos rfl, h255, wrap32_of_range (by omega) (by omega)]
      exact ih (k - 255) (by omega) (by omega) (by omega) (by omega)

/-- The lengths of runs of pixels that fill a tile of `left` pixels. -/
structure RunsFill (lengths : List ℕ) (left : ℕ) : Prop where
  pos : ∀ n ∈ lengths, 0 < n
  sum : lengths.sum = left

lemma RunsFill.cons {n left : ℕ} {lengths : List ℕ} (h : RunsFill (n :: lengths) left) :
    0 < n ∧ n ≤ left ∧ RunsFill lengths (left - n) := by
  have hsum : n + lengths.sum = left := by rw [← h.sum, List.sum_cons]
  refine ⟨h.pos n List.mem_cons_self, by omega, ?_, by omega⟩
  intro k hk
  exact h.pos k (List.mem_cons_of_mem n hk)

lemma RunsFill.nil {left : ℕ} (h : RunsFill [] left) : left = 0 := h.sum.symm

lemma reads_readZrlePlainRLEPixels (hm : c.colorModel = m) {runs : List (Pixel × ℕ)}
    {rounds left : ℕ} (hruns : RunsFill (runs.map Prod.snd) left) (hleft : left ≤ rounds)
    (hfuel : left ≤ fuel) (hsmall : left < 2147483648) :
    Reads Q (readZrlePlainRLEPixels (fuel + 1) rounds left) c
      (runs.flatMap fun r => r.1.cbytes m ++ runLengthBytes r.2)
      (runs.flatMap fun r => List.replicate r.2 (r.1.rawColor m)) c := by
  induction runs generalizing rounds left with
  | nil =>
    obtain rfl := hruns.nil
    cases rounds <;> exact Reads.pure _ _
  | cons r runs ih =>
    obtain ⟨p, n⟩ := r
    obtain ⟨hpos, hle, hrest⟩ := hruns.cons
    obtain ⟨left, rfl⟩ := Nat.exists_eq_add_one_of_ne_zero (Nat.ne_zero_of_lt (hpos.trans_le hle))
    obtain ⟨rounds, rfl⟩ := Nat.exists_eq_add_one_of_ne_zero (Nat.ne_zero_of_lt hleft)
    have hlen : (1 : ℤ) + (n - 1 : ℕ) = n := by omega
    have hread : Reads Q (readRunLength (fuel + 1) (fuel + 1) 1) c (runLengthBytes n)
        (1 + (n - 1 : ℕ)) c := reads_readRunLength (by omega) (by omega) (by omega)
    rw [hlen] at hread
    have hfits : (n : ℤ) ≤ (left + 1 : ℕ) := by exact_mod_cast hle
    have hnext := @ih rounds _ hrest (by omega) (by omega) (by omega)
    rw [List.flatMap_cons, List.flatMap_cons, List.append_assoc]
    apply reads_getColorModel.bind_silent
    apply (reads_readPixel hm p).bind
    apply hread.bind
    rw [if_pos hfits, hm, Pixel.lookup_value, Int.toNat_natCast]
    exact hnext.map fun rest => List.replicate n (p.rawColor m) ++ rest

/-! ### Palettes -/

/-- The connection has these pixels in the palette of the tile. -/
def HasPalette (m : ColorModel) (c : Conn I) (palette : List Pixel) : Prop :=
  ∀ i, i < palette.length →
    c.handleZRLERectPalette[i]? = some ((palette.getD i default).value m)

lemma hasPalette_readPalette (palette : List Pixel) :
    HasPalette m (c.readPalette m palette) palette := by
  intro i hi
  have hi' : i < (palette.map (Pixel.value m)).length := by rwa [List.length_map]
  show (palette.map (Pixel.value m) ++ _)[i]? = _
  rw [List.getElem?_append_left hi', List.getElem?_map, List.getElem?_eq_getElem hi,
    List.getD_eq_getElem _ _ hi]
  rfl

/-- The top bit of an index says whether a length follows. -/
lemma index_bits : ∀ i < 128, UInt8.ofNat i &&& 128 = 0 ∧ (UInt8.ofNat i &&& 127).toNat = i ∧
    UInt8.ofNat (i + 128) &&& 128 ≠ 0 ∧ (UInt8.ofNat (i + 128) &&& 127).toNat = i := by decide

lemma reads_readZrlePackedRLEPixels (hm : c.colorModel = m) {palette : List Pixel}
    (hpal : HasPalette m c palette) (hpalette : palette.length ≤ 127) {runs : List PaletteRun}
    {rounds left : ℕ} (hindex : ∀ r ∈ runs, r.index < palette.length)
    (hruns : RunsFill (runs.map PaletteRun.length) left) (hleft : left ≤ rounds)
    (hfuel : left ≤ fuel) (hsmall : left < 2147483648) :
    Reads Q (readZrlePackedRLEPixels (fuel + 1) rounds left) c (runs.flatMap PaletteRun.bytes)
      (runs.flatMap fun r => List.replicate r.length ((palette.getD r.index default).rawColor m))
      c := by
  induction runs generalizing rounds left with
  | nil =>
    obtain rfl := hruns.nil
    cases rounds <;> exact Reads.pure _ _
  | cons r runs ih =>
    obtain ⟨hpos, hle, hrest⟩ := hruns.cons
    obtain ⟨left, rfl⟩ := Nat.exists_eq_add_one_of_ne_zero (Nat.ne_zero_of_lt (hpos.trans_le hle))
    obtain ⟨rounds, rfl⟩ := Nat.exists_eq_add_one_of_ne_zero (Nat.ne_zero_of_lt hleft)
    have hi := hindex r List.mem_cons_self
    have hnext := @ih rounds _ (fun r hr => hindex r (List.mem_cons_of_mem _ hr)) hrest
      (by omega) (by omega) (by omega)
    have hfits : (r.length : ℤ) ≤ (left + 1 : ℕ) := by exact_mod_cast hle
    have hlookup : m.lookup ((palette.getD r.index default).value m) =
        (palette.getD r.index default).rawColor m := Pixel.lookup_value m _
    obtain ⟨hone, honeIndex, hrun, hrunIndex⟩ := index_bits r.index (by omega)
    rw [List.flatMap_cons, List.flatMap_cons]
    apply reads_getColorModel.bind_silent
    -- what is left of the round, once the index and the length have been read
    have hround : Reads Q (if (r.length : ℤ) ≤ (left + 1 : ℕ) then do
          let pix ← paletteAt r.index
          let rest ← readZrlePackedRLEPixels (fuel + 1) rounds (left + 1 - (r.length : ℤ).toNat)
          return List.replicate (r.length : ℤ).toNat (m.lookup pix) ++ rest
        else throw (.exception "ZRLE decoder: assertion failed (len <= end - ptr)")) c
        (runs.flatMap PaletteRun.bytes)
        (List.replicate r.length ((palette.getD r.index default).rawColor m) ++
          runs.flatMap fun r =>
            List.replicate r.length ((palette.getD r.index default).rawColor m)) c := by
      rw [if_pos hfits, Int.toNat_natCast]
      apply (reads_paletteAt (hpal r.index hi)).bind_silent
      rw [hlookup]
      exact hnext.map fun rest =>
        List.replicate r.length ((palette.getD r.index default).rawColor m) ++ rest
    rw [hm]
    cases r with
    | one i =>
      have hone : ¬ UInt8.ofNat i &&& 128 ≠ 0 := not_not.mpr hone
      have honeIndex : (UInt8.ofNat i &&& 127).toNat = i := honeIndex
      apply (reads_readU8 (UInt8.ofNat i)).bind
      dsimp only
      rw [if_neg hone, honeIndex]
      exact (Reads.pure 1 c).bind_silent hround
    | run i n =>
      have hpos : 0 < n := hpos
      have hle : n ≤ left + 1 := hle
      have hlen : (1 : ℤ) + (n - 1 : ℕ) = n := by omega
      have hread : Reads Q (readRunLength (fuel + 1) (fuel + 1) 1) c (runLengthBytes n)
          (1 + (n - 1 : ℕ)) c := reads_readRunLength (by omega) (by omega) (by omega)
      rw [hlen] at hread
      show Reads Q _ c ([UInt8.ofNat (i + 128)] ++ runLengthBytes n ++ _) _ c
      rw [List.append_assoc]
      have hrun : UInt8.ofNat (i + 128) &&& 128 ≠ 0 := hrun
      have hrunIndex : (UInt8.ofNat (i + 128) &&& 127).toNat = i := hrunIndex
      apply (reads_readU8 (UInt8.ofNat (i + 128))).bind
      dsimp only
      rw [if_pos hrun, hrunIndex]
      exact hread.bind hround

/-! ### Packed pixels -/

/-- The index in the bits of pixel `i` of a row. -/
def packedIndex (bppp : ℕ) (row : List UInt8) (i : ℕ) : ℕ :=
  ((row.getD (i * bppp / 8) 0).toNat >>> (8 - bppp - i * bppp % 8)) % 2 ^ bppp

/-- The bits of a packed pixel divide a byte. -/
def Packs (bppp : ℕ) : Prop := bppp = 1 ∨ bppp = 2 ∨ bppp = 4

lemma packs_bitsPerPackedPixel {palSize : ℕ} (h : palSize ≤ 16) :
    Packs (bitsPerPackedPixel palSize) := by
  unfold bitsPerPackedPixel Packs
  split_ifs <;> omega

lemma Packs.mask {bppp : ℕ} (h : Packs bppp) (n : ℕ) :
    (n &&& (1 <<< bppp - 1)) &&& 127 = n % 2 ^ bppp := by
  have hmask : (1 <<< bppp - 1) &&& 127 = 2 ^ bppp - 1 := by
    obtain rfl | rfl | rfl := h <;> rfl
  rw [Nat.and_assoc, hmask, Nat.and_two_pow_sub_one_eq_mod]

/-- What the decoder has in front of pixel `i`: the byte with its bits, if some of the byte is left,
and all bytes after that. -/
structure PackedAt (bppp : ℕ) (row : List UInt8) (i b nbits : ℕ) : Prop where
  bits : nbits = (8 - i * bppp % 8) % 8
  byte : nbits ≠ 0 → b = (row.getD (i * bppp / 8) 0).toNat

/-- The byte with the bits of pixel `i` is read unless there is some of it left. -/
lemma reads_packedByte {β : Type} {bppp i b nbits : ℕ} {row : List UInt8} (hb : Packs bppp)
    (hat : PackedAt bppp row i b nbits) (hi : i * bppp < 8 * row.length)
    {f : ℕ × ℕ → ConnM I β} {bs : List UInt8} {r : β}
    (hf : Reads Q (f ((row.getD (i * bppp / 8) 0).toNat, 8 - i * bppp % 8)) c
      (row.drop (((i + 1) * bppp + 7) / 8) ++ bs) r c') :
    Reads Q (if nbits = 0 then do
        let b ← zrle (ZlibInStream.readU8 (fuel + 1))
        let x ← pure (b.toNat, 8)
        f x
      else do
        let x ← pure (b, nbits)
        f x) c (row.drop ((i * bppp + 7) / 8) ++ bs) r c' := by
  have hbits := hat.bits
  by_cases hzero : nbits = 0
  · have hlt : i * bppp / 8 < row.length := by omega
    have hmod : i * bppp % 8 = 0 := by omega
    have hfirst : (i * bppp + 7) / 8 = i * bppp / 8 := by omega
    have hnext : ((i + 1) * bppp + 7) / 8 = i * bppp / 8 + 1 := by
      obtain rfl | rfl | rfl := hb <;> omega
    rw [hnext, List.getD_eq_getElem _ _ hlt, hmod] at hf
    rw [if_pos hzero, hfirst, List.drop_eq_getElem_cons hlt]
    exact (reads_readU8 row[i * bppp / 8]).bind ((Reads.pure _ c).bind_silent hf)
  · have hsame : ((i + 1) * bppp + 7) / 8 = (i * bppp + 7) / 8 := by
      obtain rfl | rfl | rfl := hb <;> omega
    have hleft : nbits = 8 - i * bppp % 8 := by omega
    rw [hsame, ← hat.byte hzero, ← hleft] at hf
    rw [if_neg hzero]
    exact (Reads.pure _ c).bind_silent hf

lemma packedAt_succ {bppp i : ℕ} {row : List UInt8} (hb : Packs bppp) :
    PackedAt bppp row (i + 1) (row.getD (i * bppp / 8) 0).toNat (8 - i * bppp % 8 - bppp) where
  bits := by obtain rfl | rfl | rfl := hb <;> omega
  byte := by
    intro hleft
    have hsame : (i + 1) * bppp / 8 = i * bppp / 8 := by
      obtain rfl | rfl | rfl := hb <;> omega
    rw [hsame]

lemma reads_readZrlePackedRow {bppp n i b nbits : ℕ} {row : List UInt8} {palette : List Pixel}
    (hb : Packs bppp) (hm : c.colorModel = m) (hpal : HasPalette m c palette)
    (hat : PackedAt bppp row i b nbits) (hrow : row.length = ((i + n) * bppp + 7) / 8)
    (hindex : ∀ j, j < i + n → packedIndex bppp row j < palette.length) :
    Reads Q (readZrlePackedRow (fuel + 1) bppp n b nbits) c (row.drop ((i * bppp + 7) / 8))
      ((List.range' i n).map fun j =>
        (palette.getD (packedIndex bppp row j) default).rawColor m) c := by
  induction n generalizing i b nbits with
  | zero =>
    have hend : row.drop ((i * bppp + 7) / 8) = [] := List.drop_eq_nil_of_le hrow.le
    rw [hend]
    exact Reads.pure _ c
  | succ n ih =>
    have hin : i * bppp < 8 * row.length := by
      have hle : (i + 1) * bppp ≤ (i + (n + 1)) * bppp := Nat.mul_le_mul_right _ (by omega)
      have hpos : 0 < bppp := by
        obtain rfl | rfl | rfl := hb <;> decide
      rw [Nat.succ_mul] at hle
      omega
    have hnext := ih (i := i + 1) (packedAt_succ hb) (by rw [hrow]; congr 3; omega)
      fun j hj => hindex j (by omega)
    have hpacked : (((row.getD (i * bppp / 8) 0).toNat >>> (8 - i * bppp % 8 - bppp)) &&&
        (1 <<< bppp - 1)) &&& 127 = packedIndex bppp row i := by
      rw [hb.mask, packedIndex, Nat.sub_right_comm]
    rw [List.range'_succ, List.map_cons, ← List.append_nil (row.drop _)]
    apply reads_getColorModel.bind_silent
    apply reads_packedByte hb hat hin
    rw [List.append_nil]
    dsimp only
    rw [hpacked]
    apply (reads_paletteAt (hpal _ (hindex i (by omega)))).bind_silent
    rw [hm, Pixel.lookup_value]
    exact hnext.map fun rest => (palette.getD (packedIndex bppp row i) default).rawColor m :: rest

/-- The pixels of the rows of a packed tile. -/
def packedPixels (bppp tw : ℕ) (palette : List Pixel) (rows : List (List UInt8)) : List Pixel :=
  rows.flatMap fun row =>
    (List.range tw).map fun j => palette.getD (packedIndex bppp row j) default

lemma reads_readZrlePackedPixels {palette : List Pixel} {rows : List (List UInt8)}
    (hpalette : palette.length ≤ 16) (hm : c.colorModel = m) (hpal : HasPalette m c palette)
    (hrows : ∀ row ∈ rows, row.length = (tw * bitsPerPackedPixel palette.length + 7) / 8)
    (hindex : ∀ row ∈ rows, ∀ j < tw,
      packedIndex (bitsPerPackedPixel palette.length) row j < palette.length) :
    Reads Q (readZrlePackedPixels (fuel + 1) tw palette.length rows.length) c rows.flatten
      ((packedPixels (bitsPerPackedPixel palette.length) tw palette rows).map (Pixel.rawColor m))
      c := by
  induction rows with
  | nil => exact Reads.pure _ c
  | cons row rows ih =>
    have hb := packs_bitsPerPackedPixel hpalette
    have hlen := hrows row List.mem_cons_self
    have hstart : PackedAt (bitsPerPackedPixel palette.length) row 0 0 0 :=
      ⟨by rw [Nat.zero_mul], fun h => absurd rfl h⟩
    have hrow : Reads Q
        (readZrlePackedRow (fuel + 1) (bitsPerPackedPixel palette.length) tw 0 0) c
        (row.drop ((0 * bitsPerPackedPixel palette.length + 7) / 8))
        ((List.range' 0 tw).map fun j => (palette.getD
          (packedIndex (bitsPerPackedPixel palette.length) row j) default).rawColor m) c := by
      apply reads_readZrlePackedRow hb hm hpal hstart
      · rw [Nat.zero_add, hlen]
      · intro j hj
        exact hindex row List.mem_cons_self j (by omega)
    rw [Nat.zero_mul, List.drop_zero, ← List.range_eq_range'] at hrow
    have hrest := ih (fun row hr => hrows row (List.mem_cons_of_mem _ hr))
      fun row hr => hindex row (List.mem_cons_of_mem _ hr)
    rw [List.flatten_cons, packedPixels, List.flatMap_cons, List.map_append, List.map_map]
    apply hrow.bind
    exact hrest.map fun rest => (List.range tw).map _ ++ rest

end Limbo.Vnc
