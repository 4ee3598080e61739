import Limbo.Vnc.LongBytes

/-!
# The key exchange of the MS-Logon handshake

The server sends a generator and a modulus, any two numbers of 64 bits, and the client refuses those
from `maxNum` on. Powers are taken by squaring, from the highest bit of the exponent down. They are
right, and two sides get the same key, when the modulus is positive and the generator is not
negative or a multiple of it.
-/

namespace Limbo.Vnc.DH

/-- What the key exchange throws. -/
inductive Exn where
  | divideByZero
  | exception (message : String)
deriving DecidableEq, Repr

/-! ### Powers -/

/-- The remainder of Java. -/
def remainder (a N : Int64) : Except Exn Int64 :=
  if N = 0 then .error .divideByZero else .ok (a % N)

def oneShift63 : Int64 := (1 : Int64) <<< 63

/-- One round of the loop of `XpowYmodN`. -/
def XpowYmodNRound (x N y result : Int64) : Except Exn Int64 := do
  let result ← remainder (result * result) N
  if y &&& oneShift63 ≠ 0 then remainder (result * x) N else return result

def XpowYmodNLoop (x N : Int64) : ℕ → Int64 → Int64 → Except Exn Int64
  | 0, _, result => .ok result
  | i + 1, y, result => do
    let result ← XpowYmodNRound x N y result
    XpowYmodNLoop x N i (y <<< 1) result

def XpowYmodN (x y N : Int64) : Except Exn Int64 := XpowYmodNLoop x N 64 y 1

/-! ### Keys -/

def maxNum : Int64 := ((1 : Int64) <<< 31) - 1

structure Keys where
  gen : Int64
  mod : Int64
  priv : Int64
  pub : Int64
  key : Int64
deriving DecidableEq, Repr

/-- The constructor `DH(generator, modulus)`. -/
def new (generator modulus : Int64) : Except Exn Keys :=
  if generator ≥ maxNum ∨ modulus ≥ maxNum then
    .error (.exception "Modulus or generator too large.")
  else .ok ⟨generator, modulus, 0, 0, 0⟩

/-- `createInterKey`, which draws the number `secret` below `maxNum`. -/
def createInterKey (dh : Keys) (secret : Int64) : Except Exn (Int64 × Keys) := do
  let pub ← XpowYmodN dh.gen secret dh.mod
  return (pub, { dh with priv := secret, pub := pub })

def createEncryptionKey (dh : Keys) (interKey : Int64) : Except Exn (Int64 × Keys) := do
  if interKey ≥ maxNum then throw (.exception "interKey too large")
  let key ← XpowYmodN interKey dh.priv dh.mod
  return (key, { dh with key := key })

/-! ### What is asked of a power -/

/-- A number that `rng(maxNum)` may give. -/
def Secret (y : Int64) : Prop := 0 ≤ y ∧ y < maxNum

instance (y : Int64) : Decidable (Secret y) := inferInstanceAs (Decidable (_ ∧ _))

/-- The product has all its bits. -/
def Fits (a b : Int64) : Prop := (a * b).toInt = a.toInt * b.toInt

/-- The products of a round fit. -/
def RoundFits (x N y result : Int64) : Prop :=
  Fits result result ∧ (y &&& oneShift63 ≠ 0 → Fits (result * result % N) x)

/-- The products of all rounds fit. -/
def LoopFits (x N : Int64) : ℕ → Int64 → Int64 → Prop
  | 0, _, _ => True
  | i + 1, y, result => RoundFits x N y result ∧
      ∀ r, XpowYmodNRound x N y result = .ok r → LoopFits x N i (y <<< 1) r

/-- `r` is `x ^ y mod N`. -/
structure IsPowMod (x y N r : Int64) : Prop where
  nonneg : 0 ≤ r.toInt
  lt : r.toInt < N.toInt
  modEq : r.toInt ≡ x.toInt ^ y.toInt.toNat [ZMOD N.toInt]

/-- For every secret exponent the power is computed, exactly. -/
def PowersExact (x N : Int64) : Prop :=
  ∀ y, Secret y → LoopFits x N 64 y 1 ∧ ∃ r, XpowYmodN x y N = .ok r ∧ IsPowMod x y N r

/-- Two sides that send each other what they make of their secrets get one key. -/
def KeysAgree (dh : Keys) : Prop :=
  ∀ a b, Secret a → Secret b → ∃ A B key dhA dhB dhA' dhB',
    createInterKey dh a = .ok (A, dhA) ∧ createInterKey dh b = .ok (B, dhB) ∧
    createEncryptionKey dhA B = .ok (key, dhA') ∧ createEncryptionKey dhB A = .ok (key, dhB')

/-! ### One round -/

lemma maxNum_toInt : maxNum.toInt = 2147483647 := by decide +kernel

lemma lt_maxNum {x : Int64} (h : x < maxNum) : x.toInt < 2147483647 := by
  rw [← maxNum_toInt]
  exact Int64.lt_iff_toInt_lt.mp h

lemma fits_of_bounds {a b : Int64} (hlow : -2 ^ 63 ≤ a.toInt * b.toInt)
    (hhigh : a.toInt * b.toInt < 2 ^ 63) : Fits a b := by
  rw [Fits, Int64.toInt_mul]
  exact Int.bmod_eq_of_le_mul_two (by omega) (by omega)

variable {x y N result : Int64}

/-- The product of the base with a result is small: the base is itself small and not negative, or
it is a multiple of the modulus and the result one of 0 and 1. -/
def Small (x N result : Int64) : Prop :=
  0 ≤ x.toInt ∨ N.toInt ∣ x.toInt ∧ result.toInt ≤ 1

/-- The highest bit of the exponent. -/
def topBit (y : Int64) : ℕ := unsigned y / 2 ^ 63

lemma topBit_lt (y : Int64) : topBit y < 2 := Nat.div_lt_of_lt_mul y.toBitVec.isLt

lemma and_oneShift63 (y : Int64) : y &&& oneShift63 ≠ 0 ↔ topBit y = 1 := by
  have hbit : y.toBitVec.getLsbD 63 = decide (topBit y = 1) := by
    rw [BitVec.getLsbD, Nat.testBit_eq_decide_div_mod_eq]
    show decide (topBit y % 2 = 1) = _
    rw [Nat.mod_eq_of_lt (topBit_lt y)]
  have hand : (y &&& oneShift63).toBitVec =
      if y.toBitVec.getLsbD 63 then BitVec.twoPow 64 63 else 0#64 :=
    BitVec.and_twoPow y.toBitVec 63
  rw [← Int64.toBitVec_inj.ne, hand, hbit]
  by_cases htop : topBit y = 1
  · simp [htop]
  · simp [htop]

lemma unsigned_shiftLeft (y : Int64) : unsigned (y <<< 1) = 2 * (unsigned y % 2 ^ 63) := by
  have hshift : (y <<< 1).toBitVec = y.toBitVec <<< 1 := Int64.toBitVec_shiftLeft y 1
  have hlt : unsigned y < 2 ^ 64 := y.toBitVec.isLt
  rw [unsigned, hshift, BitVec.toNat_shiftLeft, Nat.shiftLeft_eq]
  show unsigned y * 2 ^ 1 % 2 ^ 64 = _
  omega

lemma remainder_of_pos (hN : 0 < N.toInt) (a : Int64) : remainder a N = .ok (a % N) := by
  have hne : N ≠ 0 := by
    rintro rfl
    exact absurd hN (by decide)
  exact if_neg hne

lemma round_of_pos (hN : 0 < N.toInt) (x y result : Int64) :
    XpowYmodNRound x N y result =
      if y &&& oneShift63 ≠ 0 then .ok (result * result % N * x % N)
      else .ok (result * result % N) := by
  rw [XpowYmodNRound, remainder_of_pos hN, ← remainder_of_pos hN (result * result % N * x)]
  rfl

/-- The first product of a round, reduced. -/
lemma square_exact (hN : 0 < N.toInt) (hNmax : N.toInt < 2147483647) (hresult : 0 ≤ result.toInt)
    (hle : result.toInt ≤ N.toInt) :
    Fits result result ∧
      (result * result % N).toInt = result.toInt * result.toInt % N.toInt := by
  have hpos : 0 ≤ result.toInt * result.toInt := mul_nonneg hresult hresult
  have hfits : Fits result result := fits_of_bounds (by omega) (by nlinarith)
  refine ⟨hfits, ?_⟩
  rw [Int64.toInt_mod, hfits, Int.tmod_eq_emod_of_nonneg hpos]

lemma Small.square (hN : 0 < N.toInt) (hNmax : N.toInt < 2147483647) (hresult : 0 ≤ result.toInt)
    (hle : result.toInt ≤ N.toInt) (h : Small x N result) : Small x N (result * result % N) := by
  refine h.imp_right fun ⟨hdvd, hone⟩ => ⟨hdvd, ?_⟩
  obtain ⟨-, hsquare⟩ := square_exact hN hNmax hresult hle
  have hpos : 0 ≤ result.toInt * result.toInt := mul_nonneg hresult hresult
  have hmod : result.toInt * result.toInt % N.toInt ≤ result.toInt * result.toInt := by
    have hdiv := Int.ediv_nonneg hpos hN.le
    have hsum := Int.emod_add_mul_ediv (result.toInt * result.toInt) N.toInt
    nlinarith
  rw [hsquare]
  nlinarith

/-- The second product of a round, reduced. -/
lemma times_exact {s : Int64} (hNmax : N.toInt < 2147483647) (hx : x.toInt < 2147483647)
    (hs : 0 ≤ s.toInt) (hlt : s.toInt < N.toInt) (hsmall : Small x N s) :
    Fits s x ∧ (s * x % N).toInt = s.toInt * x.toInt % N.toInt ∧ Small x N (s * x % N) := by
  obtain hpos | ⟨hdvd, hone⟩ := hsmall
  · have hmul : 0 ≤ s.toInt * x.toInt := mul_nonneg hs hpos
    have hfits : Fits s x := fits_of_bounds (by omega) (by nlinarith)
    refine ⟨hfits, ?_, .inl hpos⟩
    rw [Int64.toInt_mod, hfits, Int.tmod_eq_emod_of_nonneg hmul]
  · -- the result is 0 or 1, so the product is 0 or the base
    have hlow := Int64.le_toInt x
    have hhigh := Int64.toInt_lt x
    have hfits : Fits s x := by
      obtain hzero | hone : s.toInt = 0 ∨ s.toInt = 1 := by omega
      · exact fits_of_bounds (by rw [hzero]; omega) (by rw [hzero]; omega)
      · exact fits_of_bounds (by rw [hone]; omega) (by rw [hone]; omega)
    have hmul : N.toInt ∣ s.toInt * x.toInt := hdvd.mul_left _
    have hzero : (s * x % N).toInt = 0 := by
      rw [Int64.toInt_mod, hfits]
      exact Int.tmod_eq_zero_of_dvd hmul
    refine ⟨hfits, ?_, .inr ⟨hdvd, ?_⟩⟩
    · rw [hzero, Int.emod_eq_zero_of_dvd hmul]
    · rw [hzero]
      decide

lemma round_exact (hN : 0 < N.toInt) (hNmax : N.toInt < 2147483647) (hx : x.toInt < 2147483647)
    (hresult : 0 ≤ result.toInt) (hle : result.toInt ≤ N.toInt) (hsmall : Small x N result) :
    RoundFits x N y result ∧ ∃ r, XpowYmodNRound x N y result = .ok r ∧ 0 ≤ r.toInt ∧
      r.toInt < N.toInt ∧ Small x N r ∧
      r.toInt ≡ result.toInt ^ 2 * x.toInt ^ topBit y [ZMOD N.toInt] := by
  obtain ⟨hfits, hsquare⟩ := square_exact hN hNmax hresult hle
  have hsmall' := hsmall.square hN hNmax hresult hle
  have hpos : 0 ≤ (result * result % N).toInt := by
    rw [hsquare]
    exact Int.emod_nonneg _ hN.ne'
  have hlt : (result * result % N).toInt < N.toInt := by
    rw [hsquare]
    exact Int.emod_lt_of_pos _ hN
  have hmodEq : (result * result % N).toInt ≡ result.toInt ^ 2 [ZMOD N.toInt] := by
    rw [hsquare, pow_two]
    exact Int.mod_modEq _ _
  obtain ⟨hfits', htimes, htimesSmall⟩ := times_exact hNmax hx hpos hlt hsmall'
  refine ⟨⟨hfits, fun _ => hfits'⟩, ?_⟩
  rw [round_of_pos hN]
  by_cases htop : topBit y = 1
  · refine ⟨result * result % N * x % N, ?_, ?_, ?_, htimesSmall, ?_⟩
    · rw [if_pos ((and_oneShift63 y).mpr htop)]
    · rw [htimes]
      exact Int.emod_nonneg _ hN.ne'
    · rw [htimes]
      exact Int.emod_lt_of_pos _ hN
    · rw [htimes, htop, pow_one]
      exact (Int.mod_modEq _ _).trans (hmodEq.mul_right _)
  · have hzero : topBit y = 0 := by
      have htwo := topBit_lt y
      omega
    refine ⟨_, if_neg (mt (and_oneShift63 y).mp htop), hpos, hlt, hsmall', ?_⟩
    rwa [hzero, pow_zero, mul_one]

/-! ### All rounds -/

/-- The bits of the exponent from the highest one down. -/
lemma bits_succ (y : Int64) {i : ℕ} (hi : i < 64) :
    unsigned y / 2 ^ (64 - (i + 1)) =
      topBit y * 2 ^ i + unsigned (y <<< 1) / 2 ^ (64 - i) := by
  have hpow : 2 ^ (64 - i) = 2 * 2 ^ (63 - i) := by
    rw [← pow_succ']
    congr 1
    omega
  have hsplit : unsigned y = 2 ^ (63 - i) * (topBit y * 2 ^ i) + unsigned y % 2 ^ 63 := by
    have hexp : 2 ^ (63 - i) * (topBit y * 2 ^ i) = 2 ^ 63 * topBit y := by
      rw [mul_left_comm, ← pow_add, Nat.sub_add_cancel (by omega), mul_comm]
    rw [hexp]
    exact (Nat.div_add_mod _ _).symm
  have hleft : 64 - (i + 1) = 63 - i := by omega
  rw [unsigned_shiftLeft, hpow, Nat.mul_div_mul_left _ _ two_pos, hleft]
  conv_lhs => rw [hsplit]
  exact Nat.mul_add_div (by positivity) _ _

/-- The rounds that are left take the result to the power of the bits that are left. -/
lemma loop_exact (hN : 0 < N.toInt) (hNmax : N.toInt < 2147483647) (hx : x.toInt < 2147483647)
    {i : ℕ} (hi : i ≤ 64) (hresult : 0 ≤ result.toInt) (hle : result.toInt ≤ N.toInt)
    (hsmall : Small x N result) :
    LoopFits x N i y result ∧ ∃ r, XpowYmodNLoop x N i y result = .ok r ∧ 0 ≤ r.toInt ∧
      (r.toInt < N.toInt ∨ i = 0 ∧ r = result) ∧
      r.toInt ≡ result.toInt ^ 2 ^ i * x.toInt ^ (unsigned y / 2 ^ (64 - i)) [ZMOD N.toInt] := by
  induction i generalizing y result with
  | zero =>
    have hzero : unsigned y / 2 ^ (64 - 0) = 0 := Nat.div_eq_of_lt y.toBitVec.isLt
    refine ⟨trivial, result, rfl, hresult, .inr ⟨rfl, rfl⟩, ?_⟩
    rw [hzero, pow_zero, pow_one, pow_zero, mul_one]
  | succ i ih =>
    obtain ⟨hfits, m, hround, hm, hmlt, hmsmall, hmodEq⟩ :=
      round_exact (y := y) hN hNmax hx hresult hle hsmall
    obtain ⟨hrest, r, hloop, hr, hrlt, hrmodEq⟩ :=
      ih (y := y <<< 1) (Nat.le_of_succ_le hi) hm hmlt.le hmsmall
    have hlt : r.toInt < N.toInt := by
      obtain hlt | ⟨-, rfl⟩ := hrlt
      · exact hlt
      · exact hmlt
    refine ⟨⟨hfits, ?_⟩, r, ?_, hr, .inl hlt, ?_⟩
    · intro r' hr'
      rw [hround] at hr'
      cases hr'
      exact hrest
    · rw [XpowYmodNLoop, hround]
      exact hloop
    · have hpow : result.toInt ^ 2 ^ (i + 1) * x.toInt ^ (unsigned y / 2 ^ (64 - (i + 1))) =
          (result.toInt ^ 2 * x.toInt ^ topBit y) ^ 2 ^ i *
            x.toInt ^ (unsigned (y <<< 1) / 2 ^ (64 - i)) := by
        rw [bits_succ y hi]
        ring
      rw [hpow]
      exact hrmodEq.trans ((hmodEq.pow _).mul_right _)

/-- A base that is not negative, or a multiple of a positive modulus, has exact powers. -/
lemma powersExact_of_pos (hN : 0 < N.toInt) (hNmax : N < maxNum) (hx : x < maxNum)
    (hbase : 0 ≤ x.toInt ∨ N.toInt ∣ x.toInt) : PowersExact x N := by
  intro y hy
  have hone : (1 : Int64).toInt = 1 := by decide
  have hy0 : 0 ≤ y.toInt := Int64.le_iff_toInt_le.mp hy.1
  have hsmall : Small x N 1 := hbase.imp_right fun hdvd => ⟨hdvd, hone.le⟩
  obtain ⟨hfits, r, hloop, hr, hlt, hmodEq⟩ :=
    loop_exact (y := y) (i := 64) hN (lt_maxNum hNmax) (lt_maxNum hx) le_rfl (by rw [hone]; decide)
      (by rw [hone]; exact hN) hsmall
  have hexp : unsigned y / 2 ^ (64 - 64) = y.toInt.toNat := by
    have hunsigned : y.toInt = unsigned y := by
      have hmod := toInt_modEq y
      have hlt := unsigned_lt y
      have hhigh := Int64.toInt_lt y
      rw [Int.modEq_iff_dvd] at hmod
      obtain ⟨k, hk⟩ := hmod
      omega
    rw [hunsigned, Int.toNat_natCast, Nat.sub_self, pow_zero, Nat.div_one]
  refine ⟨hfits, r, hloop, hr, hlt.resolve_right (by simp), ?_⟩
  rwa [hexp, hone, one_pow, one_mul] at hmodEq

/-! ### The remainder of a negative base -/

/-- With the exponent 1, one is squared until the last round. -/
lemma loop_one (hN : 1 < N.toInt) {i : ℕ} (hi : i < 64) :
    XpowYmodNLoop x N (i + 1) ((1 : Int64) <<< Int64.ofNat (63 - i)) 1 = .ok (x % N) := by
  have hpos : 0 < N.toInt := by omega
  have hsquare : (1 : Int64) * 1 % N = 1 := by
    apply Int64.toInt_inj.mp
    rw [Int64.toInt_mod]
    exact Int.tmod_eq_of_lt (by decide) hN
  induction i with
  | zero =>
    have htop : (1 : Int64) <<< Int64.ofNat (63 - 0) &&& oneShift63 ≠ 0 := by decide +kernel
    rw [XpowYmodNLoop, round_of_pos hpos, if_pos htop, hsquare, Int64.one_mul]
    rfl
  | succ i ih =>
    have hbits : ∀ i < 63, (1 : Int64) <<< Int64.ofNat (63 - (i + 1)) &&& oneShift63 = 0 ∧
        ((1 : Int64) <<< Int64.ofNat (63 - (i + 1))) <<< 1 = (1 : Int64) <<< Int64.ofNat (63 - i) := by
      decide +kernel
    obtain ⟨hzero, hnext⟩ := hbits i (by omega)
    rw [XpowYmodNLoop, round_of_pos hpos, if_neg (not_not.mpr hzero), hsquare]
    show XpowYmodNLoop x N (i + 1) _ 1 = _
    rw [hnext]
    exact ih (by omega)

/-- Already the first power of a negative base is negative, unless it is zero. -/
lemma PowersExact.base (h : PowersExact x N) :
    0 < N.toInt ∧ (0 ≤ x.toInt ∨ N.toInt ∣ x.toInt) := by
  obtain ⟨-, r, hr, hpow⟩ := h 1 (by decide)
  have hN : 0 < N.toInt := hpow.nonneg.trans_lt hpow.lt
  refine ⟨hN, ?_⟩
  obtain hone | hlt : N.toInt = 1 ∨ 1 < N.toInt := by omega
  · exact .inr (hone ▸ one_dvd _)
  · have hloop : XpowYmodN x 1 N = .ok (x % N) := loop_one (i := 63) hlt (by decide)
    rw [hloop] at hr
    cases hr
    have hnonneg := hpow.nonneg
    rw [Int64.toInt_mod] at hnonneg
    by_cases hx : 0 ≤ x.toInt
    · exact .inl hx
    · have hneg : x.toInt.tmod N.toInt = -(-x.toInt % N.toInt) := by
        rw [← Int.tmod_eq_emod_of_nonneg (by omega), Int.neg_tmod, neg_neg]
      have hmod := Int.emod_nonneg (-x.toInt) hN.ne'
      have hzero : -x.toInt % N.toInt = 0 := by omega
      exact .inr ((dvd_neg).mp (Int.dvd_of_emod_eq_zero hzero))

lemma powersExact_iff (hN : N < maxNum) (hx : x < maxNum) :
    PowersExact x N ↔ 0 < N.toInt ∧ (0 ≤ x.toInt ∨ N.toInt ∣ x.toInt) :=
  ⟨PowersExact.base, fun h => powersExact_of_pos h.1 hN hx h.2⟩

/-! ### Two sides -/

variable {dh : Keys}

lemma createInterKey_eq {secret pub : Int64} (h : XpowYmodN dh.gen secret dh.mod = .ok pub) :
    createInterKey dh secret = .ok (pub, { dh with priv := secret, pub := pub }) := by
  rw [createInterKey, h]
  rfl

lemma createEncryptionKey_eq {interKey key : Int64} (hlt : interKey < maxNum)
    (h : XpowYmodN interKey dh.priv dh.mod = .ok key) :
    createEncryptionKey dh interKey = .ok (key, { dh with key := key }) := by
  have hsmall : ¬ interKey ≥ maxNum := Int64.not_le.mpr hlt
  rw [createEncryptionKey, if_neg hsmall, h]
  rfl

/-- Powers of the same residue are the same number. -/
lemma IsPowMod.eq {x' y' r r' : Int64} (h : IsPowMod x y N r) (h' : IsPowMod x' y' N r')
    (hpow : x.toInt ^ y.toInt.toNat ≡ x'.toInt ^ y'.toInt.toNat [ZMOD N.toInt]) : r = r' := by
  have hmod : r.toInt % N.toInt = r'.toInt % N.toInt :=
    (h.modEq.trans hpow).trans h'.modEq.symm
  rw [Int.emod_eq_of_lt h.nonneg h.lt, Int.emod_eq_of_lt h'.nonneg h'.lt] at hmod
  exact Int64.toInt_inj.mp hmod

/-- The power that one side sends is a base whose powers are exact. -/
lemma IsPowMod.powersExact {r : Int64} (h : IsPowMod x y N r) (hN : N < maxNum) :
    r < maxNum ∧ PowersExact r N := by
  have hr : r < maxNum :=
    Int64.lt_iff_toInt_lt.mpr (h.lt.trans (Int64.lt_iff_toInt_lt.mp hN))
  exact ⟨hr, powersExact_of_pos (h.nonneg.trans_lt h.lt) hN hr (.inl h.nonneg)⟩

lemma keysAgree_of_powersExact (hNmax : dh.mod < maxNum) (h : PowersExact dh.gen dh.mod) :
    KeysAgree dh := by
  intro a b ha hb
  obtain ⟨-, A, hA, hpowA⟩ := h a ha
  obtain ⟨-, B, hB, hpowB⟩ := h b hb
  obtain ⟨hAmax, hexactA⟩ := hpowA.powersExact hNmax
  obtain ⟨hBmax, hexactB⟩ := hpowB.powersExact hNmax
  obtain ⟨-, key, hkey, hpow⟩ := hexactB a ha
  obtain ⟨-, key', hkey', hpow'⟩ := hexactA b hb
  have hsame : key = key' := by
    apply hpow.eq hpow'
    have hBa := hpowB.modEq.pow a.toInt.toNat
    have hAb := hpowA.modEq.pow b.toInt.toNat
    rw [← pow_mul] at hBa hAb
    rw [mul_comm] at hAb
    exact hBa.trans hAb.symm
  subst hsame
  exact ⟨A, B, key, _, _, _, _, createInterKey_eq hA, createInterKey_eq hB,
    createEncryptionKey_eq hBmax hkey, createEncryptionKey_eq hAmax hkey'⟩

lemma new_ok {generator modulus : Int64} (h : new generator modulus = .ok dh) :
    generator < maxNum ∧ modulus < maxNum ∧ dh = ⟨generator, modulus, 0, 0, 0⟩ := by
  unfold new at h
  split_ifs at h with hlarge
  obtain ⟨hgen, hmod⟩ := not_or.mp hlarge
  exact ⟨Int64.not_le.mp hgen, Int64.not_le.mp hmod, (Except.ok.inj h).symm⟩

def DH_RANGE : ℕ := 100

/-- The loop of `tryToGeneratePrime` with this many rounds left of `DH_RANGE`. The test of the
round is random. -/
def tryToGeneratePrimeLoop (millerRabin : ℕ → Int64 → Bool) : ℕ → Int64 → Int64
  | 0, _ => 0
  | left + 1, prime =>
    if millerRabin left prime ∨ prime ≥ maxNum then
      if prime ≥ maxNum then 0 else prime
    else
      let prime := prime + 2
      tryToGeneratePrimeLoop millerRabin left (if prime % 3 = 0 then prime + 2 else prime)

def tryToGeneratePrime (millerRabin : ℕ → Int64 → Bool) (prime : Int64) : Int64 :=
  tryToGeneratePrimeLoop millerRabin DH_RANGE (if prime &&& 1 = 0 then prime + 1 else prime)

/-- `createKeys`, from the two numbers that `generatePrime` gives. -/
def createKeys (gen mod : Int64) : Keys :=
  if gen > mod then ⟨mod, gen, 0, 0, 0⟩ else ⟨gen, mod, 0, 0, 0⟩

/-- What `generatePrime` may give: it tries until there is a number. -/
def GeneratesPrime (p : Int64) : Prop :=
  p ≠ 0 ∧ ∃ millerRabin start, Secret start ∧ tryToGeneratePrime millerRabin start = p

lemma toInt_add_of_small {a b : Int64} (ha : 0 ≤ a.toInt) (ha' : a.toInt < 2147483660)
    (hb : 0 ≤ b.toInt) (hb' : b.toInt < 2147483660) : (a + b).toInt = a.toInt + b.toInt := by
  rw [Int64.toInt_add]
  exact Int.bmod_eq_of_le_mul_two (by omega) (by omega)

lemma tryToGeneratePrimeLoop_range (millerRabin : ℕ → Int64 → Bool) {left : ℕ} {prime : Int64}
    (hpos : 0 < prime.toInt) (h : tryToGeneratePrimeLoop millerRabin left prime ≠ 0) :
    0 < (tryToGeneratePrimeLoop millerRabin left prime).toInt ∧
      tryToGeneratePrimeLoop millerRabin left prime < maxNum := by
  induction left generalizing prime with
  | zero => exact absurd rfl h
  | succ left ih =>
    rw [tryToGeneratePrimeLoop] at h ⊢
    split_ifs at h ⊢ with hstop hlarge
    · exact absurd rfl h
    · exact ⟨hpos, Int64.not_le.mp hlarge⟩
    · have hlt := lt_maxNum (Int64.not_le.mp (not_or.mp hstop).2)
      have htwo : (2 : Int64).toInt = 2 := by decide
      have hnext : (prime + 2).toInt = prime.toInt + 2 := by
        rw [toInt_add_of_small hpos.le (by omega) (by decide) (by decide), htwo]
      have hnext' : (prime + 2 + 2).toInt = prime.toInt + 2 + 2 := by
        rw [toInt_add_of_small (by omega) (by omega) (by decide) (by decide), hnext, htwo]
      refine ih ?_ h
      split_ifs
      · omega
      · omega

lemma GeneratesPrime.range {p : Int64} (h : GeneratesPrime p) : 0 < p.toInt ∧ p < maxNum := by
  obtain ⟨hne, millerRabin, start, ⟨hnonneg, hlt⟩, rfl⟩ := h
  refine tryToGeneratePrimeLoop_range millerRabin ?_ hne
  have hstart : 0 ≤ start.toInt := Int64.le_iff_toInt_le.mp hnonneg
  have hlt' := lt_maxNum hlt
  split_ifs with heven
  · have hone : (1 : Int64).toInt = 1 := by decide
    rw [toInt_add_of_small hstart (by omega) (by decide) (by decide), hone]
    omega
  · have hzero : start ≠ 0 := by
      rintro rfl
      exact heven (by decide)
    have hne' : start.toInt ≠ 0 := fun h => hzero (Int64.toInt_inj.mp h)
    omega

/-- The keys that the class makes of two primes of its own are of the kind that works. -/
theorem createKeys_exact {p q : Int64} (hp : GeneratesPrime p) (hq : GeneratesPrime q) :
    PowersExact (createKeys p q).gen (createKeys p q).mod ∧ KeysAgree (createKeys p q) := by
  obtain ⟨hp, hpmax⟩ := hp.range
  obtain ⟨hq, hqmax⟩ := hq.range
  unfold createKeys
  split_ifs
  · have hexact := powersExact_of_pos hp hpmax hqmax (.inl hq.le)
    exact ⟨hexact, keysAgree_of_powersExact hpmax hexact⟩
  · have hexact := powersExact_of_pos hq hqmax hpmax (.inl hp.le)
    exact ⟨hexact, keysAgree_of_powersExact hqmax hexact⟩

end Limbo.Vnc.DH
