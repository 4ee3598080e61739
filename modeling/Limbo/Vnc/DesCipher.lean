import Limbo.Vnc.D3des

/-!
# The DES of the client

`DesCipher.java`, over the `int` of 32 bits, and the two implementations of DES together: whatever
the width of the server's `unsigned long`, from 32 bits on, they make the same subkeys of a key and
the same block of a block.
-/

namespace Limbo.Vnc.DesCipher

open Lib.Words

/-! ### Tables -/

def bytebit : List UInt8 := [0x01, 0x02, 0x04, 0x08, 0x10, 0x20, 0x40, 0x80]

def bigbyte : List (BitVec 32) :=
  [0x800000, 0x400000, 0x200000, 0x100000, 0x080000, 0x040000, 0x020000, 0x010000,
   0x008000, 0x004000, 0x002000, 0x001000, 0x000800, 0x000400, 0x000200, 0x000100,
   0x000080, 0x000040, 0x000020, 0x000010, 0x000008, 0x000004, 0x000002, 0x000001]

def pc1 : List ℕ :=
  [56, 48, 40, 32, 24, 16, 8, 0, 57, 49, 41, 33, 25, 17,
   9, 1, 58, 50, 42, 34, 26, 18, 10, 2, 59, 51, 43, 35,
   62, 54, 46, 38, 30, 22, 14, 6, 61, 53, 45, 37, 29, 21,
   13, 5, 60, 52, 44, 36, 28, 20, 12, 4, 27, 19, 11, 3]

def totrot : List ℕ :=
  [1, 2, 4, 6, 8, 10, 12, 14, 15, 17, 19, 21, 23, 25, 27, 28]

def pc2 : List ℕ :=
  [13, 16, 10, 23, 0, 4, 2, 27, 14, 5, 20, 9,
   22, 18, 11, 3, 25, 7, 15, 6, 26, 19, 12, 1,
   40, 51, 30, 36, 46, 54, 29, 39, 50, 44, 32, 47,
   43, 48, 38, 55, 33, 52, 45, 41, 49, 35, 28, 31]

def SP1 : List (BitVec 32) :=
  [0x01010400, 0x00000000, 0x00010000, 0x01010404, 0x01010004, 0x00010404, 0x00000004, 0x00010000,
   0x00000400, 0x01010400, 0x01010404, 0x00000400, 0x01000404, 0x01010004, 0x01000000, 0x00000004,
   0x00000404, 0x01000400, 0x01000400, 0x00010400, 0x00010400, 0x01010000, 0x01010000, 0x01000404,
   0x00010004, 0x01000004, 0x01000004, 0x00010004, 0x00000000, 0x00000404, 0x00010404, 0x01000000,
   0x00010000, 0x01010404, 0x00000004, 0x01010000, 0x01010400, 0x01000000, 0x01000000, 0x00000400,
   0x01010004, 0x00010000, 0x00010400, 0x01000004, 0x00000400, 0x00000004, 0x01000404, 0x00010404,
   0x01010404, 0x00010004, 0x01010000, 0x01000404, 0x01000004, 0x00000404, 0x00010404, 0x01010400,
   0x00000404, 0x01000400, 0x01000400, 0x00000000, 0x00010004, 0x00010400, 0x00000000, 0x01010004]

def SP2 : List (BitVec 32) :=
  [0x80108020, 0x80008000, 0x00008000, 0x00108020, 0x00100000, 0x00000020, 0x80100020, 0x80008020,
   0x80000020, 0x80108020, 0x80108000, 0x80000000, 0x80008000, 0x00100000, 0x00000020, 0x80100020,
   0x00108000, 0x00100020, 0x80008020, 0x00000000, 0x80000000, 0x00008000, 0x00108020, 0x80100000,
   0x00100020, 0x80000020, 0x00000000, 0x00108000, 0x00008020, 0x80108000, 0x80100000, 0x00008020,
   0x00000000, 0x00108020, 0x80100020, 0x00100000, 0x80008020, 0x80100000, 0x80108000, 0x00008000,
   0x80100000, 0x80008000, 0x00000020, 0x80108020, 0x00108020, 0x00000020, 0x00008000, 0x80000000,
   0x00008020, 0x80108000, 0x00100000, 0x80000020, 0x00100020, 0x80008020, 0x80000020, 0x00100020,
   0x00108000, 0x00000000, 0x80008000, 0x00008020, 0x80000000, 0x80100020, 0x80108020, 0x00108000]

def SP3 : List (BitVec 32) :=
  [0x00000208, 0x08020200, 0x00000000, 0x08020008, 0x08000200, 0x00000000, 0x00020208, 0x08000200,
   0x00020008, 0x08000008, 0x08000008, 0x00020000, 0x08020208, 0x00020008, 0x08020000, 0x00000208,
   0x08000000, 0x00000008, 0x08020200, 0x00000200, 0x00020200, 0x08020000, 0x08020008, 0x00020208,
   0x08000208, 0x00020200, 0x00020000, 0x08000208, 0x00000008, 0x08020208, 0x00000200, 0x08000000,
   0x08020200, 0x08000000, 0x00020008, 0x00000208, 0x00020000, 0x08020200, 0x08000200, 0x00000000,
   0x00000200, 0x00020008, 0x08020208, 0x08000200, 0x08000008, 0x00000200, 0x00000000, 0x08020008,
   0x08000208, 0x00020000, 0x08000000, 0x08020208, 0x00000008, 0x00020208, 0x00020200, 0x08000008,
   0x08020000, 0x08000208, 0x00000208, 0x08020000, 0x00020208, 0x00000008, 0x08020008, 0x00020200]

def SP4 : List (BitVec 32) :=
  [0x00802001, 0x00002081, 0x00002081, 0x00000080, 0x00802080, 0x00800081, 0x00800001, 0x00002001,
   0x00000000, 0x00802000, 0x00802000, 0x00802081, 0x00000081, 0x00000000, 0x00800080, 0x00800001,
   0x00000001, 0x00002000, 0x00800000, 0x00802001, 0x00000080, 0x00800000, 0x00002001, 0x00002080,
   0x00800081, 0x00000001, 0x00002080, 0x00800080, 0x00002000, 0x00802080, 0x00802081, 0x00000081,
   0x00800080, 0x00800001, 0x00802000, 0x00802081, 0x00000081, 0x00000000, 0x00000000, 0x00802000,
   0x00002080, 0x00800080, 0x00800081, 0x00000001, 0x00802001, 0x00002081, 0x00002081, 0x00000080,
   0x00802081, 0x00000081, 0x00000001, 0x00002000, 0x00800001, 0x00002001, 0x00802080, 0x00800081,
   0x00002001, 0x00002080, 0x00800000, 0x00802001, 0x00000080, 0x00800000, 0x00002000, 0x00802080]

def SP5 : List (BitVec 32) :=
  [0x00000100, 0x02080100, 0x02080000, 0x42000100, 0x00080000, 0x00000100, 0x40000000, 0x02080000,
   0x40080100, 0x00080000, 0x02000100, 0x40080100, 0x42000100, 0x42080000, 0x00080100, 0x40000000,
   0x02000000, 0x40080000, 0x40080000, 0x00000000, 0x40000100, 0x42080100, 0x42080100, 0x02000100,
   0x42080000, 0x40000100, 0x00000000, 0x42000000, 0x02080100, 0x02000000, 0x42000000, 0x00080100,
   0x00080000, 0x42000100, 0x00000100, 0x02000000, 0x40000000, 0x02080000, 0x42000100, 0x40080100,
   0x02000100, 0x40000000, 0x42080000, 0x02080100, 0x40080100, 0x00000100, 0x02000000, 0x42080000,
   0x42080100, 0x00080100, 0x42000000, 0x42080100, 0x02080000, 0x00000000, 0x40080000, 0x42000000,
   0x00080100, 0x02000100, 0x40000100, 0x00080000, 0x00000000, 0x40080000, 0x02080100, 0x40000100]

def SP6 : List (BitVec 32) :=
  [0x20000010, 0x20400000, 0x00004000, 0x20404010, 0x20400000, 0x00000010, 0x20404010, 0x00400000,
   0x20004000, 0x00404010, 0x00400000, 0x20000010, 0x00400010, 0x20004000, 0x20000000, 0x00004010,
   0x00000000, 0x00400010, 0x20004010, 0x00004000, 0x00404000, 0x20004010, 0x00000010, 0x20400010,
   0x20400010, 0x00000000, 0x00404010, 0x20404000, 0x00004010, 0x00404000, 0x20404000, 0x20000000,
   0x20004000, 0x00000010, 0x20400010, 0x00404000, 0x20404010, 0x00400000, 0x00004010, 0x20000010,
   0x00400000, 0x20004000, 0x20000000, 0x00004010, 0x20000010, 0x20404010, 0x00404000, 0x20400000,
   0x00404010, 0x20404000, 0x00000000, 0x20400010, 0x00000010, 0x00004000, 0x20400000, 0x00404010,
   0x00004000, 0x00400010, 0x20004010, 0x00000000, 0x20404000, 0x20000000, 0x00400010, 0x20004010]

def SP7 : List (BitVec 32) :=
  [0x00200000, 0x04200002, 0x04000802, 0x00000000, 0x00000800, 0x04000802, 0x00200802, 0x04200800,
   0x04200802, 0x00200000, 0x00000000, 0x04000002, 0x00000002, 0x04000000, 0x04200002, 0x00000802,
   0x04000800, 0x00200802, 0x00200002, 0x04000800, 0x04000002, 0x04200000, 0x04200800, 0x00200002,
   0x04200000, 0x00000800, 0x00000802, 0x04200802, 0x00200800, 0x00000002, 0x04000000, 0x00200800,
   0x04000000, 0x00200800, 0x00200000, 0x04000802, 0x04000802, 0x04200002, 0x04200002, 0x00000002,
   0x00200002, 0x04000000, 0x04000800, 0x00200000, 0x04200800, 0x00000802, 0x00200802, 0x04200800,
   0x00000802, 0x04000002, 0x04200802, 0x04200000, 0x00200800, 0x00000000, 0x00000002, 0x04200802,
   0x00000000, 0x00200802, 0x04200000, 0x00000800, 0x04000002, 0x04000800, 0x00000800, 0x00200002]

def SP8 : List (BitVec 32) :=
  [0x10001040, 0x00001000, 0x00040000, 0x10041040, 0x10000000, 0x10001040, 0x00000040, 0x10000000,
   0x00040040, 0x10040000, 0x10041040, 0x00041000, 0x10041000, 0x00041040, 0x00001000, 0x00000040,
   0x10040000, 0x10000040, 0x10001000, 0x00001040, 0x00041000, 0x00040040, 0x10040040, 0x10041000,
   0x00001040, 0x00000000, 0x00000000, 0x10040040, 0x10000040, 0x10001000, 0x00041040, 0x00040000,
   0x00041040, 0x00040000, 0x10041000, 0x00001000, 0x00000040, 0x10040040, 0x00001000, 0x00041040,
   0x10001000, 0x00000040, 0x10000040, 0x10040000, 0x10040040, 0x10000000, 0x00040000, 0x10001040,
   0x00000000, 0x10041040, 0x00040040, 0x10000040, 0x10040000, 0x10001000, 0x10001040, 0x00000000,
   0x10041040, 0x00041000, 0x00041000, 0x00001040, 0x00001040, 0x00040040, 0x10000000, 0x10041000]

/-! ### The key schedule -/

/-- A `byte` in an expression of `int`s is extended with its sign. -/
def promote (b : UInt8) : BitVec 32 := b.toBitVec.signExtend 32

/-- The bits of the key that are used, in the order of `pc1`. -/
def pc1m (keyBlock : List UInt8) : List Bool :=
  pc1.map fun l =>
    promote (keyBlock.getD (l >>> 3) 0) &&& promote (bytebit.getD (l &&& 0o7) 0) != 0#32

/-- Both halves of the key bits turned by `totrot[i]`. -/
def pcr (pc1m : List Bool) (i : ℕ) : List Bool :=
  (List.range 56).map fun j =>
    let l := j + totrot.getD i 0
    if j < 28 then
      if l < 28 then pc1m.getD l false else pc1m.getD (l - 28) false
    else
      if l < 56 then pc1m.getD l false else pc1m.getD (l - 28) false

/-- `kn[m]` for `base = 0` and `kn[n]` for `base = 24`. -/
def kn (pcr : List Bool) (base : ℕ) : BitVec 32 :=
  (List.range 24).foldl
    (fun kn j => if pcr.getD (pc2.getD (j + base) 0) false then kn ||| bigbyte.getD j 0 else kn) 0#32

/-- The two words that `cookey` makes of `raw0` and `raw1`. -/
def cook (raw0 raw1 : BitVec 32) : List (BitVec 32) :=
  [((raw0 &&& 0x00fc0000#32) <<< 6) ||| ((raw0 &&& 0x00000fc0#32) <<< 10) |||
      ((raw1 &&& 0x00fc0000#32) >>> 10) ||| ((raw1 &&& 0x00000fc0#32) >>> 6),
   ((raw0 &&& 0x0003f000#32) <<< 12) ||| ((raw0 &&& 0x0000003f#32) <<< 16) |||
      ((raw1 &&& 0x0003f000#32) >>> 4) ||| (raw1 &&& 0x0000003f#32)]

/-- `deskey`: the contents of `KnL`. -/
def deskey (keyBlock : List UInt8) (encrypting : Bool) : List (BitVec 32) :=
  (List.range 16).flatMap fun m =>
    let i := if encrypting then m else 15 - m
    let pcr := pcr (pc1m keyBlock) i
    cook (kn pcr 0) (kn pcr 24)

/-! ### The DES function -/

/-- Half a round: what `right` and two words of the key add to `leftt`, or the other way round. -/
def halfRound (keys : List (BitVec 32)) (keysi : ℕ) (right leftt : BitVec 32) : BitVec 32 :=
  let work := (right <<< 28) ||| (right >>> 4)
  let work := work ^^^ keys.getD keysi 0
  let fval := SP7.getD (work &&& 0x0000003f#32).toNat 0
  let fval := fval ||| SP5.getD ((work >>> 8) &&& 0x0000003f#32).toNat 0
  let fval := fval ||| SP3.getD ((work >>> 16) &&& 0x0000003f#32).toNat 0
  let fval := fval ||| SP1.getD ((work >>> 24) &&& 0x0000003f#32).toNat 0
  let work := right ^^^ keys.getD (keysi + 1) 0
  let fval := fval ||| SP8.getD (work &&& 0x0000003f#32).toNat 0
  let fval := fval ||| SP6.getD ((work >>> 8) &&& 0x0000003f#32).toNat 0
  let fval := fval ||| SP4.getD ((work >>> 16) &&& 0x0000003f#32).toNat 0
  let fval := fval ||| SP2.getD ((work >>> 24) &&& 0x0000003f#32).toNat 0
  leftt ^^^ fval

/-- One turn of the loop, `keysi` being `4 * round`. -/
def desRound (keys : List (BitVec 32)) (b : BitVec 32 × BitVec 32) (round : ℕ) :
    BitVec 32 × BitVec 32 :=
  let leftt := halfRound keys (4 * round) b.2 b.1
  let right := halfRound keys (4 * round + 2) leftt b.2
  (leftt, right)

/-- The initial permutation, from the block to `(leftt, right)`. -/
def initialPermutation (leftt right : BitVec 32) : BitVec 32 × BitVec 32 :=
  let (leftt, right) := exchange 4 0x0f0f0f0f leftt right
  let (leftt, right) := exchange 16 0x0000ffff leftt right
  let (right, leftt) := exchange 2 0x33333333 right leftt
  let (right, leftt) := exchange 8 0x00ff00ff right leftt
  let right := (right <<< 1) ||| ((right >>> 31) &&& 1#32)
  let (leftt, right) := exchange 0 0xaaaaaaaa leftt right
  let leftt := (leftt <<< 1) ||| ((leftt >>> 31) &&& 1#32)
  (leftt, right)

/-- The final permutation, from `(leftt, right)` to the block. -/
def finalPermutation (leftt right : BitVec 32) : BitVec 32 × BitVec 32 :=
  let right := (right <<< 31) ||| (right >>> 1)
  let (leftt, right) := exchange 0 0xaaaaaaaa leftt right
  let leftt := (leftt <<< 31) ||| (leftt >>> 1)
  let (leftt, right) := exchange 8 0x00ff00ff leftt right
  let (leftt, right) := exchange 2 0x33333333 leftt right
  let (right, leftt) := exchange 16 0x0000ffff right leftt
  let (right, leftt) := exchange 4 0x0f0f0f0f right leftt
  (right, leftt)

def des (inInts : BitVec 32 × BitVec 32) (keys : List (BitVec 32)) : BitVec 32 × BitVec 32 :=
  let b := (List.range 8).foldl (desRound keys) (initialPermutation inInts.1 inInts.2)
  finalPermutation b.1 b.2

/-- One word of `squashBytesToInts`, from four bytes. -/
def squashBytesToInts (b0 b1 b2 b3 : UInt8) : BitVec 32 :=
  ((promote b0 &&& 0xff#32) <<< 24) ||| ((promote b1 &&& 0xff#32) <<< 16) |||
    ((promote b2 &&& 0xff#32) <<< 8) ||| (promote b3 &&& 0xff#32)

/-- One word of `spreadIntsToBytes`, to four bytes. -/
def spreadIntsToBytes (x : BitVec 32) : List UInt8 :=
  [UInt8.ofNat (x >>> 24).toNat, UInt8.ofNat (x >>> 16).toNat,
   UInt8.ofNat (x >>> 8).toNat, UInt8.ofNat x.toNat]

/-- `encrypt` on the eight bytes of `clearText` from `clearOff` on, with `encryptKeys`. -/
def encrypt (encryptKeys : List (BitVec 32)) (clearText : List UInt8) (clearOff : ℕ) :
    List UInt8 :=
  let byte := fun k => clearText.getD (clearOff + k) 0
  let tempInts := des (squashBytesToInts (byte 0) (byte 1) (byte 2) (byte 3),
    squashBytesToInts (byte 4) (byte 5) (byte 6) (byte 7)) encryptKeys
  spreadIntsToBytes tempInts.1 ++ spreadIntsToBytes tempInts.2

/-! ### The same subkeys -/

lemma pc1m_eq (key : List UInt8) : pc1m key = D3des.pc1m key := by
  have hbit : ∀ b : BitVec 8, ∀ m < 8,
      (promote ⟨b⟩ &&& promote (bytebit.getD m 0) != 0#32) =
        ((⟨b⟩ : UInt8).toNat &&& D3des.bytebit.getD m 0 != 0) := by
    decide +kernel
  refine List.map_congr_left fun l _ => ?_
  have hm : l &&& 0o7 < 8 := Nat.lt_succ_of_le Nat.and_le_right
  exact hbit (key.getD (l >>> 3) 0).toBitVec _ hm

lemma pcr_eq (pc1m : List Bool) (i : ℕ) : pcr pc1m i = D3des.pcr pc1m i := by
  refine List.map_congr_left fun j _ => ?_
  by_cases hj : j < 28
  · simp only [hj, if_true]
    rfl
  · simp only [hj, if_false]
    rfl

section Width

variable {w : ℕ}

lemma bigbyte_lt : ∀ j, D3des.bigbyte.getD j 0 < 2 ^ 24 := by
  intro j
  by_cases hj : j < 24
  · exact (by decide : ∀ j < 24, D3des.bigbyte.getD j 0 < 2 ^ 24) j hj
  · rw [List.getD_eq_default _ _ (by simpa [D3des.bigbyte] using hj)]
    decide

lemma bigbyte_eq (j : ℕ) : bigbyte.getD j 0 = BitVec.ofNat 32 (D3des.bigbyte.getD j 0) := by
  have hmap : bigbyte = D3des.bigbyte.map (BitVec.ofNat 32) := rfl
  rw [hmap]
  exact List.getD_map D3des.bigbyte 0 (BitVec.ofNat 32)

/-- The fold over the 24 bits of a half of a subkey adds the same bits in both widths. -/
lemma kn_same (hw : 32 ≤ w) (pcr : List Bool) (base : ℕ) :
    Same (D3des.kn pcr base : BitVec w) (kn pcr base) := by
  have hfold : ∀ (js : List ℕ) (a : BitVec w) (b : BitVec 32), Same a b →
      Same (js.foldl (fun kn j => if pcr.getD (D3des.pc2.getD (j + base) 0) false then
          kn ||| BitVec.ofNat w (D3des.bigbyte.getD j 0) else kn) a)
        (js.foldl (fun kn j => if pcr.getD (pc2.getD (j + base) 0) false then
          kn ||| bigbyte.getD j 0 else kn) b) := by
    intro js
    induction js with
    | nil => exact fun a b h => h
    | cons j js ih =>
      intro a b h
      refine ih _ _ ?_
      have hlt := bigbyte_lt j
      have hbig : Same (BitVec.ofNat w (D3des.bigbyte.getD j 0)) (bigbyte.getD j 0) := by
        rw [bigbyte_eq]
        exact same_ofNat (hlt.trans_le (Nat.pow_le_pow_right Nat.two_pos (by omega)))
          (hlt.trans_le (by decide))
      change Same (if _ then _ else _) (if _ then _ else _)
      have hpc2 : pc2 = D3des.pc2 := rfl
      rw [hpc2]
      by_cases hp : pcr.getD (D3des.pc2.getD (j + base) 0) false = true
      · rw [if_pos hp, if_pos hp]
        exact h.or hbig
      · rw [if_neg hp, if_neg hp]
        exact h
  exact hfold _ _ _ (same_ofNat (by positivity) (by positivity))

/-- Every part of a cooked word is cut out by a mask and stays within 32 bits. -/
lemma cook_same (hw : 32 ≤ w) {raw0 raw1 : BitVec w} {raw0' raw1' : BitVec 32}
    (h0 : Same raw0 raw0') (h1 : Same raw1 raw1') :
    List.Forall₂ Same (D3des.cook raw0 raw1) (cook raw0' raw1') := by
  have left : ∀ {m : ℕ} (k : ℕ), m < 2 ^ (32 - k) → ∀ {a : BitVec w} {a' : BitVec 32}, Same a a' →
      Same ((a &&& BitVec.ofNat w m) <<< k) ((a' &&& BitVec.ofNat 32 m) <<< k) :=
    fun k hm _ _ h => (h.agree (n := 32)).mask_shiftLeft hm hw le_rfl
  have right : ∀ {m : ℕ} (k : ℕ), m < 2 ^ 32 → ∀ {a : BitVec w} {a' : BitVec 32}, Same a a' →
      Same ((a &&& BitVec.ofNat w m) >>> k) ((a' &&& BitVec.ofNat 32 m) >>> k) :=
    fun k hm _ _ h => ((h.agree (n := 32)).mask hm hw le_rfl).ushiftRight k
  refine .cons ?_ (.cons ?_ .nil)
  · exact (((left 6 (by decide) h0).or (left 10 (by decide) h0)).or
      (right 10 (by decide) h1)).or (right 6 (by decide) h1)
  · exact (((left 12 (by decide) h0).or (left 16 (by decide) h0)).or
      (right 4 (by decide) h1)).or ((h1.agree (n := 32)).mask (by decide) hw le_rfl)

/-- The two sides load the same subkeys. -/
lemma deskey_same (hw : 32 ≤ w) (key : List UInt8) :
    List.Forall₂ Same (D3des.deskey key .EN0 : List (BitVec w)) (deskey key true) := by
  unfold D3des.deskey deskey
  induction List.range 16 with
  | nil => exact .nil
  | cons m ms ih =>
    rw [List.flatMap_cons, List.flatMap_cons]
    refine List.rel_append ?_ ih
    simp only [if_true, pc1m_eq, pcr_eq]
    exact cook_same hw (kn_same hw _ _) (kn_same hw _ _)

/-! ### The same block -/

/-- The entries of the tables fit in 32 bits. -/
lemma entry_same (hw : 32 ≤ w) {SP : List ℕ} {SP' : List (BitVec 32)}
    (hSP : SP' = SP.map (BitVec.ofNat 32)) (hlt : ∀ x ∈ SP, x < 2 ^ 32)
    {i : BitVec w} {i' : BitVec 32} (h : Same i i') :
    Same (D3des.entry SP i) (SP'.getD i'.toNat 0) := by
  have hentry : SP.getD i.toNat 0 < 2 ^ 32 := by
    by_cases hi : i.toNat < SP.length
    · rw [List.getD_eq_getElem _ _ hi]
      exact hlt _ (List.getElem_mem hi)
    · rw [List.getD_eq_default _ _ (by omega)]
      decide
  have hmap : SP'.getD i'.toNat 0 = BitVec.ofNat 32 (SP.getD i.toNat 0) := by
    rw [hSP, ← h.toNat_eq]
    exact List.getD_map SP 0 (BitVec.ofNat 32)
  rw [hmap]
  exact same_ofNat (hentry.trans_le (Nat.pow_le_pow_right Nat.two_pos hw)) hentry

variable {keys : List (BitVec w)} {keys' : List (BitVec 32)}

lemma keys_getD_same (h : List.Forall₂ Same keys keys') (k : ℕ) :
    Same (keys.getD k 0) (keys'.getD k 0) := by
  induction h generalizing k with
  | nil => exact same_ofNat (by positivity) (by positivity)
  | cons hk _ ih =>
    cases k with
    | zero => exact hk
    | succ k => exact ih k

/-- Only bits below the 30th of `work` reach a table, and these do not see that `right << 28` goes
beyond 32 bits. -/
lemma halfRound_same (hw : 32 ≤ w) (hk : List.Forall₂ Same keys keys') (k : ℕ)
    {right leftt : BitVec w} {right' leftt' : BitVec 32} (hr : Same right right')
    (hl : Same leftt leftt') :
    Same (D3des.halfRound keys k right leftt) (halfRound keys' k right' leftt') := by
  have hodd : Agree 32 (((right <<< 28) ||| (right >>> 4)) ^^^ keys.getD k 0)
      (((right' <<< 28) ||| (right' >>> 4)) ^^^ keys'.getD k 0) :=
    ((hr.agree.shiftLeft hw le_rfl 28).or (hr.ushiftRight 4).agree).xor
      (keys_getD_same hk k).agree
  have heven : Agree 32 (right ^^^ keys.getD (k + 1) 0) (right' ^^^ keys'.getD (k + 1) 0) :=
    (hr.xor (keys_getD_same hk (k + 1))).agree
  have index : ∀ {work : BitVec w} {work' : BitVec 32} (n : ℕ), n + 6 ≤ 32 → Agree 32 work work' →
      Same ((work >>> n) &&& 0x3f#w) ((work' >>> n) &&& 0x0000003f#32) :=
    fun n hn h => (h.ushiftRight hn).mask (by decide) (by omega) (by omega)
  have index0 : ∀ {work : BitVec w} {work' : BitVec 32}, Agree 32 work work' →
      Same (work &&& 0x3f#w) (work' &&& 0x0000003f#32) :=
    fun h => h.mask (by decide) hw le_rfl
  refine hl.xor ?_
  refine Same.or ?_ (entry_same hw rfl (by decide) (index 24 (by decide) heven))
  refine Same.or ?_ (entry_same hw rfl (by decide) (index 16 (by decide) heven))
  refine Same.or ?_ (entry_same hw rfl (by decide) (index 8 (by decide) heven))
  refine Same.or ?_ (entry_same hw rfl (by decide) (index0 heven))
  refine Same.or ?_ (entry_same hw rfl (by decide) (index 24 (by decide) hodd))
  refine Same.or ?_ (entry_same hw rfl (by decide) (index 16 (by decide) hodd))
  refine Same.or ?_ (entry_same hw rfl (by decide) (index 8 (by decide) hodd))
  exact entry_same hw rfl (by decide) (index0 hodd)

lemma rounds_same (hw : 32 ≤ w) (hk : List.Forall₂ Same keys keys') (rounds : List ℕ)
    {b : BitVec w × BitVec w} {b' : BitVec 32 × BitVec 32} (h1 : Same b.1 b'.1)
    (h2 : Same b.2 b'.2) :
    Same (rounds.foldl (D3des.desRound keys) b).1 (rounds.foldl (desRound keys') b').1 ∧
      Same (rounds.foldl (D3des.desRound keys) b).2 (rounds.foldl (desRound keys') b').2 := by
  induction rounds generalizing b b' with
  | nil => exact ⟨h1, h2⟩
  | cons round rounds ih =>
    have hleftt := halfRound_same hw hk (4 * round) h2 h1
    exact ih hleftt (halfRound_same hw hk (4 * round + 2) hleftt h2)

/-- A rotation to the left by one, cut off at 32 bits in the server. -/
lemma rotate_same (hw : 32 ≤ w) {x : BitVec w} {x' : BitVec 32} (h : Same x x') :
    Same (((x <<< 1) ||| ((x >>> 31) &&& 1#w)) &&& 0xffffffff#w)
      ((x' <<< 1) ||| ((x' >>> 31) &&& 1#32)) := by
  have hbit : Same ((x >>> 31) &&& 1#w) ((x' >>> 31) &&& 1#32) :=
    ((h.ushiftRight 31).agree (n := 32)).mask (by decide) hw le_rfl
  have hall : ∀ y : BitVec 32, y &&& 0xffffffff#32 = y := fun y => BitVec.and_allOnes
  have hmask := ((h.agree.shiftLeft hw le_rfl 1).or hbit.agree).mask
    (by decide : 0xffffffff < 2 ^ 32) hw le_rfl
  rwa [hall] at hmask

lemma initialPermutation_same (hw : 32 ≤ w) {x y : BitVec w} {x' y' : BitVec 32} (hx : Same x x')
    (hy : Same y y') :
    Same (D3des.initialPermutation x y).1 (initialPermutation x' y').1 ∧
      Same (D3des.initialPermutation x y).2 (initialPermutation x' y').2 := by
  obtain ⟨hl, hr⟩ := hx.exchange (k := 4) (m := 0x0f0f0f0f) hy (by decide) hw le_rfl
  obtain ⟨hl, hr⟩ := hl.exchange (k := 16) (m := 0x0000ffff) hr (by decide) hw le_rfl
  obtain ⟨hr, hl⟩ := hr.exchange (k := 2) (m := 0x33333333) hl (by decide) hw le_rfl
  obtain ⟨hr, hl⟩ := hr.exchange (k := 8) (m := 0x00ff00ff) hl (by decide) hw le_rfl
  obtain ⟨hl, hr⟩ := hl.exchange (k := 0) (m := 0xaaaaaaaa) (rotate_same hw hr) (by decide) hw le_rfl
  exact ⟨rotate_same hw hl, hr⟩

/-- The rotations to the right are not cut off; what they leave above 32 bits never comes down
under a mask. -/
lemma finalPermutation_agree (hw : 32 ≤ w) {x y : BitVec w} {x' y' : BitVec 32} (hx : Same x x')
    (hy : Same y y') :
    Agree 32 (D3des.finalPermutation x y).1 (finalPermutation x' y').1 ∧
      Agree 32 (D3des.finalPermutation x y).2 (finalPermutation x' y').2 := by
  have hr : Agree 32 ((y <<< 31) ||| (y >>> 1)) ((y' <<< 31) ||| (y' >>> 1)) :=
    (hy.agree.shiftLeft hw le_rfl 31).or (hy.ushiftRight 1).agree
  -- `leftt` takes in only what is under the mask and is still within 32 bits when it is rotated
  obtain ⟨hl, hr⟩ := hx.exchange_zero (m := 0xaaaaaaaa) hr (by decide) hw le_rfl
  have hl := (hl.agree.shiftLeft hw le_rfl 31).or (hl.ushiftRight 1).agree
  obtain ⟨hl, hr⟩ := hl.exchange (k := 8) (m := 0x00ff00ff) hr (by decide) hw le_rfl
  obtain ⟨hl, hr⟩ := hl.exchange (k := 2) (m := 0x33333333) hr (by decide) hw le_rfl
  obtain ⟨hr, hl⟩ := hr.exchange (k := 16) (m := 0x0000ffff) hl (by decide) hw le_rfl
  obtain ⟨hr, hl⟩ := hr.exchange (k := 4) (m := 0x0f0f0f0f) hl (by decide) hw le_rfl
  exact ⟨hr, hl⟩

/-- The low 32 bits of the server's DES are the client's. -/
lemma des_agree (hw : 32 ≤ w) (hk : List.Forall₂ Same keys keys') {x y : BitVec w}
    {x' y' : BitVec 32} (hx : Same x x') (hy : Same y y') :
    Agree 32 (D3des.desfunc (x, y) keys).1 (des (x', y') keys').1 ∧
      Agree 32 (D3des.desfunc (x, y) keys).2 (des (x', y') keys').2 := by
  obtain ⟨hl, hr⟩ := initialPermutation_same hw hx hy
  obtain ⟨hl, hr⟩ := rounds_same hw hk (List.range 8) hl hr
  exact finalPermutation_agree hw hl hr

/-! ### Blocks of bytes -/

lemma promote_and (b : UInt8) : promote b &&& 0xff#32 = b.toBitVec.setWidth 32 &&& 0xff#32 := by
  have hand : ∀ b : BitVec 8, b.signExtend 32 &&& 0xff#32 = b.setWidth 32 &&& 0xff#32 := by
    decide +kernel
  exact hand b.toBitVec

lemma scrunch_same (hw : 32 ≤ w) (b0 b1 b2 b3 : UInt8) :
    Same (D3des.scrunch b0 b1 b2 b3 : BitVec w) (squashBytesToInts b0 b1 b2 b3) := by
  have byte : ∀ b : UInt8, Agree 32 (b.toBitVec.setWidth w) (b.toBitVec.setWidth 32) :=
    fun b => (same_setWidth b.toBitVec (by omega) (by omega)).agree
  simp only [squashBytesToInts, promote_and]
  have left : ∀ (b : UInt8) (k : ℕ), k ≤ 24 →
      Same ((b.toBitVec.setWidth w &&& 0xff#w) <<< k) ((b.toBitVec.setWidth 32 &&& 0xff#32) <<< k) :=
    fun b k hk => (byte b).mask_shiftLeft
      ((by decide : 0xff < 2 ^ (32 - 24)).trans_le
        (Nat.pow_le_pow_right Nat.two_pos (by omega))) hw le_rfl
  exact (((left b0 24 (by decide)).or (left b1 16 (by decide))).or (left b2 8 (by decide))).or
    ((byte b3).mask (by decide) hw le_rfl)

/-- A byte cast to `unsigned char` or to `byte` loses what is above it. -/
lemma byte_eq {x : BitVec w} {x' : BitVec 32} (hw : 8 ≤ w) (h : Agree 8 x x') :
    UInt8.ofNat (x &&& 0xff#w).toNat = UInt8.ofNat x'.toNat := by
  have hmask := (h.mask (by decide : 0xff < 2 ^ 8) hw (by decide)).toNat_eq
  rw [hmask]
  apply UInt8.toNat_inj.mp
  have hand : (x' &&& 0xff#32).toNat = x'.toNat % 2 ^ 8 := by
    rw [BitVec.toNat_and]
    exact Nat.and_two_pow_sub_one_eq_mod x'.toNat 8
  rw [UInt8.toNat_ofNat', UInt8.toNat_ofNat', hand, Nat.mod_mod]

lemma unscrun_eq (hw : 32 ≤ w) {x : BitVec w} {x' : BitVec 32} (h : Agree 32 x x') :
    D3des.unscrun x = spreadIntsToBytes x' := by
  have byte : ∀ k, k + 8 ≤ 32 →
      UInt8.ofNat ((x >>> k) &&& 0xff#w).toNat = UInt8.ofNat (x' >>> k).toNat :=
    fun k hk => byte_eq (by omega) (h.ushiftRight hk)
  have last : UInt8.ofNat (x &&& 0xff#w).toNat = UInt8.ofNat x'.toNat :=
    byte_eq (by omega) fun i hi => h i (by omega)
  rw [D3des.unscrun, spreadIntsToBytes, byte 24 (by decide), byte 16 (by decide),
    byte 8 (by decide), last]

/-- The client and the server make the same block of a block, under the same key. -/
theorem encrypt_eq_des (hw : 32 ≤ w) (key block : List UInt8) (j : ℕ) :
    D3des.des (D3des.deskey key .EN0 : List (BitVec w)) block j =
      encrypt (deskey key true) block j := by
  obtain ⟨h1, h2⟩ := des_agree hw (deskey_same hw key)
    (scrunch_same hw (block.getD (j + 0) 0) (block.getD (j + 1) 0) (block.getD (j + 2) 0)
      (block.getD (j + 3) 0))
    (scrunch_same hw (block.getD (j + 4) 0) (block.getD (j + 5) 0) (block.getD (j + 6) 0)
      (block.getD (j + 7) 0))
  exact congrArg₂ (· ++ ·) (unscrun_eq hw h1) (unscrun_eq hw h2)

end Width

/-- The first validation set of `d3des.c`, the bits of each key byte being the other way round. -/
example : encrypt (deskey [0x80, 0xc4, 0xa2, 0xe6, 0x91, 0xd5, 0xb3, 0xf7] true)
    [0x01, 0x23, 0x45, 0x67, 0x89, 0xab, 0xcd, 0xe7] 0 =
      [0xc9, 0x57, 0x44, 0x25, 0x6a, 0x5e, 0xd3, 0x1d] := by decide +kernel

end Limbo.Vnc.DesCipher
