import Limbo.Lib.Words

/-!
# The DES of the server

`d3des.c`: the key schedule and the DES function of the VNC server, over an `unsigned long` of `w`
bits. The bits of a key byte are counted from the least significant one, so that the most
significant one is ignored.
-/

namespace Limbo.Vnc.D3des

open Lib.Words

variable {w : ℕ}

/-! ### Tables -/

def bytebit : List ℕ := [0o01, 0o02, 0o04, 0o10, 0o20, 0o40, 0o100, 0o200]

def bigbyte : List ℕ :=
  [0x800000, 0x400000, 0x200000, 0x100000, 0x80000, 0x40000, 0x20000, 0x10000,
   0x8000, 0x4000, 0x2000, 0x1000, 0x800, 0x400, 0x200, 0x100,
   0x80, 0x40, 0x20, 0x10, 0x8, 0x4, 0x2, 0x1]

def pc1 : List ℕ :=
  [56, 48, 40, 32, 24, 16, 8, 0, 57, 49, 41, 33, 25, 17,
   9, 1, 58, 50, 42, 34, 26, 18, 10, 2, 59, 51, 43, 35,
   62, 54, 46, 38, 30, 22, 14, 6, 61, 53, 45, 37, 29, 21,
   13, 5, 60, 52, 44, 36, 28, 20, 12, 4, 27, 19, 11, 3]

def totrot : List ℕ :=
  [1, 2, 4, 6, 8, 10, 12, 14, 15, 17, 19, 21, 23, 25, 27, 28]

def pc2 : List ℕ :=
  [13, 16, 10, 23, 0, 4, 2, 27, 14, 5, 20, 9,
   22, 18, 11, 3, 25, 7, 15, 6, 26, 19, 12, 1,
   40, 51, 30, 36, 46, 54, 29, 39, 50, 44, 32, 47,
   43, 48, 38, 55, 33, 52, 45, 41, 49, 35, 28, 31]

def SP1 : List ℕ :=
  [0x01010400, 0x00000000, 0x00010000, 0x01010404, 0x01010004, 0x00010404, 0x00000004, 0x00010000,
   0x00000400, 0x01010400, 0x01010404, 0x00000400, 0x01000404, 0x01010004, 0x01000000, 0x00000004,
   0x00000404, 0x01000400, 0x01000400, 0x00010400, 0x00010400, 0x01010000, 0x01010000, 0x01000404,
   0x00010004, 0x01000004, 0x01000004, 0x00010004, 0x00000000, 0x00000404, 0x00010404, 0x01000000,
   0x00010000, 0x01010404, 0x00000004, 0x01010000, 0x01010400, 0x01000000, 0x01000000, 0x00000400,
   0x01010004, 0x00010000, 0x00010400, 0x01000004, 0x00000400, 0x00000004, 0x01000404, 0x00010404,
   0x01010404, 0x00010004, 0x01010000, 0x01000404, 0x01000004, 0x00000404, 0x00010404, 0x01010400,
   0x00000404, 0x01000400, 0x01000400, 0x00000000, 0x00010004, 0x00010400, 0x00000000, 0x01010004]

def SP2 : List ℕ :=
  [0x80108020, 0x80008000, 0x00008000, 0x00108020, 0x00100000, 0x00000020, 0x80100020, 0x80008020,
   0x80000020, 0x80108020, 0x80108000, 0x80000000, 0x80008000, 0x00100000, 0x00000020, 0x80100020,
   0x00108000, 0x00100020, 0x80008020, 0x00000000, 0x80000000, 0x00008000, 0x00108020, 0x80100000,
   0x00100020, 0x80000020, 0x00000000, 0x00108000, 0x00008020, 0x80108000, 0x80100000, 0x00008020,
   0x00000000, 0x00108020, 0x80100020, 0x00100000, 0x80008020, 0x80100000, 0x80108000, 0x00008000,
   0x80100000, 0x80008000, 0x00000020, 0x80108020, 0x00108020, 0x00000020, 0x00008000, 0x80000000,
   0x00008020, 0x80108000, 0x00100000, 0x80000020, 0x00100020, 0x80008020, 0x80000020, 0x00100020,
   0x00108000, 0x00000000, 0x80008000, 0x00008020, 0x80000000, 0x80100020, 0x80108020, 0x00108000]

def SP3 : List ℕ :=
  [0x00000208, 0x08020200, 0x00000000, 0x08020008, 0x08000200, 0x00000000, 0x00020208, 0x08000200,
   0x00020008, 0x08000008, 0x08000008, 0x00020000, 0x08020208, 0x00020008, 0x08020000, 0x00000208,
   0x08000000, 0x00000008, 0x08020200, 0x00000200, 0x00020200, 0x08020000, 0x08020008, 0x00020208,
   0x08000208, 0x00020200, 0x00020000, 0x08000208, 0x00000008, 0x08020208, 0x00000200, 0x08000000,
   0x08020200, 0x08000000, 0x00020008, 0x00000208, 0x00020000, 0x08020200, 0x08000200, 0x00000000,
   0x00000200, 0x00020008, 0x08020208, 0x08000200, 0x08000008, 0x00000200, 0x00000000, 0x08020008,
   0x08000208, 0x00020000, 0x08000000, 0x08020208, 0x00000008, 0x00020208, 0x00020200, 0x08000008,
   0x08020000, 0x08000208, 0x00000208, 0x08020000, 0x00020208, 0x00000008, 0x08020008, 0x00020200]

def SP4 : List ℕ :=
  [0x00802001, 0x00002081, 0x00002081, 0x00000080, 0x00802080, 0x00800081, 0x00800001, 0x00002001,
   0x00000000, 0x00802000, 0x00802000, 0x00802081, 0x00000081, 0x00000000, 0x00800080, 0x00800001,
   0x00000001, 0x00002000, 0x00800000, 0x00802001, 0x00000080, 0x00800000, 0x00002001, 0x00002080,
   0x00800081, 0x00000001, 0x00002080, 0x00800080, 0x00002000, 0x00802080, 0x00802081, 0x00000081,
   0x00800080, 0x00800001, 0x00802000, 0x00802081, 0x00000081, 0x00000000, 0x00000000, 0x00802000,
   0x00002080, 0x00800080, 0x00800081, 0x00000001, 0x00802001, 0x00002081, 0x00002081, 0x00000080,
   0x00802081, 0x00000081, 0x00000001, 0x00002000, 0x00800001, 0x00002001, 0x00802080, 0x00800081,
   0x00002001, 0x00002080, 0x00800000, 0x00802001, 0x00000080, 0x00800000, 0x00002000, 0x00802080]

def SP5 : List ℕ :=
  [0x00000100, 0x02080100, 0x02080000, 0x42000100, 0x00080000, 0x00000100, 0x40000000, 0x02080000,
   0x40080100, 0x00080000, 0x02000100, 0x40080100, 0x42000100, 0x42080000, 0x00080100, 0x40000000,
   0x02000000, 0x40080000, 0x40080000, 0x00000000, 0x40000100, 0x42080100, 0x42080100, 0x02000100,
   0x42080000, 0x40000100, 0x00000000, 0x42000000, 0x02080100, 0x02000000, 0x42000000, 0x00080100,
   0x00080000, 0x42000100, 0x00000100, 0x02000000, 0x40000000, 0x02080000, 0x42000100, 0x40080100,
   0x02000100, 0x40000000, 0x42080000, 0x02080100, 0x40080100, 0x00000100, 0x02000000, 0x42080000,
   0x42080100, 0x00080100, 0x42000000, 0x42080100, 0x02080000, 0x00000000, 0x40080000, 0x42000000,
   0x00080100, 0x02000100, 0x40000100, 0x00080000, 0x00000000, 0x40080000, 0x02080100, 0x40000100]

def SP6 : List ℕ :=
  [0x20000010, 0x20400000, 0x00004000, 0x20404010, 0x20400000, 0x00000010, 0x20404010, 0x00400000,
   0x20004000, 0x00404010, 0x00400000, 0x20000010, 0x00400010, 0x20004000, 0x20000000, 0x00004010,
   0x00000000, 0x00400010, 0x20004010, 0x00004000, 0x00404000, 0x20004010, 0x00000010, 0x20400010,
   0x20400010, 0x00000000, 0x00404010, 0x20404000, 0x00004010, 0x00404000, 0x20404000, 0x20000000,
   0x20004000, 0x00000010, 0x20400010, 0x00404000, 0x20404010, 0x00400000, 0x00004010, 0x20000010,
   0x00400000, 0x20004000, 0x20000000, 0x00004010, 0x20000010, 0x20404010, 0x00404000, 0x20400000,
   0x00404010, 0x20404000, 0x00000000, 0x20400010, 0x00000010, 0x00004000, 0x20400000, 0x00404010,
   0x00004000, 0x00400010, 0x20004010, 0x00000000, 0x20404000, 0x20000000, 0x00400010, 0x20004010]

def SP7 : List ℕ :=
  [0x00200000, 0x04200002, 0x04000802, 0x00000000, 0x00000800, 0x04000802, 0x00200802, 0x04200800,
   0x04200802, 0x00200000, 0x00000000, 0x04000002, 0x00000002, 0x04000000, 0x04200002, 0x00000802,
   0x04000800, 0x00200802, 0x00200002, 0x04000800, 0x04000002, 0x04200000, 0x04200800, 0x00200002,
   0x04200000, 0x00000800, 0x00000802, 0x04200802, 0x00200800, 0x00000002, 0x04000000, 0x00200800,
   0x04000000, 0x00200800, 0x00200000, 0x04000802, 0x04000802, 0x04200002, 0x04200002, 0x00000002,
   0x00200002, 0x04000000, 0x04000800, 0x00200000, 0x04200800, 0x00000802, 0x00200802, 0x04200800,
   0x00000802, 0x04000002, 0x04200802, 0x04200000, 0x00200800, 0x00000000, 0x00000002, 0x04200802,
   0x00000000, 0x00200802, 0x04200000, 0x00000800, 0x04000002, 0x04000800, 0x00000800, 0x00200002]

def SP8 : List ℕ :=
  [0x10001040, 0x00001000, 0x00040000, 0x10041040, 0x10000000, 0x10001040, 0x00000040, 0x10000000,
   0x00040040, 0x10040000, 0x10041040, 0x00041000, 0x10041000, 0x00041040, 0x00001000, 0x00000040,
   0x10040000, 0x10000040, 0x10001000, 0x00001040, 0x00041000, 0x00040040, 0x10040040, 0x10041000,
   0x00001040, 0x00000000, 0x00000000, 0x10040040, 0x10000040, 0x10001000, 0x00041040, 0x00040000,
   0x00041040, 0x00040000, 0x10041000, 0x00001000, 0x00000040, 0x10040040, 0x00001000, 0x00041040,
   0x10001000, 0x00000040, 0x10000040, 0x10040000, 0x10040040, 0x10000000, 0x00040000, 0x10001040,
   0x00000000, 0x10041040, 0x00040040, 0x10000040, 0x10040000, 0x10001000, 0x10001040, 0x00000000,
   0x10041040, 0x00041000, 0x00041000, 0x00001040, 0x00001040, 0x00040040, 0x10000000, 0x10041000]

/-! ### The key schedule -/

/-- Encryption or decryption. -/
inductive Edf
  | EN0
  | DE1

/-- The bits of the key that are used, in the order of `pc1`. -/
def pc1m (key : List UInt8) : List Bool :=
  pc1.map fun l => (key.getD (l >>> 3) 0).toNat &&& bytebit.getD (l &&& 0o7) 0 != 0

/-- Both halves of the key bits turned by `totrot[i]`. -/
def pcr (pc1m : List Bool) (i : ℕ) : List Bool :=
  (List.range 56).map fun j =>
    let l := j + totrot.getD i 0
    if l < (if j < 28 then 28 else 56) then pc1m.getD l false else pc1m.getD (l - 28) false

/-- `kn[m]` for `base = 0` and `kn[n]` for `base = 24`. -/
def kn (pcr : List Bool) (base : ℕ) : BitVec w :=
  (List.range 24).foldl
    (fun kn j => if pcr.getD (pc2.getD (j + base) 0) false then kn ||| BitVec.ofNat w (bigbyte.getD j 0)
      else kn) 0#w

/-- The two words that `cookey` makes of `raw0` and `raw1`. -/
def cook (raw0 raw1 : BitVec w) : List (BitVec w) :=
  [((raw0 &&& 0x00fc0000#w) <<< 6) ||| ((raw0 &&& 0x00000fc0#w) <<< 10) |||
      ((raw1 &&& 0x00fc0000#w) >>> 10) ||| ((raw1 &&& 0x00000fc0#w) >>> 6),
   ((raw0 &&& 0x0003f000#w) <<< 12) ||| ((raw0 &&& 0x0000003f#w) <<< 16) |||
      ((raw1 &&& 0x0003f000#w) >>> 4) ||| (raw1 &&& 0x0000003f#w)]

/-- `deskey`: the contents of `KnL`. Round `i` is at `i` in encryption and at `15 - i` in
decryption. -/
def deskey (key : List UInt8) (edf : Edf) : List (BitVec w) :=
  (List.range 16).flatMap fun m =>
    let i := match edf with
      | .EN0 => m
      | .DE1 => 15 - m
    let pcr := pcr (pc1m key) i
    cook (kn pcr 0) (kn pcr 24)

/-! ### The DES function -/

/-- The entry of a table under an index of six bits. -/
def entry (SP : List ℕ) (i : BitVec w) : BitVec w := BitVec.ofNat w (SP.getD i.toNat 0)

/-- Half a round: what `right` and two words of the key add to `leftt`, or the other way round. -/
def halfRound (keys : List (BitVec w)) (k : ℕ) (right leftt : BitVec w) : BitVec w :=
  let work := (right <<< 28) ||| (right >>> 4)
  let work := work ^^^ keys.getD k 0
  let fval := entry SP7 (work &&& 0x3f#w)
  let fval := fval ||| entry SP5 ((work >>> 8) &&& 0x3f#w)
  let fval := fval ||| entry SP3 ((work >>> 16) &&& 0x3f#w)
  let fval := fval ||| entry SP1 ((work >>> 24) &&& 0x3f#w)
  let work := right ^^^ keys.getD (k + 1) 0
  let fval := fval ||| entry SP8 (work &&& 0x3f#w)
  let fval := fval ||| entry SP6 ((work >>> 8) &&& 0x3f#w)
  let fval := fval ||| entry SP4 ((work >>> 16) &&& 0x3f#w)
  let fval := fval ||| entry SP2 ((work >>> 24) &&& 0x3f#w)
  leftt ^^^ fval

/-- One turn of the loop, the key pointer being at `4 * round`. -/
def desRound (keys : List (BitVec w)) (b : BitVec w × BitVec w) (round : ℕ) :
    BitVec w × BitVec w :=
  let leftt := halfRound keys (4 * round) b.2 b.1
  let right := halfRound keys (4 * round + 2) leftt b.2
  (leftt, right)

/-- The initial permutation, from the block to `(leftt, right)`. -/
def initialPermutation (leftt right : BitVec w) : BitVec w × BitVec w :=
  let (leftt, right) := exchange 4 0x0f0f0f0f leftt right
  let (leftt, right) := exchange 16 0x0000ffff leftt right
  let (right, leftt) := exchange 2 0x33333333 right leftt
  let (right, leftt) := exchange 8 0x00ff00ff right leftt
  let right := ((right <<< 1) ||| ((right >>> 31) &&& 1#w)) &&& 0xffffffff#w
  let (leftt, right) := exchange 0 0xaaaaaaaa leftt right
  let leftt := ((leftt <<< 1) ||| ((leftt >>> 31) &&& 1#w)) &&& 0xffffffff#w
  (leftt, right)

/-- The final permutation, from `(leftt, right)` to the block. -/
def finalPermutation (leftt right : BitVec w) : BitVec w × BitVec w :=
  let right := (right <<< 31) ||| (right >>> 1)
  let (leftt, right) := exchange 0 0xaaaaaaaa leftt right
  let leftt := (leftt <<< 31) ||| (leftt >>> 1)
  let (leftt, right) := exchange 8 0x00ff00ff leftt right
  let (leftt, right) := exchange 2 0x33333333 leftt right
  let (right, leftt) := exchange 16 0x0000ffff right leftt
  let (right, leftt) := exchange 4 0x0f0f0f0f right leftt
  (right, leftt)

def desfunc (block : BitVec w × BitVec w) (keys : List (BitVec w)) : BitVec w × BitVec w :=
  let b := (List.range 8).foldl (desRound keys) (initialPermutation block.1 block.2)
  finalPermutation b.1 b.2

/-- One word of `scrunch`, from four bytes. -/
def scrunch (b0 b1 b2 b3 : UInt8) : BitVec w :=
  ((b0.toBitVec.setWidth w &&& 0xff#w) <<< 24) ||| ((b1.toBitVec.setWidth w &&& 0xff#w) <<< 16) |||
    ((b2.toBitVec.setWidth w &&& 0xff#w) <<< 8) ||| (b3.toBitVec.setWidth w &&& 0xff#w)

/-- One word of `unscrun`, to four bytes. -/
def unscrun (x : BitVec w) : List UInt8 :=
  [UInt8.ofNat ((x >>> 24) &&& 0xff#w).toNat, UInt8.ofNat ((x >>> 16) &&& 0xff#w).toNat,
   UInt8.ofNat ((x >>> 8) &&& 0xff#w).toNat, UInt8.ofNat (x &&& 0xff#w).toNat]

/-- `des` on the eight bytes of `inblock` from `j` on, with the contents of `KnL`. -/
def des (KnL : List (BitVec w)) (inblock : List UInt8) (j : ℕ) : List UInt8 :=
  let byte := fun k => inblock.getD (j + k) 0
  let work := desfunc (scrunch (byte 0) (byte 1) (byte 2) (byte 3),
    scrunch (byte 4) (byte 5) (byte 6) (byte 7)) KnL
  unscrun work.1 ++ unscrun work.2

end Limbo.Vnc.D3des
