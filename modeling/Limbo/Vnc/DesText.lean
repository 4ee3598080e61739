import Limbo.Lib.Loop
import Limbo.Vnc.DesInverse

/-!
# Texts

`encryptText` and `decryptText` chain the blocks of a text, with the key as the block before the
first one. Both work in place, on arrays of which some may be the same: encryption leaves the
clear text with what it has added to it. The first block has code of its own, which does not ask
whether there is one.
-/

namespace Limbo.Vnc.DesCipher

/-! ### Arrays -/

/-- The arrays of bytes, by reference. -/
abbrev Arrays := ℕ → List UInt8

/-- `a[i]`, or `ArrayIndexOutOfBoundsException`. -/
def get (arrays : Arrays) (a i : ℕ) : Option UInt8 := (arrays a)[i]?

/-- `a[i] = b`. -/
def put (arrays : Arrays) (a i : ℕ) (b : UInt8) : Option Arrays :=
  if i < (arrays a).length then some (Function.update arrays a ((arrays a).set i b)) else none

/-- `for (j = 0; j < 8; j++) a[i + j] ^= b[k + j];` -/
def xorInto (a i b k : ℕ) (arrays : Arrays) : Option Arrays :=
  (List.range 8).foldlM (fun arrays j => do
    let x ← get arrays a (i + j)
    let y ← get arrays b (k + j)
    put arrays a (i + j) (x ^^^ y)) arrays

/-- The bytes that `squashBytesToInts` reads. -/
def readBlock (a i : ℕ) (arrays : Arrays) : Option (List UInt8) :=
  (List.range 8).mapM fun k => get arrays a (i + k)

/-- The stores of `spreadIntsToBytes`. -/
def writeBlock (a i : ℕ) (block : List UInt8) (arrays : Arrays) : Option Arrays :=
  (List.range 8).foldlM (fun arrays k => put arrays a (i + k) (block.getD k 0)) arrays

/-- `encrypt` on arrays. -/
def encryptAt (encryptKeys : List (BitVec 32)) (clearText clearOff cipherText cipherOff : ℕ)
    (arrays : Arrays) : Option Arrays := do
  let block ← readBlock clearText clearOff arrays
  writeBlock cipherText cipherOff (encrypt encryptKeys block 0) arrays

/-- `decrypt` on arrays. -/
def decryptAt (decryptKeys : List (BitVec 32)) (cipherText cipherOff clearText clearOff : ℕ)
    (arrays : Arrays) : Option Arrays := do
  let block ← readBlock cipherText cipherOff arrays
  writeBlock clearText clearOff (decrypt decryptKeys block 0) arrays

/-- `for (i = 8; i < clearText.length; i += 8)` -/
def encryptText (encryptKeys : List (BitVec 32)) (clearText cipherText key : ℕ)
    (arrays : Arrays) : Option Arrays := do
  let arrays ← xorInto clearText 0 key 0 arrays
  let arrays ← encryptAt encryptKeys clearText 0 cipherText 0 arrays
  (List.range (((arrays clearText).length - 1) / 8)).foldlM (fun arrays t => do
    let i := 8 + 8 * t
    let arrays ← xorInto clearText i cipherText (i - 8) arrays
    encryptAt encryptKeys clearText i cipherText i arrays) arrays

/-- `for (i = cipherText.length - 8; i > 0; i -= 8)` -/
def decryptText (decryptKeys : List (BitVec 32)) (cipherText clearText key : ℕ)
    (arrays : Arrays) : Option Arrays := do
  let length := (arrays cipherText).length
  let arrays ← (List.range ((length - 1) / 8)).foldlM (fun arrays t => do
    let i := length - 8 - 8 * t
    let arrays ← decryptAt decryptKeys cipherText i clearText i arrays
    xorInto clearText i cipherText (i - 8) arrays) arrays
  let arrays ← decryptAt decryptKeys cipherText 0 clearText 0 arrays
  xorInto clearText 0 key 0 arrays

/-! ### Stores -/

/-- The bytes `v` have been stored from `i` on. -/
structure Stored (a i n : ℕ) (v : ℕ → UInt8) (arrays arrays' : Arrays) : Prop where
  others : ∀ b ≠ a, arrays' b = arrays b
  length_eq : (arrays' a).length = (arrays a).length
  getD_eq : ∀ p, (arrays' a).getD p 0 =
    if i ≤ p ∧ p < i + n then v (p - i) else (arrays a).getD p 0

section Stores

variable {a b i k n : ℕ} {v : ℕ → UInt8} {arrays arrays' : Arrays}

lemma get_of_lt (h : i < (arrays a).length) : get arrays a i = some ((arrays a).getD i 0) := by
  rw [get, List.getElem?_eq_getElem h, List.getD_eq_getElem _ _ h]

/-- One more byte. -/
lemma Stored.put (h : Stored a i n v arrays arrays') (hlt : i + n < (arrays a).length) :
    ∃ arrays'', DesCipher.put arrays' a (i + n) (v n) = some arrays'' ∧
      Stored a i (n + 1) v arrays arrays'' := by
  have hlt' : i + n < (arrays' a).length := by rwa [h.length_eq]
  refine ⟨Function.update arrays' a ((arrays' a).set (i + n) (v n)), if_pos hlt', ?_, ?_, ?_⟩
  · intro b hb
    rw [Function.update_of_ne hb, h.others b hb]
  · rw [Function.update_self, List.length_set, h.length_eq]
  · intro p
    rw [Function.update_self]
    by_cases hp : p = i + n
    · subst hp
      have hin : i ≤ i + n ∧ i + n < i + (n + 1) := ⟨Nat.le_add_right i n, by omega⟩
      rw [if_pos hin, Nat.add_sub_cancel_left, List.getD_eq_getElem?_getD,
        List.getElem?_set_self hlt']
      rfl
    · have hiff : i ≤ p ∧ p < i + (n + 1) ↔ i ≤ p ∧ p < i + n := by omega
      rw [List.getD_eq_getElem?_getD, List.getElem?_set_ne (Ne.symm hp),
        ← List.getD_eq_getElem?_getD, h.getD_eq]
      simp only [hiff]

/-- A loop of stores. -/
lemma foldlM_put {f : Arrays → ℕ → Option Arrays} (hlen : i + n ≤ (arrays a).length)
    (hf : ∀ {j arrays'}, j < n → Stored a i j v arrays arrays' →
      f arrays' j = put arrays' a (i + j) (v j)) :
    ∃ arrays', (List.range n).foldlM f arrays = some arrays' ∧ Stored a i n v arrays arrays' := by
  refine Lib.foldlM_range (I := fun j => Stored a i j v arrays) ⟨fun _ _ => rfl, rfl, fun p => ?_⟩
    fun {j arrays'} hj hstored => ?_
  · rw [if_neg]
    omega
  · rw [hf hj hstored]
    exact hstored.put (by omega)

/-! ### Blocks of a text -/

def blockAt (text : List UInt8) (k : ℕ) : List UInt8 :=
  (List.range 8).map fun j => text.getD (8 * k + j) 0

def xorBlock (x y : List UInt8) : List UInt8 := List.zipWith (· ^^^ ·) x y

lemma length_blockAt (text : List UInt8) (k : ℕ) : (blockAt text k).length = 8 := rfl

lemma xorBlock_xorBlock {x y : List UInt8} (h : x.length = y.length) :
    xorBlock (xorBlock x y) y = x := by
  apply List.ext_getElem
  · simp [xorBlock, h]
  · intro p _ _
    simp [xorBlock]

lemma getD_blockAt (text : List UInt8) (k : ℕ) {j : ℕ} (hj : j < 8) :
    (blockAt text k).getD j 0 = text.getD (8 * k + j) 0 := by
  rw [blockAt, List.getD_eq_getElem?_getD, List.getElem?_map, List.getElem?_range hj]
  rfl

/-- A text is its blocks. -/
lemma eq_of_blocks {text text' : List UInt8} {m : ℕ} (hlen : text.length = 8 * m)
    (hlen' : text'.length = 8 * m) (h : ∀ k < m, blockAt text k = blockAt text' k) :
    text = text' := by
  apply List.ext_getElem (hlen.trans hlen'.symm)
  intro p hp hp'
  have hmod : p % 8 < 8 := Nat.mod_lt _ (by decide)
  have hp8 : 8 * (p / 8) + p % 8 = p := Nat.div_add_mod p 8
  have hblock := congrArg (fun block => block.getD (p % 8) 0) (h (p / 8) (by omega))
  simp only [getD_blockAt _ _ hmod, hp8] at hblock
  rwa [List.getD_eq_getElem _ _ hp, List.getD_eq_getElem _ _ hp'] at hblock

/-- Block `k` of an array has been written. -/
structure Wrote (a k : ℕ) (block : List UInt8) (arrays arrays' : Arrays) : Prop where
  others : ∀ b ≠ a, arrays' b = arrays b
  length_eq : ∀ b, (arrays' b).length = (arrays b).length
  self : blockAt (arrays' a) k = block
  ne : ∀ b, ∀ k' ≠ k, blockAt (arrays' b) k' = blockAt (arrays b) k'

lemma Stored.wrote (h : Stored a (8 * k) 8 v arrays arrays') :
    Wrote a k ((List.range 8).map v) arrays arrays' := by
  refine ⟨h.others, ?_, ?_, ?_⟩
  · intro b
    by_cases hb : b = a
    · rw [hb, h.length_eq]
    · rw [h.others b hb]
  · refine List.map_congr_left fun j hj => ?_
    have hj8 := List.mem_range.mp hj
    have hin : 8 * k ≤ 8 * k + j ∧ 8 * k + j < 8 * k + 8 := by omega
    rw [h.getD_eq, if_pos hin, Nat.add_sub_cancel_left]
  · intro b k' hk'
    by_cases hb : b = a
    · subst hb
      refine List.map_congr_left fun j hj => ?_
      have hj8 := List.mem_range.mp hj
      have hout : ¬ (8 * k ≤ 8 * k' + j ∧ 8 * k' + j < 8 * k + 8) := by omega
      rw [h.getD_eq, if_neg hout]
    · rw [h.others b hb]

lemma readBlock_eq (h : 8 * k + 8 ≤ (arrays a).length) :
    readBlock a (8 * k) arrays = some (blockAt (arrays a) k) := by
  have hmapM : ∀ js : List ℕ, (∀ j ∈ js, j < 8) →
      js.mapM (fun j => get arrays a (8 * k + j)) =
        some (js.map fun j => (arrays a).getD (8 * k + j) 0) := by
    intro js
    induction js with
    | nil => exact fun _ => rfl
    | cons j js ih =>
      intro hjs
      obtain ⟨hj, hjs⟩ := List.forall_mem_cons.mp hjs
      rw [List.mapM_cons, get_of_lt (by omega), ih hjs]
      rfl
  exact hmapM _ fun j => List.mem_range.mp

lemma writeBlock_wrote {block : List UInt8} (hblock : block.length = 8)
    (h : 8 * k + 8 ≤ (arrays a).length) :
    ∃ arrays', writeBlock a (8 * k) block arrays = some arrays' ∧
      Wrote a k block arrays arrays' := by
  obtain ⟨arrays', hrun, hstored⟩ :=
    foldlM_put (v := fun j => block.getD j 0) h fun _ _ => rfl
  refine ⟨arrays', hrun, ?_⟩
  have hself : (List.range 8).map (fun j => block.getD j 0) = block := by
    obtain ⟨b0, b1, b2, b3, b4, b5, b6, b7, rfl⟩ := exists_block hblock
    rfl
  rw [← hself]
  exact hstored.wrote

/-- A block of an array is added to another block, of the same array or not. -/
lemma xorInto_wrote {k' : ℕ} (hne : a ≠ b ∨ k ≠ k') (ha : 8 * k + 8 ≤ (arrays a).length)
    (hb : 8 * k' + 8 ≤ (arrays b).length) :
    ∃ arrays', xorInto a (8 * k) b (8 * k') arrays = some arrays' ∧
      Wrote a k (xorBlock (blockAt (arrays a) k) (blockAt (arrays b) k')) arrays arrays' := by
  have hturn : ∀ {j arrays'}, j < 8 → Stored a (8 * k) j
      (fun j => (arrays a).getD (8 * k + j) 0 ^^^ (arrays b).getD (8 * k' + j) 0) arrays arrays' →
      (do
        let x ← get arrays' a (8 * k + j)
        let y ← get arrays' b (8 * k' + j)
        put arrays' a (8 * k + j) (x ^^^ y)) =
      put arrays' a (8 * k + j)
        ((arrays a).getD (8 * k + j) 0 ^^^ (arrays b).getD (8 * k' + j) 0) := by
    intro j arrays' hj hstored
    have hx : (arrays' a).getD (8 * k + j) 0 = (arrays a).getD (8 * k + j) 0 := by
      rw [hstored.getD_eq, if_neg (by omega)]
    have hy : (arrays' b).getD (8 * k' + j) 0 = (arrays b).getD (8 * k' + j) 0 := by
      by_cases hab : b = a
      · subst hab
        have hk : k ≠ k' := hne.resolve_left fun h => h rfl
        rw [hstored.getD_eq, if_neg (by omega)]
      · rw [hstored.others b hab]
    have hlen : (arrays' b).length = (arrays b).length := by
      by_cases hab : b = a
      · rw [hab, hstored.length_eq]
      · rw [hstored.others b hab]
    rw [get_of_lt (by rw [hstored.length_eq]; omega), get_of_lt (by rw [hlen]; omega), hx, hy]
    rfl
  obtain ⟨arrays', hrun, hstored⟩ := foldlM_put ha hturn
  refine ⟨arrays', hrun, ?_⟩
  have hself : xorBlock (blockAt (arrays a) k) (blockAt (arrays b) k') =
      (List.range 8).map fun j =>
        (arrays a).getD (8 * k + j) 0 ^^^ (arrays b).getD (8 * k' + j) 0 := by
    rw [xorBlock, blockAt, blockAt, List.zipWith_map, List.zipWith_self]
  rw [hself]
  exact hstored.wrote

lemma encryptAt_wrote (keys : List (BitVec 32)) (ha : 8 * k + 8 ≤ (arrays a).length)
    (hb : 8 * k + 8 ≤ (arrays b).length) :
    ∃ arrays', encryptAt keys a (8 * k) b (8 * k) arrays = some arrays' ∧
      Wrote b k (encrypt keys (blockAt (arrays a) k) 0) arrays arrays' := by
  obtain ⟨arrays', hrun, hwrote⟩ := writeBlock_wrote (length_encrypt keys _ 0) hb
  refine ⟨arrays', ?_, hwrote⟩
  rw [encryptAt, readBlock_eq ha]
  exact hrun

lemma decryptAt_wrote (keys : List (BitVec 32)) (ha : 8 * k + 8 ≤ (arrays a).length)
    (hb : 8 * k + 8 ≤ (arrays b).length) :
    ∃ arrays', decryptAt keys a (8 * k) b (8 * k) arrays = some arrays' ∧
      Wrote b k (decrypt keys (blockAt (arrays a) k) 0) arrays arrays' :=
  encryptAt_wrote keys ha hb

end Stores

/-! ### The chain -/

/-- Block `k` of the encrypted text. -/
def cipherBlock (encryptKeys : List (BitVec 32)) (iv text : List UInt8) : ℕ → List UInt8
  | 0 => encrypt encryptKeys (xorBlock (blockAt text 0) iv) 0
  | k + 1 =>
    encrypt encryptKeys (xorBlock (blockAt text (k + 1)) (cipherBlock encryptKeys iv text k)) 0

/-- The block that is added to block `k`. -/
def previous (encryptKeys : List (BitVec 32)) (iv text : List UInt8) : ℕ → List UInt8
  | 0 => iv
  | k + 1 => cipherBlock encryptKeys iv text k

section Chain

variable {keys keys' : List (BitVec 32)} {iv text : List UInt8} {k : ℕ}

lemma cipherBlock_eq : cipherBlock keys iv text k =
    encrypt keys (xorBlock (blockAt text k) (previous keys iv text k)) 0 := by
  cases k <;> rfl

lemma length_previous (hiv : iv.length = 8) : (previous keys iv text k).length = 8 := by
  cases k with
  | zero => exact hiv
  | succ k =>
    rw [previous, cipherBlock_eq]
    rfl

/-- A block comes back from its encrypted block and the one before. -/
lemma xorBlock_decrypt_cipherBlock (h : Reversed keys keys') (hiv : iv.length = 8) :
    xorBlock (decrypt keys' (cipherBlock keys iv text k) 0) (previous keys iv text k) =
      blockAt text k := by
  have hprevious : (previous keys iv text k).length = 8 := length_previous hiv
  have hxor : (xorBlock (blockAt text k) (previous keys iv text k)).length = 8 := by
    rw [xorBlock, List.length_zipWith, length_blockAt, hprevious, Nat.min_self]
  rw [decrypt_eq_encrypt, cipherBlock_eq, encrypt_encrypt h hxor, xorBlock_xorBlock]
  rw [length_blockAt, hprevious]

/-- `encryptText` has done the first `k` blocks. -/
structure Encrypted (keys : List (BitVec 32)) (iv text : List UInt8) (clearText cipherText : ℕ)
    (arrays : Arrays) (k : ℕ) (arrays' : Arrays) : Prop where
  length_eq : ∀ b, (arrays' b).length = (arrays b).length
  others : ∀ b, b ≠ clearText → b ≠ cipherText → arrays' b = arrays b
  done : ∀ k' < k, blockAt (arrays' cipherText) k' = cipherBlock keys iv text k'
  todo : ∀ k' ≥ k, blockAt (arrays' clearText) k' = blockAt text k'

/-- `decryptText` has done the blocks from `k` on, of `m`. -/
structure Decrypted (keys : List (BitVec 32)) (iv text : List UInt8) (cipherText clearText m : ℕ)
    (arrays : Arrays) (k : ℕ) (arrays' : Arrays) : Prop where
  length_eq : ∀ b, (arrays' b).length = (arrays b).length
  others : ∀ b ≠ clearText, arrays' b = arrays b
  todo : ∀ k' < k, blockAt (arrays' cipherText) k' = cipherBlock keys iv text k'
  done : ∀ k', k ≤ k' → k' < m → blockAt (arrays' clearText) k' = blockAt text k'

variable {clearText cipherText key b j m : ℕ} {arrays arrays₁ : Arrays}

/-- One more block. -/
lemma Encrypted.next (h : Encrypted keys iv text clearText cipherText arrays k arrays₁)
    (hclear : 8 * k + 8 ≤ (arrays clearText).length)
    (hcipher : 8 * k + 8 ≤ (arrays cipherText).length) (hb : 8 * j + 8 ≤ (arrays b).length)
    (hne : clearText ≠ b ∨ k ≠ j)
    (hprevious : blockAt (arrays₁ b) j = previous keys iv text k) :
    ∃ arrays₂ arrays₃, xorInto clearText (8 * k) b (8 * j) arrays₁ = some arrays₂ ∧
      encryptAt keys clearText (8 * k) cipherText (8 * k) arrays₂ = some arrays₃ ∧
      Encrypted keys iv text clearText cipherText arrays (k + 1) arrays₃ := by
  rw [← h.length_eq] at hclear hcipher hb
  obtain ⟨arrays₂, hxor, hwrote⟩ := xorInto_wrote hne hclear hb
  rw [← hwrote.length_eq] at hclear hcipher
  obtain ⟨arrays₃, hencrypt, hwrote'⟩ := encryptAt_wrote keys hclear hcipher
  refine ⟨arrays₂, arrays₃, hxor, hencrypt, ?_, ?_, ?_, ?_⟩
  · intro b
    rw [hwrote'.length_eq, hwrote.length_eq, h.length_eq]
  · intro b hclear hcipher
    rw [hwrote'.others b hcipher, hwrote.others b hclear, h.others b hclear hcipher]
  · intro k' hk'
    by_cases hk : k' = k
    · subst hk
      rw [hwrote'.self, hwrote.self, hprevious, h.todo k' le_rfl, cipherBlock_eq]
    · rw [hwrote'.ne _ _ hk, hwrote.ne _ _ hk, h.done k' (by omega)]
  · intro k' hk'
    have hk : k' ≠ k := by omega
    rw [hwrote'.ne _ _ hk, hwrote.ne _ _ hk, h.todo k' (by omega)]

/-- One more block, from the end. -/
lemma Decrypted.next (h : Decrypted keys iv text cipherText clearText m arrays (k + 1) arrays₁)
    (hreversed : Reversed keys keys') (hiv : iv.length = 8)
    (hclear : 8 * k + 8 ≤ (arrays clearText).length)
    (hcipher : 8 * k + 8 ≤ (arrays cipherText).length) (hb : 8 * j + 8 ≤ (arrays b).length)
    (hne : clearText ≠ b ∨ k ≠ j)
    (hprevious : blockAt (arrays₁ b) j = previous keys iv text k) :
    ∃ arrays₂ arrays₃, decryptAt keys' cipherText (8 * k) clearText (8 * k) arrays₁ = some arrays₂ ∧
      xorInto clearText (8 * k) b (8 * j) arrays₂ = some arrays₃ ∧
      Decrypted keys iv text cipherText clearText m arrays k arrays₃ := by
  rw [← h.length_eq] at hclear hcipher hb
  obtain ⟨arrays₂, hdecrypt, hwrote⟩ := decryptAt_wrote keys' hcipher hclear
  rw [← hwrote.length_eq] at hclear hb
  obtain ⟨arrays₃, hxor, hwrote'⟩ := xorInto_wrote hne hclear hb
  refine ⟨arrays₂, arrays₃, hdecrypt, hxor, ?_, ?_, ?_, ?_⟩
  · intro b
    rw [hwrote'.length_eq, hwrote.length_eq, h.length_eq]
  · intro b hb
    rw [hwrote'.others b hb, hwrote.others b hb, h.others b hb]
  · intro k' hk'
    have hk : k' ≠ k := hk'.ne
    rw [hwrote'.ne _ _ hk, hwrote.ne _ _ hk, h.todo k' (by omega)]
  · intro k' hk' hm
    by_cases hk : k' = k
    · subst hk
      have hb' : blockAt (arrays₂ b) j = previous keys iv text k' := by
        obtain hne | hne := hne
        · rw [hwrote.others b hne.symm, hprevious]
        · rw [hwrote.ne _ _ hne.symm, hprevious]
      rw [hwrote'.self, hwrote.self, hb', h.todo k' (by omega),
        xorBlock_decrypt_cipherBlock hreversed hiv]
    · rw [hwrote'.ne _ _ hk, hwrote.ne _ _ hk, h.done k' (by omega) hm]

/-- `encryptText` on a text of at least one block. -/
lemma encryptText_encrypted (hm : 0 < m) (hclear : (arrays clearText).length = 8 * m)
    (hcipher : (arrays cipherText).length = 8 * m) (hkey : 8 ≤ (arrays key).length)
    (hne : clearText ≠ key) :
    ∃ arrays', encryptText keys clearText cipherText key arrays = some arrays' ∧
      Encrypted keys (blockAt (arrays key) 0) (arrays clearText) clearText cipherText arrays m
        arrays' := by
  have hstart : Encrypted keys (blockAt (arrays key) 0) (arrays clearText) clearText cipherText
      arrays 0 arrays := ⟨fun _ => rfl, fun _ _ _ => rfl, nofun, fun _ _ => rfl⟩
  obtain ⟨arrays₁, arrays₂, hxor, hencrypt, hfirst⟩ :=
    hstart.next (j := 0) (by omega) (by omega) (by omega) (.inl hne) rfl
  have hlength : ((arrays₂ clearText).length - 1) / 8 = m - 1 := by
    rw [hfirst.length_eq]
    omega
  obtain ⟨arrays₃, hloop, hlast⟩ := Lib.foldlM_range (n := m - 1)
    (f := fun arrays t => do
      let arrays ← xorInto clearText (8 + 8 * t) cipherText (8 + 8 * t - 8) arrays
      encryptAt keys clearText (8 + 8 * t) cipherText (8 + 8 * t) arrays)
    (I := fun t => Encrypted keys (blockAt (arrays key) 0) (arrays clearText) clearText cipherText
      arrays (t + 1)) hfirst (by
    intro t arrays₃ ht h
    obtain ⟨arrays₄, arrays₅, hxor, hencrypt, hnext⟩ :=
      h.next (b := cipherText) (j := t) (by omega) (by omega) (by omega) (.inr (by omega))
        (h.done t t.lt_succ_self)
    refine ⟨arrays₅, ?_, hnext⟩
    have hi : 8 + 8 * t = 8 * (t + 1) := by ring
    have hback : 8 * (t + 1) - 8 = 8 * t := by omega
    rw [hi, hback, hxor]
    exact hencrypt)
  rw [Nat.sub_add_cancel hm] at hlast
  refine ⟨arrays₃, ?_, hlast⟩
  rw [← hloop, ← hlength]
  simp only [encryptText, mul_zero] at hxor hencrypt ⊢
  rw [hxor, Option.bind_eq_bind, Option.bind_some, hencrypt, Option.bind_some]

/-- `decryptText` on what is left of the blocks of a text. -/
lemma decryptText_decrypted (hreversed : Reversed keys keys') (hm : 0 < m)
    (hclear : (arrays clearText).length = 8 * m) (hcipher : (arrays cipherText).length = 8 * m)
    (hkey : 8 ≤ (arrays key).length) (hne : clearText ≠ key)
    (hblocks : ∀ k < m, blockAt (arrays cipherText) k =
      cipherBlock keys (blockAt (arrays key) 0) text k) :
    ∃ arrays', decryptText keys' cipherText clearText key arrays = some arrays' ∧
      Decrypted keys (blockAt (arrays key) 0) text cipherText clearText m arrays 0 arrays' := by
  have hiv : (blockAt (arrays key) 0).length = 8 := length_blockAt _ _
  have hstart : Decrypted keys (blockAt (arrays key) 0) text cipherText clearText m arrays
      (m - 0) arrays := by
    refine ⟨fun _ => rfl, fun _ _ => rfl, hblocks, fun k' hk' hm' => ?_⟩
    omega
  have hcount : (8 * m - 1) / 8 = m - 1 := by omega
  obtain ⟨arrays₁, hloop, hlast⟩ := Lib.foldlM_range (n := m - 1)
    (f := fun arrays t => do
      let arrays ← decryptAt keys' cipherText (8 * m - 8 - 8 * t) clearText (8 * m - 8 - 8 * t)
        arrays
      xorInto clearText (8 * m - 8 - 8 * t) cipherText (8 * m - 8 - 8 * t - 8) arrays)
    (I := fun t => Decrypted keys (blockAt (arrays key) 0) text cipherText clearText m arrays
      (m - t)) hstart (by
    intro t arrays₁ ht h
    have hi : 8 * m - 8 - 8 * t = 8 * (m - (t + 1)) := by omega
    have hback : 8 * (m - (t + 1)) - 8 = 8 * (m - (t + 1) - 1) := by omega
    have hsucc : m - t = m - (t + 1) + 1 := by omega
    have hpred : m - (t + 1) = m - (t + 1) - 1 + 1 := by omega
    rw [hsucc] at h
    obtain ⟨arrays₂, arrays₃, hdecrypt, hxor, hnext⟩ :=
      h.next (b := cipherText) (j := m - (t + 1) - 1) hreversed hiv (by omega) (by omega)
        (by omega) (.inr (by omega)) (by
          rw [h.todo _ (by omega)]
          conv_rhs => rw [hpred]
          rfl)
    refine ⟨arrays₃, ?_, hnext⟩
    rw [hi, hback, hdecrypt]
    exact hxor)
  rw [show m - (m - 1) = 0 + 1 by omega] at hlast
  obtain ⟨arrays₂, arrays₃, hdecrypt, hxor, hfirst⟩ :=
    hlast.next (b := key) (j := 0) hreversed hiv (by omega) (by omega) (by omega) (.inl hne) (by
      rw [hlast.others key hne.symm]
      rfl)
  refine ⟨arrays₃, ?_, hfirst⟩
  simp only [decryptText, hcipher, hcount, mul_zero] at hloop hdecrypt hxor ⊢
  rw [hloop, Option.bind_eq_bind, Option.bind_some, hdecrypt, Option.bind_some, hxor]

end Chain

/-- `decryptText` restores the text that `encryptText` has encrypted, whichever of the arrays of the
texts are the same. -/
def RoundTrip (desKey key text : List UInt8) : Prop :=
  ∀ (clearText cipherText restored keyArray : ℕ) (arrays : Arrays),
    arrays clearText = text → (arrays cipherText).length = text.length →
    (arrays restored).length = text.length → arrays keyArray = key →
    keyArray ≠ clearText → keyArray ≠ cipherText → keyArray ≠ restored →
    ∃ arrays₁ arrays₂,
      encryptText (deskey desKey true) clearText cipherText keyArray arrays = some arrays₁ ∧
      decryptText (deskey desKey false) cipherText restored keyArray arrays₁ = some arrays₂ ∧
      arrays₂ restored = text

/-- The text has a first block. -/
lemma roundTrip_of_blocks {desKey key text : List UInt8} {m : ℕ} (hm : 0 < m)
    (hkey : 8 ≤ key.length) (htext : text.length = 8 * m) : RoundTrip desKey key text := by
  rintro clearText cipherText restored keyArray arrays rfl hcipher hrestored rfl hclear hne hne'
  obtain ⟨arrays₁, hencrypt, hdone⟩ := @encryptText_encrypted (deskey desKey true) _ _ _ _ _ hm htext
    (hcipher.trans htext) hkey hclear.symm
  have hkeep : arrays₁ keyArray = arrays keyArray := hdone.others keyArray hclear hne
  obtain ⟨arrays₂, hdecrypt, hback⟩ := @decryptText_decrypted _ _ (arrays clearText) restored _ _ _ _
    (reversed_deskey desKey) hm
    ((hdone.length_eq _).trans (hrestored.trans htext))
    ((hdone.length_eq _).trans (hcipher.trans htext)) (by rwa [hkeep]) hne'.symm (by
      rw [hkeep]
      exact hdone.done)
  refine ⟨arrays₁, arrays₂, hencrypt, hdecrypt, ?_⟩
  refine eq_of_blocks (m := m) ?_ htext fun k hk => hback.done k k.zero_le hk
  rw [hback.length_eq, hdone.length_eq, hrestored, htext]

/-- The loop over the first block of an empty array throws. -/
lemma encryptText_empty (keys : List (BitVec 32)) {clearText cipherText key : ℕ} {arrays : Arrays}
    (h : arrays clearText = []) : encryptText keys clearText cipherText key arrays = none := by
  have hxor : xorInto clearText 0 key 0 arrays = none := by
    rw [xorInto, List.range_succ_eq_map, List.foldlM_cons]
    simp [get, h]
  simp only [encryptText, hxor, Option.bind_eq_bind, Option.bind_none]

/-- Decryption undoes encryption and encryption decryption of every block, and of every text of
whole blocks unless it is empty. -/
theorem decryptText_encryptText (desKey : Vector UInt8 8) {key text : List UInt8}
    (hkey : 8 ≤ key.length) (htext : 8 ∣ text.length) :
    (∀ block : Vector UInt8 8,
      decrypt (deskey desKey.toList false) (encrypt (deskey desKey.toList true) block.toList 0) 0 =
        block.toList ∧
      encrypt (deskey desKey.toList true) (decrypt (deskey desKey.toList false) block.toList 0) 0 =
        block.toList) ∧
      (RoundTrip desKey.toList key text ↔ text ≠ []) := by
  refine ⟨fun block => ⟨decrypt_encrypt _ block.length_toList, encrypt_decrypt _ block.length_toList⟩,
    ?_, ?_⟩
  · rintro h rfl
    -- all the arrays apart, and empty but for the key
    obtain ⟨arrays₁, -, hencrypt, -⟩ := h 0 1 2 3 (Function.update (fun _ => []) 3 key) rfl rfl rfl
      (Function.update_self _ _ _) (by decide) (by decide) (by decide)
    rw [encryptText_empty _ rfl] at hencrypt
    cases hencrypt
  · intro hne
    obtain ⟨m, hm⟩ := htext
    have hpos : 0 < text.length := List.length_pos_iff.mpr hne
    exact roundTrip_of_blocks (m := m) (by omega) hkey hm

/-- A text of two blocks, -/
theorem decryptText_encryptText_blocks :
    RoundTrip [1, 2, 3, 4, 5, 6, 7, 8] [8, 7, 6, 5, 4, 3, 2, 1] (List.replicate 16 0x41) :=
  (decryptText_encryptText #v[1, 2, 3, 4, 5, 6, 7, 8] (by decide) (by decide)).2.mpr (by decide)

/-- and a text of none, which does not come back. -/
theorem encryptText_no_blocks :
    8 ∣ ([] : List UInt8).length ∧
      ¬ RoundTrip [1, 2, 3, 4, 5, 6, 7, 8] [8, 7, 6, 5, 4, 3, 2, 1] [] := by
  refine ⟨by decide, fun h => ?_⟩
  obtain ⟨arrays₁, -, hencrypt, -⟩ := h 0 1 2 3
    (Function.update (fun _ => []) 3 [8, 7, 6, 5, 4, 3, 2, 1]) rfl rfl rfl
    (Function.update_self _ _ _) (by decide) (by decide) (by decide)
  rw [encryptText_empty _ rfl] at hencrypt
  cases hencrypt

end Limbo.Vnc.DesCipher
