import Mathlib

/-!
# Strings of C and of Java

A C string is the list of its bytes in front of the terminator, a Java string the list of its
UTF-16 units. The JNI hands a Java string over in modified UTF-8, in which no byte is zero.
-/

namespace Limbo.Lib

/-- The bytes of a C string, its terminator left out. -/
abbrev CString := List UInt8

/-- The UTF-16 units of a Java string. -/
abbrev JString := List UInt16

/-- An ASCII literal as a C string. -/
def cstr (s : String) : CString := s.toList.map fun c => c.toNat.toUInt8

/-- An ASCII literal as a Java string. -/
def jstr (s : String) : JString := s.toList.map fun c => c.toNat.toUInt16

/-- `strncmp(s, t, n) == 0`. -/
def strncmpEq (s t : CString) (n : ℕ) : Bool := s.take n = t.take n

/-- `sprintf(buf, "%d", n)`. -/
def decimal (n : Int32) : CString :=
  (if n.toInt < 0 then cstr "-" else []) ++
    (Nat.toDigits 10 n.toInt.natAbs).map fun c => c.toNat.toUInt8

/-- An `int` takes a sign and ten digits at most. -/
lemma length_decimal (n : Int32) : (decimal n).length ≤ 11 := by
  have hlo := Int32.le_toInt n
  have hhi := Int32.toInt_lt n
  have hdigits : (Nat.toDigits 10 n.toInt.natAbs).length ≤ 10 := by
    rw [Nat.length_toDigits_le_iff (by decide) (by decide)]
    omega
  have hsign : (if n.toInt < 0 then cstr "-" else []).length ≤ 1 := by
    by_cases h : n.toInt < 0
    · rw [if_pos h]; decide
    · rw [if_neg h]; decide
  rw [decimal, List.length_append, List.length_map]
  omega

/-- `pstrcpy(buf, size, s)`: the string in `buf`. -/
def pstrcpy (size : ℕ) (s : CString) : CString := s.take (size - 1)

lemma pstrcpy_of_length_lt {size : ℕ} {s : CString} (h : s.length < size) : pstrcpy size s = s :=
  List.take_of_length_le (by omega)

lemma length_pstrcpy_lt {size : ℕ} (hs : 0 < size) (s : CString) :
    (pstrcpy size s).length < size := by
  rw [pstrcpy, List.length_take]
  omega

/-- `isspace`. -/
def isspace (c : UInt8) : Bool := c = 32 ∨ (9 ≤ c ∧ c ≤ 13)

/-- `isdigit`. -/
def isdigit (c : UInt8) : Bool := 48 ≤ c ∧ c ≤ 57

/-- The value of a sequence of decimal digits. -/
def digitsValue (s : CString) : ℕ := s.foldl (fun n c => n * 10 + (c.toNat - 48)) 0

/-- `ULONG_MAX` where a `long` has 32 bits. -/
def ulongMax : ℕ := 2 ^ 32 - 1

/-- `strtoul(s, NULL, 10)`. -/
def strtoul (s : CString) : ℕ :=
  let s := s.dropWhile isspace
  let negative := s.head? = some 45
  let digits := if s.head? = some 45 ∨ s.head? = some 43 then s.tail else s
  let n := digitsValue (digits.takeWhile isdigit)
  if ulongMax < n then ulongMax
  else if negative then (2 ^ 32 - n) % 2 ^ 32
  else n

namespace JString

/-- `s.split(" ")[0]`: the part in front of the first space. A string of spaces alone splits into
nothing, since trailing empty parts are dropped, and has no first part. -/
def splitFirst (s : JString) : Option JString :=
  let space : UInt16 := 32
  if s ≠ [] ∧ s.all (· == space) then none else some (s.takeWhile (· != space))

/-- `s.endsWith(suffix)`. -/
def endsWith (s suffix : JString) : Bool := suffix.isSuffixOf s

/-- The bytes of one UTF-16 unit in modified UTF-8; the unit `0` takes two. -/
def utfUnit (u : UInt16) : CString :=
  let n := u.toNat
  if 1 ≤ n ∧ n ≤ 0x7f then [n.toUInt8]
  else if n ≤ 0x7ff then [(0xc0 + n / 64).toUInt8, (0x80 + n % 64).toUInt8]
  else [(0xe0 + n / 4096).toUInt8, (0x80 + n / 64 % 64).toUInt8, (0x80 + n % 64).toUInt8]

/-- `GetStringUTFChars`. -/
def utfChars (s : JString) : CString := s.flatMap utfUnit

/-- A byte of a character is the character itself, or no ASCII at all. -/
lemma mem_utfUnit {u : UInt16} {c : UInt8} (h : c ∈ utfUnit u) :
    c.toNat = u.toNat ∧ utfUnit u = [c] ∨ 128 ≤ c.toNat := by
  have hu : u.toNat < 65536 := u.toNat_lt
  unfold utfUnit at h ⊢
  dsimp only at h ⊢
  split_ifs at h ⊢ with h1 h2
  · obtain rfl := List.mem_singleton.mp h
    left
    refine ⟨?_, rfl⟩
    rw [Nat.toUInt8_eq, UInt8.toNat_ofNat', Nat.mod_eq_of_lt (by omega)]
  · right
    simp only [List.mem_cons, List.not_mem_nil, or_false] at h
    rcases h with rfl | rfl <;> rw [Nat.toUInt8_eq, UInt8.toNat_ofNat'] <;> omega
  · right
    simp only [List.mem_cons, List.not_mem_nil, or_false] at h
    rcases h with rfl | rfl | rfl <;> rw [Nat.toUInt8_eq, UInt8.toNat_ofNat'] <;> omega

lemma utfUnit_ne_nil (u : UInt16) : utfUnit u ≠ [] := by
  unfold utfUnit
  dsimp only
  split_ifs <;> exact List.cons_ne_nil _ _

lemma utfChars_cons (u : UInt16) (s : JString) :
    utfChars (u :: s) = utfUnit u ++ utfChars s := List.flatMap_cons

lemma utfChars_append (s t : JString) :
    utfChars (s ++ t) = utfChars s ++ utfChars t := List.flatMap_append

/-- Characters left out of a string take at least one byte each. -/
lemma length_utfChars_of_sublist {s t : JString} (h : s.Sublist t) :
    (utfChars s).length + t.length ≤ (utfChars t).length + s.length := by
  induction h with
  | slnil => exact le_rfl
  | cons u _ ih =>
    have := List.length_pos_of_ne_nil (utfUnit_ne_nil u)
    rw [utfChars_cons, List.length_append, List.length_cons]
    omega
  | cons_cons u _ ih =>
    rw [utfChars_cons, utfChars_cons, List.length_append, List.length_append, List.length_cons,
      List.length_cons]
    omega

lemma length_le_utfChars (s : JString) : s.length ≤ (utfChars s).length := by
  have := length_utfChars_of_sublist (List.nil_sublist s)
  rw [List.length_nil] at this
  omega

lemma length_utfChars_le {s t : JString} (h : s.Sublist t) :
    (utfChars s).length ≤ (utfChars t).length := by
  have := length_utfChars_of_sublist h
  have := h.length_le
  omega

lemma eq_of_length_utfChars {s t : JString} (h : s.Sublist t)
    (hlen : (utfChars t).length ≤ (utfChars s).length) : s = t := by
  have := length_utfChars_of_sublist h
  exact h.eq_of_length_le (by omega)

/-- The first unit of a surrogate pair. -/
def isHighSurrogate (u : UInt16) : Bool := 0xd800 ≤ u ∧ u ≤ 0xdbff

/-- The second unit of a surrogate pair. -/
def isLowSurrogate (u : UInt16) : Bool := 0xdc00 ≤ u ∧ u ≤ 0xdfff

def isSurrogate (u : UInt16) : Bool := isHighSurrogate u || isLowSurrogate u

lemma isHighSurrogate_iff {u : UInt16} :
    isHighSurrogate u ↔ 0xd800 ≤ u.toNat ∧ u.toNat ≤ 0xdbff := by
  unfold isHighSurrogate
  rw [decide_eq_true_iff, UInt16.le_iff_toNat_le, UInt16.le_iff_toNat_le]
  rfl

lemma isLowSurrogate_iff {u : UInt16} :
    isLowSurrogate u ↔ 0xdc00 ≤ u.toNat ∧ u.toNat ≤ 0xdfff := by
  unfold isLowSurrogate
  rw [decide_eq_true_iff, UInt16.le_iff_toNat_le, UInt16.le_iff_toNat_le]
  rfl

lemma isSurrogate_iff {u : UInt16} : isSurrogate u ↔ 0xd800 ≤ u.toNat ∧ u.toNat ≤ 0xdfff := by
  unfold isSurrogate
  rw [Bool.or_eq_true, isHighSurrogate_iff, isLowSurrogate_iff]
  omega

/-- The bytes of one code point in UTF-8. -/
def utf8Char (n : ℕ) : List UInt8 :=
  if n ≤ 0x7f then [n.toUInt8]
  else if n ≤ 0x7ff then [(0xc0 + n / 64).toUInt8, (0x80 + n % 64).toUInt8]
  else if n ≤ 0xffff then
    [(0xe0 + n / 4096).toUInt8, (0x80 + n / 64 % 64).toUInt8, (0x80 + n % 64).toUInt8]
  else
    [(0xf0 + n / 262144).toUInt8, (0x80 + n / 4096 % 64).toUInt8, (0x80 + n / 64 % 64).toUInt8,
      (0x80 + n % 64).toUInt8]

/-- `s.getBytes()` in UTF-8; a surrogate that is not of a pair becomes a question mark. -/
def getBytes : JString → List UInt8
  | [] => []
  | [u] => if isSurrogate u then [0x3f] else utf8Char u.toNat
  | u :: v :: s =>
    if isHighSurrogate u ∧ isLowSurrogate v then
      utf8Char (0x10000 + (u.toNat - 0xd800) * 1024 + (v.toNat - 0xdc00)) ++ getBytes s
    else (if isSurrogate u then [0x3f] else utf8Char u.toNat) ++ getBytes (v :: s)

lemma utf8Char_eq {u : UInt16} (h : u ≠ 0) : utf8Char u.toNat = utfUnit u := by
  have hu : u.toNat < 65536 := u.toNat_lt
  have h0 : u.toNat ≠ 0 := fun h' => h (UInt16.toNat_inj.mp h')
  unfold utf8Char utfUnit
  dsimp only
  by_cases h1 : u.toNat ≤ 0x7f
  · rw [if_pos h1, if_pos ⟨by omega, h1⟩]
  · rw [if_neg h1, if_neg (show ¬ (1 ≤ u.toNat ∧ u.toNat ≤ 0x7f) by omega)]
    by_cases h2 : u.toNat ≤ 0x7ff
    · rw [if_pos h2, if_pos h2]
    · rw [if_neg h2, if_neg h2, if_pos (by omega)]

/-- A unit that is no surrogate is encoded by itself. -/
lemma getBytes_cons {u : UInt16} (h : ¬ isSurrogate u) (s : JString) :
    getBytes (u :: s) = utf8Char u.toNat ++ getBytes s := by
  have hhigh : ¬ isHighSurrogate u := fun h' => h (by rw [isSurrogate, h', Bool.true_or])
  cases s with
  | nil => simp [getBytes, h]
  | cons v s => rw [getBytes, if_neg fun h' => hhigh h'.1, if_neg h]

/-- A string without surrogates and without the unit `0` has the same bytes in both encodings. -/
lemma getBytes_append {p : JString} (hp : ∀ u ∈ p, ¬ isSurrogate u ∧ u ≠ 0) (s : JString) :
    getBytes (p ++ s) = utfChars p ++ getBytes s := by
  induction p with
  | nil => rfl
  | cons u p ih =>
    obtain ⟨hu, h0⟩ := hp u List.mem_cons_self
    rw [List.cons_append, getBytes_cons hu, utf8Char_eq h0, utfChars_cons, List.append_assoc,
      ih fun v hv => hp v (List.mem_cons_of_mem _ hv)]

lemma length_utf8Char_pos (n : ℕ) : 0 < (utf8Char n).length := by
  unfold utf8Char
  split_ifs <;> simp

/-- No unit is without a byte. -/
lemma length_le_getBytes (s : JString) : s.length ≤ (getBytes s).length := by
  fun_induction getBytes s with
  | case1 => exact le_rfl
  | case2 u _ => exact le_rfl
  | case3 u _ => exact length_utf8Char_pos _
  | case4 u v s h ih =>
    have hpair : ∀ n, 0x10000 ≤ n → (utf8Char n).length = 4 := by
      intro n hn
      unfold utf8Char
      rw [if_neg (by omega), if_neg (by omega), if_neg (by omega)]
      rfl
    rw [List.length_append, hpair _ (by omega), List.length_cons, List.length_cons]
    omega
  | case5 u v s _ ih =>
    have hone : 0 < (if isSurrogate u then [0x3f] else utf8Char u.toNat).length := by
      split_ifs
      · exact Nat.one_pos
      · exact length_utf8Char_pos _
    rw [List.length_append, List.length_cons]
    omega

end JString

end Limbo.Lib
