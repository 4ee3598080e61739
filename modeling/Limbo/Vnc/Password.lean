import Limbo.Lib.CString
import Limbo.Vnc.DesCipher

/-!
# The password of a VNC session

The password is one string of the app. The client encrypts the challenge of the server under a key
of eight bytes that `authenticateVNC` makes of the string, the server under a key that
`protocol_client_auth_vnc` makes of the bytes that the JNI handed over.
-/

namespace Limbo.Vnc.Password

open Lib

/-! ### The client -/

/-- `System.arraycopy(src, 0, dest, 0, length)`, `none` being its exception. -/
def arraycopy (src dest : List UInt8) (length : ℕ) : Option (List UInt8) :=
  if length ≤ src.length ∧ length ≤ dest.length then some (src.take length ++ dest.drop length)
  else none

/-- The password after both truncations. -/
def truncate (pw : JString) : JString :=
  let pw := if 8 < pw.length then pw.take 8 else pw
  match pw.findIdx? (· == 0) with
  | some firstZero => pw.take firstZero
  | none => pw

/-- The `key` of `authenticateVNC`. -/
def clientKey (pw : JString) : Option (List UInt8) :=
  arraycopy (truncate pw).getBytes (List.replicate 8 0) (truncate pw).length

/-- `authenticateVNC`: what is written to the server. -/
def authenticateVNC (pw : JString) (challenge : List UInt8) : Option (List UInt8) := do
  let key ← clientKey pw
  let des := DesCipher.deskey key true
  pure (DesCipher.encrypt des challenge 0 ++ DesCipher.encrypt des challenge 8)

/-! ### The server -/

/-- The `key` of `protocol_client_auth_vnc`. -/
def serverKey (password : CString) : List UInt8 :=
  (List.range 8).map fun i => if i < password.length then password.getD i 0 else 0

/-- The `response` of `protocol_client_auth_vnc`, an `unsigned long` having `w` bits. -/
def response (w : ℕ) (password : CString) (challenge : List UInt8) : List UInt8 :=
  let KnL : List (BitVec w) := D3des.deskey (serverKey password) .EN0
  D3des.des KnL challenge 0 ++ D3des.des KnL challenge 8

/-! ### The bits of the key that count -/

/-- The most significant bit of each byte of the key is left out. -/
lemma pc1m_eq_iff {key key' : List UInt8} :
    DesCipher.pc1m key = DesCipher.pc1m key' ↔
      ∀ i < 8, (key.getD i 0).toNat % 128 = (key'.getD i 0).toNat % 128 := by
  have hbit : ∀ b : BitVec 8, ∀ m < 7,
      (DesCipher.promote ⟨b⟩ &&& DesCipher.promote (DesCipher.bytebit.getD m 0) != 0#32) =
        b.toNat.testBit m := by
    decide +kernel
  have hbits : ∀ b b' : UInt8, b.toNat % 128 = b'.toNat % 128 ↔
      ∀ m < 7, (DesCipher.promote b &&& DesCipher.promote (DesCipher.bytebit.getD m 0) != 0#32) =
        (DesCipher.promote b' &&& DesCipher.promote (DesCipher.bytebit.getD m 0) != 0#32) := by
    intro b b'
    constructor
    · intro h m hm
      have hmod := congrArg (fun n => n.testBit m) h
      simp only [show 128 = 2 ^ 7 from rfl, Nat.testBit_mod_two_pow, hm, decide_true,
        Bool.true_and] at hmod
      exact (hbit b.toBitVec m hm).trans (hmod.trans (hbit b'.toBitVec m hm).symm)
    · intro h
      refine Nat.eq_of_testBit_eq fun m => ?_
      rw [show 128 = 2 ^ 7 from rfl, Nat.testBit_mod_two_pow, Nat.testBit_mod_two_pow]
      by_cases hm : m < 7
      · have hm' : b.toNat.testBit m = b'.toNat.testBit m :=
          (hbit b.toBitVec m hm).symm.trans ((h m hm).trans (hbit b'.toBitVec m hm))
        rw [hm']
      · rw [decide_eq_false hm, Bool.false_and, Bool.false_and]
  have hpc1 : ∀ l ∈ DesCipher.pc1, l >>> 3 < 8 ∧ l &&& 0o7 < 7 := by decide
  have hmem : ∀ i < 8, ∀ m < 7, 8 * i + m ∈ DesCipher.pc1 := by decide
  have hsplit : ∀ i < 8, ∀ m < 7, (8 * i + m) >>> 3 = i ∧ (8 * i + m) &&& 0o7 = m := by decide
  unfold DesCipher.pc1m
  rw [List.map_inj_left]
  constructor
  · intro h i hi
    refine (hbits _ _).mpr fun m hm => ?_
    have hl := h _ (hmem i hi m hm)
    rwa [(hsplit i hi m hm).1, (hsplit i hi m hm).2] at hl
  · intro h l hl
    obtain ⟨hi, hm⟩ := hpc1 l hl
    exact (hbits _ _).mp (h _ hi) _ hm

/-! ### The bytes of both keys -/

lemma truncate_eq (pw : JString) : truncate pw = (pw.take 8).takeWhile (· != 0) := by
  have htake : (if 8 < pw.length then pw.take 8 else pw) = pw.take 8 := by
    by_cases h : 8 < pw.length
    · rw [if_pos h]
    · rw [if_neg h, List.take_of_length_le (by omega)]
  have hnot : (fun u : UInt16 => !(u != 0)) = (· == 0) := by
    funext u
    rw [bne, Bool.not_not]
  rw [truncate, htake, List.takeWhile_eq_take_findIdx_not, hnot]
  cases h : (pw.take 8).findIdx? (· == 0) with
  | some firstZero =>
    rw [(List.findIdx?_eq_some_iff_findIdx_eq.mp h).2]
  | none =>
    rw [List.findIdx?_eq_none_iff_findIdx_eq.mp h, List.take_length]

lemma length_truncate_le (pw : JString) : (truncate pw).length ≤ 8 := by
  rw [truncate_eq]
  exact ((List.takeWhile_sublist _).length_le).trans (List.length_take_le _ _)

lemma truncate_starts (pw : JString) : truncate pw <+: pw := by
  rw [truncate_eq]
  exact (List.takeWhile_prefix _).trans (List.take_prefix _ _)

lemma ne_zero_of_mem_truncate {pw : JString} {u : UInt16} (h : u ∈ truncate pw) : u ≠ 0 := by
  rw [truncate_eq] at h
  simpa using List.mem_takeWhile_imp h

/-- Every unit has a byte to be copied, so that the copy never fails. -/
lemma clientKey_eq (pw : JString) :
    clientKey pw = some ((truncate pw).getBytes.take (truncate pw).length ++
      List.replicate (8 - (truncate pw).length) 0) := by
  have h := length_truncate_le pw
  rw [clientKey, arraycopy, if_pos ⟨JString.length_le_getBytes _, by simpa using h⟩,
    List.drop_replicate]

lemma getD_serverKey {password : CString} {i : ℕ} (hi : i < 8) :
    (serverKey password).getD i 0 = password.getD i 0 := by
  rw [serverKey, List.getD_eq_getElem _ _ (by simpa using hi), List.getElem_map, List.getElem_range]
  by_cases h : i < password.length
  · rw [if_pos h]
  · rw [if_neg h, List.getD_eq_default _ _ (by omega)]

/-! ### When both keys have the same bits -/

/-- The keys of both sides have the same bits. No surrogate begins within the first eight bytes of
the password, and the bytes that the client leaves out of its key, since it copies as many bytes as
there are units in front of the first zero among the first eight, have the value `0x80`. -/
def SameKey (pw : JString) : Prop :=
  (∀ i < pw.length, JString.isSurrogate (pw.getD i 0) →
      8 ≤ (JString.utfChars (pw.take i)).length) ∧
    ∀ k < 8, ((pw.take 8).takeWhile (· != 0)).length ≤ k →
      (JString.utfChars pw).getD k 0x80 = 0x80

instance (pw : JString) : Decidable (SameKey pw) := inferInstanceAs (Decidable (_ ∧ _))

/-- A string in front of its first surrogate, and from there on. -/
lemma exists_split (c : JString) : ∃ p q, c = p ++ q ∧ (∀ u ∈ p, ¬ JString.isSurrogate u) ∧
    (q = [] ∨ ∃ u r, q = u :: r ∧ JString.isSurrogate u) := by
  refine ⟨c.takeWhile (!JString.isSurrogate ·), c.dropWhile (!JString.isSurrogate ·),
    List.takeWhile_append_dropWhile.symm, fun u hu => by simpa using List.mem_takeWhile_imp hu, ?_⟩
  cases h : c.dropWhile (!JString.isSurrogate ·) with
  | nil => exact .inl rfl
  | cons u r =>
    have hhead := List.head_dropWhile_not (!JString.isSurrogate ·) (l := c) (by simp [h])
    simp only [h, List.head_cons] at hhead
    exact .inr ⟨u, r, rfl, by simpa using hhead⟩

/-- The bytes of a password that come before any surrogate are the same in both encodings. -/
lemma getD_getBytes {c : JString} (hzero : ∀ u ∈ c, u ≠ 0) {i : ℕ} (hi : i < c.length)
    (hsurr : ∀ j < c.length, JString.isSurrogate (c.getD j 0) →
      i < (JString.utfChars (c.take j)).length) :
    c.getBytes.getD i 0 = (JString.utfChars c).getD i 0 := by
  obtain ⟨p, q, rfl, hp, hq⟩ := exists_split c
  have hbefore : i < (JString.utfChars p).length := by
    rcases hq with rfl | ⟨u, r, rfl, hu⟩
    · rw [List.append_nil] at hi
      exact hi.trans_le (JString.length_le_utfChars p)
    · have hu' := hsurr p.length (by simp) (by simpa using hu)
      rwa [List.take_left] at hu'
  rw [JString.getBytes_append fun u hu => ⟨hp u hu, hzero u (List.mem_append_left _ hu)⟩,
    JString.utfChars_append, List.getD_append _ _ _ _ hbefore, List.getD_append _ _ _ _ hbefore]

/-- A surrogate begins with a byte that no character of the other encoding begins with. -/
lemma head_utfUnit {u : UInt16} (hu : JString.isSurrogate u) (s : JString) :
    (JString.utfChars (u :: s)).getD 0 0 = 0xed := by
  have hu' := JString.isSurrogate_iff.mp hu
  have hunit : JString.utfUnit u = [(0xe0 + u.toNat / 4096).toUInt8,
      (0x80 + u.toNat / 64 % 64).toUInt8, (0x80 + u.toNat % 64).toUInt8] := by
    unfold JString.utfUnit
    dsimp only
    rw [if_neg (by omega), if_neg (by omega)]
  have hlead : 0xe0 + u.toNat / 4096 = 0xed := by omega
  rw [JString.utfChars_cons, hunit, hlead]
  rfl

lemma head_getBytes {u : UInt16} (hu : JString.isSurrogate u) (s : JString) :
    (JString.getBytes (u :: s)).getD 0 0 = 0x3f ∨
      0x70 ≤ ((JString.getBytes (u :: s)).getD 0 0).toNat % 128 := by
  have hlone : ∀ t : List UInt8, ((if JString.isSurrogate u then [0x3f] else
      JString.utf8Char u.toNat) ++ t).getD 0 0 = 0x3f := by
    intro t
    rw [if_pos hu]
    rfl
  cases s with
  | nil =>
    left
    rw [JString.getBytes, if_pos hu]
    rfl
  | cons v s =>
    rw [JString.getBytes]
    by_cases hpair : JString.isHighSurrogate u ∧ JString.isLowSurrogate v
    · right
      obtain ⟨hhigh, hlow⟩ := hpair
      rw [if_pos ⟨hhigh, hlow⟩]
      rw [JString.isHighSurrogate_iff] at hhigh
      rw [JString.isLowSurrogate_iff] at hlow
      have hn : ∀ n, 0x10000 ≤ n → n < 0x110000 →
          0x70 ≤ ((JString.utf8Char n ++ JString.getBytes s).getD 0 0).toNat % 128 := by
        intro n hlo hhi
        unfold JString.utf8Char
        rw [if_neg (by omega), if_neg (by omega), if_neg (by omega), List.cons_append,
          List.getD_cons_zero, Nat.toUInt8_eq, UInt8.toNat_ofNat']
        omega
      exact hn _ (by omega) (by omega)
    · left
      rw [if_neg hpair]
      exact hlone _

lemma zero_not_mem_utfChars (s : JString) : 0 ∉ JString.utfChars s := by
  intro h
  obtain ⟨u, -, hu⟩ := List.mem_flatMap.mp h
  rcases JString.mem_utfUnit hu with ⟨h0, hunit⟩ | hhigh
  · obtain rfl : u = 0 := UInt16.toNat_inj.mp h0.symm
    exact absurd hunit (by decide)
  · exact absurd hhigh (by decide)

lemma getD_clientKey {pw : JString} {key : List UInt8} (h : clientKey pw = some key) (i : ℕ) :
    key.getD i 0 = if i < (truncate pw).length then (truncate pw).getBytes.getD i 0 else 0 := by
  rw [clientKey_eq] at h
  obtain rfl := Option.some.inj h
  have hlen : ((truncate pw).getBytes.take (truncate pw).length).length = (truncate pw).length := by
    rw [List.length_take]
    exact Nat.min_eq_left (JString.length_le_getBytes _)
  by_cases him : i < (truncate pw).length
  · rw [if_pos him, List.getD_append _ _ _ _ (by omega)]
    simp [List.getD, him]
  · rw [if_neg him, List.getD_append_right _ _ _ _ (by omega)]
    simp [List.getD]

/-- Where a surrogate begins within the first eight bytes, the keys differ in that byte. -/
lemma key_ne_of_surrogate {pw : JString} {key : List UInt8} (h : clientKey pw = some key)
    {i : ℕ} (hi : i < pw.length) (hsurr : JString.isSurrogate (pw.getD i 0))
    (hbytes : (JString.utfChars (pw.take i)).length < 8) :
    ∃ k < 8, (key.getD k 0).toNat % 128 ≠
      ((serverKey (JString.utfChars pw)).getD k 0).toNat % 128 := by
  obtain ⟨p, q, rfl, hp, hq⟩ := exists_split pw
  have hpi : p.length ≤ i := by
    by_contra hlt
    rw [List.getD_append _ _ _ _ (by omega), List.getD_eq_getElem _ _ (by omega)] at hsurr
    exact hp _ (List.getElem_mem _) hsurr
  obtain rfl | ⟨u, r, rfl, hu⟩ := hq
  · rw [List.append_nil] at hi
    omega
  have hk : (JString.utfChars p).length < 8 := by
    refine lt_of_le_of_lt (JString.length_utfChars_le ?_) hbytes
    rw [List.take_append, List.take_of_length_le hpi]
    exact List.sublist_append_left _ _
  refine ⟨_, hk, ?_⟩
  rw [getD_clientKey h, getD_serverKey hk, JString.utfChars_append,
    List.getD_append_right _ _ _ _ le_rfl, Nat.sub_self, head_utfUnit hu]
  by_cases hm : (JString.utfChars p).length < (truncate (p ++ u :: r)).length
  · have hlen := JString.length_le_utfChars p
    obtain ⟨r', hr'⟩ : ∃ r', truncate (p ++ u :: r) = p ++ u :: r' := by
      have htake := List.prefix_iff_eq_take.mp (truncate_starts (p ++ u :: r))
      obtain ⟨n, hn⟩ : ∃ n, (truncate (p ++ u :: r)).length = p.length + (n + 1) :=
        ⟨(truncate (p ++ u :: r)).length - p.length - 1, by omega⟩
      rw [hn, List.take_append, List.take_of_length_le (by omega), Nat.add_sub_cancel_left,
        List.take_succ_cons] at htake
      exact ⟨_, htake⟩
    have hzero : ∀ v ∈ p, v ≠ 0 := fun v hv =>
      ne_zero_of_mem_truncate (hr' ▸ List.mem_append_left _ hv)
    rw [if_pos hm, hr', JString.getBytes_append fun v hv => ⟨hp v hv, hzero v hv⟩,
      List.getD_append_right _ _ _ _ le_rfl, Nat.sub_self]
    rcases head_getBytes hu r' with hlone | hpair
    · rw [hlone]
      decide
    · exact fun h' => absurd (h' ▸ hpair) (by decide)
  · rw [if_neg hm]
    decide

/-- A byte of a password counts as no byte when it is missing or has the value `0x80`. -/
lemma getD_mod_eq_zero_iff (pw : JString) (k : ℕ) :
    ((JString.utfChars pw).getD k 0).toNat % 128 = 0 ↔
      (JString.utfChars pw).getD k 0x80 = 0x80 := by
  by_cases hk : k < (JString.utfChars pw).length
  · rw [List.getD_eq_getElem _ _ hk, List.getD_eq_getElem _ _ hk, ← UInt8.toNat_inj]
    have hlt := (JString.utfChars pw)[k].toNat_lt
    have hne : (JString.utfChars pw)[k].toNat ≠ 0 := by
      intro h0
      have hzero : (JString.utfChars pw)[k] = 0 := UInt8.toNat_inj.mp h0
      exact zero_not_mem_utfChars pw (hzero ▸ List.getElem_mem hk)
    change _ ↔ _ = 128
    omega
  · rw [List.getD_eq_default _ _ (by omega), List.getD_eq_default _ _ (by omega)]
    decide

lemma sameKey_iff {pw : JString} {key : List UInt8} (h : clientKey pw = some key) :
    SameKey pw ↔
      DesCipher.pc1m key = DesCipher.pc1m (serverKey (JString.utfChars pw)) := by
  rw [pc1m_eq_iff]
  by_cases hsurr : ∀ i < pw.length, JString.isSurrogate (pw.getD i 0) →
      8 ≤ (JString.utfChars (pw.take i)).length
  · have hcopied : ∀ k, k < (truncate pw).length →
        (truncate pw).getBytes.getD k 0 = (JString.utfChars pw).getD k 0 := by
      intro k hk
      have hprefix := truncate_starts pw
      have h8 := length_truncate_le pw
      rw [getD_getBytes (fun u hu => ne_zero_of_mem_truncate hu) hk]
      · obtain ⟨t, ht⟩ := hprefix
        have := JString.length_le_utfChars (truncate pw)
        conv_rhs => rw [← ht, JString.utfChars_append, List.getD_append _ _ _ _ (by omega)]
      · intro j hj hu
        obtain ⟨t, ht⟩ := hprefix
        have hget : pw.getD j 0 = (truncate pw).getD j 0 := by
          conv_lhs => rw [← ht, List.getD_append _ _ _ _ hj]
        have htake : pw.take j = (truncate pw).take j := by
          conv_lhs => rw [← ht, List.take_append_of_le_length hj.le]
        have hlt : j < pw.length := hj.trans_le (truncate_starts pw).length_le
        have := hsurr j hlt (hget ▸ hu)
        rw [htake] at this
        omega
    have hsecond : SameKey pw ↔ ∀ k < 8, (truncate pw).length ≤ k →
        (JString.utfChars pw).getD k 0x80 = 0x80 := by
      rw [SameKey, ← truncate_eq]
      exact and_iff_right hsurr
    rw [hsecond]
    refine forall₂_congr fun k hk => ?_
    rw [getD_clientKey h, getD_serverKey hk]
    by_cases hm : k < (truncate pw).length
    · rw [if_pos hm, hcopied k hm]
      exact iff_of_true (fun h' => absurd hm (by omega)) rfl
    · rw [if_neg hm, ← getD_mod_eq_zero_iff, forall_prop_of_true (by omega)]
      exact eq_comm
  · refine iff_of_false (fun h' => hsurr h'.1) fun hsame => hsurr fun i hi hu => ?_
    by_contra hbytes
    obtain ⟨k, hk, hne⟩ := key_ne_of_surrogate h hi hu (by omega)
    exact hne (hsame k hk)

/-- DES sees nothing of a key but `pc1m`. -/
lemma deskey_congr {key key' : List UInt8} (h : DesCipher.pc1m key = DesCipher.pc1m key') :
    DesCipher.deskey key true = DesCipher.deskey key' true := by
  rw [DesCipher.deskey, DesCipher.deskey, h]

/-- The right password is answered as the server expects it. -/
theorem authenticateVNC_eq_response (pw : JString) :
    (∃ key, clientKey pw = some key ∧ (SameKey pw ↔
      DesCipher.pc1m key = DesCipher.pc1m (serverKey (JString.utfChars pw)))) ∧
    (SameKey pw → ∀ w, w = 32 ∨ w = 64 → ∀ challenge : List UInt8, challenge.length = 16 →
      authenticateVNC pw challenge = some (response w (JString.utfChars pw) challenge)) := by
  obtain ⟨key, hkey⟩ : ∃ key, clientKey pw = some key := ⟨_, clientKey_eq pw⟩
  refine ⟨⟨key, hkey, sameKey_iff hkey⟩, fun hsame w hw challenge _ => ?_⟩
  have hwidth : 32 ≤ w := by omega
  have hschedule := deskey_congr ((sameKey_iff hkey).mp hsame)
  rw [authenticateVNC, hkey, response, DesCipher.encrypt_eq_des hwidth,
    DesCipher.encrypt_eq_des hwidth, ← hschedule]
  rfl

/-- A password in ASCII. -/
theorem authenticateVNC_eq_response_secret :
    authenticateVNC (jstr "secret") (List.replicate 16 7) =
      some (response 64 (JString.utfChars (jstr "secret")) (List.replicate 16 7)) :=
  (authenticateVNC_eq_response (jstr "secret")).2 (by decide) 64 (.inr rfl) _ rfl

/-- `é` is one unit of two bytes: the client leaves out the second. -/
theorem not_eq_response_eacute :
    ¬ ∀ (pw : JString) (w : ℕ), w = 32 ∨ w = 64 → ∀ challenge : List UInt8, challenge.length = 16 →
      authenticateVNC pw challenge = some (response w (JString.utfChars pw) challenge) := by
  intro h
  refine absurd (h [0xe9] 64 (.inr rfl) (List.replicate 16 0) rfl) ?_
  decide +kernel

end Limbo.Vnc.Password
