import Limbo.Slirp.SocketBuffer

/-!
# A socket buffer is a queue

The contents of a valid buffer are the bytes of its ring from `sb_rptr` on. Each function gives the
first bytes of the contents or adds bytes at their end, except for `sosendoob()`: it updates the
buffer with the result of `slirp_send()` even when that is an error, and it sends what follows the
contents in the memory when there are more urgent bytes than have arrived.
-/

namespace Limbo.Slirp

open Lib

lemma uInt_of_range {z : ℤ} (hlow : 0 ≤ z) (hhigh : z < 4294967296) : uInt z = z.toNat := by
  rw [uInt, Int.emod_eq_of_lt hlow hhigh]

lemma sizeT_of_range {z : ℤ} (hlow : 0 ≤ z) (hhigh : z < 4294967296) : sizeT z = z.toNat := by
  rw [sizeT, Int.emod_eq_of_lt hlow (by omega)]

namespace Sbuf

/-- The pointers are in the allocation, and there are `sb_cc` bytes from the one to the other. -/
structure Valid (sb : Sbuf) : Prop where
  rptr : 0 ≤ sb.sbRptr ∧ sb.sbRptr < sb.sbDatalen
  wptr : 0 ≤ sb.sbWptr ∧ sb.sbWptr < sb.sbDatalen
  cc : sb.sbCc ≤ sb.sbDatalen
  wptr_eq : sb.sbWptr = (sb.sbRptr + sb.sbCc) % sb.sbDatalen
  datalen : sb.sbDatalen < 2147483648

def contents (sb : Sbuf) : List UInt8 := ring sb.sbData sb.sbDatalen sb.sbRptr.toNat sb.sbCc

@[simp] lemma length_contents (sb : Sbuf) : sb.contents.length = sb.sbCc := length_ring

/-- The buffer `sb'` is left when `bytes` are taken from the front of `sb`. -/
structure Gives (sb : Sbuf) (bytes : List UInt8) (sb' : Sbuf) : Prop where
  valid : sb'.Valid
  datalen : sb'.sbDatalen = sb.sbDatalen
  contents : sb.contents = bytes ++ sb'.contents

/-- The buffer `sb'` is what `sb` becomes when `bytes` are put behind its contents. -/
structure Gets (sb : Sbuf) (bytes : List UInt8) (sb' : Sbuf) : Prop where
  valid : sb'.Valid
  datalen : sb'.sbDatalen = sb.sbDatalen
  rptr : sb'.sbRptr = sb.sbRptr
  contents : sb'.contents = sb.contents ++ bytes

variable {sb sb' sb'' : Sbuf} {bytes bytes' : List UInt8}

lemma Gives.trans (h : sb.Gives bytes sb') (h' : sb'.Gives bytes' sb'') :
    sb.Gives (bytes ++ bytes') sb'' where
  valid := h'.valid
  datalen := h'.datalen.trans h.datalen
  contents := by rw [h.contents, h'.contents, List.append_assoc]

lemma Gives.cc (h : sb.Gives bytes sb') : sb.sbCc = bytes.length + sb'.sbCc := by
  simpa using congrArg List.length h.contents

lemma Gets.cc (h : sb.Gets bytes sb') : sb'.sbCc = sb.sbCc + bytes.length := by
  simpa using congrArg List.length h.contents

@[simp] lemma taken_sbDatalen (sb : Sbuf) (n : ℤ) : (sb.taken n).sbDatalen = sb.sbDatalen := rfl

@[simp] lemma taken_sbWptr (sb : Sbuf) (n : ℤ) : (sb.taken n).sbWptr = sb.sbWptr := rfl

@[simp] lemma taken_sbData (sb : Sbuf) (n : ℤ) : (sb.taken n).sbData = sb.sbData := rfl

lemma taken_sbCc (sb : Sbuf) {n : ℤ} (h : sb.sbCc - n < 4294967296) (hn : n ≤ sb.sbCc) :
    (sb.taken n).sbCc = sb.sbCc - n := by
  rw [taken, uInt_of_range (by omega) h, Int.toNat_of_nonneg (by omega)]

lemma taken_sbRptr (sb : Sbuf) (n : ℤ) :
    sb.sbRptr + n < sb.sbDatalen ∧ (sb.taken n).sbRptr = sb.sbRptr + n ∨
      sb.sbDatalen ≤ sb.sbRptr + n ∧ (sb.taken n).sbRptr = sb.sbRptr + n - sb.sbDatalen := by
  by_cases h : sb.sbRptr + n < sb.sbDatalen
  · exact .inl ⟨h, if_neg (by omega)⟩
  · exact .inr ⟨by omega, if_pos (by omega)⟩

@[simp] lemma written_sbDatalen (sb : Sbuf) (n : ℤ) : (sb.written n).sbDatalen = sb.sbDatalen := rfl

@[simp] lemma written_sbRptr (sb : Sbuf) (n : ℤ) : (sb.written n).sbRptr = sb.sbRptr := rfl

@[simp] lemma written_sbData (sb : Sbuf) (n : ℤ) : (sb.written n).sbData = sb.sbData := rfl

lemma written_sbCc {n : ℤ} (h : sb.sbCc + n < 4294967296) (hn : 0 ≤ n) :
    (sb.written n).sbCc = sb.sbCc + n := by
  rw [written, uInt_of_range (by omega) h, Int.toNat_of_nonneg (by omega)]

lemma written_sbWptr (sb : Sbuf) (n : ℤ) :
    sb.sbWptr + n < sb.sbDatalen ∧ (sb.written n).sbWptr = sb.sbWptr + n ∨
      sb.sbDatalen ≤ sb.sbWptr + n ∧ (sb.written n).sbWptr = sb.sbWptr + n - sb.sbDatalen := by
  by_cases h : sb.sbWptr + n < sb.sbDatalen
  · exact .inl ⟨h, if_neg (by omega)⟩
  · exact .inr ⟨by omega, if_pos (by omega)⟩

namespace Valid

lemma gives_nil (hv : sb.Valid) : sb.Gives [] sb := ⟨hv, rfl, rfl⟩

/-- The contents end before the end of the allocation, or they go over it. -/
lemma wptr_cases (hv : sb.Valid) :
    sb.sbRptr + sb.sbCc < sb.sbDatalen ∧ sb.sbWptr = sb.sbRptr + sb.sbCc ∨
      sb.sbDatalen ≤ sb.sbRptr + sb.sbCc ∧
        sb.sbWptr = sb.sbRptr + sb.sbCc - sb.sbDatalen := by
  obtain ⟨⟨hr0, hr⟩, -, hcc, heq, -⟩ := hv
  by_cases hlt : sb.sbRptr + sb.sbCc < sb.sbDatalen
  · exact .inl ⟨hlt, by rw [heq, Int.emod_eq_of_lt (by omega) hlt]⟩
  · refine .inr ⟨by omega, ?_⟩
    rw [heq, Int.emod_eq_sub_self_emod, Int.emod_eq_of_lt (by omega) (by omega)]

lemma of_wptr_cases (hr : 0 ≤ sb.sbRptr ∧ sb.sbRptr < sb.sbDatalen) (hcc : sb.sbCc ≤ sb.sbDatalen)
    (hdatalen : sb.sbDatalen < 2147483648)
    (hw : sb.sbRptr + sb.sbCc < sb.sbDatalen ∧ sb.sbWptr = sb.sbRptr + sb.sbCc ∨
      sb.sbDatalen ≤ sb.sbRptr + sb.sbCc ∧
        sb.sbWptr = sb.sbRptr + sb.sbCc - sb.sbDatalen) : sb.Valid where
  rptr := hr
  wptr := by omega
  cc := hcc
  datalen := hdatalen
  wptr_eq := by
    obtain ⟨hlt, hw⟩ | ⟨hle, hw⟩ := hw
    · rw [hw, Int.emod_eq_of_lt (by omega) hlt]
    · rw [hw, ← Int.emod_eq_of_lt (a := sb.sbRptr + sb.sbCc - sb.sbDatalen) (b := sb.sbDatalen)
        (by omega) (by omega), ← Int.emod_eq_sub_self_emod]

/-- What `k` bytes after `sb_rptr` is loaded. -/
lemma load (hv : sb.Valid) {p k n : ℤ} (hp : p = sb.sbRptr + k ∨ p = sb.sbRptr + k - sb.sbDatalen)
    (hp0 : 0 ≤ p) (hk : 0 ≤ k) (hn : 0 ≤ n) (hend : p + n ≤ sb.sbDatalen) (hcc : k + n ≤ sb.sbCc) :
    sb.load p n = some ((sb.contents.drop k.toNat).take n.toNat) := by
  obtain ⟨⟨hr0, hr⟩, -⟩ := hv
  have hmod : (sb.sbRptr.toNat + k.toNat) % sb.sbDatalen = p.toNat % sb.sbDatalen := by
    obtain rfl | rfl := hp
    · rw [Int.toNat_add hr0 hk]
    · have hsub : sb.sbRptr.toNat + k.toNat =
          (sb.sbRptr + k - sb.sbDatalen).toNat + sb.sbDatalen := by omega
      rw [hsub, Nat.add_mod_right]
  rw [Sbuf.load, if_pos ⟨hp0, hn, hend⟩, contents, ring_drop (by omega), ring_take (by omega),
    ← ring_mod, hmod, ring_mod, ring_eq_cells (by omega)]

/-- The bytes at the front are taken. -/
lemma taken (hv : sb.Valid) {n : ℤ} (hn : 0 ≤ n) (hcc : n ≤ sb.sbCc) :
    sb.Gives (sb.contents.take n.toNat) (sb.taken n) := by
  have hw := hv.wptr_cases
  obtain ⟨⟨hr0, hr⟩, hwptr, hle, -, hdatalen⟩ := hv
  have hcc' : (sb.taken n).sbCc = sb.sbCc - n := taken_sbCc sb (by omega) hcc
  have hrptr := sb.taken_sbRptr n
  refine ⟨of_wptr_cases ?_ ?_ hdatalen ?_, rfl, ?_⟩
  · rw [taken_sbDatalen]
    omega
  · rw [taken_sbDatalen]
    omega
  · rw [taken_sbDatalen, taken_sbWptr, hcc']
    omega
  · have hstart : (sb.taken n).sbRptr.toNat % sb.sbDatalen =
        (sb.sbRptr.toNat + n.toNat) % sb.sbDatalen := by
      obtain ⟨-, h⟩ | ⟨hend, h⟩ := hrptr
      · rw [h, Int.toNat_add hr0 hn]
      · have hadd : sb.sbRptr.toNat + n.toNat =
            (sb.sbRptr + n - sb.sbDatalen).toNat + sb.sbDatalen := by omega
        rw [h, hadd, Nat.add_mod_right]
    have hdrop : (sb.taken n).contents = sb.contents.drop n.toNat := by
      rw [contents, taken_sbData, taken_sbDatalen, ← ring_mod, hstart, ring_mod, contents,
        ring_drop (by omega)]
      congr
      omega
    rw [hdrop, List.take_append_drop]

/-- What is stored `k` bytes after `sb_rptr` follows the `k` bytes of the ring. -/
lemma store (sb : Sbuf) (src : List UInt8) (hr : 0 ≤ sb.sbRptr ∧ sb.sbRptr < sb.sbDatalen)
    {p k n : ℤ}
    (hp : p = sb.sbRptr + k ∨ p = sb.sbRptr + k - sb.sbDatalen) (hp0 : 0 ≤ p ∧ p < sb.sbDatalen)
    (hk : 0 ≤ k) (hn : 0 ≤ n) (hend : p + n ≤ sb.sbDatalen) (hroom : k + n ≤ sb.sbDatalen)
    (hsrc : n ≤ src.length) :
    ∃ sbData, sb.store p src n = some { sb with sbData } ∧
      ring sbData sb.sbDatalen sb.sbRptr.toNat (k + n).toNat =
        ring sb.sbData sb.sbDatalen sb.sbRptr.toNat k.toNat ++ src.take n.toNat := by
  have hpos : p.toNat = (sb.sbRptr.toNat + k.toNat) % sb.sbDatalen := by
    obtain rfl | rfl := hp
    · rw [← Int.toNat_add hr.1 hk, Nat.mod_eq_of_lt (by omega)]
    · have hadd : sb.sbRptr.toNat + k.toNat =
          (sb.sbRptr + k - sb.sbDatalen).toNat + sb.sbDatalen := by omega
      rw [hadd, Nat.add_mod_right, Nat.mod_eq_of_lt (by omega)]
  refine ⟨_, if_pos ⟨hp0.1, hn, hsrc, hend⟩, ?_⟩
  rw [Int.toNat_add hk hn, ring_copy hpos (by omega) (by omega), cells_getD (by omega)]

/-- The fields are updated when `bytes` are in the ring behind the contents. -/
lemma written (hv : sb.Valid) {sbData : Memory} {n : ℤ} (hn : n = bytes.length)
    (hroom : sb.sbCc + n ≤ sb.sbDatalen)
    (hring : ring sbData sb.sbDatalen sb.sbRptr.toNat (sb.sbCc + n).toNat = sb.contents ++ bytes) :
    sb.Gets bytes (Sbuf.written { sb with sbData } n) := by
  have hw := hv.wptr_cases
  obtain ⟨hrptr, hwptr, hle, -, hdatalen⟩ := hv
  have hcc' : (Sbuf.written { sb with sbData } n).sbCc = sb.sbCc + n :=
    written_sbCc (by dsimp only; omega) (by omega)
  have hwptr' := Sbuf.written_sbWptr { sb with sbData } n
  dsimp only at hwptr'
  refine ⟨of_wptr_cases hrptr ?_ hdatalen ?_, rfl, rfl, ?_⟩
  · simp only [written_sbDatalen]
    omega
  · simp only [written_sbDatalen, written_sbRptr, hcc']
    omega
  · rw [contents, written_sbData, written_sbDatalen, written_sbRptr, ← hring]
    congr 1
    omega

end Valid

lemma load_eq_cells (sb : Sbuf) {p n : ℤ} (hp : 0 ≤ p) (hn : 0 ≤ n) (hend : p + n ≤ sb.sbDatalen) :
    sb.load p n = some (cells sb.sbData p.toNat n.toNat) := if_pos ⟨hp, hn, hend⟩

end Sbuf

open Sbuf

/-! ### The functions of a buffer -/

section Buffer

variable {sb : Sbuf}

/-- Some bytes at the front are dropped. -/
lemma sbdrop_gives (hv : sb.Valid) {num : ℤ} (hlow : -2147483648 ≤ num) (hhigh : num < 2147483648) :
    sb.Gives (sb.contents.take (sb.sbCc - (sbdrop sb num).1.sbCc)) (sbdrop sb num).1 := by
  have hcc := hv.cc
  have hdatalen := hv.datalen
  obtain ⟨n, hn, hle, hdrop⟩ : ∃ n : ℤ, 0 ≤ n ∧ n ≤ sb.sbCc ∧ (sbdrop sb num).1 = sb.taken n := by
    by_cases hlarge : uInt num > sb.sbCc
    · refine ⟨sb.sbCc, by omega, le_rfl, ?_⟩
      rw [sbdrop, if_pos hlarge, wrap32_of_range (by omega) (by omega)]
    · have hnum : 0 ≤ num ∧ num ≤ sb.sbCc := by
        rw [uInt] at hlarge
        omega
      refine ⟨num, hnum.1, hnum.2, ?_⟩
      rw [sbdrop, if_neg hlarge]
  have hcount : sb.sbCc - (sb.taken n).sbCc = n.toNat := by
    have hleft := taken_sbCc sb (n := n) (by omega) hle
    omega
  rw [hdrop, hcount]
  exact hv.taken hn hle

/-- The bytes `off` after the front are copied. -/
lemma sbcopy_eq (hv : sb.Valid) {off len : ℤ} (hoff : 0 ≤ off) (hlen : 0 ≤ len)
    (hcc : off + len ≤ sb.sbCc) :
    sbcopy sb off len = some ((sb.contents.drop off.toNat).take len.toNat) := by
  have hw := hv.wptr_cases
  obtain ⟨hrptr, -, hle, -, hdatalen⟩ := id hv
  obtain ⟨start, hstart, hstart'⟩ : ∃ start : ℤ,
      (if sb.sbRptr + off ≥ sb.sbDatalen then sb.sbRptr + off - sb.sbDatalen else sb.sbRptr + off) =
        start ∧ (sb.sbRptr + off < sb.sbDatalen ∧ start = sb.sbRptr + off ∨
          sb.sbDatalen ≤ sb.sbRptr + off ∧ start = sb.sbRptr + off - sb.sbDatalen) := by
    refine ⟨_, rfl, ?_⟩
    split_ifs with h
    · exact .inr ⟨h, rfl⟩
    · exact .inl ⟨by omega, rfl⟩
  have hclamp : ¬ uInt len > sb.sbCc := by
    rw [uInt_of_range hlen (by omega)]
    omega
  simp only [sbcopy, hstart, if_neg hclamp]
  by_cases hlt : start < sb.sbWptr
  · rw [if_pos hlt]
    exact hv.load (by omega) (by omega) hoff hlen (by omega) hcc
  · rw [if_neg hlt, hv.load (k := off) (by omega) (by omega) hoff (by omega) (by omega) (by omega),
      Option.bind_eq_bind, Option.bind_some]
    by_cases hrest : len - min (sb.sbDatalen - start) len = 0
    · rw [if_neg (not_not.mpr hrest), show min ((sb.sbDatalen : ℤ) - start) len = len by omega]
      rfl
    · have hedge : min ((sb.sbDatalen : ℤ) - start) len = sb.sbDatalen - start := by omega
      have hsum : len.toNat = (sb.sbDatalen - start).toNat + (len - (sb.sbDatalen - start)).toNat := by
        omega
      rw [if_pos hrest, hedge, hv.load (k := off + (sb.sbDatalen - start)) (by omega) le_rfl (by omega)
        (by omega) (by omega) (by omega), Option.bind_some, hsum, List.take_add, List.drop_drop,
        Int.toNat_add hoff (by omega)]
      rfl

/-- The bytes of an mbuf for which there is room are put behind the contents. -/
lemma sbappendsb_eq (hv : sb.Valid) {m : List UInt8} (hroom : sb.sbCc + m.length ≤ sb.sbDatalen) :
    ∃ sb', sbappendsb sb m = some sb' ∧ sb.Gets m sb' := by
  have hw := hv.wptr_cases
  obtain ⟨hrptr, hwptr, hle, -, hdatalen⟩ := id hv
  by_cases hbehind : sb.sbWptr < sb.sbRptr
  · have hn : min (sb.sbRptr - sb.sbWptr) (m.length : ℤ) = m.length := by omega
    obtain ⟨sbData, hstore, hring⟩ := Valid.store sb m hrptr (p := sb.sbWptr) (k := sb.sbCc)
      (n := m.length) (by omega) hwptr (by omega) (by omega) (by omega) (by omega) le_rfl
    refine ⟨_, by simp only [sbappendsb, if_pos hbehind, hn, hstore]; rfl, hv.written rfl (by omega) ?_⟩
    rw [hring, Int.toNat_natCast, Int.toNat_natCast, List.take_length]
    rfl
  · set n := min ((sb.sbDatalen : ℤ) - sb.sbWptr) (m.length : ℤ) with hn
    obtain ⟨sbData, hstore, hring⟩ := Valid.store sb m hrptr (p := sb.sbWptr) (k := sb.sbCc)
      (n := n) (by omega) hwptr (by omega) (by omega) (by omega) (by omega) (by omega)
    rw [Int.toNat_natCast] at hring
    by_cases hrest : (m.length : ℤ) - n = 0
    · refine ⟨_, by simp only [sbappendsb, if_neg hbehind, ← hn, hstore, Option.bind_eq_bind,
        Option.bind_some, if_neg (not_not.mpr hrest)]; rfl, hv.written (by omega) (by omega) ?_⟩
      rw [hring, List.take_of_length_le (by omega)]
      rfl
    · have hnn : min sb.sbRptr ((m.length : ℤ) - n) = m.length - n := by omega
      obtain ⟨sbData', hstore', hring'⟩ := Valid.store { sb with sbData } (m.drop n.toNat) hrptr (p := 0)
        (k := sb.sbCc + n) (n := m.length - n) (by dsimp only; omega)
        (by dsimp only; omega) (by omega) (by omega) (by dsimp only; omega) (by dsimp only; omega)
        (by rw [List.length_drop]; omega)
      have hlen : n + ((m.length : ℤ) - n) = m.length := by omega
      refine ⟨_, by simp only [sbappendsb, if_neg hbehind, ← hn, hstore, Option.bind_eq_bind,
        Option.bind_some, if_pos hrest, hnn, hstore', hlen]; rfl,
        hv.written rfl (by omega) ?_⟩
      rw [add_assoc, hlen] at hring'
      rw [hring', hring, List.take_of_length_le (l := m.drop n.toNat) (by rw [List.length_drop]; omega),
        List.append_assoc, List.take_append_drop]
      rfl

end Buffer

/-! ### The functions of a socket -/

/-- The socket of the host takes the bytes at the front of `so_rcv`, and nothing else changes. -/
structure Socket.Sends (so : Socket) (bytes : List UInt8) (so' : Socket) : Prop where
  gives : so.soRcv.Gives bytes so'.soRcv
  soSnd : so'.soSnd = so.soSnd

/-- An answer to the urgent send for which `sosendoob()` takes bytes of the buffer. It is not an
error. Unless the `cc` bytes of the buffer go over the end of the allocation, the bytes that are taken
are not more than them, and those that are offered end before the allocation does. -/
def UrgentOk (sb : Sbuf) (cc : ℕ) (soUrgc : ℤ) : SendAnswer → Prop
  | .took n => 0 ≤ soUrgc ∧ (sb.sbRptr + cc < sb.sbDatalen →
      min (n : ℤ) (min soUrgc 2048) ≤ cc ∧ (0 < cc → sb.sbRptr + min soUrgc 2048 ≤ sb.sbDatalen))
  | .again => False
  | .error => False

instance (sb : Sbuf) (cc : ℕ) (soUrgc : ℤ) : ∀ host : SendAnswer, Decidable (UrgentOk sb cc soUrgc host)
  | .took _ => inferInstanceAs (Decidable (_ ∧ (_ → _ ∧ (_ → _))))
  | .again => .isFalse id
  | .error => .isFalse id

section Send

variable {sb : Sbuf} {so : Socket}

/-- The bytes of the ring from `sb_rptr` on are offered, and no more are taken than there are. -/
lemma gives_slirpSend (hv : sb.Valid) {n k : ℕ} (hcc : min n k ≤ sb.sbCc) {buf : List UInt8}
    (hbuf : buf = ring sb.sbData sb.sbDatalen sb.sbRptr.toNat k) :
    sb.Gives (slirpSend buf (.took n)).2 (sb.taken (slirpSend buf (.took n)).1) := by
  have htake : buf.take n = sb.contents.take (min n k) := by
    rw [hbuf, List.take_eq_take_min, length_ring, ring_take (min_le_right n k), contents,
      ring_take hcc]
  have hgives := hv.taken (n := (min n k : ℕ)) (by omega) (by omega)
  have hcount : (buf.take n).length = min n k := by
    rw [htake, List.length_take, length_contents, min_eq_left hcc]
  rwa [Int.toNat_natCast, ← htake, ← hcount] at hgives

lemma sosendoob_sends (so : Socket) (hv : so.soRcv.Valid) {host : SendAnswer}
    (hok : UrgentOk so.soRcv so.soRcv.sbCc so.soUrgc host) :
    ∃ n sent so', sosendoob so host = some (n, sent, so') ∧ so.Sends sent so' := by
  have hw := hv.wptr_cases
  obtain ⟨hrptr, hwptr, hle, -, hdatalen⟩ := id hv
  cases host with
  | again => exact hok.elim
  | error => exact hok.elim
  | took n =>
    obtain ⟨hurgc, hfits⟩ := hok
    set urgc := min so.soUrgc 2048 with hurgc'
    -- the bytes that are offered
    suffices ∃ buf soUrgc k, sosendoob so (.took n) = some ((slirpSend buf (.took n)).1,
        (slirpSend buf (.took n)).2,
        { so with soRcv := so.soRcv.taken (slirpSend buf (.took n)).1, soUrgc }) ∧
        min n k ≤ so.soRcv.sbCc ∧
        buf = ring so.soRcv.sbData so.soRcv.sbDatalen so.soRcv.sbRptr.toNat k by
      obtain ⟨buf, soUrgc, k, heq, hcc, hbuf⟩ := this
      exact ⟨_, _, _, heq, gives_slirpSend hv hcc hbuf, rfl⟩
    by_cases hdirect : so.soRcv.sbRptr < so.soRcv.sbWptr
    · obtain ⟨hsent, hoffer⟩ := hfits (by omega)
      have hload := load_eq_cells so.soRcv hrptr.1 (n := urgc) (by omega) (hoffer (by omega))
      exact ⟨_, _, urgc.toNat, by simp only [sosendoob, ← hurgc', if_pos hdirect, hload]; rfl,
        by omega, (ring_eq_cells (by omega)).symm⟩
    · set len := min ((so.soRcv.sbDatalen : ℤ) - so.soRcv.sbRptr) urgc with hlen
      have hload := load_eq_cells so.soRcv hrptr.1 (n := len) (by omega) (by omega)
      by_cases hrest : urgc - len = 0
      · exact ⟨_, _, len.toNat, by simp only [sosendoob, ← hurgc', if_neg hdirect, ← hlen, hload,
          Option.bind_eq_bind, Option.bind_some, if_neg (not_not.mpr hrest)]; rfl, by omega,
          (ring_eq_cells (by omega)).symm⟩
      · have hload' := load_eq_cells so.soRcv (p := 0)
          (n := min so.soRcv.sbWptr (urgc - len)) le_rfl (by omega) (by omega)
        refine ⟨_, _, (len + min so.soRcv.sbWptr (urgc - len)).toNat,
          by simp only [sosendoob, ← hurgc', if_neg hdirect, ← hlen, hload, Option.bind_eq_bind,
            Option.bind_some, if_pos hrest, hload']; rfl, by omega, ?_⟩
        rw [ring_eq_append (by omega) (by omega) (by omega)]
        congr 2 <;> omega

/-- The elements of `sowrite()` are bytes at the front. -/
lemma sowriteIov_eq (hv : sb.Valid) {len : ℤ} (hlen : sb.sbCc ≤ len) (hhigh : len < 2147483648)
    (hempty : sb.sbCc = 0 → len = 0) :
    (sowriteIov sb len).len0 ≤ sb.sbCc ∧
      sb.sbRptr + (sowriteIov sb len).len0 ≤ sb.sbDatalen ∧
      ((sowriteIov sb len).n = 2 → sb.sbRptr + (sowriteIov sb len).len0 = sb.sbDatalen ∧
        (sowriteIov sb len).len0 + (sowriteIov sb len).len1 ≤ sb.sbCc) := by
  have hw := hv.wptr_cases
  obtain ⟨hrptr, hwptr, hle, -, hdatalen⟩ := id hv
  have hsize := sizeT_of_range (z := len) (by omega) (by omega)
  by_cases hdirect : sb.sbRptr < sb.sbWptr
  · have hdiff := sizeT_of_range (z := sb.sbWptr - sb.sbRptr) (by omega) (by omega)
    simp only [sowriteIov, if_pos hdirect, hsize, hdiff]
    omega
  · have hedge := sizeT_of_range (z := sb.sbDatalen - sb.sbRptr) (by omega) (by omega)
    have hleft := sizeT_of_range (z := sb.sbWptr) (by omega) (by omega)
    simp only [sowriteIov, if_neg hdirect, hsize, hedge, hleft]
    set len0 := min (sb.sbDatalen - sb.sbRptr).toNat len.toNat with hlen0
    have hwrap : wrap32 (len - len0) = len - len0 := wrap32_of_range (by omega) (by omega)
    have hrest := sizeT_of_range (z := len - len0) (by omega) (by omega)
    rw [hwrap, hrest]
    split_ifs with h
    · dsimp only
      omega
    · dsimp only
      omega

/-- The bytes that `slirp_send()` takes are a prefix of what is offered, none where it fails. -/
lemma slirpSend_cases (buf : List UInt8) (host : SendAnswer) :
    ∃ k : ℕ, k ≤ buf.length ∧ (slirpSend buf host).2 = buf.take k ∧
      ((slirpSend buf host).1 = k ∨ (slirpSend buf host).1 < 0 ∧ k = 0) := by
  cases host with
  | took n =>
    refine ⟨min n buf.length, min_le_right _ _, List.take_eq_take_min, .inl ?_⟩
    simp [slirpSend]
  | again => exact ⟨0, Nat.zero_le _, rfl, .inr ⟨neg_one_lt_zero, rfl⟩⟩
  | error => exact ⟨0, Nat.zero_le _, rfl, .inr ⟨neg_one_lt_zero, rfl⟩⟩

lemma sowriteRest_sends (hv : so.soRcv.Valid) (len : ℤ) (hlen : so.soRcv.sbCc ≤ len)
    (hhigh : len < 2147483648) (hempty : so.soRcv.sbCc = 0 → len = 0) (first second : SendAnswer) :
    ∃ nn sent so', sowriteRest so len first second = some (nn, sent, so') ∧ so.Sends sent so' := by
  have hrptr := hv.rptr
  have hdatalen := hv.datalen
  have hcc := hv.cc
  have hnone : so.Sends [] so := ⟨hv.gives_nil, rfl⟩
  obtain ⟨hle, hend, hsecond⟩ := sowriteIov_eq hv hlen hhigh hempty
  set iov := sowriteIov so.soRcv len with hiov
  have hload := hv.load (p := so.soRcv.sbRptr) (k := 0) (n := iov.len0) (by omega) hrptr.1 le_rfl
    (by omega) hend (by omega)
  simp only [Int.toNat_zero, List.drop_zero, Int.toNat_natCast] at hload
  obtain ⟨k, hk, hsent, hret⟩ := slirpSend_cases (so.soRcv.contents.take iov.len0) first
  rw [List.length_take, length_contents] at hk
  rw [List.take_take, min_eq_left (by omega)] at hsent
  have htaken := hv.taken (n := k) (by omega) (by omega)
  rw [Int.toNat_natCast] at htaken
  simp only [sowriteRest, ← hiov, hload, Option.bind_eq_bind, Option.bind_some]
  split_ifs with hagain hclosed htwice
  · exact ⟨_, _, _, rfl, hnone⟩
  · exact ⟨_, _, _, rfl, hnone⟩
  · obtain ⟨hfull, hroom⟩ := hsecond htwice.1
    have hload' := hv.load (p := 0) (k := iov.len0) (n := iov.len1) (by omega) le_rfl (by omega)
      (by omega) (by omega) (by omega)
    rw [Int.toNat_natCast, Int.toNat_natCast] at hload'
    obtain ⟨k', hk', hsent', hret'⟩ :=
      slirpSend_cases ((so.soRcv.contents.drop iov.len0).take iov.len1) second
    rw [List.length_take] at hk'
    rw [List.take_take, min_eq_left (by omega)] at hsent'
    rw [hload', Option.bind_some]
    have hk0 : k = iov.len0 := by omega
    have hsum : (if (slirpSend ((so.soRcv.contents.drop iov.len0).take iov.len1) second).1 > 0 then
        (slirpSend (so.soRcv.contents.take iov.len0) first).1 +
          (slirpSend ((so.soRcv.contents.drop iov.len0).take iov.len1) second).1
        else (slirpSend (so.soRcv.contents.take iov.len0) first).1) = (iov.len0 + k' : ℕ) := by
      split_ifs <;> omega
    refine ⟨_, _, _, rfl, ?_, rfl⟩
    have htaken' := hv.taken (n := (iov.len0 + k' : ℕ)) (by omega) (by omega)
    rw [Int.toNat_natCast, List.take_add] at htaken'
    rwa [hsum, hsent, hsent', hk0]
  · refine ⟨_, _, _, rfl, ?_, rfl⟩
    rw [hsent]
    obtain hret | ⟨hret, rfl⟩ := hret
    · rw [hret]
      exact htaken
    · omega

lemma Socket.Sends.trans {so' so'' : Socket} {bytes bytes' : List UInt8} (h : so.Sends bytes so')
    (h' : so'.Sends bytes' so'') : so.Sends (bytes ++ bytes') so'' :=
  ⟨h.gives.trans h'.gives, h'.soSnd.trans h.soSnd⟩

lemma sowrite_sends (hv : so.soRcv.Valid) {urgent : SendAnswer} (first second : SendAnswer)
    (hok : so.soUrgc ≠ 0 → UrgentOk so.soRcv so.soRcv.sbCc so.soUrgc urgent) :
    ∃ nn sent so', sowrite so urgent first second = some (nn, sent, so') ∧ so.Sends sent so' := by
  have hcc := hv.cc
  have hdatalen := hv.datalen
  have hlen : wrap32 so.soRcv.sbCc = so.soRcv.sbCc := wrap32_of_range (by omega) (by omega)
  by_cases hurgc : so.soUrgc = 0
  · rw [sowrite, if_neg (not_not.mpr hurgc), hlen]
    exact sowriteRest_sends hv _ le_rfl (by omega) (by omega) first second
  · obtain ⟨n, sent, so', heq, hsends⟩ := sosendoob_sends so hv (hok hurgc)
    have hcount := hsends.gives.cc
    simp only [sowrite, if_pos hurgc, hlen, heq, Option.bind_eq_bind, Option.bind_some]
    split_ifs with hempty
    · exact ⟨_, _, _, rfl, hsends⟩
    · obtain ⟨nn, sent', so'', heq', hsends'⟩ := sowriteRest_sends hsends.gives.valid
        so.soRcv.sbCc (by omega) (by omega) (by omega) first second
      rw [heq', Option.bind_some]
      exact ⟨_, _, _, rfl, hsends.trans hsends'⟩

/-- A packet is sent or put behind the contents, and some bytes at the front may be sent. -/
lemma sbappend_sends (hv : so.soRcv.Valid) {m : List UInt8} {host : SendAnswer}
    (hroom : so.soRcv.sbCc + m.length ≤ so.soRcv.sbDatalen)
    (hok : so.soUrgc ≠ 0 → m ≠ [] →
      UrgentOk so.soRcv (so.soRcv.sbCc + m.length) so.soUrgc host) :
    ∃ sent so', sbappend so m host = some (sent, so') ∧ so'.soRcv.Valid ∧
      so.soRcv.contents ++ m = sent ++ so'.soRcv.contents ∧
      so'.soRcv.sbDatalen = so.soRcv.sbDatalen ∧ so'.soSnd = so.soSnd := by
  by_cases hm : m = []
  · exact ⟨_, _, by simp only [sbappend, hm]; rfl, hv, by simp [hm], rfl, rfl⟩
  have hpos : ¬ m.length = 0 := fun h => hm (List.length_eq_zero_iff.mp h)
  by_cases hurgc : so.soUrgc = 0
  · simp only [sbappend, if_neg hpos, if_neg (not_not.mpr hurgc)]
    by_cases hempty : so.soRcv.sbCc = 0
    · have hnil : so.soRcv.contents = [] := List.length_eq_zero_iff.mp (by simpa using hempty)
      obtain ⟨k, hk, hsent, hret⟩ := slirpSend_cases m host
      rw [if_pos hempty, hsent, hnil, List.nil_append]
      split_ifs with hnone hsome
      · have hk0 : k = 0 := by omega
        obtain ⟨sb', happend, hgets⟩ := sbappendsb_eq hv hroom
        rw [happend, Option.bind_eq_bind, Option.bind_some]
        exact ⟨_, _, rfl, hgets.valid, by simp [hgets.contents, hnil, hk0], hgets.datalen, rfl⟩
      · have hk' : (slirpSend m host).1 = k := by omega
        obtain ⟨sb', happend, hgets⟩ := sbappendsb_eq hv (m := m.drop k)
          (by rw [List.length_drop]; omega)
        rw [hk', Int.toNat_natCast, happend, Option.bind_eq_bind, Option.bind_some]
        exact ⟨_, _, rfl, hgets.valid, by simp [hgets.contents, hnil], hgets.datalen, rfl⟩
      · have hk' : k = m.length := by omega
        exact ⟨_, _, rfl, hv, by simp [hnil, hk'], rfl, rfl⟩
    · obtain ⟨sb', happend, hgets⟩ := sbappendsb_eq hv hroom
      rw [if_neg hempty, if_pos le_rfl, happend, Option.bind_eq_bind, Option.bind_some]
      exact ⟨_, _, rfl, hgets.valid, by simp [hgets.contents], hgets.datalen, rfl⟩
  · obtain ⟨sb', happend, hgets⟩ := sbappendsb_eq hv hroom
    have hok' : UrgentOk sb' sb'.sbCc so.soUrgc host := by
      have h := hok hurgc hm
      rw [← hgets.cc] at h
      cases host with
      | took n => simpa only [UrgentOk, hgets.rptr, hgets.datalen] using h
      | again => exact h
      | error => exact h
    obtain ⟨n, sent, so', hoob, hsends⟩ :=
      sosendoob_sends { so with soRcv := sb' } hgets.valid hok'
    refine ⟨sent, so', ?_, hsends.gives.valid, ?_, ?_, hsends.soSnd⟩
    · simp only [sbappend, if_neg hpos, if_pos hurgc, happend, hoob, Option.bind_eq_bind,
        Option.bind_some]
      rfl
    · exact hgets.contents ▸ hsends.gives.contents
    · exact hsends.gives.datalen.trans hgets.datalen

end Send

section Receive

variable {sb : Sbuf} {so : Socket}

/-- What is received `k` bytes after `sb_rptr` follows the `k` bytes of the ring. -/
lemma qemuRecv_eq (sb : Sbuf) (len : ℕ) (hr : 0 ≤ sb.sbRptr ∧ sb.sbRptr < sb.sbDatalen) {p k : ℤ}
    (hp : p = sb.sbRptr + k ∨ p = sb.sbRptr + k - sb.sbDatalen) (hp0 : 0 ≤ p ∧ p < sb.sbDatalen)
    (hk : 0 ≤ k) (hend : p + len ≤ sb.sbDatalen) (hroom : k + len ≤ sb.sbDatalen)
    (host : RecvAnswer) :
    ∃ sbData bytes, sb.qemuRecv p len host = some ({ sb with sbData }, bytes) ∧
      bytes.length ≤ len ∧ ring sbData sb.sbDatalen sb.sbRptr.toNat (k + bytes.length).toNat =
        ring sb.sbData sb.sbDatalen sb.sbRptr.toNat k.toNat ++ bytes := by
  cases host with
  | got bytes =>
    have hlen : (bytes.take len).length ≤ len := List.length_take_le len bytes
    obtain ⟨sbData, hstore, hring⟩ := Valid.store sb (bytes.take len) hr (p := p) (k := k)
      (n := (bytes.take len).length) hp hp0 hk (by omega) (by omega)
      (by omega) le_rfl
    rw [Int.toNat_natCast, List.take_length] at hring
    refine ⟨sbData, bytes.take len, ?_, hlen, hring⟩
    simp only [Sbuf.qemuRecv, guard, if_pos (And.intro hp0.1 hend), hstore]
    rfl
  | again => exact ⟨sb.sbData, [], rfl, Nat.zero_le _, by simp⟩
  | error => exact ⟨sb.sbData, [], rfl, Nat.zero_le _, by simp⟩

/-- The elements of `soread()` are the room behind the contents, or a part of it. -/
lemma sopreprbuf_eq (hv : so.soSnd.Valid) (hroom : so.soSnd.sbCc < so.soSnd.sbDatalen) :
    ∃ iov, sopreprbuf so = some iov ∧ so.soSnd.sbWptr + iov.len0 ≤ so.soSnd.sbDatalen ∧
      so.soSnd.sbCc + iov.len0 ≤ so.soSnd.sbDatalen ∧
      (iov.n = 2 → so.soSnd.sbWptr + iov.len0 = so.soSnd.sbDatalen ∧
        so.soSnd.sbCc + iov.len0 + iov.len1 ≤ so.soSnd.sbDatalen) := by
  have hw := hv.wptr_cases
  obtain ⟨hrptr, hwptr, hle, -, hdatalen⟩ := id hv
  have hlen : wrap32 ((so.soSnd.sbDatalen : ℤ) - so.soSnd.sbCc) =
      so.soSnd.sbDatalen - so.soSnd.sbCc := wrap32_of_range (by omega) (by omega)
  have hpos : ¬ (so.soSnd.sbDatalen : ℤ) - so.soSnd.sbCc ≤ 0 := by omega
  have hround (k : ℕ) : (if k > so.tMaxseg then k - k % so.tMaxseg else k) ≤ k := by
    split_ifs
    · exact Nat.sub_le _ _
    · exact le_rfl
  simp only [sopreprbuf, hlen, if_neg hpos]
  by_cases hbehind : so.soSnd.sbWptr < so.soSnd.sbRptr
  · rw [if_pos hbehind, sizeT_of_range (by omega) (by omega)]
    have hround' := hround (min (so.soSnd.sbRptr - so.soSnd.sbWptr).toNat
      ((so.soSnd.sbDatalen : ℤ) - so.soSnd.sbCc).toNat)
    exact ⟨_, rfl, by dsimp only; omega, by dsimp only; omega, by dsimp only; omega⟩
  · rw [if_neg hbehind, sizeT_of_range (by omega) (by omega), sizeT_of_range (by omega) (by omega)]
    set len0 := min ((so.soSnd.sbDatalen : ℤ) - so.soSnd.sbWptr).toNat
      ((so.soSnd.sbDatalen : ℤ) - so.soSnd.sbCc).toNat with hlen0
    have hround' := hround len0
    split_ifs with hrest htotal hlss
    · exact ⟨_, rfl, by dsimp only; omega, by dsimp only; omega, by dsimp only; omega⟩
    · exact ⟨_, rfl, by dsimp only; omega, by dsimp only; omega, by dsimp only; omega⟩
    · exact ⟨_, rfl, by dsimp only; omega, by dsimp only; omega, by dsimp only; omega⟩
    · exact ⟨_, rfl, by dsimp only; omega, by dsimp only; omega, by dsimp only; omega⟩
    · exact ⟨_, rfl, by dsimp only; omega, by dsimp only; omega, by dsimp only; omega⟩

/-- What has been received is put behind the contents. -/
lemma soread_receives (hv : so.soSnd.Valid) (hroom : so.soSnd.sbCc < so.soSnd.sbDatalen)
    (first second : RecvAnswer) :
    ∃ nn bytes so', soread so first second = some (nn, bytes, so') ∧
      so.soSnd.Gets bytes so'.soSnd ∧ so'.soRcv = so.soRcv := by
  have hw := hv.wptr_cases
  have hcc := hv.cc
  have hrptr := hv.rptr
  obtain ⟨iov, hiov, hend, hroom0, hsecond⟩ := sopreprbuf_eq hv hroom
  obtain ⟨sbData, bytes, hrecv, hlen, hring⟩ := qemuRecv_eq so.soSnd iov.len0 hv.rptr
    (p := so.soSnd.sbWptr) (k := so.soSnd.sbCc) (by omega) hv.wptr (by omega) hend (by omega) first
  rw [Int.toNat_natCast] at hring
  simp only [soread, hiov, hrecv, Option.bind_eq_bind, Option.bind_some]
  by_cases hnone : bytes.length = 0
  · rw [if_pos hnone]
    exact ⟨_, [], _, rfl, ⟨hv, rfl, rfl, by simp⟩, rfl⟩
  rw [if_neg hnone]
  by_cases htwice : iov.n = 2 ∧ bytes.length = iov.len0
  · obtain ⟨hfull, hroom1⟩ := hsecond htwice.1
    obtain ⟨sbData', bytes', hrecv', hlen', hring'⟩ := qemuRecv_eq
      ⟨so.soSnd.sbCc, so.soSnd.sbDatalen, so.soSnd.sbWptr, so.soSnd.sbRptr, sbData⟩ iov.len1 hv.rptr
      (p := 0) (k := so.soSnd.sbCc + bytes.length) (by dsimp only; omega) (by dsimp only; omega) (by omega) (by dsimp only; omega) (by dsimp only; omega) second
    rw [if_pos htwice, hrecv', Option.bind_some]
    have hlen : ((bytes.length : ℤ) + bytes'.length) = (bytes ++ bytes').length := by
      rw [List.length_append, Nat.cast_add]
    refine ⟨_, _, _, rfl, hv.written hlen (by dsimp only; omega) ?_, rfl⟩
    rw [← add_assoc, hring', hring, List.append_assoc]
    rfl
  · rw [if_neg htwice]
    exact ⟨_, _, _, rfl, hv.written rfl (by omega) hring, rfl⟩

end Receive

/-! ### Every order of steps -/

inductive Side
  | rcv
  | snd

/-- A call, with what the host answers, or a change of `so_urgc` and `t_maxseg` between the calls. -/
inductive Op
  | sbappend (m : List UInt8) (host : SendAnswer)
  | sbcopy (side : Side) (off len : ℤ)
  | sbdrop (side : Side) (num : Int32)
  | soread (first second : RecvAnswer)
  | sowrite (urgent first second : SendAnswer)
  | tcp (soUrgc : ℤ) (tMaxseg : ℕ+)

/-- The bytes that were put into a buffer and those that were taken out of it. -/
structure Traffic where
  put : List UInt8
  out : List UInt8

/-- A socket with its traffic, and what each `sbcopy()` has copied beside what it was to copy. -/
structure World where
  so : Socket
  rcv : Traffic
  snd : Traffic
  copied : List (List UInt8 × List UInt8)

namespace World

/-- A new socket, whose buffers have just been allocated. -/
def start (rcvSize sndSize : ℕ) (rcvData sndData : Memory) (tMaxseg : ℕ+) : World where
  so :=
    { soRcv := sbreserve ⟨0, 0, 0, 0, rcvData⟩ rcvSize (some rcvData)
      soSnd := sbreserve ⟨0, 0, 0, 0, sndData⟩ sndSize (some sndData)
      soUrgc := 0
      tMaxseg }
  rcv := ⟨[], []⟩
  snd := ⟨[], []⟩
  copied := []

def buffer (w : World) : Side → Sbuf
  | .rcv => w.so.soRcv
  | .snd => w.so.soSnd

def traffic (w : World) : Side → Traffic
  | .rcv => w.rcv
  | .snd => w.snd

/-- A buffer from whose front bytes were dropped. -/
def dropped (w : World) (side : Side) (sb : Sbuf) : World :=
  let out := (w.buffer side).contents.take ((w.buffer side).sbCc - sb.sbCc)
  match side with
  | .rcv => { w with so := { w.so with soRcv := sb }, rcv := ⟨w.rcv.put, w.rcv.out ++ out⟩ }
  | .snd => { w with so := { w.so with soSnd := sb }, snd := ⟨w.snd.put, w.snd.out ++ out⟩ }

def step (w : World) : Op → Option World
  | .sbappend m host => do
    let (sent, so) ← sbappend w.so m host
    return { w with so, rcv := ⟨w.rcv.put ++ m, w.rcv.out ++ sent⟩ }
  | .sbcopy side off len => do
    let bytes ← sbcopy (w.buffer side) off len
    let t := w.traffic side
    return { w with copied := (bytes, (t.put.drop (t.out.length + off.toNat)).take len.toNat) ::
      w.copied }
  | .sbdrop side num => some (w.dropped side (sbdrop (w.buffer side) num.toInt).1)
  | .soread first second => do
    let (_, bytes, so) ← soread w.so first second
    return { w with so, snd := ⟨w.snd.put ++ bytes, w.snd.out⟩ }
  | .sowrite urgent first second => do
    let (_, sent, so) ← sowrite w.so urgent first second
    return { w with so, rcv := ⟨w.rcv.put, w.rcv.out ++ sent⟩ }
  | .tcp soUrgc tMaxseg => some { w with so := { w.so with soUrgc, tMaxseg } }

/-- Both buffers are valid and hold what was put in and not taken out, in this order, and copies are
made of that. -/
structure Fifo (w : World) : Prop where
  valid (side : Side) : (w.buffer side).Valid
  inOrder (side : Side) : (w.traffic side).put = (w.traffic side).out ++ (w.buffer side).contents
  copied : ∀ p ∈ w.copied, p.1 = p.2

end World

namespace Op

/-- There is room for what is put in, and what is copied is in the buffer. -/
def Fits (w : World) : Op → Prop
  | sbappend m _ => w.so.soRcv.sbCc + m.length ≤ w.so.soRcv.sbDatalen
  | sbcopy side off len => 0 ≤ off ∧ 0 ≤ len ∧ off + len ≤ (w.buffer side).sbCc
  | soread _ _ => w.so.soSnd.sbCc < w.so.soSnd.sbDatalen
  | sbdrop _ _ | sowrite _ _ _ | tcp _ _ => True

instance (w : World) : ∀ op : Op, Decidable (op.Fits w)
  | sbappend _ _ => inferInstanceAs (Decidable (_ ≤ _))
  | sbcopy _ _ _ => inferInstanceAs (Decidable (_ ∧ _ ∧ _))
  | soread _ _ => inferInstanceAs (Decidable (_ < _))
  | sbdrop _ _ | sowrite _ _ _ | tcp _ _ => .isTrue trivial

/-- If `sosendoob()` is called, it takes bytes of the buffer. -/
def SendsUrgent (w : World) : Op → Prop
  | sbappend m host => w.so.soUrgc ≠ 0 → m ≠ [] →
    UrgentOk w.so.soRcv (w.so.soRcv.sbCc + m.length) w.so.soUrgc host
  | sowrite urgent _ _ => w.so.soUrgc ≠ 0 →
    UrgentOk w.so.soRcv w.so.soRcv.sbCc w.so.soUrgc urgent
  | sbcopy _ _ _ | sbdrop _ _ | soread _ _ | tcp _ _ => True

instance (w : World) : ∀ op : Op, Decidable (op.SendsUrgent w)
  | sbappend _ _ => inferInstanceAs (Decidable (_ → _ → _))
  | sowrite _ _ _ => inferInstanceAs (Decidable (_ → _))
  | sbcopy _ _ _ | sbdrop _ _ | soread _ _ | tcp _ _ => .isTrue trivial

end Op

namespace World

variable {w : World}

lemma fifo_start {rcvSize sndSize : ℕ} (hrcv : 0 < rcvSize ∧ rcvSize < 2147483648)
    (hsnd : 0 < sndSize ∧ sndSize < 2147483648) (rcvData sndData : Memory) (tMaxseg : ℕ+) :
    (start rcvSize sndSize rcvData sndData tMaxseg).Fifo := by
  have hreserve {size : ℕ} (hsize : 0 < size ∧ size < 2147483648) (sbData : Memory) :
      sbreserve ⟨0, 0, 0, 0, sbData⟩ size (some sbData) = ⟨0, size, 0, 0, sbData⟩ :=
    if_pos (by dsimp only; omega)
  have hvalid {size : ℕ} (hsize : 0 < size ∧ size < 2147483648) (sbData : Memory) :
      Sbuf.Valid ⟨0, size, 0, 0, sbData⟩ :=
    ⟨by dsimp only; omega, by dsimp only; omega, Nat.zero_le _, by simp, hsize.2⟩
  refine ⟨fun side => ?_, fun side => ?_, by simp [start]⟩
  · cases side with
    | rcv =>
      have h := hvalid hrcv rcvData
      rwa [← hreserve hrcv rcvData] at h
    | snd =>
      have h := hvalid hsnd sndData
      rwa [← hreserve hsnd sndData] at h
  · cases side with
    | rcv => simp [start, traffic, buffer, hreserve hrcv, contents]
    | snd => simp [start, traffic, buffer, hreserve hsnd, contents]

/-- What happens to one buffer. -/
lemma Fifo.of_rcv (h : w.Fifo) (so : Socket) {t : Traffic} (hvalid : so.soRcv.Valid)
    (hinOrder : t.put = t.out ++ so.soRcv.contents) (hsnd : so.soSnd = w.so.soSnd) :
    Fifo { w with so, rcv := t } where
  valid
    | .rcv => hvalid
    | .snd => show so.soSnd.Valid by rw [hsnd]; exact h.valid .snd
  inOrder
    | .rcv => hinOrder
    | .snd => show w.snd.put = w.snd.out ++ so.soSnd.contents by rw [hsnd]; exact h.inOrder .snd
  copied := h.copied

lemma Fifo.of_snd (h : w.Fifo) (so : Socket) {t : Traffic} (hvalid : so.soSnd.Valid)
    (hinOrder : t.put = t.out ++ so.soSnd.contents) (hrcv : so.soRcv = w.so.soRcv) :
    Fifo { w with so, snd := t } where
  valid
    | .rcv => show so.soRcv.Valid by rw [hrcv]; exact h.valid .rcv
    | .snd => hvalid
  inOrder
    | .rcv => show w.rcv.put = w.rcv.out ++ so.soRcv.contents by rw [hrcv]; exact h.inOrder .rcv
    | .snd => hinOrder
  copied := h.copied

/-- What is given from the front has been taken out. -/
lemma Fifo.put_eq_of_gives (h : w.Fifo) (side : Side) {sb : Sbuf} {bytes : List UInt8}
    (hgives : (w.buffer side).Gives bytes sb) :
    (w.traffic side).put = (w.traffic side).out ++ bytes ++ sb.contents := by
  rw [h.inOrder side, hgives.contents, List.append_assoc]

lemma Fifo.dropped (h : w.Fifo) (side : Side) {sb : Sbuf}
    (hgives : (w.buffer side).Gives ((w.buffer side).contents.take ((w.buffer side).sbCc - sb.sbCc))
      sb) : (w.dropped side sb).Fifo := by
  cases side with
  | rcv =>
    exact h.of_rcv { w.so with soRcv := sb } hgives.valid (h.put_eq_of_gives .rcv hgives) rfl
  | snd =>
    exact h.of_snd { w.so with soSnd := sb } hgives.valid (h.put_eq_of_gives .snd hgives) rfl

/-- A step returns and leaves queues. -/
lemma Fifo.step (h : w.Fifo) {op : Op} (hfits : op.Fits w) (hurgent : op.SendsUrgent w) :
    ∃ w', w.step op = some w' ∧ w'.Fifo := by
  cases op with
  | sbappend m host =>
    obtain ⟨sent, so, heq, hvalid, hcontents, -, hsnd⟩ :=
      sbappend_sends (h.valid .rcv) hfits hurgent
    refine ⟨_, by rw [World.step, heq]; rfl, h.of_rcv so hvalid ?_ hsnd⟩
    have hput : w.rcv.put = w.rcv.out ++ w.so.soRcv.contents := h.inOrder .rcv
    rw [hput, List.append_assoc, hcontents, List.append_assoc]
  | sbcopy side off len =>
    obtain ⟨hoff, hlen, hcc⟩ := hfits
    refine ⟨_, by rw [World.step, sbcopy_eq (h.valid side) hoff hlen hcc]; rfl, ?_⟩
    refine ⟨h.valid, h.inOrder, fun p hp => ?_⟩
    obtain rfl | hp := List.mem_cons.mp hp
    · rw [h.inOrder side, List.drop_append, List.drop_of_length_le (Nat.le_add_right _ _),
        List.nil_append, Nat.add_sub_cancel_left]
    · exact h.copied p hp
  | sbdrop side num =>
    exact ⟨_, rfl, h.dropped side (sbdrop_gives (h.valid side) num.le_toInt num.toInt_lt)⟩
  | soread first second =>
    obtain ⟨nn, bytes, so, heq, hgets, hrcv⟩ := soread_receives (h.valid .snd) hfits first second
    refine ⟨_, by rw [World.step, heq]; rfl, h.of_snd so hgets.valid ?_ hrcv⟩
    have hput : w.snd.put = w.snd.out ++ w.so.soSnd.contents := h.inOrder .snd
    rw [hgets.contents, hput, List.append_assoc]
  | sowrite urgent first second =>
    obtain ⟨nn, sent, so, heq, hsends⟩ := sowrite_sends (h.valid .rcv) first second hurgent
    exact ⟨_, by rw [World.step, heq]; rfl,
      h.of_rcv so hsends.gives.valid (h.put_eq_of_gives .rcv hsends.gives) hsends.soSnd⟩
  | tcp soUrgc tMaxseg =>
    refine ⟨_, rfl, ⟨fun side => ?_, fun side => ?_, h.copied⟩⟩
    · cases side with
      | rcv => exact h.valid .rcv
      | snd => exact h.valid .snd
    · cases side with
      | rcv => exact h.inOrder .rcv
      | snd => exact h.inOrder .snd

end World

/-- Every run from a new socket returns and leaves queues, if the answers to urgent sends are neither
errors nor more than the bytes that have arrived. -/
theorem socket_buffers_fifo (rcvSize sndSize : ℕ) (rcvData sndData : Memory) (tMaxseg : ℕ+)
    (ops : List Op) (hrcv : 0 < rcvSize ∧ rcvSize < 2147483648)
    (hsnd : 0 < sndSize ∧ sndSize < 2147483648)
    (hok : Guarded World.step (fun w op => op.Fits w ∧ op.SendsUrgent w)
      (.start rcvSize sndSize rcvData sndData tMaxseg) ops) :
    ∃ w, run World.step (.start rcvSize sndSize rcvData sndData tMaxseg) ops = some w ∧ w.Fifo :=
  run_returns_of_guarded (fun _ _ hfifo hop => hfifo.step hop.1 hop.2)
    (World.fifo_start hrcv hsnd rcvData sndData tMaxseg) hok

/-- A packet with an urgent byte. -/
theorem socket_buffers_fifo_urgent :
    ∃ w, run World.step (.start 4 4 (fun _ => 0) (fun _ => 0) 1460)
      [.sbappend [1, 2, 3] (.took 1), .tcp 3 1460, .sbappend [4, 5] (.took 1),
        .sowrite (.took 1) (.took 2) .again, .soread (.got [6, 7]) .again, .sbcopy .snd 1 1,
        .sbdrop .snd 1] = some w ∧ w.Fifo :=
  socket_buffers_fifo 4 4 (fun _ => 0) (fun _ => 0) 1460 _ (by decide) (by decide)
    (by decide +kernel)

/-- An urgent byte that the socket does not take: `sb_rptr` is before the buffer. -/
theorem not_socket_buffers_fifo_again :
    ¬ ∀ (rcvSize sndSize : ℕ) (rcvData sndData : Memory) (tMaxseg : ℕ+) (ops : List Op) (w : World),
      0 < rcvSize ∧ rcvSize < 2147483648 → 0 < sndSize ∧ sndSize < 2147483648 →
      Guarded World.step (fun w op => op.Fits w)
        (.start rcvSize sndSize rcvData sndData tMaxseg) ops →
      run World.step (.start rcvSize sndSize rcvData sndData tMaxseg) ops = some w → w.Fifo := by
  intro hall
  have hrptr : (run World.step (.start 8192 8192 (fun _ => 0) (fun _ => 0) 1460)
      [.tcp 1 1460, .sbappend [7] .again]).map (fun w => w.so.soRcv.sbRptr) = some (-1) := by
    decide +kernel
  obtain ⟨w, hw, hrptr⟩ := Option.map_eq_some_iff.mp hrptr
  have hfifo := hall 8192 8192 (fun _ => 0) (fun _ => 0) 1460 _ w (by decide) (by decide)
    (by decide +kernel) hw
  have hle : 0 ≤ w.so.soRcv.sbRptr := (hfifo.valid .rcv).rptr.1
  rw [hrptr] at hle
  exact absurd hle (by decide)

end Limbo.Slirp
