import Mathlib

/-!
# Memory that is copied

A memory is a function from addresses to bytes, and `copy` copies a range of one memory into another.
A list of elements, each a range of a memory, stands for the bytes of the elements one after the
other: `scatter` copies bytes into them and `gather` copies them out. As elements may overlap, `place`
says which byte an address holds in the end.
-/

namespace Limbo.Lib

abbrev Memory := ℕ → UInt8

/-- `memcpy(dst + p, src + q, n)`, for memories that do not overlap. -/
def copy (dst : Memory) (p : ℕ) (src : Memory) (q n : ℕ) : Memory :=
  fun a => if p ≤ a ∧ a < p + n then src (q + (a - p)) else dst a

section Copy

variable {dst src src' : Memory} {p q q' n k a : ℕ}

lemma copy_of_mem (h : p ≤ a ∧ a < p + n) : copy dst p src q n a = src (q + (a - p)) := if_pos h

lemma copy_of_not_mem (h : ¬ (p ≤ a ∧ a < p + n)) : copy dst p src q n a = dst a := if_neg h

@[simp] lemma copy_zero : copy dst p src q 0 = dst := by
  funext a
  exact copy_of_not_mem (by omega)

lemma copy_congr (h : ∀ i < n, src (q + i) = src' (q' + i)) :
    copy dst p src q n = copy dst p src' q' n := by
  funext a
  by_cases ha : p ≤ a ∧ a < p + n
  · rw [copy_of_mem ha, copy_of_mem ha, h (a - p) (by omega)]
  · rw [copy_of_not_mem ha, copy_of_not_mem ha]

/-- One range after the other. -/
lemma copy_append : copy (copy dst p src q n) (p + n) src (q + n) k = copy dst p src q (n + k) := by
  funext a
  by_cases hsecond : p + n ≤ a ∧ a < p + n + k
  · have hadd : q + n + (a - (p + n)) = q + (a - p) := by omega
    rw [copy_of_mem hsecond, copy_of_mem (n := n + k) ⟨by omega, by omega⟩, hadd]
  · rw [copy_of_not_mem hsecond]
    by_cases hfirst : p ≤ a ∧ a < p + n
    · rw [copy_of_mem hfirst, copy_of_mem (n := n + k) ⟨by omega, by omega⟩]
    · rw [copy_of_not_mem hfirst, copy_of_not_mem (n := n + k) (by omega)]

/-- A range over the first part of it. -/
lemma copy_copy (h : k ≤ n) : copy (copy dst p src q k) p src q n = copy dst p src q n := by
  funext a
  by_cases ha : p ≤ a ∧ a < p + n
  · rw [copy_of_mem ha, copy_of_mem ha]
  · rw [copy_of_not_mem ha, copy_of_not_mem ha, copy_of_not_mem (by omega)]

end Copy

/-! ### Elements -/

/-- `struct iovec`. -/
structure Iovec where
  iovBase : ℕ
  iovLen : ℕ
deriving DecidableEq, Repr

/-- The number of bytes of the elements. -/
def total (iov : List Iovec) : ℕ := (iov.map Iovec.iovLen).sum

/-- `count` bytes of `src` from `q` on, into the elements. -/
def scatter : List Iovec → ℕ → Memory → ℕ → Memory → Memory
  | [], _, _, _, dst => dst
  | v :: vs, count, src, q, dst =>
    scatter vs (count - min count v.iovLen) src (q + min count v.iovLen)
      (copy dst v.iovBase src q (min count v.iovLen))

/-- The bytes of the elements, to `dst` from `p` on. -/
def gather : List Iovec → Memory → ℕ → Memory → Memory
  | [], _, _, dst => dst
  | v :: vs, src, p, dst => gather vs src (p + v.iovLen) (copy dst p src v.iovBase v.iovLen)

/-- The last of the first `count` bytes that the address holds. -/
def place : List Iovec → ℕ → ℕ → Option ℕ
  | [], _, _ => none
  | v :: vs, count, a =>
    match place vs (count - min count v.iovLen) a with
    | some i => some (min count v.iovLen + i)
    | none =>
      if v.iovBase ≤ a ∧ a < v.iovBase + min count v.iovLen then some (a - v.iovBase) else none

section Elements

variable {iov vs : List Iovec} {v : Iovec} {src src' dst dst' : Memory} {count k p q q' a i : ℕ}

lemma place_cons_of_some (h : place vs (count - min count v.iovLen) a = some i) :
    place (v :: vs) count a = some (min count v.iovLen + i) := by
  rw [place, h]

lemma place_cons_of_none (h : place vs (count - min count v.iovLen) a = none) :
    place (v :: vs) count a =
      if v.iovBase ≤ a ∧ a < v.iovBase + min count v.iovLen then some (a - v.iovBase) else none := by
  rw [place, h]

lemma place_lt (h : place iov count a = some i) : i < count := by
  induction iov generalizing count i with
  | nil => cases h
  | cons v vs ih =>
    cases hvs : place vs (count - min count v.iovLen) a with
    | some j =>
      rw [place_cons_of_some hvs] at h
      cases h
      have hj := ih hvs
      omega
    | none =>
      rw [place_cons_of_none hvs] at h
      split_ifs at h with ha
      cases h
      omega

lemma place_zero : place iov 0 a = none := by
  cases h : place iov 0 a with
  | none => rfl
  | some i => exact absurd (place_lt h) (Nat.not_lt_zero i)

/-- An address that holds none of the bytes holds none of the first of them. -/
lemma place_eq_none_of_le (hk : k ≤ count) (h : place iov count a = none) : place iov k a = none := by
  induction iov generalizing count k with
  | nil => rfl
  | cons v vs ih =>
    cases hvs : place vs (count - min count v.iovLen) a with
    | some j =>
      rw [place_cons_of_some hvs] at h
      cases h
    | none =>
      rw [place_cons_of_none hvs] at h
      split_ifs at h with ha
      have hvs' : place vs (k - min k v.iovLen) a = none := ih (by omega) hvs
      rw [place_cons_of_none hvs', if_neg (by omega)]

lemma scatter_apply :
    scatter iov count src q dst a = (place iov count a).elim (dst a) fun i => src (q + i) := by
  induction iov generalizing count q dst with
  | nil => rfl
  | cons v vs ih =>
    rw [scatter, ih]
    cases hvs : place vs (count - min count v.iovLen) a with
    | some i => rw [place_cons_of_some hvs, Option.elim_some, Option.elim_some, Nat.add_assoc]
    | none =>
      rw [place_cons_of_none hvs, Option.elim_none]
      by_cases ha : v.iovBase ≤ a ∧ a < v.iovBase + min count v.iovLen
      · rw [copy_of_mem ha, if_pos ha, Option.elim_some]
      · rw [copy_of_not_mem ha, if_neg ha, Option.elim_none]

/-- What is gathered does not depend on what was there. -/
lemma gather_congr (h : dst a = dst' a ∨ p ≤ a ∧ a < p + total iov) :
    gather iov src p dst a = gather iov src p dst' a := by
  induction iov generalizing p dst dst' with
  | nil =>
    obtain h | ⟨hle, hlt⟩ := h
    · exact h
    · exact absurd hlt (not_lt.mpr hle)
  | cons v vs ih =>
    refine ih ?_
    have htotal : total (v :: vs) = v.iovLen + total vs := List.sum_cons
    by_cases ha : p ≤ a ∧ a < p + v.iovLen
    · exact .inl (by rw [copy_of_mem ha, copy_of_mem ha])
    · rw [copy_of_not_mem ha, copy_of_not_mem ha]
      exact h.imp_right fun hmem => by omega

end Elements

end Limbo.Lib
