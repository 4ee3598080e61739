import Mathlib

/-!
# Records with keys

Lists of records of which at most one has a key, and the change of the record with a key.
-/

namespace Limbo.Lib

variable {κ α : Type*} [DecidableEq κ] {key : α → κ} {k : κ} {f : α → α} {as : List α} {a b : α}

/-- The record with the key `k` is changed. -/
def modifyKey (key : α → κ) (k : κ) (f : α → α) (as : List α) : List α :=
  as.map fun a => if key a = k then f a else a

@[simp] lemma modifyKey_nil : modifyKey key k f [] = [] := rfl

lemma modifyKey_cons : modifyKey key k f (a :: as) =
    (if key a = k then f a else a) :: modifyKey key k f as := rfl

lemma mem_modifyKey : b ∈ modifyKey key k f as ↔
    (b ∈ as ∧ key b ≠ k) ∨ ∃ a ∈ as, key a = k ∧ f a = b := by
  simp only [modifyKey, List.mem_map]
  constructor
  · rintro ⟨a, ha, rfl⟩
    split_ifs with hk
    · exact .inr ⟨a, ha, hk, rfl⟩
    · exact .inl ⟨ha, hk⟩
  · rintro (⟨hb, hk⟩ | ⟨a, ha, hk, rfl⟩)
    · exact ⟨b, hb, if_neg hk⟩
    · exact ⟨a, ha, if_pos hk⟩

/-- Without the key there is nothing to change. -/
lemma modifyKey_of_notMem (h : k ∉ as.map key) : modifyKey key k f as = as := by
  rw [modifyKey]
  refine (List.map_congr_left fun a ha => if_neg ?_).trans (List.map_id as)
  exact fun hk => h (List.mem_map.mpr ⟨a, ha, hk⟩)

lemma map_key_modifyKey (hf : ∀ a, key (f a) = key a) :
    (modifyKey key k f as).map key = as.map key := by
  rw [modifyKey, List.map_map]
  apply List.map_congr_left
  intro a _
  simp only [Function.comp]
  split_ifs
  · exact hf a
  · rfl

/-- One change after the other, where the first keeps the key. -/
lemma modifyKey_modifyKey {g : α → α} (hf : ∀ a, key (f a) = key a) :
    modifyKey key k g (modifyKey key k f as) = modifyKey key k (g ∘ f) as := by
  rw [modifyKey, modifyKey, List.map_map]
  apply List.map_congr_left
  intro a _
  simp only [Function.comp]
  by_cases hk : key a = k
  · rw [if_pos hk, if_pos ((hf a).trans hk), if_pos hk]
  · rw [if_neg hk, if_neg hk, if_neg hk]

/-- Counting before and after the change of `a`. -/
lemma countP_modifyKey (hkeys : (as.map key).Nodup) (ha : a ∈ as) (p : α → Bool) :
    (modifyKey key (key a) f as).countP p + (if p a then 1 else 0) =
      as.countP p + if p (f a) then 1 else 0 := by
  induction as with
  | nil => cases ha
  | cons b as ih =>
    obtain ⟨hb, hkeys⟩ := List.nodup_cons.mp hkeys
    rw [modifyKey_cons, List.countP_cons, List.countP_cons]
    rcases List.mem_cons.mp ha with rfl | ha
    · rw [if_pos rfl, modifyKey_of_notMem hb]
      omega
    · have hne : key b ≠ key a := fun h => hb (h ▸ List.mem_map.mpr ⟨a, ha, rfl⟩)
      rw [if_neg hne]
      have := ih hkeys ha
      omega

end Limbo.Lib
