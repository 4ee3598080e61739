import Mathlib

/-!
# Copying in pieces

A surface is copied onto itself in pieces: each piece reads what the pieces before it have left. The
result is that of one copy if no piece reads what an earlier one has changed.
-/

namespace Limbo.Lib

variable {α β : Type*} (source : α → α)

/-- The places of one piece get what is at their sources. -/
def move (piece : α → Bool) (f : α → β) : α → β := fun q => if piece q then f (source q) else f q

/-- The places of all the pieces have what was at their sources. -/
def Moved (pieces : List (α → Bool)) (f g : α → β) : Prop :=
  ∀ q, g q = if ∃ piece ∈ pieces, piece q then f (source q) else f q

variable {source} {pieces : List (α → Bool)} {piece : α → Bool} {f g : α → β}

lemma foldl_move_of_not_mem {q : α} (h : ∀ piece ∈ pieces, ¬ piece q) :
    pieces.foldl (fun g piece => move source piece g) f q = f q := by
  induction pieces generalizing f with
  | nil => rfl
  | cons piece pieces ih =>
    obtain ⟨hpiece, hpieces⟩ := List.forall_mem_cons.mp h
    rw [List.foldl_cons, ih hpieces]
    exact if_neg hpiece

/-- One more piece. -/
lemma moved_append (hlast : ∀ p ∈ pieces, ∀ q, p q → ¬ piece q) (hfree : ∀ q, piece q → g q = f q) :
    Moved source (pieces ++ [piece]) f (move source piece g) ↔ Moved source pieces f g ∧
      ∀ p ∈ pieces, ∀ q, piece q → p (source q) → f (source q) = f (source (source q)) := by
  have hin : ∀ q, piece q → ∃ p ∈ pieces ++ [piece], p q := fun q hq =>
    ⟨piece, List.mem_append_right _ (List.mem_singleton.mpr rfl), hq⟩
  have hout : ∀ q, ¬ piece q → ((∃ p ∈ pieces ++ [piece], p q) ↔ ∃ p ∈ pieces, p q) := by
    intro q hq
    simp [or_and_right, exists_or, hq]
  constructor
  · intro h
    have hmoved : Moved source pieces f g := by
      intro q
      by_cases hq : piece q
      · rw [hfree q hq, if_neg]
        rintro ⟨p, hp, hpq⟩
        exact hlast p hp q hpq hq
      · have hold := h q
        rw [move, if_neg hq] at hold
        simpa only [hout q hq] using hold
    refine ⟨hmoved, fun p hp q hq hsource => ?_⟩
    have hlate := h q
    rw [move, if_pos hq, if_pos (hin q hq), hmoved (source q), if_pos ⟨p, hp, hsource⟩] at hlate
    exact hlate.symm
  · rintro ⟨hmoved, hsame⟩ q
    by_cases hq : piece q
    · rw [move, if_pos hq, if_pos (hin q hq), hmoved (source q)]
      split_ifs with hearly
      · obtain ⟨p, hp, hsource⟩ := hearly
        exact (hsame p hp q hq hsource).symm
      · rfl
    · rw [move, if_neg hq, hmoved q]
      simp only [hout q hq]

/-- Copying in pieces that do not overlap is copying at once, if and only if no piece reads anything
else than what was there before the pieces that come earlier. -/
lemma foldl_move_iff (hdisjoint : pieces.Pairwise fun p p' => ∀ q, p q → ¬ p' q) :
    Moved source pieces f (pieces.foldl (fun g piece => move source piece g) f) ↔
      pieces.Pairwise fun p p' =>
        ∀ q, p' q → p (source q) → f (source q) = f (source (source q)) := by
  induction pieces using List.reverseRecOn with
  | nil => exact ⟨fun _ => .nil, fun _ q => by simp⟩
  | append_singleton pieces piece ih =>
    obtain ⟨hpieces, -, hpiece⟩ := List.pairwise_append.mp hdisjoint
    have hlast : ∀ p ∈ pieces, ∀ q, p q → ¬ piece q := fun p hp =>
      hpiece p hp piece (List.mem_singleton.mpr rfl)
    have hfree : ∀ q, piece q →
        pieces.foldl (fun g piece => move source piece g) f q = f q := fun q hq =>
      foldl_move_of_not_mem fun p hp hpq => hlast p hp q hpq hq
    rw [List.foldl_append, List.foldl_cons, List.foldl_nil, moved_append hlast hfree, ih hpieces,
      List.pairwise_append]
    simp only [List.pairwise_singleton, List.mem_singleton, forall_eq, true_and]

end Limbo.Lib
