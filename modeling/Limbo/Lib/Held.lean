import Mathlib

/-!
# What a run takes and releases

A run that takes and releases things leaves a list of events. `holds` follows what is held: a thing
that is not held cannot be released. A run is balanced if it can be followed from nothing to
nothing, so that each thing that is taken is released exactly once.
-/

namespace Limbo.Lib

variable {ρ ε : Type*}

/-- Something is taken or released, or noted. -/
inductive Event (ρ ε : Type*)
  | take (r : ρ)
  | release (r : ρ)
  | note (e : ε)
deriving DecidableEq

variable [DecidableEq ρ]

/-- What is held after an event. -/
def hold (held : List ρ) : Event ρ ε → Option (List ρ)
  | .take r => some (r :: held)
  | .release r => if r ∈ held then some (held.erase r) else none
  | .note _ => some held

/-- What is held after some events. -/
def holds (held : List ρ) (es : List (Event ρ ε)) : Option (List ρ) := es.foldlM hold held

/-- From nothing to nothing. -/
def Balanced (es : List (Event ρ ε)) : Prop := holds [] es = some []

instance (es : List (Event ρ ε)) : Decidable (Balanced es) :=
  inferInstanceAs (Decidable (holds [] es = some []))

variable {held held' rest : List ρ} {e : Event ρ ε} {es es' : List (Event ρ ε)} {r : ρ}

@[simp] lemma holds_nil : holds held ([] : List (Event ρ ε)) = some held := rfl

lemma holds_cons : holds held (e :: es) = (hold held e).bind fun h => holds h es := rfl

lemma holds_append (h : holds held es = some held') :
    holds held (es ++ es') = holds held' es' := by
  unfold holds at *
  rw [List.foldlM_append, h]
  rfl

lemma hold_append (h : hold held e = some held') : hold (held ++ rest) e = some (held' ++ rest) := by
  cases e with
  | take r =>
    cases h
    rfl
  | release r =>
    rw [hold] at h
    split_ifs at h with hr
    cases h
    rw [hold, if_pos (List.mem_append_left _ hr), List.erase_append_left _ hr]
  | note e =>
    cases h
    rfl

/-- More may be held. -/
lemma holds_append_held (h : holds held es = some held') :
    holds (held ++ rest) es = some (held' ++ rest) := by
  induction es generalizing held with
  | nil =>
    cases h
    rfl
  | cons e es ih =>
    rw [holds_cons] at h
    obtain ⟨next, hnext, h⟩ := Option.bind_eq_some_iff.mp h
    rw [holds_cons, hold_append hnext]
    exact ih h

namespace Balanced

lemma nil : Balanced ([] : List (Event ρ ε)) := rfl

lemma note (e : ε) : Balanced ([.note e] : List (Event ρ ε)) := rfl

/-- Nothing changes in what is held. -/
lemma holds_eq (h : Balanced es) : holds held es = some held := holds_append_held h

lemma append (h : Balanced es) (h' : Balanced es') : Balanced (es ++ es') :=
  (holds_append h).trans h'

/-- Something is released after a run that leaves it held. -/
lemma release (h : holds [] es = some [r]) : Balanced (es ++ [.release r]) := by
  unfold Balanced
  rw [holds_append h, holds_cons, hold, if_pos List.mem_cons_self, List.erase_cons_head]
  rfl

end Balanced

/-- What is held after a run and a balanced one. -/
lemma holds_append_balanced (h : holds held es = some held') (h' : Balanced es') :
    holds held (es ++ es') = some held' := (holds_append h).trans h'.holds_eq

end Limbo.Lib
