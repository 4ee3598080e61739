import Limbo.Lib.WriteLog

/-!
# What a program meets from a state

A program with state and exceptions meets two conditions from a state: one where it returns, one
where it throws. One rule for each construct of the monad.
-/

namespace Limbo.Lib

variable {ε S α β γ : Type} {E E' : ε → S → Prop}

/-- From the state `s` the program returns with `Q` or throws with `E`. -/
def Meets (x : EStateM ε S β) (s : S) (Q : β → S → Prop) (E : ε → S → Prop) : Prop :=
  match x s with
  | .ok b t => Q b t
  | .error e t => E e t

namespace Meets

variable {x : EStateM ε S β} {f : β → EStateM ε S γ} {s t : S} {b : β} {Q Q' : β → S → Prop}
  {R : γ → S → Prop}

lemma of_ok (h : x s = .ok b t) (hq : Q b t) : Meets x s Q E := by
  rw [Meets, h]
  exact hq

lemma of_error {e : ε} (h : x s = .error e t) (he : E e t) : Meets x s Q E := by
  rw [Meets, h]
  exact he

lemma ok (h : Meets x s Q E) (hx : x s = .ok b t) : Q b t := by
  rw [Meets, hx] at h
  exact h

lemma error (h : Meets x s Q E) {e : ε} (hx : x s = .error e t) : E e t := by
  rw [Meets, hx] at h
  exact h

instance [∀ b t, Decidable (Q b t)] [∀ e t, Decidable (E e t)] : Decidable (Meets x s Q E) :=
  match h : x s with
  | .ok _ _ => decidable_of_iff _ ⟨of_ok h, fun hm => hm.ok h⟩
  | .error _ _ => decidable_of_iff _ ⟨of_error h, fun hm => hm.error h⟩

lemma mono (h : Meets x s Q E) (hq : ∀ b t, Q b t → Q' b t) (he : ∀ e t, E e t → E' e t) :
    Meets x s Q' E' := by
  unfold Meets at h ⊢
  cases hx : x s with
  | ok b t =>
    rw [hx] at h
    exact hq b t h
  | error e t =>
    rw [hx] at h
    exact he e t h

lemma congr {y : EStateM ε S β} {s' : S} (h : x s = y s') (hy : Meets y s' Q E) :
    Meets x s Q E := by
  unfold Meets at hy ⊢
  rwa [h]

lemma pure (h : Q b s) : Meets (Pure.pure b) s Q E := h

lemma throw {e : ε} (h : E e s) : Meets (MonadExcept.throw e) s Q E := h

lemma get {Q : S → S → Prop} (h : Q s s) : Meets MonadState.get s Q E := h

lemma set {Q : PUnit → S → Prop} (h : Q ⟨⟩ t) : Meets (MonadStateOf.set t) s Q E := h

lemma bind (h : Meets x s Q E) (hf : ∀ b t, Q b t → Meets (f b) t R E) :
    Meets (x >>= f) s R E := by
  unfold Meets at h ⊢
  cases hx : x s with
  | ok b t =>
    rw [hx] at h
    rw [bind_ok hx]
    exact hf b t h
  | error e t =>
    rw [hx] at h
    rw [bind_error hx]
    exact h

lemma get_bind {f : S → EStateM ε S γ} (h : Meets (f s) s R E) :
    Meets (MonadState.get >>= f) s R E := h

lemma set_bind {f : PUnit → EStateM ε S γ} (h : Meets (f ⟨⟩) t R E) :
    Meets (MonadStateOf.set t >>= f) s R E := h

lemma modify_bind {g : S → S} {f : PUnit → EStateM ε S γ} (h : Meets (f ⟨⟩) (g s) R E) :
    Meets (modify g >>= f) s R E := h

/-- A loop over a list: `I` says what holds with these elements to come. -/
lemma forM {I : List α → S → Prop} {g : α → EStateM ε S PUnit} {as : List α} (h : I as s)
    (hstep : ∀ a as s, I (a :: as) s → Meets (g a) s (fun _ t => I as t) E) :
    Meets (as.forM g) s (fun _ t => I [] t) E := by
  induction as generalizing s with
  | nil => exact h
  | cons a as ih =>
    exact bind (hstep a as s h) fun _ t ht => ih ht

end Meets

end Limbo.Lib
