import Limbo.Vnc.Keyboard

/-!
# The modifiers of a key event

A key event is sent with the modifiers that Android reports with it, with Shift for a symbol that
is typed with Shift, and with Alt once an Alt key has been seen. Android reports the modifiers whose
keys are down.
-/

namespace Limbo.Vnc

/-- The key of a modifier: `KEYCODE_CTRL_LEFT` or `KEYCODE_CTRL_RIGHT`, and so on. -/
def Modifier.OfKey (k : PhysicalKey) : Modifier → Prop
  | .ctrl => k.keyCode = 113 ∨ k.keyCode = 114
  | .shift => k.keyCode = 59 ∨ k.keyCode = 60
  | .metaKey => k.keyCode = 117 ∨ k.keyCode = 118
  | .alt => k.ofAlt

instance (k : PhysicalKey) : (m : Modifier) → Decidable (m.OfKey k)
  | .ctrl => inferInstanceAs (Decidable (_ ∨ _))
  | .shift => inferInstanceAs (Decidable (_ ∨ _))
  | .metaKey => inferInstanceAs (Decidable (_ ∨ _))
  | .alt => inferInstanceAs (Decidable k.ofAlt)

/-- A key of the modifier is down. -/
def Modifier.Held (m : Modifier) (keys : List PhysicalKey) : Prop := ∃ k ∈ keys, m.OfKey k

instance (m : Modifier) (keys : List PhysicalKey) : Decidable (m.Held keys) :=
  inferInstanceAs (Decidable (∃ k ∈ keys, _))

namespace Canvas

/-- The meta state of an event reports the modifiers whose keys are down. -/
structure Reports (evt : KeyEvent) (keys : List PhysicalKey) : Prop where
  ctrl : evt.ctrlOn ↔ Modifier.ctrl.Held keys
  shift : evt.shiftOn ↔ Modifier.shift.Held keys
  alt : evt.altOn ↔ Modifier.alt.Held keys

instance (evt : KeyEvent) (keys : List PhysicalKey) : Decidable (Reports evt keys) :=
  decidable_of_iff ((evt.ctrlOn ↔ Modifier.ctrl.Held keys) ∧
    (evt.shiftOn ↔ Modifier.shift.Held keys) ∧ (evt.altOn ↔ Modifier.alt.Held keys))
    ⟨fun h => ⟨h.1, h.2.1, h.2.2⟩, fun h => ⟨h.1, h.2, h.3⟩⟩

/-- The meta states of some events follow the keys. -/
def Follows : List PhysicalKey → List Event → Prop
  | _, [] => True
  | keys, e :: events => (∀ evt, e = .key evt → Reports evt (held keys e)) ∧
      Follows (held keys e) events

lemma Follows.last {keys : List PhysicalKey} {pre : List Event} {evt : KeyEvent}
    (h : Follows keys (pre ++ [.key evt])) :
    Reports evt ((pre ++ [Event.key evt]).foldl held keys) := by
  induction pre generalizing keys with
  | nil => exact h.1 evt rfl
  | cons e pre ih => exact ih h.2

/-- The modifiers that are set when the server gets the key event: a key that goes down has them
set before it, a key that goes up finds them. -/
def carried (chars : KeyEvent.CharacterMap) (pre : List Event) (evt : KeyEvent) : BitVec 32 :=
  if evt.action = .down then (init.run chars (pre ++ [.key evt])).rfb.oldModifiers
  else (init.run chars pre).rfb.oldModifiers

/-- A key event carries the modifiers whose keys are down. -/
def Faithful (chars : KeyEvent.CharacterMap) (pre : List Event) (evt : KeyEvent) : Prop :=
  ∀ m : Modifier, m.On (carried chars pre evt) ↔ m.Held (heldAfter (pre ++ [.key evt]))

variable {chars : KeyEvent.CharacterMap}

lemma inNormalProtocol_run (events : List Event) :
    (init.run chars events).inNormalProtocol = true := by
  have hstep (s : Canvas) (e : Event) :
      (s.step chars e).inNormalProtocol = s.inNormalProtocol := by
    cases e with
    | menuItem => rfl
    | scroll =>
      simp only [step]
      split_ifs <;> rfl
    | key evt =>
      simp only [step, processLocalKeyEvent, volumeKey, sendKey]
      split_ifs <;> rfl
  induction events using List.reverseRecOn with
  | nil => rfl
  | append_singleton events e ih =>
    rw [run, List.foldl_append]
    exact (hstep _ e).trans ih

/-- The event of a translated key is sent. -/
lemma step_translated {s : Canvas} (hs : s.inNormalProtocol = true) {evt : KeyEvent}
    (hevt : evt.key.Translated) : ∃ t : Canvas, s.step chars (.key evt) = t.sendKey chars evt ∧
      t.rfb = s.rfb ∧ t.altPressed = s.altPressed ∧ t.afterMenu = s.afterMenu ∧
      t.lastKeyDown = s.lastKeyDown := by
  obtain ⟨hmenu, hvolume, halt⟩ := hevt
  simp only [step, processLocalKeyEvent, if_neg hmenu, if_neg hvolume, if_neg halt]
  refine ⟨if evt.key.ofCamera then { s with cameraButtonDown := decide (evt.action ≠ .up) } else s,
    ?_, ?_, ?_, ?_, ?_⟩
  · split_ifs <;> simp_all
  all_goals split_ifs <;> rfl

/-- The modifiers of an event, one by one. -/
lemma on_modifiers (evt : KeyEvent) (altPressed : Bool) :
    (Modifier.ctrl.On (evt.modifiers chars altPressed) ↔ evt.ctrlOn) ∧
      (Modifier.shift.On (evt.modifiers chars altPressed) ↔
        evt.shiftOn ∨ (evt.specialKey chars).isSome = true) ∧
      (Modifier.alt.On (evt.modifiers chars altPressed) ↔ evt.altOn ∨ altPressed = true) := by
  unfold KeyEvent.modifiers
  by_cases hctrl : evt.ctrlOn <;> by_cases hshift : evt.shiftOn <;>
    by_cases halt : evt.altOn ∨ altPressed <;>
    by_cases hspecial : (evt.specialKey chars).isSome = true <;>
    simp only [hctrl, hshift, halt, hspecial] <;> decide

/-- A key that goes down is sent with its modifiers; a key that goes up leaves none. -/
lemma oldModifiers_sendKey {s : Canvas} {evt : KeyEvent}
    (hsent : s.afterMenu = true → evt.action = .down ∨ evt.keySym chars = s.lastKeyDown) :
    (s.sendKey chars evt).rfb.oldModifiers =
      if evt.action = .down then evt.modifiers chars s.altPressed else 0 := by
  have hkept : ¬ (s.afterMenu ∧ ¬ evt.action = .down ∧ evt.keySym chars ≠ s.lastKeyDown) := by
    rintro ⟨hmenu, hdown, hkey⟩
    exact (hsent hmenu).elim hdown hkey
  rw [sendKey, if_neg hkept]
  refine (oldModifiers_call s.rfb (.key (evt.keySym chars) (evt.modifiers chars s.altPressed)
    (evt.action = .down))).trans ?_
  simp [RfbProto.Call.modifiers]

/-- A key event that is sent when a key goes down carries Ctrl exactly if a Ctrl key is down, Shift
exactly if a Shift key is down or its character is a symbol that is typed with Shift, Alt if an Alt
key is down, and never Meta; one that is sent when a key goes up leaves no modifier. -/
theorem carried_run (chars : KeyEvent.CharacterMap) (pre : List Event) (evt : KeyEvent)
    (hfollows : Follows [] (pre ++ [.key evt])) (hevt : evt.key.Translated)
    (hsent : (init.run chars pre).afterMenu = true →
      evt.action = .down ∨ evt.keySym chars = (init.run chars pre).lastKeyDown) :
    let keys := heldAfter (pre ++ [.key evt])
    (evt.action = .down →
      (Modifier.ctrl.On (carried chars pre evt) ↔ Modifier.ctrl.Held keys) ∧
        (Modifier.shift.On (carried chars pre evt) ↔
          Modifier.shift.Held keys ∨ (evt.specialKey chars).isSome = true) ∧
        (Modifier.alt.Held keys → Modifier.alt.On (carried chars pre evt)) ∧
        ¬ Modifier.metaKey.On (carried chars pre evt)) ∧
      (evt.action ≠ .down → (init.run chars (pre ++ [.key evt])).rfb.oldModifiers = 0) := by
  obtain ⟨t, hstep, hrfb, halt, hmenu, hlast⟩ :=
    @step_translated chars _ (inNormalProtocol_run pre) evt hevt
  have hrun : init.run chars (pre ++ [.key evt]) = t.sendKey chars evt := by
    rw [run, List.foldl_append]
    exact hstep
  have hold := @oldModifiers_sendKey chars t evt (by rwa [hmenu, hlast])
  have hreports : Reports evt (heldAfter (pre ++ [.key evt])) := hfollows.last
  constructor
  · intro hdown
    obtain ⟨hctrl, hshift, haltOn⟩ := @on_modifiers chars evt t.altPressed
    rw [carried, if_pos hdown, hrun, hold, if_pos hdown, hctrl, hshift, haltOn, hreports.ctrl,
      hreports.shift, hreports.alt]
    exact ⟨.rfl, .rfl, .inl, by simp [Modifier.On, Modifier.mask]⟩
  · intro hdown
    rw [hrun, hold, if_neg hdown]

/-- Ctrl and Alt held with a letter. -/
theorem carried_run_ctrlAlt :
    let pre := [Event.key ⟨⟨29, 113⟩, .down, 0x1000, 0⟩, .key ⟨⟨56, 57⟩, .down, 0x1002, 0⟩]
    let evt : KeyEvent := ⟨⟨30, 29⟩, .down, 0x1002, 0x61⟩
    let keys := heldAfter (pre ++ [.key evt])
    (evt.action = .down →
      (Modifier.ctrl.On (carried letterA pre evt) ↔ Modifier.ctrl.Held keys) ∧
        (Modifier.shift.On (carried letterA pre evt) ↔
          Modifier.shift.Held keys ∨ (evt.specialKey letterA).isSome = true) ∧
        (Modifier.alt.Held keys → Modifier.alt.On (carried letterA pre evt)) ∧
        ¬ Modifier.metaKey.On (carried letterA pre evt)) ∧
      (evt.action ≠ .down → (init.run letterA (pre ++ [.key evt])).rfb.oldModifiers = 0) := by
  refine carried_run letterA _ _ ?_ (by decide) (by decide)
  refine ⟨?_, ?_, ?_, trivial⟩ <;> rintro evt ⟨⟩ <;> decide

/-- A keyboard with a key for `#`. -/
def poundKey : KeyEvent.CharacterMap := fun keyCode => if keyCode = 18 then 0x23 else 0

/-- A symbol carries Shift though no Shift key is down, a letter does not carry Meta though a Meta
key is down, the second of two letters that go up does not carry Ctrl though a Ctrl key is down, and
a letter carries Alt after the Alt key has gone up. -/
theorem not_faithful :
    ¬ Faithful poundKey [] ⟨⟨4, 18⟩, .down, 0, 0x23⟩ ∧
      ¬ Faithful letterA [.key ⟨⟨125, 117⟩, .down, 0x10000, 0⟩]
        ⟨⟨30, 29⟩, .down, 0x10000, 0x61⟩ ∧
      ¬ Faithful letterA [.key ⟨⟨29, 113⟩, .down, 0x1000, 0⟩, aKey .down 0x1000,
        .key ⟨⟨31, 47⟩, .down, 0x1000, 0x73⟩, aKey .up 0x1000] ⟨⟨31, 47⟩, .up, 0x1000, 0x73⟩ ∧
      ¬ Faithful letterA [.key ⟨⟨56, 57⟩, .down, 2, 0⟩, .key ⟨⟨56, 57⟩, .up, 0, 0⟩]
        ⟨⟨30, 29⟩, .down, 0, 0x61⟩ := by
  refine ⟨fun h => ?_, fun h => ?_, fun h => ?_, fun h => ?_⟩
  · exact absurd (h .shift) (by decide)
  · exact absurd (h .metaKey) (by decide)
  · exact absurd (h .ctrl) (by decide)
  · exact absurd (h .alt) (by decide)

end Canvas

end Limbo.Vnc
