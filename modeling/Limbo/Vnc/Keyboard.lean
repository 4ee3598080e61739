import Limbo.Vnc.Events

/-!
# The keys of the device

`VncCanvas.processLocalKeyEvent` translates the key events of Android into keysyms and modifiers.
The volume keys turn the wheel of the mouse; while one of them is held, a runnable goes on turning
it.
-/

namespace Limbo.Vnc

/-! ### Key events -/

inductive Action where
  | down
  | up
  | multiple
deriving DecidableEq, Repr

/-- A physical key, with the key code that it has. -/
structure PhysicalKey where
  scanCode : ℕ
  keyCode : ℕ
deriving DecidableEq, Repr

namespace PhysicalKey

/-- `KEYCODE_MENU`. -/
def ofMenu (k : PhysicalKey) : Prop := k.keyCode = 82

/-- `KEYCODE_VOLUME_DOWN` and `KEYCODE_VOLUME_UP`. -/
def ofVolume (k : PhysicalKey) : Prop := k.keyCode = 25 ∨ k.keyCode = 24

/-- `KEYCODE_ALT_LEFT` and `KEYCODE_ALT_RIGHT`. -/
def ofAlt (k : PhysicalKey) : Prop := k.keyCode = 57 ∨ k.keyCode = 58

/-- `KEYCODE_CAMERA`. -/
def ofCamera (k : PhysicalKey) : Prop := k.keyCode = 27

instance (k : PhysicalKey) : Decidable k.ofMenu := inferInstanceAs (Decidable (_ = _))
instance (k : PhysicalKey) : Decidable k.ofVolume := inferInstanceAs (Decidable (_ ∨ _))
instance (k : PhysicalKey) : Decidable k.ofAlt := inferInstanceAs (Decidable (_ ∨ _))
instance (k : PhysicalKey) : Decidable k.ofCamera := inferInstanceAs (Decidable (_ = _))

/-- The events of the key are translated into a keysym. -/
def Translated (k : PhysicalKey) : Prop := ¬ k.ofMenu ∧ ¬ k.ofVolume ∧ ¬ k.ofAlt

instance (k : PhysicalKey) : Decidable k.Translated := inferInstanceAs (Decidable (_ ∧ _))

end PhysicalKey

structure KeyEvent where
  key : PhysicalKey
  action : Action
  metaState : BitVec 32
  /-- `getUnicodeChar()`: the character of the key under the meta state. -/
  unicodeChar : BitVec 32
deriving DecidableEq, Repr

namespace KeyEvent

/-- `isSpecialKey(key)`, `none` for `-1`. -/
def isSpecialKey (key : BitVec 32) : Option (BitVec 32) :=
  let symbols := "!@#$%^&*()_+~\x7b\x7d|\":<>?".toList
  let keys := "1234567890-=`[]\\';,./".toList
  ((symbols.zip keys).find? fun c => c.1.toNat = key.toNat).map fun c => .ofNat 32 c.2.toNat

/-- The keysyms of the key codes that have one of their own. -/
def fixedKey : ℕ → Option (BitVec 32)
  | 4 => some 0xff1b    -- `KEYCODE_BACK`
  | 21 => some 0xff51   -- `KEYCODE_DPAD_LEFT`
  | 19 => some 0xff52   -- `KEYCODE_DPAD_UP`
  | 22 => some 0xff53   -- `KEYCODE_DPAD_RIGHT`
  | 20 => some 0xff54   -- `KEYCODE_DPAD_DOWN`
  | 67 => some 0xff08   -- `KEYCODE_DEL`
  | 112 => some 0xffff  -- `KEYCODE_FORWARD_DEL`
  | 122 => some 0xff50  -- `KEYCODE_MOVE_HOME`
  | 124 => some 0xff63  -- `KEYCODE_INSERT`
  | 123 => some 0xff57  -- `KEYCODE_MOVE_END`
  | 93 => some 0xff56   -- `KEYCODE_PAGE_DOWN`
  | 92 => some 0xff55   -- `KEYCODE_PAGE_UP`
  | 66 => some 0xff0d   -- `KEYCODE_ENTER`
  | 23 => some 0xff0d   -- `KEYCODE_DPAD_CENTER`
  | 61 => some 0xff09   -- `KEYCODE_TAB`
  | 111 => some 0xff1b  -- `ESCAPE`
  | _ => none

/-- `META_SHIFT_ON`, `META_ALT_ON` and `META_CTRL_ON`. -/
def shiftOn (evt : KeyEvent) : Prop := evt.metaState &&& 1 = 1

def altOn (evt : KeyEvent) : Prop := evt.metaState &&& 2 = 2

def ctrlOn (evt : KeyEvent) : Prop := evt.metaState &&& 0x1000 = 0x1000

instance (evt : KeyEvent) : Decidable evt.shiftOn := inferInstanceAs (Decidable (_ = _))
instance (evt : KeyEvent) : Decidable evt.altOn := inferInstanceAs (Decidable (_ = _))
instance (evt : KeyEvent) : Decidable evt.ctrlOn := inferInstanceAs (Decidable (_ = _))

/-- The characters of the keys of the virtual keyboard without a modifier. -/
abbrev CharacterMap := ℕ → BitVec 32

variable (chars : CharacterMap)

/-- The key that has to be pressed with Shift for the character of the event, if it is a symbol. -/
def specialKey (evt : KeyEvent) : Option (BitVec 32) :=
  if fixedKey evt.key.keyCode = none then isSpecialKey (chars evt.key.keyCode) else none

/-- The keysym of an event. -/
def keySym (evt : KeyEvent) : BitVec 32 :=
  if evt.shiftOn then evt.unicodeChar
  else match fixedKey evt.key.keyCode with
    | some key => key
    | none =>
      match isSpecialKey (chars evt.key.keyCode) with
      | some key => key
      | none =>
        if 131 ≤ evt.key.keyCode ∧ evt.key.keyCode ≤ 142 then
          0xffbe + .ofNat 32 evt.key.keyCode - 131
        else chars evt.key.keyCode

/-- The modifiers of an event. -/
def modifiers (altPressed : Bool) (evt : KeyEvent) : BitVec 32 :=
  let metaState := if (evt.specialKey chars).isSome then 1 else 0
  let metaState := if evt.ctrlOn then metaState ||| Modifier.ctrl.mask else metaState
  let metaState := if evt.altOn ∨ altPressed then metaState ||| Modifier.alt.mask else metaState
  if evt.shiftOn then metaState ||| Modifier.shift.mask else metaState

end KeyEvent

/-! ### `VncCanvas` -/

/-- The fields of `VncCanvas` that the keys change. -/
structure Canvas where
  rfb : RfbProto
  inNormalProtocol : Bool
  mouseX : BitVec 32
  mouseY : BitVec 32
  pointerMask : BitVec 32
  /-- The button of the scroll runnable. -/
  scrollButton : BitVec 32
  /-- The scroll runnable is with the handler. -/
  posted : Bool
  cameraButtonDown : Bool
  altPressed : Bool
  afterMenu : Bool
  lastKeyDown : BitVec 32
deriving DecidableEq, Repr

namespace Canvas

/-- A connected canvas. -/
def init : Canvas := ⟨.init, true, 0, 0, 0, 0, false, false, false, false, 0⟩

/-- The branch of the volume keys. -/
def volumeKey (evt : KeyEvent) (s : Canvas) : Canvas :=
  let mouseChange : BitVec 32 := if evt.key.keyCode = 25 then 16 else 8
  let s :=
    if evt.action = .down then
      if s.scrollButton ≠ mouseChange then
        { s with
          pointerMask := s.pointerMask ||| mouseChange
          scrollButton := mouseChange
          posted := true }
      else s
    else
      { s with
        posted := false
        scrollButton := 0
        pointerMask := s.pointerMask &&& ~~~mouseChange }
  { s with rfb := s.rfb.writePointerEvent s.mouseX s.mouseY evt.metaState s.pointerMask }

/-- The end of `processLocalKeyEvent`, where the keysym is sent. -/
def sendKey (chars : KeyEvent.CharacterMap) (evt : KeyEvent) (s : Canvas) : Canvas :=
  let key := evt.keySym chars
  let metaState := evt.modifiers chars s.altPressed
  let down := evt.action = .down
  if s.afterMenu ∧ ¬ down ∧ key ≠ s.lastKeyDown then { s with afterMenu := false }
  else
    { s with
      afterMenu := false
      lastKeyDown := if down then key else s.lastKeyDown
      rfb := s.rfb.writeKeyEvent key metaState down
      altPressed := false }

/-- `processLocalKeyEvent(keyCode, evt)`. -/
def processLocalKeyEvent (chars : KeyEvent.CharacterMap) (evt : KeyEvent) (s : Canvas) :
    Canvas × Bool :=
  if evt.key.ofMenu then (s, true)
  else if evt.key.ofVolume then (s.volumeKey evt, true)
  else
    let s := if evt.key.ofCamera then { s with cameraButtonDown := evt.action ≠ .up } else s
    if s.inNormalProtocol then
      if evt.key.ofAlt then ({ s with altPressed := true }, true)
      else (s.sendKey chars evt, true)
    else (s, false)

/-- `MouseScrollRunnable.run()`. -/
def scroll (s : Canvas) : Canvas :=
  let rfb := s.rfb.writePointerEvent s.mouseX s.mouseY 0 s.scrollButton
  { s with rfb := rfb.writePointerEvent s.mouseX s.mouseY 0 0 }

/-- What happens on the thread of the user interface: a key event, the runnable once it is with
the handler, or the choice of a menu item. -/
inductive Event where
  | key (evt : KeyEvent)
  | scroll
  | menuItem
deriving DecidableEq, Repr

def step (chars : KeyEvent.CharacterMap) (s : Canvas) : Event → Canvas
  | .key evt => (s.processLocalKeyEvent chars evt).1
  | .scroll => if s.posted then s.scroll else s
  | .menuItem => { s with afterMenu := true }

/-- One event after the other. -/
def run (chars : KeyEvent.CharacterMap) (s : Canvas) (events : List Event) : Canvas :=
  events.foldl (step chars) s

end Canvas

/-! ### Presses and releases -/

namespace Canvas

variable {chars : KeyEvent.CharacterMap}

/-- The physical keys that are down after an event. -/
def held (keys : List PhysicalKey) : Event → List PhysicalKey
  | .key evt =>
    match evt.action with
    | .down => evt.key :: keys
    | .up => keys.filter (· ≠ evt.key)
    | .multiple => keys
  | .scroll => keys
  | .menuItem => keys

/-- The keysyms that the keys which are down have been translated to. -/
def downs (chars : KeyEvent.CharacterMap) (ds : List (PhysicalKey × BitVec 32)) :
    Event → List (PhysicalKey × BitVec 32)
  | .key evt =>
    match evt.action with
    | .down =>
      if evt.key.Translated ∧ evt.keySym chars ≠ 0 then (evt.key, evt.keySym chars) :: ds else ds
    | .up => ds.filter (·.1 ≠ evt.key)
    | .multiple => ds
  | .scroll => ds
  | .menuItem => ds

/-- A key that goes up is translated to every keysym that it went down with, and its event is not
dropped after a menu. -/
def Matched (chars : KeyEvent.CharacterMap) (s : Canvas) (ds : List (PhysicalKey × BitVec 32)) :
    Event → Prop
  | .key evt => evt.action = .up → evt.key.Translated →
    (∀ d ∈ ds, d.1 = evt.key → d.2 = evt.keySym chars) ∧
      (s.afterMenu = true → evt.keySym chars = s.lastKeyDown)
  | .scroll => True
  | .menuItem => True

instance (chars : KeyEvent.CharacterMap) (s : Canvas) (ds : List (PhysicalKey × BitVec 32)) :
    (e : Event) → Decidable (Matched chars s ds e)
  | .key evt => inferInstanceAs (Decidable (evt.action = .up → evt.key.Translated → _ ∧ _))
  | .scroll => .isTrue trivial
  | .menuItem => .isTrue trivial

/-- Every event of a run is matched. -/
def AllMatched (chars : KeyEvent.CharacterMap) :
    Canvas → List (PhysicalKey × BitVec 32) → List Event → Prop
  | _, _, [] => True
  | s, ds, e :: events =>
    Matched chars s ds e ∧ AllMatched chars (s.step chars e) (downs chars ds e) events

instance AllMatched.decidable (chars : KeyEvent.CharacterMap) :
    (s : Canvas) → (ds : List (PhysicalKey × BitVec 32)) → (events : List Event) →
      Decidable (AllMatched chars s ds events)
  | _, _, [] => .isTrue trivial
  | s, ds, e :: events =>
    have := AllMatched.decidable chars (s.step chars e) (downs chars ds e) events
    inferInstanceAs (Decidable (_ ∧ _))

end Canvas

/-! ### Keysyms that are pressed -/

/-- The keysym of a modifier that is on. -/
def Modified (modifiers x : BitVec 32) : Prop := ∃ m : Modifier, x = m.keysym ∧ m.On modifiers

@[simp] lemma not_modified_zero (x : BitVec 32) : ¬ Modified 0 x := by
  rintro ⟨m, -, hon⟩
  exact hon (by simp)

section Pressed

variable {old new : BitVec 32} {pressed : Finset (BitVec 32)} {K : BitVec 32 → Prop}

open RfbProto

/-- The comparisons for some of the modifiers, once the others are as the new ones say. -/
lemma mem_foldl_change (ms : List Modifier) (hnodup : ms.Nodup) (pressed : Finset (BitVec 32))
    (h : ∀ x ∈ pressed,
      (∃ m : Modifier, x = m.keysym ∧ if m ∈ ms then m.On old else m.On new) ∨ K x) :
    ∀ x ∈ (ms.flatMap (change old new)).foldl Message.press pressed, Modified new x ∨ K x := by
  induction ms generalizing pressed with
  | nil => simpa [Modified] using h
  | cons m ms ih =>
    obtain ⟨hm, hnodup'⟩ := List.nodup_cons.mp hnodup
    rw [List.flatMap_cons, List.foldl_append]
    refine ih hnodup' _ fun x hx => ?_
    have hrest {m' : Modifier} (hne : m' ≠ m) (hx : x = m'.keysym)
        (hon : if m' ∈ m :: ms then m'.On old else m'.On new) :
        ∃ m' : Modifier, x = m'.keysym ∧ if m' ∈ ms then m'.On old else m'.On new :=
      ⟨m', hx, by simpa [hne] using hon⟩
    by_cases hne : new &&& m.mask ≠ old &&& m.mask
    · rw [change, if_pos hne, List.foldl_cons, List.foldl_nil] at hx
      by_cases hon : m.On new
      · simp only [hon, decide_true, Message.press, Finset.mem_insert] at hx
        rcases hx with rfl | hx
        · exact .inl ⟨m, rfl, by simp [hm, hon]⟩
        · rcases h x hx with ⟨m', hx', hon'⟩ | hk
          · by_cases heq : m' = m
            · exact .inl ⟨m, heq ▸ hx', by simp [hm, hon]⟩
            · exact .inl (hrest heq hx' hon')
          · exact .inr hk
      · simp only [hon, decide_false, Message.press, Finset.mem_erase] at hx
        rcases h x hx.2 with ⟨m', hx', hon'⟩ | hk
        · exact .inl (hrest (fun heq => hx.1 (heq ▸ hx')) hx' hon')
        · exact .inr hk
    · rw [change, if_neg hne, List.foldl_nil] at hx
      rcases h x hx with ⟨m', hx', hon'⟩ | hk
      · by_cases heq : m' = m
        · subst heq
          have hiff : m'.On new ↔ m'.On old := by
            rwa [m'.and_mask_ne_iff, not_not] at hne
          exact .inl ⟨m', hx', by simpa [hm, hiff] using hon'⟩
        · exact .inl (hrest heq hx' hon')
      · exact .inr hk

lemma mem_foldl_changes (h : ∀ x ∈ pressed, Modified old x ∨ K x) :
    ∀ x ∈ (changes old new).foldl Message.press pressed, Modified new x ∨ K x := by
  refine mem_foldl_change _ (by decide) pressed fun x hx => ?_
  rcases h x hx with ⟨m, hm, hon⟩ | hk
  · refine .inl ⟨m, hm, ?_⟩
    cases m <;> simpa using hon
  · exact .inr hk

/-- A key that goes down is pressed beside those that were. -/
lemma mem_foldl_down (h : ∀ x ∈ pressed, Modified old x ∨ K x) (keySym metaState : BitVec 32) :
    ∀ x ∈ ((Call.key keySym metaState true).messages old).foldl Message.press pressed,
      Modified metaState x ∨ K x ∨ (x = keySym ∧ keySym ≠ 0) := by
  intro x hx
  have hmod := @mem_foldl_changes old metaState pressed K h
  simp only [Call.messages, if_true, List.append_nil, List.foldl_append] at hx
  split_ifs at hx with hkey
  · rw [List.foldl_cons, List.foldl_nil, Message.press, Finset.mem_insert] at hx
    rcases hx with rfl | hx
    · exact .inr (.inr ⟨rfl, hkey⟩)
    · exact (hmod x hx).imp_right .inl
  · exact (hmod x hx).imp_right .inl

/-- After a key has gone up, neither it nor a modifier is pressed. -/
lemma mem_foldl_up (h : ∀ x ∈ pressed, Modified old x ∨ K x) (keySym metaState : BitVec 32) :
    ∀ x ∈ ((Call.key keySym metaState false).messages old).foldl Message.press pressed,
      K x ∧ (keySym ≠ 0 → x ≠ keySym) := by
  intro x hx
  simp only [Call.messages, Bool.false_eq_true, if_false, List.nil_append, List.foldl_append] at hx
  refine (mem_foldl_changes (K := fun x => K x ∧ (keySym ≠ 0 → x ≠ keySym)) (fun x hx => ?_)
    x hx).resolve_left (not_modified_zero x)
  split_ifs at hx with hkey
  · rw [List.foldl_cons, List.foldl_nil, Message.press, Finset.mem_erase] at hx
    exact (h x hx.2).imp_right fun hk => ⟨hk, fun _ => hx.1⟩
  · exact (h x hx).imp_right fun hk => ⟨hk, fun hne => absurd hne hkey⟩

/-- A pointer event only changes the modifiers. -/
lemma mem_foldl_pointer (h : ∀ x ∈ pressed, Modified old x ∨ K x)
    (x y modifiers pointerMask : BitVec 32) :
    ∀ k ∈ ((Call.pointer x y modifiers pointerMask).messages old).foldl Message.press pressed,
      Modified (Call.pointer x y modifiers pointerMask).modifiers k ∨ K k := by
  have hmod := @mem_foldl_changes old modifiers pressed K h
  simp only [Call.messages, Call.modifiers, List.foldl_append, List.foldl_cons, List.foldl_nil,
    Message.press]
  split_ifs
  · exact mem_foldl_changes hmod
  · exact hmod

end Pressed

/-! ### Runs -/

namespace Canvas

variable {chars : KeyEvent.CharacterMap} {s : Canvas} {keys : List PhysicalKey}
  {ds : List (PhysicalKey × BitVec 32)}

/-- The server has read all events, and presses only modifiers that are on and keys. -/
def Presses (rfb : RfbProto) (K : BitVec 32 → Prop) : Prop :=
  ∃ messages, Message.read rfb.os = some messages ∧
    ∀ x ∈ Message.pressed messages, Modified rfb.oldModifiers x ∨ K x

/-- After a call the server has read its messages too. -/
lemma Presses.call {rfb : RfbProto} {K K' : BitVec 32 → Prop} (h : Presses rfb K)
    (c : RfbProto.Call)
    (hc : ∀ pressed : Finset (BitVec 32), (∀ x ∈ pressed, Modified rfb.oldModifiers x ∨ K x) →
      ∀ x ∈ (c.messages rfb.oldModifiers).foldl Message.press pressed,
        Modified c.modifiers x ∨ K' x) : Presses (rfb.call c) K' := by
  obtain ⟨messages, hread, hpressed⟩ := h
  obtain ⟨t, ht, heq⟩ := RfbProto.call_spec rfb c
  have hread' : Message.read (rfb.call c).os =
      some (messages ++ c.messages rfb.oldModifiers) := by
    rw [heq]
    refine Message.read_append ?_ (ht.buffer [] rfl)
    rw [ht.os]
    exact hread
  have hold : (rfb.call c).oldModifiers = c.modifiers := by
    rw [heq]
    exact ht.oldModifiers
  refine ⟨_, hread', fun x hx => ?_⟩
  rw [hold]
  rw [Message.pressed, List.foldl_append] at hx
  exact hc _ hpressed x hx

lemma oldModifiers_call (rfb : RfbProto) (c : RfbProto.Call) :
    (rfb.call c).oldModifiers = c.modifiers := by
  obtain ⟨t, ht, heq⟩ := RfbProto.call_spec rfb c
  rw [heq]
  exact ht.oldModifiers

/-- The buttons of the wheel that are in the mask are those of volume keys that are down. -/
def Wheel (keys : List PhysicalKey) (pointerMask : BitVec 32) : Prop :=
  ∃ scrollDown scrollUp : Bool,
    pointerMask = (if scrollDown then 16 else 0) ||| (if scrollUp then 8 else 0) ∧
      (scrollDown → ∃ k ∈ keys, k.keyCode = 25) ∧ (scrollUp → ∃ k ∈ keys, k.keyCode = 24)

/-- What the keys that are down account for. -/
structure Accounted (s : Canvas) (keys : List PhysicalKey) (ds : List (PhysicalKey × BitVec 32)) :
    Prop where
  inNormalProtocol : s.inNormalProtocol = true
  presses : Presses s.rfb fun x => ∃ d ∈ ds, d.2 = x
  keysyms : ∀ d ∈ ds, d.2 ≠ 0 ∧ d.1.Translated ∧ d.1 ∈ keys
  wheel : Wheel keys s.pointerMask
  modifiers : s.rfb.oldModifiers ≠ 0 → (∃ k ∈ keys, k.Translated) ∨ s.pointerMask ≠ 0

lemma Accounted.init : Accounted .init [] [] where
  inNormalProtocol := rfl
  presses := ⟨[], rfl, by simp [Message.pressed]⟩
  keysyms := by simp
  wheel := ⟨false, false, rfl, by simp, by simp⟩
  modifiers := by simp [Canvas.init, RfbProto.init]

/-- A key that another event is about stays as it is. -/
lemma mem_held_of_ne {evt : KeyEvent} {k : PhysicalKey} (hk : k ∈ keys) (hne : k ≠ evt.key) :
    k ∈ held keys (.key evt) := by
  obtain ⟨key, action, metaState, unicodeChar⟩ := evt
  cases action <;> simp_all [held]

lemma Wheel.key {pointerMask : BitVec 32} (h : Wheel keys pointerMask) {evt : KeyEvent}
    (hevt : ¬ evt.key.ofVolume) : Wheel (held keys (.key evt)) pointerMask := by
  obtain ⟨a, b, hmask, hdown, hup⟩ := h
  have hkeep {code : ℕ} (hcode : code = 25 ∨ code = 24) (hk : ∃ k ∈ keys, k.keyCode = code) :
      ∃ k ∈ held keys (.key evt), k.keyCode = code := by
    obtain ⟨k, hk, rfl⟩ := hk
    exact ⟨k, mem_held_of_ne hk fun heq => hevt (heq ▸ hcode), rfl⟩
  exact ⟨a, b, hmask, fun ha => hkeep (.inl rfl) (hdown ha), fun hb => hkeep (.inr rfl) (hup hb)⟩

/-- The keysyms of keys that are down, after an event that is not the release of one of them. -/
lemma mem_downs {evt : KeyEvent} {d : PhysicalKey × BitVec 32} (hd : d ∈ ds)
    (hne : evt.action = .up → d.1 ≠ evt.key) : d ∈ downs chars ds (.key evt) := by
  obtain ⟨key, action, metaState, unicodeChar⟩ := evt
  cases action with
  | down =>
    simp only [downs]
    split_ifs <;> simp [hd]
  | up => simpa [downs, hd] using hne rfl
  | multiple => exact hd

lemma mem_downs_of_down {evt : KeyEvent} (hdown : evt.action = .down) (hevt : evt.key.Translated)
    (hkey : evt.keySym chars ≠ 0) : (evt.key, evt.keySym chars) ∈ downs chars ds (.key evt) := by
  obtain ⟨key, action, metaState, unicodeChar⟩ := evt
  subst hdown
  simp only [downs]
  rw [if_pos ⟨hevt, hkey⟩]
  exact List.mem_cons_self

/-- A keysym of a key that is down was one before or is the one of the event. -/
lemma of_mem_downs {evt : KeyEvent} {d : PhysicalKey × BitVec 32}
    (hd : d ∈ downs chars ds (.key evt)) : (d ∈ ds ∧ (evt.action = .up → d.1 ≠ evt.key)) ∨
      (evt.action = .down ∧ d = (evt.key, evt.keySym chars) ∧ evt.key.Translated ∧
        evt.keySym chars ≠ 0) := by
  obtain ⟨key, action, metaState, unicodeChar⟩ := evt
  cases action with
  | down =>
    simp only [downs] at hd
    split_ifs at hd with hkey
    · rcases List.mem_cons.mp hd with rfl | hd
      · exact .inr ⟨rfl, rfl, hkey⟩
      · exact .inl ⟨hd, by simp⟩
    · exact .inl ⟨hd, by simp⟩
  | up =>
    have hd' := List.mem_filter.mp hd
    exact .inl ⟨hd'.1, fun _ => by simpa using hd'.2⟩
  | multiple => exact .inl ⟨hd, by simp⟩

lemma Accounted.downs_key (h : Accounted s keys ds) (evt : KeyEvent) :
    ∀ d ∈ downs chars ds (.key evt),
      d.2 ≠ 0 ∧ d.1.Translated ∧ d.1 ∈ held keys (.key evt) := by
  intro d hd
  rcases of_mem_downs hd with ⟨hd', hne⟩ | ⟨hdown, rfl, hkey⟩
  · obtain ⟨hnonzero, htranslated, hmem⟩ := h.keysyms d hd'
    refine ⟨hnonzero, htranslated, ?_⟩
    obtain ⟨key, action, metaState, unicodeChar⟩ := evt
    cases action with
    | down => exact List.mem_cons_of_mem _ hmem
    | up => simpa [held, hmem] using hne rfl
    | multiple => exact hmem
  · exact ⟨hkey.2, hkey.1, by simp [held, hdown]⟩

/-- The events of a key that is not translated press and release nothing but modifiers. -/
lemma Accounted.untranslated (h : Accounted s keys ds) {t : Canvas} {evt : KeyEvent}
    (hevt : ¬ evt.key.Translated) (hprotocol : t.inNormalProtocol = s.inNormalProtocol)
    (hpresses : Presses t.rfb fun x => ∃ d ∈ ds, d.2 = x)
    (hwheel : Wheel (held keys (.key evt)) t.pointerMask)
    (hmodifiers : t.rfb.oldModifiers ≠ 0 → (∃ k ∈ keys, k.Translated) ∨ t.pointerMask ≠ 0) :
    Accounted t (held keys (.key evt)) (downs chars ds (.key evt)) where
  inNormalProtocol := hprotocol.trans h.inNormalProtocol
  presses := by
    obtain ⟨messages, hread, hx⟩ := hpresses
    refine ⟨messages, hread, fun x hmem => (hx x hmem).imp_right ?_⟩
    rintro ⟨d, hd, rfl⟩
    exact ⟨d, mem_downs hd fun _ heq => hevt (heq ▸ (h.keysyms d hd).2.1), rfl⟩
  keysyms := h.downs_key evt
  wheel := hwheel
  modifiers := fun hold => (hmodifiers hold).imp_left fun ⟨k, hk, htranslated⟩ =>
    ⟨k, mem_held_of_ne hk fun heq => hevt (heq ▸ htranslated), htranslated⟩

lemma mem_held_of_down {evt : KeyEvent} (hdown : evt.action = .down) :
    evt.key ∈ held keys (.key evt) := by
  simp [held, hdown]

/-- A volume key that goes down may be in the mask, one that goes up is not. -/
lemma Wheel.volumeKey {evt : KeyEvent} (h : Wheel keys s.pointerMask) (hevt : evt.key.ofVolume) :
    Wheel (held keys (.key evt)) (s.volumeKey evt).pointerMask := by
  obtain ⟨a, b, hmask, hdown, hup⟩ := h
  have hkeep {code : ℕ} (hk : ∃ k ∈ keys, k.keyCode = code)
      (hne : evt.action = .down ∨ code ≠ evt.key.keyCode) :
      ∃ k ∈ held keys (.key evt), k.keyCode = code := by
    obtain ⟨k, hk, rfl⟩ := hk
    rcases hne with haction | hne
    · exact ⟨k, by simp [held, haction, hk], rfl⟩
    · exact ⟨k, mem_held_of_ne hk fun heq => hne (heq ▸ rfl), rfl⟩
  by_cases haction : evt.action = .down
  · have hmem : evt.key ∈ held keys (.key evt) := mem_held_of_down haction
    by_cases hbutton : s.scrollButton = if evt.key.keyCode = 25 then 16 else 8
    · refine ⟨a, b, ?_, fun ha => hkeep (hdown ha) (.inl haction),
        fun hb => hkeep (hup hb) (.inl haction)⟩
      simp [Canvas.volumeKey, haction, hbutton, hmask]
    · rcases hevt with hcode | hcode
      · refine ⟨true, b, ?_, fun _ => ⟨_, hmem, hcode⟩, fun hb => hkeep (hup hb) (.inl haction)⟩
        simp only [Canvas.volumeKey, haction, hcode, hmask] at hbutton ⊢
        cases a <;> cases b <;> simp_all
      · refine ⟨a, true, ?_, fun ha => hkeep (hdown ha) (.inl haction), fun _ => ⟨_, hmem, hcode⟩⟩
        simp only [Canvas.volumeKey, haction, hcode, hmask] at hbutton ⊢
        cases a <;> cases b <;> simp_all
  · rcases hevt with hcode | hcode
    · refine ⟨false, b, ?_, by simp, fun hb => hkeep (hup hb) (.inr (by simp [hcode]))⟩
      simp only [Canvas.volumeKey, haction, hcode, hmask]
      cases a <;> cases b <;> simp
    · refine ⟨a, false, ?_, fun ha => hkeep (hdown ha) (.inr (by simp [hcode])), by simp⟩
      simp only [Canvas.volumeKey, haction, hcode, hmask]
      cases a <;> cases b <;> simp

/-- The branch of the volume keys writes a pointer event with the mask that it leaves. -/
lemma rfb_volumeKey (s : Canvas) (evt : KeyEvent) : (s.volumeKey evt).rfb =
    s.rfb.call (.pointer s.mouseX s.mouseY evt.metaState (s.volumeKey evt).pointerMask) := by
  simp only [Canvas.volumeKey]
  split_ifs <;> rfl

lemma Accounted.volumeKey (h : Accounted s keys ds) {evt : KeyEvent} (hevt : evt.key.ofVolume) :
    Accounted (s.volumeKey evt) (held keys (.key evt)) (downs chars ds (.key evt)) := by
  refine h.untranslated (fun htranslated => htranslated.2.1 hevt) ?_ ?_ (h.wheel.volumeKey hevt) ?_
  · simp only [Canvas.volumeKey]
    split_ifs <;> rfl
  · rw [rfb_volumeKey]
    exact h.presses.call _ fun pressed hp => mem_foldl_pointer hp _ _ _ _
  · rw [rfb_volumeKey, oldModifiers_call]
    intro hold
    refine .inr fun hmask => hold ?_
    simp [RfbProto.Call.modifiers, hmask]

/-- A translated key presses its keysym when it goes down, and releases it when it goes up. -/
lemma Accounted.sendKey (h : Accounted s keys ds) {evt : KeyEvent} (hevt : evt.key.Translated)
    (hmatched : Matched chars s ds (.key evt)) :
    Accounted (s.sendKey chars evt) (held keys (.key evt)) (downs chars ds (.key evt)) := by
  have hvolume : ¬ evt.key.ofVolume := hevt.2.1
  by_cases hdropped : s.afterMenu ∧ ¬ evt.action = .down ∧ evt.keySym chars ≠ s.lastKeyDown
  · have hsend : s.sendKey chars evt = { s with afterMenu := false } := if_pos hdropped
    rw [hsend]
    obtain ⟨hmenu, haction, hkey⟩ := hdropped
    have hup : evt.action ≠ .up := fun hup => hkey ((hmatched hup hevt).2 hmenu)
    obtain ⟨key, action, metaState, unicodeChar⟩ := evt
    cases action with
    | down => exact absurd rfl haction
    | up => exact absurd rfl hup
    | multiple => exact ⟨h.1, h.2, h.3, h.4, h.5⟩
  · have hrfb : (s.sendKey chars evt).rfb = s.rfb.call
        (.key (evt.keySym chars) (evt.modifiers chars s.altPressed) (evt.action = .down)) := by
      rw [Canvas.sendKey, if_neg hdropped]
      rfl
    have hsame : (s.sendKey chars evt).inNormalProtocol = s.inNormalProtocol ∧
        (s.sendKey chars evt).pointerMask = s.pointerMask := by
      rw [Canvas.sendKey, if_neg hdropped]
      exact ⟨rfl, rfl⟩
    refine ⟨hsame.1.trans h.inNormalProtocol, ?_, h.downs_key evt, hsame.2 ▸ h.wheel.key hvolume,
      ?_⟩
    · rw [hrfb]
      refine h.presses.call _ fun pressed hp x hx => ?_
      by_cases hdown : evt.action = .down
      · rw [decide_eq_true hdown] at hx
        rcases mem_foldl_down hp _ _ x hx with hmod | ⟨d, hd, rfl⟩ | ⟨rfl, hkey⟩
        · exact .inl (by simpa [RfbProto.Call.modifiers, hdown] using hmod)
        · exact .inr ⟨d, mem_downs hd (by simp [hdown]), rfl⟩
        · exact .inr ⟨_, mem_downs_of_down hdown hevt hkey, rfl⟩
      · rw [decide_eq_false hdown] at hx
        obtain ⟨⟨d, hd, rfl⟩, hne⟩ := mem_foldl_up hp _ _ x hx
        refine .inr ⟨d, mem_downs hd fun hup heq => ?_, rfl⟩
        have hsym := (hmatched hup hevt).1 d hd heq
        exact hne (hsym ▸ (h.keysyms d hd).1) hsym
    · rw [hrfb, oldModifiers_call]
      intro hold
      by_cases hdown : evt.action = .down
      · exact .inl ⟨evt.key, mem_held_of_down hdown, hevt⟩
      · exact absurd (by simp [RfbProto.Call.modifiers, hdown]) hold

/-- Every matched event leaves only what the keys account for that are down after it. -/
lemma Accounted.step (h : Accounted s keys ds) {e : Event} (hmatched : Matched chars s ds e) :
    Accounted (s.step chars e) (held keys e) (downs chars ds e) := by
  cases e with
  | menuItem => exact ⟨h.1, h.2, h.3, h.4, h.5⟩
  | scroll =>
    simp only [Canvas.step]
    split_ifs
    · have hfirst := h.presses.call (.pointer s.mouseX s.mouseY 0 s.scrollButton)
        fun pressed hp => mem_foldl_pointer hp _ _ _ _
      refine ⟨h.1, hfirst.call (.pointer s.mouseX s.mouseY 0 0)
        fun pressed hp => mem_foldl_pointer hp _ _ _ _, h.3, h.4, fun hold => absurd ?_ hold⟩
      exact oldModifiers_call _ (.pointer s.mouseX s.mouseY 0 0)
    · exact h
  | key evt =>
    simp only [Canvas.step, processLocalKeyEvent]
    by_cases hmenu : evt.key.ofMenu
    · rw [if_pos hmenu]
      have hcode : evt.key.keyCode = 82 := hmenu
      exact h.untranslated (fun ht => ht.1 hmenu) rfl h.presses
        (h.wheel.key (by simp [PhysicalKey.ofVolume, hcode])) h.modifiers
    by_cases hvolume : evt.key.ofVolume
    · rw [if_neg hmenu, if_pos hvolume]
      exact h.volumeKey hvolume
    rw [if_neg hmenu, if_neg hvolume]
    have hcamera : Accounted (if evt.key.ofCamera then
        { s with cameraButtonDown := decide (evt.action ≠ .up) } else s) keys ds := by
      split_ifs
      · exact ⟨h.1, h.2, h.3, h.4, h.5⟩
      · exact h
    have hafter : (if evt.key.ofCamera then
        { s with cameraButtonDown := decide (evt.action ≠ .up) } else s).afterMenu = s.afterMenu ∧
        (if evt.key.ofCamera then { s with cameraButtonDown := decide (evt.action ≠ .up) }
          else s).lastKeyDown = s.lastKeyDown := by
      split_ifs <;> exact ⟨rfl, rfl⟩
    generalize (if evt.key.ofCamera then
      { s with cameraButtonDown := decide (evt.action ≠ .up) } else s) = t at hcamera hafter
    rw [if_pos hcamera.inNormalProtocol]
    by_cases halt : evt.key.ofAlt
    · rw [if_pos halt]
      exact hcamera.untranslated (fun ht => ht.2.2 halt) rfl hcamera.presses
        (hcamera.wheel.key hvolume) hcamera.modifiers
    · rw [if_neg halt]
      refine hcamera.sendKey ⟨hmenu, hvolume, halt⟩ fun hup ht => ?_
      rw [hafter.1, hafter.2]
      exact hmatched hup ht

/-- The physical keys that are down after some events. -/
def heldAfter (events : List Event) : List PhysicalKey := events.foldl held []

/-- In a run whose events are all matched, every keysym that was pressed has been released by the
time all the physical keys are up. -/
theorem released_run (chars : KeyEvent.CharacterMap) (events : List Event)
    (hmatched : AllMatched chars .init [] events) (hup : heldAfter events = []) :
    ∃ messages, Message.read (init.run chars events).rfb.os = some messages ∧
      Message.pressed messages = ∅ := by
  have hrun (events : List Event) (s : Canvas) (keys : List PhysicalKey)
      (ds : List (PhysicalKey × BitVec 32)) (h : Accounted s keys ds)
      (hm : AllMatched chars s ds events) : ∃ ds',
      Accounted (s.run chars events) (events.foldl held keys) ds' := by
    induction events generalizing s keys ds with
    | nil => exact ⟨ds, h⟩
    | cons e events ih => exact ih _ _ _ (h.step hm.1) hm.2
  obtain ⟨ds, h⟩ := hrun events .init [] [] .init hmatched
  rw [show events.foldl held [] = [] from hup] at h
  obtain ⟨messages, hread, hpressed⟩ := h.presses
  have hmask : (init.run chars events).pointerMask = 0 := by
    obtain ⟨a, b, hmask, hdown, hup⟩ := h.wheel
    cases a <;> cases b <;> simp_all
  have hold : (init.run chars events).rfb.oldModifiers = 0 := by
    by_contra hne
    rcases h.modifiers hne with ⟨k, hk, -⟩ | hne
    · simp at hk
    · exact hne hmask
  refine ⟨messages, hread, Finset.eq_empty_of_forall_notMem fun x hx => ?_⟩
  rcases hpressed x hx with hmod | ⟨d, hd, -⟩
  · exact not_modified_zero x (hold ▸ hmod)
  · simpa using (h.keysyms d hd).2.2

/-- A keyboard with the letter `a`. -/
def letterA : KeyEvent.CharacterMap := fun keyCode => if keyCode = 29 then 0x61 else 0

/-- A key event of the left Shift key. -/
def shiftKey (action : Action) (metaState : BitVec 32) : Event :=
  .key ⟨⟨42, 59⟩, action, metaState, 0⟩

/-- A key event of the letter. -/
def aKey (action : Action) (metaState : BitVec 32) : Event :=
  .key ⟨⟨30, 29⟩, action, metaState, if metaState &&& 1 = 1 then 0x41 else 0x61⟩

/-- The letter with Ctrl, which is released first. -/
theorem released_run_ctrl :
    let events := [Event.key ⟨⟨29, 113⟩, .down, 0x1000, 0⟩, aKey .down 0x1000,
      .key ⟨⟨29, 113⟩, .up, 0, 0⟩, aKey .up 0]
    ∃ messages, Message.read (init.run letterA events).rfb.os = some messages ∧
      Message.pressed messages = ∅ :=
  released_run letterA _ (by decide) (by decide)

/-- The letter with Shift, which is released first: the capital letter stays pressed. -/
theorem not_released_shift :
    let events := [shiftKey .down 1, aKey .down 1, shiftKey .up 0, aKey .up 0]
    ¬ (heldAfter events = [] → ∃ messages,
      Message.read (init.run letterA events).rfb.os = some messages ∧
        Message.pressed messages = ∅) := by
  intro events h
  obtain ⟨messages, hread, hpressed⟩ := h (by decide)
  have hsent : Message.read (init.run letterA events).rfb.os =
      some [.key 0xffe1 true, .key 0x41 true, .key 0xffe1 false, .key 0x61 false] := by decide
  obtain rfl := Option.some.inj (hread.symm.trans hsent)
  exact absurd hpressed (by decide)

end Canvas

end Limbo.Vnc
