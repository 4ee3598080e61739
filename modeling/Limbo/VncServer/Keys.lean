import Mathlib

/-!
# The keys of a client

Key events of a client go as scancodes to the keyboard of the guest while the graphic console is
selected, and to the text console otherwise. Ctrl-Alt and a digit select a console.
-/

namespace Limbo.VncServer

/-! ### The keyboard of the guest -/

/-- A key of the guest goes down or up. -/
structure Stroke where
  key : ℕ
  down : Bool
deriving DecidableEq, Repr

/-- What the guest has read of the scancodes. `grey` is set after `SCANCODE_EMUL0`, which belongs to
the code that follows. -/
structure GuestKeyboard where
  grey : Bool
  strokes : List Stroke
deriving DecidableEq, Repr

def GuestKeyboard.read (g : GuestKeyboard) (code : ℕ) : GuestKeyboard :=
  if code = 0xe0 then { g with grey := true }
  else ⟨false, g.strokes ++ [⟨code % 128 + if g.grey then 128 else 0, code < 128⟩]⟩

/-- Every press of the key is followed by a release of it. -/
def Released (key : ℕ) (strokes : List Stroke) : Prop :=
  ∀ pre post, strokes = pre ++ ⟨key, true⟩ :: post → ⟨key, false⟩ ∈ post

/-- The last stroke of the key is a press. -/
def held (key : ℕ) (strokes : List Stroke) : Bool :=
  strokes.foldl (fun h stroke => if stroke.key = key then stroke.down else h) false

@[simp] lemma held_nil (key : ℕ) : held key [] = false := rfl

@[simp] lemma held_concat (key : ℕ) (strokes : List Stroke) (stroke : Stroke) :
    held key (strokes ++ [stroke]) = if stroke.key = key then stroke.down else held key strokes := by
  simp [held]

lemma released_iff_not_held {key : ℕ} {strokes : List Stroke} :
    Released key strokes ↔ held key strokes = false := by
  induction strokes using List.reverseRecOn with
  | nil => simp [Released]
  | append_singleton strokes stroke ih =>
    rw [held_concat]
    constructor
    · intro h
      split_ifs with hkey
      · -- a press at the end has nothing after it
        by_contra hdown
        have := h strokes [] (by rw [← hkey, ← Bool.eq_true_of_not_eq_false hdown])
        cases this
      · refine ih.mp fun pre post heq => ?_
        have hmem := h pre (post ++ [stroke]) (by rw [heq]; simp)
        rcases List.mem_append.mp hmem with hmem | hmem
        · exact hmem
        · exact absurd (congrArg Stroke.key (List.mem_singleton.mp hmem)).symm hkey
    · intro h pre post heq
      rcases List.eq_nil_or_concat post with rfl | ⟨post', last, rfl⟩
      · obtain ⟨-, hlast⟩ := List.append_inj' heq rfl
        rw [List.singleton_inj.mp hlast] at h
        simp at h
      · have hconcat : strokes ++ [stroke] = (pre ++ ⟨key, true⟩ :: post') ++ [last] := by
          simpa using heq
        obtain ⟨hstrokes, hlast⟩ := List.append_inj' hconcat rfl
        rw [List.concat_eq_append]
        split_ifs at h with hkey
        · rw [← List.singleton_inj.mp hlast, ← h, ← hkey]
          simp
        · exact List.mem_append_left _ (ih.mpr h pre post' hstrokes)

instance (key : ℕ) (strokes : List Stroke) : Decidable (Released key strokes) :=
  decidable_of_iff _ released_iff_not_held.symm

/-! ### The server -/

inductive ConsoleType where
  | graphic | text | textFixedSize
deriving DecidableEq, Repr

/-- The keymap that `init_keyboard_layout()` has read. -/
structure KbdLayout where
  keysym2scancode : ℕ → ℕ
  keycodeIsKeypad : ℕ → Bool
  keysymIsNumlock : ℕ → Bool

/-- What the key events do not change: whether `keyboard_layout` is set, the keymap, the option
`lock_key_sync` and the consoles. -/
structure KbdConfig where
  keyboardLayout : Bool
  kbdLayout : KbdLayout
  lockKeySync : Bool
  consoles : List ConsoleType

structure KeyState where
  modifiersState : ℕ → Bool
  activeConsole : Option ConsoleType
  /-- The machine is running or suspended. -/
  running : Bool
  guest : GuestKeyboard
  /-- What the text console has been given. -/
  keysyms : List ℤ

namespace KeyState

/-- `vnc_connect()` -/
def init (activeConsole : Option ConsoleType) (running : Bool) : KeyState :=
  ⟨fun _ => false, activeConsole, running, ⟨false, []⟩, []⟩

def isGraphicConsole (s : KeyState) : Bool := s.activeConsole = some .graphic

/-- `kbd_put_keycode()`. The queue of the keyboard is one of bytes. -/
def kbdPutKeycode (s : KeyState) (keycode : ℕ) : KeyState :=
  if s.running then { s with guest := s.guest.read (keycode % 256) } else s

def kbdPutKeysym (s : KeyState) (keysym : ℤ) : KeyState :=
  { s with keysyms := s.keysyms ++ [keysym] }

def setModifier (s : KeyState) (keycode : ℕ) (down : Bool) : KeyState :=
  { s with modifiersState := Function.update s.modifiersState keycode down }

/-- `SCANCODE_EMUL0` for a grey key. -/
def putGrey (s : KeyState) (keycode : ℕ) : KeyState :=
  if keycode &&& 0x80 ≠ 0 then s.kbdPutKeycode 0xe0 else s

def putDown (s : KeyState) (keycode : ℕ) : KeyState :=
  (s.putGrey keycode).kbdPutKeycode (keycode &&& 0x7f)

def putUp (s : KeyState) (keycode : ℕ) : KeyState :=
  (s.putGrey keycode).kbdPutKeycode (keycode ||| 0x80)

def resetKeys (s : KeyState) : KeyState :=
  (List.range 256).foldl
    (fun s i => if s.modifiersState i then (s.putUp i).setModifier i false else s) s

def pressKey (s : KeyState) (cfg : KbdConfig) (keysym : ℕ) : KeyState :=
  let keycode := cfg.kbdLayout.keysym2scancode keysym &&& 0xff
  (s.putDown keycode).putUp keycode

def consoleSelect (s : KeyState) (cfg : KbdConfig) (index : ℕ) : KeyState :=
  if index ≥ 12 then s
  else
    match cfg.consoles[index]? with
    | some console => { s with activeConsole := some console }
    | none => s

/-- `kbd_leds()` -/
def kbdLeds (s : KeyState) (caps num : Bool) : KeyState :=
  (s.setModifier 0x3a caps).setModifier 0x45 num

/-! ### Key events -/

/-- Shift, Ctrl and Alt, left and right. -/
def modifierKeys : List ℕ := [0x2a, 0x36, 0x1d, 0x9d, 0x38, 0xb8]

/-- The state of NumLock that the key needs. -/
def syncNumLock (s : KeyState) (cfg : KbdConfig) (down : Bool) (keycode : ℕ) (sym : UInt32) :
    KeyState :=
  if down ∧ cfg.lockKeySync ∧ cfg.kbdLayout.keycodeIsKeypad keycode then
    let numlock := cfg.kbdLayout.keysymIsNumlock (sym.toNat &&& 0xffff)
    if s.modifiersState 0x45 ≠ numlock then (s.setModifier 0x45 numlock).pressKey cfg 0xff7f else s
  else s

def isUpper (sym : UInt32) : Bool := 0x41 ≤ sym ∧ sym ≤ 0x5a

def isLower (sym : UInt32) : Bool := 0x61 ≤ sym ∧ sym ≤ 0x7a

/-- The state of CapsLock that the letter needs. -/
def syncCapsLock (s : KeyState) (cfg : KbdConfig) (down : Bool) (sym : UInt32) : KeyState :=
  if down ∧ cfg.lockKeySync ∧ (isUpper sym ∨ isLower sym) then
    let uppercase := isUpper sym
    let shift := s.modifiersState 0x2a || s.modifiersState 0x36
    if s.modifiersState 0x3a then
      if uppercase = shift then (s.setModifier 0x3a false).pressKey cfg 0xffe5 else s
    else
      if uppercase ≠ shift then (s.setModifier 0x3a true).pressKey cfg 0xffe5 else s
  else s

/-- `QEMU_KEY_ESC1()` -/
def qemuKeyEsc1 (c : ℤ) : ℤ := 0xe100 + c

/-- What the emulation of the text console makes of a key. -/
def consoleKeysym (numlock control : Bool) (keycode : ℕ) (sym : UInt32) : Option ℤ :=
  if keycode ∈ modifierKeys then none
  else some <| match keycode with
    | 0xc8 => qemuKeyEsc1 0x41
    | 0xd0 => qemuKeyEsc1 0x42
    | 0xcb => qemuKeyEsc1 0x44
    | 0xcd => qemuKeyEsc1 0x43
    | 0xd3 => qemuKeyEsc1 3
    | 0xc7 => qemuKeyEsc1 1
    | 0xcf => qemuKeyEsc1 4
    | 0xc9 => qemuKeyEsc1 5
    | 0xd1 => qemuKeyEsc1 6
    | 0x47 => if numlock then 0x37 else qemuKeyEsc1 1
    | 0x48 => if numlock then 0x38 else qemuKeyEsc1 0x41
    | 0x49 => if numlock then 0x39 else qemuKeyEsc1 5
    | 0x4b => if numlock then 0x34 else qemuKeyEsc1 0x44
    | 0x4c => 0x35
    | 0x4d => if numlock then 0x36 else qemuKeyEsc1 0x43
    | 0x4f => if numlock then 0x31 else qemuKeyEsc1 4
    | 0x50 => if numlock then 0x32 else qemuKeyEsc1 0x42
    | 0x51 => if numlock then 0x33 else qemuKeyEsc1 6
    | 0x52 => 0x30
    | 0x53 => if numlock then 0x2e else qemuKeyEsc1 3
    | 0xb5 => 0x2f
    | 0x37 => 0x2a
    | 0x4a => 0x2d
    | 0x4e => 0x2b
    | 0x9c => 0x0a
    | _ => if control then (sym.toNat &&& 0x1f : ℕ) else sym.toBitVec.toInt

/-- The end of `do_key_event()`: the key goes to the guest or to the text console. -/
def deliver (s : KeyState) (down : Bool) (keycode : ℕ) (sym : UInt32) : KeyState :=
  if s.isGraphicConsole then
    if down then s.putDown keycode else s.putUp keycode
  else if down then
    let control := s.modifiersState 0x1d || s.modifiersState 0x9d
    match consoleKeysym (s.modifiersState 0x45) control keycode sym with
    | some keysym => s.kbdPutKeysym keysym
    | none => s
  else s

/-- The rest of `do_key_event()` for a key that does not select a console. -/
def sendKey (s : KeyState) (cfg : KbdConfig) (down : Bool) (keycode : ℕ) (sym : UInt32) :
    KeyState :=
  ((s.syncNumLock cfg down keycode sym).syncCapsLock cfg down sym).deliver down keycode sym

/-- The key is a digit that goes down while Ctrl and Alt are. -/
def Switches (s : KeyState) (down : Bool) (keycode : ℕ) : Prop :=
  (0x02 ≤ keycode ∧ keycode ≤ 0x0a) ∧ down ∧ s.modifiersState 0x1d ∧ s.modifiersState 0x38

instance (s : KeyState) (down : Bool) (keycode : ℕ) : Decidable (s.Switches down keycode) :=
  inferInstanceAs (Decidable ((_ ∧ _) ∧ _))

def doKeyEvent (s : KeyState) (cfg : KbdConfig) (down : Bool) (keycode : ℕ) (sym : UInt32) :
    KeyState :=
  if keycode ∈ modifierKeys then (s.setModifier keycode down).sendKey cfg down keycode sym
  else if s.Switches down keycode then s.resetKeys.consoleSelect cfg (keycode - 0x02)
  else if (keycode = 0x3a ∨ keycode = 0x45) ∧ down then
    (s.setModifier keycode !(s.modifiersState keycode)).sendKey cfg down keycode sym
  else s.sendKey cfg down keycode sym

def vncReleaseModifiers (s : KeyState) : KeyState :=
  if s.isGraphicConsole then
    modifierKeys.foldl (fun s keycode => if s.modifiersState keycode then s.putUp keycode else s) s
  else s

/-- The keycode of a symbol; capital letters stand for their keys on the graphic console. -/
def symKeycode (cfg : KbdConfig) (graphic : Bool) (sym : UInt32) : ℕ :=
  let lsym := if isUpper sym ∧ graphic then sym.toNat + 0x20 else sym.toNat
  cfg.kbdLayout.keysym2scancode (lsym &&& 0xffff) &&& 0xff

def keyEvent (s : KeyState) (cfg : KbdConfig) (down : Bool) (sym : UInt32) : KeyState :=
  s.doKeyEvent cfg down (symKeycode cfg s.isGraphicConsole sym) sym

def extKeyEvent (s : KeyState) (cfg : KbdConfig) (down : Bool) (sym : UInt32) (keycode : UInt16) :
    KeyState :=
  if cfg.keyboardLayout then s.keyEvent cfg down sym else s.doKeyEvent cfg down keycode.toNat sym

end KeyState

end Limbo.VncServer
