import Mathlib

/-!
# Key and pointer events

`RfbProto` sends every key and pointer event with the key events of the modifiers around it that
have changed since the event before. The server takes the bytes apart again and remembers the keys
that are pressed.
-/

namespace Limbo.Vnc

/-! ### The messages -/

/-- A key event or a pointer event, as the server takes it from the bytes. -/
inductive Message where
  | key (keysym : BitVec 32) (down : Bool)
  | pointer (x y : BitVec 16) (buttonMask : UInt8)
deriving DecidableEq, Repr

namespace Message

/-- The messages in some bytes, `none` when they end inside a message or start another one. -/
def read : List UInt8 → Option (List Message)
  | [] => some []
  | 4 :: down :: _ :: _ :: b3 :: b2 :: b1 :: b0 :: rest =>
    (read rest).map
      (key (b3.toBitVec ++ b2.toBitVec ++ b1.toBitVec ++ b0.toBitVec) (down ≠ 0) :: ·)
  | 5 :: buttonMask :: x1 :: x0 :: y1 :: y0 :: rest =>
    (read rest).map
      (pointer (x1.toBitVec ++ x0.toBitVec) (y1.toBitVec ++ y0.toBitVec) buttonMask :: ·)
  | _ => none

/-- The keys that are pressed after a message. -/
def press (pressed : Finset (BitVec 32)) : Message → Finset (BitVec 32)
  | key keysym true => insert keysym pressed
  | key keysym false => pressed.erase keysym
  | pointer _ _ _ => pressed

/-- The keys that are pressed after some messages. -/
def pressed (messages : List Message) : Finset (BitVec 32) := messages.foldl press ∅

end Message

/-! ### The modifiers -/

inductive Modifier where
  | ctrl
  | shift
  | metaKey
  | alt
deriving DecidableEq, Repr

namespace Modifier

def keysym : Modifier → BitVec 32
  | ctrl => 0xffe3
  | shift => 0xffe1
  | metaKey => 0xffe7
  | alt => 0xffe9

/-- `CTRL_MASK`, `SHIFT_MASK`, `META_MASK` and `ALT_MASK`. -/
def mask : Modifier → BitVec 32
  | ctrl => 4
  | shift => 1
  | metaKey => 0
  | alt => 2

/-- The modifier is in a set of modifiers. -/
def On (m : Modifier) (modifiers : BitVec 32) : Prop := modifiers &&& m.mask ≠ 0

instance (m : Modifier) (modifiers : BitVec 32) : Decidable (m.On modifiers) :=
  inferInstanceAs (Decidable (_ ≠ _))

end Modifier

/-! ### `RfbProto` -/

/-- `(byte) ((n >> k) & 0xff)`. -/
def byteAt (n : BitVec 32) (k : ℕ) : UInt8 := .ofBitVec (n.extractLsb' k 8)

/-- The fields of `RfbProto` that events are written with, and the bytes written so far. -/
structure RfbProto where
  /-- The first `eventBufLen` bytes. -/
  eventBuf : List UInt8
  oldModifiers : BitVec 32
  os : List UInt8
deriving DecidableEq, Repr

namespace RfbProto

def init : RfbProto := ⟨[], 0, []⟩

/-- `writeKeyEvent(keysym, down)`, which adds a key event to the buffer. -/
def putKeyEvent (keysym : BitVec 32) (down : Bool) (s : RfbProto) : RfbProto :=
  { s with eventBuf := s.eventBuf ++ [4, if down then 1 else 0, 0, 0, byteAt keysym 24,
      byteAt keysym 16, byteAt keysym 8, byteAt keysym 0] }

/-- One comparison of `writeModifierKeyEvents`. -/
def putModifier (newModifiers : BitVec 32) (s : RfbProto) (m : Modifier) : RfbProto :=
  if newModifiers &&& m.mask ≠ s.oldModifiers &&& m.mask then
    s.putKeyEvent m.keysym (newModifiers &&& m.mask ≠ 0)
  else s

/-- `writeModifierKeyEvents(newModifiers)`. -/
def writeModifierKeyEvents (newModifiers : BitVec 32) (s : RfbProto) : RfbProto :=
  { [Modifier.ctrl, .shift, .metaKey, .alt].foldl (putModifier newModifiers) s with
    oldModifiers := newModifiers }

/-- `os.write(eventBuf, 0, eventBufLen)`. -/
def flush (s : RfbProto) : RfbProto := { s with os := s.os ++ s.eventBuf }

/-- `writePointerEvent`, before it writes the buffer. -/
def fillPointerEvent (x y modifiers pointerMask : BitVec 32) (s : RfbProto) : RfbProto :=
  let s := s.writeModifierKeyEvents modifiers
  let s := { s with eventBuf := s.eventBuf ++ [5, byteAt pointerMask 0, byteAt x 8, byteAt x 0,
    byteAt y 8, byteAt y 0] }
  if pointerMask = 0 then s.writeModifierKeyEvents 0 else s

/-- `writePointerEvent(x, y, modifiers, pointerMask)`. -/
def writePointerEvent (x y modifiers pointerMask : BitVec 32) (s : RfbProto) : RfbProto :=
  (fillPointerEvent x y modifiers pointerMask { s with eventBuf := [] }).flush

/-- `writeKeyEvent`, before it writes the buffer. -/
def fillKeyEvent (keySym metaState : BitVec 32) (down : Bool) (s : RfbProto) : RfbProto :=
  let s := if down then s.writeModifierKeyEvents metaState else s
  let s := if keySym ≠ 0 then s.putKeyEvent keySym down else s
  if down then s else s.writeModifierKeyEvents 0

/-- `writeKeyEvent(keySym, metaState, down)`. -/
def writeKeyEvent (keySym metaState : BitVec 32) (down : Bool) (s : RfbProto) : RfbProto :=
  (fillKeyEvent keySym metaState down { s with eventBuf := [] }).flush

/-- A call of one of the two methods. -/
inductive Call where
  | key (keySym metaState : BitVec 32) (down : Bool)
  | pointer (x y modifiers pointerMask : BitVec 32)
deriving DecidableEq, Repr

def call (s : RfbProto) : Call → RfbProto
  | .key keySym metaState down => s.writeKeyEvent keySym metaState down
  | .pointer x y modifiers pointerMask => s.writePointerEvent x y modifiers pointerMask

/-- One call after the other. -/
def run (s : RfbProto) (calls : List Call) : RfbProto := calls.foldl call s

/-- A key-up or a pointer event without a button. -/
def Call.Releases : Call → Prop
  | .key _ _ down => down = false
  | .pointer _ _ _ pointerMask => pointerMask = 0

/-- The keysym of a key event is the one of a modifier. -/
def Call.OfModifier : Call → Prop
  | .key keySym _ _ => ∃ m : Modifier, keySym = m.keysym
  | .pointer _ _ _ _ => False

end RfbProto

/-! ### The bytes of a message -/

lemma byteAt_append (n : BitVec 32) : (byteAt n 24).toBitVec ++ (byteAt n 16).toBitVec ++
    (byteAt n 8).toBitVec ++ (byteAt n 0).toBitVec = n := calc
  _ = n.extractLsb' 16 16 ++ n.extractLsb' 8 8 ++ n.extractLsb' 0 8 :=
    congrArg (· ++ n.extractLsb' 8 8 ++ n.extractLsb' 0 8)
      (BitVec.extractLsb'_append_extractLsb'_eq_extractLsb' (x := n) (h := rfl))
  _ = n.extractLsb' 8 24 ++ n.extractLsb' 0 8 :=
    congrArg (· ++ n.extractLsb' 0 8)
      (BitVec.extractLsb'_append_extractLsb'_eq_extractLsb' (x := n) (h := rfl))
  _ = n.extractLsb' 0 32 := BitVec.extractLsb'_append_extractLsb'_eq_extractLsb' rfl
  _ = n := BitVec.extractLsb'_eq_self

lemma byteAt_append_setWidth (n : BitVec 32) :
    (byteAt n 8).toBitVec ++ (byteAt n 0).toBitVec = n.setWidth 16 :=
  BitVec.extractLsb'_append_extractLsb'_eq_extractLsb' rfl

namespace Message

/-- Messages can be read one part after the other. -/
lemma read_append {bs bs' : List UInt8} {messages messages' : List Message}
    (h : read bs = some messages) (h' : read bs' = some messages') :
    read (bs ++ bs') = some (messages ++ messages') := by
  induction bs using read.induct generalizing messages with
  | case1 =>
    cases h
    exact h'
  | case2 down _ _ b3 b2 b1 b0 rest ih =>
    obtain ⟨tail, htail, rfl⟩ := Option.map_eq_some_iff.mp h
    simp [read, ih htail]
  | case3 buttonMask x1 x0 y1 y0 rest ih =>
    obtain ⟨tail, htail, rfl⟩ := Option.map_eq_some_iff.mp h
    simp [read, ih htail]
  | case4 bs hnil hkey hpointer => simp [read] at h

end Message

/-! ### The messages of a call -/

namespace RfbProto

variable {s : RfbProto} {old new : BitVec 32}

/-- The key event that one comparison adds. -/
def change (old new : BitVec 32) (m : Modifier) : List Message :=
  if new &&& m.mask ≠ old &&& m.mask then [.key m.keysym (m.On new)] else []

/-- The key events that make the modifiers the new ones. -/
def changes (old new : BitVec 32) : List Message :=
  [Modifier.ctrl, .shift, .metaKey, .alt].flatMap (change old new)

/-- The messages of a call. -/
def Call.messages (old : BitVec 32) : Call → List Message
  | .key keySym metaState down =>
    (if down then changes old metaState else []) ++
      (if keySym ≠ 0 then [.key keySym down] else []) ++ if down then [] else changes old 0
  | .pointer x y modifiers pointerMask =>
    changes old modifiers ++
      [.pointer (x.setWidth 16) (y.setWidth 16) (byteAt pointerMask 0)] ++
      if pointerMask = 0 then changes modifiers 0 else []

/-- The modifiers that a call leaves. -/
def Call.modifiers : Call → BitVec 32
  | .key _ metaState down => if down then metaState else 0
  | .pointer _ _ modifiers pointerMask => if pointerMask = 0 then 0 else modifiers

/-- From one state to another the code adds some messages to the buffer and sets the modifiers. -/
structure Adds (s t : RfbProto) (messages : List Message) (modifiers : BitVec 32) : Prop where
  buffer : ∀ before, Message.read s.eventBuf = some before →
    Message.read t.eventBuf = some (before ++ messages)
  oldModifiers : t.oldModifiers = modifiers
  os : t.os = s.os

lemma Adds.refl (s : RfbProto) : Adds s s [] s.oldModifiers := ⟨by simp, rfl, rfl⟩

lemma Adds.trans {t u : RfbProto} {messages messages' : List Message}
    (h : Adds s t messages old) (h' : Adds t u messages' new) :
    Adds s u (messages ++ messages') new := by
  refine ⟨fun before hb => ?_, h'.oldModifiers, h'.os.trans h.os⟩
  rw [← List.append_assoc]
  exact h'.buffer _ (h.buffer before hb)

lemma adds_putKeyEvent (s : RfbProto) (keysym : BitVec 32) (down : Bool) :
    Adds s (s.putKeyEvent keysym down) [.key keysym down] s.oldModifiers := by
  refine ⟨fun before hb => Message.read_append hb ?_, rfl, rfl⟩
  cases down <;> simp [Message.read, byteAt_append]

lemma adds_putModifier (s : RfbProto) (new : BitVec 32) (m : Modifier) :
    Adds s (s.putModifier new m) (change s.oldModifiers new m) s.oldModifiers := by
  unfold putModifier change
  split_ifs with hne
  · exact adds_putKeyEvent s m.keysym _
  · exact Adds.refl s

lemma adds_putModifiers (new : BitVec 32) (ms : List Modifier) (s : RfbProto) :
    Adds s (ms.foldl (putModifier new) s) (ms.flatMap (change s.oldModifiers new))
      s.oldModifiers := by
  induction ms generalizing s with
  | nil => exact Adds.refl s
  | cons m ms ih =>
    have hm := adds_putModifier s new m
    have hms := ih (s.putModifier new m)
    rw [hm.oldModifiers] at hms
    exact hm.trans hms

lemma adds_writeModifierKeyEvents (s : RfbProto) (new : BitVec 32) :
    Adds s (s.writeModifierKeyEvents new) (changes s.oldModifiers new) new := by
  have h := adds_putModifiers new [.ctrl, .shift, .metaKey, .alt] s
  exact ⟨h.buffer, rfl, h.os⟩

lemma adds_fillKeyEvent (s : RfbProto) (keySym metaState : BitVec 32) (down : Bool) :
    Adds s (s.fillKeyEvent keySym metaState down)
      ((Call.key keySym metaState down).messages s.oldModifiers)
      (Call.key keySym metaState down).modifiers := by
  have hkey (t : RfbProto) : Adds t (if keySym ≠ 0 then t.putKeyEvent keySym down else t)
      (if keySym ≠ 0 then [.key keySym down] else []) t.oldModifiers := by
    split_ifs
    · exact adds_putKeyEvent t keySym down
    · exact Adds.refl t
  cases down with
  | true =>
    have hmod := adds_writeModifierKeyEvents s metaState
    have h := hmod.trans (hkey _)
    rw [hmod.oldModifiers] at h
    simpa [fillKeyEvent, Call.messages, Call.modifiers] using h
  | false =>
    have hmod := adds_writeModifierKeyEvents (if keySym ≠ 0 then s.putKeyEvent keySym false
      else s) 0
    rw [(hkey s).oldModifiers] at hmod
    simpa [fillKeyEvent, Call.messages, Call.modifiers] using (hkey s).trans hmod

lemma adds_fillPointerEvent (s : RfbProto) (x y modifiers pointerMask : BitVec 32) :
    Adds s (s.fillPointerEvent x y modifiers pointerMask)
      ((Call.pointer x y modifiers pointerMask).messages s.oldModifiers)
      (Call.pointer x y modifiers pointerMask).modifiers := by
  have hmod := adds_writeModifierKeyEvents s modifiers
  have hread : Message.read [5, byteAt pointerMask 0, byteAt x 8, byteAt x 0, byteAt y 8,
      byteAt y 0] = some [.pointer (x.setWidth 16) (y.setWidth 16) (byteAt pointerMask 0)] := by
    simp [Message.read, byteAt_append_setWidth]
  have hpointer (t : RfbProto) : Adds t { t with eventBuf := t.eventBuf ++ [5,
      byteAt pointerMask 0, byteAt x 8, byteAt x 0, byteAt y 8, byteAt y 0] }
      [.pointer (x.setWidth 16) (y.setWidth 16) (byteAt pointerMask 0)] t.oldModifiers :=
    ⟨fun before hb => Message.read_append hb hread, rfl, rfl⟩
  have hboth : Adds s _ _ modifiers := hmod.trans (hpointer _)
  simp only [fillPointerEvent, Call.messages, Call.modifiers]
  split_ifs with hmask
  · have hlast := hboth.trans (adds_writeModifierKeyEvents _ 0)
    rwa [hboth.oldModifiers] at hlast
  · rwa [List.append_nil]

/-- A call writes its messages and remembers its modifiers. -/
lemma call_spec (s : RfbProto) (c : Call) : ∃ t : RfbProto,
    Adds { s with eventBuf := [] } t (c.messages s.oldModifiers) c.modifiers ∧
      s.call c = t.flush := by
  cases c with
  | key keySym metaState down => exact ⟨_, adds_fillKeyEvent _ keySym metaState down, rfl⟩
  | pointer x y modifiers pointerMask =>
    exact ⟨_, adds_fillPointerEvent _ x y modifiers pointerMask, rfl⟩

end RfbProto

/-! ### The modifiers that the server sees -/

namespace Modifier

lemma keysym_injective : Function.Injective keysym := by
  intro m m' h
  cases m <;> cases m' <;> simp_all [keysym]

/-- Each mask has one bit or none. -/
lemma and_mask (m : Modifier) (modifiers : BitVec 32) :
    modifiers &&& m.mask = if m.On modifiers then m.mask else 0 := by
  have hbit (i : ℕ) (h : m.mask = BitVec.twoPow 32 i) :
      modifiers &&& m.mask = if m.On modifiers then m.mask else 0 := by
    split_ifs with hon
    · rw [On, h, BitVec.and_twoPow] at hon
      rw [h, BitVec.and_twoPow]
      split_ifs at hon ⊢ with hbit
      · rfl
      · exact absurd rfl hon
    · exact not_not.mp hon
  cases m with
  | ctrl => exact hbit 2 rfl
  | shift => exact hbit 0 rfl
  | metaKey => simp [mask]
  | alt => exact hbit 1 rfl

lemma and_mask_ne_iff (m : Modifier) (old new : BitVec 32) :
    new &&& m.mask ≠ old &&& m.mask ↔ ¬ (m.On new ↔ m.On old) := by
  by_cases hnew : m.On new <;> by_cases hold : m.On old <;> simp [and_mask, hnew, hold]
  · have hmask := and_mask m new
    rw [if_pos hnew] at hmask
    exact hmask ▸ hnew
  · have hmask := and_mask m old
    rw [if_pos hold] at hmask
    exact Ne.symm (hmask ▸ hold)

end Modifier

/-- A modifier goes down only when it is up and up only when it is down. -/
def Alternates : Finset (BitVec 32) → List Message → Prop
  | _, [] => True
  | pressed, message :: rest =>
    (∀ (m : Modifier) (down : Bool), message = .key m.keysym down →
      (down = true ↔ m.keysym ∉ pressed)) ∧ Alternates (message.press pressed) rest

lemma Alternates.append {pressed : Finset (BitVec 32)} {messages messages' : List Message}
    (h : Alternates pressed messages)
    (h' : Alternates (messages.foldl Message.press pressed) messages') :
    Alternates pressed (messages ++ messages') := by
  induction messages generalizing pressed with
  | nil => exact h'
  | cons message messages ih => exact ⟨h.1, ih h.2 h'⟩

/-- The modifiers that are pressed are these. -/
def Agrees (pressed : Finset (BitVec 32)) (modifiers : BitVec 32) : Prop :=
  ∀ m : Modifier, m.keysym ∈ pressed ↔ m.On modifiers

lemma Agrees.init : Agrees ∅ 0 := by
  intro m
  simp [Modifier.On]

/-- Messages that are no key events of modifiers change nothing. -/
lemma Agrees.press {pressed : Finset (BitVec 32)} {modifiers : BitVec 32} {message : Message}
    (h : Agrees pressed modifiers) (hkey : ∀ (m : Modifier) (down : Bool),
      message ≠ .key m.keysym down) : Agrees (message.press pressed) modifiers := by
  intro m
  rw [← h m]
  cases message with
  | pointer x y buttonMask => rfl
  | key keysym down =>
    have hne : m.keysym ≠ keysym := fun heq => hkey m down (heq ▸ rfl)
    cases down <;> simp [Message.press, hne]

namespace RfbProto

variable {old new : BitVec 32}

/-- The messages take the server from one set of modifiers to the other. -/
structure Sends (pressed : Finset (BitVec 32)) (messages : List Message) (modifiers : BitVec 32) :
    Prop where
  alternates : Alternates pressed messages
  agrees : Agrees (messages.foldl Message.press pressed) modifiers

lemma Sends.append {pressed : Finset (BitVec 32)} {messages messages' : List Message}
    (h : Sends pressed messages old)
    (h' : Sends (messages.foldl Message.press pressed) messages' new) :
    Sends pressed (messages ++ messages') new := by
  refine ⟨h.alternates.append h'.alternates, ?_⟩
  rw [List.foldl_append]
  exact h'.agrees

lemma Sends.nil {pressed : Finset (BitVec 32)} (h : Agrees pressed old) : Sends pressed [] old :=
  ⟨trivial, h⟩

/-- A message that is no key event of a modifier. -/
lemma Sends.other {pressed : Finset (BitVec 32)} (h : Agrees pressed old) {message : Message}
    (hkey : ∀ (m : Modifier) (down : Bool), message ≠ .key m.keysym down) :
    Sends pressed [message] old :=
  ⟨⟨fun m down heq => absurd heq (hkey m down), trivial⟩, h.press hkey⟩

/-- The comparisons for some of the modifiers, once the others agree with the new ones. -/
lemma changes_spec (ms : List Modifier) (hnodup : ms.Nodup) (pressed : Finset (BitVec 32))
    (h : ∀ m : Modifier, m.keysym ∈ pressed ↔ if m ∈ ms then m.On old else m.On new) :
    Sends pressed (ms.flatMap (change old new)) new := by
  induction ms generalizing pressed with
  | nil => exact .nil (by simpa [Agrees] using h)
  | cons m ms ih =>
    obtain ⟨hm, hnodup'⟩ := List.nodup_cons.mp hnodup
    rw [List.flatMap_cons]
    by_cases hne : m.On new ↔ m.On old
    · have hnone : change old new m = [] := by
        rw [change, if_neg (by rw [m.and_mask_ne_iff]; exact not_not.mpr hne)]
      rw [hnone]
      refine ih hnodup' pressed fun m' => ?_
      rw [h m']
      by_cases heq : m' = m
      · subst heq
        simp [hm, hne]
      · simp [heq]
    · have hone : change old new m = [.key m.keysym (m.On new)] := by
        rw [change, if_pos ((m.and_mask_ne_iff old new).mpr hne)]
      have hold : m.keysym ∈ pressed ↔ m.On old := by simpa using h m
      rw [hone]
      have hrest := ih hnodup' (Message.press pressed (.key m.keysym (m.On new))) fun m' => ?_
      · refine ⟨Alternates.append ⟨fun m' down heq => ?_, trivial⟩ hrest.alternates,
          hrest.agrees⟩
        obtain ⟨hk, rfl⟩ := Message.key.inj heq
        rw [← hk, hold]
        by_cases hon : m.On new <;> simp_all
      · by_cases heq : m' = m
        · subst heq
          by_cases hon : m'.On new <;> simp [Message.press, hm, hon]
        · have hkey : m'.keysym ≠ m.keysym := fun hk => heq (Modifier.keysym_injective hk)
          have hm' := h m'
          by_cases hon : m.On new <;> simpa [Message.press, hkey, heq, hon] using hm'

lemma sends_changes {pressed : Finset (BitVec 32)} (h : Agrees pressed old) (new : BitVec 32) :
    Sends pressed (changes old new) new :=
  changes_spec _ (by decide) pressed fun m => by
    rw [h m]
    cases m <;> simp

/-- What a call sends keeps the two sides in agreement. -/
lemma sends_messages {c : Call} (hc : ¬ c.OfModifier) {pressed : Finset (BitVec 32)}
    (h : Agrees pressed old) : Sends pressed (c.messages old) c.modifiers := by
  cases c with
  | key keySym metaState down =>
    have hkey {modifiers : BitVec 32} {pressed : Finset (BitVec 32)}
        (h : Agrees pressed modifiers) : Sends pressed (if keySym ≠ 0 then [.key keySym down] else []) modifiers := by
      split_ifs
      · exact .other h fun m down heq => hc ⟨m, (Message.key.inj heq).1⟩
      · exact .nil h
    cases down with
    | true =>
      have hmod := sends_changes h metaState
      have hboth := hmod.append (hkey hmod.agrees)
      simpa [Call.messages, Call.modifiers] using hboth
    | false =>
      have hboth := (hkey h).append (sends_changes (hkey h).agrees 0)
      simpa [Call.messages, Call.modifiers] using hboth
  | pointer x y modifiers pointerMask =>
    have hmod := sends_changes h modifiers
    have hpointer : Sends _ [.pointer (x.setWidth 16) (y.setWidth 16) (byteAt pointerMask 0)]
        modifiers := .other hmod.agrees (by simp)
    have hboth := hmod.append hpointer
    simp only [Call.messages, Call.modifiers]
    split_ifs
    · exact hboth.append (sends_changes hboth.agrees 0)
    · rwa [List.append_nil]

/-! ### Runs of calls -/

/-- What the server has read are messages that alternate and leave the modifiers pressed that are
remembered. -/
def InStep (s : RfbProto) (messages : List Message) : Prop :=
  Message.read s.os = some messages ∧ Sends ∅ messages s.oldModifiers

lemma InStep.call {s : RfbProto} {messages : List Message} (h : InStep s messages) {c : Call}
    (hc : ¬ c.OfModifier) : InStep (s.call c) (messages ++ c.messages s.oldModifiers) := by
  obtain ⟨t, ht, heq⟩ := call_spec s c
  rw [heq]
  refine ⟨Message.read_append ?_ (ht.buffer [] rfl), ?_⟩
  · rw [ht.os]
    exact h.1
  · have hsends := h.2.append (sends_messages hc h.2.agrees)
    rw [← ht.oldModifiers] at hsends
    exact hsends

lemma length_putModifiers (new : BitVec 32) (ms : List Modifier) (s : RfbProto) :
    (ms.foldl (putModifier new) s).eventBuf.length ≤ s.eventBuf.length + 8 * ms.length := by
  induction ms generalizing s with
  | nil => simp
  | cons m ms ih =>
    have hm : (s.putModifier new m).eventBuf.length ≤ s.eventBuf.length + 8 := by
      unfold putModifier
      split_ifs <;> simp [putKeyEvent]
    have hms := ih (s.putModifier new m)
    rw [List.foldl_cons, List.length_cons]
    omega

lemma length_writeModifierKeyEvents (s : RfbProto) (new : BitVec 32) :
    (s.writeModifierKeyEvents new).eventBuf.length ≤ s.eventBuf.length + 32 :=
  length_putModifiers new [.ctrl, .shift, .metaKey, .alt] s

/-- A call fills the buffer with no more than it holds: at most four key events before its message
and four after it. -/
lemma length_eventBuf_call (s : RfbProto) (c : Call) : (s.call c).eventBuf.length ≤ 72 := by
  cases c with
  | key keySym metaState down =>
    simp only [call, writeKeyEvent, flush, fillKeyEvent]
    have hput (t : RfbProto) :
        (if keySym ≠ 0 then t.putKeyEvent keySym down else t).eventBuf.length ≤
          t.eventBuf.length + 8 := by
      split_ifs <;> simp [putKeyEvent]
    cases down with
    | true =>
      have hmod := length_writeModifierKeyEvents { s with eventBuf := [] } metaState
      have hkey := hput (writeModifierKeyEvents metaState { s with eventBuf := [] })
      simp only [List.length_nil] at hmod
      exact hkey.trans (by omega)
    | false =>
      have hkey := hput { s with eventBuf := [] }
      simp only [List.length_nil] at hkey
      exact (length_writeModifierKeyEvents _ 0).trans
        ((Nat.add_le_add_right hkey 32).trans (by norm_num))
  | pointer x y modifiers pointerMask =>
    have hmod := length_writeModifierKeyEvents { s with eventBuf := [] } modifiers
    simp only [List.length_nil] at hmod
    simp only [call, writePointerEvent, flush, fillPointerEvent]
    split_ifs
    · refine (length_writeModifierKeyEvents _ 0).trans ?_
      simp only [List.length_append, List.length_cons, List.length_nil]
      omega
    · simp only [List.length_append, List.length_cons, List.length_nil]
      omega

lemma run_append (s : RfbProto) (calls : List Call) (c : Call) :
    s.run (calls ++ [c]) = (s.run calls).call c := by
  rw [run, List.foldl_append]
  rfl

/-- After any calls the modifiers that the server sees pressed are the remembered ones, each went
down only when it was up and up only when it was down, none is pressed after a key-up or a pointer
event without a button, and no call fills more than the buffer. -/
theorem modifiers_run (calls : List Call) (hcalls : ∀ c ∈ calls, ¬ c.OfModifier) :
    ∃ messages, Message.read (init.run calls).os = some messages ∧ Alternates ∅ messages ∧
      Agrees (Message.pressed messages) (init.run calls).oldModifiers ∧
      (∀ c, calls.getLast? = some c → c.Releases →
        ∀ m : Modifier, m.keysym ∉ Message.pressed messages) ∧
      (init.run calls).eventBuf.length ≤ 72 := by
  induction calls using List.reverseRecOn with
  | nil => exact ⟨[], rfl, trivial, Agrees.init, by simp, by simp [run, init]⟩
  | append_singleton calls c ih =>
    obtain ⟨messages, hread, halt, hagrees, -, -⟩ :=
      ih fun d hd => hcalls d (List.mem_append_left _ hd)
    have hc : ¬ c.OfModifier := hcalls c (by simp)
    rw [run_append]
    obtain ⟨hread', hsends⟩ := InStep.call ⟨hread, halt, hagrees⟩ hc
    refine ⟨_, hread', hsends.alternates, hsends.agrees, fun d hd hrel m hm => ?_,
      length_eventBuf_call _ _⟩
    obtain rfl : c = d := by simpa using hd
    have hon := (hsends.agrees m).mp hm
    have hzero : ((init.run calls).call c).oldModifiers = 0 := by
      obtain ⟨t, ht, heq⟩ := call_spec (init.run calls) c
      rw [heq]
      refine ht.oldModifiers.trans ?_
      cases c <;> simp_all [Call.Releases, Call.modifiers]
    rw [hzero] at hon
    exact hon (by simp)

/-- Ctrl and Alt with a key, a drag with Shift and its end. -/
theorem modifiers_run_drag :
    let calls := [Call.key 0x61 6 true, .key 0x61 0 false, .pointer 10 20 1 1, .pointer 12 20 1 0]
    ∃ messages, Message.read (init.run calls).os = some messages ∧ Alternates ∅ messages ∧
      Agrees (Message.pressed messages) (init.run calls).oldModifiers ∧
      (∀ c, calls.getLast? = some c → c.Releases →
        ∀ m : Modifier, m.keysym ∉ Message.pressed messages) ∧
      (init.run calls).eventBuf.length ≤ 72 :=
  modifiers_run _ (by
    intro c hc
    fin_cases hc <;> simp only [Call.OfModifier, not_exists, not_false_eq_true] <;>
      intro m <;> cases m <;> decide)

/-- The key event of a modifier, as a call of its own: the server sees it pressed, and nothing
remembers it. -/
theorem not_agrees_of_modifier :
    ∃ messages, Message.read (init.run [.key 0xffe3 0 true]).os = some messages ∧
      ¬ Agrees (Message.pressed messages) (init.run [.key 0xffe3 0 true]).oldModifiers := by
  refine ⟨[.key 0xffe3 true], by decide, fun h => ?_⟩
  have hctrl := (h .ctrl).mp (by decide)
  exact absurd hctrl (by decide)

end RfbProto

end Limbo.Vnc
