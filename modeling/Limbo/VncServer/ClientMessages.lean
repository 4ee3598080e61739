import Limbo.Lib.Loop

/-!
# Messages from a client

The handler of client messages is called with the first byte of a message, and says how many bytes
it wants to be called again with. What has been read of the connection is kept until the handler has
taken a whole message.
-/

namespace Limbo.VncServer

open Lib

/-! ### The data of a message -/

def readU8 (data : List UInt8) (offset : ℕ) : ℕ := (data.getD offset 0).toNat

def readU16 (data : List UInt8) (offset : ℕ) : ℕ :=
  readU8 data offset * 2 ^ 8 + readU8 data (offset + 1)

def readU32 (data : List UInt8) (offset : ℕ) : ℕ :=
  readU8 data offset * 2 ^ 24 + readU8 data (offset + 1) * 2 ^ 16 +
    readU8 data (offset + 2) * 2 ^ 8 + readU8 data (offset + 3)

lemma readU8_lt (data : List UInt8) (i : ℕ) : readU8 data i < 2 ^ 8 := UInt8.toNat_lt _

lemma readU16_lt (data : List UInt8) (i : ℕ) : readU16 data i < 2 ^ 16 := by
  have h := readU8_lt data i
  have h' := readU8_lt data (i + 1)
  rw [readU16]
  omega

lemma readU32_lt (data : List UInt8) (i : ℕ) : readU32 data i < 2 ^ 32 := by
  have h := readU8_lt data i
  have h' := readU8_lt data (i + 1)
  have h'' := readU8_lt data (i + 2)
  have h''' := readU8_lt data (i + 3)
  rw [readU32]
  omega

/-- A number as an `int`. -/
def toInt (n : ℤ) : ℤ := n.bmod (2 ^ 32)

def readS32 (data : List UInt8) (offset : ℕ) : ℤ := toInt (readU32 data offset)

/-- What the handler of a message calls or sets. -/
inductive Call where
  | setPixelFormat (bitsPerPixel depth bigEndianFlag trueColorFlag redMax greenMax blueMax redShift
      greenShift blueShift : ℕ)
  | setEncodings (encodings : List ℤ)
  | framebufferUpdateRequest (incremental xPosition yPosition w h : ℕ)
  | keyEvent (down sym : ℕ)
  | pointerEvent (buttonMask x y : ℕ)
  | clientCutText (len : ℕ)
  | extKeyEvent (down sym keycode : ℕ)
  | audioAdd
  | audioDel
  | setFmt (fmt : ℕ)
  | setNchannels (nchannels : ℕ)
  | setFreq (freq : ℕ)
deriving DecidableEq, Repr

/-- The handler returns a number of bytes, or it is done and waits for the next message, unless it
has disconnected the client. -/
inductive Reply where
  | again (ret : ℤ)
  | done (calls : List Call) (connected : Bool)
deriving DecidableEq, Repr

/-! ### The handler -/

/-- `VNC_MSG_CLIENT_QEMU_AUDIO_SET_FORMAT` -/
def audioSetFormat (data : List UInt8) : Reply :=
  let fmt := readU8 data 4
  let nchannels := readU8 data 5
  let known := nchannels = 1 ∨ nchannels = 2
  .done ((if fmt ≤ 5 then [.setFmt fmt] else []) ++ .setNchannels nchannels ::
    if known then [.setFreq (readU32 data 6)] else []) (fmt ≤ 5 ∧ known)

def protocolClientMsg (data : List UInt8) (len : ℕ) : Reply :=
  match readU8 data 0 with
  | 0 =>
    if len = 1 then .again 20
    else .done [.setPixelFormat (readU8 data 4) (readU8 data 5) (readU8 data 6) (readU8 data 7)
      (readU16 data 8) (readU16 data 10) (readU16 data 12) (readU8 data 14) (readU8 data 15)
      (readU8 data 16)] (readU8 data 7 ≠ 0)
  | 2 =>
    if len = 1 then .again 4
    else
      let limit := readU16 data 2
      if len = 4 ∧ limit > 0 then .again (4 + limit * 4)
      else .done [.setEncodings ((List.range limit).map fun i => readS32 data (4 + i * 4))] true
  | 3 =>
    if len = 1 then .again 10
    else .done [.framebufferUpdateRequest (readU8 data 1) (readU16 data 2) (readU16 data 4)
      (readU16 data 6) (readU16 data 8)] true
  | 4 =>
    if len = 1 then .again 8 else .done [.keyEvent (readU8 data 1) (readU32 data 4)] true
  | 5 =>
    if len = 1 then .again 6
    else .done [.pointerEvent (readU8 data 1) (readU16 data 2) (readU16 data 4)] true
  | 6 =>
    if len = 1 then .again 8
    else
      let dlen := readU32 data 4
      if len = 8 ∧ dlen > 0 then .again (toInt (8 + dlen))
      else .done [.clientCutText dlen] true
  | 255 =>
    if len = 1 then .again 2
    else
      match readU8 data 1 with
      | 0 =>
        if len = 2 then .again 12
        else .done [.extKeyEvent (readU16 data 2) (readU32 data 4)
          (readU32 data 8 % 2 ^ 16)] true
      | 1 =>
        if len = 2 then .again 4
        else
          match readU16 data 2 with
          | 0 => .done [.audioAdd] true
          | 1 => .done [.audioDel] true
          | 2 => if len = 4 then .again 10 else audioSetFormat data
          | _ => .done [] false
      | _ => .done [] false
  | _ => .done [] false

/-! ### The loop -/

/-- A connection after the handshake. `consumed` are the bytes that have been taken off the input,
message by message. -/
structure Input where
  input : List UInt8
  expect : ℕ
  connected : Bool
  calls : List Call
  consumed : List (List UInt8)
deriving DecidableEq, Repr

/-- `size_t` -/
def toSize (wide : Bool) (n : ℤ) : ℕ := (n % (if wide then 2 ^ 64 else 2 ^ 32)).toNat

namespace Input

def init : Input := ⟨[], 1, true, [], []⟩

/-- `len` bytes are removed from the input. -/
def consume (s : Input) (len : ℕ) : Input :=
  { s with input := s.input.drop len, consumed := s.consumed ++ [s.input.take len] }

/-- What `vnc_client_read()` makes of the reply of the handler. -/
def answer (wide : Bool) (s : Input) (len : ℕ) : Reply → Input
  | .again ret => if ret = 0 then s.consume len else { s with expect := toSize wide ret }
  | .done calls connected =>
    let s := { s with expect := 1, calls := s.calls ++ calls }
    if connected then s.consume len else { s with connected := false }

/-- The body of the loop of `vnc_client_read()`. -/
def dispatch (wide : Bool) (s : Input) : Option Input :=
  if s.connected ∧ s.input.length ≥ s.expect then
    some (s.answer wide s.expect (protocolClientMsg s.input s.expect))
  else none

/-- `vnc_client_read()` with some bytes that have come. -/
def Read (wide : Bool) (s : Input) (bytes : List UInt8) (t : Input) : Prop :=
  if s.connected then Loop (dispatch wide) { s with input := s.input ++ bytes } t else t = s

/-- One read after the other. -/
inductive Reads (wide : Bool) : Input → List (List UInt8) → Input → Prop
  | nil (s : Input) : Reads wide s [] s
  | cons {s s' t : Input} {bytes : List UInt8} {chunks : List (List UInt8)}
      (first : s.Read wide bytes s') (rest : Reads wide s' chunks t) :
      Reads wide s (bytes :: chunks) t

end Input

end Limbo.VncServer
