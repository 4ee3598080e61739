import Limbo.Vnc.Decoders

/-!
# The protocol

The loop of `processNormalProtocol`: a message is read from the server and processed. Nothing of
what is shown to the user, and nothing of the scrolling of the large bitmap, reads from the server;
these are left out.
-/

namespace Limbo.Vnc

open Lib

variable {I : Inflater}

/-! ### Encodings -/

def encodingRaw : ℤ := 0
def encodingCopyRect : ℤ := 1
def encodingRRE : ℤ := 2
def encodingCoRRE : ℤ := 4
def encodingHextile : ℤ := 5
def encodingZlib : ℤ := 6
def encodingZRLE : ℤ := 16
def encodingCompressLevel0 : ℤ := -256
def encodingQualityLevel0 : ℤ := -32
def encodingXCursor : ℤ := -240
def encodingRichCursor : ℤ := -239
def encodingPointerPos : ℤ := -232
def encodingLastRect : ℤ := -224
def encodingNewFBSize : ℤ := -223
def maxNormalEncoding : ℤ := 255

/-! ### Messages of the server -/

def framebufferUpdate : ℕ := 0
def setColourMapEntries : ℕ := 1
def bell : ℕ := 2
def serverCutText : ℕ := 3
def textChat : ℕ := 11

/-- The header of a rectangle: `updateRectX` and the other fields. -/
structure RectHdr where
  x : ℕ
  y : ℕ
  w : ℕ
  h : ℕ
  encoding : ℤ

/-! ### Reading messages -/

def readServerMessageType : ConnM I ℕ := readUnsignedByte

/-- The number of rectangles. -/
def readFramebufferUpdate : ConnM I ℕ := do
  let _padding ← readUnsignedByte
  readUnsignedShort

/-- The rectangles that carry pixels, and the position of the pointer, have to be in the frame. -/
def RectHdr.isChecked (hdr : RectHdr) : Prop :=
  hdr.encoding = encodingPointerPos ∨ 0 ≤ hdr.encoding ∧ hdr.encoding ≤ maxNormalEncoding

instance (hdr : RectHdr) : Decidable hdr.isChecked := inferInstanceAs (Decidable (_ ∨ _))

def readFramebufferUpdateRectHdr : ConnM I RectHdr := do
  let x ← readUnsignedShort
  let y ← readUnsignedShort
  let w ← readUnsignedShort
  let h ← readUnsignedShort
  let encoding ← readInt
  let hdr : RectHdr := ⟨x, y, w, h, encoding⟩
  if hdr.isChecked then do
    let c ← get
    if x + w > c.framebufferWidth ∨ y + h > c.framebufferHeight then
      throw (.exception s!"Framebuffer update rectangle too large: {w}x{h} at ({x},{y})")
    else pure hdr
  else pure hdr

def setFramebufferSize (width height : ℕ) : ConnM I Unit :=
  modify fun c => { c with framebufferWidth := width, framebufferHeight := height }

/-- `readServerCutText`; a negative length cannot be allocated. -/
def readServerCutText : ConnM I (List UInt8) := do
  let _pad ← readFully 3
  let len ← readInt
  if len < 0 then throw .negativeArraySize else readFully len

/-! ### Writing to the server -/

def write (bs : List UInt8) : ConnM I Unit := modify fun c => { c with os := c.os ++ bs }

/-- The low sixteen bits, high byte first. -/
def shortBytes (z : ℤ) : List UInt8 := beBytes 2 (z % 65536).toNat

def flag (b : Bool) : UInt8 := if b then 1 else 0

def writeFramebufferUpdateRequest (x y : ℤ) (w h : ℕ) (incremental : Bool) : ConnM I Unit :=
  write ([3, flag incremental] ++ shortBytes x ++ shortBytes y ++ shortBytes w ++ shortBytes h)

def writeSetPixelFormat (p : PixelFormat) : ConnM I Unit :=
  write ([0, 0, 0, 0, p.bitsPerPixel, p.depth, flag p.bigEndian, flag p.trueColour] ++
    shortBytes p.redMax ++ shortBytes p.greenMax ++ shortBytes p.blueMax ++
    [p.redShift, p.greenShift, p.blueShift, flag p.fGreyScale, 0, 0])

def writeSetEncodings (encs : List ℤ) : ConnM I Unit :=
  write ([2, 0] ++ shortBytes encs.length ++ encs.flatMap intBytes)

def writeOpenChat : ConnM I Unit := write ([11, 0, 0, 0] ++ intBytes (-1))

/-- `readTextChatMsg`, without the text. -/
def readTextChatMsg : ConnM I Unit := do
  let _pad ← readFully 3
  let len ← readInt
  if len = -1 then writeOpenChat
  else if len > 0 then do
    let _msg ← readFully len
    pure ()
  else pure ()

/-- `bitmapData.writeFullUpdateRequest`. -/
def writeFullUpdateRequest (layout : Layout) (incremental : Bool) : ConnM I Unit :=
  match layout with
  | .full framebufferwidth framebufferheight =>
    writeFramebufferUpdateRequest 0 0 framebufferwidth framebufferheight incremental
  | .large xoffset yoffset bitmapwidth bitmapheight =>
    writeFramebufferUpdateRequest xoffset yoffset bitmapwidth bitmapheight incremental

/-- `setPixelFormat`: the pending colour model becomes the colour model. -/
def setPixelFormat (m : ColorModel) : ConnM I Unit := do
  writeSetPixelFormat m.pixelFormat
  modify fun c => { c with colorModel := m, pendingColorModel := none }

/-- The encodings that `setEncodings` asks for. -/
def Conn.encodings (c : Conn I) (preferredEncoding : ℤ) : List ℤ :=
  [preferredEncoding] ++
  (if c.useCopyRect then [encodingCopyRect] else []) ++
  ([encodingZRLE, encodingHextile, encodingZlib, encodingCoRRE, encodingRRE].filter
    (· ≠ preferredEncoding)) ++
  (if 0 ≤ c.compressLevel ∧ c.compressLevel ≤ 9 then [encodingCompressLevel0 + c.compressLevel]
    else []) ++
  (if 0 ≤ c.jpegQuality ∧ c.jpegQuality ≤ 9 then [encodingQualityLevel0 + c.jpegQuality]
    else []) ++
  (if c.requestCursorUpdates then
    [encodingXCursor, encodingRichCursor] ++
      if c.ignoreCursorUpdates then [] else [encodingPointerPos]
  else []) ++
  [encodingLastRect, encodingNewFBSize]

def setEncodings (autoSelectOnly : Bool) : ConnM I Unit := do
  let c ← get
  if ¬ c.inNormalProtocol then pure ()
  else if c.preferredEncoding ≠ -1 ∧ autoSelectOnly then pure ()
  else do
    let preferredEncoding := if c.preferredEncoding = -1 then encodingZRLE else c.preferredEncoding
    let encodings := c.encodings preferredEncoding
    modify fun c => { c with preferredEncoding := preferredEncoding }
    if encodings ≠ c.encodingsSaved then do
      writeSetEncodings encodings
      modify fun c => { c with encodingsSaved := encodings }
    else pure ()

/-! ### Processing messages -/

section Messages

variable (fuel : ℕ)

/-- The switch over the encoding of a rectangle. -/
def handleRect (hdr : RectHdr) : Client I Unit :=
  if hdr.encoding = encodingRaw then handleRawRect hdr.x hdr.y hdr.w hdr.h
  else if hdr.encoding = encodingCopyRect then handleCopyRect hdr.x hdr.y hdr.w hdr.h
  else if hdr.encoding = encodingRRE then handleRRERect hdr.x hdr.y hdr.w hdr.h
  else if hdr.encoding = encodingCoRRE then handleCoRRERect hdr.x hdr.y hdr.w hdr.h
  else if hdr.encoding = encodingHextile then handleHextileRect hdr.x hdr.y hdr.w hdr.h
  else if hdr.encoding = encodingZRLE then handleZRLERect fuel hdr.x hdr.y hdr.w hdr.h
  else if hdr.encoding = encodingZlib then handleZlibRect hdr.x hdr.y hdr.w hdr.h
  else pure ()

/-- The body of the loop over the rectangles; `next` is the rest of the loop, which the last
rectangle and a new size of the frame leave out. -/
def handleRound (hdr : RectHdr) (next : Client I Unit) : Client I Unit :=
  if hdr.encoding = encodingLastRect then pure ()
  else if hdr.encoding = encodingNewFBSize then rfb (setFramebufferSize hdr.w hdr.h)
  else if hdr.encoding = encodingXCursor ∨ hdr.encoding = encodingRichCursor then next
  else if hdr.encoding = encodingPointerPos then do
    rfb (modify fun c => { c with mouseX := hdr.x, mouseY := hdr.y })
    next
  else do
    handleRect fuel hdr
    next

/-- The loop over the rectangles of an update, `n` of which are left. -/
def handleRects : ℕ → Client I Unit
  | 0 => pure ()
  | n + 1 => do
    let hdr ← rfb readFramebufferUpdateRectHdr
    handleRound fuel hdr (handleRects n)

/-- What is asked for after an update. -/
def requestUpdate (layout : Layout) : ConnM I Unit := do
  let c ← get
  match c.pendingColorModel with
  | some m => setPixelFormat m
  | none => pure ()
  setEncodings true
  writeFullUpdateRequest layout c.pendingColorModel.isNone

def processFramebufferUpdate : Client I Unit := do
  let updateNRects ← rfb readFramebufferUpdate
  handleRects fuel updateNRects
  let layout ← getLayout
  rfb (requestUpdate layout)

/-- One round of the loop of `processNormalProtocol`. -/
def processMessage : Client I Unit := do
  let msgType ← rfb readServerMessageType
  if msgType = framebufferUpdate then processFramebufferUpdate fuel
  else if msgType = setColourMapEntries then
    throw (.exception "Can't handle SetColourMapEntries message")
  else if msgType = bell then pure ()
  else if msgType = serverCutText then do
    let _s ← rfb readServerCutText
    pure ()
  else if msgType = textChat then rfb readTextChatMsg
  else throw (.exception s!"Unknown RFB message type {msgType}")

end Messages

/-! ### The state after the initialisation -/

/-- The connection after `doProtocolInitialisation`, with these bytes to come. -/
def Conn.initial (I : Inflater) (framebufferWidth framebufferHeight : ℕ) (m : ColorModel)
    (is : List UInt8) : Conn I where
  is := is
  os := []
  framebufferWidth := framebufferWidth
  framebufferHeight := framebufferHeight
  inNormalProtocol := true
  colorModel := m
  pendingColorModel := none
  useCopyRect := false
  preferredEncoding := -1
  requestCursorUpdates := false
  ignoreCursorUpdates := true
  compressLevel := -1
  jpegQuality := -1
  encodingsSaved := []
  mouseX := framebufferWidth / 2
  mouseY := framebufferHeight / 2
  hextileBg := 0
  hextileFg := 0
  rreBuf := List.replicate 128 0
  zlibBuf := none
  zlibInflater := I.new
  handleZlibRectBuffer := List.replicate 128 0
  zrleBuf := none
  zrleInStream := ZlibInStream.new
  handleZRLERectPalette := List.replicate 128 0

/-- `FullBufferBitmapData`, with a frame that the array has room for. -/
def BitmapData.initial (framebufferwidth framebufferheight : ℕ)
    (bounded : framebufferwidth * framebufferheight < 2147483648) : BitmapData where
  layout := .full framebufferwidth framebufferheight
  bitmapPixels := List.replicate (framebufferwidth * framebufferheight) 0
  length_bitmapPixels := List.length_replicate
  bounded := bounded

end Limbo.Vnc
