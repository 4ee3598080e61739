import Limbo.Lib.Preserves
import Limbo.Vnc.Confinement

/-!
# A frame that changes its size

The check of a rectangle's header uses the size that the server announced last, the addresses of the
pixels the size that the bitmap was made with. A new size reaches the first only.
-/

namespace Limbo.Vnc

open Lib

variable {I : Inflater} {fuel : ℕ}

/-! ### What changes the sizes -/

/-- The size of the frame that headers are checked against. -/
def frameSize (c : Conn I) : ℕ × ℕ := (c.framebufferWidth, c.framebufferHeight)

/-- Both sizes. -/
def sizes (s : VncCanvas I) : (ℕ × ℕ) × Layout := (frameSize s.conn, s.bitmapData.layout)

/-- A part of the client that leaves both sizes alone. -/
abbrev KeepsSizes {β : Type} (x : Client I β) : Prop := Preserves sizes x

lemma keepsSizes_rfb {β : Type} {x : ConnM I β} (hx : Preserves frameSize x) :
    KeepsSizes (rfb x) := by
  intro s b t h
  unfold rfb at h
  cases hrun : x s.conn with
  | ok b' c =>
    rw [hrun] at h
    cases h
    exact congrArg (·, s.bitmapData.layout) (hx _ _ _ hrun)
  | error e c =>
    rw [hrun] at h
    cases h

lemma preserves_zrle {β : Type} (x : EStateM Exn (ZlibInStream I) β) :
    Preserves (frameSize (I := I)) (zrle x) := by
  intro c b c' h
  unfold zrle at h
  cases hrun : x c.zrleInStream with
  | ok b' z =>
    rw [hrun] at h
    cases h
    rfl
  | error e z =>
    rw [hrun] at h
    cases h

lemma preserves_readFully (len : ℤ) : Preserves (frameSize (I := I)) (readFully len) := by
  intro c bs c' h
  unfold readFully at h
  split_ifs at h
  cases h
  rfl

lemma preserves_readUnsignedByte : Preserves (frameSize (I := I)) readUnsignedByte :=
  (preserves_readFully 1).bind fun _ => .pure _

lemma preserves_readUnsignedShort : Preserves (frameSize (I := I)) readUnsignedShort :=
  (preserves_readFully 2).bind fun _ => .pure _

lemma preserves_readInt : Preserves (frameSize (I := I)) readInt :=
  (preserves_readFully 4).bind fun _ => .pure _

lemma preserves_getColorModel : Preserves (frameSize (I := I)) getColorModel :=
  Preserves.get.bind fun _ => .pure _

lemma keepsSizes_getLayout : KeepsSizes (I := I) getLayout := by
  intro s l t h
  cases h
  rfl

lemma keepsSizes_setPixel (i : ℤ) (color : UInt32) : KeepsSizes (I := I) (setPixel i color) := by
  intro s b t h
  unfold setPixel at h
  split_ifs at h
  cases h
  rfl

lemma keepsSizes_rangeCheck (i : ℤ) (w : ℕ) : KeepsSizes (I := I) (rangeCheck i w) := by
  intro s b t h
  unfold rangeCheck at h
  split_ifs at h
  cases h
  rfl

lemma keepsSizes_drawRect (x y w h : ℕ) (color : UInt32) :
    KeepsSizes (I := I) (drawRect x y w h color) := by
  refine keepsSizes_getLayout.bind fun l => ?_
  cases l with
  | full fw fh =>
    refine .loop fun j => .ite ?_ ?_
    · exact (keepsSizes_rangeCheck _ _).bind fun _ => .loop fun _ => keepsSizes_setPixel _ _
    · exact .loop fun _ => keepsSizes_setPixel _ _
  | large xo yo bw bh => exact .pure ()

/-! ### The handlers -/

lemma keepsSizes_drawRow (m : ColorModel) (offset : ℤ) (w : ℕ) (row : List UInt8) :
    KeepsSizes (I := I) (drawRow m offset w row) := .loop fun _ => keepsSizes_setPixel _ _

lemma keepsSizes_handleRawRect (x y w h : ℕ) : KeepsSizes (I := I) (handleRawRect x y w h) := by
  refine keepsSizes_getLayout.bind fun l => ?_
  refine (keepsSizes_rfb preserves_getColorModel).bind fun m => .loop fun j => ?_
  refine (keepsSizes_rfb (preserves_readFully _)).bind fun row => ?_
  exact .ite (keepsSizes_drawRow _ _ _ _) (.pure ())

lemma keepsSizes_handleCopyRect (x y w h : ℕ) : KeepsSizes (I := I) (handleCopyRect x y w h) := by
  refine (keepsSizes_rfb preserves_readUnsignedShort).bind fun _ => ?_
  refine (keepsSizes_rfb preserves_readUnsignedShort).bind fun _ => ?_
  exact keepsSizes_getLayout.bind fun l => .ite (.throw _) (.pure ())

lemma preserves_fillRreBuf (len : ℤ) : Preserves (frameSize (I := I)) (fillRreBuf len) :=
  (preserves_readFully len).bind fun _ => .update fun _ => rfl

lemma preserves_rreBufAt (i : ℤ) (k : ℕ) : Preserves (frameSize (I := I)) (rreBufAt i k) := by
  intro c bs c' h
  unfold rreBufAt at h
  split_ifs at h
  cases h
  rfl

lemma keepsSizes_handleRRERectWith (size x y w h : ℕ) :
    KeepsSizes (I := I) (handleRRERectWith size x y w h) := by
  refine keepsSizes_getLayout.bind fun l => ?_
  refine (keepsSizes_rfb preserves_getColorModel).bind fun m => ?_
  refine (keepsSizes_rfb preserves_readInt).bind fun nSubrects => ?_
  refine (keepsSizes_rfb (preserves_readFully _)).bind fun bg => ?_
  refine (Preserves.ite (keepsSizes_drawRect _ _ _ _ _) (.pure ())).bind fun _ => ?_
  refine (keepsSizes_rfb (preserves_fillRreBuf _)).bind fun _ => .ite (.loop fun j => ?_) (.pure ())
  exact (keepsSizes_rfb (preserves_rreBufAt _ _)).bind fun _ => keepsSizes_drawRect _ _ _ _ _

lemma keepsSizes_drawHextileSubrect (valid : Bool) (tx ty : ℕ) (color : UInt32)
    (bs : List UInt8) : KeepsSizes (I := I) (drawHextileSubrect valid tx ty color bs) :=
  .ite (keepsSizes_drawRect _ _ _ _ _) (.pure ())

lemma keepsSizes_handleHextileSubrects (m : ColorModel) (valid : Bool) (subencoding tx ty : ℕ) :
    KeepsSizes (I := I) (handleHextileSubrects m valid subencoding tx ty) := by
  refine (keepsSizes_rfb preserves_readUnsignedByte).bind fun nSubrects => .ite ?_ ?_
  · refine (keepsSizes_rfb (preserves_fillRreBuf _)).bind fun _ => ?_
    refine (keepsSizes_rfb .get).bind fun c => .loop fun j => ?_
    refine (keepsSizes_rfb (preserves_rreBufAt _ _)).bind fun bs => ?_
    exact keepsSizes_drawHextileSubrect _ _ _ _ _
  · refine (keepsSizes_rfb (preserves_fillRreBuf _)).bind fun _ => .loop fun j => ?_
    refine (keepsSizes_rfb (preserves_rreBufAt _ _)).bind fun bs => Preserves.bind ?_ fun _ => ?_
    · exact keepsSizes_rfb (.update fun _ => rfl)
    · exact keepsSizes_drawHextileSubrect _ _ _ _ _

lemma keepsSizes_handleHextileParts (subencoding tx ty tw th : ℕ) :
    KeepsSizes (I := I) (handleHextileParts subencoding tx ty tw th) := by
  refine keepsSizes_getLayout.bind fun l => ?_
  refine (keepsSizes_rfb preserves_getColorModel).bind fun m => ?_
  refine Preserves.bind (.ite ?_ (.pure ())) fun _ => ?_
  · refine (keepsSizes_rfb (preserves_readFully _)).bind fun bs => ?_
    exact keepsSizes_rfb (.update fun _ => rfl)
  refine (keepsSizes_rfb .get).bind fun c => ?_
  refine (Preserves.ite (keepsSizes_drawRect _ _ _ _ _) (.pure ())).bind fun _ => ?_
  refine Preserves.bind (.ite ?_ (.pure ())) fun _ => ?_
  · refine (keepsSizes_rfb (preserves_readFully _)).bind fun bs => ?_
    exact keepsSizes_rfb (.update fun _ => rfl)
  exact .ite (keepsSizes_handleHextileSubrects _ _ _ _ _) (.pure ())

lemma keepsSizes_handleHextileRect (x y w h : ℕ) :
    KeepsSizes (I := I) (handleHextileRect x y w h) := by
  refine Preserves.bind ?_ fun _ => .loop fun r => .loop fun k => ?_
  · exact keepsSizes_rfb (.update fun _ => rfl)
  · refine (keepsSizes_rfb preserves_readUnsignedByte).bind fun subencoding => ?_
    exact .ite (keepsSizes_handleRawRect _ _ _ _) (keepsSizes_handleHextileParts _ _ _ _ _)

lemma preserves_reserve (buf : Option ℕ) (nBytes size : ℤ) :
    Preserves (frameSize (I := I)) (reserve buf nBytes size) := by
  have halloc : Preserves (frameSize (I := I)) (reserve.alloc size) := .ite (.throw _) (.pure _)
  cases buf with
  | none => exact halloc
  | some len => exact .ite halloc (.pure _)

lemma preserves_inflateRow (len : ℕ) : Preserves (frameSize (I := I)) (inflateRow len) := by
  intro c row c' h
  unfold inflateRow at h
  cases hinflate : I.inflate len c.zlibInflater with
  | none =>
    rw [hinflate] at h
    cases h
  | some result =>
    rw [hinflate] at h
    cases h
    rfl

lemma keepsSizes_handleZlibRect (x y w h : ℕ) : KeepsSizes (I := I) (handleZlibRect x y w h) := by
  have hstart (len : ℕ) : Preserves (frameSize (I := I)) (startZlibRect len) := by
    refine preserves_readInt.bind fun nBytes => Preserves.get.bind fun c => ?_
    refine (preserves_reserve _ _ _).bind fun zlibBuf => ?_
    exact (preserves_readFully _).bind fun data => .update fun _ => rfl
  refine keepsSizes_getLayout.bind fun l => ?_
  refine (keepsSizes_rfb preserves_getColorModel).bind fun m => ?_
  refine (keepsSizes_rfb (hstart _)).bind fun _ => .loop fun j => ?_
  refine (keepsSizes_rfb (preserves_inflateRow _)).bind fun row => ?_
  exact .ite (keepsSizes_drawRow _ _ _ _) (.pure ())

section Zrle

lemma preserves_readPixel : Preserves (frameSize (I := I)) (readPixel fuel) := by
  refine preserves_getColorModel.bind fun m => ?_
  cases m.palette with
  | some colors => exact (preserves_zrle _).bind fun _ => .pure _
  | none =>
    refine (preserves_zrle _).bind fun _ => (preserves_zrle _).bind fun _ => ?_
    exact (preserves_zrle _).bind fun _ => .pure _

lemma preserves_readPixels (count : ℕ) : Preserves (frameSize (I := I)) (readPixels fuel count) :=
  preserves_getColorModel.bind fun _ => (preserves_zrle _).bind fun _ => .pure _

lemma preserves_paletteAt (index : ℕ) : Preserves (frameSize (I := I)) (paletteAt index) := by
  intro c pix c' h
  unfold paletteAt at h
  cases hpix : c.handleZRLERectPalette[index]? with
  | none =>
    rw [hpix] at h
    cases h
  | some pix =>
    rw [hpix] at h
    cases h
    rfl

lemma preserves_readZrlePackedRow (bppp n b nbits : ℕ) :
    Preserves (frameSize (I := I)) (readZrlePackedRow fuel bppp n b nbits) := by
  induction n generalizing b nbits with
  | zero => exact .pure _
  | succ n ih =>
    have hpixel (m : ColorModel) (index b nbits : ℕ) : Preserves (frameSize (I := I)) (do
        let pix ← paletteAt index
        let rest ← readZrlePackedRow fuel bppp n b nbits
        return m.lookup pix :: rest) :=
      (preserves_paletteAt _).bind fun pix => (ih _ _).bind fun rest => .pure _
    refine preserves_getColorModel.bind fun m => .ite ?_ ?_
    · exact (preserves_zrle _).bind fun b => (Preserves.pure _).bind fun bits => hpixel m _ _ _
    · exact (Preserves.pure _).bind fun bits => hpixel m _ _ _

lemma preserves_readZrlePackedPixels (tw palSize th : ℕ) :
    Preserves (frameSize (I := I)) (readZrlePackedPixels fuel tw palSize th) := by
  induction th with
  | zero => exact .pure _
  | succ th ih => exact (preserves_readZrlePackedRow _ _ _ _).bind fun _ => ih.bind fun _ => .pure _

lemma preserves_readRunLength (rounds : ℕ) (len : ℤ) :
    Preserves (frameSize (I := I)) (readRunLength fuel rounds len) := by
  induction rounds generalizing len with
  | zero => exact .throw _
  | succ rounds ih => exact (preserves_zrle _).bind fun b => .ite (ih _) (.pure _)

lemma preserves_readZrlePlainRLEPixels (rounds left : ℕ) :
    Preserves (frameSize (I := I)) (readZrlePlainRLEPixels fuel rounds left) := by
  induction rounds generalizing left with
  | zero =>
    cases left with
    | zero => exact .pure _
    | succ left => exact .throw _
  | succ rounds ih =>
    cases left with
    | zero => exact .pure _
    | succ left =>
      refine preserves_getColorModel.bind fun m => preserves_readPixel.bind fun pix => ?_
      refine (preserves_readRunLength _ _).bind fun len => .ite ?_ (.throw _)
      exact (ih _).bind fun rest => .pure _

lemma preserves_readZrlePackedRLEPixels (rounds left : ℕ) :
    Preserves (frameSize (I := I)) (readZrlePackedRLEPixels fuel rounds left) := by
  induction rounds generalizing left with
  | zero =>
    cases left with
    | zero => exact .pure _
    | succ left => exact .throw _
  | succ rounds ih =>
    cases left with
    | zero => exact .pure _
    | succ left =>
      have hrun (m : ColorModel) (index : UInt8) (len : ℤ) : Preserves (frameSize (I := I))
          (if len ≤ (left + 1 : ℕ) then do
            let pix ← paletteAt (index &&& 127).toNat
            let rest ← readZrlePackedRLEPixels fuel rounds (left + 1 - len.toNat)
            return List.replicate len.toNat (m.lookup pix) ++ rest
          else throw (.exception "ZRLE decoder: assertion failed (len <= end - ptr)")) := by
        refine .ite ?_ (.throw _)
        exact (preserves_paletteAt _).bind fun pix => (ih _).bind fun rest => .pure _
      refine preserves_getColorModel.bind fun m => (preserves_zrle _).bind fun index => .ite ?_ ?_
      · exact (preserves_readRunLength _ _).bind fun len => hrun m index len
      · exact (Preserves.pure _).bind fun len => hrun m index len

lemma preserves_readZrleTilePixels (rle : Bool) (palSize tw th : ℕ) :
    Preserves (frameSize (I := I)) (readZrleTilePixels fuel rle palSize tw th) := by
  refine .ite (.ite ?_ ?_) (.ite ?_ ?_)
  · exact preserves_readZrlePlainRLEPixels _ _
  · exact preserves_readZrlePackedRLEPixels _ _
  · exact preserves_readPixels _
  · exact preserves_readZrlePackedPixels _ _ _

lemma keepsSizes_handleUpdatedZrleTile (x y w h : ℕ) (pixels : List UInt32) :
    KeepsSizes (I := I) (handleUpdatedZrleTile x y w h pixels) := by
  refine keepsSizes_getLayout.bind fun l => .loop fun j => ?_
  exact (keepsSizes_rangeCheck _ _).bind fun _ => .loop fun i => keepsSizes_setPixel _ _

lemma keepsSizes_handleZrleTile (valid : Bool) (tx ty tw th : ℕ) :
    KeepsSizes (I := I) (handleZrleTile fuel valid tx ty tw th) := by
  have hpalette (palSize : ℕ) : Preserves (frameSize (I := I)) (readZrlePalette fuel palSize) :=
    (preserves_readPixels _).bind fun pixels => .update fun _ => rfl
  refine (keepsSizes_rfb (preserves_zrle _)).bind fun mode => ?_
  refine (keepsSizes_rfb (hpalette _)).bind fun _ => .ite ?_ ?_
  · refine (keepsSizes_rfb preserves_getColorModel).bind fun m => ?_
    refine (keepsSizes_rfb (preserves_paletteAt _)).bind fun pix => ?_
    exact .ite (keepsSizes_drawRect _ _ _ _ _) (.pure ())
  · refine (keepsSizes_rfb (preserves_readZrleTilePixels _ _ _ _)).bind fun pixels => ?_
    exact .ite (keepsSizes_handleUpdatedZrleTile _ _ _ _ _) (.pure ())

lemma keepsSizes_handleZRLERect (x y w h : ℕ) :
    KeepsSizes (I := I) (handleZRLERect fuel x y w h) := by
  have hstart : Preserves (frameSize (I := I)) startZRLERect := by
    refine preserves_readInt.bind fun nBytes => .ite (.throw _) ?_
    refine Preserves.get.bind fun c => (preserves_reserve _ _ _).bind fun zrleBuf => ?_
    refine (preserves_readFully _).bind fun data => Preserves.bind ?_ fun _ => preserves_zrle _
    exact .update fun _ => rfl
  refine (keepsSizes_rfb hstart).bind fun _ => keepsSizes_getLayout.bind fun l => ?_
  refine Preserves.bind ?_ fun _ => keepsSizes_rfb (preserves_zrle _)
  exact .loop fun r => .loop fun k => keepsSizes_handleZrleTile _ _ _ _ _

end Zrle

/-- No handler changes a size. -/
lemma keepsSizes_handleRect (hdr : RectHdr) : KeepsSizes (I := I) (handleRect fuel hdr) := by
  refine .ite ?_ (.ite ?_ (.ite ?_ (.ite ?_ (.ite ?_ (.ite ?_ (.ite ?_ (.pure ())))))))
  · exact keepsSizes_handleRawRect _ _ _ _
  · exact keepsSizes_handleCopyRect _ _ _ _
  · exact keepsSizes_handleRRERectWith _ _ _ _ _
  · exact keepsSizes_handleRRERectWith _ _ _ _ _
  · exact keepsSizes_handleHextileRect _ _ _ _
  · exact keepsSizes_handleZRLERect _ _ _ _
  · exact keepsSizes_handleZlibRect _ _ _ _

lemma preserves_readFramebufferUpdateRectHdr :
    Preserves (frameSize (I := I)) readFramebufferUpdateRectHdr := by
  refine preserves_readUnsignedShort.bind fun x => preserves_readUnsignedShort.bind fun y => ?_
  refine preserves_readUnsignedShort.bind fun w => preserves_readUnsignedShort.bind fun h => ?_
  refine preserves_readInt.bind fun encoding => .ite ?_ (.pure _)
  exact Preserves.get.bind fun c => .ite (.throw _) (.pure _)

lemma preserves_requestUpdate (layout : Layout) :
    Preserves (frameSize (I := I)) (requestUpdate layout) := by
  have hwrite (bs : List UInt8) : Preserves (frameSize (I := I)) (write bs) := .update fun _ => rfl
  have hencodings : Preserves (frameSize (I := I)) (setEncodings true) := by
    refine Preserves.get.bind fun c => .ite (.pure ()) (.ite (.pure ()) ?_)
    refine Preserves.bind ?_ fun _ => .ite ((hwrite _).bind fun _ => ?_) (.pure ())
    · exact .update fun _ => rfl
    · exact .update fun _ => rfl
  have hrequest (incremental : Bool) :
      Preserves (frameSize (I := I)) (writeFullUpdateRequest layout incremental) := by
    cases layout <;> exact hwrite _
  refine Preserves.get.bind fun c => ?_
  cases c.pendingColorModel with
  | none => exact hencodings.bind fun _ => hrequest _
  | some m =>
    refine Preserves.bind ((hwrite _).bind fun _ => ?_) fun _ => hencodings.bind fun _ => hrequest _
    exact .update fun _ => rfl

/-! ### The rectangles of a session -/

/-- The headers that are read for an update with `n` rectangles, each with the state behind it. -/
def rectsRead (fuel : ℕ) : ℕ → VncCanvas I → List (VncCanvas I × RectHdr)
  | 0, _ => []
  | n + 1, s =>
    match rfb readFramebufferUpdateRectHdr s with
    | .error _ _ => []
    | .ok hdr s => (s, hdr) ::
      if hdr.encoding = encodingLastRect ∨ hdr.encoding = encodingNewFBSize then []
      else
        match handleRound fuel hdr (pure ()) s with
        | .error _ _ => []
        | .ok _ s => rectsRead fuel n s

/-- The headers that are read for a message. -/
def messageRects (fuel : ℕ) (s : VncCanvas I) : List (VncCanvas I × RectHdr) :=
  match rfb readServerMessageType s with
  | .error _ _ => []
  | .ok msgType s =>
    if msgType = framebufferUpdate then
      match rfb readFramebufferUpdate s with
      | .error _ _ => []
      | .ok updateNRects s => rectsRead fuel updateNRects s
    else []

/-- The headers that are read in `n` rounds of the loop of `processNormalProtocol`. -/
def sessionRects (fuel : ℕ) : ℕ → VncCanvas I → List (VncCanvas I × RectHdr)
  | 0, _ => []
  | n + 1, s => messageRects fuel s ++
    match processMessage fuel s with
    | .error _ _ => []
    | .ok _ s => sessionRects fuel n s

/-- `n` rounds of that loop. -/
def processMessages (fuel : ℕ) : ℕ → Client I Unit
  | 0 => pure ()
  | n + 1 => do
    processMessage fuel
    processMessages fuel n

/-! ### The frame stays in the bitmap -/

/-- The bitmap has been made for `w × h` pixels, and the frame of the server is not larger. -/
structure Within (w h : ℕ) (s : VncCanvas I) : Prop where
  layout : s.bitmapData.layout = .full w h
  width_le : s.conn.framebufferWidth ≤ w
  height_le : s.conn.framebufferHeight ≤ h

variable {w h n : ℕ} {s t : VncCanvas I}

lemma Within.of_sizes (hs : Within w h s) (heq : sizes t = sizes s) : Within w h t := by
  obtain ⟨hframe, hlayout⟩ := Prod.mk.inj heq
  obtain ⟨hwidth, hheight⟩ := Prod.mk.inj hframe
  exact ⟨hlayout.trans hs.layout, hwidth.trans_le hs.width_le, hheight.trans_le hs.height_le⟩

/-- Where the code does not stop at a header, no size changes. -/
lemma keepsSizes_handleRound {hdr : RectHdr} (hnew : hdr.encoding ≠ encodingNewFBSize)
    {next : Client I Unit} (hnext : KeepsSizes next) : KeepsSizes (handleRound fuel hdr next) := by
  refine .ite (.pure ()) ?_
  rw [if_neg hnew]
  refine .ite hnext (.ite (Preserves.bind ?_ fun _ => hnext) ?_)
  · exact keepsSizes_rfb (.update fun _ => rfl)
  · exact (keepsSizes_handleRect hdr).bind fun _ => hnext

/-- A header that is not the last one is handled in front of the rest. -/
lemma handleRound_eq {hdr : RectHdr} (hlast : hdr.encoding ≠ encodingLastRect)
    (hnew : hdr.encoding ≠ encodingNewFBSize) (next : Client I Unit) :
    handleRound fuel hdr next = handleRound fuel hdr (pure ()) >>= fun _ => next := by
  simp only [handleRound, if_neg hlast, if_neg hnew]
  split_ifs
  · rfl
  · rfl
  · rw [bind_assoc]
    rfl

/-- The sizes that the server announces are those of parts of the bitmap. -/
def SmallSizes (w h : ℕ) (rects : List (VncCanvas I × RectHdr)) : Prop :=
  ∀ r ∈ rects, r.2.encoding = encodingNewFBSize → r.2.w ≤ w ∧ r.2.h ≤ h

lemma Within.handleRects (hs : Within w h s) (hsmall : SmallSizes w h (rectsRead fuel n s)) :
    (∀ r ∈ rectsRead fuel n s, Within w h r.1) ∧
      ∀ t, handleRects fuel n s = .ok () t → Within w h t := by
  induction n generalizing s with
  | zero =>
    refine ⟨List.forall_mem_nil _, fun t ht => ?_⟩
    cases ht
    exact hs
  | succ n ih =>
    rw [rectsRead] at hsmall ⊢
    cases hread : rfb readFramebufferUpdateRectHdr s with
    | error e s₁ =>
      refine ⟨List.forall_mem_nil _, fun t ht => ?_⟩
      rw [Vnc.handleRects, bind_error hread] at ht
      cases ht
    | ok hdr s₁ =>
      have hsizes := keepsSizes_rfb preserves_readFramebufferUpdateRectHdr s hdr s₁ hread
      have hs₁ := hs.of_sizes hsizes
      have hrects : Vnc.handleRects fuel (n + 1) s =
          handleRound fuel hdr (Vnc.handleRects fuel n) s₁ := bind_ok hread
      simp only [hread] at hsmall ⊢
      rw [hrects]
      have hfirst := hsmall (s₁, hdr) List.mem_cons_self
      by_cases hlast : hdr.encoding = encodingLastRect
      · rw [if_pos (.inl hlast)]
        refine ⟨List.forall_mem_singleton.mpr hs₁, fun t ht => ?_⟩
        rw [handleRound, if_pos hlast] at ht
        cases ht
        exact hs₁
      · by_cases hnew : hdr.encoding = encodingNewFBSize
        · rw [if_pos (.inr hnew)]
          refine ⟨List.forall_mem_singleton.mpr hs₁, fun t ht => ?_⟩
          rw [handleRound, if_neg hlast, if_pos hnew] at ht
          cases ht
          exact ⟨hs₁.layout, (hfirst hnew).1, (hfirst hnew).2⟩
        · rw [if_neg (not_or.mpr ⟨hlast, hnew⟩)] at hsmall ⊢
          rw [handleRound_eq hlast hnew (Vnc.handleRects fuel n)]
          cases hround : handleRound fuel hdr (pure ()) s₁ with
          | error e s₂ =>
            refine ⟨List.forall_mem_singleton.mpr hs₁, fun t ht => ?_⟩
            rw [bind_error hround] at ht
            cases ht
          | ok u s₂ =>
            simp only [hround] at hsmall ⊢
            have hs₂ := hs₁.of_sizes (keepsSizes_handleRound hnew (.pure ()) s₁ u s₂ hround)
            obtain ⟨hrest, hend⟩ := ih hs₂ fun r hr => hsmall r (List.mem_cons_of_mem _ hr)
            refine ⟨List.forall_mem_cons.mpr ⟨hs₁, hrest⟩, fun t ht => ?_⟩
            rw [bind_ok hround] at ht
            exact hend t ht

lemma Within.processMessage (hs : Within w h s) (hsmall : SmallSizes w h (messageRects fuel s)) :
    (∀ r ∈ messageRects fuel s, Within w h r.1) ∧
      ∀ t, processMessage fuel s = .ok () t → Within w h t := by
  have htype : Preserves (frameSize (I := I)) readServerMessageType := preserves_readUnsignedByte
  have hcount : Preserves (frameSize (I := I)) readFramebufferUpdate :=
    preserves_readUnsignedByte.bind fun _ => preserves_readUnsignedShort
  -- the messages without rectangles
  have hcut : Preserves (frameSize (I := I)) readServerCutText := by
    refine (preserves_readFully _).bind fun _ => preserves_readInt.bind fun len => ?_
    exact .ite (.throw _) (preserves_readFully _)
  have hchat : Preserves (frameSize (I := I)) readTextChatMsg := by
    refine (preserves_readFully _).bind fun _ => preserves_readInt.bind fun len => ?_
    refine .ite (.update fun _ => rfl) (.ite ?_ (.pure ()))
    exact (preserves_readFully _).bind fun _ => .pure ()
  rw [messageRects] at hsmall ⊢
  cases hread : rfb readServerMessageType s with
  | error e s₁ =>
    refine ⟨List.forall_mem_nil _, fun t ht => ?_⟩
    rw [Vnc.processMessage, bind_error hread] at ht
    cases ht
  | ok msgType s₁ =>
    have hs₁ := hs.of_sizes (keepsSizes_rfb htype s msgType s₁ hread)
    simp only [hread] at hsmall ⊢
    rw [Vnc.processMessage, bind_ok hread]
    by_cases hupdate : msgType = framebufferUpdate
    · simp only [if_pos hupdate] at hsmall ⊢
      cases hrects : rfb readFramebufferUpdate s₁ with
      | error e s₂ =>
        refine ⟨List.forall_mem_nil _, fun t ht => ?_⟩
        rw [processFramebufferUpdate, bind_error hrects] at ht
        cases ht
      | ok updateNRects s₂ =>
        have hs₂ := hs₁.of_sizes (keepsSizes_rfb hcount s₁ updateNRects s₂ hrects)
        simp only [hrects] at hsmall ⊢
        obtain ⟨hheaders, hend⟩ := hs₂.handleRects hsmall
        refine ⟨hheaders, fun t ht => ?_⟩
        rw [processFramebufferUpdate, bind_ok hrects] at ht
        obtain ⟨u, s₃, hhandle, hrest⟩ := ok_of_bind ht
        have hrequest : KeepsSizes (I := I) (getLayout >>= fun l => rfb (requestUpdate l)) :=
          keepsSizes_getLayout.bind fun l => keepsSizes_rfb (preserves_requestUpdate l)
        exact (hend s₃ hhandle).of_sizes (hrequest s₃ () t hrest)
    · simp only [if_neg hupdate] at hsmall ⊢
      refine ⟨List.forall_mem_nil _, fun t ht => hs₁.of_sizes ?_⟩
      have hother : KeepsSizes (I := I)
          (if msgType = setColourMapEntries then
            throw (.exception "Can't handle SetColourMapEntries message")
          else if msgType = bell then pure ()
          else if msgType = serverCutText then do
            let _s ← rfb readServerCutText
            pure ()
          else if msgType = textChat then rfb readTextChatMsg
          else throw (.exception s!"Unknown RFB message type {msgType}")) := by
        refine .ite (.throw _) (.ite (.pure ()) (.ite ?_ (.ite ?_ (.throw _))))
        · exact (keepsSizes_rfb hcut).bind fun _ => .pure ()
        · exact keepsSizes_rfb hchat
      exact hother s₁ () t ht

/-- The frame stays in the bitmap as long as no announced size is larger than it. -/
lemma Within.session (hs : Within w h s) (hsmall : SmallSizes w h (sessionRects fuel n s)) :
    (∀ r ∈ sessionRects fuel n s, Within w h r.1) ∧
      ∀ t, processMessages fuel n s = .ok () t → Within w h t := by
  induction n generalizing s with
  | zero =>
    refine ⟨List.forall_mem_nil _, fun t ht => ?_⟩
    cases ht
    exact hs
  | succ n ih =>
    rw [sessionRects] at hsmall ⊢
    obtain ⟨hheaders, hend⟩ := hs.processMessage fun r hr => hsmall r (List.mem_append_left _ hr)
    cases hmessage : Vnc.processMessage fuel s with
    | error e s₁ =>
      simp only [List.append_nil]
      refine ⟨hheaders, fun t ht => ?_⟩
      rw [processMessages, bind_error hmessage] at ht
      cases ht
    | ok u s₁ =>
      simp only [hmessage] at hsmall ⊢
      obtain ⟨hrest, hlast⟩ := ih (hend s₁ hmessage)
        fun r hr => hsmall r (List.mem_append_right _ hr)
      refine ⟨fun r hr => (List.mem_append.mp hr).elim (hheaders r) (hrest r), fun t ht => ?_⟩
      rw [processMessages, bind_ok hmessage] at ht
      exact hlast t ht

/-! ### Addresses -/

/-- Different cells of the frame have different places in the array. -/
structure OneToOne (s : VncCanvas I) : Prop where
  inArray : ∀ x y : ℕ, x < s.conn.framebufferWidth → y < s.conn.framebufferHeight →
    0 ≤ s.bitmapData.layout.offset x y ∧
      s.bitmapData.layout.offset x y < s.bitmapData.bitmapPixels.length
  injective : ∀ x y x' y' : ℕ, x < s.conn.framebufferWidth → y < s.conn.framebufferHeight →
    x' < s.conn.framebufferWidth → y' < s.conn.framebufferHeight →
    s.bitmapData.layout.offset x y = s.bitmapData.layout.offset x' y' → x = x' ∧ y = y'

/-- A header that passes the check is that of a rectangle whose cells the bitmap has. -/
def Addressed (s : VncCanvas I) (hdr : RectHdr) : Prop :=
  hdr.isChecked → ∀ x y : ℕ, hdr.x ≤ x → x < hdr.x + hdr.w → hdr.y ≤ y → y < hdr.y + hdr.h →
    x < s.bitmapData.layout.bitmapwidth ∧ y < s.bitmapData.layout.bitmapheight

lemma Within.offset_eq (hs : Within w h s) {x y : ℕ} (hx : x < s.conn.framebufferWidth)
    (hy : y < s.conn.framebufferHeight) :
    s.bitmapData.layout.offset x y = (x + y * w : ℕ) ∧ x + y * w < w * h := by
  have hsize := s.bitmapData.bounded
  rw [hs.layout] at hsize ⊢
  have hwidth := hs.width_le
  have hlt : x + y * w < w * h := calc
    x + y * w < w + y * w := by omega
    _ = (y + 1) * w := by ring
    _ ≤ h * w := Nat.mul_le_mul_right w (hy.trans_le hs.height_le)
    _ = w * h := Nat.mul_comm h w
  refine ⟨?_, hlt⟩
  have hsize' : w * h < 2147483648 := hsize
  have hcast : (x : ℤ) + y * w = (x + y * w : ℕ) := by push_cast; ring
  rw [Layout.offset, hcast, wrap32_of_range (by omega) (by omega)]

lemma Within.oneToOne (hs : Within w h s) : OneToOne s where
  inArray x y hx hy := by
    obtain ⟨hoffset, hlt⟩ := hs.offset_eq hx hy
    have hlen := s.bitmapData.length_bitmapPixels
    rw [hs.layout] at hlen
    rw [hoffset, hlen]
    exact ⟨Int.natCast_nonneg _, by exact_mod_cast hlt⟩
  injective x y x' y' hx hy hx' hy' heq := by
    rw [(hs.offset_eq hx hy).1, (hs.offset_eq hx' hy').1, Nat.cast_inj] at heq
    have hw : x < w := hx.trans_le hs.width_le
    have hw' : x' < w := hx'.trans_le hs.width_le
    have hcolumn := congrArg (· % w) heq
    have hrow := congrArg (· / w) heq
    simp only [Nat.add_mul_mod_self_right, Nat.mod_eq_of_lt hw, Nat.mod_eq_of_lt hw',
      Nat.add_mul_div_right _ _ (Nat.zero_lt_of_lt hw), Nat.div_eq_of_lt hw,
      Nat.div_eq_of_lt hw', Nat.zero_add] at hcolumn hrow
    exact ⟨hcolumn, hrow⟩

/-- The headers of a session have been read by `readFramebufferUpdateRectHdr`. -/
lemma exists_readHdr {r : VncCanvas I × RectHdr} (hr : r ∈ sessionRects fuel n s) :
    ∃ s₀, rfb readFramebufferUpdateRectHdr s₀ = .ok r.2 r.1 := by
  have hrects : ∀ k (s : VncCanvas I), r ∈ rectsRead fuel k s →
      ∃ s₀, rfb readFramebufferUpdateRectHdr s₀ = .ok r.2 r.1 := by
    intro k
    induction k with
    | zero => exact fun s hr => absurd hr List.not_mem_nil
    | succ k ih =>
      intro s hr
      rw [rectsRead] at hr
      cases hread : rfb readFramebufferUpdateRectHdr s with
      | error e s₁ =>
        simp only [hread] at hr
        exact absurd hr List.not_mem_nil
      | ok hdr s₁ =>
        simp only [hread] at hr
        rcases List.mem_cons.mp hr with rfl | hr
        · exact ⟨s, hread⟩
        · split_ifs at hr with hstop
          · exact absurd hr List.not_mem_nil
          · cases hround : handleRound fuel hdr (pure ()) s₁ with
            | error e s₂ =>
              simp only [hround] at hr
              exact absurd hr List.not_mem_nil
            | ok u s₂ =>
              simp only [hround] at hr
              exact ih s₂ hr
  induction n generalizing s with
  | zero => exact absurd hr List.not_mem_nil
  | succ n ih =>
    rw [sessionRects] at hr
    rcases List.mem_append.mp hr with hr | hr
    · rw [messageRects] at hr
      split at hr
      · exact absurd hr List.not_mem_nil
      · split_ifs at hr with hupdate
        · split at hr
          · exact absurd hr List.not_mem_nil
          · exact hrects _ _ hr
        · exact absurd hr List.not_mem_nil
    · split at hr
      · exact absurd hr List.not_mem_nil
      · exact ih hr

lemma Within.addressed {s₀ : VncCanvas I} {hdr : RectHdr} (hs : Within w h s)
    (hread : rfb readFramebufferUpdateRectHdr s₀ = .ok hdr s) : Addressed s hdr := by
  intro hchecked x y hx hxw hy hyh
  have hsizes := keepsSizes_rfb preserves_readFramebufferUpdateRectHdr s₀ hdr s hread
  have hwidth : s.conn.framebufferWidth = s₀.conn.framebufferWidth :=
    congrArg (fun z => z.1.1) hsizes
  have hheight : s.conn.framebufferHeight = s₀.conn.framebufferHeight :=
    congrArg (fun z => z.1.2) hsizes
  have hframe : hdr.x + hdr.w ≤ s₀.conn.framebufferWidth ∧
      hdr.y + hdr.h ≤ s₀.conn.framebufferHeight := by
    unfold rfb at hread
    cases hrun : readFramebufferUpdateRectHdr s₀.conn with
    | error e c =>
      rw [hrun] at hread
      cases hread
    | ok hdr' c =>
      rw [hrun] at hread
      cases hread
      exact inFrame_of_isChecked hrun hchecked
  rw [← hwidth, ← hheight] at hframe
  rw [hs.layout]
  exact ⟨by have := hs.width_le; show x < w; omega, by have := hs.height_le; show y < h; omega⟩

/-- In a session in which the server announces no size larger than the first one, every rectangle
that passes the check is one of the bitmap, and different cells of the frame have different places
in it, at every header and behind every message. -/
theorem addressed_of_smallSizes (fuel n : ℕ) (s : VncCanvas I)
    (hfull : s.bitmapData.layout = .full s.conn.framebufferWidth s.conn.framebufferHeight)
    (hsmall : SmallSizes s.conn.framebufferWidth s.conn.framebufferHeight
      (sessionRects fuel n s)) :
    (∀ r ∈ sessionRects fuel n s, Addressed r.1 r.2 ∧ OneToOne r.1) ∧
      ∀ t, processMessages fuel n s = .ok () t → OneToOne t := by
  obtain ⟨hheaders, hend⟩ := Within.session ⟨hfull, le_rfl, le_rfl⟩ hsmall
  refine ⟨fun r hr => ?_, fun t ht => (hend t ht).oneToOne⟩
  obtain ⟨s₀, hread⟩ := exists_readHdr hr
  exact ⟨(hheaders r hr).addressed hread, (hheaders r hr).oneToOne⟩

/-! ### A frame that grows -/

/-- A session of a frame of `1 × 2` pixels: the bytes of two updates with one rectangle each. -/
def sessionOf (first second : List UInt8) : VncCanvas (.ofTable []) :=
  ⟨.initial (.ofTable []) 1 2 .c256 ([0, 0, 0, 1] ++ first ++ [0, 0, 0, 1] ++ second),
    .initial 1 2 (by decide)⟩

/-- The fields of a header and the width of the bitmap behind it. -/
def hdrFields (r : VncCanvas I × RectHdr) : ℕ × ℕ × ℕ × ℕ × ℤ × ℕ :=
  (r.2.x, r.2.y, r.2.w, r.2.h, r.2.encoding, r.1.bitmapData.layout.bitmapwidth)

/-- The frame is made smaller, and the pixel that is left is updated. -/
theorem addressed_shrunk :
    (∀ r ∈ sessionRects 1 2 (sessionOf [0, 0, 0, 0, 0, 1, 0, 1, 0xff, 0xff, 0xff, 0x21]
        [0, 0, 0, 0, 0, 1, 0, 1, 0, 0, 0, 0, 5]), Addressed r.1 r.2 ∧ OneToOne r.1) ∧
      ∀ t, processMessages 1 2 (sessionOf [0, 0, 0, 0, 0, 1, 0, 1, 0xff, 0xff, 0xff, 0x21]
        [0, 0, 0, 0, 0, 1, 0, 1, 0, 0, 0, 0, 5]) = .ok () t → OneToOne t := by
  apply addressed_of_smallSizes
  · rfl
  · have hrects : (sessionRects 1 2 (sessionOf [0, 0, 0, 0, 0, 1, 0, 1, 0xff, 0xff, 0xff, 0x21]
        [0, 0, 0, 0, 0, 1, 0, 1, 0, 0, 0, 0, 5])).map hdrFields =
          [(0, 0, 1, 1, -223, 1), (0, 0, 1, 1, 0, 1)] := by decide +kernel
    have hall : ∀ f ∈ [(0, 0, 1, 1, (-223 : ℤ), 1), (0, 0, 1, 1, 0, 1)],
        f.2.2.1 ≤ 1 ∧ f.2.2.2.1 ≤ 2 := by decide
    intro r hr _
    exact hall (hdrFields r) (hrects ▸ List.mem_map_of_mem hr)

/-- The frame is made two pixels wide, and the pixel on the right is updated: the header passes the
check, and the pixel is drawn at the beginning of the next row. -/
theorem not_addressed_grown :
    ¬ ∀ r ∈ sessionRects 1 2 (sessionOf [0, 0, 0, 0, 0, 2, 0, 2, 0xff, 0xff, 0xff, 0x21]
      [0, 1, 0, 0, 0, 1, 0, 1, 0, 0, 0, 0, 5]), Addressed r.1 r.2 ∧ OneToOne r.1 := by
  intro hall
  have hrects : (sessionRects 1 2 (sessionOf [0, 0, 0, 0, 0, 2, 0, 2, 0xff, 0xff, 0xff, 0x21]
      [0, 1, 0, 0, 0, 1, 0, 1, 0, 0, 0, 0, 5])).map hdrFields =
        [(0, 0, 2, 2, -223, 1), (1, 0, 1, 1, 0, 1)] := by decide +kernel
  obtain ⟨⟨s, hdr⟩, hr, hfields⟩ := List.mem_map.mp
    (hrects ▸ List.mem_cons_of_mem _ List.mem_cons_self :
      (1, 0, 1, 1, 0, 1) ∈ (sessionRects 1 2 _).map hdrFields)
  obtain ⟨x, y, w, h, encoding⟩ := hdr
  simp only [hdrFields, Prod.mk.injEq] at hfields
  obtain ⟨rfl, rfl, rfl, rfl, rfl, hwidth⟩ := hfields
  have hchecked : (⟨1, 0, 1, 1, 0⟩ : RectHdr).isChecked := .inr (by decide)
  have hcell := ((hall _ hr).1 hchecked 1 0 le_rfl (Nat.lt_succ_self 1) le_rfl Nat.one_pos).1
  rw [hwidth] at hcell
  exact absurd hcell (lt_irrefl 1)

end Limbo.Vnc
