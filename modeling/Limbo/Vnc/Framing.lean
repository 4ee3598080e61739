import Limbo.Vnc.Update

/-!
# Framing

An update of the server is read to its end, so that the next byte on the stream is the type of the
next message: a rectangle whose data the client takes is read to its end, an update whose rectangles
are read to theirs is read to its end, and what is asked for after the update reads nothing.
-/

namespace Limbo.Vnc

open Lib

variable {I : Inflater} {c c' : Conn I} {l : Layout} {m : ColorModel} {fuel : ℕ}
  {rest : List UInt8} {P : I.State → I.State → Prop}

/-! ### Updates -/

/-- The encodings that end an update instead of carrying pixels. -/
def Encoding.Pseudo : Encoding → Prop
  | lastRect | newFBSize => True
  | raw _ | copyRect .. | rre .. | coRRE .. | hextile _ | zlib .. | zrle .. => False

/-- The rectangles of an update with the count `n`: as many as that, or with one at the end that
says that it is the last. A new size of the frame ends an update. -/
def Counted : List Rect → ℕ → Prop
  | [], n => n = 0
  | _ :: _, 0 => False
  | r :: rects, n + 1 =>
    match r.encoding with
    | .lastRect => rects = []
    | .newFBSize => rects = [] ∧ n = 0
    | .raw _ | .copyRect .. | .rre .. | .coRRE .. | .hextile _ | .zlib .. | .zrle .. =>
      Counted rects n

/-- A `FramebufferUpdate`. -/
structure Update where
  padding : UInt8
  nRects : UInt16
  rects : List Rect
  counted : Counted rects nRects.toNat

def Update.bytes (m : ColorModel) (u : Update) : List UInt8 :=
  UInt8.ofNat framebufferUpdate ::
    u.padding :: (beBytes 2 u.nRects.toNat ++ u.rects.flatMap (Rect.bytes · m))

def Rect.InFrame (r : Rect) (framebufferWidth framebufferHeight : ℕ) : Prop :=
  r.x.toNat + r.w.toNat ≤ framebufferWidth ∧ r.y.toNat + r.h.toNat ≤ framebufferHeight

/-- What the protocol asks of the rectangles of an update of a frame of this size. -/
def RectsWellFormed (rects : List Rect) (framebufferWidth framebufferHeight : ℕ) : Prop :=
  ∀ r ∈ rects, r.WellFormed ∧
    (¬ r.encoding.Pseudo → r.InFrame framebufferWidth framebufferHeight)

/-- The client can take the rectangles with pixels. -/
def RectsTaken (m : ColorModel) (l : Layout) (rects : List Rect) : Prop :=
  ∀ r ∈ rects, ¬ r.encoding.Pseudo → r.Taken m l

/-- The inflaters make of the data of the rectangles, one after the other, what it is said to be
compressed from, and then `P` holds of them. -/
def InflatesRects (I : Inflater) (m : ColorModel) (P : I.State → I.State → Prop) :
    List Rect → I.State → I.State → Prop
  | [] => P
  | r :: rects => r.encoding.Inflates I m (InflatesRects I m P rects)

/-! ### Headers -/

lemma Encoding.code_range (e : Encoding) : -2147483648 ≤ e.code ∧ e.code < 2147483648 := by
  cases e <;> simp only [code] <;> decide

lemma Encoding.Pseudo.code_unchecked {e : Encoding} (h : e.Pseudo) :
    ¬ (e.code = encodingPointerPos ∨ 0 ≤ e.code ∧ e.code ≤ maxNormalEncoding) := by
  cases e with
  | lastRect | newFBSize =>
    simp only [code]
    decide
  | _ => exact h.elim

lemma readFramebufferUpdateRectHdr_append {r : Rect}
    (hframe : ¬ r.encoding.Pseudo → r.InFrame c.framebufferWidth c.framebufferHeight)
    (hc : c.is = r.hdrBytes ++ rest) :
    readFramebufferUpdateRectHdr c = .ok r.hdr (c.next rest) := by
  obtain ⟨hlow, hhigh⟩ := r.encoding.code_range
  simp only [Rect.hdrBytes, List.append_assoc] at hc
  -- what is still to come in front of each of the fields
  set codeOn := intBytes r.encoding.code ++ rest
  set hOn := beBytes 2 r.h.toNat ++ codeOn
  set wOn := beBytes 2 r.w.toNat ++ hOn
  set yOn := beBytes 2 r.y.toNat ++ wOn
  have hx : readUnsignedShort c = .ok r.x.toNat (c.next yOn) :=
    readUnsignedShort_append r.x.toNat_lt hc
  have hy : readUnsignedShort (c.next yOn) = .ok r.y.toNat (c.next wOn) :=
    readUnsignedShort_append r.y.toNat_lt rfl
  have hw : readUnsignedShort (c.next wOn) = .ok r.w.toNat (c.next hOn) :=
    readUnsignedShort_append r.w.toNat_lt rfl
  have hh : readUnsignedShort (c.next hOn) = .ok r.h.toNat (c.next codeOn) :=
    readUnsignedShort_append r.h.toNat_lt rfl
  have he : readInt (c.next codeOn) = .ok r.encoding.code (c.next rest) :=
    readInt_append hlow hhigh rfl
  show (readUnsignedShort >>= fun x => readUnsignedShort >>= fun y => readUnsignedShort >>= fun w =>
    readUnsignedShort >>= fun h => readInt >>= fun encoding => _) c = _
  rw [bind_ok hx, bind_ok hy, bind_ok hw, bind_ok hh, bind_ok he]
  by_cases hpseudo : r.encoding.Pseudo
  · have hunchecked : ¬ r.hdr.isChecked := hpseudo.code_unchecked
    exact congrFun (if_neg hunchecked) (c.next rest)
  · obtain ⟨hwidth, hheight⟩ := hframe hpseudo
    have hsmall : ¬ (r.x.toNat + r.w.toNat > c.framebufferWidth ∨
        r.y.toNat + r.h.toNat > c.framebufferHeight) := by omega
    show (if r.hdr.isChecked then get >>= fun c : Conn I => (if r.x.toNat + r.w.toNat >
      c.framebufferWidth ∨ r.y.toNat + r.h.toNat > c.framebufferHeight then _ else pure r.hdr)
      else pure r.hdr : ConnM I RectHdr) (c.next rest) = _
    by_cases hchecked : r.hdr.isChecked
    · rw [if_pos hchecked]
      exact congrFun (if_neg hsmall) (c.next rest)
    · rw [if_neg hchecked]
      rfl

/-! ### All rectangles -/

/-- A rectangle with pixels is not one of those that the loop takes for something else. -/
lemma handleRound_pixels {r : Rect} (hpseudo : ¬ r.encoding.Pseudo) (next : Client I Unit) :
    handleRound fuel r.hdr next = handleRect fuel r.hdr >>= fun _ => next := by
  have hcode : 0 ≤ r.hdr.encoding := by
    show 0 ≤ r.encoding.code
    cases hr : r.encoding with
    | lastRect | newFBSize => exact absurd (by rw [hr]; trivial) hpseudo
    | _ =>
      simp only [Encoding.code]
      decide
  have hne : ∀ z : ℤ, z < 0 → r.hdr.encoding ≠ z := by
    intro z hz
    omega
  rw [handleRound, if_neg (hne encodingLastRect (by decide)),
    if_neg (hne encodingNewFBSize (by decide)),
    if_neg (not_or.mpr ⟨hne encodingXCursor (by decide), hne encodingRichCursor (by decide)⟩),
    if_neg (hne encodingPointerPos (by decide))]

lemma Counted.tail {r : Rect} {rects : List Rect} {n : ℕ} (h : Counted (r :: rects) (n + 1))
    (hpseudo : ¬ r.encoding.Pseudo) : Counted rects n := by
  unfold Counted at h
  cases hr : r.encoding with
  | lastRect | newFBSize => exact absurd (by rw [hr]; trivial) hpseudo
  | _ => simpa only [hr] using h

lemma Counted.last {r : Rect} {rects : List Rect} {n : ℕ} (h : Counted (r :: rects) (n + 1))
    (hpseudo : r.encoding.Pseudo) : rects = [] := by
  unfold Counted at h
  cases hr : r.encoding with
  | lastRect => simpa only [hr] using h
  | newFBSize => exact (by simpa only [hr] using h : rects = [] ∧ n = 0).1
  | _ => exact absurd hpseudo (by rw [hr]; exact id)

/-- A rectangle that ends the update reads nothing after its header. -/
lemma runs_handleRound_pseudo {r : Rect} (hpseudo : r.encoding.Pseudo) (next : Client I Unit) :
    ∃ c', Runs (handleRound fuel r.hdr next) (c, l) [] () (c', l) ∧ c'.is = c.is ∧
      c'.zlibInflater = c.zlibInflater ∧ c'.zrleInStream = c.zrleInStream := by
  have hhdr : r.hdr.encoding = r.encoding.code := rfl
  unfold handleRound
  rw [hhdr]
  cases hr : r.encoding with
  | lastRect => exact ⟨c, Does.pure () _, rfl, rfl, rfl⟩
  | newFBSize =>
    have hrun : Runs (rfb (setFramebufferSize r.hdr.w r.hdr.h)) (c, l) [] ()
        ({ c with framebufferWidth := r.hdr.w, framebufferHeight := r.hdr.h }, l) := runs_rfb rfl
    exact ⟨_, hrun, rfl, rfl, rfl⟩
  | _ => exact absurd hpseudo (by rw [hr]; exact id)

lemma Encoding.Pseudo.bytes_eq {e : Encoding} (h : e.Pseudo) : e.bytes m = [] := by
  cases e with
  | lastRect | newFBSize => rfl
  | _ => exact h.elim

lemma Encoding.Pseudo.inflates {e : Encoding} (h : e.Pseudo) {zs rs : I.State}
    (hP : e.Inflates I m P zs rs) : P zs rs := by
  cases e with
  | lastRect | newFBSize => exact hP
  | _ => exact h.elim

theorem handles_handleRects {rects : List Rect} {n : ℕ} (hcounted : Counted rects n)
    (hwf : RectsWellFormed rects c.framebufferWidth c.framebufferHeight)
    (htaken : RectsTaken m l rects) (hfuel : 4096 ≤ fuel) (hm : c.colorModel = m)
    (hc : c.is = rects.flatMap (Rect.bytes · m) ++ rest)
    (hP : InflatesRects I m P rects c.zlibInflater c.zrleInStream.inflater)
    (hsize : l.bitmapwidth * l.bitmapheight < 2147483648) :
    ∃ c' ws, Runs (handleRects (fuel + 1) n) (c, l) ws () (c', l) ∧ l.InArray ws ∧ c'.is = rest ∧
      P c'.zlibInflater c'.zrleInStream.inflater := by
  induction rects generalizing c n with
  | nil =>
    obtain rfl : n = 0 := hcounted
    exact ⟨c, [], Does.pure () _, List.forall_mem_nil _, hc, hP⟩
  | cons r rects ih =>
    obtain ⟨hrwf, hrframe⟩ := hwf r List.mem_cons_self
    cases n with
    | zero => exact hcounted.elim
    | succ n =>
      rw [List.flatMap_cons, Rect.bytes, List.append_assoc, List.append_assoc] at hc
      have hread := readFramebufferUpdateRectHdr_append hrframe hc
      by_cases hpseudo : r.encoding.Pseudo
      · -- the last rectangle, and it has no data
        obtain rfl := hcounted.last hpseudo
        have hrest : r.encoding.bytes m ++ (([] : List Rect).flatMap (Rect.bytes · m) ++ rest) =
            rest := by
          rw [hpseudo.bytes_eq]
          rfl
        rw [hrest] at hread
        obtain ⟨c', hrun, his, hzlib, hzrle⟩ := runs_handleRound_pseudo (I := I) (l := l)
          (c := c.next rest) hpseudo (handleRects (fuel + 1) n)
        refine ⟨c', [], Does.bind_read (runs_rfb hread) hrun, List.forall_mem_nil _, his, ?_⟩
        rw [hzlib, hzrle]
        exact hpseudo.inflates hP
      · have hrtaken := htaken r List.mem_cons_self hpseudo
        obtain ⟨c₁, hrun₁, his₁, hsame₁, hP₁⟩ := handles_handleRect
          (c := c.next (r.encoding.bytes m ++ (rects.flatMap (Rect.bytes · m) ++ rest)))
          hrwf hrtaken hfuel hm rfl hP
        have hwf₁ : RectsWellFormed rects c₁.framebufferWidth c₁.framebufferHeight := by
          rw [hsame₁]
          exact fun r' hr' => hwf r' (List.mem_cons_of_mem _ hr')
        have hm₁ : c₁.colorModel = m := by
          rw [hsame₁]
          exact hm
        obtain ⟨c₂, ws, hrun₂, hin₂, his₂, hP₂⟩ := ih (hcounted.tail hpseudo) hwf₁
          (fun r' hr' => htaken r' (List.mem_cons_of_mem _ hr')) hm₁ his₁ hP₁
        refine ⟨c₂, r.writes m l ++ ws, ?_, ?_, his₂, hP₂⟩
        · apply Does.bind_read (runs_rfb hread)
          rw [handleRound_pixels hpseudo]
          exact hrun₁.bind hrun₂
        · exact Layout.inArray_append.mpr ⟨Rect.inArray_writes hsize hrwf hrtaken, hin₂⟩

/-! ### Messages -/

/-- What is written to the server leaves the stream from it, and the inflaters. -/
def Quiet (x : ConnM I Unit) : Prop :=
  ∀ c, ∃ c', x c = .ok () c' ∧ c'.is = c.is ∧ c'.zlibInflater = c.zlibInflater ∧
    c'.zrleInStream = c.zrleInStream

lemma quiet_pure : Quiet (I := I) (pure ()) := fun c => ⟨c, rfl, rfl, rfl, rfl⟩

lemma quiet_write (bs : List UInt8) : Quiet (I := I) (write bs) := fun _ => ⟨_, rfl, rfl, rfl, rfl⟩

lemma Quiet.bind {x y : ConnM I Unit} (hx : Quiet x) (hy : Quiet y) :
    Quiet (x >>= fun _ => y) := by
  intro c
  obtain ⟨c₁, hrun, his, hzlib, hzrle⟩ := hx c
  obtain ⟨c₂, hrun', his', hzlib', hzrle'⟩ := hy c₁
  exact ⟨c₂, (bind_ok hrun).trans hrun', his'.trans his, hzlib'.trans hzlib, hzrle'.trans hzrle⟩

lemma quiet_get {f : Conn I → ConnM I Unit} (hf : ∀ c, Quiet (f c)) : Quiet (get >>= f) :=
  fun c => hf c c

lemma quiet_if {p : Prop} [Decidable p] {x y : ConnM I Unit} (hx : Quiet x) (hy : Quiet y) :
    Quiet (if p then x else y) := by
  split_ifs
  · exact hx
  · exact hy

lemma quiet_setEncodings (autoSelectOnly : Bool) : Quiet (I := I) (setEncodings autoSelectOnly) := by
  apply quiet_get
  intro c
  apply quiet_if quiet_pure
  apply quiet_if quiet_pure
  apply Quiet.bind
  · exact fun _ => ⟨_, rfl, rfl, rfl, rfl⟩
  · exact quiet_if (Quiet.bind (quiet_write _) fun _ => ⟨_, rfl, rfl, rfl, rfl⟩) quiet_pure

lemma quiet_requestUpdate (layout : Layout) : Quiet (I := I) (requestUpdate layout) := by
  have hrequest : ∀ incremental, Quiet (I := I) (writeFullUpdateRequest layout incremental) := by
    intro incremental
    cases layout <;> exact quiet_write _
  apply quiet_get
  intro c
  have hpixel : ∀ m, Quiet (I := I) (setPixelFormat m) := fun m =>
    Quiet.bind (quiet_write _) fun _ => ⟨_, rfl, rfl, rfl, rfl⟩
  cases c.pendingColorModel with
  | none => exact (quiet_setEncodings true).bind (hrequest _)
  | some m => exact Quiet.bind (hpixel m) ((quiet_setEncodings true).bind (hrequest _))

/-- A row of two pixels. -/
def twoPixels : List Pixel := [⟨5, 0, 0, 0⟩, ⟨9, 0, 0, 0⟩]

/-- A row of two pixels as they are and one that is compressed, and the last rectangle in front of
one that is never sent. -/
def twoRows : Update where
  padding := 0
  nRects := 4
  rects := [⟨0, 0, 2, 1, .raw twoPixels⟩, ⟨0, 1, 2, 1, .zlib [1, 2, 3] twoPixels⟩,
    ⟨0, 0, 0, 0, .lastRect⟩]
  counted := rfl

/-- The client after the initialisation for a frame of two rows of two pixels. -/
def VncCanvas.small (I : Inflater) (is : List UInt8) : VncCanvas I :=
  ⟨.initial I 2 2 .c256 is, .initial 2 2 (by decide)⟩

/-- What is left on the stream after a run, or what was thrown. -/
def streamAfter (r : EStateM.Result Exn (VncCanvas I) Unit) : Except Exn (List UInt8) :=
  match r with
  | .ok _ t => .ok t.conn.is
  | .error e _ => .error e

lemma exists_of_streamAfter_ok {r : EStateM.Result Exn (VncCanvas I) Unit} {is : List UInt8}
    (h : streamAfter r = .ok is) : ∃ t, r = .ok () t ∧ t.conn.is = is := by
  cases r with
  | ok b t => exact ⟨t, rfl, Except.ok.inj h⟩
  | error e t => cases h

lemma exists_of_streamAfter_error {r : EStateM.Result Exn (VncCanvas I) Unit} {e : Exn}
    (h : streamAfter r = .error e) : ∃ t, r = .error e t := by
  cases r with
  | ok b t => cases h
  | error e' t => exact ⟨t, congrArg (EStateM.Result.error · t) (Except.error.inj h)⟩

/-- A copy of the pixel at the origin to the place beside it. -/
def copied : Update where
  padding := 0
  nRects := 1
  rects := [⟨1, 0, 1, 1, .copyRect 0 0⟩]
  counted := rfl

/-- A frame with one subrectangle. -/
def compact : Update where
  padding := 0
  nRects := 1
  rects := [⟨0, 0, 2, 2, .coRRE ⟨5, 0, 0, 0⟩ [⟨⟨9, 0, 0, 0⟩, 1, 1, 1, 1⟩]⟩]
  counted := rfl

end Limbo.Vnc
