import Limbo.VncServer.ClientMessages

/-!
# The stream of a client

The messages of a stream as the protocol delimits them, and the reads of the server: whatever the
pieces in which the stream comes, the server performs the same messages, unless the client announces
a text whose length does not fit an `int`.
-/

namespace Limbo.VncServer

open Lib

/-! ### The protocol -/

/-- What the beginning of a stream tells of the length of the first message. -/
inductive Head where
  | unknown
  | length (n : ℕ)
  | invalid
deriving DecidableEq, Repr

/-- The lengths of the messages of a client. -/
def head (data : List UInt8) : Head :=
  if data.length < 1 then .unknown
  else
    match readU8 data 0 with
    | 0 => .length 20
    | 2 => if data.length < 4 then .unknown else .length (4 + 4 * readU16 data 2)
    | 3 => .length 10
    | 4 => .length 8
    | 5 => .length 6
    | 6 => if data.length < 8 then .unknown else .length (8 + readU32 data 4)
    | 255 =>
      if data.length < 2 then .unknown
      else
        match readU8 data 1 with
        | 0 => .length 12
        | 1 =>
          if data.length < 4 then .unknown
          else
            match readU16 data 2 with
            | 0 => .length 4
            | 1 => .length 4
            | 2 => .length 10
            | _ => .invalid
        | _ => .invalid
    | _ => .invalid

/-- What the server does for a whole message, and whether it goes on. -/
def perform (message : List UInt8) : List Call × Bool :=
  match protocolClientMsg message message.length with
  | .done calls connected => (calls, connected)
  | .again _ => ([], false)

/-- A stream in messages. `starts` is what is left of it wherever a message is to begin. -/
structure Framing where
  messages : List (List UInt8)
  calls : List Call
  connected : Bool
  rest : List UInt8
  starts : List (List UInt8)

def frame (data : List UInt8) : Framing :=
  match head data with
  | .unknown => ⟨[], [], true, data, [data]⟩
  | .invalid => ⟨[], [], false, data, [data]⟩
  | .length n =>
    if _h : 0 < n ∧ n ≤ data.length then
      let (calls, connected) := perform (data.take n)
      if connected then
        let f := frame (data.drop n)
        ⟨data.take n :: f.messages, calls ++ f.calls, f.connected, f.rest, data :: f.starts⟩
      else ⟨[], calls, false, data, [data]⟩
    else ⟨[], [], true, data, [data]⟩
termination_by data.length
decreasing_by rw [List.length_drop]; omega

/-- A text that the client announces in this message has a length that fits an `int`, or at least
one that `vnc_client_read()` makes the same `size_t` of, when it is there. -/
def TextFits (wide : Bool) (data : List UInt8) : Prop :=
  readU8 data 0 = 6 → 8 ≤ data.length → 8 + readU32 data 4 < 2 ^ 32 ∧
    (8 + readU32 data 4 ≤ data.length →
      toSize wide (toInt (8 + readU32 data 4 : ℕ)) = 8 + readU32 data 4)

instance (wide : Bool) (data : List UInt8) : Decidable (TextFits wide data) :=
  inferInstanceAs (Decidable (_ → _ → _ ∧ (_ → _)))

variable {wide : Bool} {data more : List UInt8} {e n : ℕ}

section Frame

lemma frame_of_unknown (h : head data = .unknown) : frame data = ⟨[], [], true, data, [data]⟩ := by
  rw [frame, h]

lemma frame_of_invalid (h : head data = .invalid) : frame data = ⟨[], [], false, data, [data]⟩ := by
  rw [frame, h]

lemma frame_of_lt (h : head data = .length n) (hn : data.length < n) :
    frame data = ⟨[], [], true, data, [data]⟩ := by
  rw [frame, h]
  exact dif_neg fun h => by omega

lemma frame_of_refused (h : head data = .length n) (hpos : 0 < n) (hn : n ≤ data.length)
    (hperform : (perform (data.take n)).2 = false) :
    frame data = ⟨[], (perform (data.take n)).1, false, data, [data]⟩ := by
  rw [frame, h]
  simp [hpos, hn, hperform]

lemma frame_of_message (h : head data = .length n) (hpos : 0 < n) (hn : n ≤ data.length)
    (hperform : (perform (data.take n)).2 = true) :
    frame data = ⟨data.take n :: (frame (data.drop n)).messages,
      (perform (data.take n)).1 ++ (frame (data.drop n)).calls, (frame (data.drop n)).connected,
      (frame (data.drop n)).rest, data :: (frame (data.drop n)).starts⟩ := by
  rw [frame, h]
  simp [hpos, hn, hperform]

end Frame

/-! ### Reading on -/

lemma readU8_append {i : ℕ} (h : i < data.length) : readU8 (data ++ more) i = readU8 data i := by
  rw [readU8, readU8, List.getD_append _ _ _ _ h]

lemma readU16_append (more : List UInt8) {i : ℕ} (h : i + 1 < data.length) :
    readU16 (data ++ more) i = readU16 data i := by
  rw [readU16, readU16, readU8_append (by omega), readU8_append h]

lemma readU32_append (more : List UInt8) {i : ℕ} (h : i + 3 < data.length) :
    readU32 (data ++ more) i = readU32 data i := by
  rw [readU32, readU32, readU8_append (by omega), readU8_append (by omega),
    readU8_append (by omega), readU8_append h]

lemma head_pos (h : head data = .length n) : 0 < n := by
  unfold head at h
  split at h
  · cases h
  split at h
  any_goals (cases h; omega)
  · split at h
    · cases h
    · cases h; omega
  · split at h
    · cases h
    · cases h; omega
  · split at h
    · cases h
    split at h
    · cases h; omega
    · split at h
      · cases h
      split at h <;> cases h <;> omega
    · cases h
  · cases h

/-- What has been told of the first message remains so. -/
lemma head_append (more : List UInt8) (h : head data ≠ .unknown) : head (data ++ more) = head data := by
  have h1 : ¬ data.length < 1 := fun hlt => h (by rw [head, if_pos hlt])
  have h1' : ¬ (data ++ more).length < 1 := by rw [List.length_append]; omega
  unfold head at h ⊢
  rw [if_neg h1] at h ⊢
  rw [if_neg h1', readU8_append (by omega)]
  rw [List.length_append]
  split at h
  any_goals rfl
  · have h4 : ¬ data.length < 4 := fun hlt => h (if_pos hlt)
    rw [if_neg h4, if_neg (by omega), readU16_append _ (by omega)]
  · have h8 : ¬ data.length < 8 := fun hlt => h (if_pos hlt)
    rw [if_neg h8, if_neg (by omega), readU32_append _ (by omega)]
  · have h2 : ¬ data.length < 2 := fun hlt => h (if_pos hlt)
    rw [if_neg h2] at h ⊢
    rw [if_neg (by omega), readU8_append (by omega)]
    split at h
    any_goals rfl
    have h4 : ¬ data.length < 4 := fun hlt => h (if_pos hlt)
    rw [if_neg h4, if_neg (by omega), readU16_append _ (by omega)]

lemma readU8_take {i : ℕ} (h : i < n) : readU8 (data.take n) i = readU8 data i := by
  rw [readU8, readU8, List.getD_eq_getElem?_getD, List.getD_eq_getElem?_getD,
    List.getElem?_take_of_lt h]

lemma readU16_take {i : ℕ} (h : i + 1 < n) : readU16 (data.take n) i = readU16 data i := by
  rw [readU16, readU16, readU8_take (by omega), readU8_take h]

lemma readU32_take {i : ℕ} (h : i + 3 < n) : readU32 (data.take n) i = readU32 data i := by
  rw [readU32, readU32, readU8_take (by omega), readU8_take (by omega), readU8_take (by omega),
    readU8_take h]

lemma toSize_natCast (h : n < 2 ^ 32) : toSize wide n = n := by
  rw [toSize]
  cases wide <;> simp <;> omega

/-- The length of a text that is not too long for an `int`, or is only too long for it. -/
lemma le_toSize_toInt (wide : Bool) (h : n < 2 ^ 32) : n ≤ toSize wide (toInt n) := by
  rw [toSize, toInt, Int.bmod_def]
  cases wide <;> simp <;> split_ifs <;> omega

/-! ### The handler while a message comes -/

/-- What the first byte makes the handler wait for. -/
def firstLengths : List (ℕ × ℕ) := [(0, 20), (2, 4), (3, 10), (4, 8), (5, 6), (6, 8), (255, 2)]

/-- The numbers of bytes that the handler may be called with while a message comes. -/
inductive Stage (wide : Bool) (data : List UInt8) : ℕ → Prop
  | first : Stage wide data 1
  | fixed {n : ℕ} (hlen : 1 ≤ data.length) (h : (readU8 data 0, n) ∈ firstLengths) :
      Stage wide data n
  | encodings (hlen : 4 ≤ data.length) (h : readU8 data 0 = 2) (hpos : 0 < readU16 data 2) :
      Stage wide data (4 + 4 * readU16 data 2)
  | cutText (hlen : 8 ≤ data.length) (h : readU8 data 0 = 6) (hpos : 0 < readU32 data 4) :
      Stage wide data (toSize wide (toInt (8 + readU32 data 4 : ℕ)))
  | extKey (hlen : 2 ≤ data.length) (h : readU8 data 0 = 255) (hsub : readU8 data 1 = 0) :
      Stage wide data 12
  | audio (hlen : 2 ≤ data.length) (h : readU8 data 0 = 255) (hsub : readU8 data 1 = 1) :
      Stage wide data 4
  | audioFormat (hlen : 4 ≤ data.length) (h : readU8 data 0 = 255) (hsub : readU8 data 1 = 1)
      (hop : readU16 data 2 = 2) : Stage wide data 10

lemma Stage.append (h : Stage wide data e) (more : List UInt8) : Stage wide (data ++ more) e := by
  have hlen : data.length ≤ (data ++ more).length := by rw [List.length_append]; omega
  cases h with
  | first => exact .first
  | fixed hl h => exact .fixed (hl.trans hlen) (by rwa [readU8_append (by omega)])
  | encodings hl h hpos =>
    rw [← readU16_append more (by omega)] at hpos ⊢
    exact .encodings (hl.trans hlen) (by rwa [readU8_append (by omega)]) hpos
  | cutText hl h hpos =>
    rw [← readU32_append more (by omega)] at hpos ⊢
    exact .cutText (hl.trans hlen) (by rwa [readU8_append (by omega)]) hpos
  | extKey hl h hsub =>
    exact .extKey (hl.trans hlen) (by rwa [readU8_append (by omega)])
      (by rwa [readU8_append (by omega)])
  | audio hl h hsub =>
    exact .audio (hl.trans hlen) (by rwa [readU8_append (by omega)])
      (by rwa [readU8_append (by omega)])
  | audioFormat hl h hsub hop =>
    exact .audioFormat (hl.trans hlen) (by rwa [readU8_append (by omega)])
      (by rwa [readU8_append (by omega)]) (by rwa [readU16_append _ (by omega)])

lemma reply_first (hlen : 1 ≤ data.length) :
    (∃ n : ℕ, (readU8 data 0, n) ∈ firstLengths ∧ protocolClientMsg data 1 = .again n) ∨
      protocolClientMsg data 1 = .done [] false ∧ head data = .invalid := by
  rw [protocolClientMsg, head, if_neg (show ¬ data.length < 1 by omega)]
  split
  any_goals exact .inl ⟨_, by simp [firstLengths, *], rfl⟩
  exact .inr ⟨rfl, by simp [*]⟩

/-- The handler has the message: it takes what the protocol says, and looks at nothing else. -/
def Takes (data : List UInt8) (n : ℕ) : Prop :=
  head data = .length n ∧ ∃ calls connected,
    protocolClientMsg data n = .done calls connected ∧
      protocolClientMsg (data.take n) n = .done calls connected

/-- The handler asks for more of the message. -/
def AsksFor (wide : Bool) (data : List UInt8) (n n' : ℕ) : Prop :=
  ∃ ret, protocolClientMsg data n = .again ret ∧ ret ≠ 0 ∧ toSize wide ret = n' ∧ n < n' ∧
    Stage wide data n'

/-- The message is none. -/
def Refuses (data : List UInt8) (n : ℕ) : Prop :=
  protocolClientMsg data n = .done [] false ∧ head data = .invalid

lemma ne_nil_of_le (h : n ≤ data.length) (hpos : 0 < n) : data ≠ [] := by
  rintro rfl
  exact absurd h hpos.not_ge

lemma takes_encodings (hlen : 4 + 4 * readU16 data 2 ≤ data.length) (h : readU8 data 0 = 2)
    (hlimit : readU16 data 2 = 0 ∨ n ≠ 4) (hn : n = 4 + 4 * readU16 data 2) : Takes data n := by
  subst hn
  have hne := ne_nil_of_le hlen (by omega)
  have h4 : ¬ data.length < 4 := by omega
  have hcond : ¬ (4 + 4 * readU16 data 2 = 4 ∧ readU16 data 2 > 0) := by omega
  refine ⟨by simp [head, h, hne, h4], [.setEncodings ((List.range (readU16 data 2)).map fun i =>
    readS32 data (4 + i * 4))], true, ?_, ?_⟩
  · simp only [protocolClientMsg, h, if_neg (show ¬ 4 + 4 * readU16 data 2 = 1 by omega),
      if_neg hcond]
  · have hmap : ((List.range (readU16 data 2)).map fun i =>
        readS32 (data.take (4 + 4 * readU16 data 2)) (4 + i * 4)) =
        (List.range (readU16 data 2)).map fun i => readS32 data (4 + i * 4) := by
      apply List.map_congr_left
      intro i hi
      have hi := List.mem_range.mp hi
      rw [readS32, readS32, readU32_take (by omega)]
    simp only [protocolClientMsg, readU8_take (show 0 < 4 + 4 * readU16 data 2 by omega), h,
      readU16_take (show 2 + 1 < 4 + 4 * readU16 data 2 by omega),
      if_neg (show ¬ 4 + 4 * readU16 data 2 = 1 by omega), if_neg hcond, hmap]

lemma takes_cutText (hlen : n ≤ data.length) (h : readU8 data 0 = 6) (hn8 : 8 ≤ n)
    (hn : n = 8 + readU32 data 4) (hcond : ¬ (n = 8 ∧ readU32 data 4 > 0)) : Takes data n := by
  have hne := ne_nil_of_le hlen (by omega)
  have h8 : ¬ data.length < 8 := by omega
  refine ⟨by simp [head, h, hne, h8, hn], [.clientCutText (readU32 data 4)], true, ?_, ?_⟩
  · simp only [protocolClientMsg, h, if_neg (show ¬ n = 1 by omega), if_neg hcond]
  · simp only [protocolClientMsg, readU8_take (show 0 < n by omega), h,
      readU32_take (show 4 + 3 < n by omega), if_neg (show ¬ n = 1 by omega), if_neg hcond]

lemma reply_fixed (hlen : n ≤ data.length) (h : (readU8 data 0, n) ∈ firstLengths)
    (hfits : TextFits wide data) :
    Takes data n ∨ (∃ n', AsksFor wide data n n') ∨ Refuses data n := by
  simp only [firstLengths, List.mem_cons, Prod.mk.injEq, List.not_mem_nil, or_false] at h
  rcases h with ⟨h, rfl⟩ | ⟨h, rfl⟩ | ⟨h, rfl⟩ | ⟨h, rfl⟩ | ⟨h, rfl⟩ | ⟨h, rfl⟩ | ⟨h, rfl⟩ <;>
    have hne := ne_nil_of_le hlen (by decide)
  · left
    simp [Takes, protocolClientMsg, head, h, hne, readU8_take, readU16_take]
    exact em _
  · rcases Nat.eq_zero_or_pos (readU16 data 2) with hzero | hpos
    · exact .inl (takes_encodings (by omega) h (.inl hzero) (by omega))
    · have hlt := readU16_lt data 2
      refine .inr (.inl ⟨4 + 4 * readU16 data 2, (4 + 4 * readU16 data 2 : ℕ), ?_, by omega,
        toSize_natCast (by omega), by omega, .encodings hlen h hpos⟩)
      simp [protocolClientMsg, h, hpos, mul_comm]
  · left
    simp [Takes, protocolClientMsg, head, h, hne, readU8_take, readU16_take]
  · left
    simp [Takes, protocolClientMsg, head, h, hne, readU8_take, readU32_take]
  · left
    simp [Takes, protocolClientMsg, head, h, hne, readU8_take, readU16_take]
  · rcases Nat.eq_zero_or_pos (readU32 data 4) with hzero | hpos
    · exact .inl (takes_cutText hlen h le_rfl (by omega) (by omega))
    · obtain ⟨hlt, -⟩ := hfits h hlen
      have hle := le_toSize_toInt wide hlt
      refine .inr (.inl ⟨_, toInt (8 + readU32 data 4 : ℕ), ?_, ?_, rfl, by omega,
        .cutText hlen h hpos⟩)
      · simp [protocolClientMsg, h, hpos]
      · intro hzero
        rw [hzero] at hle
        simp [toSize] at hle
  · by_cases hsub : readU8 data 1 = 0
    · refine .inr (.inl ⟨12, 12, by simp [protocolClientMsg, h, hsub], by decide,
        toSize_natCast (by decide), by decide, .extKey hlen h hsub⟩)
    by_cases hsub1 : readU8 data 1 = 1
    · refine .inr (.inl ⟨4, 4, by simp [protocolClientMsg, h, hsub1], by decide,
        toSize_natCast (by decide), by decide, .audio hlen h hsub1⟩)
    have h2 : ¬ data.length < 2 := by omega
    exact .inr (.inr ⟨by simp [protocolClientMsg, h], by simp [head, h, hne, h2]⟩)

/-- The handler in the middle of a message of which enough has come. -/
lemma reply_of_stage (h : Stage wide data n) (hlen : n ≤ data.length)
    (hfits : TextFits wide data) :
    Takes data n ∨ (∃ n', AsksFor wide data n n') ∨ Refuses data n := by
  cases h with
  | first =>
    rcases reply_first hlen with ⟨n, hmem, hreply⟩ | hreply
    · have hn : ∀ k n, (k, n) ∈ firstLengths → 1 < n ∧ n < 2 ^ 32 := by
        simp [firstLengths]
        omega
      obtain ⟨hpos, hlt⟩ := hn _ _ hmem
      exact .inr (.inl ⟨n, n, hreply, by omega, toSize_natCast hlt, hpos, .fixed hlen hmem⟩)
    · exact .inr (.inr hreply)
  | fixed _ h => exact reply_fixed hlen h hfits
  | encodings _ h hpos => exact .inl (takes_encodings hlen h (.inr (by omega)) rfl)
  | cutText hl h hpos =>
    obtain ⟨hlt, heq⟩ := hfits h hl
    have hle := le_toSize_toInt wide hlt
    have heq := heq (hle.trans hlen)
    exact .inl (takes_cutText hlen h (by omega) heq (by omega))
  | extKey hl h hsub =>
    left
    have hne := ne_nil_of_le hl (by decide)
    have h2 : ¬ data.length < 2 := by omega
    simp [Takes, protocolClientMsg, head, h, hne, h2, hsub, readU8_take, readU16_take,
      readU32_take]
  | audio hl h hsub =>
    have hne := ne_nil_of_le hl (by decide)
    have h2 : ¬ data.length < 2 := by omega
    have h4 : ¬ data.length < 4 := by omega
    by_cases hop0 : readU16 data 2 = 0
    · left
      simp [Takes, protocolClientMsg, head, h, hne, h2, h4, hsub, hop0, readU8_take, readU16_take]
    by_cases hop1 : readU16 data 2 = 1
    · left
      simp [Takes, protocolClientMsg, head, h, hne, h2, h4, hsub, hop1, readU8_take, readU16_take]
    by_cases hop2 : readU16 data 2 = 2
    · refine .inr (.inl ⟨10, 10, by simp [protocolClientMsg, h, hsub, hop2], by decide,
        toSize_natCast (by decide), by decide, .audioFormat hlen h hsub hop2⟩)
    exact .inr (.inr ⟨by simp [protocolClientMsg, h, hsub], by simp [head, h, hne, h2, h4, hsub]⟩)
  | audioFormat hl h hsub hop =>
    left
    have hne := ne_nil_of_le hl (by decide)
    have h2 : ¬ data.length < 2 := by omega
    have h4 : ¬ data.length < 4 := by omega
    simp [Takes, protocolClientMsg, head, h, hne, h2, h4, hsub, hop, audioSetFormat, readU8_take,
      readU16_take, readU32_take]

/-- Not enough has come of the message. -/
lemma frame_of_stage_lt (h : Stage wide data n) (hlen : data.length < n)
    (hfits : TextFits wide data) : frame data = ⟨[], [], true, data, [data]⟩ := by
  cases h with
  | first => exact frame_of_unknown (by simp [head, List.length_eq_zero_iff.mp (by omega : data.length = 0)])
  | fixed hl h =>
    have hne := ne_nil_of_le hl (by decide)
    simp only [firstLengths, List.mem_cons, Prod.mk.injEq, List.not_mem_nil, or_false] at h
    rcases h with ⟨h, rfl⟩ | ⟨h, rfl⟩ | ⟨h, rfl⟩ | ⟨h, rfl⟩ | ⟨h, rfl⟩ | ⟨h, rfl⟩ | ⟨h, rfl⟩
    · exact frame_of_lt (by simp [head, h, hne]) hlen
    · exact frame_of_unknown (by simp [head, h, hlen])
    · exact frame_of_lt (by simp [head, h, hne]) hlen
    · exact frame_of_lt (by simp [head, h, hne]) hlen
    · exact frame_of_lt (by simp [head, h, hne]) hlen
    · exact frame_of_unknown (by simp [head, h, hlen])
    · exact frame_of_unknown (by simp [head, h, hlen])
  | encodings hl h hpos =>
    have hne := ne_nil_of_le hl (by decide)
    have h4 : ¬ data.length < 4 := by omega
    exact frame_of_lt (by simp [head, h, hne, h4]) hlen
  | cutText hl h hpos =>
    have hne := ne_nil_of_le hl (by decide)
    have h8 : ¬ data.length < 8 := by omega
    refine frame_of_lt (n := 8 + readU32 data 4) (by simp [head, h, hne, h8]) ?_
    by_contra hle
    have := (hfits h hl).2 (by omega)
    omega
  | extKey hl h hsub =>
    have hne := ne_nil_of_le hl (by decide)
    have h2 : ¬ data.length < 2 := by omega
    exact frame_of_lt (by simp [head, h, hne, h2, hsub]) hlen
  | audio hl h hsub =>
    have hne := ne_nil_of_le hl (by decide)
    have h2 : ¬ data.length < 2 := by omega
    exact frame_of_unknown (by simp [head, h, hne, h2, hsub, hlen])
  | audioFormat hl h hsub hop =>
    have hne := ne_nil_of_le hl (by decide)
    have h2 : ¬ data.length < 2 := by omega
    have h4 : ¬ data.length < 4 := by omega
    exact frame_of_lt (by simp [head, h, hne, h2, h4, hsub, hop]) hlen

lemma mem_starts (data : List UInt8) : data ∈ (frame data).starts := by
  rw [frame]
  split
  · exact List.mem_singleton.mpr rfl
  · exact List.mem_singleton.mpr rfl
  · split_ifs
    · dsimp only
      split_ifs <;> simp
    · exact List.mem_singleton.mpr rfl

/-! ### Reads -/

namespace Input

/-- A read has ended with what the protocol makes of the input. -/
structure Ends (wide : Bool) (s t : Input) : Prop where
  consumed : t.consumed = s.consumed ++ (frame s.input).messages
  calls : t.calls = s.calls ++ (frame s.input).calls
  connected : t.connected = (frame s.input).connected
  input : t.input = (frame s.input).rest
  stage : t.connected → Stage wide t.input t.expect

lemma dispatch_eq {s : Input} (hconnected : s.connected = true) (hlen : s.expect ≤ s.input.length) :
    dispatch wide s = some (s.answer wide s.expect (protocolClientMsg s.input s.expect)) :=
  if_pos ⟨hconnected, hlen⟩

lemma dispatch_of_disconnected (wide : Bool) {s : Input} (h : s.connected = false) : dispatch wide s = none :=
  if_neg fun hcond => by simp [h] at hcond

lemma loop_iff {s t : Input} (hconnected : s.connected = true)
    (hlen : s.expect ≤ s.input.length) {reply : Reply}
    (hreply : protocolClientMsg s.input s.expect = reply) :
    Loop (dispatch wide) s t ↔ Loop (dispatch wide) (s.answer wide s.expect reply) t :=
  Loop.next_iff (hreply ▸ dispatch_eq hconnected hlen)

lemma loop_disconnected {s t : Input} (h : s.connected = false) :
    Loop (dispatch wide) s t ↔ t = s := by
  have hnone := dispatch_of_disconnected wide h
  exact ⟨Loop.of_none hnone, by rintro rfl; exact .stop hnone⟩

/-- The handler is called until it has the message, or until there is not enough of it. -/
lemma exists_stage (s : Input) (hconnected : s.connected = true)
    (hstage : Stage wide s.input s.expect) (hfits : TextFits wide s.input) :
    ∃ n, Stage wide s.input n ∧
      (∀ t, Loop (dispatch wide) s t ↔ Loop (dispatch wide) { s with expect := n } t) ∧
      (s.input.length < n ∨ n ≤ s.input.length ∧ (Takes s.input n ∨ Refuses s.input n)) := by
  by_cases hlen : s.expect ≤ s.input.length
  · rcases reply_of_stage hstage hlen hfits with
      htakes | ⟨n', ret, hreply, hret, hn', hlt, hstage'⟩ | hrefuses
    · exact ⟨s.expect, hstage, fun _ => Iff.rfl, .inr ⟨hlen, .inl htakes⟩⟩
    · obtain ⟨n, hn, hloop, hend⟩ := exists_stage { s with expect := n' } hconnected hstage' hfits
      refine ⟨n, hn, fun t => ?_, hend⟩
      rw [loop_iff hconnected hlen hreply, answer, if_neg hret, hn']
      exact hloop t
    · exact ⟨s.expect, hstage, fun _ => Iff.rfl, .inr ⟨hlen, .inr hrefuses⟩⟩
  · exact ⟨s.expect, hstage, fun _ => Iff.rfl, .inl (by omega)⟩
termination_by s.input.length + 1 - s.expect
decreasing_by omega

lemma perform_of_takes {calls : List Call} {connected : Bool} (hlen : n ≤ data.length)
    (htake : protocolClientMsg (data.take n) n = .done calls connected) :
    perform (data.take n) = (calls, connected) := by
  rw [perform, List.length_take, min_eq_left hlen, htake]

/-- The loop ends, and the server has performed the messages that are there. -/
lemma exists_loop (s : Input) (hconnected : s.connected = true)
    (hstage : Stage wide s.input s.expect)
    (hfits : ∀ d ∈ (frame s.input).starts, TextFits wide d) :
    ∃ t, Loop (dispatch wide) s t ∧ Ends wide s t := by
  have hfits' := hfits _ (mem_starts _)
  obtain ⟨n, hn, hloop, hlen | ⟨hlen, ⟨hhead, calls, connected, hreply, htake⟩ | ⟨hreply, hhead⟩⟩⟩ :=
    exists_stage s hconnected hstage hfits'
  · have hframe := frame_of_stage_lt hn hlen hfits'
    refine ⟨{ s with expect := n }, (hloop _).mpr (.stop (if_neg fun h => ?_)), ?_⟩
    · exact absurd h.2 (not_le.mpr hlen)
    · constructor <;> simp [hframe, hconnected, hn]
  · have hperform := perform_of_takes hlen htake
    have hpos := head_pos hhead
    have hnext := fun t => (hloop t).trans (loop_iff (s := { s with expect := n }) hconnected hlen hreply)
    cases connected with
    | false =>
      have hframe := frame_of_refused hhead hpos hlen (by rw [hperform])
      refine ⟨_, (hnext _).mpr ((loop_disconnected rfl).mpr rfl), ?_⟩
      constructor <;> simp [answer, hframe, hperform]
    | true =>
      have hframe := frame_of_message hhead hpos hlen (by rw [hperform])
      rw [hframe] at hfits
      obtain ⟨t, hloop', hends⟩ := exists_loop
        ({ s with expect := n }.answer wide n (.done calls true)) hconnected .first
        fun d hd => hfits d (List.mem_cons_of_mem _ hd)
      refine ⟨t, (hnext t).mpr hloop', ?_, ?_, ?_, ?_, hends.stage⟩
      · simp [hends.consumed, hframe, answer, consume]
      · simp [hends.calls, hframe, hperform, answer, consume]
      · simp [hends.connected, hframe, answer, consume]
      · simp [hends.input, hframe, answer, consume]
  · have hnext := fun t => (hloop t).trans (loop_iff (s := { s with expect := n }) hconnected hlen hreply)
    have hframe := frame_of_invalid hhead
    refine ⟨_, (hnext _).mpr ((loop_disconnected rfl).mpr rfl), ?_⟩
    constructor <;> simp [answer, hframe]
termination_by s.input.length
decreasing_by
  simp only [answer, consume, if_true, List.length_drop]
  omega

end Input

/-! ### Fragments -/

/-- The messages of a longer stream. -/
lemma frame_append (data more : List UInt8) :
    if (frame data).connected then
      (frame (data ++ more)).messages =
        (frame data).messages ++ (frame ((frame data).rest ++ more)).messages ∧
      (frame (data ++ more)).calls =
        (frame data).calls ++ (frame ((frame data).rest ++ more)).calls ∧
      (frame (data ++ more)).connected = (frame ((frame data).rest ++ more)).connected ∧
      (frame (data ++ more)).rest = (frame ((frame data).rest ++ more)).rest ∧
      (∀ d ∈ (frame ((frame data).rest ++ more)).starts, d ∈ (frame (data ++ more)).starts) ∧
      ∀ d ∈ (frame data).starts, d ++ more ∈ (frame (data ++ more)).starts
    else
      (frame (data ++ more)).messages = (frame data).messages ∧
      (frame (data ++ more)).calls = (frame data).calls ∧
      (frame (data ++ more)).connected = false ∧
      ∀ d ∈ (frame data).starts, d ++ more ∈ (frame (data ++ more)).starts := by
  have hmem := mem_starts (data ++ more)
  cases hhead : head data with
  | unknown => simp [frame_of_unknown hhead, hmem]
  | invalid =>
    have hhead' := (head_append more (by simp [hhead])).trans hhead
    simp [frame_of_invalid hhead, frame_of_invalid hhead']
  | length n =>
    have hhead' := (head_append more (by simp [hhead])).trans hhead
    have hpos := head_pos hhead
    by_cases hlen : n ≤ data.length
    · have hlen' : n ≤ (data ++ more).length := by rw [List.length_append]; omega
      have htake : (data ++ more).take n = data.take n := List.take_append_of_le_length hlen
      have hdrop : (data ++ more).drop n = data.drop n ++ more := List.drop_append_of_le_length hlen
      cases hperform : (perform (data.take n)).2 with
      | false =>
        rw [frame_of_refused hhead hpos hlen hperform,
          frame_of_refused hhead' hpos hlen' (by rw [htake, hperform])]
        simp [htake]
      | true =>
        rw [frame_of_message hhead hpos hlen hperform,
          frame_of_message hhead' hpos hlen' (by rw [htake, hperform]), htake, hdrop]
        have ih := frame_append (data.drop n) more
        cases hconnected : (frame (data.drop n)).connected with
        | false =>
          rw [hconnected, if_neg (by decide)] at ih
          obtain ⟨hmessages, hcalls, hconn, hstarts⟩ := ih
          simp [hmessages, hcalls, hconn]
          exact fun d hd => .inr (hstarts d hd)
        | true =>
          rw [hconnected, if_pos rfl] at ih
          obtain ⟨hmessages, hcalls, hconn, hrest, hsuffix, hstarts⟩ := ih
          simp [hmessages, hcalls, hconn, hrest]
          exact ⟨fun d hd => .inr (hsuffix d hd), fun d hd => .inr (hstarts d hd)⟩
    · simp [frame_of_lt hhead (by omega), hmem]
termination_by data.length
decreasing_by rw [List.length_drop]; omega

lemma TextFits.of_append (h : TextFits wide (data ++ more)) : TextFits wide data := by
  intro hkind hlen
  rw [TextFits, readU8_append (by omega), readU32_append _ (by omega), List.length_append] at h
  obtain ⟨hlt, heq⟩ := h hkind (by omega)
  exact ⟨hlt, fun hle => heq (by omega)⟩

namespace Input

/-- What the server has done of a stream, however it has come. -/
structure After (wide : Bool) (stream : List UInt8) (s : Input) : Prop where
  consumed : s.consumed = (frame stream).messages
  calls : s.calls = (frame stream).calls
  connected : s.connected = (frame stream).connected
  input : s.connected → s.input = (frame stream).rest
  stage : s.connected → Stage wide s.input s.expect

lemma after_init : After wide [] init := by
  have hframe : frame [] = ⟨[], [], true, [], [[]]⟩ := frame_of_unknown rfl
  constructor <;> simp [hframe, init, Stage.first]

lemma read_iff {s t : Input} {bytes : List UInt8} (hconnected : s.connected = true) :
    s.Read wide bytes t ↔ Loop (dispatch wide) { s with input := s.input ++ bytes } t := by
  rw [Read, if_pos hconnected]

/-- One more read. -/
lemma After.read {s : Input} (h : After wide data s)
    (hfits : ∀ d ∈ (frame (data ++ more)).starts, TextFits wide d) :
    ∃ t, s.Read wide more t ∧ After wide (data ++ more) t := by
  have happend := frame_append data more
  cases hconnected : s.connected with
  | false =>
    rw [← h.connected, hconnected, if_neg (by decide)] at happend
    obtain ⟨hmessages, hcalls, hconn, -⟩ := happend
    refine ⟨s, by simp [Read, hconnected], h.consumed.trans hmessages.symm,
      h.calls.trans hcalls.symm, hconnected.trans hconn.symm, ?_, ?_⟩ <;> simp [hconnected]
  | true =>
    have hrest := h.input hconnected
    rw [← h.connected, hconnected, if_pos rfl] at happend
    obtain ⟨hmessages, hcalls, hconn, hrest', hsuffix, -⟩ := happend
    obtain ⟨t, hloop, hends⟩ := exists_loop { s with input := s.input ++ more } hconnected
      ((h.stage hconnected).append more) fun d hd => hfits d (hsuffix d (hrest ▸ hd))
    refine ⟨t, (read_iff hconnected).mpr hloop, ?_, ?_, ?_, fun _ => ?_, hends.stage⟩
    · rw [hends.consumed, hmessages, ← h.consumed, ← hrest]
    · rw [hends.calls, hcalls, ← h.calls, ← hrest]
    · rw [hends.connected, hconn, ← hrest]
    · rw [hends.input, hrest', ← hrest]

lemma After.reads {s : Input} {chunks : List (List UInt8)} (h : After wide data s)
    (hfits : ∀ d ∈ (frame (data ++ chunks.flatten)).starts, TextFits wide d) :
    ∃ t, Reads wide s chunks t ∧ After wide (data ++ chunks.flatten) t := by
  induction chunks generalizing data s with
  | nil => exact ⟨s, .nil s, by simpa using h⟩
  | cons bytes chunks ih =>
    rw [List.flatten_cons, ← List.append_assoc] at hfits ⊢
    have hbytes : ∀ d ∈ (frame (data ++ bytes)).starts, TextFits wide d := by
      intro d hd
      have happend := frame_append (data ++ bytes) chunks.flatten
      split_ifs at happend
      · exact (hfits _ (happend.2.2.2.2.2 d hd)).of_append
      · exact (hfits _ (happend.2.2.2 d hd)).of_append
    obtain ⟨s', hread, hafter⟩ := h.read hbytes
    obtain ⟨t, hreads, hafter'⟩ := ih hafter hfits
    exact ⟨t, .cons hread hreads, hafter'⟩

/-! ### Texts that are too long -/

/-- What has been consumed stays so. -/
lemma consumed_isPrefix {s t : Input} (h : Loop (dispatch wide) s t) :
    ∃ more, t.consumed = s.consumed ++ more := by
  refine Loop.rel (R := fun s t => ∃ more, t.consumed = s.consumed ++ more) ?_ ?_ ?_ h
  · exact fun s => ⟨[], by simp⟩
  · rintro s s' t ⟨more, h⟩ ⟨more', h'⟩
    exact ⟨more ++ more', by rw [h', h, List.append_assoc]⟩
  · intro s s' h
    rw [dispatch] at h
    split_ifs at h
    cases h
    cases protocolClientMsg s.input s.expect with
    | again ret =>
      rw [answer]
      split_ifs
      · exact ⟨[_], rfl⟩
      · exact ⟨[], by simp⟩
    | done calls connected =>
      rw [answer]
      split_ifs
      · exact ⟨[_], rfl⟩
      · exact ⟨[], by simp⟩

/-- A text that is there is the first message. -/
lemma messages_of_cutText (hkind : readU8 data 0 = 6) (hlen : 8 + readU32 data 4 ≤ data.length)
    (hpos : 0 < readU32 data 4) : ∃ more, (frame data).messages =
      data.take (8 + readU32 data 4) :: more := by
  have hne := ne_nil_of_le hlen (by omega)
  have h8 : ¬ data.length < 8 := by omega
  have hhead : head data = .length (8 + readU32 data 4) := by simp [head, hkind, hne, h8]
  obtain ⟨-, calls, connected, hreply, htake⟩ :=
    takes_cutText hlen hkind (by omega) rfl (by omega)
  have hperform := perform_of_takes hlen htake
  have hreply' : protocolClientMsg data (8 + readU32 data 4) =
      .done [.clientCutText (readU32 data 4)] true := by
    simp only [protocolClientMsg, hkind, if_neg (show ¬ 8 + readU32 data 4 = 1 by omega),
      if_neg (show ¬ (8 + readU32 data 4 = 8 ∧ readU32 data 4 > 0) by omega)]
  rw [hreply'] at hreply
  cases hreply
  exact ⟨_, by rw [frame_of_message hhead (by omega) hlen (by rw [hperform])]⟩

/-- A text comes first or there is no whole message. -/
lemma length_of_cutText (hkind : readU8 data 0 = 6) (h8 : 8 ≤ data.length)
    (hpos : 0 < readU32 data 4) {m : List UInt8} {more : List (List UInt8)}
    (h : (frame data).messages = m :: more) : m.length = 8 + readU32 data 4 := by
  by_cases hlen : 8 + readU32 data 4 ≤ data.length
  · obtain ⟨more', h'⟩ := messages_of_cutText hkind hlen hpos
    rw [h'] at h
    cases h
    rw [List.length_take, min_eq_left hlen]
  · have hne := ne_nil_of_le h8 (by decide)
    have hlt8 : ¬ data.length < 8 := by omega
    rw [frame_of_lt (n := 8 + readU32 data 4) (by simp [head, hkind, hne, hlt8]) (by omega)] at h
    cases h

/-- Something else is taken for the text. -/
lemma consumed_ne {s s' t : Input} (hkind : readU8 s.input 0 = 6) (h8 : 8 ≤ s.input.length)
    (hpos : 0 < readU32 s.input 4) (hloop : Loop (dispatch wide) s' t) {m : List UInt8}
    (hs' : s'.consumed = s.consumed ++ [m]) (hm : m.length ≠ 8 + readU32 s.input 4) :
    t.consumed ≠ s.consumed ++ (frame s.input).messages := by
  intro heq
  obtain ⟨more, hmore⟩ := consumed_isPrefix hloop
  rw [hmore, hs', List.append_assoc] at heq
  exact hm (length_of_cutText hkind h8 hpos (List.append_cancel_left heq).symm)

/-- The handler of a text that is called with another number of bytes. -/
lemma protocolClientMsg_cutText (hkind : readU8 data 0 = 6) (h1 : n ≠ 1) (h8 : n ≠ 8) :
    protocolClientMsg data n = .done [.clientCutText (readU32 data 4)] true := by
  simp only [protocolClientMsg, hkind, if_neg h1, if_neg (show ¬ (n = 8 ∧ _) from fun h => h8 h.1)]

section
variable {s t : Input} (hconnected : s.connected = true) (hkind : readU8 s.input 0 = 6)
  (h8 : 8 ≤ s.input.length)
include hconnected hkind h8

lemma dispatch_cutText : dispatch wide { s with expect := 1 } = some { s with expect := 8 } := by
  rw [dispatch_eq (s := { s with expect := 1 }) hconnected (by dsimp only; omega)]
  have hreply : protocolClientMsg s.input 1 = .again 8 := by simp [protocolClientMsg, hkind]
  have hsize : toSize wide 8 = 8 := by cases wide <;> rfl
  simp only [hreply, answer, hsize]
  rfl

lemma dispatch_cutText_length (hpos : 0 < readU32 s.input 4) :
    dispatch wide { s with expect := 8 } = some ({ s with expect := 8 }.answer wide 8
      (.again (toInt (8 + readU32 s.input 4 : ℕ)))) := by
  rw [dispatch_eq (s := { s with expect := 8 }) hconnected h8]
  have hreply : protocolClientMsg s.input 8 = .again (toInt (8 + readU32 s.input 4 : ℕ)) := by
    simp [protocolClientMsg, hkind, hpos]
  simp only [hreply]

/-- Without an end: the handler asks for the first byte of the message again. -/
lemma not_loop_of_one (hpos : 0 < readU32 s.input 4)
    (hret : toInt (8 + readU32 s.input 4 : ℕ) = 1) :
    ¬ Loop (dispatch wide) { s with expect := 1 } t := by
  refine Loop.not_of_inv (I := fun s' => s' = { s with expect := 1 } ∨ s' = { s with expect := 8 })
    ?_ (.inl rfl)
  rintro s' (rfl | rfl)
  · exact ⟨_, dispatch_cutText hconnected hkind h8, .inr rfl⟩
  · refine ⟨_, dispatch_cutText_length hconnected hkind h8 hpos, .inl ?_⟩
    have hsize : toSize wide 1 = 1 := by cases wide <;> rfl
    simp only [hret, answer, hsize]
    rfl

/-- A text that does not fit is not consumed as one. -/
lemma not_loop_of_text (hexpect : s.expect = 1) (hbad : ¬ TextFits wide s.input)
    (hloop : Loop (dispatch wide) s t) : t.consumed ≠ s.consumed ++ (frame s.input).messages := by
  have hpos : 0 < readU32 s.input 4 := by
    by_contra hzero
    refine hbad fun _ _ => ?_
    rw [Nat.eq_zero_of_not_pos hzero]
    exact ⟨by decide, fun _ => by cases wide <;> rfl⟩
  have hlt := readU32_lt s.input 4
  replace hloop := hloop.of_some (by
    rw [← dispatch_cutText hconnected hkind h8, ← hexpect])
  replace hloop := hloop.of_some (dispatch_cutText_length hconnected hkind h8 hpos)
  by_cases hn : 8 + readU32 s.input 4 < 2 ^ 32
  · -- more than an `int` holds, and all there
    have hbad : ∃ _ : 8 + readU32 s.input 4 ≤ s.input.length,
        toSize wide (toInt (8 + readU32 s.input 4 : ℕ)) ≠ 8 + readU32 s.input 4 := by
      by_contra hno
      exact hbad fun _ _ => ⟨hn, fun hle => by_contra fun hne => hno ⟨hle, hne⟩⟩
    obtain ⟨hlen, hne⟩ := hbad
    have hle := le_toSize_toInt wide hn
    have hret : toInt (8 + readU32 s.input 4 : ℕ) ≠ 0 := by
      intro hzero
      rw [hzero] at hle
      simp [toSize] at hle
    rw [answer, if_neg hret] at hloop
    generalize toSize wide (toInt (8 + readU32 s.input 4 : ℕ)) = n at hne hle hloop
    by_cases hlen' : n ≤ s.input.length
    · have hreply := protocolClientMsg_cutText (n := n) hkind (by omega) (by omega)
      have hloop := (loop_iff (s := { s with expect := n }) hconnected hlen' hreply).mp hloop
      exact consumed_ne (m := s.input.take n) hkind h8 hpos hloop rfl
        (by rw [List.length_take]; omega)
    · have hstop : dispatch wide { s with expect := n } = none := if_neg fun h => hlen' h.2
      have ht := Loop.of_none hstop hloop
      obtain ⟨more, hmore⟩ := messages_of_cutText hkind hlen hpos
      rw [ht, hmore]
      simp
  · -- the sum has lost a bit
    have hret : toInt (8 + readU32 s.input 4 : ℕ) = (8 + readU32 s.input 4 - 2 ^ 32 : ℕ) := by
      rw [toInt, Int.bmod_def]
      split_ifs <;> omega
    obtain ⟨r, hr⟩ : ∃ r, r = 8 + readU32 s.input 4 - 2 ^ 32 := ⟨_, rfl⟩
    rw [hret, ← hr] at hloop
    rw [← hr] at hret
    have hsize : toSize wide r = r := toSize_natCast (by omega)
    by_cases hr0 : r = 0
    · subst hr0
      exact consumed_ne (m := s.input.take 8) hkind h8 hpos hloop rfl
        (by rw [List.length_take]; omega)
    by_cases hr1 : r = 1
    · rw [answer, if_neg (by omega), hsize, hr1] at hloop
      exact absurd hloop (not_loop_of_one hconnected hkind h8 hpos (by rw [hret, hr1]; rfl))
    · rw [answer, if_neg (by omega), hsize] at hloop
      have hreply := protocolClientMsg_cutText (n := r) hkind hr1 (by omega)
      have hloop := (loop_iff (s := { s with expect := r }) hconnected
        (show r ≤ s.input.length by omega) hreply).mp hloop
      exact consumed_ne (m := s.input.take r) hkind h8 hpos hloop rfl
        (by rw [List.length_take]; omega)

end

/-- A stream with a text that does not fit is not taken apart as the protocol says. -/
lemma not_loop_of_starts (s : Input) {t : Input} (hconnected : s.connected = true)
    (hexpect : s.expect = 1) (hbad : ∃ d ∈ (frame s.input).starts, ¬ TextFits wide d)
    (hloop : Loop (dispatch wide) s t) : t.consumed ≠ s.consumed ++ (frame s.input).messages := by
  by_cases hfits : TextFits wide s.input
  · obtain ⟨d, hd, hbad⟩ := hbad
    have hhere : d ∈ [s.input] → False := fun h => hbad (List.mem_singleton.mp h ▸ hfits)
    obtain ⟨n, hn, hiff, hlen | ⟨hlen, ⟨hhead, calls, connected, hreply, htake⟩ | ⟨hreply, hhead⟩⟩⟩ :=
      exists_stage s hconnected (hexpect ▸ .first) hfits
    · rw [frame_of_stage_lt hn hlen hfits] at hd
      exact (hhere hd).elim
    · have hperform := perform_of_takes hlen htake
      have hpos := head_pos hhead
      cases connected with
      | false =>
        rw [frame_of_refused hhead hpos hlen (by rw [hperform])] at hd
        exact (hhere hd).elim
      | true =>
        have hframe := frame_of_message hhead hpos hlen (by rw [hperform])
        rw [hframe] at hd ⊢
        have hd : d ∈ (frame (s.input.drop n)).starts := by
          rcases List.mem_cons.mp hd with rfl | hd
          · exact absurd hfits hbad
          · exact hd
        have hloop' := (loop_iff (s := { s with expect := n }) hconnected hlen hreply).mp
          ((hiff t).mp hloop)
        have hne := not_loop_of_starts ({ s with expect := n }.answer wide n (.done calls true))
          hconnected rfl ⟨d, hd, hbad⟩ hloop'
        simpa [answer, consume] using hne
    · rw [frame_of_invalid hhead] at hd
      exact (hhere hd).elim
  · have hkind : readU8 s.input 0 = 6 ∧ 8 ≤ s.input.length := by
      by_contra hno
      exact hfits fun h h' => absurd ⟨h, h'⟩ hno
    exact not_loop_of_text hconnected hkind.1 hkind.2 hexpect hfits hloop
termination_by s.input.length
decreasing_by
  simp only [answer, consume, if_true, List.length_drop]
  omega

end Input

/-- However the stream is cut into reads, every read ends, and at last the server has consumed the
messages of the protocol and has performed what each of them says. -/
def Framed (wide : Bool) (stream : List UInt8) : Prop :=
  ∀ chunks : List (List UInt8), (∀ bytes ∈ chunks, bytes ≠ []) → chunks.flatten = stream →
    ∃ t, Input.Reads wide .init chunks t ∧ t.consumed = (frame stream).messages ∧
      t.calls = (frame stream).calls ∧ t.connected = (frame stream).connected

lemma framed_of_fits {stream : List UInt8} (hfits : ∀ d ∈ (frame stream).starts, TextFits wide d) :
    Framed wide stream := by
  rintro chunks - rfl
  obtain ⟨t, hreads, hafter⟩ := Input.after_init.reads (by simpa using hfits : ∀ d ∈ (frame ([] ++ chunks.flatten)).starts, _)
  rw [List.nil_append] at hafter
  exact ⟨t, hreads, hafter.consumed, hafter.calls, hafter.connected⟩

lemma fits_of_framed {stream : List UInt8} (h : Framed wide stream) :
    ∀ d ∈ (frame stream).starts, TextFits wide d := by
  by_contra hbad
  have hbad : ∃ d ∈ (frame stream).starts, ¬ TextFits wide d := by simpa using hbad
  have hne : stream ≠ [] := by
    rintro rfl
    obtain ⟨d, hd, hbad⟩ := hbad
    rw [frame_of_unknown rfl] at hd
    rw [List.mem_singleton.mp hd] at hbad
    exact hbad fun _ hlen => by simp at hlen
  obtain ⟨t, hreads, hconsumed, -⟩ := h [stream] (by simpa using hne) (by simp)
  cases hreads with
  | cons first rest =>
    cases rest
    exact Input.not_loop_of_starts _ rfl rfl hbad ((Input.read_iff rfl).mp first) hconsumed

/-- The server takes a stream apart as the protocol says, in whatever pieces it comes, if and only if
it announces no text whose length the server loses. -/
theorem framed_iff (wide : Bool) (stream : List UInt8) :
    Framed wide stream ↔ ∀ d ∈ (frame stream).starts, TextFits wide d :=
  ⟨fits_of_framed, framed_of_fits⟩

/-- The header of a text of `2 ^ 32 - 7` bytes: the server does not stop to handle it. -/
theorem not_framed_cutText : ¬ Framed true [6, 0, 0, 0, 0xff, 0xff, 0xff, 0xf9] ∧
    ∀ t, ¬ Input.Read true .init [6, 0, 0, 0, 0xff, 0xff, 0xff, 0xf9] t := by
  constructor
  · exact fun h => absurd (fits_of_framed h _ (mem_starts _)) (by decide)
  · intro t h
    exact Input.not_loop_of_one (s := { Input.init with input := [6, 0, 0, 0, 0xff, 0xff, 0xff, 0xf9] })
      rfl rfl (by decide) (by decide) (by decide) ((Input.read_iff rfl).mp h)

end Limbo.VncServer
