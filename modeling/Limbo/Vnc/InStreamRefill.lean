import Limbo.Lib.Meets
import Limbo.Vnc.InStream

/-!
# Refilling the buffer

Under the documented behaviour of the inflater a call of `decompress` makes progress, of input or of
output, or throws, or it stalls: the inflater is at its end with input left, or the data are used up
while the stream below has more. The loop of `overrun` keeps what has been read, and it ends if it
does not wait for output that a stalled inflater does not give.
-/

namespace Limbo.Vnc.InStream

open Lib
open Limbo.Vnc.ZlibInStream (bufSize)

/-! ### Inflaters -/

/-- A compressed format: what the bytes so far inflate to, where the inflater stops (the end of the
stream or a dictionary that is wanted), and what cannot be the start of a stream. -/
structure Format where
  inflated : List UInt8 → List UInt8
  stops : List UInt8 → Prop
  invalid : List UInt8 → Prop
  inflated_append : ∀ p q, inflated p <+: inflated (p ++ q)
  inflated_of_stops : ∀ p q, stops p → inflated (p ++ q) = inflated p

/-- The bytes an inflater has used, those it still has as input, and the number of bytes it has
given. -/
structure View where
  used : List UInt8
  input : List UInt8
  count : ℕ

/-- The documented behaviour of `Inflater` for a format. It gives the next bytes of the output;
where it gives none, it has given all that the bytes so far inflate to, and needs input or has
stopped. Once it has thrown it is `broken`. -/
structure Contract (I : Inflater) (F : Format) (view : I.State → View) (broken : I.State → Prop) :
    Prop where
  needsInput_iff : ∀ {st}, ¬ broken st → (I.needsInput st = true ↔ (view st).input = [])
  setInput : ∀ {st} d, ¬ broken st → ¬ broken (I.setInput d st) ∧
    view (I.setInput d st) = { view st with input := d }
  inflates : ∀ {n st out st'}, 0 < n → ¬ broken st → I.inflate n st = (some out, st') →
    ¬ broken st' ∧ out.length ≤ n ∧ (view st').count = (view st).count + out.length ∧
      (∃ p, (view st').used = (view st).used ++ p ∧ (view st).input = p ++ (view st').input) ∧
      out <+: (F.inflated (view st').used).drop (view st).count
  progress : ∀ {n st st'}, 0 < n → ¬ broken st → I.inflate n st = (some [], st') →
    (F.inflated (view st').used).length ≤ (view st').count ∧ ¬ F.invalid (view st').used ∧
      ((view st').input = [] ∨ F.stops (view st').used)
  fails : ∀ {n st st'}, I.inflate n st = (none, st') → broken st'
  setInput_broken : ∀ {st} d, broken st → broken (I.setInput d st)
  inflate_broken : ∀ {n st}, 0 < n → broken st → (I.inflate n st).1 = none

section Stream

variable {I : Inflater} {F : Format} {view : I.State → View} {broken : I.State → Prop}
  {hist source : List UInt8} {c₀ bytesIn : ℕ} {z z' : ZlibInStream I}

/-- What the reader is to be given: `hist` are the compressed bytes of earlier data, of which `c₀`
bytes have been inflated, and `source` all the bytes of the stream below. -/
def output (F : Format) (hist source : List UInt8) (c₀ bytesIn : ℕ) : List UInt8 :=
  (F.inflated (hist ++ source.take bytesIn)).drop c₀

/-- The unread bytes of the buffer. -/
def ZlibInStream.unread (z : ZlibInStream I) : List UInt8 := (z.b.take z.end_).drop z.ptr

/-- The bytes taken from the stream below are the first of its bytes, and belong to the data. -/
def Taken (source : List UInt8) (bytesIn : ℕ) (z : ZlibInStream I) : Prop :=
  ∃ taken, source = taken ++ z.underlying.bytes ∧ taken.length + z.bytesIn = bytesIn

/-- What the inflater has been given: bytes that have been taken, and bytes that are still in the
buffer below. -/
def Fed (view : I.State → View) (hist source : List UInt8) (bytesIn : ℕ) (z : ZlibInStream I) :
    Prop :=
  ∃ taken given, source = taken ++ z.underlying.bytes ∧ taken.length + z.bytesIn = bytesIn ∧
    (view z.inflater).used = hist ++ taken ++ given ∧
    ((view z.inflater).input = [] → given = []) ∧
    ((view z.inflater).input ≠ [] →
      given ++ (view z.inflater).input = z.underlying.buffered.take z.bytesIn)

lemma Fed.taken (h : Fed view hist source bytesIn z) : Taken source bytesIn z := by
  obtain ⟨taken, given, hsource, hlen, -⟩ := h
  exact ⟨taken, hsource, hlen⟩

/-- The bytes used so far are the first of the data; there are more if input is left. -/
lemma Fed.used_append (h : Fed view hist source bytesIn z) :
    ∃ rest, hist ++ source.take bytesIn = (view z.inflater).used ++ rest ∧
      ((view z.inflater).input ≠ [] → rest ≠ []) ∧
      ((view z.inflater).input = [] → z.bytesIn = 0 → rest = []) := by
  obtain ⟨taken, given, hsource, hlen, hused, hnil, hinput⟩ := h
  have hdata : source.take bytesIn = taken ++ z.underlying.bytes.take z.bytesIn := by
    rw [hsource, ← hlen, List.take_length_add_append]
  by_cases hempty : (view z.inflater).input = []
  · refine ⟨z.underlying.bytes.take z.bytesIn, ?_, fun h => absurd hempty h, fun _ hzero => ?_⟩
    · rw [hused, hnil hempty, hdata]
      simp only [List.append_nil, List.append_assoc]
    · rw [hzero, List.take_zero]
  · have hgiven := hinput hempty
    have hbytes : z.underlying.bytes.take z.bytesIn = given ++ (view z.inflater).input ++
        z.underlying.reads.flatten.take (z.bytesIn - z.underlying.buffered.length) := by
      rw [hgiven, Underlying.bytes, List.take_append]
    refine ⟨(view z.inflater).input ++
      z.underlying.reads.flatten.take (z.bytesIn - z.underlying.buffered.length), ?_, fun _ => ?_,
      fun h => absurd h hempty⟩
    · rw [hused, hdata, hbytes]
      simp only [List.append_assoc]
    · exact List.append_ne_nil_of_left_ne_nil hempty _

/-! ### One call of the inflater -/

/-- The inflater with the input that `decompress` gives it. -/
def feed (u : Underlying) (z : ZlibInStream I) : I.State :=
  if I.needsInput z.inflater then
    I.setInput (u.buffered.take (min u.buffered.length z.bytesIn)) z.inflater
  else z.inflater

lemma take_min_length (l : List UInt8) (n : ℕ) : l.take (min l.length n) = l.take n := by
  obtain h | h := le_total l.length n
  · rw [min_eq_left h, List.take_length, List.take_of_length_le h]
  · rw [min_eq_right h]

/-- What `decompress` does to the stream when it returns. -/
structure Decompressed (F : Format) (view : I.State → View) (broken : I.State → Prop)
    (hist source : List UInt8) (bytesIn : ℕ) (z z' : ZlibInStream I) : Prop where
  fed : Fed view hist source bytesIn z'
  works : ¬ broken z'.inflater
  used : ∃ p, (view z'.inflater).used = (view z.inflater).used ++ p
  out : ∃ out, z'.b = store z.b z.end_ out ∧ z'.end_ = z.end_ + out.length ∧
    z'.end_ ≤ bufSize ∧ (view z'.inflater).count = (view z.inflater).count + out.length ∧
    out <+: (F.inflated (view z'.inflater).used).drop (view z.inflater).count
  ptr_eq : z'.ptr = z.ptr
  attached_eq : z'.attached = z.attached
  handed_eq : z'.handed = z.handed
  bytesIn_le : z'.bytesIn ≤ z.bytesIn

/-- No call of the inflater will change anything. -/
structure Stalled (F : Format) (view : I.State → View) (z : ZlibInStream I) : Prop where
  all_given : (F.inflated (view z.inflater).used).length ≤ (view z.inflater).count
  valid : ¬ F.invalid (view z.inflater).used
  waits : (view z.inflater).input ≠ [] ∧ F.stops (view z.inflater).used ∨
    (view z.inflater).input = [] ∧ z.bytesIn = 0 ∧ z.underlying.bytes ≠ []

/-- Every call throws: there is nothing to read below, or the inflater has thrown. -/
def Throws (broken : I.State → Prop) (z : ZlibInStream I) : Prop :=
  z.underlying.bytes = [] ∨ broken z.inflater

/-- What an exception in `decompress` leaves. -/
structure Thrown (broken : I.State → Prop) (e : Exn) (z z' : ZlibInStream I) : Prop where
  ends : e ≠ .noFuel
  cause : broken z'.inflater ∨ z.underlying.bytes = [] ∧ z' = z
  bytes_eq : z'.underlying.bytes = z.underlying.bytes
  same : z' = { z with underlying := z'.underlying, inflater := z'.inflater }

section Feed

variable {u : Underlying}

lemma feed_view (h : Contract I F view broken) (hworks : ¬ broken z.inflater)
    (hfed : Fed view hist source bytesIn z) (hu : z.underlying.check = some u) :
    ¬ broken (feed u z) ∧ (view (feed u z)).count = (view z.inflater).count ∧
      (view (feed u z)).used = (view z.inflater).used ∧
      ∃ taken given, source = taken ++ u.bytes ∧ taken.length + z.bytesIn = bytesIn ∧
        (view (feed u z)).used = hist ++ taken ++ given ∧
        given ++ (view (feed u z)).input = u.buffered.take z.bytesIn := by
  obtain ⟨taken, given, hsource, hlen, hused, hnil, hinput⟩ := hfed
  obtain ⟨hbytes, hne, hsame⟩ := Underlying.check_some hu
  rw [← hbytes] at hsource
  unfold feed
  by_cases hneeds : I.needsInput z.inflater = true
  · have hempty := (h.needsInput_iff hworks).mp hneeds
    obtain ⟨hworks', hview⟩ :=
      h.setInput (u.buffered.take (min u.buffered.length z.bytesIn)) hworks
    rw [if_pos hneeds, hview]
    refine ⟨hworks', rfl, rfl, taken, given, hsource, hlen, hused, ?_⟩
    rw [hnil hempty, take_min_length, List.nil_append]
  · have hempty : (view z.inflater).input ≠ [] := mt (h.needsInput_iff hworks).mpr hneeds
    have hgiven := hinput hempty
    have hbuffered : z.underlying.buffered ≠ [] := by
      intro hnil
      rw [hnil, List.take_nil] at hgiven
      exact hempty (List.append_eq_nil_iff.mp hgiven).2
    rw [if_neg hneeds, hsame hbuffered]
    exact ⟨hworks, rfl, rfl, taken, given, hsame hbuffered ▸ hsource, hlen, hused, hgiven⟩

/-- `decompress` in the order of its exceptions. -/
lemma decompress_cases (hattached : z.attached = true) :
    (z.underlying.check = none ∧ decompress z = .error .eof z) ∨
    ∃ u, z.underlying.check = some u ∧
      ((∃ st, I.inflate (bufSize - z.end_) (feed u z) = (none, st) ∧
        decompress z = .error (.exception "ZlibInStream: inflate failed")
          { z with underlying := u, inflater := st }) ∨
      ∃ out st, I.inflate (bufSize - z.end_) (feed u z) = (some out, st) ∧
        decompress z = .ok () (if I.needsInput st then
          { z with
            b := store z.b z.end_ out
            end_ := z.end_ + out.length
            underlying := { u with buffered := u.buffered.drop (min u.buffered.length z.bytesIn) }
            bytesIn := z.bytesIn - min u.buffered.length z.bytesIn
            inflater := st }
        else
          { z with
            b := store z.b z.end_ out
            end_ := z.end_ + out.length
            underlying := u
            inflater := st })) := by
  have hgo : ¬ z.attached = false := by simp [hattached]
  cases hcheck : z.underlying.check with
  | none => exact .inl ⟨rfl, by rw [decompress, if_neg hgo, hcheck]⟩
  | some u =>
    refine .inr ⟨u, rfl, ?_⟩
    rcases hinflate : I.inflate (bufSize - z.end_) (feed u z) with ⟨_ | out, st⟩
    · refine .inl ⟨st, rfl, ?_⟩
      rw [feed] at hinflate
      simp only [decompress, if_neg hgo, hcheck, hinflate]
    · refine .inr ⟨out, st, rfl, ?_⟩
      rw [feed] at hinflate
      simp only [decompress, if_neg hgo, hcheck, hinflate]
      split_ifs <;> rfl

lemma decompress_throws (h : Contract I F view broken) (hattached : z.attached = true)
    (hroom : z.end_ < bufSize) (hthrows : Throws broken z) :
    ∃ e z', decompress z = .error e z' ∧ Thrown broken e z z' := by
  obtain ⟨hcheck, hrun⟩ | ⟨u, hcheck, hrest⟩ := decompress_cases hattached
  · exact ⟨_, _, hrun, nofun, .inr ⟨Underlying.check_none hcheck, rfl⟩, rfl, rfl⟩
  · have hbroken : broken z.inflater := by
      refine hthrows.resolve_left fun hnil => ?_
      rw [Underlying.check_of_nil hnil] at hcheck
      cases hcheck
    have hfeed : broken (feed u z) := by
      unfold feed
      split_ifs
      · exact h.setInput_broken _ hbroken
      · exact hbroken
    have hnone := h.inflate_broken (n := bufSize - z.end_) (by omega) hfeed
    obtain ⟨st, hinflate, hrun⟩ | ⟨out, st, hinflate, -⟩ := hrest
    · exact ⟨_, _, hrun, nofun, .inl (h.fails hinflate), (Underlying.check_some hcheck).1, rfl⟩
    · rw [hinflate] at hnone
      cases hnone

/-- `decompress` makes progress, stalls or throws. -/
lemma decompress_meets (h : Contract I F view broken) (hattached : z.attached = true)
    (hroom : z.end_ < bufSize) (hworks : ¬ broken z.inflater)
    (hfed : Fed view hist source bytesIn z) :
    Meets decompress z
      (fun _ z' => Decompressed F view broken hist source bytesIn z z' ∧
        (z.end_ < z'.end_ ∨ z'.bytesIn < z.bytesIn ∨ Stalled F view z'))
      (fun e z' => Thrown broken e z z') := by
  obtain ⟨hcheck, hrun⟩ | ⟨u, hcheck, hrest⟩ := decompress_cases hattached
  · exact .of_error hrun ⟨nofun, .inr ⟨Underlying.check_none hcheck, rfl⟩, rfl, rfl⟩
  · obtain ⟨hbytes, hne, -⟩ := Underlying.check_some hcheck
    obtain ⟨hfeed, hcount, hsame, taken, given, hsource, hlen, hused, hgiven⟩ :=
      feed_view h hworks hfed hcheck
    obtain ⟨st, hinflate, hrun⟩ | ⟨out, st, hinflate, hrun⟩ := hrest
    · exact .of_error hrun ⟨nofun, .inl (h.fails hinflate), hbytes, rfl⟩
    · have hpos : 0 < bufSize - z.end_ := by omega
      obtain ⟨hworks', hout, hcount', ⟨p, hused', hinput'⟩, hprefix⟩ :=
        h.inflates hpos hfeed hinflate
      rw [hcount] at hcount' hprefix
      have hmore : ∃ p, (view st).used = (view z.inflater).used ++ p := ⟨p, hsame ▸ hused'⟩
      have hgiven' : given ++ p ++ (view st).input = u.buffered.take z.bytesIn := by
        rw [List.append_assoc, ← hinput', hgiven]
      have hused'' : (view st).used = hist ++ taken ++ (given ++ p) := by
        rw [hused', hused, List.append_assoc]
      apply Meets.of_ok hrun
      by_cases hneeds : I.needsInput st = true
      · have hempty := (h.needsInput_iff hworks').mp hneeds
        rw [if_pos hneeds]
        rw [hempty, List.append_nil] at hgiven'
        have htaken : u.buffered.take z.bytesIn ++
            u.buffered.drop (min u.buffered.length z.bytesIn) = u.buffered := by
          rw [← take_min_length, List.take_append_drop]
        refine ⟨⟨⟨taken ++ u.buffered.take z.bytesIn, [], ?_, ?_, ?_, fun _ => rfl,
          fun hinput => absurd hempty hinput⟩, hworks', hmore,
          ⟨out, rfl, rfl, ?_, hcount', hprefix⟩, rfl, rfl, rfl, Nat.sub_le _ _⟩, ?_⟩
        · rw [hsource, Underlying.bytes, Underlying.bytes]
          conv_lhs => rw [← htaken]
          simp only [List.append_assoc]
        · show (taken ++ u.buffered.take z.bytesIn).length +
            (z.bytesIn - min u.buffered.length z.bytesIn) = bytesIn
          rw [List.length_append, List.length_take]
          omega
        · rw [hused'', hgiven']
          simp only [List.append_nil, List.append_assoc]
        · show z.end_ + out.length ≤ bufSize
          omega
        · have hlength : 0 < u.buffered.length := List.length_pos_of_ne_nil hne
          show z.end_ < z.end_ + out.length ∨
            z.bytesIn - min u.buffered.length z.bytesIn < z.bytesIn ∨ _
          by_cases hpos' : 0 < z.bytesIn
          · right
            left
            omega
          · obtain _ | ⟨c, out⟩ := out
            · right
              right
              obtain ⟨hall, hvalid, -⟩ := h.progress hpos hfeed hinflate
              have hzero : z.bytesIn = 0 := by omega
              refine ⟨hall, hvalid, .inr ⟨hempty, ?_, ?_⟩⟩
              · show z.bytesIn - _ = 0
                omega
              · show u.buffered.drop (min u.buffered.length z.bytesIn) ++ _ ≠ []
                rw [hzero, Nat.min_zero, List.drop_zero]
                exact List.append_ne_nil_of_left_ne_nil hne _
            · left
              simp
      · have hinput : (view st).input ≠ [] := mt (h.needsInput_iff hworks').mpr hneeds
        rw [if_neg hneeds]
        refine ⟨⟨⟨taken, given ++ p, hsource, hlen, hused'', fun hempty => absurd hempty hinput,
          fun _ => hgiven'⟩, hworks', hmore, ⟨out, rfl, rfl, ?_, hcount', hprefix⟩, rfl, rfl, rfl, le_rfl⟩,
          ?_⟩
        · show z.end_ + out.length ≤ bufSize
          omega
        · show z.end_ < z.end_ + out.length ∨ z.bytesIn < z.bytesIn ∨ _
          obtain _ | ⟨c, out⟩ := out
          · right
            right
            obtain ⟨hall, hvalid, hwaits⟩ := h.progress hpos hfeed hinflate
            exact ⟨hall, hvalid, .inl ⟨hinput, hwaits.resolve_left hinput⟩⟩
          · left
            simp

end Feed

/-! ### The loop of `overrun` -/

/-- The inflater stops before it has used all the data. -/
def Blocked (F : Format) (hist source : List UInt8) (bytesIn : ℕ) : Prop :=
  ∃ p q, hist ++ source.take bytesIn = p ++ q ∧ q ≠ [] ∧ F.stops p

/-- Waiting for the first `n` bytes of the output ends: they come, or the inflater gets to the end
of the data and then throws, or finds nothing below. -/
def EndsAt (F : Format) (hist source : List UInt8) (c₀ bytesIn n : ℕ) : Prop :=
  n ≤ (output F hist source c₀ bytesIn).length ∨ ¬ Blocked F hist source bytesIn ∧
    (source.length ≤ bytesIn ∨ F.invalid (hist ++ source.take bytesIn))

/-- The inflater works, and has given the bytes of the buffer and before. -/
structure Live (F : Format) (view : I.State → View) (hist source : List UInt8) (c₀ bytesIn : ℕ)
    (z : ZlibInStream I) : Prop where
  fed : Fed view hist source bytesIn z
  count_eq : (view z.inflater).count = c₀ + (z.handed ++ z.unread).length
  given : z.handed ++ z.unread <+: (F.inflated (view z.inflater).used).drop c₀

/-- The stream gives the output from what has been handed over on. -/
structure Reading (F : Format) (view : I.State → View) (broken : I.State → Prop)
    (hist source : List UInt8) (c₀ bytesIn : ℕ) (z : ZlibInStream I) : Prop where
  b_length : z.b.length = bufSize
  ptr_le : z.ptr ≤ z.end_
  end_le : z.end_ ≤ bufSize
  attached : z.attached = true
  next : z.handed ++ z.unread <+: output F hist source c₀ bytesIn
  taken : Taken source bytesIn z
  live : ¬ broken z.inflater → Live F view hist source c₀ bytesIn z

/-- What is still to come, of input and of output. -/
def room (F : Format) (view : I.State → View) (hist source : List UInt8) (bytesIn : ℕ)
    (z : ZlibInStream I) : ℕ :=
  z.bytesIn + ((F.inflated (hist ++ source.take bytesIn)).length - (view z.inflater).count)

lemma length_store {b out : List UInt8} {i : ℕ} (h : i + out.length ≤ b.length) :
    (store b i out).length = b.length := by
  simp only [store, List.length_append, List.length_take, List.length_drop]
  omega

lemma take_store {b out : List UInt8} {i : ℕ} (h : i + out.length ≤ b.length) :
    (store b i out).take (i + out.length) = b.take i ++ out := by
  have hlen : (b.take i ++ out).length = i + out.length := by
    rw [List.length_append, List.length_take]
    omega
  rw [store, ← hlen, List.take_left]

lemma Reading.length_unread (h : Reading F view broken hist source c₀ bytesIn z) :
    z.unread.length = z.end_ - z.ptr := by
  have hle := h.end_le
  rw [ZlibInStream.unread, List.length_drop, List.length_take, h.b_length]
  omega

lemma Fed.inflated_used (hfed : Fed view hist source bytesIn z) :
    F.inflated (view z.inflater).used <+: F.inflated (hist ++ source.take bytesIn) := by
  obtain ⟨rest, hrest, -⟩ := hfed.used_append
  rw [hrest]
  exact F.inflated_append _ _

lemma Live.next (h : Live F view hist source c₀ bytesIn z) :
    z.handed ++ z.unread <+: output F hist source c₀ bytesIn :=
  h.given.trans (h.fed.inflated_used.drop c₀)

/-- What comes next after a beginning. -/
lemma append_isPrefix {l out d : List UInt8} (hl : l <+: d) (hout : out <+: d.drop l.length) :
    l ++ out <+: d := by
  obtain ⟨t, rfl⟩ := hl
  rw [List.drop_left] at hout
  exact (List.prefix_append_right_inj l).mpr hout

/-- The buffer goes on with what the inflater has given. -/
lemma Decompressed.reading (h : Decompressed F view broken hist source bytesIn z z')
    (hr : Reading F view broken hist source c₀ bytesIn z)
    (hlive : Live F view hist source c₀ bytesIn z) :
    Reading F view broken hist source c₀ bytesIn z' := by
  obtain ⟨out, hb, hend, hle, hcount, hout⟩ := h.out
  obtain ⟨p, hused⟩ := h.used
  have hroom : z.end_ + out.length ≤ z.b.length := by rw [hr.b_length, ← hend]; exact hle
  have hunread : z'.unread = z.unread ++ out := by
    have hptr : z.ptr ≤ (z.b.take z.end_).length := by
      have hptr := hr.ptr_le
      rw [List.length_take]
      omega
    rw [ZlibInStream.unread, hb, hend, take_store hroom, h.ptr_eq,
      List.drop_append_of_le_length hptr]
    rfl
  have hlive' : Live F view hist source c₀ bytesIn z' := by
    refine ⟨h.fed, ?_, ?_⟩
    · rw [hcount, hlive.count_eq, h.handed_eq, hunread]
      simp only [List.length_append]
      ring
    · rw [h.handed_eq, hunread, ← List.append_assoc]
      have hgiven : z.handed ++ z.unread <+: (F.inflated (view z'.inflater).used).drop c₀ := by
        rw [hused]
        exact hlive.given.trans ((F.inflated_append _ _).drop c₀)
      refine append_isPrefix hgiven ?_
      rw [List.drop_drop, ← hlive.count_eq]
      exact hout
  refine ⟨?_, ?_, hle, h.attached_eq.trans hr.attached, hlive'.next, h.fed.taken, fun _ => hlive'⟩
  · rw [hb, length_store hroom, hr.b_length]
  · rw [h.ptr_eq, hend]
    exact hr.ptr_le.trans (Nat.le_add_right _ _)

/-- Progress makes less to come. -/
lemma Decompressed.room_lt (h : Decompressed F view broken hist source bytesIn z z')
    (hprogress : z.end_ < z'.end_ ∨ z'.bytesIn < z.bytesIn) :
    room F view hist source bytesIn z' < room F view hist source bytesIn z := by
  obtain ⟨out, -, hend, -, hcount, hout⟩ := h.out
  have hlen := hout.length_le
  have htotal := (h.fed.inflated_used (F := F)).length_le
  have hle := h.bytesIn_le
  rw [List.length_drop] at hlen
  unfold room
  omega

/-- A stalled inflater does not let the wait end. -/
lemma Stalled.not_endsAt (h : Stalled F view z) (hlive : Live F view hist source c₀ bytesIn z)
    {n : ℕ} (hn : (z.handed ++ z.unread).length < n) : ¬ EndsAt F hist source c₀ bytesIn n := by
  obtain ⟨rest, hrest, hmore, hnone⟩ := hlive.fed.used_append
  have hcount := hlive.count_eq
  have hall := h.all_given
  have hshort : (F.inflated (hist ++ source.take bytesIn)).length ≤ (view z.inflater).count →
      ¬ n ≤ (output F hist source c₀ bytesIn).length := by
    intro hle
    rw [output, List.length_drop]
    omega
  obtain ⟨hinput, hstops⟩ | ⟨hinput, hzero, hbelow⟩ := h.waits
  · rw [EndsAt, not_or, not_and_or, not_not]
    refine ⟨hshort ?_, .inl ⟨_, _, hrest, hmore hinput, hstops⟩⟩
    rw [hrest, F.inflated_of_stops _ _ hstops]
    exact hall
  · rw [hnone hinput hzero, List.append_nil] at hrest
    obtain ⟨taken, hsource, hlen⟩ := hlive.fed.taken
    have hlong : bytesIn < source.length := by
      have hpos := List.length_pos_of_ne_nil hbelow
      rw [hsource, List.length_append]
      omega
    rw [EndsAt, not_or, not_and_or, not_or]
    refine ⟨hshort ?_, .inr ⟨not_le.mpr hlong, ?_⟩⟩
    · rw [hrest]
      exact hall
    · rw [hrest]
      exact h.valid

/-- An exception leaves what has been read. -/
lemma Thrown.reading {e : Exn} (h : Thrown broken e z z')
    (hr : Reading F view broken hist source c₀ bytesIn z) :
    Reading F view broken hist source c₀ bytesIn z' := by
  obtain hbroken | ⟨-, rfl⟩ := h.cause
  · obtain ⟨taken, hsource, hlen⟩ := hr.taken
    rw [← h.bytes_eq] at hsource
    have hsame := h.same
    generalize z'.underlying = u at *
    generalize z'.inflater = st at *
    subst hsame
    exact ⟨hr.b_length, hr.ptr_le, hr.end_le, hr.attached, hr.next, ⟨taken, hsource, hlen⟩,
      fun hworks => absurd hbroken hworks⟩
  · exact hr

lemma Thrown.handed_eq {e : Exn} (h : Thrown broken e z z') : z'.handed = z.handed := by
  rw [h.same]

/-- More rounds than any loop takes. -/
def bound (F : Format) (hist source : List UInt8) (bytesIn : ℕ) : ℕ :=
  bytesIn + (F.inflated (hist ++ source.take bytesIn)).length

lemma Taken.room_le (h : Taken source bytesIn z) :
    room F view hist source bytesIn z ≤ bound F hist source bytesIn := by
  obtain ⟨taken, -, hlen⟩ := h
  unfold room bound
  omega

/-- The loop of `overrun` keeps what has been read, and ends if waiting for the item does. -/
lemma fill_meets (h : Contract I F view broken) {fuel itemSize : ℕ} (hsize : itemSize ≤ bufSize)
    (hr : Reading F view broken hist source c₀ bytesIn z) (hptr : z.ptr = 0) :
    Meets (fill itemSize fuel) z
      (fun _ z' => Reading F view broken hist source c₀ bytesIn z' ∧ z'.ptr = 0 ∧
        z'.handed = z.handed ∧ itemSize ≤ z'.end_)
      (fun e z' => Reading F view broken hist source c₀ bytesIn z' ∧
        (EndsAt F hist source c₀ bytesIn (z.handed.length + itemSize) →
          room F view hist source bytesIn z < fuel → e ≠ .noFuel)) := by
  induction fuel generalizing z with
  | zero =>
    by_cases hend : z.end_ < itemSize
    · exact .of_error (if_pos hend) ⟨hr, fun _ hroom => absurd hroom (Nat.not_lt_zero _)⟩
    · exact .of_ok (if_neg hend) ⟨hr, hptr, rfl, not_lt.mp hend⟩
  | succ fuel ih =>
    by_cases hend : z.end_ < itemSize
    · have hrun : fill itemSize (fuel + 1) z = (decompress >>= fun _ => fill itemSize fuel) z :=
        if_pos hend
      have hspace : z.end_ < bufSize := hend.trans_le hsize
      rw [Meets, hrun]
      change Meets (decompress >>= fun _ => fill itemSize fuel) z _ _
      by_cases hworks : broken z.inflater
      · obtain ⟨e, z', hthrow, hthrown⟩ :=
          decompress_throws h hr.attached hspace (.inr hworks)
        exact .of_error (bind_error hthrow) ⟨hthrown.reading hr, fun _ _ => hthrown.ends⟩
      · have hlive := hr.live hworks
        refine Meets.bind ((decompress_meets h hr.attached hspace hworks hlive.fed).mono
          (fun _ _ h => h) fun e z' hthrown => ⟨hthrown.reading hr, fun _ _ => hthrown.ends⟩) ?_
        rintro - z₁ ⟨hdone, hprogress⟩
        have hr₁ := hdone.reading hr hlive
        refine (ih hr₁ (hdone.ptr_eq.trans hptr)).mono ?_ ?_
        · rintro _ z₂ ⟨hr₂, hptr₂, hhanded, hle⟩
          exact ⟨hr₂, hptr₂, hhanded.trans hdone.handed_eq, hle⟩
        · rintro e z₂ ⟨hr₂, hends⟩
          refine ⟨hr₂, fun hat hroom => ?_⟩
          rw [hdone.handed_eq] at hends
          by_cases hmore : z.end_ < z₁.end_ ∨ z₁.bytesIn < z.bytesIn
          · have hless := hdone.room_lt hmore
            exact hends hat (by omega)
          · -- a stalled inflater leaves the buffer as short as it was
            rw [not_or] at hmore
            have hstalled := (hprogress.resolve_left hmore.1).resolve_left hmore.2
            refine absurd hat (hstalled.not_endsAt (hr₁.live hdone.works) ?_)
            rw [List.length_append, hr₁.length_unread, hdone.handed_eq]
            omega
    · exact .of_ok (if_neg hend) ⟨hr, hptr, rfl, not_lt.mp hend⟩

end Stream

end Limbo.Vnc.InStream
