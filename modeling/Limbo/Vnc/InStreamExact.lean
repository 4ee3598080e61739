import Limbo.Vnc.InStreamRefill

/-!
# What the decompressing stream hands over

Whatever the compressed bytes, their split into reads and the calls: the bytes handed over are the
next bytes of what the data inflate to, and no byte is taken from the stream below that does not
belong to the data. A call ends unless it waits for what a stalled inflater does not give.
-/

namespace Limbo.Vnc.InStream

open Lib
open Limbo.Vnc.ZlibInStream (bufSize)

section Stream

variable {I : Inflater} {F : Format} {view : I.State → View} {broken : I.State → Prop}
  {hist source : List UInt8} {c₀ bytesIn : ℕ} {z z' : ZlibInStream I}

/-! ### Reads -/

/-- Moving the unread bytes keeps them. -/
lemma Reading.moveToFront (h : Reading F view broken hist source c₀ bytesIn z) :
    Reading F view broken hist source c₀ bytesIn (InStream.moveToFront z) := by
  have hptr := h.ptr_le
  have hend := h.end_le
  have hlen : ((z.b.drop z.ptr).take (z.end_ - z.ptr)).length = z.end_ - z.ptr := by
    rw [List.length_take, List.length_drop, h.b_length]
    omega
  have hfits : 0 + ((z.b.drop z.ptr).take (z.end_ - z.ptr)).length ≤ z.b.length := by
    rw [hlen, h.b_length]
    omega
  have hunread : (InStream.moveToFront z).unread = z.unread := by
    have htake := take_store hfits
    rw [hlen, Nat.zero_add, List.take_zero, List.nil_append, List.take_drop,
      Nat.add_sub_cancel' hptr] at htake
    show ((store z.b 0 _).take (z.end_ - z.ptr)).drop 0 = (z.b.take z.end_).drop z.ptr
    rw [List.drop_zero, List.take_drop, Nat.add_sub_cancel' hptr, htake]
  refine ⟨?_, Nat.zero_le _, ?_, h.attached, ?_, h.taken, fun hworks => ?_⟩
  · exact (length_store hfits).trans h.b_length
  · show z.end_ - z.ptr ≤ bufSize
    omega
  · rw [hunread]
    exact h.next
  · obtain ⟨hfed, hcount, hgiven⟩ := h.live hworks
    refine ⟨hfed, ?_, ?_⟩
    · rw [hunread]
      exact hcount
    · rw [hunread]
      exact hgiven

lemma overrun_meets (h : Contract I F view broken) (fuel : ℕ) {itemSize nItems : ℕ} (hpos : 0 < itemSize)
    (hsize : itemSize ≤ bufSize) (hn : 0 < nItems)
    (hr : Reading F view broken hist source c₀ bytesIn z) :
    Meets (overrun fuel itemSize nItems) z
      (fun k z' => Reading F view broken hist source c₀ bytesIn z' ∧ z'.handed = z.handed ∧
        0 < k ∧ k ≤ nItems ∧ z'.ptr + itemSize * k ≤ z'.end_ ∧ z'.ptr ≤ z.ptr)
      (fun e z' => Reading F view broken hist source c₀ bytesIn z' ∧
        (EndsAt F hist source c₀ bytesIn (z.handed.length + itemSize) →
          bound F hist source bytesIn < fuel → e ≠ .noFuel)) := by
  refine Meets.get_bind ?_
  rw [if_neg (not_lt.mpr hsize), if_neg (by simp [hr.attached])]
  apply Meets.set_bind
  refine Meets.bind ((fill_meets h hsize hr.moveToFront rfl).mono (fun _ _ h => h) ?_) ?_
  · rintro e z' ⟨hr', hends⟩
    exact ⟨hr', fun hat hfuel => hends hat (hr.moveToFront.taken.room_le.trans_lt hfuel)⟩
  · rintro - z' ⟨hr', hptr, hhanded, hle⟩
    apply Meets.get_bind
    have hdiv : 0 < z'.end_ / itemSize := Nat.div_pos hle hpos
    have hmul : itemSize * (z'.end_ / itemSize) ≤ z'.end_ := Nat.mul_div_le _ _
    by_cases hshort : z'.end_ < itemSize * nItems
    · rw [if_pos hshort]
      refine Meets.pure ⟨hr', hhanded, hdiv, (Nat.div_lt_of_lt_mul hshort).le, ?_, ?_⟩ <;> omega
    · rw [if_neg hshort]
      refine Meets.pure ⟨hr', hhanded, hn, le_rfl, ?_, ?_⟩ <;> omega

lemma runsOver_iff {ptr itemSize nItems : ℕ} (end_ : ℕ) (hint : ptr + itemSize * nItems < 2 ^ 31) :
    runsOver ptr itemSize nItems end_ = true ↔ end_ < ptr + itemSize * nItems := by
  have hcast : (ptr + itemSize * nItems : ℤ) = (ptr + itemSize * nItems : ℕ) := by push_cast; rfl
  have hlow : (-2147483648 : ℤ) ≤ (ptr + itemSize * nItems : ℕ) := by omega
  have hhigh : ((ptr + itemSize * nItems : ℕ) : ℤ) < 2147483648 := by omega
  have hwrap := wrap32_of_range hlow hhigh
  unfold runsOver
  rw [decide_eq_true_iff, hcast, hwrap, Nat.cast_lt]

lemma runsOver_overflow {ptr n : ℕ} (end_ : ℕ) (hptr : ptr ≤ 16384) (hn : n < 2 ^ 31)
    (hover : 2 ^ 31 ≤ ptr + n) : runsOver ptr 1 n end_ = false := by
  have hwrap : wrap32 (ptr + (1 : ℕ) * n) ≤ end_ := by
    unfold wrap32
    omega
  unfold runsOver
  rw [decide_eq_false_iff_not, not_lt]
  exact hwrap

/-- `check` of at least one item makes some of them available. -/
lemma check_meets (h : Contract I F view broken) (fuel itemSize nItems : ℕ) (hpos : 0 < itemSize)
    (hsize : itemSize ≤ bufSize) (hn : 0 < nItems) (hint : z.ptr + itemSize * nItems < 2 ^ 31)
    (hr : Reading F view broken hist source c₀ bytesIn z) :
    Meets (check fuel itemSize nItems) z
      (fun k z' => Reading F view broken hist source c₀ bytesIn z' ∧ z'.handed = z.handed ∧
        0 < k ∧ k ≤ nItems ∧ z'.ptr + itemSize * k ≤ z'.end_ ∧ z'.ptr ≤ z.ptr)
      (fun e z' => Reading F view broken hist source c₀ bytesIn z' ∧
        (EndsAt F hist source c₀ bytesIn (z.handed.length + itemSize) →
          bound F hist source bytesIn < fuel → e ≠ .noFuel)) := by
  have hptr := hr.ptr_le
  have hover := runsOver_iff z.end_ hint
  by_cases hmany : z.end_ < z.ptr + itemSize * nItems
  · by_cases hone : z.end_ < z.ptr + itemSize
    · refine Meets.congr ?_ (overrun_meets h fuel hpos hsize hn hr)
      rw [check, if_pos (hover.mpr hmany), if_pos hone]
    · have hdiv : 0 < (z.end_ - z.ptr) / itemSize := Nat.div_pos (by omega) hpos
      have hmul : itemSize * ((z.end_ - z.ptr) / itemSize) ≤ z.end_ - z.ptr := Nat.mul_div_le _ _
      have hless : (z.end_ - z.ptr) / itemSize < nItems := Nat.div_lt_of_lt_mul (by omega)
      refine Meets.of_ok ?_ ⟨hr, rfl, hdiv, hless.le, by omega, le_rfl⟩
      rw [check, if_pos (hover.mpr hmany), if_neg hone]
  · refine Meets.of_ok ?_ ⟨hr, rfl, hn, le_rfl, not_lt.mp hmany, le_rfl⟩
    rw [check, if_neg (mt hover.mp hmany)]

/-- Bytes of the buffer are the next to be handed over. -/
lemma take_reading {n : ℕ} (hr : Reading F view broken hist source c₀ bytesIn z)
    (hn : z.ptr + n ≤ z.end_) :
    ∃ bs z', take n z = .ok bs z' ∧ Reading F view broken hist source c₀ bytesIn z' ∧
      z'.handed = z.handed ++ bs ∧ bs.length = n ∧ z'.ptr = z.ptr + n := by
  have hend := hr.end_le
  have hlen := hr.b_length
  have hfits : z.ptr + n ≤ z.b.length := by omega
  have hbs : z.unread.take n = (z.b.drop z.ptr).take n := by
    rw [ZlibInStream.unread, List.drop_take, List.take_take, min_eq_left (by omega)]
  have hrest : (z.b.take z.end_).drop (z.ptr + n) = z.unread.drop n := by
    rw [ZlibInStream.unread, List.drop_drop]
  have hall : z.handed ++ (z.b.drop z.ptr).take n ++ (z.b.take z.end_).drop (z.ptr + n) =
      z.handed ++ z.unread := by
    rw [hrest, ← hbs, List.append_assoc, List.take_append_drop]
  refine ⟨(z.b.drop z.ptr).take n, { z with
      ptr := z.ptr + n, handed := z.handed ++ (z.b.drop z.ptr).take n }, if_pos hfits,
    ⟨hlen, hn, hend, hr.attached, ?_, hr.taken, fun hworks => ?_⟩, rfl, ?_, rfl⟩
  · show _ ++ (z.b.take z.end_).drop (z.ptr + n) <+: _
    rw [hall]
    exact hr.next
  · obtain ⟨hfed, hcount, hgiven⟩ := hr.live hworks
    refine ⟨hfed, ?_, ?_⟩
    · show _ = c₀ + (_ ++ (z.b.take z.end_).drop (z.ptr + n)).length
      rw [hall]
      exact hcount
    · show _ ++ (z.b.take z.end_).drop (z.ptr + n) <+: _
      rw [hall]
      exact hgiven
  · rw [List.length_take, List.length_drop]
    omega

/-- A number of bytes that makes `ptr` overflow: `check` lets it pass, and the copy throws. -/
lemma take_overflow (fuel : ℕ) {n : ℕ} (hr : Reading F view broken hist source c₀ bytesIn z)
    (hn : n < 2 ^ 31) (hover : 2 ^ 31 ≤ z.ptr + n) :
    check fuel 1 n z = .ok n z ∧ take n z = .error .indexOutOfBounds z := by
  have hptr := hr.ptr_le
  have hend := hr.end_le
  have hsize : bufSize = 16384 := rfl
  have hpass := runsOver_overflow z.end_ (by omega) hn hover
  have hlong : ¬ z.ptr + n ≤ z.b.length := by
    rw [hr.b_length]
    omega
  refine ⟨?_, if_neg hlong⟩
  rw [check, hpass]
  rfl

/-- What a read of `n` bytes does: it hands over the next ones, or throws. -/
lemma readItem_meets (h : Contract I F view broken) {fuel n : ℕ} (hpos : 0 < n) (hle : n ≤ 4)
    (hr : Reading F view broken hist source c₀ bytesIn z) :
    Meets (readItem fuel n) z
      (fun bs z' => Reading F view broken hist source c₀ bytesIn z' ∧
        z'.handed = z.handed ++ bs ∧ bs.length = n)
      (fun e z' => Reading F view broken hist source c₀ bytesIn z' ∧
        (EndsAt F hist source c₀ bytesIn (z.handed.length + n) →
          bound F hist source bytesIn < fuel → e ≠ .noFuel)) := by
  have hptr := hr.ptr_le
  have hend := hr.end_le
  have hsize : bufSize = 16384 := rfl
  refine Meets.bind (check_meets h fuel n 1 hpos (by omega) Nat.one_pos (by omega) hr) ?_
  rintro k z₁ ⟨hr₁, hhanded, hk, hk', hfits, -⟩
  obtain rfl : k = 1 := by omega
  obtain ⟨bs, z₂, htake, hr₂, hhanded₂, hlen, -⟩ := take_reading (n := n) hr₁ (by omega)
  refine Meets.of_ok htake ⟨hr₂, ?_, hlen⟩
  rw [hhanded₂, hhanded]

/-- The loop of `readBytes`: what a round does not read is left to the others. -/
lemma readBytesLoop_meets (h : Contract I F view broken) {fuel rounds n : ℕ} (hn : n < 2 ^ 31)
    (hrounds : n ≤ rounds) (hr : Reading F view broken hist source c₀ bytesIn z) :
    Meets (readBytesLoop fuel rounds n) z
      (fun bs z' => Reading F view broken hist source c₀ bytesIn z' ∧
        z'.handed = z.handed ++ bs ∧ bs.length = n)
      (fun e z' => Reading F view broken hist source c₀ bytesIn z' ∧
        (EndsAt F hist source c₀ bytesIn (z.handed.length + n) ∨ 2 ^ 31 ≤ z.ptr + n →
          bound F hist source bytesIn < fuel → e ≠ .noFuel)) := by
  induction rounds generalizing n z with
  | zero =>
    obtain rfl : n = 0 := Nat.le_zero.mp hrounds
    exact Meets.pure ⟨hr, (List.append_nil _).symm, rfl⟩
  | succ rounds ih =>
    cases n with
    | zero => exact Meets.pure ⟨hr, (List.append_nil _).symm, rfl⟩
    | succ n =>
      by_cases hover : 2 ^ 31 ≤ z.ptr + (n + 1)
      · obtain ⟨hcheck, htake⟩ := take_overflow fuel hr hn hover
        have hrun : readBytesLoop fuel (rounds + 1) (n + 1) z = .error .indexOutOfBounds z :=
          (bind_ok hcheck).trans (bind_error htake)
        exact Meets.of_error hrun ⟨hr, fun _ _ => nofun⟩
      · refine Meets.bind ((check_meets h fuel 1 (n + 1) Nat.one_pos (by decide) n.succ_pos
          (by omega) hr).mono (fun _ _ h => h) ?_) ?_
        · rintro e z' ⟨hr', hends⟩
          refine ⟨hr', fun hat => hends ?_⟩
          -- the first byte of those that are waited for comes no later than the last
          obtain hat | hbad := hat
          · exact hat.imp (fun hle => by omega) id
          · exact absurd hbad hover
        · rintro k z₁ ⟨hr₁, hhanded, hk, hk', hfits, hback⟩
          obtain ⟨bs, z₂, htake, hr₂, hhanded₂, hlen, hptr₂⟩ := take_reading hr₁ (n := k) (by omega)
          refine Meets.congr (bind_ok htake) ?_
          refine Meets.bind ((ih (by omega) (by omega) hr₂).mono (fun _ _ h => h) ?_) ?_
          · rintro e z' ⟨hr', hends⟩
            refine ⟨hr', fun hat => hends ?_⟩
            rw [hhanded₂, hhanded, List.length_append, hlen, hptr₂]
            have hsum : z.handed.length + k + (n + 1 - k) = z.handed.length + (n + 1) := by omega
            rw [hsum]
            exact hat.imp id fun hbad => absurd hbad hover
          · rintro rest z₃ ⟨hr₃, hhanded₃, hlen₃⟩
            refine Meets.pure ⟨hr₃, ?_, ?_⟩
            · rw [hhanded₃, hhanded₂, hhanded, List.append_assoc]
            · rw [List.length_append, hlen, hlen₃]
              omega

/-! ### Resets -/

/-- The buffer has been thrown away. -/
structure Emptied (F : Format) (hist source : List UInt8) (c₀ bytesIn : ℕ) (z : ZlibInStream I) :
    Prop where
  ptr_eq : z.ptr = 0
  end_eq : z.end_ = 0
  next : z.handed <+: output F hist source c₀ bytesIn
  taken : Taken source bytesIn z

/-- Nothing more can be read: the data have been used up, or a reset has thrown. -/
structure Over (F : Format) (broken : I.State → Prop) (hist source : List UInt8) (c₀ bytesIn : ℕ)
    (z : ZlibInStream I) : Prop where
  emptied : Emptied F hist source c₀ bytesIn z
  throws : z.attached = true → Throws broken z
  used_up : z.attached = false → z.bytesIn = 0

lemma Thrown.over {e : Exn} (h : Thrown broken e z z') (hattached : z.attached = true)
    (hz : Emptied F hist source c₀ bytesIn z) :
    Over F broken hist source c₀ bytesIn z' ∧ z'.handed = z.handed := by
  have hthrows : Throws broken z' := by
    obtain hbroken | ⟨hnil, rfl⟩ := h.cause
    · exact .inr hbroken
    · exact .inl hnil
  obtain ⟨taken, hsource, hlen⟩ := hz.taken
  rw [← h.bytes_eq] at hsource
  have hsame := h.same
  generalize z'.underlying = u at *
  generalize z'.inflater = st at *
  subst hsame
  refine ⟨⟨⟨hz.ptr_eq, hz.end_eq, hz.next, taken, hsource, hlen⟩, fun _ => hthrows, fun hno => ?_⟩,
    rfl⟩
  have hno' : z.attached = false := hno
  rw [hattached] at hno'
  cases hno'

/-- A read when nothing can be read throws. -/
lemma fill_over (h : Contract I F view broken) (fuel : ℕ) {itemSize : ℕ} (hpos : 0 < itemSize)
    (ho : Over F broken hist source c₀ bytesIn z) (hattached : z.attached = true) :
    Meets (fill itemSize fuel) z (fun _ _ => False)
      (fun e z' => (e ≠ .noFuel → Over F broken hist source c₀ bytesIn z') ∧
        (0 < fuel → e ≠ .noFuel)) := by
  have hend : z.end_ < itemSize := by rwa [ho.emptied.end_eq]
  cases fuel with
  | zero => exact Meets.of_error (if_pos hend) ⟨fun hno => absurd rfl hno, nofun⟩
  | succ fuel =>
    have hspace : z.end_ < bufSize := by
      rw [ho.emptied.end_eq]
      decide
    obtain ⟨e, z', hthrow, hthrown⟩ :=
      decompress_throws h hattached hspace (ho.throws hattached)
    have hrun : fill itemSize (fuel + 1) z = .error e z' :=
      (if_pos hend).trans (bind_error hthrow)
    exact Meets.of_error hrun
      ⟨fun _ => (hthrown.over hattached ho.emptied).1, fun _ => hthrown.ends⟩

lemma check_over (h : Contract I F view broken) (fuel itemSize nItems : ℕ) (hpos : 0 < itemSize)
    (hsize : itemSize ≤ bufSize) (hn : 0 < nItems) (hint : itemSize * nItems < 2 ^ 31)
    (ho : Over F broken hist source c₀ bytesIn z) :
    Meets (check fuel itemSize nItems) z (fun _ _ => False)
      (fun e z' => (e ≠ .noFuel → Over F broken hist source c₀ bytesIn z') ∧
        (0 < fuel → e ≠ .noFuel)) := by
  have hptr := ho.emptied.ptr_eq
  have hend := ho.emptied.end_eq
  have hmul : 0 < itemSize * nItems := Nat.mul_pos hpos hn
  have hmany : runsOver z.ptr itemSize nItems z.end_ = true := by
    rw [runsOver_iff z.end_ (by omega), hend]
    omega
  have hone : z.end_ < z.ptr + itemSize := by omega
  have hcheck : check fuel itemSize nItems z = overrun fuel itemSize nItems z := by
    rw [check, if_pos hmany, if_pos hone]
  refine Meets.congr hcheck ?_
  refine Meets.get_bind ?_
  rw [if_neg (not_lt.mpr hsize)]
  cases hattached : z.attached with
  | false => exact Meets.throw ⟨fun _ => ho, fun _ => nofun⟩
  | true =>
    rw [if_neg (by simp)]
    refine Meets.set_bind ?_
    have hmoved : Over F broken hist source c₀ bytesIn (moveToFront z) := by
      refine ⟨⟨rfl, ?_, ho.emptied.next, ho.emptied.taken⟩, ho.throws, ho.used_up⟩
      show z.end_ - z.ptr = 0
      omega
    exact Meets.bind (fill_over h fuel hpos hmoved hattached) fun _ _ hno => hno.elim

/-- The stream can be drained: it throws, or the inflater works. -/
structure Draining (F : Format) (view : I.State → View) (broken : I.State → Prop)
    (hist source : List UInt8) (c₀ bytesIn : ℕ) (z : ZlibInStream I) : Prop where
  emptied : Emptied F hist source c₀ bytesIn z
  attached : z.attached = true
  fed : ¬ Throws broken z → Fed view hist source bytesIn z

/-- The loop of `reset` ends if the inflater does not stop before it has used all the data. -/
lemma drain_meets (h : Contract I F view broken) {fuel : ℕ}
    (hd : Draining F view broken hist source c₀ bytesIn z) :
    Meets (drain fuel) z
      (fun _ z' => Emptied F hist source c₀ bytesIn z' ∧ z'.bytesIn = 0 ∧ z'.handed = z.handed)
      (fun e z' => (e ≠ .noFuel → Over F broken hist source c₀ bytesIn z') ∧
        (Throws broken z ∨ ¬ Blocked F hist source bytesIn →
          room F view hist source bytesIn z < fuel → e ≠ .noFuel)) := by
  induction fuel generalizing z with
  | zero =>
    by_cases hpos : 0 < z.bytesIn
    · exact Meets.of_error (if_pos hpos)
        ⟨fun hno => absurd rfl hno, fun _ hroom => absurd hroom (Nat.not_lt_zero _)⟩
    · exact Meets.of_ok (if_neg hpos) ⟨hd.emptied, Nat.eq_zero_of_not_pos hpos, rfl⟩
  | succ fuel ih =>
    by_cases hpos : 0 < z.bytesIn
    · have hrun : drain (fuel + 1) z = (decompress >>= fun _ =>
          modify (fun z => { z with end_ := 0 }) >>= fun _ => drain fuel) z := if_pos hpos
      have hspace : z.end_ < bufSize := by
        rw [hd.emptied.end_eq]
        decide
      refine Meets.congr hrun ?_
      by_cases hthrows : Throws broken z
      · obtain ⟨e, z', hthrow, hthrown⟩ := decompress_throws h hd.attached hspace hthrows
        exact Meets.of_error (bind_error hthrow)
          ⟨fun _ => (hthrown.over hd.attached hd.emptied).1, fun _ _ => hthrown.ends⟩
      · have hworks : ¬ broken z.inflater := fun hbroken => hthrows (.inr hbroken)
        refine Meets.bind ((decompress_meets h hd.attached hspace hworks (hd.fed hthrows)).mono
          (fun _ _ h => h) fun e z' hthrown =>
            ⟨fun _ => (hthrown.over hd.attached hd.emptied).1, fun _ _ => hthrown.ends⟩) ?_
        rintro - z₁ ⟨hdone, hprogress⟩
        refine Meets.modify_bind ?_
        have hd₁ : Draining F view broken hist source c₀ bytesIn { z₁ with end_ := 0 } := by
          refine ⟨⟨hdone.ptr_eq.trans hd.emptied.ptr_eq, rfl, ?_, hdone.fed.taken⟩,
            hdone.attached_eq.trans hd.attached, fun _ => hdone.fed⟩
          exact hdone.handed_eq ▸ hd.emptied.next
        refine (ih hd₁).mono ?_ ?_
        · rintro _ z₂ ⟨hempty, hzero, hhanded⟩
          exact ⟨hempty, hzero, hhanded.trans hdone.handed_eq⟩
        · rintro e z₂ ⟨hover, hends⟩
          refine ⟨hover, fun hno hroom => ?_⟩
          have hblocked := hno.resolve_left hthrows
          refine hends (.inr hblocked) ?_
          by_cases hmore : z.end_ < z₁.end_ ∨ z₁.bytesIn < z.bytesIn
          · have hless := hdone.room_lt hmore
            show room F view hist source bytesIn z₁ < fuel
            omega
          · -- a stalled inflater has stopped, for the data are not used up
            rw [not_or] at hmore
            have hstalled := (hprogress.resolve_left hmore.1).resolve_left hmore.2
            obtain ⟨rest, hrest, hleft, -⟩ := hdone.fed.used_append
            obtain ⟨hinput, hstops⟩ | ⟨-, hzero, -⟩ := hstalled.waits
            · exact absurd ⟨_, _, hrest, hleft hinput, hstops⟩ hblocked
            · exact absurd (hzero ▸ hpos) hmore.2
    · exact Meets.of_ok (if_neg hpos) ⟨hd.emptied, Nat.eq_zero_of_not_pos hpos, rfl⟩

lemma reset_eq (fuel : ℕ) (z : ZlibInStream I) : reset fuel z =
    (if z.attached = false then pure ()
    else drain fuel >>= fun _ => modify fun z => { z with attached := false } :
      EStateM Exn (ZlibInStream I) Unit) { z with ptr := 0, end_ := 0 } := rfl

lemma reset_meets (h : Contract I F view broken) (fuel : ℕ) (hz : z.attached = false →
      Over F broken hist source c₀ bytesIn { z with ptr := 0, end_ := 0 })
    (hd : z.attached = true → Draining F view broken hist source c₀ bytesIn
      { z with ptr := 0, end_ := 0 }) :
    Meets (reset fuel) z
      (fun _ z' => Over F broken hist source c₀ bytesIn z' ∧ z'.attached = false ∧
        z'.handed = z.handed)
      (fun e z' => (e ≠ .noFuel → Over F broken hist source c₀ bytesIn z') ∧
        (z.attached = false ∨ ¬ Blocked F hist source bytesIn →
          bound F hist source bytesIn < fuel → e ≠ .noFuel)) := by
  refine Meets.congr (reset_eq fuel z) ?_
  by_cases hattached : z.attached = false
  · rw [if_pos hattached]
    exact Meets.pure ⟨hz hattached, hattached, rfl⟩
  · have hdrain := hd (Bool.eq_true_of_not_eq_false hattached)
    rw [if_neg hattached]
    refine Meets.bind ((drain_meets h hdrain).mono (fun _ _ h => h) ?_) ?_
    · rintro e z' ⟨hover, hends⟩
      exact ⟨hover, fun hno hfuel => hends (.inr (hno.resolve_left hattached))
        (hdrain.emptied.taken.room_le.trans_lt hfuel)⟩
    · rintro - z' ⟨hempty, hzero, hhanded⟩
      have hover : Over F broken hist source c₀ bytesIn { z' with attached := false } :=
        ⟨⟨hempty.ptr_eq, hempty.end_eq, hempty.next, hempty.taken⟩, nofun, fun _ => hzero⟩
      exact Meets.of_ok rfl ⟨hover, rfl, hhanded⟩

/-! ### Calls -/

/-- A state that calls lead to. -/
def Reached (F : Format) (view : I.State → View) (broken : I.State → Prop) (hist source : List UInt8)
    (c₀ bytesIn : ℕ) (z : ZlibInStream I) : Prop :=
  Reading F view broken hist source c₀ bytesIn z ∨ Over F broken hist source c₀ bytesIn z

/-- The call ends: there is no stream below, the inflater does not stop within the data that a reset
is to use up, or the bytes that a read waits for come (or make `ptr` overflow). -/
def Ends (F : Format) (hist source : List UInt8) (c₀ bytesIn : ℕ) (z : ZlibInStream I) (c : Call) :
    Prop :=
  z.attached = false ∨ match c with
    | .reset => ¬ Blocked F hist source bytesIn
    | c => EndsAt F hist source c₀ bytesIn (z.handed.length + c.size) ∨ 2 ^ 31 ≤ z.ptr + c.size

lemma Reached.next (h : Reached F view broken hist source c₀ bytesIn z) :
    z.handed <+: output F hist source c₀ bytesIn :=
  h.elim (fun hr => (List.prefix_append _ _).trans hr.next) fun ho => ho.emptied.next

lemma Reached.taken (h : Reached F view broken hist source c₀ bytesIn z) :
    Taken source bytesIn z := h.elim Reading.taken fun ho => ho.emptied.taken

/-- What a call does when it returns, and when it throws. -/
abbrev CallMeets (F : Format) (view : I.State → View) (broken : I.State → Prop)
    (hist source : List UInt8) (c₀ bytesIn fuel : ℕ) (c : Call) (z : ZlibInStream I)
    (x : EStateM Exn (ZlibInStream I) (List UInt8)) : Prop :=
  Meets x z
    (fun bs z' => Reached F view broken hist source c₀ bytesIn z' ∧ z'.handed = z.handed ++ bs ∧
      bs.length = c.size ∧ (c = .reset → z'.bytesIn = 0))
    (fun e z' => (e ≠ .noFuel → Reached F view broken hist source c₀ bytesIn z') ∧
      (Ends F hist source c₀ bytesIn z c → bound F hist source bytesIn < fuel → e ≠ .noFuel))

/-- `readU8` and the others. -/
lemma readItem_callMeets (h : Contract I F view broken) (fuel : ℕ) {c : Call} (hpos : 0 < c.size)
    (hle : c.size ≤ 4) (hreset : c ≠ .reset)
    (hends : Ends F hist source c₀ bytesIn z c → z.attached = false ∨
      (EndsAt F hist source c₀ bytesIn (z.handed.length + c.size) ∨ 2 ^ 31 ≤ z.ptr + c.size))
    (hz : Reached F view broken hist source c₀ bytesIn z) :
    CallMeets F view broken hist source c₀ bytesIn fuel c z (readItem fuel c.size) := by
  have hsize : bufSize = 16384 := rfl
  obtain hr | ho := hz
  · have hptr := hr.ptr_le
    have hend := hr.end_le
    refine (readItem_meets h hpos hle hr).mono ?_ ?_
    · rintro bs z' ⟨hr', hhanded, hlen⟩
      exact ⟨.inl hr', hhanded, hlen, fun heq => absurd heq hreset⟩
    · rintro e z' ⟨hr', hread⟩
      refine ⟨fun _ => .inl hr', fun hat => hread ?_⟩
      obtain hno | hat | hover := hends hat
      · rw [hr.attached] at hno
        cases hno
      · exact hat
      · omega
  · refine Meets.bind ((check_over h fuel c.size 1 hpos (by omega) Nat.one_pos (by omega) ho).mono
      (fun _ _ h => h) ?_) fun _ _ hno => hno.elim
    rintro e z' ⟨hover, hfuel⟩
    exact ⟨fun hno => .inr (hover hno), fun _ hlt => hfuel (Nat.zero_lt_of_lt hlt)⟩

/-- Every call hands over the next bytes or throws, and ends where `Ends` says so. -/
lemma exec_callMeets (h : Contract I F view broken) (fuel : ℕ) (c : Call)
    (hz : Reached F view broken hist source c₀ bytesIn z) :
    CallMeets F view broken hist source c₀ bytesIn fuel c z (c.exec fuel) := by
  cases c with
  | readU8 => exact readItem_callMeets h fuel (by decide) (by decide) nofun id hz
  | readU16 => exact readItem_callMeets h fuel (by decide) (by decide) nofun id hz
  | readU32 => exact readItem_callMeets h fuel (by decide) (by decide) nofun id hz
  | readOpaque24A => exact readItem_callMeets h fuel (by decide) (by decide) nofun id hz
  | readBytes length =>
    show CallMeets _ _ _ _ _ _ _ _ _ _ (readBytesLoop fuel length length)
    obtain hr | ho := hz
    · refine (readBytesLoop_meets h length.isLt le_rfl hr).mono ?_ ?_
      · rintro bs z' ⟨hr', hhanded, hlen⟩
        exact ⟨.inl hr', hhanded, hlen, nofun⟩
      · rintro e z' ⟨hr', hread⟩
        refine ⟨fun _ => .inl hr', fun hat => hread (hat.resolve_left ?_)⟩
        simp [hr.attached]
    · obtain ⟨n, hn⟩ := length
      cases n with
      | zero => exact Meets.pure ⟨.inr ho, (List.append_nil _).symm, rfl, nofun⟩
      | succ n =>
        refine Meets.bind ((check_over h fuel 1 (n + 1) Nat.one_pos (by decide) n.succ_pos
          (by omega) ho).mono (fun _ _ h => h) ?_) fun _ _ hno => hno.elim
        rintro e z' ⟨hover, hfuel⟩
        exact ⟨fun hno => .inr (hover hno), fun _ hlt => hfuel (Nat.zero_lt_of_lt hlt)⟩
  | reset =>
    have hmeets : Meets (reset fuel) z
        (fun _ z' => Over F broken hist source c₀ bytesIn z' ∧ z'.attached = false ∧
          z'.handed = z.handed)
        (fun e z' => (e ≠ .noFuel → Over F broken hist source c₀ bytesIn z') ∧
          (z.attached = false ∨ ¬ Blocked F hist source bytesIn →
            bound F hist source bytesIn < fuel → e ≠ .noFuel)) := by
      obtain hr | ho := hz
      · refine reset_meets h fuel (fun hno => ?_) fun _ => ?_
        · rw [hr.attached] at hno
          cases hno
        · refine ⟨⟨rfl, rfl, (List.prefix_append _ _).trans hr.next, hr.taken⟩, hr.attached,
            fun hno => (hr.live fun hbroken => hno (.inr hbroken)).fed⟩
      · have hempty : Emptied F hist source c₀ bytesIn { z with ptr := 0, end_ := 0 } :=
          ⟨rfl, rfl, ho.emptied.next, ho.emptied.taken⟩
        exact reset_meets h fuel (fun _ => ⟨hempty, ho.throws, ho.used_up⟩)
          fun hattached => ⟨hempty, hattached, fun hno => absurd (ho.throws hattached) hno⟩
    refine Meets.bind (hmeets.mono (fun _ _ h => h) ?_) ?_
    · rintro e z' ⟨hover, hends⟩
      exact ⟨fun hno => .inr (hover hno), hends⟩
    · rintro - z' ⟨hover, hdetached, hhanded⟩
      exact Meets.pure ⟨.inr hover, by rw [hhanded, List.append_nil], rfl,
        fun _ => hover.used_up hdetached⟩

/-! ### Runs -/

lemma Reached.setUnderlying (hview : view z.inflater = ⟨hist, [], c₀⟩) (hb : z.b.length = bufSize) (is : Underlying) (bytesIn : ℕ) :
    Reached F view broken hist is.bytes c₀ bytesIn (InStream.setUnderlying is bytesIn z) := by
  have hlive : Live F view hist is.bytes c₀ bytesIn (InStream.setUnderlying is bytesIn z) := by
    refine ⟨⟨[], [], rfl, Nat.zero_add _, ?_, fun _ => rfl, ?_⟩, ?_, ?_⟩
    · show (view z.inflater).used = _
      rw [hview]
      simp
    · show (view z.inflater).input ≠ [] → _
      rw [hview]
      exact fun hno => absurd rfl hno
    · show (view z.inflater).count = _
      rw [hview]
      rfl
    · exact List.nil_prefix
  exact .inl ⟨hb, le_rfl, Nat.zero_le _, rfl, hlive.next, hlive.fed.taken, fun _ => hlive⟩

/-- What is exact in a state: a call that returns has handed over the next bytes of the output, as
many as it was to read, at most `bytesIn` bytes have been taken from the stream below, and exactly
these once a reset returns. -/
structure Exact (F : Format) (hist source : List UInt8) (c₀ bytesIn fuel : ℕ) (z : ZlibInStream I) :
    Prop where
  next : z.handed <+: output F hist source c₀ bytesIn
  taken : ∃ taken, source = taken ++ z.underlying.bytes ∧ taken.length ≤ bytesIn
  read : ∀ (c : Call) bs z', c.exec fuel z = .ok bs z' →
    bs = ((output F hist source c₀ bytesIn).drop z.handed.length).take c.size ∧
      bs.length = c.size ∧ z'.handed = z.handed ++ bs
  reset : ∀ bs z', Call.reset.exec fuel z = .ok bs z' →
    ∃ taken, source = taken ++ z'.underlying.bytes ∧ taken.length = bytesIn

lemma Reached.exact (h : Contract I F view broken) (fuel : ℕ)
    (hz : Reached F view broken hist source c₀ bytesIn z) :
    Exact F hist source c₀ bytesIn fuel z := by
  refine ⟨hz.next, ?_, fun c bs z' hrun => ?_, fun bs z' hrun => ?_⟩
  · obtain ⟨taken, hsource, hlen⟩ := hz.taken
    exact ⟨taken, hsource, by omega⟩
  · obtain ⟨hz', hhanded, hlen, -⟩ := (exec_callMeets h fuel c hz).ok hrun
    refine ⟨?_, hlen, hhanded⟩
    obtain ⟨rest, hrest⟩ := hz'.next
    rw [hhanded, List.append_assoc] at hrest
    rw [← hrest, List.drop_left, ← hlen, List.take_left]
  · obtain ⟨hz', -, -, hzero⟩ := (exec_callMeets h fuel .reset hz).ok hrun
    obtain ⟨taken, hsource, hlen⟩ := hz'.taken
    rw [hzero rfl] at hlen
    exact ⟨taken, hsource, hlen⟩

/-- A call leads on, if it ends. -/
lemma Reached.of_next (h : Contract I F view broken) {fuel : ℕ} {c : Call}
    (hz : Reached F view broken hist source c₀ bytesIn z) (hnext : c.next fuel z = some z') :
    Reached F view broken hist source c₀ bytesIn z' := by
  have hmeets := exec_callMeets h fuel c hz
  unfold Call.next at hnext
  split at hnext
  case h_1 bs z₁ hrun =>
    cases hnext
    exact (hmeets.ok hrun).1
  case h_2 => cases hnext
  case h_3 e z₁ hfuel hrun =>
    rw [Option.some.injEq] at hnext
    exact hnext ▸ (hmeets.error hrun).1 hfuel

/-- It ends where `Ends` says so. -/
lemma Reached.next_of_ends (h : Contract I F view broken) {fuel : ℕ} {c : Call}
    (hz : Reached F view broken hist source c₀ bytesIn z)
    (hends : Ends F hist source c₀ bytesIn z c) (hfuel : bound F hist source bytesIn < fuel) :
    ∃ z', c.next fuel z = some z' := by
  have hmeets := exec_callMeets h fuel c hz
  unfold Call.next
  split
  case h_1 bs z₁ hrun => exact ⟨z₁, rfl⟩
  case h_2 z₁ hrun => exact absurd rfl ((hmeets.error hrun).2 hends hfuel)
  case h_3 e z₁ _ hrun => exact ⟨z₁, rfl⟩

/-- For every inflater of a format, every split of the bytes below into reads and every sequence of
calls: whatever has been read is exact, and a sequence of calls each of which `Ends` ends. -/
theorem calls_exact (h : Contract I F view broken) (hview : view z.inflater = ⟨hist, [], c₀⟩)
    (hb : z.b.length = bufSize) (is : Underlying) (bytesIn : ℕ) (calls : List Call) :
    (∀ fuel z', run (Call.next fuel) (setUnderlying is bytesIn z) calls = some z' →
      Exact F hist is.bytes c₀ bytesIn fuel z') ∧
    ∀ fuel, bound F hist is.bytes bytesIn < fuel →
      Guarded (Call.next fuel) (Ends F hist is.bytes c₀ bytesIn) (setUnderlying is bytesIn z) calls →
      ∃ z', run (Call.next fuel) (setUnderlying is bytesIn z) calls = some z' := by
  have hstart : Reached F view broken hist is.bytes c₀ bytesIn (setUnderlying is bytesIn z) :=
    Reached.setUnderlying hview hb is bytesIn
  refine ⟨fun fuel z' hrun => ?_, fun fuel hfuel hends => ?_⟩
  · exact (run_invariant (fun _ _ _ hz hnext => hz.of_next h hnext) hstart hrun).exact h fuel
  · obtain ⟨z', hrun, -⟩ := run_returns_of_guarded
      (I := Reached F view broken hist is.bytes c₀ bytesIn) (fun z₁ c hz hc => by
        obtain ⟨z₂, hnext⟩ := hz.next_of_ends h hc hfuel
        exact ⟨z₂, hnext, hz.of_next h hnext⟩) hstart hends
    exact ⟨z', hrun⟩

end Stream

/-! ### One compressed stream -/

section OfStream

variable (stream text : List UInt8)

/-- The format with one compressed stream, which inflates to `text` when it is complete. -/
def Format.ofStream : Format where
  inflated p := if stream <+: p then text else []
  stops p := stream.length ≤ p.length
  invalid _ := False
  inflated_append p q := by
    split_ifs with h h'
    · exact List.prefix_rfl
    · exact absurd (h.trans (List.prefix_append p q)) h'
    · exact List.nil_prefix
    · exact List.prefix_rfl
  inflated_of_stops p q hlen := by
    have hiff : stream <+: p ++ q ↔ stream <+: p :=
      ⟨fun h => List.prefix_of_prefix_length_le h (List.prefix_append p q) hlen,
        fun h => h.trans (List.prefix_append p q)⟩
    simp only [hiff]

/-- The inflater of this format takes all of the stream that its input has. -/
def Inflater.ofStream : Inflater where
  State := View
  setInput d st := { st with input := d }
  needsInput st := st.input.isEmpty
  inflate n st :=
    let used := st.used ++ st.input.take (stream.length - st.used.length)
    let out := (((Format.ofStream stream text).inflated used).drop st.count).take n
    (some out, ⟨used, st.input.drop (stream.length - st.used.length), st.count + out.length⟩)

lemma contract_ofStream :
    Contract (Inflater.ofStream stream text) (Format.ofStream stream text) id fun _ => False := by
  refine ⟨fun _ => List.isEmpty_iff, fun _ _ => ⟨id, rfl⟩, ?_, ?_, ?_, fun _ h => h,
    fun _ h => h.elim⟩
  · rintro n st out st' - - hrun
    cases hrun
    exact ⟨id, List.length_take_le _ _, rfl, ⟨_, rfl, (List.take_append_drop _ _).symm⟩,
      List.take_prefix _ _⟩
  · rintro n st st' hn - hrun
    have hout : (((Format.ofStream stream text).inflated
        (st.used ++ st.input.take (stream.length - st.used.length))).drop st.count).take n = [] :=
      Option.some.inj (congrArg Prod.fst hrun)
    obtain rfl := congrArg Prod.snd hrun
    have hdrop := (List.take_eq_nil_iff.mp hout).resolve_left hn.ne'
    refine ⟨?_, id, ?_⟩
    · show _ ≤ st.count + _
      exact (List.drop_eq_nil_iff.mp hdrop).trans (Nat.le_add_right _ _)
    · by_cases hleft : st.input.drop (stream.length - st.used.length) = []
      · exact .inl hleft
      · right
        have hlong := not_le.mp (mt List.drop_eq_nil_of_le hleft)
        show stream.length ≤ (st.used ++ st.input.take (stream.length - st.used.length)).length
        rw [List.length_append, List.length_take]
        omega
  · intro n st st' hrun
    cases (Prod.ext_iff.mp hrun).1

end OfStream

/-- The compressed form of the letter A. -/
def zlibA : List UInt8 := [0x78, 0x9c, 0x73, 0x04, 0x00, 0x00, 0x42, 0x00, 0x42]

/-- A new stream. -/
def streamA : ZlibInStream (Inflater.ofStream zlibA [0x41]) :=
  ZlibInStream.new (⟨[], [], 0⟩ : View)

/-- A reader of the letter, -/
theorem calls_exact_letter :
    ∃ z', run (Call.next 11) (setUnderlying ⟨zlibA, []⟩ 9 streamA) [.readU8, .reset] = some z' := by
  refine (calls_exact (z := streamA) (contract_ofStream zlibA [0x41]) rfl List.length_replicate
    ⟨zlibA, []⟩ 9 [.readU8, .reset]).2 11 (by decide) ⟨.inr (.inl (.inl (by decide))), fun z' _ => ⟨.inr ?_, ?_⟩⟩
  · -- the stream stops at its last byte
    rintro ⟨p, q, hpq, hq, hstops⟩
    have hlen : zlibA.length = (p ++ q).length := congrArg List.length hpq
    have hpos := List.length_pos_of_ne_nil hq
    have hstream : zlibA.length ≤ p.length := hstops
    rw [List.length_append] at hlen
    omega
  · exact fun _ _ => trivial

/-- The stream after the letter, with a byte too many. -/
def leftOver (b : List UInt8) : ZlibInStream (Inflater.ofStream zlibA [0x41]) where
  b := b
  ptr := 0
  end_ := 0
  ptrOffset := 0
  underlying := ⟨zlibA ++ [0], []⟩
  attached := true
  bytesIn := 10
  inflater := ⟨zlibA, [0], 1⟩
  handed := []

/-- The inflater has stopped and does not take the byte. -/
lemma decompress_leftOver (b : List UInt8) :
    decompress (leftOver b) = .ok () (leftOver b) := by
  have hstore : store b 0 [] = b := rfl
  have hrun : decompress (leftOver b) = .ok () { leftOver b with b := store b 0 [] } := rfl
  rw [hrun, hstore]
  rfl

lemma drain_leftOver (b : List UInt8) (fuel : ℕ) :
    drain fuel (leftOver b) = .error .noFuel (leftOver b) := by
  induction fuel with
  | zero => rfl
  | succ fuel ih =>
    show (decompress >>= fun _ => modify (fun z => { z with end_ := 0 }) >>= fun _ => drain fuel)
      (leftOver b) = _
    rw [bind_ok (decompress_leftOver b)]
    exact ih

/-- and a reset that never ends: the data are the letter and one byte more. -/
theorem reset_leftOver :
    Contract (Inflater.ofStream zlibA [0x41]) (Format.ofStream zlibA [0x41]) id (fun _ => False) ∧
      ∀ fuel, run (Call.next fuel) (setUnderlying ⟨zlibA ++ [0], []⟩ 10 streamA) [.reset] = none := by
  refine ⟨contract_ofStream _ _, fun fuel => ?_⟩
  obtain ⟨z', hdrain⟩ : ∃ z', drain fuel (setUnderlying ⟨zlibA ++ [0], []⟩ 10 streamA) =
      .error .noFuel z' := by
    cases fuel with
    | zero => exact ⟨_, rfl⟩
    | succ fuel =>
      exact ⟨_, (bind_ok rfl).trans (drain_leftOver (store (List.replicate bufSize 0) 0 [0x41]) fuel)⟩
  have hreset : reset fuel (setUnderlying ⟨zlibA ++ [0], []⟩ 10 streamA) = .error .noFuel z' := by
    show (drain fuel >>= fun _ => _) (setUnderlying ⟨zlibA ++ [0], []⟩ 10 streamA) = _
    exact bind_error hdrain
  have hexec : Call.reset.exec fuel (setUnderlying ⟨zlibA ++ [0], []⟩ 10 streamA) =
      .error .noFuel z' := bind_error hreset
  have hnext : Call.next fuel (setUnderlying ⟨zlibA ++ [0], []⟩ 10 streamA) .reset = none := by
    rw [Call.next, hexec]
  rw [run, List.foldlM_cons, hnext]
  rfl

end Limbo.Vnc.InStream
