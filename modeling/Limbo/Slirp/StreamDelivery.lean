import Limbo.Slirp.StreamPieces

/-!
# What the guest's TCP streams deliver

For a stream whose segments arrive in any order, the state after each segment: what was appended to
the socket is the stream up to a position, `rcv_nxt` is that position's number, and the list holds
pieces of the stream behind it.
-/

namespace Limbo.Slirp.Tcp

open Lib

variable {bytes : List UInt8}

/-! ### The list is presented -/

/-- The stream is delivered up to `pos`, its FIN is not, and the pieces `ps` are queued. -/
structure Awaiting (isn : UInt32) (s : Tcpcb) (pos : ℕ) (ps : List (Piece bytes)) : Prop where
  rcvNxt : s.rcvNxt = seqAt isn pos
  queue : s.queue = ps.map (Piece.segment isn)
  received : s.received = bytes.take pos
  pos_le : pos ≤ bytes.length
  sorted : Piece.Sorted pos ps
  hi_lt : ∀ q ∈ ps, q.hi < pos + 2147483648
  fin : s.finReceived = false

/-- What the presentation leaves: `fin` only where the whole stream is delivered. -/
def Presented (bytes : List UInt8) (isn : UInt32) (fin : Bool) (s : Tcpcb) : Prop :=
  ∃ pos, ∃ ps : List (Piece bytes), Awaiting isn s pos ps ∧
    (fin = true → pos = bytes.length ∧ ps = [])

/-- The pieces are all that there is from `pos` up to a position whose number is 0. -/
def RunsOut (isn : UInt32) (pos : ℕ) (ps : List (Piece bytes)) : Prop :=
  ∃ e, seqAt isn e = sentinelSeq ∧ (∃ q ∈ ps, q.hi = e) ∧ (∀ q ∈ ps, q.hi ≤ e) ∧
    ∀ n, pos ≤ n → n < e → ∃ q ∈ ps, q.lo ≤ n ∧ n < q.hi

/-- The socket takes data, and takes it as it is. -/
def Socket.Plain (so : Socket) : Prop := so.soEmu = false ∧ so.fcantsendmore = false

instance (so : Socket) : Decidable so.Plain := inferInstanceAs (Decidable (_ ∧ _))

variable {tcpEmu : List UInt8 → List UInt8} {isn : UInt32} {so : Socket}

lemma Socket.Plain.append (hso : so.Plain) (data : List UInt8) : so.append tcpEmu data = data := by
  rw [Socket.append, hso.1]
  rfl

/-- The bytes of `p` come next, and nothing else changes. -/
lemma Awaiting.advance (hso : so.Plain) {s : Tcpcb} {p : Piece bytes} {ps : List (Piece bytes)}
    (h : Awaiting isn s p.lo (p :: ps)) :
    Awaiting isn
      { s with
        rcvNxt := s.rcvNxt + UInt32.ofNat (p.segment isn).len
        queue := ps.map (Piece.segment isn)
        received := s.received ++
          if so.fcantsendmore then [] else so.append tcpEmu (p.segment isn).data }
      p.hi ps := by
  have hp := p.lo_le
  refine ⟨?_, rfl, ?_, p.hi_le, h.sorted.2, ?_, h.fin⟩
  · rw [h.rcvNxt, ← Piece.segment_next isn p]
    rfl
  · rw [hso.2, if_neg Bool.false_ne_true, hso.append, h.received, Piece.take_append_segment]
  · intro q hq
    have := h.hi_lt q (List.mem_cons_of_mem _ hq)
    omega

/-- The loop presents what follows `p` without a gap, or runs out of segments at number 0. -/
lemma presentFrom_spec (hso : so.Plain) {s : Tcpcb} {p : Piece bytes} {ps : List (Piece bytes)}
    (h : Awaiting isn s p.lo (p :: ps)) :
    RunsOut isn p.lo (p :: ps) ∨
      ∃ fin s', presentFrom tcpEmu so s (p.segment isn) (ps.map (Piece.segment isn)) =
        some (fin, s') ∧ Presented bytes isn fin s' := by
  induction ps generalizing s p with
  | nil =>
    have hadv := @Awaiting.advance _ tcpEmu _ _ hso _ _ _ h
    have hrcv : s.rcvNxt + UInt32.ofNat (p.segment isn).len = seqAt isn p.hi := hadv.rcvNxt
    rw [List.map_nil, presentFrom]
    by_cases hend : sentinelSeq = s.rcvNxt + UInt32.ofNat (p.segment isn).len
    · refine Or.inl ⟨p.hi, (hend.trans hrcv).symm, ⟨p, List.mem_cons_self, rfl⟩, by simp, ?_⟩
      exact fun n hlo hhi => ⟨p, List.mem_cons_self, hlo, hhi⟩
    · refine Or.inr ⟨p.fin, _, if_neg hend, p.hi, [], hadv, ?_⟩
      exact fun hfin => ⟨p.hi_of_fin hfin, rfl⟩
  | cons q rest ih =>
    have hadv := @Awaiting.advance _ tcpEmu _ _ hso _ _ _ h
    have hrcv : s.rcvNxt + UInt32.ofNat (p.segment isn).len = seqAt isn p.hi := hadv.rcvNxt
    have hp := p.lo_le
    have hq := q.lo_le
    have hsorted : p.hi ≤ q.lo := hadv.sorted.1
    have hqhi := h.hi_lt q (by simp)
    rw [List.map_cons, presentFrom]
    by_cases hnext : q.lo = p.hi
    · have hseq : (q.segment isn).seq = s.rcvNxt + UInt32.ofNat (p.segment isn).len := by
        rw [hrcv, ← hnext]
        rfl
      rw [if_pos hseq]
      rcases ih (hnext ▸ hadv) with ⟨e, he, ⟨q', hq', hend⟩, hall, hcov⟩ | hsome
      · have hqe : q.hi ≤ e := hall q List.mem_cons_self
        refine Or.inl ⟨e, he, ⟨q', List.mem_cons_of_mem _ hq', hend⟩, ?_, ?_⟩
        · exact List.forall_mem_cons.mpr ⟨by omega, hall⟩
        · intro n hlo hhi
          by_cases hn : n < p.hi
          · exact ⟨p, List.mem_cons_self, hlo, hn⟩
          · obtain ⟨q'', hq'', hlo', hhi'⟩ := hcov n (by omega) hhi
            exact ⟨q'', List.mem_cons_of_mem _ hq'', hlo', hhi'⟩
      · exact Or.inr hsome
    · have hseq : (q.segment isn).seq ≠ s.rcvNxt + UInt32.ofNat (p.segment isn).len := by
        rw [hrcv, Piece.segment_seq]
        exact fun h' => hnext ((seqAt_inj (by omega) (by omega)).mp h')
      refine Or.inr ⟨p.fin, _, if_neg hseq, p.hi, q :: rest, hadv, ?_⟩
      intro hfin
      have := p.hi_of_fin hfin
      have := q.hi_le
      omega

/-- `present:` on a list of pieces. -/
lemma present_spec (hso : so.Plain) {s : Tcpcb} {pos : ℕ} {ps : List (Piece bytes)}
    (h : Awaiting isn s pos ps) (hout : HaveEstablished so.tState → ¬RunsOut isn pos ps) :
    ∃ fin s', present tcpEmu so s = some (fin, s') ∧ Presented bytes isn fin s' := by
  have hkeep : Presented bytes isn false s := ⟨pos, ps, h, fun hfin => absurd hfin Bool.false_ne_true⟩
  rw [present, h.queue]
  split_ifs with hest
  · cases ps with
    | nil => exact ⟨false, s, rfl, hkeep⟩
    | cons p rest =>
      have hp := h.sorted.1
      have hlt := h.hi_lt p List.mem_cons_self
      have := p.lo_le
      have hsyn : ¬(so.tState = TCPS_SYN_RECEIVED ∧ (p.segment isn).len ≠ 0) := by
        rintro ⟨hs, -⟩
        rw [hs] at hest
        exact absurd hest (by decide)
      rw [List.map_cons]
      dsimp only
      rw [if_neg hsyn]
      split_ifs with hseq
      · exact ⟨false, s, rfl, hkeep⟩
      · rw [not_not, h.rcvNxt, Piece.segment_seq, seqAt_inj (by omega) (by omega)] at hseq
        subst hseq
        exact (presentFrom_spec hso h).resolve_left (hout hest)
  · exact ⟨false, s, rfl, hkeep⟩

/-! ### A segment is put into the list -/

/-- The segments are all that there is from `rcv_nxt` up to the number 0. -/
def Completes (rcvNxt : UInt32) (segs : List Segment) : Prop :=
  segs ≠ [] ∧ (∀ q ∈ segs, seqDiff q.next sentinelSeq ≤ 0) ∧
    ∀ j < (sentinelSeq - rcvNxt).toNat, ∃ q ∈ segs, q.Covers (rcvNxt + UInt32.ofNat j)

instance (rcvNxt : UInt32) (segs : List Segment) : Decidable (Completes rcvNxt segs) :=
  inferInstanceAs (Decidable (_ ∧ _ ∧ _))

lemma RunsOut.completes {pos : ℕ} {ps : List (Piece bytes)}
    (hwin : ∀ q ∈ ps, Piece.InWindow pos q) (h : RunsOut isn pos ps) :
    Completes (seqAt isn pos) (ps.map (Piece.segment isn)) := by
  obtain ⟨e, he, ⟨q, hq, rfl⟩, hall, hcov⟩ := h
  obtain ⟨hlo, hhi⟩ := hwin q hq
  have := q.lo_le
  refine ⟨fun hnil => ?_, ?_, ?_⟩
  · rw [List.map_eq_nil_iff] at hnil
    rw [hnil] at hq
    cases hq
  · intro seg hseg
    obtain ⟨p, hp, rfl⟩ := List.mem_map.mp hseg
    have hp' := hall p hp
    obtain ⟨hplo, -⟩ := hwin p hp
    have := p.lo_le
    rw [Piece.segment_next, ← he, seqDiff_seqAt isn (by omega) (by omega)]
    omega
  · intro j hj
    rw [← he, toNat_seqAt_sub (by omega) (by omega)] at hj
    obtain ⟨p, hp, hplo, hphi⟩ := hcov (pos + j) (by omega) (by omega)
    obtain ⟨hplo', hphi'⟩ := hwin p hp
    refine ⟨p.segment isn, List.mem_map_of_mem hp, ?_⟩
    rw [seqAt_add]
    exact Piece.covers_segment isn p hplo hphi (by omega)

lemma RunsOut.of_insertFrom {pos : ℕ} {p : Piece bytes} {ps : List (Piece bytes)}
    (h : RunsOut isn pos (Piece.insertFrom p pos ps)) (hsorted : Piece.Sorted pos ps) :
    RunsOut isn pos (p :: ps) := by
  obtain ⟨e, he, ⟨q, hq, hend⟩, hall, hcov⟩ := h
  have hpos : pos ≤ e := by
    have := (Piece.sorted_insertFrom hsorted).le_lo hq
    have := q.lo_le
    omega
  refine ⟨e, he, ?_, Piece.hi_le_of_insertFrom hpos hall, ?_⟩
  · obtain ⟨p', hp', -, hhi⟩ := Piece.exists_within_insertFrom hq
    exact ⟨p', hp', hhi ▸ hend⟩
  · intro n hlo hhi
    obtain ⟨q', hq', hlo', hhi'⟩ := hcov n hlo hhi
    obtain ⟨p', hp', hlo'', hhi''⟩ := Piece.exists_within_insertFrom hq'
    exact ⟨p', hp', by omega, by omega⟩

/-- The list with a piece that arrived put into it. -/
lemma Awaiting.insert {s : Tcpcb} {pos : ℕ} {p : Piece bytes} {ps : List (Piece bytes)}
    (h : Awaiting isn s pos ps) (hp : Piece.InWindow pos p) :
    Awaiting isn { s with queue := insertFrom (p.segment isn) none s.queue } pos
      (Piece.insertFrom p pos ps) := by
  have hwin : ∀ q ∈ ps, Piece.InWindow pos q := fun q hq => ⟨h.sorted.le_lo hq, h.hi_lt q hq⟩
  refine ⟨h.rcvNxt, ?_, h.received, h.pos_le, Piece.sorted_insertFrom h.sorted, ?_, h.fin⟩
  · show insertFrom _ none s.queue = _
    rw [h.queue]
    exact Piece.insertFrom_map hp.1 hp hwin
  · intro q hq
    obtain ⟨p', hp', -, hhi⟩ := Piece.exists_within_insertFrom hq
    rcases List.mem_cons.mp hp' with rfl | hp'
    · exact hhi ▸ hp.2
    · exact hhi ▸ h.hi_lt p' hp'

/-- The piece comes next and nothing is queued. -/
lemma Awaiting.appendNext (hso : so.Plain) {s : Tcpcb} {pos : ℕ} {p : Piece bytes}
    {ps : List (Piece bytes)} (h : Awaiting isn s pos ps) (hp : Piece.InWindow pos p)
    (hnext : IsNext so s (p.segment isn)) :
    Awaiting isn (appendNext tcpEmu so s (p.segment isn)) p.hi ([] : List (Piece bytes)) := by
  obtain ⟨hseq, hqueue, -⟩ := hnext
  obtain ⟨hlo, hhi⟩ := hp
  have := p.lo_le
  rw [h.rcvNxt, Piece.segment_seq, seqAt_inj (by omega) (by omega)] at hseq
  subst hseq
  refine ⟨?_, hqueue, ?_, p.hi_le, trivial, List.forall_mem_nil _, h.fin⟩
  · rw [← Piece.segment_next isn p]
    exact congrArg (· + _) h.rcvNxt
  · show s.received ++ so.append tcpEmu _ = _
    rw [hso.append, h.received, Piece.take_append_segment]

lemma TCP_REASS_spec (hso : so.Plain) {s : Tcpcb} {pos : ℕ} {p : Piece bytes}
    {ps : List (Piece bytes)} (h : Awaiting isn s pos ps) (hp : Piece.InWindow pos p)
    (hout : HaveEstablished so.tState → ¬IsNext so s (p.segment isn) →
      ¬Completes s.rcvNxt (p.segment isn :: s.queue)) :
    ∃ fin s', TCP_REASS tcpEmu so s (p.segment isn) = some (fin, s') ∧
      Presented bytes isn fin s' := by
  rw [TCP_REASS]
  split_ifs with hnext
  · refine ⟨p.fin, _, rfl, p.hi, [], h.appendNext hso hp hnext, ?_⟩
    exact fun hfin => ⟨p.hi_of_fin hfin, rfl⟩
  · refine present_spec hso (h.insert hp) fun hest hruns => hout hest hnext ?_
    have hwin : ∀ q ∈ p :: ps, Piece.InWindow pos q :=
      List.forall_mem_cons.mpr ⟨hp, fun q hq => ⟨h.sorted.le_lo hq, h.hi_lt q hq⟩⟩
    rw [h.rcvNxt, h.queue]
    exact (hruns.of_insertFrom h.sorted).completes hwin

/-! ### Segments of the stream arrive -/

/-- How many numbers are behind `rcv_nxt`: those of the delivered bytes and of the FIN. -/
def Tcpcb.pos (s : Tcpcb) : ℕ := s.received.length + if s.finReceived then 1 else 0

/-- What was appended is a prefix of the stream, and all of it once a FIN was reported. -/
def Delivered (isn : UInt32) (bytes : List UInt8) (s : Tcpcb) : Prop :=
  s.received <+: bytes ∧ s.rcvNxt = isn + UInt32.ofNat s.pos ∧
    (s.finReceived = true → s.received = bytes)

/-- The FIN was reported. -/
structure Finished (isn : UInt32) (bytes : List UInt8) (s : Tcpcb) : Prop where
  rcvNxt : s.rcvNxt = seqAt isn (bytes.length + 1)
  received : s.received = bytes
  queue : s.queue = []
  fin : s.finReceived = true

/-- Every state of a run. -/
def StreamState (bytes : List UInt8) (isn : UInt32) (s : Tcpcb) : Prop :=
  (∃ pos, ∃ ps : List (Piece bytes), Awaiting isn s pos ps) ∨ Finished isn bytes s

lemma Awaiting.pos_eq {s : Tcpcb} {pos : ℕ} {ps : List (Piece bytes)} (h : Awaiting isn s pos ps) :
    s.pos = pos := by
  rw [Tcpcb.pos, h.fin, h.received, List.length_take, min_eq_left h.pos_le]
  rfl

lemma Finished.pos_eq {s : Tcpcb} (h : Finished isn bytes s) : s.pos = bytes.length + 1 := by
  rw [Tcpcb.pos, h.fin, h.received]
  rfl

lemma StreamState.rcvNxt {s : Tcpcb} (h : StreamState bytes isn s) : s.rcvNxt = seqAt isn s.pos := by
  rcases h with ⟨pos, ps, h⟩ | h
  · rw [h.pos_eq, h.rcvNxt]
  · rw [h.pos_eq, h.rcvNxt]

lemma StreamState.delivered {s : Tcpcb} (h : StreamState bytes isn s) : Delivered isn bytes s := by
  refine ⟨?_, h.rcvNxt, ?_⟩
  · rcases h with ⟨pos, ps, h⟩ | h
    · exact h.received ▸ List.take_prefix _ _
    · exact h.received ▸ List.prefix_rfl
  · intro hfin
    rcases h with ⟨pos, ps, h⟩ | h
    · exact absurd hfin (h.fin ▸ Bool.false_ne_true)
    · exact h.received

/-- The data and the FIN of a segment are delivered or queued. -/
lemma dodata_spec (hso : so.Plain) {s : Tcpcb} {pos : ℕ} {p : Piece bytes}
    {ps : List (Piece bytes)} (h : Awaiting isn s pos ps) (hp : Piece.InWindow pos p)
    (hout : ((p.segment isn).len ≠ 0 ∨ p.fin) → ¬HaveRcvdFin so.tState →
      HaveEstablished so.tState → ¬IsNext so s (p.segment isn) →
      ¬Completes s.rcvNxt (p.segment isn :: s.queue)) :
    ∃ s', dodata tcpEmu so s (p.segment isn) p.fin = some s' ∧ StreamState bytes isn s' := by
  rw [dodata]
  split_ifs with hdata
  · obtain ⟨fin, s', hs', pos', ps', haw, hfin⟩ :=
      @TCP_REASS_spec _ tcpEmu _ _ hso _ _ _ _ h hp (hout hdata.1 hdata.2)
    rw [hs', Option.map_some]
    cases fin with
    | false => exact ⟨s', rfl, Or.inl ⟨pos', ps', haw⟩⟩
    | true =>
      obtain ⟨rfl, rfl⟩ := hfin rfl
      refine ⟨_, rfl, Or.inr ⟨?_, ?_, haw.queue, rfl⟩⟩
      · show s'.rcvNxt + 1 = _
        rw [haw.rcvNxt, seqAt_add_one]
      · show s'.received = _
        rw [haw.received, List.take_length]
  · exact ⟨s, rfl, Or.inl ⟨pos, ps, h⟩⟩

/-- A segment of the stream that arrives. The SYN is in front of the first byte. -/
structure Delivery (bytes : List UInt8) where
  so : Socket
  piece : Piece bytes
  syn : Bool
  rcvWnd : Fin (2 ^ 31)
  predicted : Bool
  lo_of_syn : syn = true → piece.lo = 0

/-- The segment on the wire. -/
def Delivery.arrival (isn : UInt32) (d : Delivery bytes) : Arrival where
  so := d.so
  ti :=
    if d.syn then { d.piece.segment isn with seq := (d.piece.segment isn).seq - 1 }
    else d.piece.segment isn
  syn := d.syn
  rcvWnd := d.rcvWnd
  predicted := d.predicted

/-- What the leading data leaves of a segment: no data and no FIN, or a piece from `rcv_nxt` on. -/
def Trimmed (isn : UInt32) (pos : ℕ) (p : Piece bytes) (r : Segment × Bool) : Prop :=
  (r.1.len = 0 ∧ r.2 = false) ∨
    ∃ p' : Piece bytes, r = (p'.segment isn, p'.fin) ∧ pos ≤ p'.lo ∧ p.lo ≤ p'.lo ∧
      p'.hi ≤ p.hi ∧ (p'.fin = true → p.fin = true)

lemma Delivery.seqDiff_arrival (d : Delivery bytes) {pos : ℕ}
    (hlo : pos + d.syn.toNat < d.piece.lo + 2147483648) (hhi : d.piece.hi < pos + 2147483648) :
    seqDiff (seqAt isn pos) (d.arrival isn).ti.seq = (pos : ℤ) - d.piece.lo + d.syn.toNat := by
  have := d.piece.lo_le
  cases hsyn : d.syn with
  | false =>
    have hti : (d.arrival isn).ti.seq = seqAt isn d.piece.lo := by
      simp [arrival, hsyn]
    rw [hti, seqDiff_seqAt isn (by omega) (by omega)]
    simp
  | true =>
    have hti : (d.arrival isn).ti.seq = isn - 1 := by
      simp [arrival, hsyn, d.lo_of_syn hsyn, seqAt_zero]
    have h0 := d.lo_of_syn hsyn
    have hpos : (isn - 1).toNat = (4294967295 + isn.toNat) % 4294967296 := UInt32.toNat_sub isn 1
    rw [hsyn] at hlo
    rw [hti, seqDiff, wrap32, hpos, seqAt, UInt32.toNat_add, UInt32.toNat_ofNat', h0]
    simp only [Bool.toNat_true] at hlo ⊢
    omega

/-- Without its SYN, the segment begins with its first byte. -/
lemma Delivery.dropSyn (d : Delivery bytes) :
    (if (d.arrival isn).syn then { (d.arrival isn).ti with seq := (d.arrival isn).ti.seq + 1 }
      else (d.arrival isn).ti) = d.piece.segment isn := by
  cases hsyn : d.syn with
  | false => simp [arrival, hsyn]
  | true =>
    simp only [arrival, hsyn, if_true, sub_add_cancel]

lemma trimLeading_spec (d : Delivery bytes) {pos : ℕ} {r : Segment × Bool}
    (hlo : pos + d.syn.toNat < d.piece.lo + 2147483648) (hhi : d.piece.hi < pos + 2147483648)
    (h : trimLeading (seqAt isn pos) (d.arrival isn) = some r) : Trimmed isn pos d.piece r := by
  have hle := d.piece.lo_le
  have hsyn : (d.arrival isn).syn = d.syn := rfl
  rw [trimLeading, d.dropSyn, d.seqDiff_arrival hlo hhi] at h
  have htodrop : (if (d.arrival isn).syn then (pos : ℤ) - d.piece.lo + d.syn.toNat - 1
      else (pos : ℤ) - d.piece.lo + d.syn.toNat) = (pos : ℤ) - d.piece.lo := by
    rw [hsyn]
    cases d.syn <;> simp
  rw [htodrop] at h
  dsimp only at h
  rw [Piece.segment_len] at h
  split_ifs at h with hpos hcov hs
  · obtain rfl := Option.some.inj h
    have hlen : (d.piece.segment isn).data.length = d.piece.hi - d.piece.lo :=
      Piece.segment_len isn d.piece
    refine Or.inl ⟨?_, rfl⟩
    rw [Segment.dropHead, Segment.len, List.length_drop, hlen, Nat.sub_self]
  · obtain rfl := Option.some.inj h
    have hge : d.piece.lo ≤ pos := by
      cases hs : d.syn <;> simp only [hs, Bool.toNat_false, Bool.toNat_true] at hpos <;> omega
    have hto : ((pos : ℤ) - d.piece.lo).toNat = pos - d.piece.lo := by omega
    refine Or.inr ⟨d.piece.dropTo pos, ?_, ?_, ?_, le_rfl, id⟩
    · rw [hto, Piece.segment_dropHead isn d.piece hge (by omega)]
      rfl
    · rw [Piece.dropTo_lo]
      omega
    · exact (Piece.within_dropTo d.piece pos).1
  · rw [hsyn] at hs
    have hti : (d.arrival isn).ti = d.piece.segment isn := by
      simp [Delivery.arrival, hs]
    rw [hti] at h
    obtain rfl := Option.some.inj h
    refine Or.inr ⟨d.piece, rfl, ?_, le_rfl, le_rfl, id⟩
    simp only [hs, Bool.toNat_false] at hpos
    omega

lemma trimTrailing_spec {pos wnd : ℕ} {p p' : Piece bytes} {r : Segment × Bool}
    (hpos : pos ≤ p'.lo) (hhi : p'.hi < pos + 2147483648) (hwnd : wnd < 2147483648)
    (hlo : p.lo ≤ p'.lo) (hle : p'.hi ≤ p.hi) (hpfin : p'.fin = true → p.fin = true)
    (hfin : p.fin = true → p.hi ≤ pos + wnd ∨ pos + wnd ≤ p.lo)
    (h : trimTrailing (seqAt isn pos) wnd (p'.segment isn) p'.fin = some r) :
    Trimmed isn pos p r := by
  have hp' := p'.lo_le
  have htodrop : seqDiff (p'.segment isn).next (seqAt isn pos + UInt32.ofNat wnd) =
      (p'.hi : ℤ) - (pos + wnd : ℕ) := by
    rw [Piece.segment_next, seqAt_add, seqDiff_seqAt isn (by omega) (by omega)]
  rw [trimTrailing, htodrop] at h
  rw [Piece.segment_len] at h
  split_ifs at h with hout hdrop
  · obtain rfl := Option.some.inj h
    have hto : ((p'.hi : ℤ) - (pos + wnd : ℕ)).toNat = p'.hi - (pos + wnd) := by omega
    rw [hto]
    by_cases hcut : p'.lo < pos + wnd
    · -- something is left, so the segment does not have the FIN
      have hnofin : p'.fin = false := by
        by_contra hne
        have := hfin (hpfin (Bool.eq_true_of_not_eq_false hne))
        omega
      rw [Piece.segment_dropTail isn p' hcut.le (by omega) hnofin]
      refine Or.inr ⟨p'.takeTo (pos + wnd), rfl, ?_, ?_, ?_, fun hno => nomatch hno⟩
      · exact le_min hpos (by omega)
      · exact le_min hlo (by omega)
      · exact (min_le_left _ _).trans hle
    · refine Or.inl ⟨?_, rfl⟩
      rw [Segment.len, Segment.dropTail, List.length_take, Piece.segment_len]
      omega
  · obtain rfl := Option.some.inj h
    exact Or.inr ⟨p', rfl, hpos, hlo, hle, hpfin⟩

/-- Nothing of a segment that has no data and no FIN is left. -/
lemma trimTrailing_of_empty {rcvNxt : UInt32} {wnd : ℕ} {ti : Segment} {r : Segment × Bool}
    (hlen : ti.len = 0) (h : trimTrailing rcvNxt wnd ti false = some r) :
    r.1.len = 0 ∧ r.2 = false := by
  rw [trimTrailing] at h
  split_ifs at h with hout hdrop
  · obtain rfl := Option.some.inj h
    refine ⟨?_, rfl⟩
    rw [Segment.len, Segment.dropTail, List.length_take, hlen]
    omega
  · obtain rfl := Option.some.inj h
    exact ⟨hlen, rfl⟩

/-- What is left of a segment of the stream. The FIN is not cut off a segment that keeps data. -/
lemma trim_spec {s : Tcpcb} (hs : StreamState bytes isn s) (d : Delivery bytes)
    {r : Segment × Bool} (hlo : s.pos + d.syn.toNat < d.piece.lo + 2147483648)
    (hhi : d.piece.hi < s.pos + 2147483648)
    (hfin : d.piece.fin = true → d.piece.hi ≤ s.pos + d.rcvWnd ∨ s.pos + d.rcvWnd ≤ d.piece.lo)
    (h : trim s (d.arrival isn) = some r) : Trimmed isn s.pos d.piece r := by
  obtain ⟨⟨ti, thFin⟩, hlead, htrail⟩ := Option.bind_eq_some_iff.mp h
  rw [hs.rcvNxt] at hlead htrail
  rcases trimLeading_spec d hlo hhi hlead with ⟨hlen, hno⟩ | ⟨p', hp', hpos, hlo', hle, hpfin⟩
  · dsimp only at hlen hno
    subst hno
    exact Or.inl (trimTrailing_of_empty hlen htrail)
  · obtain ⟨rfl, rfl⟩ := Prod.mk.inj hp'
    have hwnd : (d.rcvWnd : ℕ) < 2147483648 := d.rcvWnd.isLt
    exact trimTrailing_spec hpos (by omega) hwnd hlo' hle hpfin hfin htrail

/-! ### Runs -/

/-- A segment arrives, or the connection is established and the list is presented. -/
inductive Event (bytes : List UInt8)
  | arrive (d : Delivery bytes)
  | established (so : Socket)

/-- `tcp_input()`, and its call `tcp_reass(tp, NULL, NULL)`, whose result it does not read. -/
def step (tcpEmu : List UInt8 → List UInt8) (isn : UInt32) (s : Tcpcb) :
    Event bytes → Option Tcpcb
  | .arrive d => tcpInput tcpEmu s (d.arrival isn)
  | .established so => (tcpReass tcpEmu so s none).map Prod.snd

/-- A segment goes to the list and the list is presented. -/
def Queues (so : Socket) (s : Tcpcb) (r : Segment × Bool) : Prop :=
  (r.1.len ≠ 0 ∨ r.2) ∧ ¬HaveRcvdFin so.tState ∧ HaveEstablished so.tState ∧ ¬IsNext so s r.1

instance (so : Socket) (s : Tcpcb) (r : Segment × Bool) : Decidable (Queues so s r) :=
  inferInstanceAs (Decidable (_ ∧ _))

/-- The segment's numbers can be told from those of 2^31 bytes before or behind it, the window does
not cut a FIN off a segment that keeps data, and the segment does not complete the list up to the
number 0. -/
def Orderly (isn : UInt32) (s : Tcpcb) : Event bytes → Prop
  | .arrive d =>
    d.so.Plain ∧ s.pos + d.syn.toNat < d.piece.lo + 2147483648 ∧
      d.piece.hi < s.pos + 2147483648 ∧
      (d.piece.fin = true → d.piece.hi ≤ s.pos + d.rcvWnd ∨ s.pos + d.rcvWnd ≤ d.piece.lo) ∧
      ∀ r ∈ trim s (d.arrival isn), Queues d.so s r → ¬Completes s.rcvNxt (r.1 :: s.queue)
  | .established so =>
    so.Plain ∧ (HaveEstablished so.tState → ¬Completes s.rcvNxt s.queue)

instance (isn : UInt32) (s : Tcpcb) : (e : Event bytes) → Decidable (Orderly isn s e)
  | .arrive _ => inferInstanceAs (Decidable (_ ∧ _))
  | .established _ => inferInstanceAs (Decidable (_ ∧ _))

lemma tcpInput_spec {s : Tcpcb} (hs : StreamState bytes isn s) {d : Delivery bytes}
    (hok : Orderly isn s (.arrive d)) :
    ∃ s', tcpInput tcpEmu s (d.arrival isn) = some s' ∧ StreamState bytes isn s' := by
  obtain ⟨hso, hlo, hhi, hfin, hout⟩ := hok
  rw [tcpInput]
  split_ifs with hpred
  · obtain ⟨hnext, -, hsyn, -⟩ := hpred
    have hti : (d.arrival isn).ti = d.piece.segment isn := if_neg hsyn
    rw [hti] at hnext ⊢
    have hle := d.piece.lo_le
    have hlo' : d.piece.lo = s.pos := by
      have hseq := hnext.1
      rw [hs.rcvNxt, Piece.segment_seq] at hseq
      exact (seqAt_inj (by omega) (by omega)).mp hseq
    rcases hs with ⟨pos, ps, h⟩ | h
    · rw [h.pos_eq] at hlo' hhi
      exact ⟨_, rfl, Or.inl ⟨_, _, h.appendNext hso ⟨hlo'.ge, hhi⟩ hnext⟩⟩
    · have := d.piece.hi_le
      have := h.pos_eq
      omega
  · cases htrim : trim s (d.arrival isn) with
    | none => exact ⟨s, rfl, hs⟩
    | some r =>
      rcases trim_spec hs d hlo hhi hfin htrim with ⟨hlen, hno⟩ | ⟨p', rfl, hpos, hlo', hle, -⟩
      · refine ⟨s, ?_, hs⟩
        show dodata tcpEmu d.so s r.1 r.2 = some s
        rw [dodata, if_neg]
        simp [hlen, hno]
      · rcases hs with ⟨pos, ps, h⟩ | h
        · rw [h.pos_eq] at hpos hhi
          exact dodata_spec hso h ⟨hpos, by omega⟩ fun hdata hrcvd hest hnext =>
            hout _ htrim ⟨hdata, hrcvd, hest, hnext⟩
        · have := p'.lo_le
          have := p'.hi_le
          have := h.pos_eq
          omega

lemma step_spec {s : Tcpcb} {e : Event bytes} (hs : StreamState bytes isn s)
    (hok : Orderly isn s e) : ∃ s', step tcpEmu isn s e = some s' ∧ StreamState bytes isn s' := by
  cases e with
  | arrive d => exact tcpInput_spec hs hok
  | established so =>
    obtain ⟨hso, hout⟩ := hok
    rcases hs with ⟨pos, ps, h⟩ | h
    · have hwin : ∀ q ∈ ps, Piece.InWindow pos q := fun q hq => ⟨h.sorted.le_lo hq, h.hi_lt q hq⟩
      have hruns : HaveEstablished so.tState → ¬RunsOut isn pos ps := by
        intro hest hruns
        apply hout hest
        rw [h.rcvNxt, h.queue]
        exact hruns.completes hwin
      obtain ⟨fin, s', hs', pos', ps', haw, -⟩ := @present_spec _ tcpEmu _ _ hso _ _ _ h hruns
      exact ⟨s', congrArg (Option.map Prod.snd) hs', Or.inl ⟨pos', ps', haw⟩⟩
    · refine ⟨s, ?_, Or.inr h⟩
      rw [step, tcpReass, present, h.queue]
      split_ifs <;> rfl

lemma streamState_init : StreamState bytes isn (Tcpcb.init isn) := by
  refine Or.inl ⟨0, [], ?_, rfl, rfl, Nat.zero_le _, trivial, List.forall_mem_nil _, rfl⟩
  exact (seqAt_zero isn).symm

/-- Whatever the order of the segments, their overlaps and their numbers: the loops end, and what is
delivered is a prefix of the stream, up to `rcv_nxt`, and all of it once its FIN is reported. -/
theorem stream_delivered (tcpEmu : List UInt8 → List UInt8) (isn : UInt32) (bytes : List UInt8)
    (events : List (Event bytes))
    (hok : Guarded (step tcpEmu isn) (Orderly isn) (Tcpcb.init isn) events) :
    ∃ s, run (step tcpEmu isn) (Tcpcb.init isn) events = some s ∧ Delivered isn bytes s := by
  obtain ⟨s, hs, hstate⟩ :=
    run_returns_of_guarded (fun _ _ => @step_spec _ tcpEmu _ _ _) streamState_init hok
  exact ⟨s, hs, hstate.delivered⟩

/-- A segment of a connection that is established. -/
def arriving (p : Piece bytes) : Event bytes :=
  .arrive ⟨⟨TCPS_ESTABLISHED, false, false⟩, p, false, 8192, false, fun h => nomatch h⟩

/-- The last three bytes of five come first, with the FIN, then the first three, and these again.
The third byte has the number 0. -/
theorem stream_delivered_wrapping :
    ∃ s, run (step id 0xfffffffe) (Tcpcb.init 0xfffffffe)
        [@arriving [104, 101, 108, 108, 111]
            ⟨2, 5, true, by decide, by decide, by decide⟩,
          arriving ⟨0, 3, false, by decide, by decide, by decide⟩,
          arriving ⟨0, 3, false, by decide, by decide, by decide⟩] = some s ∧
      Delivered 0xfffffffe [104, 101, 108, 108, 111] s :=
  stream_delivered id _ _ _ (by decide +kernel)

/-- The second byte of two comes first, and the number behind it is 0: the loop that presents both
goes on with the sentinel. -/
theorem not_stream_delivered :
    ¬∃ s, run (step id 0xfffffffe) (Tcpcb.init 0xfffffffe)
        [@arriving [104, 105] ⟨1, 2, false, by decide, by decide, by decide⟩,
          arriving ⟨0, 1, false, by decide, by decide, by decide⟩] = some s ∧
      Delivered 0xfffffffe [104, 105] s := by
  have hnone : run (step id 0xfffffffe) (Tcpcb.init 0xfffffffe)
      [@arriving [104, 105] ⟨1, 2, false, by decide, by decide, by decide⟩,
        arriving ⟨0, 1, false, by decide, by decide, by decide⟩] = none := by
    decide +kernel
  rintro ⟨s, hs, -⟩
  rw [hnone] at hs
  cases hs

end Limbo.Slirp.Tcp
