import Limbo.Slirp.Reassembly

/-!
# The pieces of a stream

A segment of a stream is known by the positions where its data begins and ends. Segments whose
positions are less than 2^31 apart are compared by their numbers as they are by their positions, so
the list of fragments is a list of pieces in the order of the stream, wherever the numbers wrap.
-/

namespace Limbo.Slirp.Tcp

open Lib

/-- The number of the byte at a position. -/
def seqAt (isn : UInt32) (n : ℕ) : UInt32 := isn + UInt32.ofNat n

lemma seqAt_zero (isn : UInt32) : seqAt isn 0 = isn := by
  apply UInt32.toNat_inj.mp
  simp [seqAt]

lemma seqAt_add (isn : UInt32) (m n : ℕ) : seqAt isn m + UInt32.ofNat n = seqAt isn (m + n) := by
  apply UInt32.toNat_inj.mp
  simp only [seqAt, UInt32.toNat_add, UInt32.toNat_ofNat']
  omega

lemma seqAt_add_one (isn : UInt32) (n : ℕ) : seqAt isn n + 1 = seqAt isn (n + 1) := seqAt_add isn n 1

/-- A difference of two numbers is that of the positions, where these are close. -/
lemma seqDiff_seqAt (isn : UInt32) {m n : ℕ} (hlow : n ≤ m + 2147483648)
    (hhigh : m < n + 2147483648) : seqDiff (seqAt isn m) (seqAt isn n) = (m : ℤ) - n := by
  rw [seqDiff, wrap32]
  simp only [seqAt, UInt32.toNat_add, UInt32.toNat_ofNat']
  omega

lemma seqAt_inj {isn : UInt32} {m n : ℕ} (hlow : n < m + 4294967296) (hhigh : m < n + 4294967296) :
    seqAt isn m = seqAt isn n ↔ m = n := by
  constructor
  · intro h
    have h' := congrArg UInt32.toNat h
    simp only [seqAt, UInt32.toNat_add, UInt32.toNat_ofNat'] at h'
    omega
  · intro h
    rw [h]

lemma toNat_seqAt_sub {isn : UInt32} {m n : ℕ} (h : n ≤ m) (hlt : m < n + 4294967296) :
    (seqAt isn m - seqAt isn n).toNat = m - n := by
  rw [UInt32.toNat_sub]
  simp only [seqAt, UInt32.toNat_add, UInt32.toNat_ofNat']
  omega

/-! ### Pieces -/

/-- A segment of the stream: the bytes from `lo` up to `hi`, and the FIN only at the end. -/
structure Piece (bytes : List UInt8) where
  lo : ℕ
  hi : ℕ
  fin : Bool
  lo_le : lo ≤ hi
  hi_le : hi ≤ bytes.length
  hi_of_fin : fin = true → hi = bytes.length

variable {bytes : List UInt8}

namespace Piece

/-- The segment that carries a piece. -/
def segment (isn : UInt32) (p : Piece bytes) : Segment :=
  ⟨seqAt isn p.lo, p.fin, (bytes.take p.hi).drop p.lo⟩

/-- What a piece has from a position on. -/
def dropTo (p : Piece bytes) (n : ℕ) : Piece bytes :=
  { p with
    lo := min p.hi (max p.lo n)
    lo_le := min_le_left _ _ }

@[simp] lemma dropTo_hi (p : Piece bytes) (n : ℕ) : (p.dropTo n).hi = p.hi := rfl
@[simp] lemma dropTo_fin (p : Piece bytes) (n : ℕ) : (p.dropTo n).fin = p.fin := rfl

@[simp] lemma dropTo_lo (p : Piece bytes) (n : ℕ) : (p.dropTo n).lo = min p.hi (max p.lo n) := rfl

lemma dropTo_of_le (p : Piece bytes) {n : ℕ} (h : n ≤ p.lo) : p.dropTo n = p := by
  have hlo : min p.hi (max p.lo n) = p.lo := by
    rw [max_eq_left h, min_eq_right p.lo_le]
  cases p
  simpa [dropTo] using hlo

/-- What a piece has up to a position, which its FIN is not part of. -/
def takeTo (p : Piece bytes) (n : ℕ) : Piece bytes where
  lo := min p.lo n
  hi := min p.hi n
  fin := false
  lo_le := min_le_min_right n p.lo_le
  hi_le := (min_le_left _ _).trans p.hi_le
  hi_of_fin h := nomatch h

variable (isn : UInt32) (p : Piece bytes)

@[simp] lemma segment_seq : (p.segment isn).seq = seqAt isn p.lo := rfl
@[simp] lemma segment_fin : (p.segment isn).fin = p.fin := rfl

@[simp] lemma segment_len : (p.segment isn).len = p.hi - p.lo := by
  rw [Segment.len, segment, List.length_drop, List.length_take, min_eq_left p.hi_le]

@[simp] lemma segment_next : (p.segment isn).next = seqAt isn p.hi := by
  rw [Segment.next, segment_len, segment_seq, seqAt_add, Nat.add_sub_cancel' p.lo_le]

lemma segment_dropHead {n : ℕ} (hlo : p.lo ≤ n) (hhi : n ≤ p.hi) :
    (p.segment isn).dropHead (n - p.lo) = (p.dropTo n).segment isn := by
  have hlo' : (p.dropTo n).lo = n := by
    rw [dropTo_lo, max_eq_right hlo, min_eq_right hhi]
  simp only [segment, Segment.dropHead, Segment.mk.injEq, hlo', dropTo_hi, dropTo_fin, true_and]
  exact ⟨by rw [seqAt_add, Nat.add_sub_cancel' hlo], by rw [List.drop_drop, Nat.add_sub_cancel' hlo]⟩

lemma segment_dropTail {n : ℕ} (hlo : p.lo ≤ n) (hhi : n ≤ p.hi) (hfin : p.fin = false) :
    (p.segment isn).dropTail (p.hi - n) = (p.takeTo n).segment isn := by
  have hlen : p.hi - p.lo - (p.hi - n) = n - p.lo := by omega
  rw [Segment.dropTail, segment_len, hlen]
  simp only [segment, takeTo, min_eq_left hlo, min_eq_right hhi, hfin, Segment.mk.injEq, true_and]
  rw [List.take_drop, Nat.add_sub_cancel' hlo, List.take_take, min_eq_left hhi]

/-- The bytes before a piece and those of the piece. -/
lemma take_append_segment : bytes.take p.lo ++ (p.segment isn).data = bytes.take p.hi := by
  have hlo : bytes.take p.lo = (bytes.take p.hi).take p.lo := by
    rw [List.take_take, min_eq_left p.lo_le]
  rw [segment, hlo, List.take_append_drop]

lemma covers_segment {n : ℕ} (hlo : p.lo ≤ n) (hhi : n < p.hi) (hlt : n < p.lo + 4294967296) :
    (p.segment isn).Covers (seqAt isn n) := by
  rw [Segment.Covers, segment_seq, segment_len, toNat_seqAt_sub hlo hlt]
  omega

/-! ### The list of fragments -/

/-- The pieces are in order and do not overlap, and begin at `k` or behind it. -/
def Sorted : ℕ → List (Piece bytes) → Prop
  | _, [] => True
  | k, p :: ps => k ≤ p.lo ∧ Sorted p.hi ps

lemma Sorted.mono {k k' : ℕ} {ps : List (Piece bytes)} (h : Sorted k ps) (hk : k' ≤ k) :
    Sorted k' ps := by
  cases ps with
  | nil => trivial
  | cons p ps => exact ⟨hk.trans h.1, h.2⟩

lemma Sorted.le_lo {k : ℕ} {ps : List (Piece bytes)} (h : Sorted k ps) {p : Piece bytes}
    (hp : p ∈ ps) : k ≤ p.lo := by
  induction ps generalizing k with
  | nil => cases hp
  | cons q ps ih =>
    rcases List.mem_cons.mp hp with rfl | hp
    · exact h.1
    · exact (h.1.trans q.lo_le).trans (ih h.2 hp)

/-- The pieces that overlap the end of `p`, trimmed. -/
def trimFollowing (p : Piece bytes) : List (Piece bytes) → List (Piece bytes)
  | [] => []
  | q :: rest =>
    if p.hi ≤ q.lo then q :: rest
    else if p.hi < q.hi then q.dropTo p.hi :: rest
    else trimFollowing p rest

/-- A piece behind one that ends at `k`. -/
def place (p : Piece bytes) (k : ℕ) (rest : List (Piece bytes)) : List (Piece bytes) :=
  if p.lo < k ∧ p.hi ≤ k then rest else p.dropTo k :: trimFollowing (p.dropTo k) rest

/-- A piece in a list whose pieces begin at `k` or behind it. -/
def insertFrom (p : Piece bytes) : ℕ → List (Piece bytes) → List (Piece bytes)
  | k, [] => place p k []
  | k, q :: rest => if p.lo < q.lo then place p k (q :: rest) else q :: insertFrom p q.hi rest

lemma sorted_trimFollowing {p : Piece bytes} {k : ℕ} {ps : List (Piece bytes)} (h : Sorted k ps) :
    Sorted p.hi (trimFollowing p ps) := by
  induction ps generalizing k with
  | nil => trivial
  | cons q rest ih =>
    rw [trimFollowing]
    split_ifs with hle hlt
    · exact ⟨hle, h.2⟩
    · refine ⟨?_, h.2⟩
      rw [dropTo_lo]
      omega
    · exact ih h.2

lemma sorted_place {p : Piece bytes} {k : ℕ} {ps : List (Piece bytes)} (h : Sorted k ps) :
    Sorted k (place p k ps) := by
  rw [place]
  split_ifs with hcov
  · exact h
  · refine ⟨?_, sorted_trimFollowing h⟩
    have := p.lo_le
    rw [dropTo_lo]
    omega

lemma sorted_insertFrom {p : Piece bytes} {k : ℕ} {ps : List (Piece bytes)} (h : Sorted k ps) :
    Sorted k (insertFrom p k ps) := by
  induction ps generalizing k with
  | nil => exact sorted_place h
  | cons q rest ih =>
    rw [insertFrom]
    split_ifs with hlt
    · exact sorted_place h
    · exact ⟨h.1, ih h.2⟩

/-- A piece of the list is what is left of one that was put into it. -/
def Within (q p : Piece bytes) : Prop := p.lo ≤ q.lo ∧ q.hi = p.hi

lemma within_dropTo (p : Piece bytes) (n : ℕ) : Within (p.dropTo n) p := by
  have := p.lo_le
  refine ⟨?_, rfl⟩
  rw [dropTo_lo]
  omega

lemma exists_within_trimFollowing {p q : Piece bytes} {ps : List (Piece bytes)}
    (hq : q ∈ trimFollowing p ps) : ∃ p' ∈ ps, Within q p' := by
  induction ps with
  | nil => cases hq
  | cons p' rest ih =>
    rw [trimFollowing] at hq
    split_ifs at hq with hle hlt
    · exact ⟨q, hq, le_rfl, rfl⟩
    · rcases List.mem_cons.mp hq with rfl | hq
      · exact ⟨p', List.mem_cons_self, within_dropTo p' _⟩
      · exact ⟨q, List.mem_cons_of_mem _ hq, le_rfl, rfl⟩
    · obtain ⟨p'', hp'', hwithin⟩ := ih hq
      exact ⟨p'', List.mem_cons_of_mem _ hp'', hwithin⟩

lemma exists_within_place {p q : Piece bytes} {k : ℕ} {ps : List (Piece bytes)}
    (hq : q ∈ place p k ps) : ∃ p' ∈ p :: ps, Within q p' := by
  rw [place] at hq
  split_ifs at hq with hcov
  · exact ⟨q, List.mem_cons_of_mem _ hq, le_rfl, rfl⟩
  · rcases List.mem_cons.mp hq with rfl | hq
    · exact ⟨p, List.mem_cons_self, within_dropTo p k⟩
    · obtain ⟨p', hp', hwithin⟩ := exists_within_trimFollowing hq
      exact ⟨p', List.mem_cons_of_mem _ hp', hwithin⟩

/-- Nothing is in the list that did not arrive. -/
lemma exists_within_insertFrom {p q : Piece bytes} {k : ℕ} {ps : List (Piece bytes)}
    (hq : q ∈ insertFrom p k ps) : ∃ p' ∈ p :: ps, Within q p' := by
  induction ps generalizing k with
  | nil => exact exists_within_place hq
  | cons p' rest ih =>
    rw [insertFrom] at hq
    split_ifs at hq with hlt
    · exact exists_within_place hq
    · rcases List.mem_cons.mp hq with rfl | hq
      · exact ⟨q, by simp, le_rfl, rfl⟩
      · obtain ⟨p'', hp'', hwithin⟩ := ih hq
        refine ⟨p'', ?_, hwithin⟩
        simp only [List.mem_cons] at hp'' ⊢
        tauto

lemma hi_le_of_trimFollowing {p : Piece bytes} {e : ℕ} {ps : List (Piece bytes)} (hp : p.hi ≤ e)
    (h : ∀ q ∈ trimFollowing p ps, q.hi ≤ e) : ∀ q ∈ ps, q.hi ≤ e := by
  induction ps with
  | nil => exact fun q hq => nomatch hq
  | cons p' rest ih =>
    rw [trimFollowing] at h
    split_ifs at h with hle hlt
    · exact h
    · intro q hq
      rcases List.mem_cons.mp hq with rfl | hq
      · exact h (q.dropTo p.hi) List.mem_cons_self
      · exact h q (List.mem_cons_of_mem _ hq)
    · intro q hq
      rcases List.mem_cons.mp hq with rfl | hq
      · omega
      · exact ih h q hq

lemma hi_le_of_place {p : Piece bytes} {k e : ℕ} {ps : List (Piece bytes)} (hk : k ≤ e)
    (h : ∀ q ∈ place p k ps, q.hi ≤ e) : ∀ q ∈ p :: ps, q.hi ≤ e := by
  rw [place] at h
  split_ifs at h with hcov
  · intro q hq
    rcases List.mem_cons.mp hq with rfl | hq
    · exact hcov.2.trans hk
    · exact h q hq
  · have hp : p.hi ≤ e := h (p.dropTo k) List.mem_cons_self
    intro q hq
    rcases List.mem_cons.mp hq with rfl | hq
    · exact hp
    · exact hi_le_of_trimFollowing (p := p.dropTo k) hp
        (fun q' hq' => h q' (List.mem_cons_of_mem _ hq')) q hq

/-- What arrived ends no later than what is in the list. -/
lemma hi_le_of_insertFrom {p : Piece bytes} {k e : ℕ} {ps : List (Piece bytes)} (hk : k ≤ e)
    (h : ∀ q ∈ insertFrom p k ps, q.hi ≤ e) : ∀ q ∈ p :: ps, q.hi ≤ e := by
  induction ps generalizing k with
  | nil => exact hi_le_of_place hk h
  | cons p' rest ih =>
    rw [insertFrom] at h
    split_ifs at h with hlt
    · exact hi_le_of_place hk h
    · have hp' : p'.hi ≤ e := h p' List.mem_cons_self
      have hrest := ih hp' fun q hq => h q (List.mem_cons_of_mem _ hq)
      intro q hq
      simp only [List.mem_cons] at hq hrest
      rcases hq with rfl | rfl | hq
      · exact hrest q (Or.inl rfl)
      · exact hp'
      · exact hrest q (Or.inr hq)

/-! ### The list of segments -/

/-- A piece that lies in a window of positions in which numbers can be compared. -/
def InWindow (base : ℕ) (p : Piece bytes) : Prop := base ≤ p.lo ∧ p.hi < base + 2147483648

lemma inWindow_dropTo {base : ℕ} {p : Piece bytes} (h : InWindow base p) (n : ℕ) :
    InWindow base (p.dropTo n) := ⟨h.1.trans (within_dropTo p n).1, h.2⟩

lemma trimFollowing_map {isn : UInt32} {base : ℕ} {p : Piece bytes} {ps : List (Piece bytes)}
    (hp : InWindow base p) (hps : ∀ q ∈ ps, InWindow base q) :
    Tcp.trimFollowing (p.segment isn) (ps.map (segment isn)) =
      (trimFollowing p ps).map (segment isn) := by
  induction ps with
  | nil => rfl
  | cons q rest ih =>
    obtain ⟨hq, hrest⟩ := List.forall_mem_cons.mp hps
    have := p.lo_le
    have := q.lo_le
    obtain ⟨hplo, hphi⟩ := hp
    obtain ⟨hqlo, hqhi⟩ := hq
    have hi : seqDiff (p.segment isn).next (q.segment isn).seq = (p.hi : ℤ) - q.lo := by
      rw [segment_next, segment_seq, seqDiff_seqAt isn (by omega) (by omega)]
    rw [List.map_cons, Tcp.trimFollowing, trimFollowing, hi, segment_len]
    by_cases hle : p.hi ≤ q.lo
    · rw [if_pos (by omega), if_pos hle, List.map_cons]
    · rw [if_neg (by omega), if_neg hle]
      by_cases hlt : p.hi < q.hi
      · rw [if_pos (by omega), if_pos hlt, List.map_cons, ← segment_dropHead isn q (by omega) hlt.le]
        congr
        omega
      · rw [if_neg (by omega), if_neg hlt]
        exact ih hrest

/-- The segment before the place ends at `k`, or there is none and `k` is before `p`. -/
def PrevEnds (isn : UInt32) (base : ℕ) (p : Piece bytes) (k : ℕ) : Option (Segment) → Prop
  | none => k ≤ p.lo
  | some q => q.next = seqAt isn k ∧ base ≤ k ∧ k < base + 2147483648

lemma place_map {isn : UInt32} {base k : ℕ} {p : Piece bytes} {ps : List (Piece bytes)}
    {prev : Option Segment} (hprev : PrevEnds isn base p k prev) (hp : InWindow base p)
    (hps : ∀ q ∈ ps, InWindow base q) :
    Tcp.place (p.segment isn) prev (ps.map (segment isn)) = (place p k ps).map (segment isn) := by
  have := p.lo_le
  obtain ⟨hplo, hphi⟩ := hp
  cases prev with
  | none =>
    have hk : k ≤ p.lo := hprev
    rw [Tcp.place, place, if_neg (by omega), dropTo_of_le p hk, List.map_cons,
      trimFollowing_map ⟨hplo, hphi⟩ hps]
  | some q =>
    obtain ⟨hnext, hklo, hkhi⟩ := hprev
    have hi : seqDiff q.next (p.segment isn).seq = (k : ℤ) - p.lo := by
      rw [hnext, segment_seq, seqDiff_seqAt isn (by omega) (by omega)]
    rw [Tcp.place, place, hi, segment_len]
    by_cases hlt : p.lo < k
    · rw [if_pos (by omega)]
      by_cases hcov : p.hi ≤ k
      · rw [if_pos (by omega), if_pos ⟨hlt, hcov⟩]
      · have hdrop : ((k : ℤ) - p.lo).toNat = k - p.lo := by omega
        rw [if_neg (by omega), if_neg (by omega), hdrop, segment_dropHead isn p hlt.le (by omega),
          List.map_cons, trimFollowing_map (inWindow_dropTo ⟨hplo, hphi⟩ k) hps]
    · rw [if_neg (by omega), if_neg (by omega), dropTo_of_le p (by omega), List.map_cons,
        trimFollowing_map ⟨hplo, hphi⟩ hps]

/-- The code's list of segments is the list of the pieces that they carry. -/
lemma insertFrom_map {isn : UInt32} {base k : ℕ} {p : Piece bytes} {ps : List (Piece bytes)}
    {prev : Option Segment} (hprev : PrevEnds isn base p k prev) (hp : InWindow base p)
    (hps : ∀ q ∈ ps, InWindow base q) :
    Tcp.insertFrom (p.segment isn) prev (ps.map (segment isn)) =
      (insertFrom p k ps).map (segment isn) := by
  induction ps generalizing k prev with
  | nil => exact place_map hprev hp hps
  | cons q rest ih =>
    obtain ⟨hq, hrest⟩ := List.forall_mem_cons.mp hps
    have := p.lo_le
    have := q.lo_le
    have hgt : SeqGt (q.segment isn).seq (p.segment isn).seq ↔ p.lo < q.lo := by
      obtain ⟨hplo, hphi⟩ := hp
      obtain ⟨hqlo, hqhi⟩ := hq
      rw [SeqGt, segment_seq, segment_seq, seqDiff_seqAt isn (by omega) (by omega)]
      omega
    rw [List.map_cons, Tcp.insertFrom, insertFrom]
    by_cases hlt : p.lo < q.lo
    · rw [if_pos (hgt.mpr hlt), if_pos hlt, ← List.map_cons]
      exact place_map hprev hp hps
    · rw [if_neg (fun h => hlt (hgt.mp h)), if_neg hlt, List.map_cons]
      have hprev' : PrevEnds isn base p q.hi (some (q.segment isn)) :=
        ⟨segment_next isn q, hq.1.trans q.lo_le, hq.2⟩
      rw [ih hprev' hrest]

end Piece

end Limbo.Slirp.Tcp
