import Limbo.Slirp.OutputQueues

/-!
# What the output queues lose

Nothing is lost on the queues, and the packets of a session leave in order unless ARP delays one and
not the next. A session is forgotten where `next_m` is taken for the head of `if_batchq` while there
are sessions on it.
-/

namespace Limbo.Slirp.Output

open Lib Queues

/-! ### Sessions on a queue -/

@[simp] lemma packets_nil : packets [] = [] := rfl

@[simp] lemma packets_cons (ss : Session) (q : List Session) :
    packets (ss :: q) = ss.packets ++ packets q := rfl

@[simp] lemma packets_append (q q' : List Session) : packets (q ++ q') = packets q ++ packets q' :=
  List.flatMap_append

@[simp] lemma packets_remque (ss : Session) : packets ss.remque = ss.rest := by
  obtain ⟨first, rest⟩ := ss
  cases rest with
  | nil => rfl
  | cons next rest => simp [Session.remque, Session.packets]

@[simp] lemma insque_packets (ss : Session) (ifm : Mbuf) :
    (ss.insque ifm).packets = ss.packets ++ [ifm] := rfl

@[simp] lemma insque_so (ss : Session) (ifm : Mbuf) : (ss.insque ifm).so = ss.so := rfl

/-- The packets of the sessions are of one socket each. -/
def Uniform (q : List Session) : Prop := ∀ ss ∈ q, ∀ p ∈ ss.packets, p.so = ss.so

lemma Uniform.exists_session {q : List Session} (h : Uniform q) {p : Mbuf} (hp : p ∈ packets q) :
    ∃ ss ∈ q, p.so = ss.so := by
  obtain ⟨ss, hss, hmem⟩ := List.mem_flatMap.mp hp
  exact ⟨ss, hss, h ss hss p hmem⟩

lemma uniform_remque {ss : Session} (h : ∀ p ∈ ss.packets, p.so = ss.so) : Uniform ss.remque := by
  obtain ⟨first, rest⟩ := ss
  cases rest with
  | nil => exact List.forall_mem_nil _
  | cons next rest =>
    intro ss' hss' p hp
    obtain rfl := List.mem_singleton.mp hss'
    rw [h p (List.mem_cons_of_mem _ hp), Session.so]
    exact (h next (List.mem_cons_of_mem _ List.mem_cons_self)).symm

lemma locate_eq {ifm : Mbuf} {q before behind : List Session} {ss : Session}
    (h : locate ifm q = some (before, ss, behind)) :
    q = before ++ ss :: behind ∧ ss.first = ifm := by
  induction q generalizing before with
  | nil => cases h
  | cons ss' q ih =>
    rw [locate] at h
    split_ifs at h with hfirst
    · simp only [Option.some.injEq, Prod.mk.injEq] at h
      obtain ⟨rfl, rfl, rfl⟩ := h
      exact ⟨rfl, hfirst⟩
    · obtain ⟨r, hr, heq⟩ := Option.map_eq_some_iff.mp h
      simp only [Prod.mk.injEq] at heq
      obtain ⟨rfl, rfl, rfl⟩ := heq
      obtain ⟨rfl, hfirst'⟩ := ih hr
      exact ⟨rfl, hfirst'⟩

/-- The session that is found is the one or comes before it. -/
lemma exists_locate (done : List Session) (ss : Session) (later : List Session) :
    ∃ r, locate ss.first (done ++ ss :: later) = some r ∧ ∀ d ∈ r.1, d ∈ done := by
  induction done with
  | nil => exact ⟨_, if_pos rfl, List.forall_mem_nil _⟩
  | cons d done ih =>
    obtain ⟨r, hr, hmem⟩ := ih
    by_cases hfirst : d.first = ss.first
    · exact ⟨_, if_pos hfirst, List.forall_mem_nil _⟩
    · refine ⟨(d :: r.1, r.2.1, r.2.2), ?_, ?_⟩
      · rw [List.cons_append, locate, if_neg hfirst, hr]
        rfl
      · exact List.forall_mem_cons.mpr
          ⟨List.mem_cons_self, fun d' hd' => List.mem_cons_of_mem _ (hmem d' hd')⟩

lemma lastOf_eq {so : Option ℕ} {q before behind : List Session} {ss : Session}
    (h : lastOf so q = some (before, ss, behind)) : q = before ++ ss :: behind ∧ ss.so = so := by
  induction q generalizing before ss behind with
  | nil => cases h
  | cons ss' q ih =>
    rw [lastOf] at h
    cases hq : lastOf so q with
    | some r =>
      rw [hq] at h
      simp only [Option.some.injEq, Prod.mk.injEq] at h
      obtain ⟨rfl, rfl, rfl⟩ := h
      obtain ⟨rfl, hso⟩ := ih hq
      exact ⟨rfl, hso⟩
    | none =>
      rw [hq] at h
      dsimp only at h
      split_ifs at h with hso
      simp only [Option.some.injEq, Prod.mk.injEq] at h
      obtain ⟨rfl, rfl, rfl⟩ := h
      exact ⟨rfl, hso⟩

lemma lastOf_eq_none {so : Option ℕ} {q : List Session} (h : lastOf so q = none) :
    ∀ ss ∈ q, ss.so ≠ so := by
  induction q with
  | nil => exact List.forall_mem_nil _
  | cons ss' q ih =>
    rw [lastOf] at h
    cases hq : lastOf so q with
    | some r =>
      rw [hq] at h
      cases h
    | none =>
      rw [hq] at h
      dsimp only at h
      split_ifs at h with hso
      exact List.forall_mem_cons.mpr ⟨hso, ih hq⟩

/-! ### The order of the packets -/

/-- Packets of one session in the order in which they were queued. -/
def InOrder (p q : Mbuf) : Prop := p.so = q.so → p.serial < q.serial

/-- Packets of different sessions change their places. -/
lemma inOrder_swap {a b c d : List Mbuf} (h : (a ++ (b ++ (c ++ d))).Pairwise InOrder)
    (hbc : ∀ p ∈ b, ∀ q ∈ c, p.so ≠ q.so) : (a ++ (c ++ (b ++ d))).Pairwise InOrder := by
  simp only [List.pairwise_append, List.mem_append] at h ⊢
  obtain ⟨ha, ⟨hb, ⟨hc, hd, hcd⟩, hbcd⟩, habcd⟩ := h
  refine ⟨ha, ⟨hc, ⟨hb, hd, fun x hx y hy => hbcd x hx y (Or.inr hy)⟩, ?_⟩, ?_⟩
  · rintro x hx y (hy | hy)
    · exact fun hso => absurd hso.symm (hbc y hy x hx)
    · exact hcd x hx y hy
  · rintro x hx y (hy | hy | hy)
    · exact habcd x hx y (Or.inr (Or.inl hy))
    · exact habcd x hx y (Or.inl hy)
    · exact habcd x hx y (Or.inr (Or.inr hy))

/-- A packet that none of its session is in front of goes to the end of what is before it. -/
lemma inOrder_move {a b c : List Mbuf} {p : Mbuf} (h : (a ++ (b ++ p :: c)).Pairwise InOrder)
    (hb : ∀ q ∈ b, q.so ≠ p.so) : (a ++ [p] ++ (b ++ c)).Pairwise InOrder := by
  rw [List.append_assoc]
  refine inOrder_swap (c := [p]) h fun q hq p' hp' => ?_
  rw [List.mem_singleton.mp hp']
  exact hb q hq

/-- The last packet so far goes behind all packets of its session. -/
lemma inOrder_insert {a b : List Mbuf} {p : Mbuf} (h : (a ++ b).Pairwise InOrder)
    (ha : ∀ q ∈ a, q.serial < p.serial) (hb : ∀ q ∈ b, q.so ≠ p.so) :
    (a ++ p :: b).Pairwise InOrder := by
  rw [List.pairwise_append] at h ⊢
  obtain ⟨haa, hbb, hab⟩ := h
  refine ⟨haa, List.pairwise_cons.mpr ⟨fun q hq hso => absurd hso.symm (hb q hq), hbb⟩, ?_⟩
  intro x hx y hy
  rcases List.mem_cons.mp hy with rfl | hy
  · exact fun _ => ha x hx
  · exact hab x hx y hy

/-! ### What every state has -/

/-- Everything that was queued is sent, expired or waiting, once, and in order; each session is on
`if_batchq` once, and `next_m` is on it. -/
structure Sound (s : Queues) : Prop where
  perm : (s.sent ++ s.expired ++ s.waiting).Perm s.outputs
  nodup : s.outputs.Nodup
  serial_lt : ∀ p ∈ s.outputs, p.serial < s.outputs.length
  order : (s.sent ++ s.waiting).Pairwise InOrder
  uniformFast : Uniform s.ifFastq
  uniformBatch : Uniform s.ifBatchq
  distinct : (s.ifBatchq.map Session.so).Nodup
  nextM : (s.ifBatchq = [] ∧ s.nextM = .ifBatchq) ∨ ∃ ss ∈ s.ifBatchq, s.nextM = .mbuf ss.first

/-- Where the loop is: what it left behind on `if_fastq` is delayed. If nothing is, it goes with
`next_m`, and it ends when the queues are empty. -/
def WalkOk (s : Queues) : Prop :=
  match s.walk with
  | none => s.delayed = [] → s.refused = false → s.waiting = []
  | some ⟨ifm, false⟩ =>
    ∃ done ss later, s.ifFastq = done ++ ss :: later ∧ ss.first = ifm ∧ ∀ d ∈ done, d.so ∈ s.delayed
  | some ⟨ifm, true⟩ =>
    (∀ d ∈ s.ifFastq, d.so ∈ s.delayed) ∧ (∃ ss ∈ s.ifBatchq, ss.first = ifm) ∧
      (s.delayed = [] → s.nextM = .mbuf ifm)

/-- A state of a run. -/
def Ok (s : Queues) : Prop := Sound s ∧ WalkOk s

lemma Sound.with_walk {s : Queues} (h : Sound s) (walk : Option Walk) (delayed : List (Option ℕ))
    (refused : Bool) : Sound { s with walk, delayed, refused } :=
  ⟨h.perm, h.nodup, h.serial_lt, h.order, h.uniformFast, h.uniformBatch, h.distinct, h.nextM⟩

lemma count_eq (s : Queues) (so : Option ℕ) :
    ∃ soQueued soNqueued, s.count so = { s with soQueued, soNqueued } := by
  cases so with
  | none => exact ⟨_, _, rfl⟩
  | some so => exact ⟨_, _, rfl⟩

lemma uncount_eq (s : Queues) (so : Option ℕ) :
    ∃ soQueued soNqueued, s.uncount so = { s with soQueued, soNqueued } := by
  cases so with
  | none => exact ⟨_, _, rfl⟩
  | some so => exact ⟨_, _, rfl⟩

/-- `next_m` is the head of `if_batchq` only where that is empty. -/
lemma Sound.ifBatchq_eq_nil {s : Queues} (h : Sound s) (hnext : s.nextM = .ifBatchq) :
    s.ifBatchq = [] := by
  rcases h.nextM with ⟨hnil, -⟩ | ⟨ss, -, hss⟩
  · exact hnil
  · rw [hss] at hnext
    cases hnext

/-! ### The loop goes on -/

lemma enter_fast {s : Queues} (h : Sound s) {done later : List Session} {ss : Session}
    (hfast : s.ifFastq = done ++ ss :: later) (hdone : ∀ d ∈ done, d.so ∈ s.delayed) :
    ∃ s', s.enter (.mbuf ss.first) false = some s' ∧ Ok s' :=
  ⟨_, rfl, h.with_walk _ _ _, done, ss, later, hfast, rfl, hdone⟩

lemma enter_batch {s : Queues} (h : Sound s) {link : Link}
    (hfast : ∀ d ∈ s.ifFastq, d.so ∈ s.delayed)
    (hlink : link = .ifBatchq ∨ ∃ ss ∈ s.ifBatchq, link = .mbuf ss.first)
    (hnext : s.delayed = [] → s.nextM = link) :
    ∃ s', s.enter link true = some s' ∧ Ok s' := by
  rcases hlink with rfl | ⟨ss, hss, rfl⟩
  · refine ⟨_, rfl, h.with_walk _ _ _, ?_⟩
    intro hdelayed _
    have hfnil : s.ifFastq = [] := by
      refine List.eq_nil_iff_forall_not_mem.mpr fun d hd => ?_
      have := hfast d hd
      rw [hdelayed] at this
      cases this
    show packets s.ifFastq ++ packets s.ifBatchq = []
    rw [hfnil, h.ifBatchq_eq_nil (hnext hdelayed)]
    rfl
  · exact ⟨_, rfl, h.with_walk _ _ _, hfast, ⟨ss, hss, rfl⟩, hnext⟩

/-- What comes after a session on `if_fastq`: the next one, or `next_m`. -/
def nextOf (s : Queues) (behind : List Session) : Link × Bool :=
  if ifqNext false behind = .ifFastq then (s.nextM, true) else (ifqNext false behind, false)

/-- The loop goes on behind what is done on `if_fastq`, or with `next_m`. -/
lemma enter_next {s : Queues} (h : Sound s) {done later : List Session}
    (hfast : s.ifFastq = done ++ later) (hdone : ∀ d ∈ done, d.so ∈ s.delayed) :
    ∃ s', s.enter (nextOf s later).1 (nextOf s later).2 = some s' ∧ Ok s' := by
  cases later with
  | nil =>
    rw [List.append_nil] at hfast
    exact enter_batch h (hfast ▸ hdone) (h.nextM.imp And.right id) fun _ => rfl
  | cons ss later => exact enter_fast h hfast hdone

lemma ifStart_ok {s : Queues} (h : Sound s) : ∃ s', s.ifStart = some s' ∧ Ok s' := by
  have hs := h.with_walk s.walk [] false
  obtain ⟨ifFastq, _⟩ := s
  cases ifFastq with
  | nil => exact enter_batch hs (List.forall_mem_nil _) (h.nextM.imp And.right id) fun _ => rfl
  | cons ss later => exact @enter_fast _ hs [] _ _ rfl (List.forall_mem_nil _)

/-! ### A packet leaves -/

/-- What waits before the first packet of a session, and behind it. -/
lemma waiting_setQueue {s : Queues} {fromBatchq : Bool} {before behind : List Session} {ss : Session}
    (hq : s.queue fromBatchq = before ++ ss :: behind) :
    ∃ pre post, s.waiting = pre ++ ss.first :: post ∧
      (s.setQueue fromBatchq (before ++ (ss.remque ++ behind))).waiting = pre ++ post ∧
      ∀ p ∈ pre, p ∈ packets before ∨ fromBatchq = true ∧ p ∈ packets s.ifFastq := by
  cases fromBatchq with
  | false =>
    have hfast : s.ifFastq = before ++ ss :: behind := hq
    refine ⟨packets before, ss.rest ++ packets behind ++ packets s.ifBatchq, ?_, ?_, ?_⟩
    · simp [waiting, hfast, Session.packets]
    · simp [waiting, setQueue]
    · exact fun p hp => Or.inl hp
  | true =>
    have hbatch : s.ifBatchq = before ++ ss :: behind := hq
    refine ⟨packets s.ifFastq ++ packets before, ss.rest ++ packets behind, ?_, ?_, ?_⟩
    · simp [waiting, hbatch, Session.packets]
    · simp [waiting, setQueue]
    · intro p hp
      exact (List.mem_append.mp hp).elim (fun hp => Or.inr ⟨rfl, hp⟩) Or.inl

lemma map_so_remque {ss : Session} (h : ∀ p ∈ ss.packets, p.so = ss.so) :
    (ss.remque.map Session.so).Sublist [ss.so] := by
  obtain ⟨first, rest⟩ := ss
  cases rest with
  | nil => exact List.nil_sublist _
  | cons next rest =>
    have hso : next.so = first.so := h next (List.mem_cons_of_mem _ List.mem_cons_self)
    simp [Session.remque, Session.so, hso]

/-- `next_m` after the packet has left is on `if_batchq` again. -/
lemma nextM_of_ne {before behind : List Session} {ss : Session} {ifm : Mbuf} {link : Link}
    (hfirst : ss.first = ifm) (hlink : ∃ ss' ∈ before ++ ss :: behind, link = .mbuf ss'.first)
    (hne : link ≠ .mbuf ifm) : ∃ ss' ∈ before ++ (ss.remque ++ behind), link = .mbuf ss'.first := by
  obtain ⟨ss', hss', rfl⟩ := hlink
  refine ⟨ss', ?_, rfl⟩
  simp only [List.mem_append, List.mem_cons] at hss' ⊢
  rcases hss' with hss' | rfl | hss'
  · exact Or.inl hss'
  · exact absurd (congrArg Link.mbuf hfirst) hne
  · exact Or.inr (Or.inr hss')

/-- The last packet of the last session of `if_batchq`, with others before it, and `next_m` there. -/
def IsLast (s : Queues) (w : Walk) : Prop :=
  w.nextFromBatchq ∧ s.nextM = .mbuf w.ifmNext ∧
    s.ifBatchq.getLast? = some ⟨w.ifmNext, []⟩ ∧ 1 < s.ifBatchq.length

instance (s : Queues) (w : Walk) : Decidable (IsLast s w) := inferInstanceAs (Decidable (_ ∧ _))

/-- What is recorded of a packet that leaves: it is sent where none of its session is before it. -/
inductive Logged (s : Queues) (ifm : Mbuf) (pre : List Mbuf) : List Mbuf → List Mbuf → Prop
  | sent (h : ∀ p ∈ pre, p.so ≠ ifm.so) : Logged s ifm pre (s.sent ++ [ifm]) s.expired
  | expired : Logged s ifm pre s.sent (s.expired ++ [ifm])

lemma Logged.perm {s : Queues} {ifm : Mbuf} {pre post sent expired outputs : List Mbuf}
    (hlog : Logged s ifm pre sent expired)
    (h : (s.sent ++ s.expired ++ (pre ++ ifm :: post)).Perm outputs) :
    (sent ++ expired ++ (pre ++ post)).Perm outputs := by
  refine List.Perm.trans ?_ h
  cases hlog with
  | sent => 
    rw [List.perm_iff_count]
    intro p
    simp only [List.count_append, List.count_cons, List.count_nil]
    omega
  | expired =>
    rw [List.perm_iff_count]
    intro p
    simp only [List.count_append, List.count_cons, List.count_nil]
    omega

lemma Logged.inOrder {s : Queues} {ifm : Mbuf} {pre post sent expired : List Mbuf}
    (hlog : Logged s ifm pre sent expired)
    (h : (s.sent ++ (pre ++ ifm :: post)).Pairwise InOrder) :
    (sent ++ (pre ++ post)).Pairwise InOrder := by
  cases hlog with
  | sent hpre => exact inOrder_move h hpre
  | expired =>
    exact h.sublist
      ((List.Sublist.refl _).append ((List.Sublist.refl _).append (List.sublist_cons_self _ _)))

lemma Logged.mono {s : Queues} {ifm : Mbuf} {pre pre' sent expired : List Mbuf}
    (hlog : Logged s ifm pre sent expired) (hpre : ∀ p ∈ pre', p ∈ pre) :
    Logged s ifm pre' sent expired := by
  cases hlog with
  | sent h => exact .sent fun p hp => h p (hpre p hp)
  | expired => exact .expired

lemma Sound.nodup_waiting {s : Queues} (h : Sound s) : s.waiting.Nodup :=
  ((h.perm.nodup_iff.mpr h.nodup).sublist (List.sublist_append_right _ _))

/-- `next_m` is not on `if_fastq`. -/
lemma Sound.nextM_ne {s : Queues} (h : Sound s) {ss : Session} (hss : ss ∈ s.ifFastq) :
    s.nextM ≠ .mbuf ss.first := by
  rcases h.nextM with ⟨-, hnext⟩ | ⟨ss', hss', hnext⟩
  · rw [hnext]
    exact Link.noConfusion
  · rw [hnext]
    intro heq
    have hmem : ∀ (q : List Session) (t : Session), t ∈ q → t.first ∈ packets q :=
      fun q t ht => List.mem_flatMap.mpr ⟨t, ht, List.mem_cons_self⟩
    have hdisj := List.disjoint_of_nodup_append h.nodup_waiting
    exact hdisj (hmem _ _ hss) (Link.mbuf.inj heq ▸ hmem _ _ hss')

lemma leave_fast {s : Queues} (h : Sound s) {before behind : List Session} {ss : Session}
    {sent expired : List Mbuf} (hfast : s.ifFastq = before ++ ss :: behind)
    (hbefore : ∀ d ∈ before, d.so ∈ s.delayed)
    (hlog : Logged s ss.first (packets before) sent expired) :
    ∃ s', { s with sent, expired }.leave ss.first false (before, ss, behind) (nextOf s behind) =
      some s' ∧ Ok s' := by
  have hss : ss ∈ s.ifFastq := hfast ▸ List.mem_append_right _ List.mem_cons_self
  have hne := h.nextM_ne hss
  obtain ⟨soQueued, soNqueued, hcount⟩ := uncount_eq { s with sent, expired } ss.first.so
  have huniform := h.uniformFast
  have hperm := h.perm
  have horder := h.order
  simp only [waiting, hfast, packets_append, packets_cons, Session.packets, List.append_assoc,
    List.cons_append] at hperm horder
  rw [hfast] at huniform
  have hsound : Sound { s with
      sent, expired, soQueued, soNqueued, ifFastq := before ++ (ss.remque ++ behind) } := by
    refine ⟨?_, h.nodup, h.serial_lt, ?_, ?_, h.uniformBatch, h.distinct, h.nextM⟩
    · have := hlog.perm (by simpa using hperm)
      simpa [waiting] using this
    · have := hlog.inOrder horder
      simpa [waiting] using this
    · intro ss' hss'
      simp only [List.mem_append] at hss'
      rcases hss' with hss' | hss' | hss'
      · exact huniform ss' (by simp [hss'])
      · exact uniform_remque (huniform ss (by simp)) ss' hss'
      · exact huniform ss' (by simp [hss'])
  simp only [leave, hcount, if_neg hne]
  obtain ⟨first, rest⟩ := ss
  cases rest with
  | nil => exact @enter_next _ hsound before _ rfl hbefore
  | cons ifs rest => exact @enter_fast _ hsound _ _ ⟨ifs, rest⟩ rfl hbefore

lemma Sound.leave_batch {s : Queues} (h : Sound s) {before behind : List Session} {ss : Session}
    {sent expired : List Mbuf} (hbatch : s.ifBatchq = before ++ ss :: behind)
    (hlog : Logged s ss.first (packets s.ifFastq ++ packets before) sent expired)
    (soQueued soNqueued : ℕ → ℤ) {nextM : Link}
    (hnext : (before ++ (ss.remque ++ behind) = [] ∧ nextM = .ifBatchq) ∨
      ∃ ss' ∈ before ++ (ss.remque ++ behind), nextM = .mbuf ss'.first) :
    Sound { s with
      sent, expired, soQueued, soNqueued, nextM, ifBatchq := before ++ (ss.remque ++ behind) } := by
  have huniform := h.uniformBatch
  have hperm := h.perm
  have horder := h.order
  have hdistinct := h.distinct
  simp only [waiting, hbatch, packets_append, packets_cons, Session.packets,
    List.cons_append] at hperm horder
  rw [hbatch] at huniform
  rw [hbatch, List.map_append, List.map_cons] at hdistinct
  have hss := huniform ss (by simp)
  refine ⟨?_, h.nodup, h.serial_lt, ?_, h.uniformFast, ?_, ?_, hnext⟩
  · have := hlog.perm (by simpa using hperm)
    simpa [waiting] using this
  · have := hlog.inOrder (by simpa using horder)
    simpa [waiting] using this
  · intro ss' hss'
    simp only [List.mem_append] at hss'
    rcases hss' with hss' | hss' | hss'
    · exact huniform ss' (by simp [hss'])
    · exact uniform_remque hss ss' hss'
    · exact huniform ss' (by simp [hss'])
  · rw [List.map_append, List.map_append]
    refine hdistinct.sublist ((List.Sublist.refl _).append ?_)
    exact (map_so_remque hss).append (List.Sublist.refl _)

lemma leave_batch {s : Queues} (h : Sound s) {before behind : List Session} {ss : Session}
    {sent expired : List Mbuf} (hbatch : s.ifBatchq = before ++ ss :: behind)
    (hfast : ∀ d ∈ s.ifFastq, d.so ∈ s.delayed)
    (hgo : s.delayed = [] → s.nextM = .mbuf ss.first) (hlast : ¬IsLast s ⟨ss.first, true⟩)
    (hlog : Logged s ss.first (packets s.ifFastq ++ packets before) sent expired) :
    ∃ s', { s with sent, expired }.leave ss.first true (before, ss, behind)
      (ifqNext true behind, true) = some s' ∧ Ok s' := by
  obtain ⟨soQueued, soNqueued, hcount⟩ := uncount_eq { s with sent, expired } ss.first.so
  have hsound := fun nextM => @Sound.leave_batch _ h _ _ _ _ _ hbatch hlog soQueued soNqueued nextM
  have hlink : ifqNext true behind = .ifBatchq ∨
      ∃ ss' ∈ before ++ (ss.remque ++ behind), ifqNext true behind = .mbuf ss'.first := by
    cases behind with
    | nil => exact Or.inl rfl
    | cons ss' behind => exact Or.inr ⟨ss', by simp, rfl⟩
  have hgone : (if s.nextM = .mbuf ss.first then ifqNext true behind else s.nextM) = .ifBatchq →
      behind = [] ∧ s.nextM = .mbuf ss.first := by
    split_ifs with hnext
    · cases behind with
      | nil => exact fun _ => ⟨rfl, hnext⟩
      | cons ss' behind => exact fun hlink => nomatch hlink
    · intro hhead
      have hnil := h.ifBatchq_eq_nil hhead
      rw [hbatch] at hnil
      simp at hnil
  have hkeep : (if s.nextM = .mbuf ss.first then ifqNext true behind else s.nextM) ≠ .ifBatchq →
      ∃ ss' ∈ before ++ (ss.remque ++ behind),
        (if s.nextM = .mbuf ss.first then ifqNext true behind else s.nextM) = .mbuf ss'.first := by
    split_ifs with hnext
    · exact fun hne => hlink.resolve_left hne
    · intro hne
      exact nextM_of_ne rfl (hbatch ▸ h.nextM.resolve_left fun hhead => hne hhead.2) hnext
  have hgoes : s.delayed = [] →
      (if s.nextM = .mbuf ss.first then ifqNext true behind else s.nextM) = ifqNext true behind :=
    fun hdelayed => if_pos (hgo hdelayed)
  simp only [leave, hcount]
  generalize (if s.nextM = .mbuf ss.first then ifqNext true behind else s.nextM) = nextM at *
  obtain ⟨first, rest⟩ := ss
  cases rest with
  | nil =>
    refine enter_batch (hsound nextM ?_) hfast hlink hgoes
    by_cases hhead : nextM = .ifBatchq
    · obtain ⟨rfl, hnext⟩ := hgone hhead
      refine Or.inl ⟨?_, hhead⟩
      by_contra hne
      apply hlast
      have hbefore : before ≠ [] := by simpa [Session.remque] using hne
      refine ⟨rfl, hnext, by simp [hbatch], ?_⟩
      rw [hbatch, List.length_append, List.length_singleton]
      have := List.length_pos_iff.mpr hbefore
      omega
    · exact Or.inr (hkeep hhead)
  | cons ifs rest =>
    by_cases hhead : nextM = .ifBatchq
    · simp only [hhead, not_true_eq_false, if_false, if_true]
      have hmem : (⟨ifs, rest⟩ : Session) ∈
          before ++ (Session.remque ⟨first, ifs :: rest⟩ ++ behind) := by
        simp [Session.remque]
      exact enter_batch (hsound (.mbuf ifs) (Or.inr ⟨_, hmem, rfl⟩)) hfast
        (Or.inr ⟨_, hmem, rfl⟩) fun _ => rfl
    · simp only [hhead, not_true_eq_false, if_false]
      exact enter_batch (hsound nextM (Or.inr (hkeep hhead))) hfast hlink hgoes

/-! ### A turn of the loop -/

/-- The link does not send a packet of a session that it has delayed in this call, and the last
packet of the last session is not taken from `if_batchq` while there are others. -/
def Steady (s : Queues) (w : Walk) (a : Attempt) : Prop :=
  (a = .sent → w.ifmNext.so ∉ s.delayed) ∧ (a ≠ .delayed → ¬IsLast s w)

instance (s : Queues) (w : Walk) (a : Attempt) : Decidable (Steady s w a) :=
  inferInstanceAs (Decidable (_ ∧ _))

/-- The packets before the one that is sent are of other sessions. -/
lemma ne_of_delayed {s : Queues} {q : List Session} (hq : Uniform q)
    (hdelayed : ∀ d ∈ q, d.so ∈ s.delayed) {so : Option ℕ} (hso : so ∉ s.delayed) :
    ∀ p ∈ packets q, p.so ≠ so := by
  intro p hp heq
  obtain ⟨ss, hss, hpso⟩ := hq.exists_session hp
  exact hso (heq ▸ hpso ▸ hdelayed ss hss)

lemma turn_fast {s : Queues} (h : Sound s) {a : Attempt} {before behind : List Session}
    {ss : Session} (hfast : s.ifFastq = before ++ ss :: behind)
    (hbefore : ∀ d ∈ before, d.so ∈ s.delayed) (hok : Steady s ⟨ss.first, false⟩ a) :
    ∃ s', s.turn ⟨ss.first, false⟩ (before, ss, behind) a = some s' ∧ Ok s' := by
  cases a with
  | delayed =>
    have hs := h.with_walk s.walk (s.delayed ++ [ss.so]) s.refused
    refine @enter_next _ hs (before ++ [ss]) _ (by simp [hfast]) ?_
    intro d hd
    rw [List.mem_append, List.mem_singleton] at hd ⊢
    rcases hd with hd | rfl
    · exact Or.inl (hbefore d hd)
    · exact Or.inr rfl
  | sent =>
    refine leave_fast h hfast hbefore (.sent ?_)
    exact ne_of_delayed (fun d hd => h.uniformFast d (by simp [hfast, hd])) hbefore (hok.1 rfl)
  | expired => exact leave_fast h hfast hbefore .expired

lemma turn_batch {s : Queues} (h : Sound s) {a : Attempt} {before behind : List Session}
    {ss : Session} (hbatch : s.ifBatchq = before ++ ss :: behind)
    (hfast : ∀ d ∈ s.ifFastq, d.so ∈ s.delayed)
    (hgo : s.delayed = [] → s.nextM = .mbuf ss.first) (hok : Steady s ⟨ss.first, true⟩ a) :
    ∃ s', s.turn ⟨ss.first, true⟩ (before, ss, behind) a = some s' ∧ Ok s' := by
  have hlink : ifqNext true behind ≠ .ifFastq := by
    cases behind with
    | nil => exact Link.noConfusion
    | cons ss' behind => exact Link.noConfusion
  cases a with
  | delayed =>
    have hs := h.with_walk s.walk (s.delayed ++ [ss.so]) s.refused
    simp only [turn, if_neg hlink]
    refine enter_batch hs (fun d hd => List.mem_append_left _ (hfast d hd)) ?_ ?_
    · cases behind with
      | nil => exact Or.inl rfl
      | cons ss' behind => exact Or.inr ⟨ss', by simp [hbatch], rfl⟩
    · intro hnil
      simp at hnil
  | sent =>
    simp only [turn, if_neg hlink]
    refine leave_batch h hbatch hfast hgo (hok.2 Attempt.noConfusion) (.sent fun p hp => ?_)
    rcases List.mem_append.mp hp with hp | hp
    · exact ne_of_delayed h.uniformFast hfast (hok.1 rfl) p hp
    · have hdistinct := h.distinct
      rw [hbatch, List.map_append, List.map_cons] at hdistinct
      obtain ⟨d, hd, hpso⟩ :=
        Uniform.exists_session (fun d hd => h.uniformBatch d (by simp [hbatch, hd])) hp
      rw [hpso]
      exact fun heq => (List.disjoint_of_nodup_append hdistinct) (List.mem_map_of_mem hd)
        (heq ▸ List.mem_cons_self)
  | expired =>
    simp only [turn, if_neg hlink]
    exact leave_batch h hbatch hfast hgo (hok.2 Attempt.noConfusion) .expired

lemma attempt_ok {s : Queues} (h : Ok s) {w : Walk} (hwalk : s.walk = some w) {a : Attempt}
    (hok : Steady s w a) : ∃ s', s.attempt a = some s' ∧ Ok s' := by
  obtain ⟨ifm, fromBatchq⟩ := w
  have hw := h.2
  rw [WalkOk, hwalk] at hw
  cases fromBatchq with
  | false =>
    obtain ⟨done, ss, later, hfast, rfl, hdone⟩ := hw
    obtain ⟨⟨before, ss', behind⟩, hloc, hbefore⟩ := exists_locate done ss later
    rw [← hfast] at hloc
    have hattempt : s.attempt a = s.turn ⟨ss.first, false⟩ (before, ss', behind) a := by
      rw [attempt, hwalk, Option.bind_some]
      show (locate ss.first s.ifFastq).bind _ = _
      rw [hloc, Option.bind_some]
    obtain ⟨hfast', hfirst⟩ := locate_eq hloc
    rw [← hfirst] at hattempt hok
    rw [hattempt]
    exact turn_fast h.1 hfast' (fun d hd => hdone d (hbefore d hd)) hok
  | true =>
    obtain ⟨hfast, ⟨ss, hss, rfl⟩, hgo⟩ := hw
    obtain ⟨done, later, hbatch⟩ := List.append_of_mem hss
    obtain ⟨⟨before, ss', behind⟩, hloc, -⟩ := exists_locate done ss later
    rw [← hbatch] at hloc
    have hattempt : s.attempt a = s.turn ⟨ss.first, true⟩ (before, ss', behind) a := by
      rw [attempt, hwalk, Option.bind_some]
      show (locate ss.first s.ifBatchq).bind _ = _
      rw [hloc, Option.bind_some]
    obtain ⟨hbatch', hfirst⟩ := locate_eq hloc
    rw [← hfirst] at hattempt hok hgo
    rw [hattempt]
    exact turn_batch h.1 hbatch' hfast hgo hok

/-! ### A packet is queued -/

/-- The packet that the next `if_output()` call queues. -/
def newMbuf (s : Queues) (so : Option ℕ) : Mbuf := ⟨s.outputs.length, so⟩

lemma Sound.serial_lt_new {s : Queues} (h : Sound s) {so : Option ℕ} {p : Mbuf}
    (hp : p ∈ s.sent ∨ p ∈ s.waiting) : p.serial < (newMbuf s so).serial := by
  refine h.serial_lt p (h.perm.mem_iff.mp ?_)
  simp only [List.mem_append]
  tauto

/-- The new packet goes behind all packets of its session. -/
lemma Sound.order_insert {s : Queues} (h : Sound s) {so : Option ℕ} {a b : List Mbuf}
    (hwait : s.waiting = a ++ b) (hb : ∀ q ∈ b, q.so ≠ so) :
    (s.sent ++ (a ++ newMbuf s so :: b)).Pairwise InOrder := by
  have horder := h.order
  rw [hwait, ← List.append_assoc] at horder
  rw [← List.append_assoc]
  refine inOrder_insert horder (fun q hq => h.serial_lt_new ?_) hb
  rw [hwait, List.mem_append]
  exact (List.mem_append.mp hq).imp_right Or.inl

/-- A packet is on the queues, in order, in addition to what waits. -/
lemma Sound.queued {s s' : Queues} (h : Sound s) {so : Option ℕ} (hsent : s'.sent = s.sent)
    (hexpired : s'.expired = s.expired) (hwait : s'.waiting.Perm (newMbuf s so :: s.waiting))
    (horder : (s.sent ++ s'.waiting).Pairwise InOrder) (hfast : Uniform s'.ifFastq)
    (hbatch : Uniform s'.ifBatchq) (hdistinct : (s'.ifBatchq.map Session.so).Nodup)
    (hnext : (s'.ifBatchq = [] ∧ s'.nextM = .ifBatchq) ∨
      ∃ ss ∈ s'.ifBatchq, s'.nextM = .mbuf ss.first) :
    Sound { s' with outputs := s.outputs ++ [newMbuf s so] } := by
  have hnew : newMbuf s so ∉ s.outputs := fun hmem => absurd (h.serial_lt _ hmem) (lt_irrefl _)
  refine ⟨?_, ?_, ?_, ?_, hfast, hbatch, hdistinct, hnext⟩
  · show (s'.sent ++ s'.expired ++ s'.waiting).Perm _
    rw [hsent, hexpired]
    calc (s.sent ++ s.expired ++ s'.waiting).Perm _ := hwait.append_left _
      _ |>.Perm _ := List.perm_middle
      _ |>.Perm _ := (h.perm.cons _)
      _ |>.Perm _ := (List.perm_append_singleton _ _).symm
  · exact List.nodup_append_comm.mp (List.nodup_cons.mpr ⟨hnew, h.nodup⟩)
  · intro p hp
    rw [List.length_append, List.length_singleton]
    rcases List.mem_append.mp hp with hp | hp
    · exact Nat.lt_succ_of_lt (h.serial_lt p hp)
    · rw [List.mem_singleton.mp hp]
      exact Nat.lt_succ_self _
  · show (s'.sent ++ s'.waiting).Pairwise InOrder
    rw [hsent]
    exact horder

lemma uniform_insque {ss : Session} (h : ∀ p ∈ ss.packets, p.so = ss.so) {ifm : Mbuf}
    (hso : ifm.so = ss.so) : ∀ p ∈ (ss.insque ifm).packets, p.so = (ss.insque ifm).so := by
  intro p hp
  rw [insque_packets, List.mem_append, List.mem_singleton] at hp
  rcases hp with hp | rfl
  · exact h p hp
  · exact hso

/-- The session is on `if_batchq`: its list grows, and may be moved to the front. -/
lemma insque_match {s : Queues} (h : Sound s) {so : Option ℕ} {before behind : List Session}
    {ifq : Session} (hlast : lastOf so s.ifBatchq = some (before, ifq, behind)) {q : List Session}
    (hq : q = ifq.insque (newMbuf s so) :: (before ++ behind) ∨
      q = before ++ ifq.insque (newMbuf s so) :: behind) (soQueued soNqueued : ℕ → ℤ) :
    Sound { s with
      ifBatchq := q, soQueued, soNqueued, outputs := s.outputs ++ [newMbuf s so] } := by
  obtain ⟨hbatch, hso⟩ := lastOf_eq hlast
  have huniform := h.uniformBatch
  have hdistinct := h.distinct
  rw [hbatch] at huniform
  rw [hbatch, List.map_append, List.map_cons] at hdistinct
  have hne : ∀ d ∈ before ++ behind, d.so ≠ so := by
    intro d hd heq
    have hnot := (List.nodup_middle.mp hdistinct)
    rw [List.nodup_cons, ← List.map_append] at hnot
    exact hnot.1 (List.mem_map.mpr ⟨d, hd, heq.trans hso.symm⟩)
  have hpackets : ∀ q ⊆ before ++ behind, ∀ p ∈ packets q, p.so ≠ so := by
    intro q hsub p hp
    have hq : Uniform q := fun d hd => huniform d (by
      rcases List.mem_append.mp (hsub hd) with hd | hd
      · exact List.mem_append_left _ hd
      · exact List.mem_append_right _ (List.mem_cons_of_mem _ hd))
    obtain ⟨d, hd, hpso⟩ := hq.exists_session hp
    exact hpso ▸ hne d (hsub hd)
  have hwait : s.waiting =
      packets s.ifFastq ++ packets before ++ ifq.packets ++ packets behind := by
    simp [waiting, hbatch]
  have horder := h.order_insert hwait (hpackets behind (List.subset_append_right _ _))
  have hmem : ∀ d ∈ q, d = ifq.insque (newMbuf s so) ∨ d ∈ before ++ behind := by
    rcases hq with rfl | rfl
    · exact fun d hd => List.mem_cons.mp hd
    · intro d hd
      simp only [List.mem_append, List.mem_cons] at hd ⊢
      tauto
  have hperm : q.Perm (ifq.insque (newMbuf s so) :: (before ++ behind)) := by
    rcases hq with rfl | rfl
    · exact List.Perm.refl _
    · exact List.perm_middle
  refine @Sound.queued s { s with ifBatchq := q, soQueued, soNqueued } h _ rfl rfl ?_ ?_
    h.uniformFast ?_ ?_ ?_
  · have hqw : (packets q).Perm (newMbuf s so :: packets s.ifBatchq) := by
      refine (hperm.flatMap_right _).trans ?_
      rw [hbatch]
      simp only [packets, List.flatMap_cons, List.flatMap_append, insque_packets]
      rw [List.perm_iff_count]
      intro p
      simp only [List.count_append, List.count_cons, List.count_nil]
      omega
    exact (hqw.append_left _).trans List.perm_middle
  · rcases hq with rfl | rfl
    · have hswap := inOrder_swap (a := s.sent ++ packets s.ifFastq) (b := packets before)
        (c := ifq.packets ++ [newMbuf s so]) (d := packets behind) (by simpa using horder) ?_
      · simpa [waiting] using hswap
      · intro p hp p' hp'
        have hp'so : p'.so = so := by
          rcases List.mem_append.mp hp' with hp' | hp'
          · rw [huniform ifq (by simp) p' hp', hso]
          · rw [List.mem_singleton.mp hp']
            rfl
        rw [hp'so]
        exact hpackets before (List.subset_append_left _ _) p hp
    · simpa [waiting] using horder
  · intro d hd
    rcases hmem d hd with rfl | hd
    · exact uniform_insque (huniform ifq (by simp)) hso.symm
    · rcases List.mem_append.mp hd with hd | hd
      · exact huniform d (List.mem_append_left _ hd)
      · exact huniform d (List.mem_append_right _ (List.mem_cons_of_mem _ hd))
  · refine ((hperm.map Session.so).nodup_iff).mpr ?_
    rw [List.map_cons, List.map_append, insque_so]
    exact List.nodup_middle.mp hdistinct
  · right
    rcases h.nextM with ⟨hnil, -⟩ | ⟨d, hd, hnext⟩
    · rw [hnil] at hbatch
      simp at hbatch
    · rw [hbatch] at hd
      simp only [List.mem_append, List.mem_cons] at hd
      rcases hd with hd | rfl | hd
      · exact ⟨d, hperm.mem_iff.mpr (by simp [hd]), hnext⟩
      · exact ⟨d.insque (newMbuf s so), hperm.mem_iff.mpr (by simp), hnext⟩
      · exact ⟨d, hperm.mem_iff.mpr (by simp [hd]), hnext⟩

lemma nodup_cons_so {s : Queues} (h : Sound s) {so : Option ℕ}
    (hnone : lastOf so s.ifBatchq = none) {ss : Session} (hso : ss.so = so) :
    ((ss :: s.ifBatchq).map Session.so).Nodup := by
  rw [List.map_cons, List.nodup_cons]
  refine ⟨fun hmem => ?_, h.distinct⟩
  obtain ⟨d, hd, hdso⟩ := List.mem_map.mp hmem
  exact lastOf_eq_none hnone d hd (hdso.trans hso)

lemma so_ne_of_lastOf {s : Queues} (h : Sound s) {so : Option ℕ}
    (hnone : lastOf so s.ifBatchq = none) : ∀ p ∈ packets s.ifBatchq, p.so ≠ so := by
  intro p hp
  obtain ⟨d, hd, hpso⟩ := h.uniformBatch.exists_session hp
  exact hpso ▸ lastOf_eq_none hnone d hd

/-- The session is the last one on `if_fastq`, and may be downgraded to the front of `if_batchq`. -/
lemma insque_fast {s : Queues} (h : Sound s) {so : Option ℕ}
    (hnone : lastOf so s.ifBatchq = none) {before : List Session} {ss : Session}
    (hpackets : packets before ++ ss.packets = packets s.ifFastq ++ [newMbuf s so])
    (huniform : Uniform (before ++ [ss])) (hso : ss.so = so) {fast batch : List Session}
    (hq : fast = before ++ [ss] ∧ batch = s.ifBatchq ∨
      fast = before ∧ batch = ss :: s.ifBatchq ∧ s.ifBatchq ≠ []) (soQueued soNqueued : ℕ → ℤ) :
    Sound { s with
      ifFastq := fast, ifBatchq := batch, soQueued, soNqueued
      outputs := s.outputs ++ [newMbuf s so] } := by
  have hwait : packets fast ++ packets batch =
      packets s.ifFastq ++ newMbuf s so :: packets s.ifBatchq := by
    have hall : packets fast ++ packets batch = packets before ++ ss.packets ++ packets s.ifBatchq := by
      rcases hq with ⟨rfl, rfl⟩ | ⟨rfl, rfl, -⟩
      · simp
      · simp
    rw [hall, hpackets]
    simp
  have horder := @Sound.order_insert _ h so (packets s.ifFastq) _ rfl (so_ne_of_lastOf h hnone)
  refine @Sound.queued s { s with ifFastq := fast, ifBatchq := batch, soQueued, soNqueued } h _
    rfl rfl ?_ ?_ ?_ ?_ ?_ ?_
  · show (packets fast ++ packets batch).Perm _
    rw [hwait]
    exact List.perm_middle
  · show (s.sent ++ (packets fast ++ packets batch)).Pairwise InOrder
    rw [hwait]
    exact horder
  · rcases hq with ⟨rfl, -⟩ | ⟨rfl, -⟩
    · exact huniform
    · exact fun d hd => huniform d (List.mem_append_left _ hd)
  · rcases hq with ⟨-, rfl⟩ | ⟨-, rfl, -⟩
    · exact h.uniformBatch
    · exact List.forall_mem_cons.mpr ⟨huniform ss (by simp), h.uniformBatch⟩
  · rcases hq with ⟨-, rfl⟩ | ⟨-, rfl, -⟩
    · exact h.distinct
    · exact nodup_cons_so h hnone hso
  · rcases hq with ⟨-, rfl⟩ | ⟨-, rfl, hne⟩
    · exact h.nextM
    · obtain ⟨d, hd, hnext⟩ := h.nextM.resolve_left fun hhead => hne hhead.1
      exact Or.inr ⟨d, List.mem_cons_of_mem _ hd, hnext⟩

/-- The session gets a list of its own on `if_batchq`, at its end or at its front. -/
lemma insque_batch {s : Queues} (h : Sound s) {so : Option ℕ}
    (hnone : lastOf so s.ifBatchq = none) {q : List Session}
    (hq : q = ⟨newMbuf s so, []⟩ :: s.ifBatchq ∨ q = s.ifBatchq ++ [⟨newMbuf s so, []⟩])
    (soQueued soNqueued : ℕ → ℤ) :
    Sound { s with
      ifBatchq := q, soQueued, soNqueued
      nextM := if s.nextM = .ifBatchq then .mbuf (newMbuf s so) else s.nextM
      outputs := s.outputs ++ [newMbuf s so] } := by
  have hperm : q.Perm (⟨newMbuf s so, []⟩ :: s.ifBatchq) := by
    rcases hq with rfl | rfl
    · exact List.Perm.refl _
    · exact List.perm_append_singleton _ _
  have hmem : ∀ d, d ∈ q ↔ d = ⟨newMbuf s so, []⟩ ∨ d ∈ s.ifBatchq := fun d =>
    hperm.mem_iff.trans List.mem_cons
  refine @Sound.queued s { s with
      ifBatchq := q, soQueued, soNqueued
      nextM := if s.nextM = .ifBatchq then .mbuf (newMbuf s so) else s.nextM } h _ rfl rfl
    ?_ ?_ h.uniformFast ?_ ?_ ?_
  · exact ((hperm.flatMap_right _).append_left _).trans List.perm_middle
  · rcases hq with rfl | rfl
    · exact h.order_insert (a := packets s.ifFastq) rfl (so_ne_of_lastOf h hnone)
    · have horder := @Sound.order_insert _ h so _ [] (List.append_nil _).symm
        (List.forall_mem_nil _)
      simpa [waiting, Session.packets] using horder
  · intro d hd
    rcases (hmem d).mp hd with rfl | hd
    · intro p hp
      rw [List.mem_singleton.mp hp]
      rfl
    · exact h.uniformBatch d hd
  · exact ((hperm.map Session.so).nodup_iff).mpr (nodup_cons_so h hnone rfl)
  · right
    show ∃ ss ∈ q, (if s.nextM = .ifBatchq then _ else s.nextM) = Link.mbuf ss.first
    split_ifs with hhead
    · exact ⟨⟨newMbuf s so, []⟩, (hmem _).mpr (Or.inl rfl), rfl⟩
    · obtain ⟨d, hd, hnext⟩ := h.nextM.resolve_left fun hnil => hhead hnil.2
      exact ⟨d, (hmem d).mpr (Or.inr hd), hnext⟩

/-- An interactive session is downgraded while nothing is on `if_batchq`. -/
def DowngradesFirst (s : Queues) (so : Option ℕ) (lowDelay : Bool) : Prop :=
  lowDelay ∧ (s.count so).Greedy so ∧ s.ifBatchq = []

instance (s : Queues) (so : Option ℕ) (lowDelay : Bool) : Decidable (DowngradesFirst s so lowDelay) :=
  inferInstanceAs (Decidable (_ ∧ _))

lemma placeFast_spec {fastq : List Session} (h : Uniform fastq) (ifm : Mbuf) {before : List Session}
    {ss : Session} (hplace : placeFast fastq ifm = (before, ss)) :
    packets before ++ ss.packets = packets fastq ++ [ifm] ∧ Uniform (before ++ [ss]) ∧
      ss.so = ifm.so := by
  have hnew : ∀ p ∈ Session.packets ⟨ifm, []⟩, p.so = Session.so ⟨ifm, []⟩ := by
    intro p hp
    rw [List.mem_singleton.mp hp]
    rfl
  rw [placeFast] at hplace
  cases hlast : fastq.getLast? with
  | none =>
    obtain rfl := List.getLast?_eq_none_iff.mp hlast
    obtain ⟨rfl, rfl⟩ := Prod.mk.inj hplace
    exact ⟨rfl, List.forall_mem_singleton.mpr hnew, rfl⟩
  | some ifq =>
    obtain ⟨init, rfl⟩ := List.getLast?_eq_some_iff.mp hlast
    rw [hlast] at hplace
    dsimp only at hplace
    split_ifs at hplace with hso
    · obtain ⟨rfl, rfl⟩ := Prod.mk.inj hplace
      rw [List.dropLast_concat]
      refine ⟨by simp, ?_, hso⟩
      intro d hd
      rcases List.mem_append.mp hd with hd | hd
      · exact h d (List.mem_append_left _ hd)
      · rw [List.mem_singleton.mp hd]
        exact uniform_insque (h ifq (by simp)) hso.symm
    · obtain ⟨rfl, rfl⟩ := Prod.mk.inj hplace
      refine ⟨rfl, ?_, rfl⟩
      intro d hd
      rcases List.mem_append.mp hd with hd | hd
      · exact h d hd
      · rw [List.mem_singleton.mp hd]
        exact hnew

lemma sound_insque {s : Queues} (h : Sound s) {so : Option ℕ} {lowDelay : Bool}
    (hok : ¬DowngradesFirst s so lowDelay) :
    Sound { s.insque (newMbuf s so) lowDelay with outputs := s.outputs ++ [newMbuf s so] } := by
  obtain ⟨soQueued, soNqueued, hcount⟩ := count_eq s so
  rw [DowngradesFirst, hcount] at hok
  have hso : (newMbuf s so).so = so := rfl
  rw [Queues.insque, hso]
  cases hlast : lastOf so s.ifBatchq with
  | some r =>
    obtain ⟨before, ifq, behind⟩ := r
    simp only [hcount]
    split_ifs with hgreedy
    · exact insque_match h hlast (Or.inl rfl) soQueued soNqueued
    · exact insque_match h hlast (Or.inr rfl) soQueued soNqueued
  | none =>
    simp only [hcount]
    by_cases hlow : so.isSome = true ∧ lowDelay = true
    · cases hplace : placeFast s.ifFastq (newMbuf s so) with
      | mk before ss =>
        obtain ⟨hpackets, huniform, hssso⟩ := placeFast_spec h.uniformFast _ hplace
        simp only [if_pos hlow]
        split_ifs with hgreedy
        · exact insque_fast h hlast hpackets huniform hssso
            (Or.inr ⟨rfl, rfl, fun hnil => hok ⟨hlow.2, hgreedy, hnil⟩⟩) soQueued soNqueued
        · exact insque_fast h hlast hpackets huniform hssso (Or.inl ⟨rfl, rfl⟩) soQueued soNqueued
    · have hfront := insque_batch h hlast (Or.inl rfl) soQueued soNqueued
      have hback := insque_batch h hlast (Or.inr rfl) soQueued soNqueued
      rw [if_neg hlow]
      generalize (if s.nextM = .ifBatchq then Link.mbuf (newMbuf s so) else s.nextM) = nextM at *
      split_ifs with hgreedy
      · exact hfront
      · exact hback

/-! ### Runs -/

/-- A call is made while the loop is not running, and a packet of it is taken while it is. No
interactive session is downgraded before there is a session on `if_batchq`. -/
def Keeps (s : Queues) : Action → Prop
  | .output so lowDelay => s.walk = none ∧ ¬DowngradesFirst s so lowDelay
  | .start => s.walk = none
  | .refuse => s.walk ≠ none
  | .attempt a => s.walk.elim False fun w => Steady s w a

instance (s : Queues) : (a : Action) → Decidable (Keeps s a)
  | .output _ _ => inferInstanceAs (Decidable (_ ∧ _))
  | .start => inferInstanceAs (Decidable (_ = _))
  | .refuse => inferInstanceAs (Decidable (_ ≠ _))
  | .attempt a =>
    match h : s.walk with
    | none => .isFalse (by simp [Keeps, h])
    | some w => decidable_of_iff (Steady s w a) (by simp [Keeps, h])

/-- Everything that was queued is sent, expired or waiting, and one of these once; what was sent is
in order; `next_m` is on `if_batchq`; and a call of `if_start()` that the link took everything of
leaves nothing. -/
def Lossless (s : Queues) : Prop :=
  ((s.sent ++ s.expired ++ s.waiting).Perm s.outputs ∧ s.outputs.Nodup) ∧
    s.sent.Pairwise InOrder ∧
    (s.nextM = .ifBatchq ∨ ∃ ss ∈ s.ifBatchq, s.nextM = .mbuf ss.first) ∧
    (s.walk = none → s.delayed = [] → s.refused = false → s.waiting = [])

lemma Ok.lossless {s : Queues} (h : Ok s) : Lossless s := by
  refine ⟨⟨h.1.perm, h.1.nodup⟩, ?_, h.1.nextM.imp And.right id, ?_⟩
  · exact h.1.order.sublist (List.sublist_append_left _ _)
  · intro hwalk
    have hw := h.2
    rw [WalkOk, hwalk] at hw
    exact hw

lemma step_ok {s : Queues} {a : Action} (h : Ok s) (hok : Keeps s a) :
    ∃ s', step s a = some s' ∧ Ok s' := by
  cases a with
  | output so lowDelay => exact ifStart_ok (sound_insque h.1 hok.2)
  | start => exact ifStart_ok h.1
  | refuse =>
    refine ⟨_, rfl, h.1.with_walk _ _ _, ?_⟩
    exact fun _ hrefused => nomatch hrefused
  | attempt a =>
    cases hwalk : s.walk with
    | none =>
      rw [Keeps, hwalk] at hok
      exact hok.elim
    | some w =>
      rw [Keeps, hwalk] at hok
      exact attempt_ok h hwalk hok

lemma ok_ifInit : Ok ifInit := by
  refine ⟨⟨List.Perm.refl _, List.nodup_nil, List.forall_mem_nil _, List.Pairwise.nil,
    List.forall_mem_nil _, List.forall_mem_nil _, List.nodup_nil, Or.inl ⟨rfl, rfl⟩⟩, ?_⟩
  exact fun _ _ => rfl

/-- No stale pointer is followed, and the queues lose nothing. -/
theorem queues_lossless (as : List Action) (hok : Guarded step Keeps ifInit as) :
    ∃ s, run step ifInit as = some s ∧ Lossless s := by
  obtain ⟨s, hs, hstate⟩ := run_returns_of_guarded (fun _ _ => step_ok) ok_ifInit hok
  exact ⟨s, hs, hstate.lossless⟩

/-- Two sessions queue while the link refuses, one of them an interactive one; a packet is delayed,
one expires, and then the link takes everything. -/
theorem queues_lossless_two :
    ∃ s, run step ifInit [.output (some 1) false, .refuse, .output (some 2) true, .refuse,
      .output (some 1) false, .attempt .delayed, .attempt .expired, .attempt .delayed,
      .start, .attempt .sent, .attempt .sent] = some s ∧ Lossless s :=
  queues_lossless _ (by decide)

/-- A session with two packets and one with a third queue while the link refuses. Then the link
takes what it is given, and the second packet is left with `next_m` at the head of `if_batchq`. -/
theorem not_queues_lossless :
    ¬∃ s, run step ifInit [.output (some 1) false, .refuse, .output (some 1) false, .refuse,
      .output (some 2) false, .refuse, .start, .attempt .sent, .attempt .sent] = some s ∧
      Lossless s := by
  have hend : (run step ifInit [.output (some 1) false, .refuse, .output (some 1) false, .refuse,
      .output (some 2) false, .refuse, .start, .attempt .sent, .attempt .sent]).map
        (fun s => (s.walk, s.delayed, s.refused, s.waiting)) =
      some (none, [], false, [⟨1, some 1⟩]) := by
    decide
  rintro ⟨s, hs, -, -, -, hleft⟩
  rw [hs, Option.map_some, Option.some.injEq, Prod.mk.injEq, Prod.mk.injEq, Prod.mk.injEq] at hend
  obtain ⟨hwalk, hdelayed, hrefused, hwaiting⟩ := hend
  rw [hleft hwalk hdelayed hrefused] at hwaiting
  cases hwaiting

end Limbo.Slirp.Output
