import Limbo.Slirp.RoundTrip

/-!
# The buffers that a file describes

On any file, a loaded buffer lies within its bounds exactly if its record in the file does: nothing
compares the fields of a record with each other.
-/

namespace Limbo.UserNetwork

open Lib

/-! ### Records -/

/-- The fields of a buffer in a file. -/
structure SbufRecord where
  cc : UInt32
  datalen : UInt32
  wptr : UInt32
  rptr : UInt32

def skip (n : ℕ) : Load Unit := fun f => ((), f.drop n)

def readSbuf : Load SbufRecord := do
  let cc ← getBe32
  let datalen ← getBe32
  let wptr ← getBe32
  let rptr ← getBe32
  skip datalen.toNat
  pure { cc, datalen, wptr, rptr }

/-- The buffers of a socket, between 23 bytes of addresses and flags and the 119 bytes of its control
block. -/
def readSocket : Load (SbufRecord × SbufRecord) := do
  skip 23
  let rcv ← readSbuf
  let snd ← readSbuf
  skip 119
  pure (rcv, snd)

/-- The sockets of a file, up to the first byte zero in the place of an announcement. -/
def records : ℕ → List UInt8 → List (SbufRecord × SbufRecord)
  | 0, _ => []
  | fuel + 1, f =>
    if (getByte f).1 = 0 then []
    else (readSocket (getByte f).2).1 :: records fuel (readSocket (getByte f).2).2

/-- The pointers point into the block, which has room for what is in the buffer. -/
structure Sbuf.InBounds (sb : Sbuf) : Prop where
  rptr_nonneg : 0 ≤ sb.rptr
  rptr_lt : sb.rptr < sb.datalen
  wptr_nonneg : 0 ≤ sb.wptr
  wptr_lt : sb.wptr < sb.datalen
  cc_le : sb.cc.toNat ≤ sb.datalen

structure SbufRecord.InBounds (r : SbufRecord) : Prop where
  rptr_lt : r.rptr < r.datalen
  wptr_lt : r.wptr < r.datalen
  cc_le : r.cc ≤ r.datalen

/-- A socket whose buffers are within their bounds as far as those in the file are. -/
structure Describes (so : Socket) (r : SbufRecord × SbufRecord) : Prop where
  rcv : so.soRcv.InBounds ↔ r.1.InBounds
  snd : so.soSnd.InBounds ↔ r.2.InBounds

/-! ### How much is read -/

/-- Reading eats `n` bytes, or what there is. -/
def Takes {α : Type} (get : Load α) (n : ℕ) : Prop := ∀ f, (get f).2 = f.drop n

section Takes

variable {α β : Type} {get : Load α} {k : α → Load β} {m n : ℕ}

lemma bind_apply (f : List UInt8) : (get >>= k) f = k (get f).1 (get f).2 := rfl

lemma pure_apply (a : α) (f : List UInt8) : (pure a : Load α) f = (a, f) := rfl

lemma takes_pure (a : α) : Takes (pure a) 0 := fun _ => rfl

/-- The first of several reads. -/
lemma Takes.bind (h : Takes get n) (hn : n ≤ m) (h' : ∀ a, Takes (k a) (m - n)) :
    Takes (get >>= k) m := by
  intro f
  rw [bind_apply, h', h, List.drop_drop, Nat.add_sub_cancel' hn]

end Takes

lemma takes_getByte : Takes getByte 1 := fun f => (List.drop_one (l := f)).symm

lemma takes_getBe16 : Takes getBe16 2 := by
  iterate 2 refine takes_getByte.bind (by decide) fun _ => ?_
  exact takes_pure _

lemma takes_getBe32 : Takes getBe32 4 := by
  iterate 4 refine takes_getByte.bind (by decide) fun _ => ?_
  exact takes_pure _

lemma takes_getSbe16 : Takes getSbe16 2 :=
  takes_getBe16.bind le_rfl fun _ => takes_pure _

lemma takes_getSbe32 : Takes getSbe32 4 :=
  takes_getBe32.bind le_rfl fun _ => takes_pure _

lemma length_getBuffer (buf f : List UInt8) : (getBuffer buf f).1.1.length = buf.length :=
  (getBuffer buf f).1.2

lemma takes_getArray {α : Type} {get : Load α} {m : ℕ} (h : Takes get m) (n : ℕ) :
    Takes (getArray get n) (n * m) := by
  induction n with
  | zero => exact fun f => by rw [Nat.zero_mul]; rfl
  | succ n ih =>
    have hle : n * m ≤ (n + 1) * m := Nat.mul_le_mul_right m n.le_succ
    have hlast : (n + 1) * m - n * m = m := by rw [Nat.succ_mul, Nat.add_sub_cancel_left]
    refine ih.bind hle fun _ => ?_
    rw [hlast]
    refine h.bind le_rfl fun _ => ?_
    rw [Nat.sub_self]
    exact takes_pure _

lemma takes_slirpTcpLoad (so : Socket) (tp : Tcpcb) : Takes (slirpTcpLoad so tp) 119 := by
  unfold slirpTcpLoad
  refine takes_getSbe16.bind (by decide) fun _ => ?_
  refine (takes_getArray takes_getSbe16 4).bind (by decide) fun _ => ?_
  iterate 3 refine takes_getSbe16.bind (by decide) fun _ => ?_
  refine takes_getBe16.bind (by decide) fun _ => ?_
  refine takes_getByte.bind (by decide) fun _ => ?_
  refine takes_getBe16.bind (by decide) fun _ => ?_
  iterate 15 refine takes_getBe32.bind (by decide) fun _ => ?_
  iterate 2 refine takes_getSbe16.bind (by decide) fun _ => ?_
  refine takes_getBe32.bind (by decide) fun _ => ?_
  iterate 2 refine takes_getSbe16.bind (by decide) fun _ => ?_
  refine takes_getBe16.bind (by decide) fun _ => ?_
  refine takes_getBe32.bind (by decide) fun _ => ?_
  iterate 2 refine takes_getByte.bind (by decide) fun _ => ?_
  refine takes_getSbe16.bind (by decide) fun _ => ?_
  iterate 4 refine takes_getByte.bind (by decide) fun _ => ?_
  iterate 3 refine takes_getBe32.bind (by decide) fun _ => ?_
  exact takes_pure _

/-! ### Loaded buffers -/

/-- Within a block of less than 2 GiB, a pointer is its offset. -/
lemma pointer_lt_iff (wide : Bool) (off : UInt32) {datalen : UInt32} (h : datalen.toNat < 2 ^ 31) :
    0 ≤ pointer wide off ∧ pointer wide off < datalen.toNat ↔ off < datalen := by
  have hlt : off < datalen ↔ off.toNat < datalen.toNat := UInt32.lt_iff_toNat_lt
  cases wide with
  | true =>
    change (0 : ℤ) ≤ off.toNat ∧ (off.toNat : ℤ) < datalen.toNat ↔ _
    rw [hlt]
    omega
  | false =>
    have hint : off.toInt32.toInt = off.toBitVec.toInt := rfl
    have hcases := BitVec.toInt_eq_toNat_cond off.toBitVec
    have hnat : off.toBitVec.toNat = off.toNat := rfl
    have hbound := off.toNat_lt
    change 0 ≤ off.toInt32.toInt ∧ off.toInt32.toInt < datalen.toNat ↔ _
    rw [hint, hcases, hnat, hlt]
    split <;> omega

variable {wide : Bool}

lemma inBounds_iff {sb : Sbuf} {r : SbufRecord} (hdata : sb.datalen = r.datalen.toNat)
    (hcc : sb.cc = r.cc) (hwptr : sb.wptr = pointer wide r.wptr)
    (hrptr : sb.rptr = pointer wide r.rptr) : sb.InBounds ↔ r.InBounds := by
  have hsmall : r.datalen.toNat < 2 ^ 31 := hdata ▸ sb.small
  have hw := pointer_lt_iff wide r.wptr hsmall
  have hr := pointer_lt_iff wide r.rptr hsmall
  have hle : r.cc ≤ r.datalen ↔ r.cc.toNat ≤ r.datalen.toNat := UInt32.le_iff_toNat_le
  rw [← hwptr, ← hdata] at hw
  rw [← hrptr, ← hdata] at hr
  rw [← hcc, ← hdata] at hle
  constructor
  · intro h
    exact ⟨hr.mp ⟨h.rptr_nonneg, h.rptr_lt⟩, hw.mp ⟨h.wptr_nonneg, h.wptr_lt⟩,
      hcc ▸ hle.mpr h.cc_le⟩
  · intro h
    obtain ⟨hrptr₀, hrptr₁⟩ := hr.mpr h.rptr_lt
    obtain ⟨hwptr₀, hwptr₁⟩ := hw.mpr h.wptr_lt
    exact ⟨hrptr₀, hrptr₁, hwptr₀, hwptr₁, hle.mp (hcc ▸ h.cc_le)⟩

/-- A buffer that is loaded without an error. -/
lemma readSbuf_slirpSbufLoad
    {malloc : (n : ℕ) → Option { block : List UInt8 // block.length = n }} {f : List UInt8}
    (h : ¬ (slirpSbufLoad wide malloc f).1.1 < 0) :
    (readSbuf f).2 = (slirpSbufLoad wide malloc f).2 ∧
      ((slirpSbufLoad wide malloc f).1.2.InBounds ↔ (readSbuf f).1.InBounds) := by
  simp only [slirpSbufLoad, readSbuf, bind_apply, takes_getBe32 _] at h ⊢
  generalize getBe32 f = cc at h ⊢
  generalize (getBe32 (f.drop 4)).1 = datalen at h ⊢
  by_cases hfits : (sbreserve malloc datalen).datalen = datalen.toNat
  · rw [if_neg (not_not.mpr hfits)] at h ⊢
    simp only [bind_apply, takes_getSbe32 _, skip, pure_apply, List.drop_drop]
    refine ⟨?_, inBounds_iff ?_ rfl rfl rfl⟩
    · rw [← hfits]
      exact (List.drop_drop ..).symm
    · exact (length_getBuffer _ _).trans hfits
  · rw [if_pos hfits] at h
    exact absurd (show enomem < 0 by decide) h

/-- The first nine fields of a socket. -/
lemma slirpSocketLoad_eq (wide : Bool) (heap : Heap) (so : Socket) (f : List UInt8) :
    ∃ so' : Socket, slirpSocketLoad wide heap so f =
      (do
        let (ret, soRcv) ← slirpSbufLoad wide (heap.block false)
        if ret < 0 then pure (enomem, { so' with soRcv })
        else
          let (ret, soSnd) ← slirpSbufLoad wide (heap.block true)
          if ret < 0 then pure (enomem, { so' with soRcv, soSnd })
          else
            let soTcpcb ← slirpTcpLoad so' so'.soTcpcb
            pure (0, { so' with soRcv, soSnd, soTcpcb })) (f.drop 23) := by
  simp only [slirpSocketLoad, bind_apply, takes_getBe32 _, takes_getBe16 _, takes_getByte _,
    List.drop_drop]
  exact ⟨_, rfl⟩

lemma readSocket_slirpSocketLoad {heap : Heap} {so : Socket} {f : List UInt8}
    (h : ¬ (slirpSocketLoad wide heap so f).1.1 < 0) :
    (readSocket f).2 = (slirpSocketLoad wide heap so f).2 ∧
      Describes (slirpSocketLoad wide heap so f).1.2 (readSocket f).1 := by
  obtain ⟨so', hload⟩ := slirpSocketLoad_eq wide heap so f
  rw [hload] at h ⊢
  have hread : readSocket f = (do
      let rcv ← readSbuf
      let snd ← readSbuf
      skip 119
      pure (rcv, snd)) (f.drop 23) := rfl
  rw [hread]
  generalize f.drop 23 = f at h ⊢
  simp only [bind_apply] at h ⊢
  by_cases hrcv : (slirpSbufLoad wide (heap.block false) f).1.1 < 0
  · rw [if_pos hrcv] at h
    exact absurd (show enomem < 0 by decide) h
  obtain ⟨hf, hrcvBounds⟩ := readSbuf_slirpSbufLoad hrcv
  rw [if_neg hrcv] at h ⊢
  rw [hf]
  generalize (slirpSbufLoad wide (heap.block false) f).2 = g at h ⊢
  simp only [bind_apply] at h ⊢
  by_cases hsnd : (slirpSbufLoad wide (heap.block true) g).1.1 < 0
  · rw [if_pos hsnd] at h
    exact absurd (show enomem < 0 by decide) h
  obtain ⟨hg, hsndBounds⟩ := readSbuf_slirpSbufLoad hsnd
  rw [if_neg hsnd, hg]
  exact ⟨(takes_slirpTcpLoad so' so'.soTcpcb _).symm, hrcvBounds, hsndBounds⟩

/-! ### Loaded sockets -/

lemma readSocket_slirpStateLoadOne {heap : Heap} {slirp : Slirp} {f : List UInt8}
    (h : ¬ (slirpStateLoadOne wide heap slirp f).1.1 < 0) :
    (readSocket f).2 = (slirpStateLoadOne wide heap slirp f).2 ∧
      ∃ so, (slirpStateLoadOne wide heap slirp f).1.2.tcb = so :: slirp.tcb ∧
        Describes so (readSocket f).1 := by
  unfold slirpStateLoadOne at h ⊢
  by_cases hheap : heap.socket ∧ heap.tcpcb
  swap
  · rw [if_pos hheap] at h
    exact absurd (show enomem < 0 by decide) h
  rw [if_neg (not_not.mpr hheap)] at h ⊢
  simp only [bind_apply] at h ⊢
  by_cases hload : (slirpSocketLoad wide heap socreate f).1.1 < 0
  · rw [if_pos hload] at h
    exact absurd hload h
  obtain ⟨hf, hrcv, hsnd⟩ := readSocket_slirpSocketLoad hload
  rw [if_neg hload] at h ⊢
  rw [hf]
  generalize (slirpSocketLoad wide heap socreate f).1.2 = so at h hrcv hsnd ⊢
  by_cases hnet : so.soFaddr &&& slirp.vnetworkMask ≠ slirp.vnetworkAddr
  · rw [if_pos hnet] at h
    exact absurd (show einval < 0 by decide) h
  rw [if_neg hnet] at h ⊢
  cases hex : findExec slirp so with
  | none =>
    rw [hex] at h
    exact absurd (show einval < 0 by decide) h
  | some ex => exact ⟨rfl, _, rfl, hrcv, hsnd⟩

/-- The loop reads the records of the file one by one. -/
lemma records_slirpStateLoadLoop {heap : ℕ → Heap} {fuel i : ℕ} {slirp : Slirp} {f : List UInt8}
    (h : ¬ (slirpStateLoadLoop wide heap fuel i slirp f).1.1 < 0) :
    ∃ loaded, (slirpStateLoadLoop wide heap fuel i slirp f).1.2.tcb = loaded.reverse ++ slirp.tcb ∧
      List.Forall₂ Describes loaded (records fuel f) := by
  induction fuel generalizing i slirp f with
  | zero => exact ⟨[], rfl, .nil⟩
  | succ fuel ih =>
    simp only [slirpStateLoadLoop, records, bind_apply] at h ⊢
    by_cases hend : (getByte f).1 = 0
    · rw [if_pos hend, if_pos hend]
      exact ⟨[], rfl, .nil⟩
    rw [if_neg hend] at h
    rw [if_neg hend, if_neg hend]
    simp only [bind_apply] at h ⊢
    by_cases hone : (slirpStateLoadOne wide (heap i) slirp (getByte f).2).1.1 < 0
    · rw [if_pos hone] at h
      exact absurd hone h
    obtain ⟨hf, so, htcb, hso⟩ := readSocket_slirpStateLoadOne hone
    rw [if_neg hone] at h ⊢
    obtain ⟨loaded, hloaded, hall⟩ := ih h
    refine ⟨so :: loaded, ?_, .cons hso (hf ▸ hall)⟩
    rw [hloaded, htcb, List.reverse_cons, List.append_assoc, List.singleton_append]

lemma records_slirpStateLoad {heap : ℕ → Heap} {slirp : Slirp} {versionId : ℕ} {f : List UInt8}
    (h : (slirpStateLoad wide heap slirp versionId f).1.1 = 0) :
    ∃ loaded, (slirpStateLoad wide heap slirp versionId f).1.2.tcb = loaded.reverse ++ slirp.tcb ∧
      List.Forall₂ Describes loaded (records f.length f) := by
  have hload : slirpStateLoad wide heap slirp versionId f =
      (slirpStateLoadLoop wide heap f.length 0 slirp >>= fun p =>
        if p.1 < 0 then pure p
        else do
          let ipId ← if 2 ≤ versionId then getBe16 else pure p.2.ipId
          let bootpClients ←
            if 3 ≤ versionId then slirpBootpLoad p.2.bootpClients else pure p.2.bootpClients
          pure (0, { p.2 with ipId, bootpClients })) f := rfl
  rw [hload, bind_apply] at h ⊢
  by_cases hloop : (slirpStateLoadLoop wide heap f.length 0 slirp f).1.1 < 0
  · rw [if_pos hloop] at h
    exact absurd h hloop.ne
  · rw [if_neg hloop]
    split_ifs <;> exact records_slirpStateLoadLoop hloop

/-! ### The whole state -/

/-- The control sockets of the forwarding rules come back, in memory that lasts for them, and on any
file that loads, the loaded buffers are as good as their records. -/
theorem slirpStateLoad_restored (wide : Bool) (heap : ℕ → Heap) (fresh : Slirp) :
    (∀ saved : Slirp, fresh.execList = saved.execList →
      (∀ p ∈ saved.ctlSockets, p.2.soRcv.Placed ∧ p.2.soSnd.Placed) →
      (∀ i (h : i < saved.ctlSockets.length), (heap i).Serves saved.ctlSockets[i].2) →
      ∀ rest, slirpStateLoad wide heap fresh 3 (slirpStateSave saved ++ rest) =
        ((0, saved.restored fresh), rest)) ∧
    ∀ versionId f, (slirpStateLoad wide heap fresh versionId f).1.1 = 0 →
      ∃ loaded,
        (slirpStateLoad wide heap fresh versionId f).1.2.tcb = loaded.reverse ++ fresh.tcb ∧
        List.Forall₂ Describes loaded (records f.length f) :=
  ⟨fun _ hrules hplaced hheap => loads_slirpStateLoad hrules hplaced hheap,
    fun _ _ hload => records_slirpStateLoad hload⟩

/-- Memory that never runs out. -/
def plenty : Heap where
  socket := true
  tcpcb := true
  block _ n := some ⟨List.replicate n 0, List.length_replicate⟩

/-- The connection of the guest to port 80 of 10.0.2.4, behind which there is a command. -/
def webRule : ExList where
  exPty := 3
  exAddr := 0x0402000a
  exFport := 0x5000
  exExec := 7

/-- The network 10.0.2.0/24 with a rule and some sockets. -/
def webNetwork (tcb : List Socket) : Slirp where
  vnetworkAddr := 0x0002000a
  vnetworkMask := 0x00ffffff
  execList := [webRule]
  ipId := 0
  bootpClients := Vector.replicate 16 ⟨0, Vector.replicate 6 0⟩
  tcb := tcb
  inNetwork := by decide
  distinct := List.pairwise_singleton _ _

/-- A connection through the rule: two bytes wait, across the end of the block. -/
def webSocket : Socket :=
  { socreate with
    soFaddr := 0x0402000a
    soFport := 0x5000
    soRcv := { data := [1, 2, 3, 4], cc := 2, wptr := 1, rptr := 3, small := by decide }
    extra := some 7 }

/-- A file with a socket of the rule, whose first buffer is read from byte 5 of a block of one
byte. -/
def forgedFile : List UInt8 :=
  List.flatten [[42], List.replicate 4 0, [4, 2, 0, 10], List.replicate 4 0, [80, 0],
    List.replicate 9 0, [0, 0, 0, 0, 0, 0, 0, 1, 0, 0, 0, 0, 0, 0, 0, 5, 7],
    List.replicate 16 0, List.replicate 119 0, [0]]

theorem slirpStateLoad_restored_web :
    slirpStateLoad true (fun _ => plenty) (webNetwork []) 3
        (slirpStateSave (webNetwork [webSocket]) ++ []) =
      ((0, (webNetwork [webSocket]).restored (webNetwork [])), []) ∧
    ∃ loaded,
      (slirpStateLoad true (fun _ => plenty) (webNetwork []) 3 forgedFile).1.2.tcb =
        loaded.reverse ++ (webNetwork []).tcb ∧
      List.Forall₂ Describes loaded (records forgedFile.length forgedFile) := by
  have hctl : (webNetwork [webSocket]).ctlSockets = [(webRule, webSocket)] := rfl
  have hplaced : ∀ p ∈ (webNetwork [webSocket]).ctlSockets,
      p.2.soRcv.Placed ∧ p.2.soSnd.Placed := by
    rw [hctl]
    intro p hp
    obtain rfl := List.mem_singleton.mp hp
    exact ⟨⟨by decide, by decide, by decide, by decide⟩, ⟨by decide, by decide, by decide, by decide⟩⟩
  obtain ⟨hsaved, hloaded⟩ :=
    slirpStateLoad_restored true (fun _ => plenty) (webNetwork [])
  constructor
  · exact hsaved (webNetwork [webSocket]) rfl hplaced (fun _ _ => ⟨rfl, rfl, rfl, rfl⟩) []
  · exact hloaded 3 forgedFile (by decide +kernel)

/-- A connection to another host is lost, and a file is loaded whose first buffer is read from
behind the end of its block. -/
theorem not_restored_nat :
    ¬ ((∀ saved fresh : Slirp, fresh.execList = saved.execList → ∀ so ∈ saved.tcb,
        ∃ so' ∈ (slirpStateLoad true (fun _ => plenty) fresh 3 (slirpStateSave saved)).1.2.tcb,
          so'.soFaddr = so.soFaddr ∧ so'.soFport = so.soFport)) ∧
    ¬ ∀ (fresh : Slirp) f, (slirpStateLoad true (fun _ => plenty) fresh 3 f).1.1 = 0 →
        ∀ so ∈ (slirpStateLoad true (fun _ => plenty) fresh 3 f).1.2.tcb, so.soRcv.InBounds := by
  constructor
  · intro h
    obtain ⟨so', hso', -⟩ := h
      (webNetwork [{ socreate with soFaddr := 0x22d8b85d, soFport := 0x5000 }]) (webNetwork []) rfl
      _ (List.mem_singleton.mpr rfl)
    exact List.ne_nil_of_mem hso' (List.eq_nil_of_length_eq_zero (by decide +kernel))
  · intro h
    have hbounds : ((slirpStateLoad true (fun _ => plenty) (webNetwork []) 3 forgedFile).1.2.tcb.map
        fun so => (so.soRcv.rptr, so.soRcv.datalen)) = [(5, 1)] := by decide +kernel
    obtain ⟨so, hso, hptr⟩ := List.mem_map.mp (hbounds ▸ List.mem_singleton.mpr rfl)
    obtain ⟨hrptr, hdatalen⟩ := Prod.mk.inj hptr
    have hlt := (h _ _ (by decide +kernel) so hso).rptr_lt
    rw [hrptr, hdatalen] at hlt
    exact absurd hlt (by decide)

end Limbo.UserNetwork
