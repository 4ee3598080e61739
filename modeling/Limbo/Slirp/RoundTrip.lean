import Limbo.Slirp.State

/-!
# What survives saving the user network

The control sockets that are saved come back as they were, but for what belongs to the running
process.
-/

namespace Limbo.UserNetwork

open Lib

/-! ### Fields -/

/-- Reading eats these bytes, whatever follows, and gives `a`. -/
def Loads {α : Type} (get : Load α) (bs : List UInt8) (a : α) : Prop :=
  ∀ rest, get (bs ++ rest) = (a, rest)

section Loads

variable {α β : Type} {get : Load α} {k : α → Load β} {a : α} {b : β} {bs : List UInt8}

lemma loads_pure (a : α) : Loads (pure a) [] a := fun _ => rfl

lemma Loads.bind {bs' : List UInt8} (h : Loads get bs a) (h' : Loads (k a) bs' b) :
    Loads (get >>= k) (bs ++ bs') b := by
  intro rest
  have hget : (get >>= k) (bs ++ (bs' ++ rest)) =
      k (get (bs ++ (bs' ++ rest))).1 (get (bs ++ (bs' ++ rest))).2 := rfl
  rw [List.append_assoc, hget, h, h']

/-- The first of several fields. -/
lemma Loads.cons {fields : List (List UInt8)} (h : Loads get bs a)
    (h' : Loads (k a) fields.flatten b) : Loads (get >>= k) (bs :: fields).flatten b := h.bind h'

lemma Loads.map (h : Loads get bs a) (g : α → β) :
    Loads (get >>= fun x => pure (g x)) bs (g a) := by
  intro rest
  have hget : (get >>= fun x => (pure (g x) : Load β)) (bs ++ rest) =
      (g (get (bs ++ rest)).1, (get (bs ++ rest)).2) := rfl
  rw [hget, h]

end Loads

lemma loads_getByte (v : UInt8) : Loads getByte (putByte v) v := fun _ => rfl

lemma loads_getBe16 (v : UInt16) : Loads getBe16 (putBe16 v) v := by
  intro rest
  have hv : beNat (beBytes 2 v.toNat) = v.toNat := beNat_beBytes v.toNat_lt
  have hread : getBe16 (putBe16 v ++ rest) = (UInt16.ofNat (beNat (beBytes 2 v.toNat)), rest) := rfl
  rw [hread, hv, UInt16.ofNat_toNat]

lemma loads_getBe32 (v : UInt32) : Loads getBe32 (putBe32 v) v := by
  intro rest
  have hv : beNat (beBytes 4 v.toNat) = v.toNat := beNat_beBytes v.toNat_lt
  have hread : getBe32 (putBe32 v ++ rest) = (UInt32.ofNat (beNat (beBytes 4 v.toNat)), rest) := rfl
  rw [hread, hv, UInt32.ofNat_toNat]

lemma loads_getSbe16 (v : Int16) : Loads getSbe16 (putSbe16 v) v :=
  (loads_getBe16 v.toUInt16).map UInt16.toInt16

lemma loads_getSbe32 (v : Int32) : Loads getSbe32 (putSbe32 v) v :=
  (loads_getBe32 v.toUInt32).map UInt32.toInt32

lemma loads_getBuffer {buf data : List UInt8} (h : data.length = buf.length) :
    Loads (getBuffer buf) data ⟨data, h⟩ := by
  intro rest
  have hdata : (data ++ rest).take buf.length ++ buf.drop (data ++ rest).length = data := by
    rw [← h, List.take_left, List.drop_of_length_le (by rw [List.length_append]; omega),
      List.append_nil]
  have hrest : (data ++ rest).drop buf.length = rest := by rw [← h, List.drop_left]
  exact Prod.ext (Subtype.ext hdata) hrest

/-- The elements of an array are read from the last to the first of the recursion, which is from the
first to the last in the file. -/
lemma loads_getArray {α : Type} {get : Load α} {put : α → List UInt8}
    (h : ∀ a, Loads get (put a) a) {n : ℕ} (v : Vector α n) :
    Loads (getArray get n) (v.toList.flatMap put) v := by
  induction n with
  | zero =>
    obtain rfl : v = #v[] := Vector.eq_empty
    exact loads_pure _
  | succ n ih =>
    have hpush : v.pop.push v.back = v := Vector.push_pop_back v
    have hbytes : v.toList.flatMap put = v.pop.toList.flatMap put ++ put v.back := by
      conv_lhs => rw [← hpush, Vector.toList_push, List.flatMap_append, List.flatMap_singleton]
    rw [hbytes]
    refine (ih v.pop).bind ?_
    have hlast := (h v.back).map v.pop.push
    rwa [hpush] at hlast

/-! ### Records -/

/-- The control block of a socket that is loaded: the segments that wait for others are lost and the
template is made anew. -/
def Tcpcb.restored (so : Socket) (tp : Tcpcb) : Tcpcb := tcpTemplate so { tp with segs := [] }

lemma loads_slirpTcpLoad (so : Socket) (tp : Tcpcb) :
    Loads (slirpTcpLoad so tcpNewtcpcb) (slirpTcpSave tp) (tp.restored so) := by
  unfold slirpTcpLoad slirpTcpSave
  refine (loads_getSbe16 _).cons ?_
  refine (loads_getArray loads_getSbe16 _).cons ?_
  iterate 3 refine (loads_getSbe16 _).cons ?_
  refine (loads_getBe16 _).cons ?_
  refine (loads_getByte _).cons ?_
  refine (loads_getBe16 _).cons ?_
  iterate 15 refine (loads_getBe32 _).cons ?_
  iterate 2 refine (loads_getSbe16 _).cons ?_
  refine (loads_getBe32 _).cons ?_
  iterate 2 refine (loads_getSbe16 _).cons ?_
  refine (loads_getBe16 _).cons ?_
  refine (loads_getBe32 _).cons ?_
  iterate 2 refine (loads_getByte _).cons ?_
  refine (loads_getSbe16 _).cons ?_
  iterate 4 refine (loads_getByte _).cons ?_
  iterate 3 refine (loads_getBe32 _).cons ?_
  exact loads_pure _

/-- The pointers of a buffer point into its block or right behind it. -/
structure Sbuf.Placed (sb : Sbuf) : Prop where
  wptr_nonneg : 0 ≤ sb.wptr
  wptr_le : sb.wptr ≤ sb.datalen
  rptr_nonneg : 0 ≤ sb.rptr
  rptr_le : sb.rptr ≤ sb.datalen

/-- An offset within a block is the same in a pointer of either width. -/
lemma pointer_offset (wide : Bool) {p : ℤ} (h₀ : 0 ≤ p) (h₁ : p < 2 ^ 31) :
    pointer wide (offset p).toInt32.toUInt32 = p := by
  have hmod : p % 2 ^ 32 = p := Int.emod_eq_of_lt h₀ (by omega)
  have hnat : (offset p).toNat = p.toNat := by
    rw [offset, hmod, UInt32.toNat_ofNat', Nat.mod_eq_of_lt (by omega)]
  have hint : (offset p).toInt32.toInt = (offset p).toNat :=
    BitVec.toInt_eq_toNat_of_lt (by change 2 * (offset p).toNat < 2 ^ 32; omega)
  cases wide with
  | true =>
    change ((offset p).toNat : ℤ) = p
    rw [hnat, Int.toNat_of_nonneg h₀]
  | false =>
    change (offset p).toInt32.toInt = p
    rw [hint, hnat, Int.toNat_of_nonneg h₀]

variable {wide : Bool}

lemma length_sbreserve {malloc : (n : ℕ) → Option { block : List UInt8 // block.length = n }}
    {size : UInt32} (hsize : size.toNat < 2 ^ 31) (h : (malloc size.toNat).isSome) :
    (sbreserve malloc size).datalen = size.toNat := by
  rw [sbreserve, dif_pos hsize]
  split
  · next block hblock _ => exact hblock
  · next hnone =>
    rw [hnone] at h
    exact absurd h Bool.false_ne_true

/-- A block is found again, in memory that is large enough. -/
lemma loads_slirpSbufLoad {sb : Sbuf} (h : sb.Placed)
    {malloc : (n : ℕ) → Option { block : List UInt8 // block.length = n }}
    (hmalloc : (malloc sb.datalen).isSome) :
    Loads (slirpSbufLoad wide malloc) (slirpSbufSave sb) (0, sb) := by
  have hsmall : sb.datalen < 2 ^ 31 := sb.small
  have hlen : (UInt32.ofNat sb.datalen).toNat = sb.datalen := by
    rw [UInt32.toNat_ofNat', Nat.mod_eq_of_lt (by omega)]
  have hreserve : (sbreserve malloc (UInt32.ofNat sb.datalen)).datalen = sb.datalen := by
    rw [length_sbreserve (by omega) (by rwa [hlen]), hlen]
  unfold slirpSbufLoad slirpSbufSave
  refine (loads_getBe32 _).cons ?_
  refine (loads_getBe32 _).cons ?_
  dsimp only
  rw [if_neg (by rw [hlen, not_not]; exact hreserve)]
  refine (loads_getSbe32 _).cons ?_
  refine (loads_getSbe32 _).cons ?_
  refine (loads_getBuffer hreserve.symm).cons ?_
  have hw := pointer_offset wide h.wptr_nonneg (by have := h.wptr_le; omega)
  have hr := pointer_offset wide h.rptr_nonneg (by have := h.rptr_le; omega)
  dsimp only
  rw [hw, hr]
  exact loads_pure _

/-- What becomes of a socket that is saved and loaded, of the rule `ex`. -/
def Socket.restored (ex : ExList) (so : Socket) : Socket :=
  { so with soTcpcb := so.soTcpcb.restored so, extra := some ex.exExec }

/-- The memory lasts for a socket like this one. -/
structure Heap.Serves (heap : Heap) (so : Socket) : Prop where
  socket : heap.socket
  tcpcb : heap.tcpcb
  rcv : (heap.block false so.soRcv.datalen).isSome
  snd : (heap.block true so.soSnd.datalen).isSome

lemma loads_slirpSocketLoad {so : Socket} (hrcv : so.soRcv.Placed) (hsnd : so.soSnd.Placed)
    {heap : Heap} (hheap : heap.Serves so) :
    Loads (slirpSocketLoad wide heap socreate) (slirpSocketSave so)
      (0, { so with soTcpcb := so.soTcpcb.restored so, extra := none }) := by
  unfold slirpSocketLoad slirpSocketSave
  refine (loads_getBe32 _).cons ?_
  iterate 2 refine (loads_getBe32 _).cons ?_
  iterate 2 refine (loads_getBe16 _).cons ?_
  iterate 3 refine (loads_getByte _).cons ?_
  refine (loads_getBe32 _).cons ?_
  refine (loads_slirpSbufLoad hrcv hheap.rcv).cons ?_
  refine (loads_slirpSbufLoad hsnd hheap.snd).cons ?_
  refine (loads_slirpTcpLoad _ so.soTcpcb).cons ?_
  exact loads_pure _

lemma loads_slirpBootpLoad {n : ℕ} (clients v : Vector BootpClient n) :
    Loads (slirpBootpLoad clients)
      (v.toList.flatMap fun client => putBe16 client.allocated ++ client.macaddr.toList) v := by
  induction n with
  | zero =>
    obtain rfl : v = #v[] := Vector.eq_empty
    exact loads_pure _
  | succ n ih =>
    have hpush : v.pop.push v.back = v := Vector.push_pop_back v
    have hbytes : (v.toList.flatMap fun c => putBe16 c.allocated ++ c.macaddr.toList) =
        (v.pop.toList.flatMap fun c => putBe16 c.allocated ++ c.macaddr.toList) ++
          (putBe16 v.back.allocated ++ v.back.macaddr.toList) := by
      conv_lhs => rw [← hpush, Vector.toList_push, List.flatMap_append, List.flatMap_singleton]
    rw [hbytes]
    refine (ih clients.pop v.pop).bind ((loads_getBe16 _).bind ?_)
    have hlen : v.back.macaddr.toList.length = clients.back.macaddr.toList.length := by simp
    have hlast := (loads_getBuffer hlen).map fun mac : { b : List UInt8 // _ } =>
      v.pop.push ⟨v.back.allocated, ⟨mac.1.toArray, by simpa using mac.2⟩⟩
    have hv : v.pop.push ⟨v.back.allocated, ⟨v.back.macaddr.toList.toArray, by simp⟩⟩ = v :=
      Eq.trans (by congr) hpush
    rwa [hv] at hlast

/-! ### The whole state -/

lemma findExec_eq {slirp : Slirp} {ex : ExList} {so : Socket} (hex : ex ∈ slirp.execList)
    (hpty : ex.exPty = 3) (haddr : so.soFaddr = ex.exAddr) (hport : so.soFport = ex.exFport) :
    findExec slirp so = some ex := by
  unfold findExec
  cases hfind : slirp.execList.find? fun ex =>
      decide (ex.exPty = 3 ∧ so.soFaddr = ex.exAddr ∧ so.soFport = ex.exFport) with
  | none =>
    have hnone := List.find?_eq_none.mp hfind ex hex
    exact absurd (decide_eq_true ⟨hpty, haddr, hport⟩) hnone
  | some ex' =>
    have hmatch : ex'.exPty = 3 ∧ so.soFaddr = ex'.exAddr ∧ so.soFport = ex'.exFport := by
      simpa using List.find?_some hfind
    by_contra hne
    have : Std.Symm fun ex ex' : ExList =>
        ¬ (ex.exAddr = ex'.exAddr ∧ ex.exFport = ex'.exFport) :=
      ⟨fun _ _ h h' => h ⟨h'.1.symm, h'.2.symm⟩⟩
    refine slirp.distinct.forall hex (List.mem_of_find?_eq_some hfind) ?_
      ⟨haddr.symm.trans hmatch.2.1, hport.symm.trans hmatch.2.2⟩
    exact fun h => hne (h ▸ rfl)

/-- What a saved socket and its rule have to meet for the socket to be loaded. -/
structure Loadable (rules : List ExList) (heap : Heap) (p : ExList × Socket) : Prop where
  mem : p.1 ∈ rules
  pty : p.1.exPty = 3
  addr : p.2.soFaddr = p.1.exAddr
  port : p.2.soFport = p.1.exFport
  rcv : p.2.soRcv.Placed
  snd : p.2.soSnd.Placed
  serves : heap.Serves p.2

lemma loads_slirpStateLoadOne {slirp : Slirp} {heap : Heap} {p : ExList × Socket}
    (h : Loadable slirp.execList heap p) :
    Loads (slirpStateLoadOne wide heap slirp) (slirpSocketSave p.2)
      (0, { slirp with tcb := p.2.restored p.1 :: slirp.tcb }) := by
  unfold slirpStateLoadOne
  rw [if_neg (not_not.mpr ⟨h.serves.socket, h.serves.tcpcb⟩), ← List.append_nil (slirpSocketSave p.2)]
  refine (loads_slirpSocketLoad h.rcv h.snd h.serves).bind ?_
  have hnet : p.2.soFaddr &&& slirp.vnetworkMask = slirp.vnetworkAddr := by
    rw [h.addr]
    exact slirp.inNetwork _ h.mem
  have hexec : findExec slirp { p.2 with soTcpcb := p.2.soTcpcb.restored p.2, extra := none } =
      some p.1 := findExec_eq h.mem h.pty h.addr h.port
  dsimp only
  rw [if_neg (by decide), if_neg (not_not.mpr hnet), hexec]
  exact loads_pure _

/-- The sockets come back in the reverse order, in front of those there are. -/
lemma loads_slirpStateLoadLoop {heap : ℕ → Heap} {ps : List (ExList × Socket)} {fuel : ℕ}
    (hfuel : ps.length < fuel) {i : ℕ} {slirp : Slirp}
    (h : ∀ j (hj : j < ps.length), Loadable slirp.execList (heap (i + j)) ps[j]) :
    Loads (slirpStateLoadLoop wide heap fuel i slirp)
      ((ps.flatMap fun p => putByte 42 ++ slirpSocketSave p.2) ++ putByte 0)
      (0, { slirp with tcb := (ps.map fun p => p.2.restored p.1).reverse ++ slirp.tcb }) := by
  induction ps generalizing fuel i slirp with
  | nil =>
    obtain ⟨fuel, rfl⟩ := Nat.exists_eq_succ_of_ne_zero hfuel.ne'
    exact fun _ => rfl
  | cons p ps ih =>
    obtain ⟨fuel, rfl⟩ := Nat.exists_eq_succ_of_ne_zero (Nat.ne_zero_of_lt hfuel)
    have hone : Loads (slirpStateLoadOne wide (heap i) slirp) _ _ :=
      loads_slirpStateLoadOne (h 0 (Nat.zero_lt_succ _))
    have hrest : Loads (slirpStateLoadLoop wide heap fuel (i + 1)
        { slirp with tcb := p.2.restored p.1 :: slirp.tcb }) _ _ :=
      ih (Nat.succ_lt_succ_iff.mp hfuel) fun j hj => by
        have := h (j + 1) (Nat.succ_lt_succ hj)
        rwa [show i + (j + 1) = i + 1 + j by omega] at this
    rw [List.flatMap_cons, List.append_assoc, List.append_assoc]
    refine (loads_getByte 42).bind ?_
    rw [if_neg (by decide)]
    refine hone.bind ?_
    dsimp only
    rw [if_neg (by decide)]
    rw [List.map_cons, List.reverse_cons, List.append_assoc]
    exact hrest

lemma mem_ctlSockets {slirp : Slirp} {p : ExList × Socket} (h : p ∈ slirp.ctlSockets) :
    p.1 ∈ slirp.execList ∧ p.1.exPty = 3 ∧ p.2 ∈ slirp.tcb ∧ p.2.soFaddr = p.1.exAddr ∧
      p.2.soFport = p.1.exFport := by
  obtain ⟨ex, hex, hp⟩ := List.mem_filterMap.mp h
  split at hp
  · next hpty =>
    obtain ⟨so, hso, rfl⟩ := Option.map_eq_some_iff.mp hp
    have hmatch : so.soFaddr = ex.exAddr ∧ so.soFport = ex.exFport := by
      simpa using List.find?_some hso
    exact ⟨hex, hpty, List.mem_of_find?_eq_some hso, hmatch⟩
  · exact absurd hp nofun

/-- The state that `slirp_state_load()` makes of what another process has saved. -/
def Slirp.restored (saved fresh : Slirp) : Slirp :=
  { fresh with
    ipId := saved.ipId
    bootpClients := saved.bootpClients
    tcb := (saved.ctlSockets.map fun p => p.2.restored p.1).reverse ++ fresh.tcb }

/-- A byte announces every socket, so that the file is longer than the list of its sockets. -/
lemma length_ctlSockets_lt (slirp : Slirp) (rest : List UInt8) :
    slirp.ctlSockets.length < (slirpStateSave slirp ++ rest).length := by
  have hone : slirp.ctlSockets.length ≤
      (slirp.ctlSockets.flatMap fun p => putByte 42 ++ slirpSocketSave p.2).length := by
    rw [List.length_flatMap, ← List.length_map]
    refine List.length_le_sum_of_one_le _ fun n hn => ?_
    obtain ⟨p, -, rfl⟩ := List.mem_map.mp hn
    simp [putByte]
  simp only [slirpStateSave, List.flatten_cons, List.length_append, putByte, List.length_singleton]
    at hone ⊢
  omega

lemma loads_slirpStateLoad {saved fresh : Slirp} (hrules : fresh.execList = saved.execList)
    (hplaced : ∀ p ∈ saved.ctlSockets, p.2.soRcv.Placed ∧ p.2.soSnd.Placed) {heap : ℕ → Heap}
    (hheap : ∀ i (h : i < saved.ctlSockets.length), (heap i).Serves saved.ctlSockets[i].2) :
    Loads (slirpStateLoad wide heap fresh 3) (slirpStateSave saved) (0, saved.restored fresh) := by
  intro rest
  have hloadable : ∀ j (hj : j < saved.ctlSockets.length),
      Loadable fresh.execList (heap (0 + j)) saved.ctlSockets[j] := by
    intro j hj
    obtain ⟨hmem, hpty, -, haddr, hport⟩ := mem_ctlSockets (List.getElem_mem hj)
    obtain ⟨hrcv, hsnd⟩ := hplaced _ (List.getElem_mem hj)
    rw [Nat.zero_add]
    exact ⟨hrules ▸ hmem, hpty, haddr, hport, hrcv, hsnd, hheap j hj⟩
  have hload : Loads (slirpStateLoadLoop wide heap (slirpStateSave saved ++ rest).length 0 fresh >>=
        fun p => if p.1 < 0 then pure p else do
          let ipId ← getBe16
          let bootpClients ← slirpBootpLoad p.2.bootpClients
          pure (0, { p.2 with ipId, bootpClients }))
      (((saved.ctlSockets.flatMap fun p => putByte 42 ++ slirpSocketSave p.2) ++ putByte 0) ++
        List.flatten [putBe16 saved.ipId, slirpBootpSave saved.bootpClients])
      (0, saved.restored fresh) := by
    refine (loads_slirpStateLoadLoop (length_ctlSockets_lt saved rest) hloadable).bind ?_
    dsimp only
    rw [if_neg (by decide)]
    refine (loads_getBe16 saved.ipId).cons ?_
    refine (loads_slirpBootpLoad fresh.bootpClients saved.bootpClients).cons ?_
    exact loads_pure _
  have hread := hload rest
  rw [List.append_assoc (List.flatMap _ _)] at hread
  exact hread

end Limbo.UserNetwork
