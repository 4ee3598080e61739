import Limbo.Lib.Run
import Limbo.Slirp.State

/-!
# The DHCP server of the guest's network

`bootp.c` hands the addresses from `vdhcp_startaddr` on out to sixteen clients. The address of a
client is computed from its index in network byte order, the index of an address in host byte order.
The host is little-endian. A message is decoded byte by byte; the bytes that are read are recorded.
-/

namespace Limbo.Slirp

open Lib
open UserNetwork (BootpClient)

/-! ### Addresses -/

/-- `htonl(x)` and `ntohl(x)`: the bytes of a word the other way around. -/
def htonl (x : UInt32) : UInt32 :=
  UInt32.ofNat (x.toNat % 256 * 2 ^ 24 + x.toNat / 256 % 256 * 2 ^ 16 +
    x.toNat / 2 ^ 16 % 256 * 256 + x.toNat / 2 ^ 24)

/-- An address in host byte order, as a number. -/
def hostNat (addr : UInt32) : ℕ := (htonl addr).toNat

/-- The octets of an address, the first one first. -/
lemma exists_octets (addr : UInt32) :
    ∃ a b c d : ℕ, (a < 256 ∧ b < 256 ∧ c < 256 ∧ d < 256) ∧
      addr.toNat = a + b * 256 + c * 2 ^ 16 + d * 2 ^ 24 ∧
      hostNat addr = a * 2 ^ 24 + b * 2 ^ 16 + c * 256 + d := by
  have := addr.toNat_lt
  refine ⟨addr.toNat % 256, addr.toNat / 256 % 256, addr.toNat / 2 ^ 16 % 256,
    addr.toNat / 2 ^ 24, by omega, by omega, ?_⟩
  rw [hostNat, htonl, UInt32.toNat_ofNat']
  omega

lemma htonl_htonl (x : UInt32) : htonl (htonl x) = x := by
  obtain ⟨a, b, c, d, h, hx, hhost⟩ := exists_octets x
  obtain ⟨a', b', c', d', h', hx', hhost'⟩ := exists_octets (htonl x)
  rw [hostNat] at hhost
  have hd : a' = d := by omega
  have hc : b' = c := by omega
  have hb : c' = b := by omega
  rw [hostNat] at hhost'
  apply UInt32.toNat_inj.mp
  omega

lemma hostNat_injective : Function.Injective hostNat := by
  intro a b h
  rw [← htonl_htonl a, UInt32.toNat_inj.mp h, htonl_htonl]

/-- `arp_table_add()` aborts for these; the entry it makes is not read here. -/
def ArpAsserts (ipAddr : UInt32) : Prop := ipAddr &&& htonl 0x0fffffff = 0

instance (ipAddr : UInt32) : Decidable (ArpAsserts ipAddr) := inferInstanceAs (Decidable (_ = _))

/-! ### The clients -/

abbrev NB_BOOTP_CLIENTS : ℕ := 16

/-- `bootp_clients` -/
abbrev Clients := Vector BootpClient NB_BOOTP_CLIENTS

/-- A hardware address. -/
abbrev Mac := Vector UInt8 6

/-- Nobody has an address yet. -/
def Clients.init : Clients := .replicate _ ⟨0, .replicate _ 0⟩

namespace Clients

/-- `bc->allocated = 1` -/
def allocate (clients : Clients) (i : Fin NB_BOOTP_CLIENTS) : Clients :=
  clients.set i { clients[i] with allocated := 1 }

/-- `memcpy(bc->macaddr, macaddr, 6)` -/
def copyMac (clients : Clients) (i : Fin NB_BOOTP_CLIENTS) (macaddr : Mac) : Clients :=
  clients.set i { clients[i] with macaddr := macaddr }

/-- `!bc->allocated || !memcmp(macaddr, bc->macaddr, 6)` -/
def Usable (clients : Clients) (i : Fin NB_BOOTP_CLIENTS) (macaddr : Mac) : Prop :=
  clients[i].allocated = 0 ∨ macaddr = clients[i].macaddr

instance (clients : Clients) (i : Fin NB_BOOTP_CLIENTS) (macaddr : Mac) :
    Decidable (clients.Usable i macaddr) :=
  inferInstanceAs (Decidable (_ ∨ _))

end Clients

/-- The configuration that a reply is made from. -/
structure Network where
  vdhcpStartaddr : UInt32
  vhostAddr : UInt32
  vnetworkMask : UInt32
  vnameserverAddr : UInt32
  restricted : Bool
  clientHostname : List UInt8
  bootpFilename : Option (List UInt8)

variable (net : Network)

/-- `vdhcp_startaddr.s_addr + htonl(i)` -/
def Network.slotAddr (i : Fin NB_BOOTP_CLIENTS) : UInt32 :=
  net.vdhcpStartaddr + htonl (UInt32.ofNat i)

/-- `get_new_addr(slirp, paddr, macaddr)`: the index of the client, `*paddr`, and the clients. -/
def getNewAddr (clients : Clients) (macaddr : Mac) :
    Option (Fin NB_BOOTP_CLIENTS × UInt32 × Clients) :=
  ((List.finRange NB_BOOTP_CLIENTS).find? fun i => clients.Usable i macaddr).map fun i =>
    (i, net.slotAddr i, clients.allocate i)

lemma requestAddr_index {reqAddr dhcpAddr : UInt32} (h : reqAddr ≥ dhcpAddr)
    (h' : reqAddr < dhcpAddr + UInt32.ofNat NB_BOOTP_CLIENTS) :
    (reqAddr - dhcpAddr).toNat < NB_BOOTP_CLIENTS := by
  rw [ge_iff_le, UInt32.le_iff_toNat_le] at h
  rw [UInt32.lt_iff_toNat_lt, UInt32.toNat_add, UInt32.toNat_ofNat'] at h'
  rw [UInt32.toNat_sub_of_le _ _ (UInt32.le_iff_toNat_le.mpr h)]
  omega

/-- `request_addr(slirp, paddr, macaddr)` -/
def requestAddr (clients : Clients) (paddr : UInt32) (macaddr : Mac) :
    Option (Fin NB_BOOTP_CLIENTS × Clients) :=
  let reqAddr := htonl paddr
  let dhcpAddr := htonl net.vdhcpStartaddr
  if h : reqAddr ≥ dhcpAddr ∧ reqAddr < dhcpAddr + UInt32.ofNat NB_BOOTP_CLIENTS then
    let i : Fin NB_BOOTP_CLIENTS := ⟨(reqAddr - dhcpAddr).toNat, requestAddr_index h.1 h.2⟩
    if clients.Usable i macaddr then some (i, clients.allocate i) else none
  else none

/-- `find_addr(slirp, paddr, macaddr)` -/
def findAddr (clients : Clients) (macaddr : Mac) :
    Option (Fin NB_BOOTP_CLIENTS × UInt32 × Clients) :=
  ((List.finRange NB_BOOTP_CLIENTS).find? fun i => macaddr = clients[i].macaddr).map fun i =>
    (i, net.slotAddr i, clients.allocate i)

/-! ### Decoding -/

abbrev DHCP_OPT_LEN : ℕ := 312
abbrev RFC1533_PAD : UInt8 := 0
abbrev RFC1533_END : UInt8 := 255
abbrev RFC2132_REQ_ADDR : UInt8 := 50
abbrev RFC2132_MSG_TYPE : UInt8 := 53
abbrev DHCPDISCOVER : UInt8 := 1
abbrev DHCPOFFER : UInt8 := 2
abbrev DHCPREQUEST : UInt8 := 3
abbrev DHCPACK : UInt8 := 5
abbrev DHCPNAK : UInt8 := 6

/-- `struct bootp_t`, as far as it is read. `vend` is the memory from `bp_vend` on: the options
field has `DHCP_OPT_LEN` bytes, and what lies behind it is not the packet's. -/
structure Bootp where
  op : UInt8
  xid : UInt32
  ciaddr : UInt32
  hwaddr : Mac
  vend : ℕ → UInt8

/-- What has been decoded, and the offsets from `bp_vend` that were read. -/
structure Decoded where
  msgType : UInt8
  reqAddr : UInt32
  reads : List ℕ

/-- `len` bytes are read from an offset on. -/
def Decoded.read (d : Decoded) (p len : ℕ) : Decoded :=
  { d with reads := d.reads ++ (List.range len).map (p + ·) }

/-- The four bytes at an offset, as an `s_addr`. -/
def addrAt (vend : ℕ → UInt8) (p : ℕ) : UInt32 :=
  UInt32.ofNat ((vend p).toNat + (vend (p + 1)).toNat * 256 + (vend (p + 2)).toNat * 2 ^ 16 +
    (vend (p + 3)).toNat * 2 ^ 24)

/-- The `switch` over the tag of an option whose value is at `p`. -/
def dhcpOption (vend : ℕ → UInt8) (tag : UInt8) (len p : ℕ) (d : Decoded) : Decoded :=
  if tag = RFC2132_MSG_TYPE then
    if len ≥ 1 then { d.read p 1 with msgType := vend p } else d
  else if tag = RFC2132_REQ_ADDR then
    if len ≥ 4 then { d.read p 4 with reqAddr := addrAt vend p } else d
  else d

/-- The loop of `dhcp_decode()`, from an offset on. -/
def dhcpOptions (vend : ℕ → UInt8) (p : ℕ) (d : Decoded) : Decoded :=
  if p < DHCP_OPT_LEN then
    if vend p = RFC1533_PAD then dhcpOptions vend (p + 1) (d.read p 1)
    else if vend p = RFC1533_END then d.read p 1
    else if p + 1 ≥ DHCP_OPT_LEN then d.read p 1
    else
      dhcpOptions vend (p + 2 + (vend (p + 1)).toNat)
        (dhcpOption vend (vend p) (vend (p + 1)).toNat (p + 2) (d.read p 2))
  else d
termination_by DHCP_OPT_LEN - p

/-- The bytes of `rfc1533_cookie`. -/
def rfc1533Cookie : List UInt8 := [99, 130, 83, 99]

/-- `dhcp_decode(bp, pmsg_type, preq_addr)` -/
def dhcpDecode (bp : Bootp) : Decoded :=
  let d : Decoded := Decoded.read ⟨0, 0, []⟩ 0 4
  if (List.range 4).map bp.vend ≠ rfc1533Cookie then d
  else
    let d := dhcpOptions bp.vend 4 d
    if d.msgType = DHCPREQUEST ∧ d.reqAddr = 0 ∧ bp.ciaddr ≠ 0 then
      { d with reqAddr := bp.ciaddr }
    else d

/-! ### Replies -/

/-- The bytes of an `s_addr` in memory. -/
def addrBytes (addr : UInt32) : List UInt8 := beBytes 4 (hostNat addr)

/-- An option with its value. -/
def option (tag : UInt8) (value : List UInt8) : List UInt8 :=
  tag :: UInt8.ofNat value.length :: value

abbrev LEASE_TIME : ℕ := 24 * 3600

/-- The options of a reply; `msgType` is `DHCPNAK` where there is no client. -/
def Network.replyOptions (msgType : UInt8) : List UInt8 :=
  rfc1533Cookie ++ option RFC2132_MSG_TYPE [msgType] ++
  (if msgType = DHCPNAK then option 56 "requested address not available".toUTF8.toList
  else
    option 54 (addrBytes net.vhostAddr) ++ option 1 (addrBytes net.vnetworkMask) ++
    (if net.restricted then []
    else option 3 (addrBytes net.vhostAddr) ++ option 6 (addrBytes net.vnameserverAddr)) ++
    option 51 (beBytes 4 LEASE_TIME) ++
    (if net.clientHostname = [] then [] else option 12 net.clientHostname)) ++
  [RFC1533_END]

/-- What is sent to `255.255.255.255`. -/
structure Reply where
  msgType : UInt8
  xid : UInt32
  hwaddr : Mac
  yiaddr : UInt32
  siaddr : UInt32
  file : List UInt8
  vend : List UInt8

/-- The label `new_addr`, and the copy of the hardware address behind it. -/
def newAddr (clients : Clients) (macaddr : Mac) : Option (UInt32 × Clients) :=
  (getNewAddr net clients macaddr).map fun r => (r.2.1, r.2.2.copyMac r.1 macaddr)

/-- `request_addr()`, and the copy of the hardware address where it succeeds. -/
def takeAddr (clients : Clients) (paddr : UInt32) (macaddr : Mac) : Option (UInt32 × Clients) :=
  (requestAddr net clients paddr macaddr).map fun r => (paddr, r.2.copyMac r.1 macaddr)

/-- The client's address in `daddr` and the type of the reply; `none` if no address is left. -/
def chooseAddr (clients : Clients) (msgType : UInt8) (preqAddr : UInt32) (macaddr : Mac) :
    Option (UInt8 × UInt32 × Clients) :=
  if msgType = DHCPDISCOVER then
    ((if preqAddr ≠ 0 then takeAddr net clients preqAddr macaddr else none).orElse fun _ =>
      newAddr net clients macaddr).map (DHCPOFFER, ·)
  else if preqAddr ≠ 0 then
    match takeAddr net clients preqAddr macaddr with
    | some r => some (DHCPACK, r)
    | none => some (DHCPNAK, 0xffffffff, clients)
  else
    (((findAddr net clients macaddr).map (·.2)).orElse fun _ =>
      newAddr net clients macaddr).map (DHCPACK, ·)

/-- `bootp_reply(slirp, bp)`; `mbuf` is whether `m_get()` returns one. There is no result where the
assertion of `arp_table_add()` fails. -/
def bootpReply (clients : Clients) (bp : Bootp) (mbuf : Bool) : Option (Clients × Option Reply) :=
  let d := dhcpDecode bp
  let msgType := if d.msgType = 0 then DHCPREQUEST else d.msgType
  if msgType ≠ DHCPDISCOVER ∧ msgType ≠ DHCPREQUEST then some (clients, none)
  else if ¬ mbuf then some (clients, none)
  else
    match chooseAddr net clients msgType d.reqAddr bp.hwaddr with
    | none => some (clients, none)
    | some (replyType, daddr, clients) =>
      if ArpAsserts daddr then none
      else some (clients, some {
        msgType := replyType
        xid := bp.xid
        hwaddr := bp.hwaddr
        yiaddr := daddr
        siaddr := net.vhostAddr
        file := if replyType = DHCPNAK then [] else (net.bootpFilename.getD []).take 127
        vend := net.replyOptions replyType })

/-- `bootp_input(m)` -/
def bootpInput (clients : Clients) (bp : Bootp) (mbuf : Bool) : Option (Clients × Option Reply) :=
  if bp.op = 1 then bootpReply net clients bp mbuf else some (clients, none)

/-! ### What is read -/

/-- The loop that is at an offset gets to another. -/
inductive OptionAt (vend : ℕ → UInt8) : ℕ → ℕ → Prop
  | here (p : ℕ) : OptionAt vend p p
  | pad {p o : ℕ} (hp : p < DHCP_OPT_LEN) (hpad : vend p = RFC1533_PAD)
      (rest : OptionAt vend (p + 1) o) : OptionAt vend p o
  | next {p o : ℕ} (hp : p + 1 < DHCP_OPT_LEN) (hpad : vend p ≠ RFC1533_PAD)
      (hend : vend p ≠ RFC1533_END) (rest : OptionAt vend (p + 2 + (vend (p + 1)).toNat) o) :
      OptionAt vend p o

/-- If the option at an offset is one whose value is read, then the value is not cut off by the end
of the field. -/
def ValueFits (vend : ℕ → UInt8) (o : ℕ) : Prop :=
  o + 1 < DHCP_OPT_LEN →
    (vend o = RFC2132_MSG_TYPE → 1 ≤ (vend (o + 1)).toNat → o + 3 ≤ DHCP_OPT_LEN) ∧
    (vend o = RFC2132_REQ_ADDR → 4 ≤ (vend (o + 1)).toNat → o + 6 ≤ DHCP_OPT_LEN)

/-- No type and no address of the options is cut off by the end of the field. -/
def OptionsFit (vend : ℕ → UInt8) : Prop :=
  (List.range 4).map vend = rfc1533Cookie → ∀ o, OptionAt vend 4 o → ValueFits vend o

/-- All that is read lies in the options field. -/
def Decoded.Inside (d : Decoded) : Prop := ∀ p ∈ d.reads, p < DHCP_OPT_LEN

lemma inside_read {d : Decoded} {p len : ℕ} (hlen : 0 < len) :
    (d.read p len).Inside ↔ d.Inside ∧ p + len ≤ DHCP_OPT_LEN := by
  simp only [Decoded.Inside, Decoded.read, List.mem_append, List.mem_map, List.mem_range]
  constructor
  · intro h
    have hlast := h (p + (len - 1)) (Or.inr ⟨len - 1, by omega, rfl⟩)
    exact ⟨fun q hq => h q (Or.inl hq), by omega⟩
  · rintro ⟨h, hp⟩ q (hq | ⟨i, hi, rfl⟩)
    · exact h q hq
    · omega

lemma inside_dhcpOption {vend : ℕ → UInt8} {o : ℕ} {d : Decoded} (ho : o + 1 < DHCP_OPT_LEN) :
    (dhcpOption vend (vend o) (vend (o + 1)).toNat (o + 2) (d.read o 2)).Inside ↔
      d.Inside ∧ ValueFits vend o := by
  have htype : ∀ (d : Decoded) (t : UInt8), Decoded.Inside { d with msgType := t } ↔ d.Inside :=
    fun d t => Iff.rfl
  have haddr : ∀ (d : Decoded) (a : UInt32), Decoded.Inside { d with reqAddr := a } ↔ d.Inside :=
    fun d a => Iff.rfl
  have hne : RFC2132_MSG_TYPE ≠ RFC2132_REQ_ADDR := by decide
  simp only [dhcpOption, ValueFits]
  split_ifs with hmsg hlen hreq hlen
  · rw [htype, inside_read one_pos, inside_read two_pos, hmsg]
    simp only [hne, hlen]
    grind
  · rw [inside_read two_pos, hmsg]
    simp only [hne]
    grind
  · rw [haddr, inside_read four_pos, inside_read two_pos, hreq]
    simp only [hne.symm, hlen]
    grind
  · rw [inside_read two_pos, hreq]
    simp only [hne.symm]
    grind
  · rw [inside_read two_pos]
    grind

/-- An offset from which no step is made. -/
lemma forall_optionAt_of_stop {vend : ℕ → UInt8} {p : ℕ}
    (hpad : ¬ (p < DHCP_OPT_LEN ∧ vend p = RFC1533_PAD))
    (hnext : ¬ (p + 1 < DHCP_OPT_LEN ∧ vend p ≠ RFC1533_PAD ∧ vend p ≠ RFC1533_END))
    {P : ℕ → Prop} : (∀ o, OptionAt vend p o → P o) ↔ P p := by
  refine ⟨fun h => h p (.here p), fun h o ho => ?_⟩
  cases ho with
  | here => exact h
  | pad hp hpad' => exact (hpad ⟨hp, hpad'⟩).elim
  | next hp hpad' hend => exact (hnext ⟨hp, hpad', hend⟩).elim

lemma valueFits_of_tag {vend : ℕ → UInt8} {p : ℕ}
    (h : vend p = RFC1533_PAD ∨ vend p = RFC1533_END ∨ DHCP_OPT_LEN ≤ p + 1) :
    ValueFits vend p := by
  intro hp
  rcases h with h | h | h
  · exact ⟨fun h' => by rw [h] at h'; exact absurd h' (by decide),
      fun h' => by rw [h] at h'; exact absurd h' (by decide)⟩
  · exact ⟨fun h' => by rw [h] at h'; exact absurd h' (by decide),
      fun h' => by rw [h] at h'; exact absurd h' (by decide)⟩
  · omega

lemma inside_dhcpOptions (vend : ℕ → UInt8) (p : ℕ) (d : Decoded) :
    (dhcpOptions vend p d).Inside ↔
      d.Inside ∧ ∀ o, OptionAt vend p o → ValueFits vend o := by
  induction p, d using dhcpOptions.induct vend with
  | case1 p d hp hpad ih =>
    rw [dhcpOptions, if_pos hp, if_pos hpad, ih, inside_read one_pos]
    have hself : ValueFits vend p := valueFits_of_tag (.inl hpad)
    constructor
    · rintro ⟨⟨hd, -⟩, hrest⟩
      refine ⟨hd, fun o ho => ?_⟩
      cases ho with
      | here => exact hself
      | pad _ _ rest => exact hrest o rest
      | next _ hpad' => exact (hpad' hpad).elim
    · exact fun ⟨hd, h⟩ => ⟨⟨hd, hp⟩, fun o ho => h o (.pad hp hpad ho)⟩
  | case2 p d hp hpad hend =>
    rw [dhcpOptions, if_pos hp, if_neg hpad, if_pos hend, inside_read one_pos,
      forall_optionAt_of_stop (fun h => hpad h.2) (fun h => h.2.2 hend)]
    exact and_congr_right fun _ => iff_of_true hp (valueFits_of_tag (.inr (.inl hend)))
  | case3 p d hp hpad hend hlast =>
    rw [dhcpOptions, if_pos hp, if_neg hpad, if_neg hend, if_pos hlast, inside_read one_pos,
      forall_optionAt_of_stop (fun h => hpad h.2) (fun h => by omega)]
    exact and_congr_right fun _ => iff_of_true hp (valueFits_of_tag (.inr (.inr hlast)))
  | case4 p d hp hpad hend hlast ih =>
    have hp' : p + 1 < DHCP_OPT_LEN := by omega
    rw [dhcpOptions, if_pos hp, if_neg hpad, if_neg hend, if_neg hlast, ih, inside_dhcpOption hp']
    constructor
    · rintro ⟨⟨hd, hself⟩, hrest⟩
      refine ⟨hd, fun o ho => ?_⟩
      cases ho with
      | here => exact hself
      | pad _ hpad' => exact (hpad hpad').elim
      | next _ _ _ rest => exact hrest o rest
    · exact fun ⟨hd, h⟩ => ⟨⟨hd, h p (.here p)⟩, fun o ho => h o (.next hp' hpad hend ho)⟩
  | case5 p d hp =>
    rw [dhcpOptions, if_neg hp,
      forall_optionAt_of_stop (fun h => hp h.1) (fun h => by omega)]
    exact (and_iff_left (valueFits_of_tag (.inr (.inr (by omega))))).symm

/-- A packet is read inside its options field exactly if its options fit. -/
lemma inside_dhcpDecode (bp : Bootp) : (dhcpDecode bp).Inside ↔ OptionsFit bp.vend := by
  have hcookie : Decoded.Inside (Decoded.read ⟨0, 0, []⟩ 0 4) := by
    rw [inside_read four_pos]
    exact ⟨fun p hp => absurd hp List.not_mem_nil, by decide⟩
  have haddr : ∀ (d : Decoded) (a : UInt32), Decoded.Inside { d with reqAddr := a } ↔ d.Inside :=
    fun d a => Iff.rfl
  simp only [dhcpDecode, OptionsFit]
  split_ifs with h
  · exact iff_of_true hcookie fun h' => (h h').elim
  · rw [haddr, inside_dhcpOptions]
    simp [hcookie, not_not.mp h]
  · rw [inside_dhcpOptions]
    simp [hcookie, not_not.mp h]

/-! ### Leases -/

/-- The sixteen addresses differ in the last octet only, and there is one behind them. -/
def Network.Fits : Prop :=
  hostNat net.vdhcpStartaddr % 256 + 15 < 256 ∧ hostNat net.vdhcpStartaddr + 16 < 2 ^ 32

instance : Decidable net.Fits := inferInstanceAs (Decidable (_ ∧ _))

variable {net} {clients clients' : Clients} {macaddr : Mac} {paddr : UInt32}

/-- The index of a client and its address are computed from each other. -/
lemma hostNat_slotAddr (h : net.Fits) (i : Fin NB_BOOTP_CLIENTS) :
    hostNat (net.slotAddr i) = hostNat net.vdhcpStartaddr + i := by
  obtain ⟨a, b, c, d, hlt, hstart, hhost⟩ := exists_octets net.vdhcpStartaddr
  obtain ⟨a', b', c', d', hlt', haddr, hhost'⟩ := exists_octets (net.slotAddr i)
  have hi : (i : ℕ) < 16 := i.isLt
  have hindex : ∀ i : Fin NB_BOOTP_CLIENTS, (htonl (UInt32.ofNat i)).toNat = i * 2 ^ 24 := by
    decide
  have hd : d + i < 256 := by
    have hlast := h.1
    have : hostNat net.vdhcpStartaddr % 256 = d := by
      rw [hhost]
      omega
    omega
  have hsum : (net.slotAddr i).toNat = a + b * 256 + c * 2 ^ 16 + (d + i) * 2 ^ 24 := by
    rw [Network.slotAddr, UInt32.toNat_add, hindex, hstart]
    omega
  have ha' : a' = a := by omega
  have hb' : b' = b := by omega
  have hc' : c' = c := by omega
  omega

lemma slotAddr_injective (h : net.Fits) : Function.Injective net.slotAddr := by
  intro i j hij
  have := congrArg hostNat hij
  rw [hostNat_slotAddr h, hostNat_slotAddr h] at this
  exact Fin.ext (by omega)

/-- The addresses that `request_addr()` accepts. -/
lemma eq_slotAddr (h : net.Fits) (hge : htonl paddr ≥ htonl net.vdhcpStartaddr)
    {i : Fin NB_BOOTP_CLIENTS} (hi : (i : ℕ) = (htonl paddr - htonl net.vdhcpStartaddr).toNat) :
    paddr = net.slotAddr i := by
  apply hostNat_injective
  rw [hostNat_slotAddr h, hi, UInt32.toNat_sub_of_le _ _ hge]
  exact (Nat.add_sub_of_le (UInt32.le_iff_toNat_le.mp hge)).symm

lemma slotAddr_requested (h : net.Fits) (i : Fin NB_BOOTP_CLIENTS) :
    htonl (net.slotAddr i) ≥ htonl net.vdhcpStartaddr ∧
      htonl (net.slotAddr i) < htonl net.vdhcpStartaddr + UInt32.ofNat NB_BOOTP_CLIENTS := by
  have haddr := hostNat_slotAddr h i
  have hend := h.2
  have hi : (i : ℕ) < 16 := i.isLt
  simp only [hostNat] at haddr hend
  constructor
  · exact UInt32.le_iff_toNat_le.mpr (by omega)
  · rw [UInt32.lt_iff_toNat_lt, UInt32.toNat_add, UInt32.toNat_ofNat', NB_BOOTP_CLIENTS]
    omega

/-- A client is kept as it is once it is allocated. -/
def Keeps (clients clients' : Clients) : Prop :=
  ∀ i : Fin NB_BOOTP_CLIENTS, clients[i].allocated ≠ 0 →
    clients'[i].allocated ≠ 0 ∧ clients'[i].macaddr = clients[i].macaddr

lemma Keeps.refl (clients : Clients) : Keeps clients clients := fun _ h => ⟨h, rfl⟩

/-- An address belongs to a client that has the hardware address. -/
def Holds (net : Network) (clients : Clients) (addr : UInt32) (macaddr : Mac) : Prop :=
  ∃ i : Fin NB_BOOTP_CLIENTS,
    addr = net.slotAddr i ∧ clients[i].allocated ≠ 0 ∧ clients[i].macaddr = macaddr

lemma Holds.keep {addr : UInt32} (h : Holds net clients addr macaddr)
    (hkeeps : Keeps clients clients') : Holds net clients' addr macaddr := by
  obtain ⟨i, haddr, halloc, hmac⟩ := h
  exact ⟨i, haddr, (hkeeps i halloc).1, (hkeeps i halloc).2.trans hmac⟩

lemma Holds.hostNat_mem {addr : UInt32} (hfits : net.Fits) (h : Holds net clients addr macaddr) :
    hostNat net.vdhcpStartaddr ≤ hostNat addr ∧
      hostNat addr < hostNat net.vdhcpStartaddr + NB_BOOTP_CLIENTS := by
  obtain ⟨i, rfl, -⟩ := h
  rw [hostNat_slotAddr hfits]
  omega

lemma Holds.unique {addr : UInt32} {macaddr' : Mac} (hfits : net.Fits)
    (h : Holds net clients addr macaddr) (h' : Holds net clients addr macaddr') :
    macaddr = macaddr' := by
  obtain ⟨i, rfl, -, hmac⟩ := h
  obtain ⟨j, haddr, -, hmac'⟩ := h'
  obtain rfl := slotAddr_injective hfits haddr
  rw [← hmac, hmac']

lemma allocate_keeps (clients : Clients) (i : Fin NB_BOOTP_CLIENTS) :
    Keeps clients (clients.allocate i) := by
  intro j hj
  by_cases hij : (i : ℕ) = j
  · obtain rfl := Fin.ext hij
    simp [Clients.allocate]
  · simpa [Clients.allocate, Vector.getElem_set_ne, hij] using hj

/-- A client that is taken for a hardware address, which is then copied to it. -/
lemma copyMac_allocate (net : Network) (i : Fin NB_BOOTP_CLIENTS) (h : clients.Usable i macaddr) :
    Keeps clients ((clients.allocate i).copyMac i macaddr) ∧
      Holds net ((clients.allocate i).copyMac i macaddr) (net.slotAddr i) macaddr := by
  constructor
  · intro j hj
    by_cases hij : (i : ℕ) = j
    · obtain rfl := Fin.ext hij
      have hmac := h.resolve_left hj
      simp [Clients.copyMac, Clients.allocate, hmac]
    · simpa [Clients.copyMac, Clients.allocate, Vector.getElem_set_ne, hij] using hj
  · exact ⟨i, rfl, by simp [Clients.copyMac, Clients.allocate], by simp [Clients.copyMac]⟩

lemma newAddr_spec {daddr : UInt32} (h : newAddr net clients macaddr = some (daddr, clients')) :
    Keeps clients clients' ∧ Holds net clients' daddr macaddr := by
  simp only [newAddr, getNewAddr, Option.map_map, Option.map_eq_some_iff, Function.comp_apply,
    Prod.mk.injEq] at h
  obtain ⟨i, hfind, rfl, rfl⟩ := h
  exact copyMac_allocate net i (by simpa using List.find?_some hfind)

lemma takeAddr_spec (hfits : net.Fits) {daddr : UInt32}
    (h : takeAddr net clients paddr macaddr = some (daddr, clients')) :
    Keeps clients clients' ∧ Holds net clients' daddr macaddr := by
  simp only [takeAddr, requestAddr, Option.map_eq_some_iff, Prod.mk.injEq] at h
  obtain ⟨⟨i, m⟩, hreq, rfl, rfl⟩ := h
  split_ifs at hreq with hrange husable
  cases hreq
  have hspec := copyMac_allocate net _ husable
  rwa [← eq_slotAddr hfits hrange.1 rfl] at hspec

lemma findAddr_spec {i : Fin NB_BOOTP_CLIENTS} {daddr : UInt32}
    (h : findAddr net clients macaddr = some (i, daddr, clients')) :
    Keeps clients clients' ∧ Holds net clients' daddr macaddr := by
  simp only [findAddr, Option.map_eq_some_iff, Prod.mk.injEq] at h
  obtain ⟨j, hfind, rfl, rfl, rfl⟩ := h
  have hmac : macaddr = clients[j].macaddr := by simpa using List.find?_some hfind
  exact ⟨allocate_keeps clients j, j, rfl, by simp [Clients.allocate],
    by simp [Clients.allocate, hmac]⟩

/-- What every choice of an address does: no client loses what it has, and where the reply is not a
refusal its address belongs to the client. -/
lemma chooseAddr_spec (hfits : net.Fits) {msgType replyType : UInt8} {preqAddr daddr : UInt32}
    (h : chooseAddr net clients msgType preqAddr macaddr = some (replyType, daddr, clients')) :
    Keeps clients clients' ∧ (replyType ≠ DHCPNAK → Holds net clients' daddr macaddr) := by
  have hor : ∀ {o o' : Option (UInt32 × Clients)} {t : UInt8},
      (o.orElse fun _ => o').map (t, ·) = some (replyType, daddr, clients') →
      o = some (daddr, clients') ∨ o' = some (daddr, clients') := by
    intro o o' t h
    cases o <;> simp_all
  unfold chooseAddr at h
  split_ifs at h with hdisc hpreq hpreq
  · rcases hor h with h | h
    · exact (takeAddr_spec hfits h).imp_right fun h _ => h
    · exact (newAddr_spec h).imp_right fun h _ => h
  · rcases hor h with h | h
    · cases h
    · exact (newAddr_spec h).imp_right fun h _ => h
  · cases htake : takeAddr net clients preqAddr macaddr with
    | some r =>
      rw [htake] at h
      cases h
      exact (takeAddr_spec hfits htake).imp_right fun h _ => h
    | none =>
      rw [htake] at h
      cases h
      exact ⟨.refl clients, fun h => (h rfl).elim⟩
  · rcases hor h with h | h
    · rw [Option.map_eq_some_iff] at h
      obtain ⟨⟨i, r⟩, hfind, rfl⟩ := h
      exact (findAddr_spec hfind).imp_right fun h _ => h
    · exact (newAddr_spec h).imp_right fun h _ => h

/-- A request for an address that belongs to the client is accepted. -/
lemma takeAddr_of_holds (hfits : net.Fits) (h : Holds net clients paddr macaddr) :
    ∃ clients', takeAddr net clients paddr macaddr = some (paddr, clients') := by
  obtain ⟨i, rfl, halloc, hmac⟩ := h
  have hrange := slotAddr_requested hfits i
  have hindex : i = ⟨_, requestAddr_index hrange.1 hrange.2⟩ :=
    slotAddr_injective hfits (eq_slotAddr hfits hrange.1 rfl)
  have husable : clients.Usable i macaddr := .inr hmac.symm
  rw [hindex] at husable
  simp only [takeAddr, requestAddr, dif_pos hrange]
  rw [if_pos husable]
  exact ⟨_, rfl⟩

/-! ### Runs -/

/-- The clients, and the replies that have been sent so far. -/
structure Server where
  clients : Clients
  replies : List Reply

def Server.init : Server := ⟨.init, []⟩

/-- A message comes in; `mbuf` is whether there is one for the reply. -/
structure Arrival where
  bp : Bootp
  mbuf : Bool

/-- One message. The program ends where an assertion fails. -/
def serve (net : Network) (s : Server) (e : Arrival) : Option Server :=
  (bootpInput net s.clients e.bp e.mbuf).map fun r => ⟨r.1, s.replies ++ r.2.toList⟩

/-- The client asks for an address. -/
structure Requests (bp : Bootp) (macaddr : Mac) (addr : UInt32) : Prop where
  op : bp.op = 1
  mac : bp.hwaddr = macaddr
  msgType : (dhcpDecode bp).msgType = DHCPREQUEST
  reqAddr : (dhcpDecode bp).reqAddr = addr

/-- What the clients can rely on. An address is leased from the offer on, and for ever. -/
structure Leases (net : Network) (s : Server) : Prop where
  accepted : ∀ r ∈ s.replies, r.msgType = DHCPOFFER → ∀ bp, Requests bp r.hwaddr r.yiaddr →
    ∃ clients' r', bootpInput net s.clients bp true = some (clients', some r') ∧
      r'.msgType = DHCPACK ∧ r'.hwaddr = r.hwaddr ∧ r'.yiaddr = r.yiaddr
  exclusive : ∀ r ∈ s.replies, ∀ r' ∈ s.replies, r.msgType ≠ DHCPNAK → r'.msgType ≠ DHCPNAK →
    r.yiaddr = r'.yiaddr → r.hwaddr = r'.hwaddr
  inRange : ∀ r ∈ s.replies, r.msgType ≠ DHCPNAK →
    hostNat net.vdhcpStartaddr ≤ hostNat r.yiaddr ∧
      hostNat r.yiaddr < hostNat net.vdhcpStartaddr + NB_BOOTP_CLIENTS

/-- What was leased belongs to the client it was leased to, and no assertion failed for it. -/
def Held (net : Network) (s : Server) : Prop :=
  ∀ r ∈ s.replies, r.msgType ≠ DHCPNAK →
    Holds net s.clients r.yiaddr r.hwaddr ∧ ¬ ArpAsserts r.yiaddr

lemma bootpReply_spec (hfits : net.Fits) {bp : Bootp} {mbuf : Bool} {r : Option Reply}
    (h : bootpReply net clients bp mbuf = some (clients', r)) :
    Keeps clients clients' ∧ ∀ r' ∈ r, r'.msgType ≠ DHCPNAK →
      Holds net clients' r'.yiaddr r'.hwaddr ∧ ¬ ArpAsserts r'.yiaddr := by
  unfold bootpReply at h
  dsimp only at h
  generalize (if (dhcpDecode bp).msgType = 0 then DHCPREQUEST else (dhcpDecode bp).msgType) = t at h
  by_cases htype : t ≠ DHCPDISCOVER ∧ t ≠ DHCPREQUEST
  · rw [if_pos htype] at h
    cases h
    exact ⟨.refl _, nofun⟩
  rw [if_neg htype] at h
  by_cases hmbuf : ¬ mbuf
  · rw [if_pos hmbuf] at h
    cases h
    exact ⟨.refl _, nofun⟩
  · rw [if_neg hmbuf] at h
    cases hchoose : chooseAddr net clients t (dhcpDecode bp).reqAddr bp.hwaddr with
    | none =>
      rw [hchoose] at h
      cases h
      exact ⟨.refl _, nofun⟩
    | some c =>
      obtain ⟨replyType, daddr, m⟩ := c
      rw [hchoose] at h
      dsimp only at h
      by_cases harp : ArpAsserts daddr
      · rw [if_pos harp] at h
        cases h
      rw [if_neg harp] at h
      cases h
      obtain ⟨hkeeps, hholds⟩ := chooseAddr_spec hfits hchoose
      refine ⟨hkeeps, fun r' hr' hack => ?_⟩
      cases hr'
      exact ⟨hholds hack, harp⟩

lemma held_serve (hfits : net.Fits) {s s' : Server} {e : Arrival} (h : Held net s)
    (hserve : serve net s e = some s') : Held net s' := by
  simp only [serve, bootpInput, Option.map_eq_some_iff] at hserve
  obtain ⟨⟨clients', r⟩, hreply, rfl⟩ := hserve
  obtain ⟨hkeeps, hnew⟩ : Keeps s.clients clients' ∧ ∀ r' ∈ r, r'.msgType ≠ DHCPNAK →
      Holds net clients' r'.yiaddr r'.hwaddr ∧ ¬ ArpAsserts r'.yiaddr := by
    split_ifs at hreply with hop
    · exact bootpReply_spec hfits hreply
    · cases hreply
      exact ⟨.refl _, nofun⟩
  intro r' hr' hack
  rcases List.mem_append.mp hr' with hr' | hr'
  · exact ⟨(h r' hr' hack).1.keep hkeeps, (h r' hr' hack).2⟩
  · exact hnew r' (Option.mem_toList.mp hr') hack

lemma bootpInput_of_holds (hfits : net.Fits) {bp : Bootp} (hreq : Requests bp macaddr paddr)
    (hholds : Holds net clients paddr macaddr) (harp : ¬ ArpAsserts paddr) :
    ∃ clients' r', bootpInput net clients bp true = some (clients', some r') ∧
      r'.msgType = DHCPACK ∧ r'.hwaddr = macaddr ∧ r'.yiaddr = paddr := by
  obtain ⟨hop, rfl, htype, rfl⟩ := hreq
  obtain ⟨clients', htake⟩ := takeAddr_of_holds hfits hholds
  have hzero : (dhcpDecode bp).reqAddr ≠ 0 := by
    intro h
    rw [h] at harp
    exact harp (by decide)
  have hchoose : chooseAddr net clients DHCPREQUEST (dhcpDecode bp).reqAddr bp.hwaddr =
      some (DHCPACK, (dhcpDecode bp).reqAddr, clients') := by
    simp only [chooseAddr]
    rw [if_neg (by decide), if_pos hzero, htake]
  have hreply : bootpReply net clients bp true =
      some (clients', some ⟨DHCPACK, bp.xid, bp.hwaddr, (dhcpDecode bp).reqAddr, net.vhostAddr,
        (net.bootpFilename.getD []).take 127, net.replyOptions DHCPACK⟩) := by
    simp only [bootpReply, htype]
    rw [if_neg (by decide : ¬ DHCPREQUEST = 0), if_neg (by decide), if_neg (by decide), hchoose]
    dsimp only
    rw [if_neg harp]
    rfl
  exact ⟨clients', _, by rw [bootpInput, if_pos hop, hreply], rfl, rfl, rfl⟩

lemma leases_of_held (hfits : net.Fits) {s : Server} (h : Held net s) : Leases net s where
  accepted r hr hoffer bp hreq := by
    obtain ⟨hholds, harp⟩ := h r hr (by rw [hoffer]; decide)
    exact bootpInput_of_holds hfits hreq hholds harp
  exclusive r hr r' hr' hack hack' haddr := by
    have hholds' := (h r' hr' hack').1
    rw [← haddr] at hholds'
    exact (h r hr hack).1.unique hfits hholds'
  inRange r hr hack := (h r hr hack).1.hostNat_mem hfits

/-- The network of `-net user,dhcpstart=`, with addresses in `10.0.2.0/24`. -/
def userNetwork (vdhcpStartaddr : UInt32) : Network where
  vdhcpStartaddr := vdhcpStartaddr
  vhostAddr := htonl 0x0a000202
  vnetworkMask := htonl 0xffffff00
  vnameserverAddr := htonl 0x0a000203
  restricted := false
  clientHostname := []
  bootpFilename := none

/-- A message of a client with some options. -/
def message (client : UInt8) (options : List UInt8) : Bootp where
  op := 1
  xid := 0
  ciaddr := 0
  hwaddr := #v[0x52, 0x54, 0, 0x12, 0x34, client]
  vend p := (rfc1533Cookie ++ options).getD p 0

def discover (client : UInt8) : Bootp := message client [RFC2132_MSG_TYPE, 1, DHCPDISCOVER, 255]

def request (client : UInt8) (addr : UInt32) : Bootp :=
  message client ([RFC2132_MSG_TYPE, 1, DHCPREQUEST, RFC2132_REQ_ADDR, 4] ++ addrBytes addr ++ [255])

/-- If the sixteen addresses fit, then the clients can rely on their leases, whatever messages have
come in. A message is read inside its options field exactly if its options fit. -/
theorem leases_stable (net : Network) (hfits : net.Fits) (arrivals : List Arrival) (s : Server)
    (hrun : run (serve net) .init arrivals = some s) :
    Leases net s ∧ ∀ e ∈ arrivals, ((dhcpDecode e.bp).Inside ↔ OptionsFit e.bp.vend) := by
  refine ⟨leases_of_held hfits ?_, fun e _ => inside_dhcpDecode e.bp⟩
  exact run_invariant (fun _ _ _ h hserve => held_serve hfits h hserve) (fun _ h => by cases h) hrun

/-- Two clients of the default network. -/
theorem leases_stable_two :
    ∃ s, run (serve (userNetwork (htonl 0x0a00020f))) .init
        [⟨discover 1, true⟩, ⟨request 1 (htonl 0x0a00020f), true⟩, ⟨discover 2, true⟩] = some s ∧
      Leases (userNetwork (htonl 0x0a00020f)) s ∧
      ∀ e ∈ ([⟨discover 1, true⟩, ⟨request 1 (htonl 0x0a00020f), true⟩, ⟨discover 2, true⟩] :
        List Arrival), ((dhcpDecode e.bp).Inside ↔ OptionsFit e.bp.vend) := by
  obtain ⟨s, hs⟩ := Option.isSome_iff_exists.mp (by decide +kernel :
    (run (serve (userNetwork (htonl 0x0a00020f))) .init
      [⟨discover 1, true⟩, ⟨request 1 (htonl 0x0a00020f), true⟩, ⟨discover 2, true⟩]).isSome)
  exact ⟨s, hs, leases_stable _ (by decide +kernel) _ s hs⟩

/-- From `10.0.2.250` on the seventh client is offered `10.0.2.0`, and it is refused that address
when it asks for it. Options may end so that a type behind them is read. -/
theorem not_leases_stable :
    (∃ s, run (serve (userNetwork (htonl 0x0a0002fa))) .init
        ((List.range 7).map fun k => ⟨discover (UInt8.ofNat k), true⟩) = some s ∧
      ¬ Leases (userNetwork (htonl 0x0a0002fa)) s) ∧
    ¬ (dhcpDecode (message 1 ([1, 255] ++ List.replicate 255 0 ++ [1, 47] ++ List.replicate 47 0 ++
      [RFC2132_MSG_TYPE, 1]))).Inside := by
  constructor
  · obtain ⟨s, hs⟩ := Option.isSome_iff_exists.mp (by decide +kernel :
      (run (serve (userNetwork (htonl 0x0a0002fa))) .init
        ((List.range 7).map fun k => ⟨discover (UInt8.ofNat k), true⟩)).isSome)
    refine ⟨s, hs, fun hleases => ?_⟩
    have hlast : ∀ s ∈ run (serve (userNetwork (htonl 0x0a0002fa))) .init
        ((List.range 7).map fun k => ⟨discover (UInt8.ofNat k), true⟩),
        ∃ r ∈ s.replies, r.msgType = DHCPOFFER ∧ r.hwaddr = (discover 6).hwaddr ∧
          r.yiaddr = htonl 0x0a000200 := by
      decide +kernel
    obtain ⟨r, hr, hoffer, hmac, haddr⟩ := hlast s hs
    have hrefused : ∀ s ∈ run (serve (userNetwork (htonl 0x0a0002fa))) .init
        ((List.range 7).map fun k => ⟨discover (UInt8.ofNat k), true⟩),
        ∀ c ∈ bootpInput (userNetwork (htonl 0x0a0002fa)) s.clients
          (request 6 (htonl 0x0a000200)) true, ∀ r' ∈ c.2, r'.msgType = DHCPNAK := by
      decide +kernel
    obtain ⟨clients', r', hreply, hack, -⟩ := hleases.accepted r hr hoffer
      (request 6 (htonl 0x0a000200)) ⟨rfl, hmac.symm, by decide +kernel, by
        rw [haddr]
        decide +kernel⟩
    rw [hrefused s hs _ hreply r' rfl] at hack
    exact absurd hack (by decide)
  · intro h
    exact absurd (h 312 (by decide +kernel)) (by decide)

end Limbo.Slirp
