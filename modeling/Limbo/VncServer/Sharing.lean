import Limbo.Lib.Keyed

/-!
# Shared and exclusive viewers

The share modes of the viewers of a display: they connect, ask for a mode in their ClientInit, and
are disconnected in two stages, by themselves or by the policy.
-/

namespace Limbo.VncServer

open Lib

inductive VncShareMode where
  | connecting | shared | exclusive | disconnected
deriving DecidableEq, Repr

inductive VncSharePolicy where
  | ignore | allowExclusive | forceShared
deriving DecidableEq, Repr

/-- What the policy looks at of a `struct VncState`; `id` stands for its address. -/
structure Viewer where
  id : ℕ
  csock : ℤ
  shareMode : VncShareMode
deriving DecidableEq, Repr

/-- The viewers of a display. The addresses below `nextId` have been given. -/
structure Viewers where
  clients : List Viewer
  numExclusive : ℤ
  sharePolicy : VncSharePolicy
  nextId : ℕ
deriving DecidableEq, Repr

namespace Viewers

def init (sharePolicy : VncSharePolicy) : Viewers := ⟨[], 0, sharePolicy, 0⟩

/-! ### What changes the modes -/

/-- `vnc_set_share_mode()`. -/
def vncSetShareMode (vd : Viewers) (vs : Viewer) (mode : VncShareMode) : Viewers :=
  let n := if vs.shareMode = .exclusive then vd.numExclusive - 1 else vd.numExclusive
  { vd with
    clients := modifyKey Viewer.id vs.id (fun vs => { vs with shareMode := mode }) vd.clients
    numExclusive := if mode = .exclusive then n + 1 else n }

/-- `vnc_disconnect_start()`. -/
def vncDisconnectStart (vd : Viewers) (vs : Viewer) : Viewers :=
  if vs.csock = -1 then vd
  else
    let vd := vd.vncSetShareMode vs .disconnected
    { vd with clients := modifyKey Viewer.id vs.id (fun vs => { vs with csock := -1 }) vd.clients }

/-- `vnc_disconnect_finish()`. -/
def vncDisconnectFinish (vd : Viewers) (vs : Viewer) : Viewers :=
  { vd with clients := vd.clients.filter fun client => client.id ≠ vs.id }

/-- `vnc_connect()`. -/
def vncConnect (vd : Viewers) (csock : ℕ) : Viewers :=
  { vd with clients := ⟨vd.nextId, csock, .connecting⟩ :: vd.clients, nextId := vd.nextId + 1 }

/-- The other viewers with a mode are disconnected. -/
def disconnectOthers (vd : Viewers) (vs : Viewer) : Viewers :=
  vd.clients.foldl (fun vd client =>
    if vs.id = client.id then vd
    else if client.shareMode ≠ .exclusive ∧ client.shareMode ≠ .shared then vd
    else vd.vncDisconnectStart client) vd

/-- The end of `protocol_client_init()`: the viewer gets its mode and is told of the display, which
disconnects it if `vnc_flush()` fails. -/
def accept (vd : Viewers) (vs : Viewer) (mode : VncShareMode) (flushed : Bool) : Viewers :=
  let vd := vd.vncSetShareMode vs mode
  if flushed then vd else vd.vncDisconnectStart { vs with shareMode := mode }

/-- `protocol_client_init()`. -/
def protocolClientInit (vd : Viewers) (vs : Viewer) (data : UInt8) (flushed : Bool) : Viewers :=
  let mode : VncShareMode := if data ≠ 0 then .shared else .exclusive
  match vd.sharePolicy with
  | .ignore => vd.accept vs mode flushed
  | .allowExclusive =>
    let vd := if mode = .exclusive then vd.disconnectOthers vs else vd
    if mode = .shared ∧ vd.numExclusive > 0 then vd.vncDisconnectStart vs
    else vd.accept vs mode flushed
  | .forceShared =>
    if mode = .exclusive then vd.vncDisconnectStart vs else vd.accept vs mode flushed

/-! ### Runs -/

inductive Event where
  | connect (csock : ℕ)
  /-- The ClientInit of a viewer. -/
  | clientInit (vs : Viewer) (data : UInt8) (flushed : Bool)
  /-- An error of the viewer, or it closes the connection. -/
  | disconnect (vs : Viewer)
  /-- The rest of a disconnected viewer is removed. -/
  | finish (vs : Viewer)

/-- The viewers after an event, if it can happen to them. -/
inductive Step (vd : Viewers) : Event → Viewers → Prop
  | connect (csock : ℕ) : Step vd (.connect csock) (vd.vncConnect csock)
  | clientInit {vs : Viewer} (hvs : vs ∈ vd.clients) (hsock : vs.csock ≠ -1) (data : UInt8)
      (flushed : Bool) :
      Step vd (.clientInit vs data flushed) (vd.protocolClientInit vs data flushed)
  | disconnect {vs : Viewer} (hvs : vs ∈ vd.clients) :
      Step vd (.disconnect vs) (vd.vncDisconnectStart vs)
  | finish {vs : Viewer} (hvs : vs ∈ vd.clients) (hsock : vs.csock = -1) :
      Step vd (.finish vs) (vd.vncDisconnectFinish vs)

inductive Run : Viewers → List Event → Viewers → Prop
  | nil (vd : Viewers) : Run vd [] vd
  | cons {e : Event} {es : List Event} {vd vd₁ vd₂ : Viewers} (first : vd.Step e vd₁)
      (rest : Run vd₁ es vd₂) : Run vd (e :: es) vd₂

/-! ### The counter -/

/-- The counter is right, and the closed sockets are those of the disconnected viewers. -/
structure Counted (vd : Viewers) : Prop where
  nodup : (vd.clients.map Viewer.id).Nodup
  fresh : ∀ vs ∈ vd.clients, vs.id < vd.nextId
  closed : ∀ vs ∈ vd.clients, vs.csock = -1 ↔ vs.shareMode = .disconnected
  count : vd.numExclusive = vd.clients.countP fun vs => vs.shareMode = .exclusive

variable {vd vd' : Viewers} {vs client : Viewer} {mode : VncShareMode}

/-- A viewer is its address. -/
lemma Counted.eq_of_id (h : vd.Counted) (hvs : vs ∈ vd.clients) (hclient : client ∈ vd.clients)
    (hid : client.id = vs.id) : client = vs :=
  List.inj_on_of_nodup_map h.nodup hclient hvs hid

/-- The counter follows a viewer that changes. -/
lemma Counted.modify (h : vd.Counted) (hvs : vs ∈ vd.clients) {f : Viewer → Viewer}
    (hid : ∀ a, (f a).id = a.id)
    (hclosed : (f vs).csock = -1 ↔ (f vs).shareMode = .disconnected) {n : ℤ}
    (hn : n + (if vs.shareMode = .exclusive then 1 else 0) =
      vd.numExclusive + if (f vs).shareMode = .exclusive then 1 else 0) :
    Counted { vd with clients := modifyKey Viewer.id vs.id f vd.clients, numExclusive := n } where
  nodup := by rw [map_key_modifyKey hid]; exact h.nodup
  fresh b hb := by
    rcases mem_modifyKey.mp hb with ⟨hb, -⟩ | ⟨a, ha, -, rfl⟩
    · exact h.fresh b hb
    · exact hid a ▸ h.fresh a ha
  closed b hb := by
    rcases mem_modifyKey.mp hb with ⟨hb, -⟩ | ⟨a, ha, hkey, rfl⟩
    · exact h.closed b hb
    · rw [h.eq_of_id hvs ha hkey]
      exact hclosed
  count := by
    have hcount := countP_modifyKey (f := f) h.nodup hvs fun vs => vs.shareMode = .exclusive
    have hold := h.count
    simp only [decide_eq_true_eq] at hcount
    dsimp only
    split_ifs at hn hcount <;> omega

/-- A viewer that is disconnected. -/
def close (vs : Viewer) : Viewer := { vs with shareMode := .disconnected, csock := -1 }

lemma vncDisconnectStart_eq (hsock : vs.csock ≠ -1) : vd.vncDisconnectStart vs =
    { vd with
      clients := modifyKey Viewer.id vs.id close vd.clients
      numExclusive :=
        if vs.shareMode = .exclusive then vd.numExclusive - 1 else vd.numExclusive } := by
  have hclients : modifyKey Viewer.id vs.id (fun vs => { vs with csock := -1 })
      (modifyKey Viewer.id vs.id (fun vs => { vs with shareMode := .disconnected }) vd.clients) =
      modifyKey Viewer.id vs.id close vd.clients :=
    modifyKey_modifyKey fun _ => by rfl
  rw [vncDisconnectStart, if_neg hsock]
  simp only [vncSetShareMode, hclients]
  rfl

lemma sharePolicy_vncDisconnectStart : (vd.vncDisconnectStart vs).sharePolicy = vd.sharePolicy := by
  unfold vncDisconnectStart
  split_ifs <;> rfl

/-- Whoever is there after the disconnection of a viewer was there before, or is that viewer. -/
lemma mem_vncDisconnectStart (h : vd.Counted) (hvs : vs ∈ vd.clients) {b : Viewer}
    (hb : b ∈ (vd.vncDisconnectStart vs).clients) :
    b.shareMode = .disconnected ∨ b ∈ vd.clients ∧ b.id ≠ vs.id := by
  by_cases hsock : vs.csock = -1
  · rw [vncDisconnectStart, if_pos hsock] at hb
    by_cases hid : b.id = vs.id
    · rw [h.eq_of_id hvs hb hid]
      exact .inl ((h.closed vs hvs).mp hsock)
    · exact .inr ⟨hb, hid⟩
  · rw [vncDisconnectStart_eq hsock] at hb
    rcases mem_modifyKey.mp hb with hb | ⟨a, -, -, rfl⟩
    · exact .inr hb
    · exact .inl rfl

/-- The other viewers stay. -/
lemma mem_vncDisconnectStart_of_ne {b : Viewer} (hb : b ∈ vd.clients) (hid : b.id ≠ vs.id) :
    b ∈ (vd.vncDisconnectStart vs).clients := by
  by_cases hsock : vs.csock = -1
  · rwa [vncDisconnectStart, if_pos hsock]
  · rw [vncDisconnectStart_eq hsock]
    exact mem_modifyKey.mpr (.inl ⟨hb, hid⟩)

lemma Counted.vncDisconnectStart (h : vd.Counted) (hvs : vs ∈ vd.clients) :
    (vd.vncDisconnectStart vs).Counted := by
  by_cases hsock : vs.csock = -1
  · rwa [Viewers.vncDisconnectStart, if_pos hsock]
  · rw [vncDisconnectStart_eq hsock]
    refine h.modify (f := close) hvs (fun _ => rfl) ⟨fun _ => rfl, fun _ => rfl⟩ ?_
    simp only [close]
    split_ifs <;> simp_all

lemma Counted.vncSetShareMode (h : vd.Counted) (hvs : vs ∈ vd.clients) (hsock : vs.csock ≠ -1)
    (hmode : mode ≠ .disconnected) : (vd.vncSetShareMode vs mode).Counted := by
  refine h.modify (f := fun vs => { vs with shareMode := mode }) hvs (fun _ => rfl)
    ⟨fun h => absurd h hsock, fun h => absurd h hmode⟩ ?_
  split_ifs <;> omega

/-! ### The policy -/

/-- The viewer asks for the display for itself or for others too. -/
def Present (vs : Viewer) : Prop := vs.shareMode = .exclusive ∨ vs.shareMode = .shared

instance (vs : Viewer) : Decidable (Present vs) := inferInstanceAs (Decidable (_ ∨ _))

/-- An exclusive viewer is alone. -/
def Alone (vd : Viewers) : Prop :=
  ∀ a ∈ vd.clients, a.shareMode = .exclusive → ∀ b ∈ vd.clients, b.id ≠ a.id → ¬ Present b

lemma Alone.vncDisconnectStart (h : vd.Counted) (halone : vd.Alone) (hvs : vs ∈ vd.clients) :
    (vd.vncDisconnectStart vs).Alone := by
  intro a ha hexclusive b hb hid
  rcases mem_vncDisconnectStart h hvs ha with hclosed | ⟨ha, -⟩
  · rw [hclosed] at hexclusive
    cases hexclusive
  · rcases mem_vncDisconnectStart h hvs hb with hclosed | ⟨hb, -⟩
    · simp [Present, hclosed]
    · exact halone a ha hexclusive b hb hid

/-- The loop over the viewers `l` that are still to come. -/
lemma foldl_disconnect (vs : Viewer) {l : List Viewer} (h : vd.Counted) (hl : ∀ c ∈ l, c ∈ vd.clients)
    (hnodup : (l.map Viewer.id).Nodup) :
    let vd' := l.foldl (fun vd client =>
      if vs.id = client.id then vd
      else if client.shareMode ≠ .exclusive ∧ client.shareMode ≠ .shared then vd
      else vd.vncDisconnectStart client) vd
    vd'.Counted ∧ vd'.sharePolicy = vd.sharePolicy ∧
      (∀ b ∈ vd.clients, b.id = vs.id → b ∈ vd'.clients) ∧
      ∀ b ∈ vd'.clients, b.shareMode = .disconnected ∨
        b ∈ vd.clients ∧ (b ∈ l → b.id ≠ vs.id → ¬ Present b) := by
  induction l generalizing vd with
  | nil => exact ⟨h, rfl, fun b hb _ => hb, fun b hb => .inr ⟨hb, fun hnil => by cases hnil⟩⟩
  | cons c l ih =>
    obtain ⟨hc, hl⟩ := List.forall_mem_cons.mp hl
    obtain ⟨hcl, hnodup⟩ := List.nodup_cons.mp hnodup
    rw [List.foldl_cons]
    have hskip : ∀ {b}, (b ∈ l → b.id ≠ vs.id → ¬ Present b) →
        (c.id ≠ vs.id → ¬ Present c) → b ∈ c :: l → b.id ≠ vs.id → ¬ Present b := by
      intro b hb hc' hmem
      rcases List.mem_cons.mp hmem with rfl | hmem
      · exact hc'
      · exact hb hmem
    by_cases hself : vs.id = c.id
    · rw [if_pos hself]
      obtain ⟨hcounted, hpolicy, hkept, hrest⟩ := ih h hl hnodup
      refine ⟨hcounted, hpolicy, hkept, fun b hb => (hrest b hb).imp_right fun hb => ?_⟩
      exact ⟨hb.1, hskip hb.2 fun hne => absurd hself.symm hne⟩
    rw [if_neg hself]
    by_cases hpresent : c.shareMode ≠ .exclusive ∧ c.shareMode ≠ .shared
    · rw [if_pos hpresent]
      obtain ⟨hcounted, hpolicy, hkept, hrest⟩ := ih h hl hnodup
      refine ⟨hcounted, hpolicy, hkept, fun b hb => (hrest b hb).imp_right fun hb => ?_⟩
      exact ⟨hb.1, hskip hb.2 fun _ => by simpa [Present] using hpresent⟩
    · rw [if_neg hpresent]
      have hne : ∀ b ∈ l, b.id ≠ c.id := fun b hb hid =>
        hcl (List.mem_map.mpr ⟨b, hb, hid⟩)
      obtain ⟨hcounted, hpolicy, hkept, hrest⟩ := ih (h.vncDisconnectStart hc)
        (fun b hb => mem_vncDisconnectStart_of_ne (hl b hb) (hne b hb)) hnodup
      refine ⟨hcounted, hpolicy.trans sharePolicy_vncDisconnectStart, fun b hb hid => ?_,
        fun b hb => ?_⟩
      · exact hkept b (mem_vncDisconnectStart_of_ne hb fun h => hself (hid.symm.trans h)) hid
      · rcases hrest b hb with hclosed | ⟨hb, hb'⟩
        · exact .inl hclosed
        · refine (mem_vncDisconnectStart h hc hb).imp_right fun hold => ⟨hold.1, fun hmem => ?_⟩
          rcases List.mem_cons.mp hmem with rfl | hmem
          · exact absurd rfl hold.2
          · exact hb' hmem

lemma Counted.disconnectOthers (h : vd.Counted) : (vd.disconnectOthers vs).Counted :=
  (foldl_disconnect vs h (fun _ hc => hc) h.nodup).1

lemma sharePolicy_disconnectOthers (h : vd.Counted) :
    (vd.disconnectOthers vs).sharePolicy = vd.sharePolicy :=
  (foldl_disconnect vs h (fun _ hc => hc) h.nodup).2.1

lemma mem_disconnectOthers (h : vd.Counted) (hvs : vs ∈ vd.clients) :
    vs ∈ (vd.disconnectOthers vs).clients :=
  (foldl_disconnect vs h (fun _ hc => hc) h.nodup).2.2.1 vs hvs rfl

/-- No other viewer has a mode any more. -/
lemma not_present_disconnectOthers (h : vd.Counted) {b : Viewer}
    (hb : b ∈ (vd.disconnectOthers vs).clients) (hid : b.id ≠ vs.id) : ¬ Present b := by
  obtain ⟨-, -, -, hrest⟩ := foldl_disconnect vs h (fun _ hc => hc) h.nodup
  rcases hrest b hb with hclosed | ⟨hb, hpresent⟩
  · simp [Present, hclosed]
  · exact hpresent hb hid

/-- Without the counter there is no exclusive viewer. -/
lemma Counted.not_exclusive (h : vd.Counted) (hcount : ¬ vd.numExclusive > 0)
    (hvs : vs ∈ vd.clients) : vs.shareMode ≠ .exclusive := by
  intro hexclusive
  have hpos : 0 < vd.clients.countP fun vs => vs.shareMode = .exclusive :=
    List.countP_pos_iff.mpr ⟨vs, hvs, decide_eq_true hexclusive⟩
  have := h.count
  omega

/-- After the mode of a viewer has been set. -/
lemma mem_vncSetShareMode (h : vd.Counted) (hvs : vs ∈ vd.clients) {b : Viewer}
    (hb : b ∈ (vd.vncSetShareMode vs mode).clients) :
    b = { vs with shareMode := mode } ∨ b ∈ vd.clients ∧ b.id ≠ vs.id := by
  rcases mem_modifyKey.mp hb with hb | ⟨a, ha, hkey, rfl⟩
  · exact .inr hb
  · rw [h.eq_of_id hvs ha hkey]
    exact .inl rfl

/-- A viewer gets a mode that the other viewers let it have. -/
lemma Alone.vncSetShareMode (h : vd.Counted) (halone : vd.Alone) (hvs : vs ∈ vd.clients)
    (hexclusive : mode = .exclusive → ∀ b ∈ vd.clients, b.id ≠ vs.id → ¬ Present b)
    (hshared : mode = .shared → ∀ b ∈ vd.clients, b.shareMode ≠ .exclusive)
    (hmode : mode = .exclusive ∨ mode = .shared) : (vd.vncSetShareMode vs mode).Alone := by
  intro a ha haexclusive b hb hid
  rcases mem_vncSetShareMode h hvs ha with rfl | ⟨ha, haid⟩
  · rcases mem_vncSetShareMode h hvs hb with rfl | ⟨hb, -⟩
    · exact absurd rfl hid
    · exact hexclusive haexclusive b hb hid
  · rcases mem_vncSetShareMode h hvs hb with rfl | ⟨hb, hbid⟩
    · rcases hmode with rfl | rfl
      · exact absurd (.inl haexclusive) (hexclusive rfl a ‹_› haid)
      · exact absurd haexclusive (hshared rfl a ‹_›)
    · exact halone a ha haexclusive b hb hid

/-! ### Every run -/

/-- What holds of the viewers at any time. -/
structure Inv (vd : Viewers) : Prop where
  counted : vd.Counted
  alone : vd.sharePolicy = .allowExclusive → vd.Alone

lemma inv_init (sharePolicy : VncSharePolicy) : (init sharePolicy).Inv where
  counted := ⟨List.nodup_nil, by simp [init], by simp [init], rfl⟩
  alone _ _ ha := by cases ha

lemma Inv.vncConnect (h : vd.Inv) (csock : ℕ) : (vd.vncConnect csock).Inv where
  counted := {
    nodup := by
      refine List.nodup_cons.mpr ⟨fun hmem => ?_, h.counted.nodup⟩
      obtain ⟨a, ha, hid⟩ := List.mem_map.mp hmem
      exact (h.counted.fresh a ha).ne hid
    fresh := by
      refine List.forall_mem_cons.mpr ⟨Nat.lt_succ_self _, fun a ha => ?_⟩
      exact (h.counted.fresh a ha).trans (Nat.lt_succ_self _)
    closed := List.forall_mem_cons.mpr ⟨by simp, h.counted.closed⟩
    count := h.counted.count }
  alone hpolicy a ha hexclusive b hb hid := by
    rcases List.mem_cons.mp ha with rfl | ha
    · cases hexclusive
    · rcases List.mem_cons.mp hb with rfl | hb
      · simp [Present]
      · exact h.alone hpolicy a ha hexclusive b hb hid

lemma Inv.vncDisconnectStart (h : vd.Inv) (hvs : vs ∈ vd.clients) :
    (vd.vncDisconnectStart vs).Inv where
  counted := h.counted.vncDisconnectStart hvs
  alone hpolicy :=
    (h.alone (sharePolicy_vncDisconnectStart.symm.trans hpolicy)).vncDisconnectStart h.counted hvs

lemma Inv.vncDisconnectFinish (h : vd.Inv) (hvs : vs ∈ vd.clients) (hsock : vs.csock = -1) :
    (vd.vncDisconnectFinish vs).Inv where
  counted := {
    nodup := h.counted.nodup.sublist (List.filter_sublist.map _)
    fresh := fun a ha => h.counted.fresh a (List.mem_filter.mp ha).1
    closed := fun a ha => h.counted.closed a (List.mem_filter.mp ha).1
    count := by
      -- the viewer that goes is not one of those that are counted
      have hclosed := (h.counted.closed vs hvs).mp hsock
      rw [Viewers.vncDisconnectFinish, List.countP_filter]
      refine h.counted.count.trans (congrArg _ (List.countP_congr fun a ha => ?_))
      simp only [decide_eq_true_eq, Bool.and_eq_true, iff_self_and]
      rintro hexclusive hid
      rw [h.counted.eq_of_id hvs ha hid, hclosed] at hexclusive
      cases hexclusive }
  alone hpolicy a ha hexclusive b hb hid :=
    h.alone hpolicy a (List.mem_filter.mp ha).1 hexclusive b (List.mem_filter.mp hb).1 hid

/-- The mode is set, and the viewer may be disconnected at once. -/
lemma Inv.accept (h : vd.Inv) (hvs : vs ∈ vd.clients) (hsock : vs.csock ≠ -1)
    (hmode : mode = .exclusive ∨ mode = .shared)
    (hexclusive : vd.sharePolicy = .allowExclusive → mode = .exclusive →
      ∀ b ∈ vd.clients, b.id ≠ vs.id → ¬ Present b)
    (hshared : vd.sharePolicy = .allowExclusive → mode = .shared →
      ∀ b ∈ vd.clients, b.shareMode ≠ .exclusive) (flushed : Bool) :
    (vd.accept vs mode flushed).Inv := by
  have hset : (vd.vncSetShareMode vs mode).Inv := {
    counted := h.counted.vncSetShareMode hvs hsock (by rcases hmode with rfl | rfl <;> decide)
    alone := fun hpolicy => (h.alone hpolicy).vncSetShareMode h.counted hvs (hexclusive hpolicy)
      (hshared hpolicy) hmode }
  rw [Viewers.accept]
  split_ifs
  · exact hset
  · exact hset.vncDisconnectStart (mem_modifyKey.mpr (.inr ⟨vs, hvs, rfl, rfl⟩))

lemma Inv.disconnectOthers (h : vd.Inv) : (vd.disconnectOthers vs).Inv where
  counted := h.counted.disconnectOthers
  alone hpolicy a ha hexclusive b hb hid := by
    by_cases ha' : a.id = vs.id
    · exact not_present_disconnectOthers h.counted hb (ha' ▸ hid)
    · exact absurd (.inl hexclusive) (not_present_disconnectOthers h.counted ha ha')

lemma Inv.protocolClientInit (h : vd.Inv) (hvs : vs ∈ vd.clients) (hsock : vs.csock ≠ -1)
    (data : UInt8) (flushed : Bool) : (vd.protocolClientInit vs data flushed).Inv := by
  have hmode : (if data ≠ 0 then VncShareMode.shared else .exclusive) = .exclusive ∨
      (if data ≠ 0 then VncShareMode.shared else .exclusive) = .shared := by
    split_ifs <;> simp
  rw [Viewers.protocolClientInit]
  generalize (if data ≠ 0 then VncShareMode.shared else .exclusive) = mode at hmode ⊢
  cases hpolicy : vd.sharePolicy with
  | ignore =>
    refine h.accept hvs hsock hmode ?_ ?_ flushed <;>
      exact fun h => absurd (hpolicy.symm.trans h) (by decide)
  | forceShared =>
    dsimp only
    split_ifs
    · exact h.vncDisconnectStart hvs
    · refine h.accept hvs hsock hmode ?_ ?_ flushed <;>
        exact fun h => absurd (hpolicy.symm.trans h) (by decide)
  | allowExclusive =>
    rcases hmode with rfl | rfl
    · -- the others are gone when the viewer gets the display
      simp only [if_true, reduceCtorEq, false_and, if_false]
      exact h.disconnectOthers.accept (mem_disconnectOthers h.counted hvs) hsock (.inl rfl)
        (fun _ _ b hb hid => not_present_disconnectOthers h.counted hb hid)
        (fun _ h => by cases h) flushed
    · simp only [reduceCtorEq, if_false, true_and]
      split_ifs with hcount
      · exact h.vncDisconnectStart hvs
      · exact h.accept hvs hsock (.inr rfl) (fun _ h => by cases h)
          (fun _ _ b hb => h.counted.not_exclusive hcount hb) flushed

lemma Inv.step (h : vd.Inv) {e : Event} (hstep : vd.Step e vd') : vd'.Inv := by
  cases hstep with
  | connect csock => exact h.vncConnect csock
  | clientInit hvs hsock data flushed => exact h.protocolClientInit hvs hsock data flushed
  | disconnect hvs => exact h.vncDisconnectStart hvs
  | finish hvs hsock => exact h.vncDisconnectFinish hvs hsock

lemma Inv.run (h : vd.Inv) {es : List Event} (hrun : Run vd es vd') : vd'.Inv := by
  induction hrun with
  | nil vd => exact h
  | cons first rest ih => exact ih (h.step first)

lemma sharePolicy_protocolClientInit (h : vd.Counted) (data : UInt8) (flushed : Bool) :
    (vd.protocolClientInit vs data flushed).sharePolicy = vd.sharePolicy := by
  have haccept : ∀ {vd : Viewers} {mode},
      (vd.accept vs mode flushed).sharePolicy = vd.sharePolicy := by
    intro vd mode
    rw [accept]
    split_ifs
    · rfl
    · exact sharePolicy_vncDisconnectStart
  rw [protocolClientInit]
  generalize (if data ≠ 0 then VncShareMode.shared else .exclusive) = mode
  cases hpolicy : vd.sharePolicy <;> dsimp only
  · exact haccept.trans hpolicy
  · split_ifs
    all_goals first
      | exact sharePolicy_vncDisconnectStart.trans hpolicy
      | exact haccept.trans hpolicy
      | exact haccept.trans ((sharePolicy_disconnectOthers h).trans hpolicy)
      | exact sharePolicy_vncDisconnectStart.trans ((sharePolicy_disconnectOthers h).trans hpolicy)
  · split_ifs
    · exact sharePolicy_vncDisconnectStart.trans hpolicy
    · exact haccept.trans hpolicy

lemma sharePolicy_run (h : vd.Inv) {es : List Event} (hrun : Run vd es vd') :
    vd'.sharePolicy = vd.sharePolicy := by
  induction hrun with
  | nil vd => rfl
  | cons first rest ih =>
    refine (ih (h.step first)).trans ?_
    cases first with
    | connect csock => rfl
    | clientInit hvs hsock data flushed => exact sharePolicy_protocolClientInit h.counted data flushed
    | disconnect hvs => exact sharePolicy_vncDisconnectStart
    | finish hvs hsock => rfl

/-- Whatever the viewers ask for and however they go, `num_exclusive` counts the connected exclusive
viewers, and where exclusive viewers are allowed one is never there with another that has a mode. -/
theorem run_exclusive {sharePolicy : VncSharePolicy} {es : List Event}
    (hrun : Run (init sharePolicy) es vd) :
    vd.numExclusive =
        vd.clients.countP (fun vs => vs.csock ≠ -1 ∧ vs.shareMode = .exclusive) ∧
      (sharePolicy = .allowExclusive → ∀ a ∈ vd.clients, ∀ b ∈ vd.clients, a.csock ≠ -1 →
        b.csock ≠ -1 → a.shareMode = .exclusive →
        b.shareMode = .exclusive ∨ b.shareMode = .shared → a = b) := by
  have hinv := (inv_init sharePolicy).run hrun
  refine ⟨hinv.counted.count.trans (congrArg _ (List.countP_congr fun a ha => ?_)), ?_⟩
  · -- an exclusive viewer is connected
    have hclosed := hinv.counted.closed a ha
    simp only [decide_eq_true_eq]
    refine ⟨fun hexclusive => ⟨fun hsock => ?_, hexclusive⟩, And.right⟩
    rw [hclosed.mp hsock] at hexclusive
    cases hexclusive
  · rintro hpolicy a ha b hb - - hexclusive hpresent
    have halone := hinv.alone ((sharePolicy_run (inv_init sharePolicy) hrun).trans hpolicy)
    by_contra hne
    refine halone a ha hexclusive b hb (fun hid => hne ?_) hpresent
    exact (hinv.counted.eq_of_id ha hb hid).symm

/-- A shared viewer is there, and another takes the display over. -/
theorem run_exclusive_takeover :
    let vd := ((((init .allowExclusive).vncConnect 4).protocolClientInit ⟨0, 4, .connecting⟩ 1
      true).vncConnect 5).protocolClientInit ⟨1, 5, .connecting⟩ 0 true
    vd = ⟨[⟨1, 5, .exclusive⟩, ⟨0, -1, .disconnected⟩], 1, .allowExclusive, 2⟩ ∧
      vd.numExclusive =
        vd.clients.countP (fun vs => vs.csock ≠ -1 ∧ vs.shareMode = .exclusive) ∧
      ∀ a ∈ vd.clients, ∀ b ∈ vd.clients, a.csock ≠ -1 → b.csock ≠ -1 →
        a.shareMode = .exclusive → b.shareMode = .exclusive ∨ b.shareMode = .shared → a = b := by
  intro vd
  have hrun : Run (init .allowExclusive) _ vd :=
    .cons (.connect 4) (.cons (@Step.clientInit _ ⟨0, 4, .connecting⟩ (by decide) (by decide) 1 true)
      (.cons (.connect 5) (.cons
        (@Step.clientInit _ ⟨1, 5, .connecting⟩ (by decide) (by decide) 0 true) (.nil _))))
  exact ⟨by decide, (run_exclusive hrun).1, (run_exclusive hrun).2 rfl⟩

end Viewers

end Limbo.VncServer
