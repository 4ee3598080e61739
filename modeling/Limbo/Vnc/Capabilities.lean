import Mathlib

/-!
# Capabilities

The client keeps the capabilities that it knows, and in a list of its own, in order, the codes of
those that the server has enabled. Whenever `enable` succeeds the code is appended, also when the
capability had been enabled before; and it succeeds for every capability that has been, whatever
vendor and name the server sends with the code.
-/

namespace Limbo.Vnc

structure CapabilityInfo where
  code : Int32
  vendorSignature : String
  nameSignature : String
  description : Option String
  enabled : Bool
deriving DecidableEq, Repr

namespace CapabilityInfo

/-- The capability of four arguments, which the client knows. -/
def known (code : Int32) (vendorSignature nameSignature description : String) : CapabilityInfo :=
  ⟨code, vendorSignature, nameSignature, some description, false⟩

/-- The capability that the server sends. How bytes are characters is up to the platform. -/
def sent (decode : List UInt8 → String) (code : Int32)
    (vendorSignature nameSignature : List UInt8) : CapabilityInfo :=
  ⟨code, decode vendorSignature, decode nameSignature, none, false⟩

/-- `equals`. -/
def Equals (info other : CapabilityInfo) : Prop :=
  info.code = other.code ∧ info.vendorSignature = other.vendorSignature ∧
    info.nameSignature = other.nameSignature

instance (info other : CapabilityInfo) : Decidable (info.Equals other) :=
  inferInstanceAs (Decidable (_ ∧ _ ∧ _))

def enableIfEquals (info other : CapabilityInfo) : CapabilityInfo :=
  if info.Equals other then { info with enabled := true } else info

end CapabilityInfo

structure CapsContainer where
  infoMap : Int32 → Option CapabilityInfo
  orderedList : List Int32

namespace CapsContainer

def new : CapsContainer := ⟨fun _ => none, []⟩

def add (caps : CapsContainer) (capinfo : CapabilityInfo) : CapsContainer :=
  { caps with infoMap := Function.update caps.infoMap capinfo.code (some capinfo) }

/-- `enable`: whether it succeeds, and the container after it. -/
def enable (caps : CapsContainer) (other : CapabilityInfo) : Bool × CapsContainer :=
  match caps.infoMap other.code with
  | none => (false, caps)
  | some capinfo =>
    let capinfo := capinfo.enableIfEquals other
    (capinfo.enabled,
      ⟨Function.update caps.infoMap other.code (some capinfo),
        if capinfo.enabled then caps.orderedList ++ [other.code] else caps.orderedList⟩)

def isEnabled (caps : CapsContainer) (code : Int32) : Bool :=
  match caps.infoMap code with
  | none => false
  | some capinfo => capinfo.enabled

def numEnabled (caps : CapsContainer) : ℕ := caps.orderedList.length

/-- `getByOrder`, which gives 0 beyond the list. -/
def getByOrder (caps : CapsContainer) (idx : ℤ) : Int32 :=
  if 0 ≤ idx then caps.orderedList.getD idx.toNat 0 else 0

/-- `readCapabilityList`, of what the server sends. -/
def readCapabilityList (decode : List UInt8 → String) (caps : CapsContainer)
    (sent : List (Int32 × List UInt8 × List UInt8)) : CapsContainer :=
  sent.foldl (fun caps s => (caps.enable (.sent decode s.1 s.2.1 s.2.2)).2) caps

end CapsContainer

/-! ### Calls -/

namespace CapsContainer

inductive Call where
  | add (code : Int32) (vendorSignature nameSignature description : String)
  | enable (other : CapabilityInfo)
deriving DecidableEq, Repr

def call (caps : CapsContainer) : Call → CapsContainer
  | .add code vendor name desc => caps.add (.known code vendor name desc)
  | .enable other => (caps.enable other).2

def after (calls : List Call) : CapsContainer := calls.foldl call new

/-- What has been added and, one after the other, the codes of the capabilities that the server has
sent as they are known. -/
structure History where
  known : Int32 → Option CapabilityInfo
  matched : List Int32

namespace History

def call (h : History) : Call → History
  | .add code vendor name desc =>
    { h with known := Function.update h.known code (some (.known code vendor name desc)) }
  | .enable other =>
    if ∃ info ∈ h.known other.code, info.Equals other then
      { h with matched := h.matched ++ [other.code] } else h

def after (calls : List Call) : History := calls.foldl call ⟨fun _ => none, []⟩

/-- The capabilities that the server has enabled, each once, in the order in which it first did. -/
def enabled (h : History) : List Int32 := h.matched.eraseDups

end History

/-- The container is what the history makes of it. -/
structure Lists (caps : CapsContainer) (enabled : List Int32) : Prop where
  numEnabled : caps.numEnabled = enabled.length
  getByOrder : ∀ i (h : i < enabled.length), caps.getByOrder i = enabled[i]

/-- The call does not enable a capability that is in the list: the code is new, or what is known of
it is not enabled and differs from what is sent. -/
def Fresh (caps : CapsContainer) : Call → Prop
  | .add .. => True
  | .enable other => other.code ∈ caps.orderedList →
      ∀ info ∈ caps.infoMap other.code, info.enabled = false ∧ ¬ info.Equals other

variable {caps : CapsContainer} {h : History} {enabled : List Int32}

lemma Lists.iff : Lists caps enabled ↔ caps.orderedList = enabled := by
  constructor
  · intro hlists
    apply List.ext_getElem hlists.numEnabled
    intro i hi hi'
    have hget := hlists.getByOrder i hi'
    rw [CapsContainer.getByOrder, if_pos (Int.natCast_nonneg i), Int.toNat_natCast,
      List.getD_eq_getElem _ _ hi] at hget
    exact hget
  · rintro rfl
    refine ⟨rfl, fun i hi => ?_⟩
    rw [CapsContainer.getByOrder, if_pos (Int.natCast_nonneg i), Int.toNat_natCast,
      List.getD_eq_getElem _ _ hi]

/-! ### One call -/

lemma eraseDups_concat (l : List Int32) (c : Int32) :
    (l ++ [c]).eraseDups = if c ∈ l then l.eraseDups else l.eraseDups ++ [c] := by
  rw [List.eraseDups_append, List.cons_removeAll]
  by_cases hc : c ∈ l
  · simp [hc]
  · simp [hc]
    rfl

/-- Does `enable` succeed? -/
def Enables (caps : CapsContainer) (other : CapabilityInfo) : Prop :=
  ∃ info ∈ caps.infoMap other.code, info.enabled = true ∨ info.Equals other

lemma orderedList_of_enables {other : CapabilityInfo} (he : caps.Enables other) :
    (caps.call (.enable other)).orderedList = caps.orderedList ++ [other.code] := by
  obtain ⟨info, hinfo, hor⟩ := he
  have henabled : (info.enableIfEquals other).enabled = true := by
    unfold CapabilityInfo.enableIfEquals
    split_ifs with hequals
    · rfl
    · exact hor.resolve_right hequals
  simp only [call, enable, Option.mem_def.mp hinfo, henabled, if_true]

lemma orderedList_of_not_enables {other : CapabilityInfo} (he : ¬ caps.Enables other) :
    caps.call (.enable other) = caps := by
  cases hinfo : caps.infoMap other.code with
  | none => simp only [call, enable, hinfo]
  | some info =>
    have hnot : ¬ info.Equals other := fun hequals => he ⟨info, hinfo, .inr hequals⟩
    have hdisabled : info.enabled = false := by
      cases henabled : info.enabled with
      | false => rfl
      | true => exact absurd ⟨info, hinfo, .inl henabled⟩ he
    have hsame : info.enableIfEquals other = info := if_neg hnot
    have hupdate : Function.update caps.infoMap other.code (some info) = caps.infoMap := by
      rw [← hinfo]
      exact Function.update_eq_self _ _
    simp only [call, enable, hinfo, hsame, hdisabled, hupdate]
    rfl

lemma fresh_enable_iff {other : CapabilityInfo} :
    caps.Fresh (.enable other) ↔ (other.code ∈ caps.orderedList → ¬ caps.Enables other) := by
  simp [Fresh, Enables]

/-! ### All calls -/

/-- The container and the history agree, up to repetitions in the list. -/
structure Agrees (caps : CapsContainer) (h : History) : Prop where
  known : ∀ c, h.known c = (caps.infoMap c).map fun info => { info with enabled := false }
  listed : ∀ c info, caps.infoMap c = some info → info.enabled = true → c ∈ caps.orderedList
  eraseDups : caps.orderedList.eraseDups = h.enabled

lemma Agrees.matches_iff (ha : Agrees caps h) (other : CapabilityInfo) :
    (∃ info ∈ h.known other.code, info.Equals other) ↔
      ∃ info ∈ caps.infoMap other.code, info.Equals other := by
  rw [ha.known]
  cases caps.infoMap other.code with
  | none => simp
  | some info => simp [CapabilityInfo.Equals]

lemma Agrees.add (ha : Agrees caps h) (code : Int32) (vendor name desc : String) :
    Agrees (caps.call (.add code vendor name desc)) (h.call (.add code vendor name desc)) where
  known c := by
    show Function.update h.known code _ c = (Function.update caps.infoMap code _ c).map _
    by_cases hc : c = code
    · subst hc
      rw [Function.update_self, Function.update_self]
      rfl
    · rw [Function.update_of_ne hc, Function.update_of_ne hc]
      exact ha.known c
  listed c info hinfo henabled := by
    have hupdate : Function.update caps.infoMap code
        (some (.known code vendor name desc)) c = some info := hinfo
    by_cases hc : c = code
    · subst hc
      rw [Function.update_self] at hupdate
      cases hupdate
      cases henabled
    · rw [Function.update_of_ne hc] at hupdate
      exact ha.listed c info hupdate henabled
  eraseDups := ha.eraseDups

/-- What is sent as it is known is enabled, and the history has it once. -/
lemma Agrees.enable_matched (ha : Agrees caps h) {other info : CapabilityInfo}
    (hinfo : caps.infoMap other.code = some info) (hequals : info.Equals other) :
    Agrees (caps.call (.enable other)) (h.call (.enable other)) := by
  have hmatch : ∃ info ∈ h.known other.code, info.Equals other :=
    (ha.matches_iff other).mpr ⟨info, hinfo, hequals⟩
  have hhistory : h.call (.enable other) = { h with matched := h.matched ++ [other.code] } :=
    if_pos hmatch
  have hmap : (caps.call (.enable other)).infoMap =
      Function.update caps.infoMap other.code (some { info with enabled := true }) := by
    have hset : info.enableIfEquals other = { info with enabled := true } := if_pos hequals
    simp only [call, enable, hinfo, hset]
  have hlist := orderedList_of_enables ⟨info, hinfo, .inr hequals⟩
  rw [hhistory]
  constructor
  · intro c
    rw [hmap]
    by_cases hc : c = other.code
    · subst hc
      rw [Function.update_self]
      exact (ha.known _).trans (by rw [hinfo]; rfl)
    · rw [Function.update_of_ne hc]
      exact ha.known c
  · intro c i hi henabled
    rw [hmap] at hi
    rw [hlist]
    by_cases hc : c = other.code
    · subst hc
      exact List.mem_append_right _ List.mem_cons_self
    · rw [Function.update_of_ne hc] at hi
      exact List.mem_append_left _ (ha.listed c i hi henabled)
  · have hmem : other.code ∈ caps.orderedList ↔ other.code ∈ h.matched := by
      rw [← List.mem_eraseDups, ha.eraseDups, History.enabled, List.mem_eraseDups]
    show (caps.call (.enable other)).orderedList.eraseDups = (h.matched ++ [other.code]).eraseDups
    rw [hlist, eraseDups_concat, eraseDups_concat, ha.eraseDups]
    simp only [hmem]
    rfl

/-- What is enabled already is appended again, whatever is sent. -/
lemma Agrees.enable_unmatched (ha : Agrees caps h) {other : CapabilityInfo}
    (hnone : ¬ ∃ info ∈ caps.infoMap other.code, info.Equals other) :
    Agrees (caps.call (.enable other)) (h.call (.enable other)) := by
  have hhistory : h.call (.enable other) = h := if_neg (mt (ha.matches_iff other).mp hnone)
  rw [hhistory]
  by_cases he : caps.Enables other
  · have hlist := orderedList_of_enables he
    obtain ⟨info, hinfo, hor⟩ := he
    have hnot : ¬ info.Equals other := fun hequals => hnone ⟨info, hinfo, hequals⟩
    have hmem : other.code ∈ caps.orderedList :=
      ha.listed _ info hinfo (hor.resolve_right hnot)
    have hmap : (caps.call (.enable other)).infoMap = caps.infoMap := by
      have hsame : info.enableIfEquals other = info := if_neg hnot
      have hupdate : Function.update caps.infoMap other.code (some info) = caps.infoMap := by
        rw [← Option.mem_def.mp hinfo]
        exact Function.update_eq_self _ _
      simp only [call, enable, Option.mem_def.mp hinfo, hsame, hupdate]
    refine ⟨fun c => by rw [hmap]; exact ha.known c, fun c i hi henabled => ?_, ?_⟩
    · rw [hmap] at hi
      rw [hlist]
      exact List.mem_append_left _ (ha.listed c i hi henabled)
    · rw [hlist, eraseDups_concat, if_pos hmem, ha.eraseDups]
  · rwa [orderedList_of_not_enables he]

lemma Agrees.call (ha : Agrees caps h) (c : Call) : Agrees (caps.call c) (h.call c) := by
  cases c with
  | add code vendor name desc => exact ha.add code vendor name desc
  | enable other =>
    by_cases hmatch : ∃ info ∈ caps.infoMap other.code, info.Equals other
    · obtain ⟨info, hinfo, hequals⟩ := hmatch
      exact ha.enable_matched hinfo hequals
    · exact ha.enable_unmatched hmatch

lemma after_concat (calls : List Call) (c : Call) : after (calls ++ [c]) = (after calls).call c := by
  simp [after, List.foldl_append]

lemma History.after_concat (calls : List Call) (c : Call) :
    History.after (calls ++ [c]) = (History.after calls).call c := by
  simp [History.after, List.foldl_append]

/-- In every run the list, without its repetitions, is the enabled capabilities in order. -/
theorem agrees_after (calls : List Call) : Agrees (after calls) (History.after calls) := by
  induction calls using List.reverseRecOn with
  | nil =>
    refine ⟨fun c => rfl, fun c info hinfo => ?_, rfl⟩
    cases hinfo
  | append_singleton calls c ih =>
    rw [after_concat, History.after_concat]
    exact ih.call c

/-- As long as the list has no repetitions, a call adds none just when it is fresh. -/
lemma Agrees.lists_call_iff (ha : Agrees caps h) (hlists : Lists caps h.enabled) (c : Call) :
    Lists (caps.call c) (h.call c).enabled ↔ caps.Fresh c := by
  have hnext := (ha.call c).eraseDups
  rw [Lists.iff] at hlists ⊢
  rw [← hnext]
  cases c with
  | add code vendor name desc =>
    have hsame : caps.orderedList.eraseDups = caps.orderedList := ha.eraseDups.trans hlists.symm
    exact iff_of_true hsame.symm trivial
  | enable other =>
    have hsame : caps.orderedList.eraseDups = caps.orderedList := ha.eraseDups.trans hlists.symm
    rw [fresh_enable_iff]
    by_cases he : caps.Enables other
    · rw [orderedList_of_enables he, eraseDups_concat, hsame]
      by_cases hmem : other.code ∈ caps.orderedList
      · simp [hmem, he]
      · simp [hmem]
    · rw [orderedList_of_not_enables he, hsame]
      simp [he]

/-- Through a run the list is exact as long as no call enables what is in it. -/
theorem lists_after_iff (calls : List Call) :
    (∀ pre, pre <+: calls → Lists (after pre) (History.after pre).enabled) ↔
      ∀ pre c, pre ++ [c] <+: calls → (after pre).Fresh c := by
  constructor
  · intro h pre c hpre
    have hshort : pre <+: calls := (List.prefix_append pre [c]).trans hpre
    have hcall := h (pre ++ [c]) hpre
    rw [after_concat, History.after_concat] at hcall
    exact ((agrees_after pre).lists_call_iff (h pre hshort) c).mp hcall
  · intro h pre
    induction pre using List.reverseRecOn with
    | nil => exact fun _ => Lists.iff.mpr rfl
    | append_singleton pre c ih =>
      intro hpre
      rw [after_concat, History.after_concat]
      exact ((agrees_after pre).lists_call_iff (ih ((List.prefix_append pre [c]).trans hpre))
        c).mpr (h pre c hpre)

/-- A server that sends the same authentication scheme twice. -/
def sentTwice : List Call :=
  [.add 2 "STDV" "VNCAUTH_" "Standard VNC password authentication",
   .enable ⟨2, "STDV", "VNCAUTH_", none, false⟩, .enable ⟨2, "STDV", "VNCAUTH_", none, false⟩]

theorem lists_after_twice : ¬ ∀ calls, Lists (after calls) (History.after calls).enabled := by
  intro h
  have hnum := (h sentTwice).numEnabled
  exact absurd hnum (by decide +kernel)

/-! ### The authentication scheme -/

def AuthNone : Int32 := 1

def AuthVNC : Int32 := 2

/-- The loop of `negotiateAuthenticationTight`: the first enabled scheme that the client has. -/
def authType (caps : CapsContainer) : Option Int32 :=
  ((List.range caps.numEnabled).map fun i : ℕ => caps.getByOrder i).find? fun authType =>
    authType = AuthNone ∨ authType = AuthVNC

lemma find?_eraseDups (p : Int32 → Bool) (l : List Int32) : l.eraseDups.find? p = l.find? p := by
  induction l using List.reverseRecOn with
  | nil => rfl
  | append_singleton l c ih =>
    rw [eraseDups_concat]
    split_ifs with hc
    · rw [ih, List.find?_append]
      cases hfind : l.find? p with
      | some d => rfl
      | none =>
        have hno := List.find?_eq_none.mp hfind c hc
        simp [hno]
    · rw [List.find?_append, List.find?_append, ih]

/-- Repetitions do not change the scheme that is chosen. -/
theorem authType_after (calls : List Call) :
    (after calls).authType = (History.after calls).enabled.find? fun authType =>
      authType = AuthNone ∨ authType = AuthVNC := by
  have hlist : (List.range (after calls).numEnabled).map (fun i : ℕ => (after calls).getByOrder i) =
      (after calls).orderedList := by
    apply List.ext_getElem
    · rw [List.length_map, List.length_range, numEnabled]
    · intro i hi hi'
      rw [List.getElem_map, List.getElem_range, getByOrder, if_pos (Int.natCast_nonneg i),
        Int.toNat_natCast, List.getD_eq_getElem _ _ hi']
  rw [authType, hlist, ← (agrees_after calls).eraseDups, find?_eraseDups]

/-- What is read from the server is a run of `enable`. -/
lemma readCapabilityList_after (decode : List UInt8 → String) (calls : List Call)
    (sent : List (Int32 × List UInt8 × List UInt8)) :
    (after calls).readCapabilityList decode sent =
      after (calls ++ sent.map fun s => .enable (.sent decode s.1 s.2.1 s.2.2)) := by
  rw [readCapabilityList, after, after, List.foldl_append, List.foldl_map]
  rfl

end CapsContainer

end Limbo.Vnc
