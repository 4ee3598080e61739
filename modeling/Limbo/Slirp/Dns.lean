import Limbo.Lib.CString

/-!
# The name server of the guest

`get_dns_addr()` hands out the address of the name server. It keeps the last one for a second in
static variables; afterwards it compares a file's status with the copy it has just taken of it,
which is what was left when the resolver file went, and so never looks at the string again.
-/

namespace Limbo.Slirp

open Lib

/-- The fields of a `struct stat` that are compared. -/
structure Stat where
  dev : ℕ
  ino : ℕ
  size : ℤ
  mtime : ℤ
deriving DecidableEq, Repr

/-- The static variables `dns_addr`, `dns_addr_time`, `dns_addr_stat` and `dns_addr_str`. -/
structure Dns where
  dnsAddr : UInt32
  dnsAddrTime : UInt32
  dnsAddrStat : Stat
  dnsAddrStr : Option CString
deriving DecidableEq, Repr

/-- Static variables start out as zeros. -/
def Dns.init : Dns := ⟨0, 0, ⟨0, 0, 0, 0⟩, none⟩

/-- What `get_dns_addr(pdns_addr)` returns and writes to `*pdns_addr`. -/
structure Answer where
  ret : ℤ
  pdnsAddr : Option UInt32
deriving DecidableEq, Repr

/-- `inet_aton`: the `s_addr` of a string, if it is an address. -/
abbrev InetAton := CString → Option UInt32

/-- `set_dns_addr_str(dns_addr_str1)`. -/
def setDnsAddrStr (str : Option CString) (s : Dns) : Dns := { s with dnsAddrStr := str }

variable (inetAton : InetAton)

/-- The end of `get_dns_addr()`, where the string is read. -/
def readDnsAddrStr (curtime : UInt32) (s : Dns) : Answer × Dns :=
  match s.dnsAddrStr with
  | some str =>
    match inetAton str with
    | none => (⟨-1, none⟩, s)
    | some tmpAddr => (⟨0, some tmpAddr⟩, { s with
        dnsAddr := tmpAddr
        dnsAddrTime := curtime })
  | none => (⟨0, none⟩, s)

/-- `get_dns_addr(pdns_addr)`. -/
def getDnsAddr (curtime : UInt32) (s : Dns) : Answer × Dns :=
  if s.dnsAddr ≠ 0 then
    if curtime - s.dnsAddrTime < 1000 then (⟨0, some s.dnsAddr⟩, s)
    else
      -- the `stat()` that refreshed `dns_addr_stat` in between is commented out
      let oldStat := s.dnsAddrStat
      if s.dnsAddrStat.dev = oldStat.dev ∧ s.dnsAddrStat.ino = oldStat.ino ∧
          s.dnsAddrStat.size = oldStat.size ∧ s.dnsAddrStat.mtime = oldStat.mtime then
        (⟨0, some s.dnsAddr⟩, s)
      else readDnsAddrStr inetAton curtime s
  else readDnsAddrStr inetAton curtime s

/-- The calls from outside. -/
inductive Call where
  | setDnsAddrStr (str : Option CString)
  /-- `get_dns_addr()` when the clock is at `curtime`. -/
  | getDnsAddr (curtime : UInt32)
deriving DecidableEq, Repr

/-- What a call leaves in the static variables. -/
def Dns.after (s : Dns) : Call → Dns
  | .setDnsAddrStr str => setDnsAddrStr str s
  | .getDnsAddr curtime => (getDnsAddr inetAton curtime s).2

/-- What a sequence of calls leaves in the static variables. -/
def Dns.run (s : Dns) (calls : List Call) : Dns := calls.foldl (Dns.after inetAton) s

/-! ### What the calls come to -/

section

variable {inetAton} {s : Dns} {curtime : UInt32}

/-- An address that is there is handed out, whatever its age. -/
lemma getDnsAddr_of_ne (h : s.dnsAddr ≠ 0) :
    getDnsAddr inetAton curtime s = (⟨0, some s.dnsAddr⟩, s) := by
  simp [getDnsAddr, h]

lemma getDnsAddr_of_eq (h : s.dnsAddr = 0) :
    getDnsAddr inetAton curtime s = readDnsAddrStr inetAton curtime s := by
  simp [getDnsAddr, h]

/-- An address that is there stays, with its time. -/
lemma run_of_ne {calls : List Call} (h : s.dnsAddr ≠ 0) :
    (s.run inetAton calls).dnsAddr = s.dnsAddr ∧
      (s.run inetAton calls).dnsAddrTime = s.dnsAddrTime := by
  induction calls generalizing s with
  | nil => exact ⟨rfl, rfl⟩
  | cons call calls ih =>
    have hcall : (s.after inetAton call).dnsAddr = s.dnsAddr ∧
        (s.after inetAton call).dnsAddrTime = s.dnsAddrTime := by
      cases call with
      | setDnsAddrStr str => exact ⟨rfl, rfl⟩
      | getDnsAddr curtime => simp [Dns.after, getDnsAddr_of_ne h]
    obtain ⟨haddr, htime⟩ := ih (hcall.1 ▸ h)
    exact ⟨haddr.trans hcall.1, htime.trans hcall.2⟩

end

/-- The string most recently set by the calls, `str` being set before them. -/
def latestStr (str : Option CString) (calls : List Call) : Option CString :=
  calls.foldl (fun str call =>
    match call with
    | .setDnsAddrStr str' => str'
    | .getDnsAddr _ => str) str

/-- The first address a query finds in the string of its time, with the time of the query. -/
def firstAddr : Option CString → List Call → Option (UInt32 × UInt32)
  | _, [] => none
  | _, .setDnsAddrStr str :: calls => firstAddr str calls
  | str, .getDnsAddr curtime :: calls =>
    match str.bind inetAton with
    | none => firstAddr str calls
    | some addr => if addr = 0 then firstAddr str calls else some (addr, curtime)

section

variable {inetAton}

/-- The string is read when no address is there. -/
lemma after_getDnsAddr_of_eq {s : Dns} {curtime : UInt32} (h : s.dnsAddr = 0) :
    s.after inetAton (.getDnsAddr curtime) =
      match s.dnsAddrStr.bind inetAton with
      | none => s
      | some addr => { s with
          dnsAddr := addr
          dnsAddrTime := curtime } := by
  rw [Dns.after, getDnsAddr_of_eq h, readDnsAddrStr]
  cases hstr : s.dnsAddrStr with
  | none => rfl
  | some str => cases hat : inetAton str <;> simp [hat]

/-- No query changes the string. -/
lemma dnsAddrStr_run (s : Dns) (calls : List Call) :
    (s.run inetAton calls).dnsAddrStr = latestStr s.dnsAddrStr calls := by
  induction calls generalizing s with
  | nil => rfl
  | cons call calls ih =>
    refine (ih (s.after inetAton call)).trans (congrArg (latestStr · calls) ?_)
    cases call with
    | setDnsAddrStr str => rfl
    | getDnsAddr curtime =>
      by_cases h : s.dnsAddr = 0
      · rw [after_getDnsAddr_of_eq h]
        cases s.dnsAddrStr.bind inetAton <;> rfl
      · simp [Dns.after, getDnsAddr_of_ne h]

/-- The address that is there after the calls is the first one found. -/
lemma dnsAddr_run {s : Dns} (calls : List Call) (h : s.dnsAddr = 0) :
    match firstAddr inetAton s.dnsAddrStr calls with
    | none => (s.run inetAton calls).dnsAddr = 0
    | some (addr, time) => addr ≠ 0 ∧ (s.run inetAton calls).dnsAddr = addr ∧
        (s.run inetAton calls).dnsAddrTime = time := by
  induction calls generalizing s with
  | nil => exact h
  | cons call calls ih =>
    cases call with
    | setDnsAddrStr str => exact ih (s := setDnsAddrStr str s) h
    | getDnsAddr curtime =>
      have hafter : s.after inetAton (.getDnsAddr curtime) = _ := after_getDnsAddr_of_eq h
      rw [Dns.run, List.foldl_cons, hafter, firstAddr]
      cases s.dnsAddrStr.bind inetAton with
      | none => exact ih h
      | some addr =>
        by_cases haddr : addr = 0
        · simp only [haddr, if_true]
          exact ih (s := { s with
            dnsAddr := 0
            dnsAddrTime := curtime }) rfl
        · simp only [haddr, if_false]
          exact ⟨haddr, run_of_ne (s := { s with
            dnsAddr := addr
            dnsAddrTime := curtime }) haddr⟩

end

/-! ### Following the configured server -/

/-- The address that is there is within its cache period. -/
def Fresh (s : Dns) (curtime : UInt32) : Prop :=
  s.dnsAddr ≠ 0 ∧ curtime - s.dnsAddrTime < 1000

/-- A query after the calls `pre` follows the configured server: it returns `0` only after writing
an address, and outside the cache period it writes no address but that of the string most recently
set, and returns `-1` on a string that is none. -/
structure Follows (pre : List Call) (curtime : UInt32) : Prop where
  written : (getDnsAddr inetAton curtime (Dns.init.run inetAton pre)).1.ret = 0 →
    (getDnsAddr inetAton curtime (Dns.init.run inetAton pre)).1.pdnsAddr ≠ none
  latest : ¬ Fresh (Dns.init.run inetAton pre) curtime → ∀ addr,
    (getDnsAddr inetAton curtime (Dns.init.run inetAton pre)).1.pdnsAddr = some addr →
      (latestStr none pre).bind inetAton = some addr
  refused : ¬ Fresh (Dns.init.run inetAton pre) curtime → ∀ str, latestStr none pre = some str →
    inetAton str = none → (getDnsAddr inetAton curtime (Dns.init.run inetAton pre)).1.ret = -1

/-- Before the query a string has been set, and if an address has been found before, the first one
was found less than a second ago or is still that of the string. -/
def StillFirst (pre : List Call) (curtime : UInt32) : Prop :=
  match firstAddr inetAton none pre with
  | none => latestStr none pre ≠ none
  | some (addr, time) =>
    curtime - time < 1000 ∨ (latestStr none pre).bind inetAton = some addr

/-- What a query answers when no address is there. -/
lemma readDnsAddrStr_fst (s : Dns) (curtime : UInt32) :
    (readDnsAddrStr inetAton curtime s).1 =
      match s.dnsAddrStr, s.dnsAddrStr.bind inetAton with
      | none, _ => ⟨0, none⟩
      | some _, none => ⟨-1, none⟩
      | some _, some addr => ⟨0, some addr⟩ := by
  rw [readDnsAddrStr]
  cases hstr : s.dnsAddrStr with
  | none => rfl
  | some str => cases hat : inetAton str <;> simp [hat]

variable {inetAton}

/-- One query follows the configured server under exactly this condition on the calls before it. -/
lemma follows_iff_stillFirst (pre : List Call) (curtime : UInt32) :
    Follows inetAton pre curtime ↔ StillFirst inetAton pre curtime := by
  have hstr : (Dns.init.run inetAton pre).dnsAddrStr = latestStr none pre := dnsAddrStr_run _ _
  have hfirst := @dnsAddr_run inetAton Dns.init pre rfl
  cases hf : firstAddr inetAton none pre with
  | none =>
    -- no address is there, so the string decides
    have haddr : (Dns.init.run inetAton pre).dnsAddr = 0 := by simpa [Dns.init, hf] using hfirst
    have hanswer := (congrArg Prod.fst (getDnsAddr_of_eq haddr)).trans
      (readDnsAddrStr_fst inetAton (Dns.init.run inetAton pre) curtime)
    simp only [StillFirst, hf]
    rw [hstr] at hanswer
    cases hlatest : latestStr none pre with
    | none =>
      simp only [hlatest] at hanswer
      refine ⟨fun h => ?_, fun h => absurd rfl h⟩
      exact absurd (by rw [hanswer]) (h.written (by rw [hanswer]))
    | some str =>
      refine ⟨fun _ => Option.some_ne_none str, fun _ => ?_⟩
      cases hat : inetAton str with
      | none =>
        simp only [hlatest, Option.bind_some, hat] at hanswer
        constructor <;> simp [hanswer]
      | some addr =>
        simp only [hlatest, Option.bind_some, hat] at hanswer
        constructor <;> simp [hanswer, hlatest, hat]
  | some found =>
    -- the first address found is there, and it is what is handed out
    obtain ⟨addr, time⟩ := found
    obtain ⟨hne, haddr, htime⟩ : addr ≠ 0 ∧ (Dns.init.run inetAton pre).dnsAddr = addr ∧
        (Dns.init.run inetAton pre).dnsAddrTime = time := by simpa [Dns.init, hf] using hfirst
    have hanswer := congrArg Prod.fst
      (@getDnsAddr_of_ne inetAton _ curtime (haddr.symm ▸ hne))
    have hfresh : Fresh (Dns.init.run inetAton pre) curtime ↔ curtime - time < 1000 := by
      rw [Fresh, haddr, htime, and_iff_right hne]
    rw [haddr] at hanswer
    simp only [StillFirst, hf]
    constructor
    · intro h
      by_cases hc : curtime - time < 1000
      · exact .inl hc
      · exact .inr (h.latest (mt hfresh.mp hc) addr (by rw [hanswer]))
    · intro h
      have hlatest (hnot : ¬ Fresh (Dns.init.run inetAton pre) curtime) :
          (latestStr none pre).bind inetAton = some addr := h.resolve_left (mt hfresh.mpr hnot)
      constructor
      · intro _
        rw [hanswer]
        exact Option.some_ne_none addr
      · intro hnot addr' hw
        rw [hanswer] at hw
        exact hw ▸ hlatest hnot
      · intro hnot str hs hat
        have := hlatest hnot
        rw [hs, Option.bind_some, hat] at this
        exact absurd this.symm (Option.some_ne_none addr)

/-- `P` holds of every query of the calls, with the calls before it. -/
def EveryQuery (P : List Call → UInt32 → Prop) (calls : List Call) : Prop :=
  ∀ pre curtime post, calls = pre ++ .getDnsAddr curtime :: post → P pre curtime

/-- The guest's queries all follow the configured server exactly if none comes before a string has
been set and none, a second or more after the first address was found, while the string is another
one. -/
theorem everyQuery_follows_iff (calls : List Call) :
    EveryQuery (Follows inetAton) calls ↔ EveryQuery (StillFirst inetAton) calls := by
  constructor
  · intro h pre curtime post hcalls
    exact (follows_iff_stillFirst pre curtime).mp (h pre curtime post hcalls)
  · intro h pre curtime post hcalls
    exact (follows_iff_stillFirst pre curtime).mpr (h pre curtime post hcalls)

/-- One part of an address in dotted notation. A part with a leading zero is an octal one and left
out here. -/
def byteOf (part : CString) : Option UInt32 :=
  if part ≠ [] ∧ part.all isdigit ∧ digitsValue part ≤ 255 ∧ (part.head? ≠ some 48 ∨ part = [48])
  then some (digitsValue part).toUInt32 else none

/-- `inet_aton` on the addresses of four decimal parts, on a machine whose words start with the
lowest byte. -/
def dottedQuad : InetAton := fun str =>
  match (str.splitOn 46).mapM byteOf with
  | some [a, b, c, d] => some (a + b <<< 8 + c <<< 16 + d <<< 24)
  | _ => none

/-- Five seconds after the first query the guest is still sent to the old server. -/
theorem not_follows_changed_server : ¬ EveryQuery (Follows dottedQuad)
    [.setDnsAddrStr (some (cstr "10.0.2.3")), .getDnsAddr 0,
      .setDnsAddrStr (some (cstr "8.8.8.8")), .getDnsAddr 5000] := by
  intro h
  have hlast := h [.setDnsAddrStr (some (cstr "10.0.2.3")), .getDnsAddr 0,
    .setDnsAddrStr (some (cstr "8.8.8.8"))] 5000 [] rfl
  have hstale := hlast.latest (by rw [Fresh]; decide) 50462730 (by decide)
  exact absurd hstale (by decide)

end Limbo.Slirp
