import Limbo.Monitor.Parse
import Limbo.Snapshot.SavedName

/-!
# Saving a state from the screen of the machine

`onSaveState` types a `savevm` command into the monitor and stores the name in the database,
whatever the monitor has made of it. Every key event arrives at the line of the monitor in order;
the character of a key takes as many bytes there as it has in the strings that the JNI hands over,
so that the line and a later load of the stored name speak of the same bytes.
-/

namespace Limbo.Monitor

open Lib Snapshot

/-! ### Typing -/

/-- `Character.isISOControl`. -/
def isISOControl (c : UInt16) : Bool := c ≤ 0x1f ∨ (0x7f ≤ c ∧ c ≤ 0x9f)

/-- The key symbol of the enter key. -/
def enterKeySym : UInt16 := 0xff0d

/-- The keys that `sendText` presses and releases. -/
def sendText (s : JString) : List UInt16 :=
  s.filterMap fun c =>
    if isISOControl c then if c = 10 then some enterKeySym else none
    else some c

/-! ### The monitor -/

/-- One call of `do_savevm`. -/
structure Call where
  name : Option CString
  before : State
  outcome : Outcome

/-- The monitor in front of the machine: the line typed so far, the state of the machine, and the
saves that were run. -/
structure Mon where
  line : CString
  state : State
  calls : List Call

section Monitor

variable (others : CString → State → State) (env : ℕ → Env)

/-- `handle_user_command`. The other commands do `others`; the `n`-th save runs in `env n`. -/
def handleUserCommand (cmdline : CString) (mon : Mon) : Mon :=
  match monitorParseCommand cmdline with
  | .ok (cmd, qdict) =>
    match cmd.mhandler with
    | .doSavevm =>
      let name := qdict.getTryStr (cstr "name")
      let o := doSavevm (env mon.calls.length) name mon.state
      { mon with
        state := o.state
        calls := mon.calls ++ [⟨name, mon.state, o⟩] }
    | .doLoadvm | .doDelvm => { mon with state := others cmdline mon.state }
  | .error (.otherCommand _) => { mon with state := others cmdline mon.state }
  | .error _ => mon

/-- A key that is pressed and released. -/
def typeKey (mon : Mon) (keySym : UInt16) : Mon :=
  if keySym = enterKeySym then handleUserCommand others env mon.line { mon with line := [] }
  else { mon with line := mon.line ++ JString.utfUnit keySym }

def typeKeys (mon : Mon) (keys : List UInt16) : Mon := keys.foldl (typeKey others env) mon

end Monitor

/-! ### The database -/

/-- The columns that identify a row of the machine table. -/
structure MachineRow where
  machinename : JString
  snapshotName : JString
deriving DecidableEq, Repr

/-- What the database makes of the two statements: the rows that the `delete` leaves, whose text
holds the names as they are, and whether the `insert` throws. -/
structure Database where
  delete : MachineRow → List MachineRow → List MachineRow
  insertThrows : Bool

/-- `insertMachine`: the row it stores, if the statement does not throw, and the table. -/
def insertMachine (db : Database) (row : MachineRow) (rows : List MachineRow) :
    Option MachineRow × List MachineRow :=
  if db.insertThrows then (none, rows) else (some row, rows ++ [row])

/-- `saveStateDB`. -/
def saveStateDB (db : Database) (machinename snapshotName : JString) (rows : List MachineRow) :
    Option MachineRow × List MachineRow :=
  let row := ⟨machinename, snapshotName⟩
  insertMachine db row (db.delete row rows)

/-- What `onSaveState` leaves. -/
structure SavedState where
  mon : Mon
  stored : Option MachineRow
  rows : List MachineRow

/-- `onSaveState` on a monitor with an empty line. -/
def onSaveState (others : CString → State → State) (env : ℕ → Env) (db : Database)
    (machinename : JString) (s : State) (rows : List MachineRow) (stateName : JString) :
    SavedState :=
  let mon := typeKeys others env ⟨[], s, []⟩ (sendText (jstr "savevm " ++ stateName ++ [10]))
  let (stored, rows) := saveStateDB db machinename stateName rows
  ⟨mon, stored, rows⟩

/-- If a row is stored, a save was run with exactly the name that was entered, and it has made a
snapshot that a load by the stored name finds. -/
def NameKept (stateName : JString) (r : SavedState) : Prop :=
  ∀ row, r.stored = some row → ∃ c ∈ r.mon.calls,
    c.name = some (JString.utfChars stateName) ∧
      SavedAs (JString.utfChars row.snapshotName) c.before c.outcome

/-- A name that reaches `do_savevm` unchanged. -/
structure Typable (name : JString) : Prop where
  ne_nil : name ≠ []
  chars : ∀ u ∈ name, ¬ isISOControl u ∧ u ≠ enterKeySym ∧ u ≠ 32
  notQuoted : name.head? ≠ some 34

/-! ### Bytes of a name -/

lemma isspace_iff (c : UInt8) :
    isspace c ↔ c.toNat = 32 ∨ (9 ≤ c.toNat ∧ c.toNat ≤ 13) := by
  unfold isspace
  rw [decide_eq_true_iff, ← UInt8.toNat_inj, UInt8.le_iff_toNat_le, UInt8.le_iff_toNat_le]
  rfl

lemma isISOControl_iff (c : UInt16) :
    isISOControl c ↔ c.toNat ≤ 31 ∨ (127 ≤ c.toNat ∧ c.toNat ≤ 159) := by
  unfold isISOControl
  rw [decide_eq_true_iff, UInt16.le_iff_toNat_le, UInt16.le_iff_toNat_le, UInt16.le_iff_toNat_le]
  rfl

/-- The bytes of a name are one word of the monitor exactly when no character of it is a space
and it does not begin with a quotation mark. -/
lemma plain_utfChars_iff {name : JString} (hcontrol : ∀ u ∈ name, ¬ isISOControl u) :
    Plain (JString.utfChars name) ↔ name ≠ [] ∧ (∀ u ∈ name, u ≠ 32) ∧ name.head? ≠ some 34 ∧
      (JString.utfChars name).length < 1024 := by
  have hnil : JString.utfChars name ≠ [] ↔ name ≠ [] := by
    cases name with
    | nil => simp [JString.utfChars]
    | cons u s =>
      rw [JString.utfChars_cons]
      simp [JString.utfUnit_ne_nil]
  have hspace : (∀ c ∈ JString.utfChars name, ¬ isspace c) ↔ ∀ u ∈ name, u ≠ 32 := by
    constructor
    · rintro h u hu rfl
      have hmem : 32 ∈ JString.utfChars name :=
        List.mem_flatMap.mpr ⟨32, hu, by decide⟩
      exact h 32 hmem (by decide)
    · intro h c hc hsp
      obtain ⟨u, hu, hcu⟩ := List.mem_flatMap.mp hc
      have hne : u.toNat ≠ 32 := fun heq => h u hu (UInt16.toNat_inj.mp heq)
      have hno := mt (isISOControl_iff u).mpr (hcontrol u hu)
      have hsp := (isspace_iff c).mp hsp
      rcases JString.mem_utfUnit hcu with ⟨heq, -⟩ | hhigh <;> omega
  have hhead : (JString.utfChars name).head? = some 34 ↔ name.head? = some 34 := by
    cases name with
    | nil => decide
    | cons u s =>
      rw [JString.utfChars_cons, List.head?_append_of_ne_nil _ (JString.utfUnit_ne_nil u), List.head?_cons]
      constructor
      · intro h
        have hmem := List.mem_of_mem_head? (Option.mem_def.mpr h)
        rcases JString.mem_utfUnit hmem with ⟨heq, -⟩ | hhigh
        · rw [UInt16.toNat_inj.mp (heq.symm.trans (by decide : (34 : UInt8).toNat =
            (34 : UInt16).toNat))]
        · exact absurd hhigh (by decide)
      · intro h
        obtain rfl := Option.some.inj h
        decide
  have hquote : name.head? ≠ some 34 ↔ (JString.utfChars name).head? ≠ some 34 :=
    (not_congr hhead).symm
  rw [← hnil, ← hspace, hquote]
  exact ⟨fun h => ⟨h.ne_nil, h.notSpace, h.notQuoted, h.fits⟩, fun ⟨h1, h2, h3, h4⟩ =>
    ⟨h1, h2, h3, h4⟩⟩

/-! ### What a line runs -/

section Monitor

variable {others : CString → State → State} {env : ℕ → Env}

lemma handleUserCommand_savevm {cmdline : CString} {name : Option CString}
    (h : savevmName cmdline = some name) (mon : Mon) :
    handleUserCommand others env cmdline mon = { mon with
      state := (doSavevm (env mon.calls.length) name mon.state).state
      calls := mon.calls ++
        [⟨name, mon.state, doSavevm (env mon.calls.length) name mon.state⟩] } := by
  unfold savevmName at h
  unfold handleUserCommand
  cases hp : monitorParseCommand cmdline with
  | error e => simp [hp] at h
  | ok cq =>
    rw [hp] at h
    simp only [Option.ite_none_right_eq_some, Option.some.injEq] at h
    obtain ⟨hsave, rfl⟩ := h
    dsimp only
    rw [hsave]

lemma handleUserCommand_calls {cmdline : CString} (h : savevmName cmdline = none) (mon : Mon) :
    (handleUserCommand others env cmdline mon).calls = mon.calls := by
  unfold savevmName at h
  unfold handleUserCommand
  cases hp : monitorParseCommand cmdline with
  | error e => cases e <;> rfl
  | ok cq =>
    rw [hp] at h
    simp only [ite_eq_right_iff, reduceCtorEq, imp_false] at h
    dsimp only
    cases hm : cq.1.mhandler with
    | doSavevm => exact absurd hm h
    | doLoadvm => rfl
    | doDelvm => rfl

lemma handleUserCommand_line (cmdline : CString) (mon : Mon) :
    (handleUserCommand others env cmdline mon).line = mon.line := by
  unfold handleUserCommand
  split
  · split <;> rfl
  · rfl
  · rfl

/-- Keys other than the enter key only make the line longer. -/
lemma typeKeys_line {keys : List UInt16} (h : ∀ k ∈ keys, k ≠ enterKeySym) (mon : Mon) :
    typeKeys others env mon keys = { mon with line := mon.line ++ JString.utfChars keys } := by
  induction keys generalizing mon with
  | nil => simp [typeKeys, JString.utfChars]
  | cons k keys ih =>
    have hk : typeKey others env mon k = { mon with line := mon.line ++ JString.utfUnit k } :=
      if_neg (h k List.mem_cons_self)
    have hrest := ih (fun k' hk' => h k' (List.mem_cons_of_mem k hk'))
      { mon with line := mon.line ++ JString.utfUnit k }
    rw [typeKeys, List.foldl_cons, hk]
    rw [typeKeys] at hrest
    rw [hrest, JString.utfChars_cons, List.append_assoc]

/-- The names of the saves that some keys start are shorter than the line in front of them and
the characters they type, by the word of the command. -/
lemma typeKeys_calls {keys : List UInt16} {mon : Mon} {c : Call} {s : CString}
    (h : c ∈ (typeKeys others env mon keys).calls) (hs : c.name = some s) :
    c ∈ mon.calls ∨ s.length + 6 ≤ mon.line.length +
      (JString.utfChars (keys.filter (· != enterKeySym))).length := by
  induction keys generalizing mon with
  | nil => exact .inl h
  | cons k keys ih =>
    rw [typeKeys, List.foldl_cons] at h
    by_cases hk : k = enterKeySym
    · have hstep : typeKey others env mon k =
          handleUserCommand others env mon.line { mon with line := [] } := if_pos hk
      have hfilter : (k :: keys).filter (· != enterKeySym) = keys.filter (· != enterKeySym) :=
        List.filter_cons_of_neg (by simp [hk])
      rw [hstep] at h
      rw [hfilter]
      rcases ih h with hcall | hlen
      · cases hn : savevmName mon.line with
        | none =>
          rw [handleUserCommand_calls hn] at hcall
          exact .inl hcall
        | some name =>
          rw [handleUserCommand_savevm hn] at hcall
          rcases List.mem_append.mp hcall with hold | hnew
          · exact .inl hold
          · obtain rfl := List.mem_singleton.mp hnew
            obtain rfl : name = some s := hs
            have := savevmName_length hn
            exact .inr (by omega)
      · rw [handleUserCommand_line, List.length_nil] at hlen
        exact .inr (by omega)
    · have hstep : typeKey others env mon k =
          { mon with line := mon.line ++ JString.utfUnit k } := if_neg hk
      have hfilter : (k :: keys).filter (· != enterKeySym) =
          k :: keys.filter (· != enterKeySym) := List.filter_cons_of_pos (by simp [hk])
      rw [hstep] at h
      rw [hfilter, JString.utfChars_cons, List.length_append]
      rcases ih h with hcall | hlen
      · exact .inl hcall
      · rw [List.length_append] at hlen
        exact .inr (by omega)

end Monitor

/-! ### The keys of a name -/

lemma sendText_append (s t : JString) : sendText (s ++ t) = sendText s ++ sendText t :=
  List.filterMap_append

/-- The keys of a name, the enter keys left out, are characters of the name. -/
lemma filter_sendText (s : JString) : (sendText s).filter (· != enterKeySym) =
    s.filter fun u => !isISOControl u && u != enterKeySym := by
  induction s with
  | nil => rfl
  | cons u s ih =>
    have hcons : sendText (u :: s) = sendText [u] ++ sendText s := sendText_append [u] s
    rw [hcons, List.filter_append, ih]
    by_cases hctl : isISOControl u
    · by_cases hnl : u = 10
      · subst hnl
        rfl
      · have hnone : sendText [u] = [] := by simp [sendText, hctl, hnl]
        rw [hnone]
        simp [hctl]
    · have hkey : sendText [u] = [u] := by simp [sendText, hctl]
      rw [hkey]
      by_cases henter : u = enterKeySym <;> simp [hctl, henter]

lemma sendText_eq_self {s : JString} (h : ∀ u ∈ s, ¬ isISOControl u) : sendText s = s := by
  unfold sendText
  induction s with
  | nil => rfl
  | cons u s ih =>
    have hu := h u List.mem_cons_self
    rw [List.filterMap_cons, if_neg hu, ih fun v hv => h v (List.mem_cons_of_mem u hv)]

/-! ### The name that is stored -/

section Save

variable (others : CString → State → State) (env : ℕ → Env) (s : State)

lemma typeKeys_append (mon : Mon) (keys keys' : List UInt16) :
    typeKeys others env mon (keys ++ keys') =
      typeKeys others env (typeKeys others env mon keys) keys' := List.foldl_append

/-- The word of the command is on the line when the first key of the name is pressed. -/
lemma typeKeys_savevm (name : JString) :
    typeKeys others env ⟨[], s, []⟩ (sendText (jstr "savevm " ++ name ++ [10])) =
      typeKeys others env ⟨cstr "savevm ", s, []⟩ (sendText name ++ [enterKeySym]) := by
  have hword : sendText (jstr "savevm ") = jstr "savevm " := by decide
  have hbytes : JString.utfChars (jstr "savevm ") = cstr "savevm " := by decide
  have habsent : enterKeySym ∉ jstr "savevm " := by decide
  have hnoEnter : ∀ k ∈ jstr "savevm ", k ≠ enterKeySym := fun k hk heq => habsent (heq ▸ hk)
  have hlast : sendText [10] = [enterKeySym] := by decide
  rw [List.append_assoc, sendText_append, sendText_append, hword, hlast, typeKeys_append,
    typeKeys_line hnoEnter, hbytes, List.nil_append]

/-- A typable name is the name of the one save that is run. -/
lemma typeKeys_typable {name : JString} (h : Typable name)
    (hlen : (JString.utfChars name).length < 1024) :
    (typeKeys others env ⟨[], s, []⟩ (sendText (jstr "savevm " ++ name ++ [10]))).calls =
      [⟨some (JString.utfChars name), s, doSavevm (env 0) (some (JString.utfChars name)) s⟩] := by
  have hkeys : sendText name = name := sendText_eq_self fun u hu => (h.chars u hu).1
  have hplain : Plain (JString.utfChars name) :=
    (plain_utfChars_iff fun u hu => (h.chars u hu).1).mpr
      ⟨h.ne_nil, fun u hu => (h.chars u hu).2.2, h.notQuoted, hlen⟩
  have henter (mon : Mon) : typeKeys others env mon [enterKeySym] =
      handleUserCommand others env mon.line { mon with line := [] } := by
    show typeKey others env mon enterKeySym = _
    exact if_pos rfl
  rw [typeKeys_savevm, typeKeys_append, hkeys,
    typeKeys_line fun u hu => (h.chars u hu).2.1, henter]
  dsimp only
  rw [handleUserCommand_savevm (savevmName_of_plain hplain)]
  rfl

/-- A save with exactly the name that was entered is only run for a typable name: whatever the
keys do not carry or the parser takes away is missing at the end. -/
lemma typable_of_call {name : JString} {c : Call}
    (hc : c ∈ (typeKeys others env ⟨[], s, []⟩
      (sendText (jstr "savevm " ++ name ++ [10]))).calls)
    (hname : c.name = some (JString.utfChars name)) :
    Typable name ∧ (JString.utfChars name).length < 1024 := by
  rw [typeKeys_savevm] at hc
  -- the keys up to the first enter key, and those behind it
  obtain ⟨first, rest, hsplit, hfirst⟩ := List.eq_append_cons_of_mem
    (List.mem_append_right (sendText name) (List.mem_singleton_self enterKeySym))
  have hnoEnter : ∀ k ∈ first, k ≠ enterKeySym := fun k hk heq => hfirst (heq ▸ hk)
  have hkept : first ++ rest.filter (· != enterKeySym) =
      name.filter fun u => !isISOControl u && u != enterKeySym := by
    have hself : first.filter (· != enterKeySym) = first :=
      List.filter_eq_self.mpr fun k hk => by simpa using hnoEnter k hk
    have := congrArg (List.filter (· != enterKeySym)) hsplit
    rw [List.filter_append, List.filter_append, hself, filter_sendText,
      List.filter_cons_of_neg (by simp), List.filter_cons_of_neg (by simp), List.filter_nil,
      List.append_nil] at this
    exact this.symm
  have hsub : (first ++ rest.filter (· != enterKeySym)).Sublist name :=
    hkept ▸ List.filter_sublist
  have hbytes := JString.length_utfChars_le hsub
  rw [JString.utfChars_append, List.length_append] at hbytes
  rw [hsplit, typeKeys_append, typeKeys_line hnoEnter] at hc
  have henter (mon : Mon) : typeKeys others env mon (enterKeySym :: rest) =
      typeKeys others env (handleUserCommand others env mon.line { mon with line := [] }) rest := by
    rw [typeKeys, List.foldl_cons, typeKey, if_pos rfl]
    rfl
  rw [henter] at hc
  dsimp only at hc
  rcases typeKeys_calls hc hname with hcall | hlong
  · -- the line of the first enter key
    cases hn : savevmName (cstr "savevm " ++ JString.utfChars first) with
    | none =>
      rw [handleUserCommand_calls hn] at hcall
      cases hcall
    | some o =>
      rw [handleUserCommand_savevm hn] at hcall
      obtain rfl := List.mem_singleton.mp hcall
      obtain rfl : o = some (JString.utfChars name) := hname
      rcases savevmName_eq hn with ⟨hplain, heq⟩ | hshort
      · have hfirstName : first = name := by
          apply JString.eq_of_length_utfChars ((List.sublist_append_left _ _).trans hsub)
          rw [heq]
        have hfilter : ∀ u ∈ name, (!isISOControl u && u != enterKeySym) = true := by
          have hlen : name.length ≤
              (name.filter fun u => !isISOControl u && u != enterKeySym).length := by
            rw [← hkept, List.length_append, hfirstName]
            exact Nat.le_add_right _ _
          exact List.filter_eq_self.mp (List.filter_sublist.eq_of_length_le hlen)
        have hchars : ∀ u ∈ name, ¬ isISOControl u ∧ u ≠ enterKeySym := by
          intro u hu
          simpa using hfilter u hu
        rw [hfirstName, plain_utfChars_iff fun u hu => (hchars u hu).1] at hplain
        obtain ⟨hne, hspace, hquote, hfits⟩ := hplain
        exact ⟨⟨hne, fun u hu => ⟨(hchars u hu).1, (hchars u hu).2, hspace u hu⟩, hquote⟩, hfits⟩
      · omega
  · rw [handleUserCommand_line, List.length_nil] at hlong
    omega

/-- A stored name is the name of a snapshot that a load by it finds exactly when the name is
typable and the save makes a snapshot of it. -/
theorem nameKept_onSaveState_iff (db : Database) (machinename : JString) (rows : List MachineRow)
    (stateName : JString) :
    NameKept stateName (onSaveState others env db machinename s rows stateName) ↔
      db.insertThrows = true ∨
        (Typable stateName ∧ SavesName (env 0) (JString.utfChars stateName) s.blk) := by
  have hmon : (onSaveState others env db machinename s rows stateName).mon =
      typeKeys others env ⟨[], s, []⟩ (sendText (jstr "savevm " ++ stateName ++ [10])) := rfl
  have hstored : (onSaveState others env db machinename s rows stateName).stored =
      if db.insertThrows then none else some ⟨machinename, stateName⟩ := by
    show (insertMachine db _ _).1 = _
    unfold insertMachine
    split_ifs <;> rfl
  unfold NameKept
  rw [hmon, hstored]
  by_cases hthrows : db.insertThrows = true
  · rw [if_pos hthrows]
    exact iff_of_true (fun row hrow => by cases hrow) (.inl hthrows)
  · rw [if_neg hthrows]
    constructor
    · intro h
      obtain ⟨c, hc, hname, hsaved⟩ := h _ rfl
      obtain ⟨htypable, hlen⟩ := typable_of_call others env s hc hname
      rw [typeKeys_typable others env s htypable hlen] at hc
      obtain rfl := List.mem_singleton.mp hc
      exact .inr ⟨htypable, (savedAs_doSavevm_iff _ _ _).mp hsaved⟩
    · rintro (habs | ⟨htypable, hsaves⟩) row hrow
      · exact absurd habs hthrows
      · obtain rfl := Option.some.inj hrow
        obtain ⟨_, _, _, _, htakes⟩ := hsaves.takes
        have hlen : (JString.utfChars stateName).length < 1024 := by
          have := htakes.fits
          omega
        rw [typeKeys_typable others env s htypable hlen]
        exact ⟨_, List.mem_singleton_self _, rfl, (savedAs_doSavevm_iff _ _ _).mpr hsaves⟩

end Save

/-- The state name `my state` is stored, and no save is run. -/
theorem onSaveState_with_space : ¬ NameKept (jstr "my state")
    (onSaveState (fun _ s => s) (fun _ => quietEnv) ⟨fun _ rows => rows, false⟩ (jstr "vm")
      ⟨⟨[qcow2Disk []], none, by simp⟩, 0⟩ [] (jstr "my state")) := by
  intro h
  obtain ⟨c, hc, -⟩ := h _ rfl
  have hnone : (onSaveState (fun _ s => s) (fun _ => quietEnv) ⟨fun _ rows => rows, false⟩
      (jstr "vm") ⟨⟨[qcow2Disk []], none, by simp⟩, 0⟩ [] (jstr "my state")).mon.calls.length = 0 := by
    decide
  rw [List.length_eq_zero_iff] at hnone
  rw [hnone] at hc
  cases hc

end Limbo.Monitor
