import Limbo.Lib.CString

/-!
# Command lines of the monitor

How the monitor reads a line: the word of the command, its string arguments with their quotes and
escapes, and nothing behind them. Only the commands about snapshots are taken from the table of
the monitor; all of them have string arguments.
-/

namespace Limbo.Monitor

open Lib

/-! ### Words and strings -/

/-- One more character in a buffer of `bufSize` bytes, while there is room for it. -/
def push (bufSize : ℕ) (buf : CString) (c : UInt8) : CString :=
  if buf.length < bufSize - 1 then buf ++ [c] else buf

/-- Why `get_str` fails. -/
inductive GetStrError where
  | empty
  | unsupportedEscape (c : UInt8)
  | unterminated
deriving DecidableEq, Repr

/-- The character of an escape code. -/
def escape (c : UInt8) : Option UInt8 :=
  if c = 110 then some 10
  else if c = 114 then some 13
  else if c = 92 ∨ c = 39 ∨ c = 34 then some c
  else none

/-- The loop of `get_str` behind a quotation mark. -/
def getQuoted (bufSize : ℕ) : CString → CString → Except GetStrError (CString × CString)
  | _, [] => .error .unterminated
  | buf, c :: p =>
    if c = 34 then .ok (buf, p)
    else if c = 92 then
      match p with
      | [] => .error (.unsupportedEscape 0)
      | c :: p =>
        match escape c with
        | some c => getQuoted bufSize (push bufSize buf c) p
        | none => .error (.unsupportedEscape c)
    else getQuoted bufSize (push bufSize buf c) p

/-- The loop of `get_str` over a word. -/
def getWord (bufSize : ℕ) : CString → CString → CString × CString
  | buf, [] => (buf, [])
  | buf, c :: p => if isspace c then (buf, c :: p) else getWord bufSize (push bufSize buf c) p

/-- `get_str`: the contents of the buffer and the rest of the line. -/
def getStr (bufSize : ℕ) (p : CString) : Except GetStrError (CString × CString) :=
  match p.dropWhile isspace with
  | [] => .error .empty
  | c :: p => if c = 34 then getQuoted bufSize [] p else .ok (getWord bufSize [] (c :: p))

/-- `get_command_name`: the word that a space or a slash ends, and the rest of the line. -/
def getCommandName (nlen : ℕ) (cmdline : CString) : Option (CString × CString) :=
  let p := cmdline.dropWhile isspace
  let inName (c : UInt8) : Bool := c ≠ 47 ∧ ¬ isspace c
  if p = [] then none else some ((p.takeWhile inName).take (nlen - 1), p.dropWhile inName)

/-! ### Commands -/

/-- What a command calls. -/
inductive Handler where
  | doSavevm | doLoadvm | doDelvm
deriving DecidableEq, Repr

/-- A string argument, `key:s` or `key:s?`. -/
structure StrArg where
  key : CString
  optional : Bool
deriving DecidableEq, Repr

/-- An entry of the command table. -/
structure MonCmd where
  name : CString
  argsType : List StrArg
  mhandler : Handler
deriving DecidableEq, Repr

/-- The commands about snapshots. -/
def monCmds : List MonCmd :=
  [⟨cstr "savevm", [⟨cstr "name", true⟩], .doSavevm⟩,
    ⟨cstr "loadvm", [⟨cstr "name", false⟩], .doLoadvm⟩,
    ⟨cstr "delvm", [⟨cstr "name", false⟩], .doDelvm⟩]

/-- The arguments of a command by their keys. -/
abbrev QDict := List (CString × CString)

/-- `qdict_get_try_str`. -/
def QDict.getTryStr (qdict : QDict) (key : CString) : Option CString := qdict.lookup key

/-- Why a line does not run one of the commands. -/
inductive ParseError where
  | blank
  | otherCommand (cmdname : CString)
  | stringExpected (cmdname : CString) (cause : GetStrError)
  | extraneous (cmdname : CString)
deriving DecidableEq, Repr

/-- The loop of `monitor_parse_command` over the arguments. -/
def parseArgs (cmdname : CString) : List StrArg → CString → QDict →
    Except ParseError (CString × QDict)
  | [], p, qdict => .ok (p, qdict)
  | arg :: args, p, qdict =>
    let p := p.dropWhile isspace
    if arg.optional ∧ p = [] then parseArgs cmdname args p qdict
    else
      match getStr 1024 p with
      | .error e => .error (.stringExpected cmdname e)
      | .ok (buf, p) => parseArgs cmdname args p (qdict ++ [(arg.key, buf)])

/-- `monitor_parse_command`. -/
def monitorParseCommand (cmdline : CString) : Except ParseError (MonCmd × QDict) :=
  match getCommandName 256 cmdline with
  | none => .error .blank
  | some (cmdname, p) =>
    match monCmds.find? (·.name = cmdname) with
    | none => .error (.otherCommand cmdname)
    | some cmd =>
      match parseArgs cmdname cmd.argsType p [] with
      | .error e => .error e
      | .ok (p, qdict) =>
        if p.dropWhile isspace = [] then .ok (cmd, qdict) else .error (.extraneous cmdname)

/-- The name that a line hands to `do_savevm`, if it calls it. -/
def savevmName (cmdline : CString) : Option (Option CString) :=
  match monitorParseCommand cmdline with
  | .ok (cmd, qdict) =>
    if cmd.mhandler = .doSavevm then some (qdict.getTryStr (cstr "name")) else none
  | .error _ => none

/-! ### What a string argument can be -/

lemma length_push_le (bufSize : ℕ) (buf : CString) (c : UInt8) :
    (push bufSize buf c).length ≤ buf.length + 1 := by
  unfold push
  by_cases h : buf.length < bufSize - 1
  · rw [if_pos h, List.length_append, List.length_singleton]
  · rw [if_neg h]
    exact Nat.le_succ _

/-- A quoted string is shorter than the text behind its opening mark. -/
lemma getQuoted_length {bufSize : ℕ} {buf p s rest : CString}
    (h : getQuoted bufSize buf p = .ok (s, rest)) :
    s.length + rest.length < buf.length + p.length := by
  fun_induction getQuoted bufSize buf p with
  | case1 => cases h
  | case2 buf p =>
    cases h
    simp
  | case3 => cases h
  | case4 buf c p e he _ ih =>
    have hpush := length_push_le bufSize buf e
    have := ih h
    simp only [List.length_cons]
    omega
  | case5 => cases h
  | case6 buf c p hc hc' ih =>
    have hpush := length_push_le bufSize buf c
    have := ih h
    simp only [List.length_cons]
    omega

/-- A word is what comes in front of the next space, as far as it fits the buffer. -/
lemma getWord_eq {bufSize : ℕ} {buf p : CString} (h : buf.length ≤ bufSize - 1) :
    getWord bufSize buf p = ((buf ++ p.takeWhile (!isspace ·)).take (bufSize - 1),
      p.dropWhile (!isspace ·)) := by
  induction p generalizing buf with
  | nil => simp [getWord, List.take_of_length_le h]
  | cons c p ih =>
    rw [getWord]
    by_cases hc : isspace c
    · simp [hc, List.take_of_length_le h]
    · rw [if_neg hc]
      by_cases hroom : buf.length < bufSize - 1
      · have hpush : push bufSize buf c = buf ++ [c] := if_pos hroom
        have hlen : (buf ++ [c]).length ≤ bufSize - 1 := by
          rw [List.length_append, List.length_singleton]
          exact hroom
        rw [hpush, ih hlen]
        simp [hc]
      · have hpush : push bufSize buf c = buf := if_neg hroom
        have hfull : bufSize - 1 = buf.length := le_antisymm (not_lt.mp hroom) h
        rw [hpush, ih h, hfull, List.take_left, List.take_left]
        simp [hc]

/-- A string argument is no longer than the text it is read from. -/
lemma getStr_length {bufSize : ℕ} {p s rest : CString} (h : getStr bufSize p = .ok (s, rest)) :
    s.length + rest.length ≤ p.length := by
  have hdrop : (p.dropWhile isspace).length ≤ p.length := List.length_dropWhile_le _ _
  unfold getStr at h
  cases hp : p.dropWhile isspace with
  | nil => simp [hp] at h
  | cons c q =>
    rw [hp, List.length_cons] at hdrop
    simp only [hp] at h
    by_cases hc : c = 34
    · rw [if_pos hc] at h
      have := getQuoted_length h
      rw [List.length_nil] at this
      omega
    · rw [if_neg hc, getWord_eq (Nat.zero_le _)] at h
      cases h
      have hsplit := congrArg List.length
        (List.takeWhile_append_dropWhile (p := (!isspace ·)) (l := c :: q))
      rw [List.length_append, List.length_cons] at hsplit
      rw [List.nil_append, List.length_take]
      omega

/-- An argument in the dictionary is no longer than the text the arguments are read from. -/
lemma parseArgs_length {cmdname : CString} {args : List StrArg} {p p' : CString}
    {qdict qdict' : QDict} (h : parseArgs cmdname args p qdict = .ok (p', qdict')) :
    ∀ kv ∈ qdict', kv ∈ qdict ∨ kv.2.length ≤ p.length := by
  induction args generalizing p qdict with
  | nil =>
    cases h
    exact fun kv hkv => .inl hkv
  | cons arg args ih =>
    have hdrop : (p.dropWhile isspace).length ≤ p.length := List.length_dropWhile_le _ _
    simp only [parseArgs] at h
    intro kv hkv
    split_ifs at h with hnull
    · rcases ih h kv hkv with hold | hlen
      · exact .inl hold
      · exact .inr (hlen.trans hdrop)
    · cases hs : getStr 1024 (p.dropWhile isspace) with
      | error e => simp [hs] at h
      | ok sr =>
        obtain ⟨s, rest⟩ := sr
        have hlen := getStr_length hs
        simp only [hs] at h
        rcases ih h kv hkv with hold | hnew
        · rcases List.mem_append.mp hold with hold | hnew
          · exact .inl hold
          · obtain rfl := List.mem_singleton.mp hnew
            exact .inr (by dsimp only; omega)
        · exact .inr (by omega)

lemma getCommandName_length {nlen : ℕ} {cmdline cmdname p : CString}
    (h : getCommandName nlen cmdline = some (cmdname, p)) :
    cmdname.length + p.length ≤ cmdline.length := by
  have hdrop : (cmdline.dropWhile isspace).length ≤ cmdline.length :=
    List.length_dropWhile_le _ _
  simp only [getCommandName] at h
  split_ifs at h
  cases h
  rw [List.length_take]
  have hsplit := congrArg List.length (List.takeWhile_append_dropWhile
    (p := fun c : UInt8 => decide (c ≠ 47 ∧ ¬ isspace c)) (l := cmdline.dropWhile isspace))
  rw [List.length_append] at hsplit
  omega

/-- The name is shorter than its line, at least by the word of the command. -/
lemma savevmName_length {cmdline s : CString} (h : savevmName cmdline = some (some s)) :
    s.length + 6 ≤ cmdline.length := by
  unfold savevmName monitorParseCommand at h
  cases hn : getCommandName 256 cmdline with
  | none => simp [hn] at h
  | some np =>
    obtain ⟨cmdname, p⟩ := np
    have hline := getCommandName_length hn
    simp only [hn] at h
    cases hcmd : monCmds.find? (·.name = cmdname) with
    | none => simp [hcmd] at h
    | some cmd =>
      have hname : cmd.name = cmdname := by simpa using List.find?_some hcmd
      simp only [hcmd] at h
      cases ha : parseArgs cmdname cmd.argsType p [] with
      | error e => simp [ha] at h
      | ok pq =>
        obtain ⟨p', qdict⟩ := pq
        simp only [ha] at h
        split_ifs at h with hend
        · simp only [Option.ite_none_right_eq_some, Option.some.injEq] at h
          obtain ⟨hsave, hget⟩ := h
          have hmem : (cstr "name", s) ∈ qdict := by
            obtain ⟨l₁, l₂, rfl, -⟩ := List.lookup_eq_some_iff.mp hget
            simp
          have hcmdlen : cmdname.length = 6 := by
            rw [← hname]
            have hin := List.mem_of_find?_eq_some hcmd
            revert hsave hin
            simp only [monCmds, List.mem_cons, List.not_mem_nil, or_false]
            rintro hsave (rfl | rfl | rfl)
            · decide
            · cases hsave
            · cases hsave
          rcases parseArgs_length ha _ hmem with hold | hlen
          · cases hold
          · dsimp only at hlen
            omega

/-! ### A line typed for a name -/

/-- A text that the monitor takes as a word, all of it. -/
structure Plain (t : CString) : Prop where
  ne_nil : t ≠ []
  notSpace : ∀ c ∈ t, ¬ isspace c
  notQuoted : t.head? ≠ some 34
  fits : t.length < 1024

lemma dropWhile_isspace {t : CString} (h : ∀ c ∈ t, ¬ isspace c) : t.dropWhile isspace = t := by
  cases t with
  | nil => rfl
  | cons c t => exact List.dropWhile_cons_of_neg (h c List.mem_cons_self)

/-- The parser on a line of the word `savevm` and a text. -/
lemma savevmName_savevm (t : CString) : savevmName (cstr "savevm " ++ t) =
    match t.dropWhile isspace with
    | [] => some none
    | p =>
      match getStr 1024 p with
      | .error _ => none
      | .ok (s, rest) => if rest.dropWhile isspace = [] then some (some s) else none := by
  have hname : getCommandName 256 (cstr "savevm " ++ t) = some (cstr "savevm", 32 :: t) := by
    have hword : cstr "savevm " = [115, 97, 118, 101, 118, 109, 32] := by decide
    have hword' : cstr "savevm" = [115, 97, 118, 101, 118, 109] := by decide
    rw [hword, hword']
    simp [getCommandName, isspace]
  have hcmd : monCmds.find? (·.name = cstr "savevm") =
      some ⟨cstr "savevm", [⟨cstr "name", true⟩], .doSavevm⟩ := by decide
  have hspace : (32 :: t).dropWhile isspace = t.dropWhile isspace :=
    List.dropWhile_cons_of_pos (by decide)
  unfold savevmName monitorParseCommand
  rw [hname]
  dsimp only
  rw [hcmd]
  simp only [parseArgs, hspace]
  cases hp : t.dropWhile isspace with
  | nil => simp [QDict.getTryStr]
  | cons c p =>
    cases hs : getStr 1024 (c :: p) with
    | error e => simp [hs]
    | ok sr =>
      by_cases hend : sr.2.dropWhile isspace = []
      · simp [hs, hend, QDict.getTryStr]
      · simp [hs, hend]

/-- A plain text is the name that arrives. -/
lemma savevmName_of_plain {t : CString} (h : Plain t) :
    savevmName (cstr "savevm " ++ t) = some (some t) := by
  have hstart : t.dropWhile isspace = t := dropWhile_isspace h.notSpace
  have hword : t.takeWhile (!isspace ·) = t :=
    List.takeWhile_eq_self_iff.mpr fun c hc => by simpa using h.notSpace c hc
  have hrest : t.dropWhile (!isspace ·) = [] :=
    List.dropWhile_eq_nil_iff.mpr fun c hc => by simpa using h.notSpace c hc
  have hstr : getStr 1024 t = .ok (t, []) := by
    unfold getStr
    rw [hstart]
    cases t with
    | nil => exact absurd rfl h.ne_nil
    | cons c p =>
      have hc : c ≠ 34 := fun hc => h.notQuoted (by rw [hc]; rfl)
      have hfits : (c :: p).length ≤ 1023 := Nat.le_of_lt_succ h.fits
      dsimp only
      rw [if_neg hc, getWord_eq (Nat.zero_le _), hword, hrest, List.nil_append,
        List.take_of_length_le hfits]
  rw [savevmName_savevm, hstart]
  cases t with
  | nil => exact absurd rfl h.ne_nil
  | cons c p => simp [hstr]

/-- Any other text loses characters on the way to the name. -/
lemma savevmName_eq {t s : CString} (h : savevmName (cstr "savevm " ++ t) = some (some s)) :
    (Plain t ∧ s = t) ∨ s.length < t.length := by
  rw [savevmName_savevm] at h
  have hdrop : (t.dropWhile isspace).length ≤ t.length := List.length_dropWhile_le _ _
  have hsuffix : t.dropWhile isspace <:+ t := List.dropWhile_suffix _
  generalize hp : t.dropWhile isspace = p at h hdrop hsuffix
  cases p with
  | nil => simp at h
  | cons c q =>
    have hc : ¬ isspace c := by
      have hne : t.dropWhile isspace ≠ [] := by
        rw [hp]
        exact List.cons_ne_nil c q
      simpa [hp] using List.head_dropWhile_not isspace hne
    have hstart : (c :: q).dropWhile isspace = c :: q := List.dropWhile_cons_of_neg hc
    dsimp only at h
    unfold getStr at h
    simp only [hstart] at h
    by_cases hquote : c = 34
    · rw [if_pos hquote] at h
      cases hs : getQuoted 1024 [] q with
      | error e => simp [hs] at h
      | ok sr =>
        have hlen := getQuoted_length hs
        simp only [hs, Option.ite_none_right_eq_some, Option.some.injEq] at h
        obtain ⟨-, rfl⟩ := h
        rw [List.length_cons] at hdrop
        rw [List.length_nil] at hlen
        exact .inr (by omega)
    · rw [if_neg hquote, getWord_eq (Nat.zero_le _)] at h
      simp only [List.nil_append, Option.ite_none_right_eq_some, Option.some.injEq] at h
      obtain ⟨hend, rfl⟩ := h
      have hsplit := List.takeWhile_append_dropWhile (p := (!isspace ·)) (l := c :: q)
      have hsum := congrArg List.length hsplit
      rw [List.length_append] at hsum
      rw [List.length_take]
      by_cases hshort : min 1023 ((c :: q).takeWhile (!isspace ·)).length < t.length
      · exact .inr hshort
      · left
        have hall : (c :: q).dropWhile (!isspace ·) = [] := by
          apply List.eq_nil_of_length_eq_zero
          omega
        have htake : (c :: q).takeWhile (!isspace ·) = c :: q := by
          rw [hall, List.append_nil] at hsplit
          exact hsplit
        rw [htake] at hshort ⊢
        obtain rfl : c :: q = t := hsuffix.eq_of_length (by omega)
        have hfits : (c :: q).length ≤ 1023 := by omega
        refine ⟨⟨List.cons_ne_nil c q, ?_, ?_, by omega⟩, List.take_of_length_le hfits⟩
        · intro d hd
          rw [← htake] at hd
          simpa using List.mem_takeWhile_imp hd
        · simpa using hquote

end Limbo.Monitor
