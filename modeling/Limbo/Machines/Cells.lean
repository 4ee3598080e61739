import Limbo.Machines.Csv

/-!
# The cells of a row in the file

What the columns of a machine are after its line was read, and which cells of a row come back as
they were.
-/

namespace Limbo.Machines

/-! ### The cells of a machine that is read -/

/-- What `getVMs` does with a column: take the text, take its number, or nothing. -/
inductive Reading where
  | text | number | ignored
deriving DecidableEq

def Column.reading : Column → Reading
  | .memory | .disableAcpi | .disableHpet => .number
  | .enableUsbmouse | .cpunum | .machineType | .status | .lastupdated => .ignored
  | _ => .text

/-- What a column holds after `setAttr`. -/
def readText (c : Column) (s : Text) (old : Option Text) : Option Text :=
  match c.reading with
  | .text => some s
  | .number => (parseInt s).map intText
  | .ignored => old

/-- `setAttr` changes the column of the attribute. -/
lemma stateValues_setAttr {m m' : Machine} {s : Text} {c : Column} (h : setAttr m s c = some m')
    (now : Text) :
    m'.stateValues now =
      Function.update (m.stateValues now) c (readText c s (m.stateValues now c)) := by
  have hnumber : ∀ {f : Int32 → Machine}, (parseInt s).map f = some m' →
      ∃ n, parseInt s = some n ∧ f n = m' := fun hf => Option.map_eq_some_iff.mp hf
  funext d
  rw [Function.update_apply]
  by_cases hd : d = c
  · subst hd
    rw [if_pos rfl]
    cases d
    case memory =>
      obtain ⟨n, hn, rfl⟩ := hnumber h
      show some (intText n) = (parseInt s).map intText
      rw [hn, Option.map_some]
    case disableAcpi =>
      obtain ⟨n, hn, rfl⟩ := hnumber h
      show some (intText n) = (parseInt s).map intText
      rw [hn, Option.map_some]
    case disableHpet =>
      obtain ⟨n, hn, rfl⟩ := hnumber h
      show some (intText n) = (parseInt s).map intText
      rw [hn, Option.map_some]
    all_goals
      obtain rfl := Option.some.inj h
      rfl
  · rw [if_neg hd]
    cases c
    case memory =>
      obtain ⟨n, -, rfl⟩ := hnumber h
      cases d <;> first | rfl | exact absurd rfl hd
    case disableAcpi =>
      obtain ⟨n, -, rfl⟩ := hnumber h
      cases d <;> first | rfl | exact absurd rfl hd
    case disableHpet =>
      obtain ⟨n, -, rfl⟩ := hnumber h
      cases d <;> first | rfl | exact absurd rfl hd
    all_goals
      obtain rfl := Option.some.inj h
      cases d <;> first | rfl | exact absurd rfl hd

/-- A text is refused only where a number is read. -/
lemma setAttr_isSome {m : Machine} {s : Text} {c : Column}
    (h : c.reading = .number → (parseInt s).isSome) : ∃ m', setAttr m s c = some m' := by
  have hnumber : ∀ f : Int32 → Machine, c.reading = .number → ∃ m', (parseInt s).map f = some m' := by
    intro f hc
    obtain ⟨n, hn⟩ := Option.isSome_iff_exists.mp (h hc)
    exact ⟨f n, by rw [hn, Option.map_some]⟩
  cases c
  case memory => exact hnumber _ rfl
  case disableAcpi => exact hnumber _ rfl
  case disableHpet => exact hnumber _ rfl
  all_goals exact ⟨_, rfl⟩

/-- What a column holds after its cell was read. -/
def readCell (c : Column) (s : Text) (old : Option Text) : Option Text :=
  if s = "null".toList then old else readText c (unquoted s) old

/-- The cells of a row, as the file has them. -/
abbrev fileCells (r : Row) (cs : List Column) : List Text := cs.map fun c => quoted (orNull (r c))

lemma readAttrs_cons (r : Row) (c : Column) (cs : List Column) (m : Machine) :
    readAttrs (c :: cs) (fileCells r (c :: cs)) m =
      if orNull (r c) = "null".toList then readAttrs cs (fileCells r cs) m
      else (setAttr m (unquoted (orNull (r c))) c).bind (readAttrs cs (fileCells r cs)) := by
  show (if quoted (orNull (r c)) = quoted "null".toList then readAttrs cs (fileCells r cs) m
    else (setAttr m (unquoted (quoted (orNull (r c)))) c).bind
      (readAttrs cs (fileCells r cs))) = _
  rw [unquoted_quoted]
  exact if_congr quoted_injective rfl rfl

/-- Each column of the loop holds what was read in its cell, and the others what they held. -/
lemma stateValues_readAttrs (r : Row) (now : Text) {cs : List Column} (hcs : cs.Nodup)
    {m m' : Machine} (h : readAttrs cs (fileCells r cs) m = some m') (d : Column) :
    m'.stateValues now d =
      if d ∈ cs then readCell d (orNull (r d)) (m.stateValues now d) else m.stateValues now d := by
  induction cs generalizing m with
  | nil =>
    obtain rfl := Option.some.inj h
    rw [if_neg List.not_mem_nil]
  | cons c cs ih =>
    rw [List.nodup_cons] at hcs
    rw [readAttrs_cons] at h
    by_cases hnull : orNull (r c) = "null".toList
    · rw [if_pos hnull] at h
      rw [ih hcs.2 h]
      by_cases hd : d = c
      · subst hd
        rw [if_neg hcs.1, if_pos List.mem_cons_self, readCell, if_pos hnull]
      · exact if_congr (by rw [List.mem_cons, or_iff_right hd]) rfl rfl
    · rw [if_neg hnull] at h
      obtain ⟨m₁, hm₁, h⟩ := Option.bind_eq_some_iff.mp h
      rw [ih hcs.2 h, stateValues_setAttr hm₁, Function.update_apply]
      by_cases hd : d = c
      · subst hd
        rw [if_neg hcs.1, if_pos List.mem_cons_self, if_pos rfl, readCell, if_neg hnull]
      · rw [if_neg hd]
        exact if_congr (by rw [List.mem_cons, or_iff_right hd]) rfl rfl

/-- The loop ends when every number can be read. -/
lemma exists_readAttrs (r : Row) {cs : List Column}
    (h : ∀ c ∈ cs, c.reading = .number → (parseInt (unquoted (orNull (r c)))).isSome)
    (m : Machine) : ∃ m', readAttrs cs (fileCells r cs) m = some m' := by
  induction cs generalizing m with
  | nil => exact ⟨m, rfl⟩
  | cons c cs ih =>
    rw [List.forall_mem_cons] at h
    rw [readAttrs_cons]
    by_cases hnull : orNull (r c) = "null".toList
    · rw [if_pos hnull]
      exact ih h.2 m
    · obtain ⟨m₁, hm₁⟩ := setAttr_isSome (m := m) h.1
      rw [if_neg hnull, hm₁, Option.bind_some]
      exact ih h.2 m₁

/-- The machine that a line is read into. -/
def namedMachine (r : Row) : Machine where
  machinename := some (quoted (orNull (r .machineName)))

/-- The cells of the row are each on their own in the file. -/
def Row.Unbroken (r : Row) : Prop := ∀ c ∈ exportColumns, Machines.Unbroken (orNull (r c))

lemma readMachine_exportRow {r : Row} (h : r.Unbroken) :
    readMachine (exportRow r) =
      readAttrs exportColumns (fileCells r exportColumns) (namedMachine r) := by
  have hcells : exportColumns.map (fun c => orNull (r c)) ≠ [] := List.cons_ne_nil _ _
  unfold readMachine exportRow
  rw [splitLine_csvLine hcells, List.map_map]
  · rfl
  · intro s hs
    obtain ⟨c, hc, rfl⟩ := List.mem_map.mp hs
    exact (h c hc).1

/-! ### Cells that come back -/

/-- What the column of a new machine holds. -/
def Column.initial (c : Column) : Option Text :=
  ({ machinename := none } : Machine).stateValues [] c

section Cells

variable (db : SQLite)

/-- The value of a column is the same after it was written and read. -/
def PortableCell (c : Column) (v : Option Text) : Prop :=
  match c.reading with
  | .text =>
    (v = none ∧ c ≠ .machineName ∧ c.initial = none) ∨
      ∃ s, v = some s ∧ '"' ∉ s ∧ Unbroken s ∧ s ≠ "null".toList ∧ db.stored c s = s
  | .number => ∃ n, v = some (intText n)
  | .ignored => v = c.initial

lemma stored_initial (c : Column) : c.initial.map (db.stored c) = c.initial := by
  cases c
  case enableUsbmouse => exact congrArg some (db.stored_int _ 0)
  case cpunum => exact congrArg some (db.stored_int _ 1)
  case disableAcpi => exact congrArg some (db.stored_int _ 0)
  case disableHpet => exact congrArg some (db.stored_int _ 0)
  case kernel => rfl
  all_goals first | rfl | exact congrArg some (db.stored_text _ _ rfl)

lemma initial_ne_null (c : Column) : c.initial ≠ some "null".toList := by
  cases c <;> decide

lemma initial_of_number {c : Column} (h : c.reading = .number) : c.initial ≠ none := by
  cases c <;> first | cases h; done | decide

lemma namedMachine_initial (r : Row) (now : Text) {c : Column} (hn : c ≠ .machineName)
    (hl : c ≠ .lastupdated) : (namedMachine r).stateValues now c = c.initial := by
  cases c <;> first | rfl | exact absurd rfl hn | exact absurd rfl hl

/-- What is stored for a text that has no quotes has none. -/
lemma quote_not_mem_stored {c : Column} {s : Text} (h : '"' ∉ s) : '"' ∉ db.stored c s := by
  rcases db.stored_number c s with heq | hchars
  · rwa [heq]
  · intro hq
    rcases hchars _ hq with ha | ha
    · exact absurd ha (by decide)
    · exact absurd ha (by decide)

lemma unbroken_stored {c : Column} {s : Text} (h : Unbroken s) : Unbroken (db.stored c s) := by
  rcases db.stored_number c s with heq | hchars
  · rwa [heq]
  · have hx : ∀ x : Char, x.isAlphanum = false → x ∉ ['+', '-', '.'] → x ∉ db.stored c s := by
      intro x halpha hsign hmem
      rcases hchars x hmem with ha | ha
      · exact absurd ha (by rw [halpha]; exact Bool.false_ne_true)
      · exact hsign ha
    exact ⟨hx _ (by decide) (by decide), hx _ (by decide) (by decide),
      hx _ (by decide) (by decide)⟩

lemma intText_chars (n : Int32) : ∀ x ∈ intText n, x = '-' ∨ x.isDigit := by
  intro x hx
  unfold intText at hx
  rcases List.mem_append.mp hx with hsign | hdigit
  · by_cases hn : n.toInt < 0
    · rw [if_pos hn, List.mem_singleton] at hsign
      exact Or.inl hsign
    · rw [if_neg hn] at hsign
      exact absurd hsign List.not_mem_nil
  · exact Or.inr (Nat.isDigit_of_mem_toDigits (by decide) (by decide) hdigit)

lemma not_mem_intText {x : Char} (hsign : x ≠ '-') (hdigit : x.isDigit = false) (n : Int32) :
    x ∉ intText n := by
  intro hx
  rcases intText_chars n x hx with h | h
  · exact hsign h
  · exact absurd h (by rw [hdigit]; exact Bool.false_ne_true)

lemma unbroken_intText (n : Int32) : Unbroken (intText n) :=
  ⟨not_mem_intText (by decide) rfl n, not_mem_intText (by decide) rfl n,
    not_mem_intText (by decide) rfl n⟩

lemma unquoted_intText (n : Int32) : unquoted (intText n) = intText n :=
  unquoted_eq_self.mpr (not_mem_intText (by decide) rfl n)

lemma intText_ne_null (n : Int32) : intText n ≠ "null".toList := by
  intro h
  have hx : 'n' ∈ intText n := h ▸ List.mem_cons_self
  exact not_mem_intText (by decide) rfl n hx

lemma stored_of_reading {c : Column} (hc : c.reading = .text) (hk : c ≠ .kernel) (s : Text) :
    db.stored c s = s := by
  apply db.stored_text
  cases c <;> first | rfl | exact absurd rfl hk | cases hc

lemma orNull_eq_null {v : Option Text} :
    orNull v = "null".toList ↔ v = none ∨ v = some "null".toList := by
  cases v with
  | none => exact ⟨fun _ => Or.inl rfl, fun _ => rfl⟩
  | some s =>
    show s = _ ↔ _
    rw [or_iff_right (Option.some_ne_none s), Option.some.injEq]

/-- A cell comes back when it is portable. -/
lemma readCell_eq_iff (r : Row) (now : Text) {c : Column} (hc : c ∈ exportColumns)
    (hr : Unbroken (orNull (r c))) :
    (readCell c (orNull (r c)) ((namedMachine r).stateValues now c)).map (db.stored c) = r c ↔
      PortableCell db c (r c) := by
  have hl : c ≠ .lastupdated := fun h => absurd (h ▸ hc) (by decide)
  unfold PortableCell readCell readText
  cases hread : c.reading with
  | ignored =>
    have hn : c ≠ .machineName := fun h => by rw [h] at hread; cases hread
    dsimp only
    rw [ite_self, namedMachine_initial r now hn hl, stored_initial, eq_comm]
  | number =>
    have hn : c ≠ .machineName := fun h => by rw [h] at hread; cases hread
    dsimp only
    by_cases hnull : orNull (r c) = "null".toList
    · rw [if_pos hnull, namedMachine_initial r now hn hl, stored_initial]
      constructor
      · intro h
        rcases orNull_eq_null.mp hnull with hv | hv
        · rw [hv] at h
          exact absurd h (initial_of_number hread)
        · exact absurd (h.trans hv) (initial_ne_null c)
      · rintro ⟨n, hv⟩
        rw [hv] at hnull
        exact absurd hnull (intText_ne_null n)
    · rw [if_neg hnull]
      constructor
      · intro h
        cases hn : parseInt (unquoted (orNull (r c))) with
        | none =>
          rw [hn, Option.map_none, Option.map_none] at h
          exact absurd (orNull_eq_null.mpr (Or.inl h.symm)) hnull
        | some n =>
          rw [hn, Option.map_some, Option.map_some, db.stored_int] at h
          exact ⟨n, h.symm⟩
      · rintro ⟨n, hv⟩
        rw [hv]
        show ((parseInt (unquoted (intText n))).map intText).map (db.stored c) = _
        rw [unquoted_intText, parseInt_intText, Option.map_some, Option.map_some, db.stored_int]
  | text =>
    dsimp only
    by_cases hnull : orNull (r c) = "null".toList
    · rw [if_pos hnull]
      constructor
      · intro h
        have hn : c ≠ .machineName := by
          rintro rfl
          have h : some (db.stored .machineName (quoted (orNull (r .machineName)))) =
            r .machineName := h
          rw [stored_of_reading db rfl (by decide), hnull] at h
          rcases orNull_eq_null.mp hnull with hv | hv
          · rw [hv] at h
            cases h
          · rw [hv] at h
            exact absurd h (by decide)
        rw [namedMachine_initial r now hn hl, stored_initial] at h
        rcases orNull_eq_null.mp hnull with hv | hv
        · exact Or.inl ⟨hv, hn, h.trans hv⟩
        · exact absurd (h.trans hv) (initial_ne_null c)
      · rintro (⟨hv, hn, hinitial⟩ | ⟨s, hv, -, -, hs, -⟩)
        · rw [namedMachine_initial r now hn hl, hinitial, hv, Option.map_none]
        · rw [hv] at hnull
          exact absurd hnull hs
    · rw [if_neg hnull, Option.map_some]
      cases hv : r c with
      | none => exact absurd (orNull_eq_null.mpr (Or.inl hv)) hnull
      | some s =>
        rw [hv] at hnull hr
        show some (db.stored c (unquoted s)) = some s ↔ _
        rw [Option.some.injEq]
        constructor
        · intro h
          have hq : '"' ∉ s := by
            rw [← h]
            apply quote_not_mem_stored
            intro hq
            exact absurd (List.of_mem_filter hq) (by decide)
          rw [unquoted_eq_self.mpr hq] at h
          exact Or.inr ⟨s, rfl, hq, hr, hnull, h⟩
        · rintro (⟨hs, -⟩ | ⟨t, ht, hq, -, -, hstored⟩)
          · cases hs
          · obtain rfl := Option.some.inj ht
            rw [unquoted_eq_self.mpr hq, hstored]

/-- The row of a machine that was read from the line of a row is that row when its cells are
portable and the insertion sets the status and the time that it has. -/
lemma rowOf_eq_iff {r : Row} {m : Machine} (hr : r.Unbroken)
    (hm : readMachine (exportRow r) = some m) (now : Text) :
    rowOf db m now = r ↔ (∀ c ∈ exportColumns, PortableCell db c (r c)) ∧
      r .status = some (intText statusCreated) ∧ r .lastupdated = some now := by
  have hcell : ∀ c ∈ exportColumns, (rowOf db m now c = r c ↔ PortableCell db c (r c)) := by
    intro c hc
    rw [readMachine_exportRow hr] at hm
    rw [← readCell_eq_iff db r now hc (hr c hc)]
    unfold rowOf
    rw [stateValues_readAttrs r now (by decide) hm, if_pos hc]
  have hstatus : rowOf db m now .status = some (intText statusCreated) :=
    congrArg some (db.stored_int _ _)
  have hnow : rowOf db m now .lastupdated = some now := congrArg some (db.stored_text _ _ rfl)
  have hcolumns : ∀ c, c ∈ exportColumns ∨ c = .status ∨ c = .lastupdated := by
    intro c
    cases c <;> decide
  constructor
  · rintro rfl
    exact ⟨fun c hc => (hcell c hc).mp rfl, hstatus, hnow⟩
  · rintro ⟨hcells, hs, hl⟩
    funext c
    rcases hcolumns c with hc | rfl | rfl
    · exact (hcell c hc).mpr (hcells c hc)
    · rw [hstatus, hs]
    · rw [hnow, hl]

lemma unbroken_null : Unbroken "null".toList := ⟨by decide, by decide, by decide⟩

lemma unbroken_initial (c : Column) : Unbroken (orNull c.initial) := by
  cases c <;> exact ⟨by decide, by decide, by decide⟩

lemma unbroken_of_portable {r : Row} (h : ∀ c ∈ exportColumns, PortableCell db c (r c)) :
    r.Unbroken := by
  intro c hc
  have hcell := h c hc
  unfold PortableCell at hcell
  cases hread : c.reading with
  | text =>
    rw [hread] at hcell
    rcases hcell with ⟨hv, -⟩ | ⟨s, hv, -, hs, -⟩
    · rw [hv]
      exact unbroken_null
    · rw [hv]
      exact hs
  | number =>
    rw [hread] at hcell
    obtain ⟨n, hv⟩ := hcell
    rw [hv]
    exact unbroken_intText n
  | ignored =>
    rw [hread] at hcell
    rw [show r c = c.initial from hcell]
    exact unbroken_initial c

/-- The line of portable cells can be read. -/
lemma exists_readMachine {r : Row} (h : ∀ c ∈ exportColumns, PortableCell db c (r c)) :
    ∃ m, readMachine (exportRow r) = some m := by
  rw [readMachine_exportRow (unbroken_of_portable db h)]
  apply exists_readAttrs
  intro c hc hread
  have hcell := h c hc
  unfold PortableCell at hcell
  rw [hread] at hcell
  obtain ⟨n, hv⟩ := hcell
  rw [hv]
  show (parseInt (unquoted (intText n))).isSome
  rw [unquoted_intText, parseInt_intText]
  rfl

end Cells

end Limbo.Machines
