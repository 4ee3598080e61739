import Limbo.Machines.Cells

/-!
# Exporting and importing

`ImportMachines` inserts the machines of a file one by one, each after the rows of its names were
deleted. A table that is exported and imported again comes back exactly when its cells do and no row
is deleted on the way.
-/

namespace Limbo.Machines

/-! ### The machines of a file -/

/-- No text that the machine is stored with breaks a line or a cell. -/
def Machine.Unbroken (m : Machine) : Prop :=
  ∀ now, ∀ c ∈ exportColumns, Machines.Unbroken (orNull (m.stateValues now c))

lemma Machine.Unbroken.setAttr {m m' : Machine} {s : Text} {c : Column} (hm : m.Unbroken)
    (hs : Machines.Unbroken s) (h : setAttr m s c = some m') : m'.Unbroken := by
  intro now d hd
  rw [stateValues_setAttr h, Function.update_apply]
  by_cases hdc : d = c
  · subst hdc
    rw [if_pos rfl]
    unfold readText
    cases d.reading with
    | text => exact hs
    | number =>
      cases parseInt s with
      | none => exact unbroken_null
      | some n => exact unbroken_intText n
    | ignored => exact hm now d hd
  · rw [if_neg hdc]
    exact hm now d hd

lemma Machine.Unbroken.readAttrs {attrs : List Text} (hattrs : ∀ s ∈ attrs, Machines.Unbroken s)
    {names : List Column} {m m' : Machine} (hm : m.Unbroken)
    (h : readAttrs names attrs m = some m') : m'.Unbroken := by
  induction attrs generalizing names m with
  | nil =>
    have heq : some m = some m' := by cases names <;> exact h
    exact Option.some.inj heq ▸ hm
  | cons attr attrs ih =>
    rw [List.forall_mem_cons] at hattrs
    rw [readAttrs_attr] at h
    by_cases hnull : attr = quoted "null".toList
    · rw [if_pos hnull] at h
      exact ih hattrs.2 hm h
    · rw [if_neg hnull] at h
      cases names with
      | nil => cases h
      | cons name names =>
        obtain ⟨m₁, hm₁, h⟩ := Option.bind_eq_some_iff.mp h
        exact ih hattrs.2 (hm.setAttr hattrs.1.unquoted hm₁) h

lemma unbroken_of_readMachine {line : Text} {m : Machine} (hn : '\n' ∉ line) (hr : '\r' ∉ line)
    (h : readMachine line = some m) : m.Unbroken := by
  have hcells : ∀ s ∈ splitLine line, Unbroken s := fun s => unbroken_of_mem_splitLine hn hr
  unfold readMachine at h
  cases hs : splitLine line with
  | nil =>
    rw [hs] at h
    cases h
  | cons attr attrs =>
    rw [hs] at h hcells
    refine Machine.Unbroken.readAttrs hcells ?_ h
    intro now c hc
    by_cases hname : c = .machineName
    · subst hname
      exact hcells attr List.mem_cons_self
    · have hl : c ≠ .lastupdated := fun h => absurd (h ▸ hc) (by decide)
      have hvalue : ({ machinename := some attr } : Machine).stateValues now c = c.initial := by
        cases c <;> first | rfl | exact absurd rfl hname | exact absurd rfl hl
      rw [hvalue]
      exact unbroken_initial c

lemma mem_readMachines {lines : List Text} {m : Machine} (h : m ∈ readMachines lines) :
    ∃ line ∈ lines, readMachine line = some m := by
  induction lines with
  | nil => exact absurd h List.not_mem_nil
  | cons line lines ih =>
    unfold readMachines at h
    cases hm : readMachine line with
    | none =>
      rw [hm] at h
      exact absurd h List.not_mem_nil
    | some m₀ =>
      rw [hm] at h
      rcases List.mem_cons.mp h with rfl | h
      · exact ⟨line, List.mem_cons_self, hm⟩
      · obtain ⟨l, hl, hml⟩ := ih h
        exact ⟨l, List.mem_cons_of_mem line hl, hml⟩

/-- What is read from any file can be written to one. -/
lemma unbroken_of_mem_getVMs {file : Text} {m : Machine} (h : m ∈ getVMs file) : m.Unbroken := by
  obtain ⟨line, hline, hm⟩ := mem_readMachines h
  have hbreaks := forall_mem_readLines file line (List.mem_of_mem_tail hline)
  exact unbroken_of_readMachine hbreaks.1 hbreaks.2 hm

lemma length_readMachines_le (lines : List Text) : (readMachines lines).length ≤ lines.length := by
  induction lines with
  | nil => exact Nat.le_refl 0
  | cons line lines ih =>
    unfold readMachines
    cases readMachine line with
    | none => exact Nat.zero_le _
    | some m => exact Nat.succ_le_succ ih

/-- All the lines are read when there are as many machines, -/
lemma readMachines_of_length {lines : List Text}
    (h : lines.length ≤ (readMachines lines).length) :
    lines.map readMachine = (readMachines lines).map some := by
  induction lines with
  | nil => rfl
  | cons line lines ih =>
    unfold readMachines at h ⊢
    cases hm : readMachine line with
    | none =>
      rw [hm] at h
      exact absurd h (Nat.not_succ_le_zero _)
    | some m =>
      rw [hm] at h
      rw [List.map_cons, hm, ih (Nat.le_of_succ_le_succ h), List.map_cons]

/-- and when each of them can be read. -/
lemma readMachines_of_forall {lines : List Text} (h : ∀ l ∈ lines, ∃ m, readMachine l = some m) :
    lines.map readMachine = (readMachines lines).map some := by
  induction lines with
  | nil => rfl
  | cons line lines ih =>
    rw [List.forall_mem_cons] at h
    obtain ⟨m, hm⟩ := h.1
    unfold readMachines
    rw [List.map_cons, hm, ih h.2, List.map_cons]

/-! ### `ImportMachines` -/

section Import

variable (db : SQLite)

/-- The rows of a machine are deleted before it is inserted, when there is a row of its name
without a snapshot. `none` is the exception of the query. -/
def clearMachine (m : Machine) (t : Table) : Option Table :=
  (getMachine db m.machinename (some []) t).map fun found =>
    if found.isSome then deleteMachine db m t else t

/-- `ImportMachines` with the machines of the file, each with the time at which it is inserted. -/
def importMachines : List (Machine × Text) → Table → Table
  | [], t => t
  | (m, now) :: ms, t =>
    match clearMachine db m t with
    | none => t
    | some t => importMachines ms (insertMachine db m now t)

/-- The machines with the times of the clock. -/
def stamped (clock : ℕ → Text) (ms : List Machine) : List (Machine × Text) :=
  ms.mapIdx fun i m => (m, clock i)

/-- The rows that are inserted for machines. -/
abbrev rowsOf (ms : List (Machine × Text)) : Table := ms.map fun p => rowOf db p.1 p.2

lemma clearMachine_sublist {m : Machine} {t t' : Table} (h : clearMachine db m t = some t') :
    t'.Sublist t := by
  obtain ⟨found, -, rfl⟩ := Option.map_eq_some_iff.mp h
  by_cases hf : found.isSome
  · rw [if_pos hf]
    exact deleteMachine_sublist db m t
  · rw [if_neg hf]

/-- Only the names matter. -/
lemma clearMachine_congr {m m' : Machine} (hn : m.machinename = m'.machinename)
    (hs : m.snapshotName = m'.snapshotName) (t : Table) :
    clearMachine db m t = clearMachine db m' t := by
  unfold clearMachine deleteMachine
  rw [hn, hs]

/-- No row goes away while the machines are inserted. -/
def Kept : List (Machine × Text) → Table → Prop
  | [], _ => True
  | p :: ms, t => clearMachine db p.1 t = some t ∧ Kept ms (t ++ [rowOf db p.1 p.2])

lemma mem_importMachines {ms : List (Machine × Text)} {t : Table} {r : Row}
    (h : r ∈ importMachines db ms t) : r ∈ t ∨ ∃ p ∈ ms, rowOf db p.1 p.2 = r := by
  induction ms generalizing t with
  | nil => exact Or.inl h
  | cons p ms ih =>
    unfold importMachines at h
    cases hc : clearMachine db p.1 t with
    | none =>
      rw [hc] at h
      exact Or.inl h
    | some t' =>
      rw [hc] at h
      rcases ih h with ht | ⟨q, hq, hr⟩
      · rcases List.mem_append.mp ht with ht | hp
        · exact Or.inl ((clearMachine_sublist db hc).subset ht)
        · exact Or.inr ⟨p, List.mem_cons_self, (List.mem_singleton.mp hp).symm⟩
      · exact Or.inr ⟨q, List.mem_cons_of_mem p hq, hr⟩

lemma length_importMachines_le (ms : List (Machine × Text)) (t : Table) :
    (importMachines db ms t).length ≤ t.length + ms.length := by
  induction ms generalizing t with
  | nil => exact Nat.le_refl _
  | cons p ms ih =>
    unfold importMachines
    cases hc : clearMachine db p.1 t with
    | none => exact Nat.le_add_right _ _
    | some t' =>
      have hlen := (clearMachine_sublist db hc).length_le
      have hrest := ih (insertMachine db p.1 p.2 t')
      unfold insertMachine at hrest
      rw [List.length_append, List.length_singleton] at hrest
      dsimp only
      rw [List.length_cons]
      exact hrest.trans (by omega)

/-- When no row goes away, the table grows by a row for each machine, -/
lemma importMachines_of_kept {ms : List (Machine × Text)} {t : Table} (h : Kept db ms t) :
    importMachines db ms t = t ++ rowsOf db ms := by
  induction ms generalizing t with
  | nil => exact (List.append_nil t).symm
  | cons p ms ih =>
    unfold importMachines
    rw [h.1]
    dsimp only
    unfold insertMachine
    rw [ih h.2, List.append_assoc]
    rfl

/-- and when it grows by as many, no row goes away. -/
lemma kept_of_length {ms : List (Machine × Text)} {t : Table}
    (h : t.length + ms.length ≤ (importMachines db ms t).length) : Kept db ms t := by
  induction ms generalizing t with
  | nil => trivial
  | cons p ms ih =>
    unfold importMachines at h
    rw [List.length_cons] at h
    cases hc : clearMachine db p.1 t with
    | none =>
      rw [hc] at h
      exact absurd h (by dsimp only; omega)
    | some t' =>
      rw [hc] at h
      dsimp only at h
      have hsub := clearMachine_sublist db hc
      have hle := length_importMachines_le db ms (insertMachine db p.1 p.2 t')
      unfold insertMachine at h hle
      rw [List.length_append, List.length_singleton] at hle
      obtain rfl : t' = t := hsub.eq_of_length_le (by omega)
      refine ⟨hc, ih ?_⟩
      rw [List.length_append, List.length_singleton]
      omega

/-- Each row of the table, when it is inserted after the rows before it, leaves them alone. -/
def Undisturbed (t : Table) : Prop :=
  ∀ pre r post, t = pre ++ r :: post → clearMachine db (machineOf db r) pre = some pre

lemma machineOf_rowOf_names (m : Machine) (now : Text) :
    (machineOf db (rowOf db m now)).machinename = m.machinename ∧
      (machineOf db (rowOf db m now)).snapshotName = m.snapshotName := by
  have hmap : ∀ {c : Column}, c.isInteger = false → ∀ v : Option Text,
      v.map (db.stored c) = v := by
    intro c hc v
    cases v with
    | none => rfl
    | some s => exact congrArg some (db.stored_text c s hc)
  exact ⟨hmap rfl _, hmap rfl _⟩

lemma kept_iff (ms : List (Machine × Text)) (t : Table) :
    Kept db ms t ↔ ∀ pre r post, rowsOf db ms = pre ++ r :: post →
      clearMachine db (machineOf db r) (t ++ pre) = some (t ++ pre) := by
  have hnames : ∀ (p : Machine × Text) (t : Table),
      clearMachine db (machineOf db (rowOf db p.1 p.2)) t = clearMachine db p.1 t := fun p =>
    clearMachine_congr db (machineOf_rowOf_names db p.1 p.2).1
      (machineOf_rowOf_names db p.1 p.2).2
  induction ms generalizing t with
  | nil =>
    refine iff_of_true trivial fun pre r post h => ?_
    exact absurd h.symm (List.append_ne_nil_of_right_ne_nil pre (List.cons_ne_nil r post))
  | cons p ms ih =>
    show (clearMachine db p.1 t = some t ∧ Kept db ms (t ++ [rowOf db p.1 p.2])) ↔ _
    constructor
    · rintro ⟨hp, hms⟩ pre r post h
      cases pre with
      | nil =>
        obtain ⟨rfl, -⟩ := List.cons.inj h
        rw [List.append_nil, hnames, hp]
      | cons r' pre =>
        obtain ⟨rfl, hrest⟩ := List.cons.inj h
        have hpre := (ih _).mp hms pre r post hrest
        rwa [List.append_assoc] at hpre
    · intro h
      constructor
      · have hp := h [] (rowOf db p.1 p.2) (rowsOf db ms) rfl
        rwa [List.append_nil, hnames] at hp
      · apply (ih _).mpr
        intro pre r post hms
        have hpre := h (rowOf db p.1 p.2 :: pre) r post (congrArg _ hms)
        rwa [List.append_assoc]

/-! ### The round trip -/

/-- The table after it was exported and imported into an empty database. -/
def reimport (clock : ℕ → Text) (t : Table) : Table :=
  importMachines db (stamped clock (getVMs (exportMachines t))) []

/-- What a table needs to come back: its cells are portable, its rows have the status and the time
of the import, and no row is deleted again. -/
structure Importable (clock : ℕ → Text) (t : Table) : Prop where
  cells : ∀ r ∈ t, ∀ c ∈ exportColumns, PortableCell db c (r c)
  stamps : ∀ i, (h : i < t.length) →
    t[i] .status = some (intText statusCreated) ∧ t[i] .lastupdated = some (clock i)
  undisturbed : Undisturbed db t

lemma length_stamped (clock : ℕ → Text) (ms : List Machine) :
    (stamped clock ms).length = ms.length := List.length_mapIdx

lemma getElem_stamped (clock : ℕ → Text) (ms : List Machine) (i : ℕ)
    (h : i < (stamped clock ms).length) :
    (stamped clock ms)[i] = (ms.get ⟨i, by rwa [length_stamped] at h⟩, clock i) :=
  List.getElem_mapIdx

lemma map_fst_stamped (clock : ℕ → Text) (ms : List Machine) :
    (stamped clock ms).map Prod.fst = ms := by
  apply List.ext_getElem
  · rw [List.length_map, length_stamped]
  · intro i _ _
    rw [List.getElem_map, getElem_stamped]
    rfl

lemma getVMs_exportMachines {t : Table} (h : ∀ r ∈ t, r.Unbroken) :
    getVMs (exportMachines t) = readMachines (t.map exportRow) := by
  unfold getVMs
  rw [readLines_exportMachines h, List.tail_cons]

/-- Every row that an import leaves is unbroken. -/
lemma unbroken_of_mem_import {clock : ℕ → Text} {file : Text} {r : Row}
    (h : r ∈ importMachines db (stamped clock (getVMs file)) []) : r.Unbroken := by
  rcases mem_importMachines db h with hnil | ⟨⟨m, now⟩, hp, rfl⟩
  · exact absurd hnil List.not_mem_nil
  · obtain ⟨i, hi, heq⟩ := List.mem_mapIdx.mp hp
    obtain ⟨rfl, rfl⟩ := Prod.mk.inj heq
    intro c hc
    have hm := unbroken_of_mem_getVMs (List.getElem_mem hi) (clock i) c hc
    unfold rowOf
    cases hv : (getVMs file)[i].stateValues (clock i) c with
    | none => exact unbroken_null
    | some s =>
      rw [hv] at hm
      exact unbroken_stored db hm

lemma unbroken_of_reimport {clock : ℕ → Text} {t : Table} (h : reimport db clock t = t) :
    ∀ r ∈ t, r.Unbroken := by
  intro r hr
  rw [← h] at hr
  exact unbroken_of_mem_import db hr

/-- When all lines are read, the rows that are inserted are the rows of the table one by one. -/
lemma rowsOf_stamped_eq_iff {clock : ℕ → Text} {t : Table} {ms : List Machine}
    (ht : ∀ r ∈ t, r.Unbroken) (h : (t.map exportRow).map readMachine = ms.map some) :
    rowsOf db (stamped clock ms) = t ↔
      ∀ i, (hi : i < t.length) → (∀ c ∈ exportColumns, PortableCell db c (t[i] c)) ∧
        t[i] .status = some (intText statusCreated) ∧ t[i] .lastupdated = some (clock i) := by
  have hlen : ms.length = t.length := by
    have h := congrArg List.length h
    rw [List.length_map, List.length_map, List.length_map] at h
    exact h.symm
  have hrow : ∀ i (hi : i < t.length) (hm : i < ms.length),
      (rowOf db ms[i] (clock i) = t[i] ↔ (∀ c ∈ exportColumns, PortableCell db c (t[i] c)) ∧
        t[i] .status = some (intText statusCreated) ∧ t[i] .lastupdated = some (clock i)) := by
    intro i hi hm
    apply rowOf_eq_iff db (ht _ (List.getElem_mem hi))
    have heq := List.getElem_of_eq h (i := i) (by rwa [List.length_map, List.length_map])
    rwa [List.getElem_map, List.getElem_map, List.getElem_map] at heq
  constructor
  · intro heq i hi
    apply (hrow i hi (hlen ▸ hi)).mp
    have hget := List.getElem_of_eq heq.symm hi
    rw [hget, List.getElem_map, getElem_stamped]
    rfl
  · intro hall
    apply List.ext_getElem
    · rw [List.length_map, length_stamped, hlen]
    · intro i _ hi
      rw [List.getElem_map, getElem_stamped]
      exact (hrow i hi (hlen ▸ hi)).mpr (hall i hi)

/-- A table comes back exactly when it is importable. -/
theorem reimport_eq_iff (clock : ℕ → Text) (t : Table) :
    reimport db clock t = t ↔ Importable db clock t := by
  constructor
  · intro h
    have ht := unbroken_of_reimport db h
    unfold reimport at h
    rw [getVMs_exportMachines ht] at h
    have hle := length_importMachines_le db (stamped clock (readMachines (t.map exportRow))) []
    have hread := length_readMachines_le (t.map exportRow)
    rw [h, List.length_nil, Nat.zero_add, length_stamped] at hle
    rw [List.length_map] at hread
    have hms : (t.map exportRow).map readMachine =
        (readMachines (t.map exportRow)).map some := by
      apply readMachines_of_length
      rwa [List.length_map]
    have hkept : Kept db (stamped clock (readMachines (t.map exportRow))) [] := by
      apply kept_of_length
      rwa [h, List.length_nil, Nat.zero_add, length_stamped]
    rw [importMachines_of_kept db hkept, List.nil_append] at h
    have hrows := (rowsOf_stamped_eq_iff db ht hms).mp h
    refine ⟨?_, fun i hi => (hrows i hi).2, ?_⟩
    · intro r hr
      obtain ⟨i, hi, rfl⟩ := List.mem_iff_getElem.mp hr
      exact (hrows i hi).1
    · intro pre r post heq
      exact (kept_iff db _ []).mp hkept pre r post (h.trans heq)
  · intro h
    have ht : ∀ r ∈ t, r.Unbroken := fun r hr => unbroken_of_portable db (h.cells r hr)
    have hms : (t.map exportRow).map readMachine =
        (readMachines (t.map exportRow)).map some := by
      apply readMachines_of_forall
      intro l hl
      obtain ⟨r, hr, rfl⟩ := List.mem_map.mp hl
      exact exists_readMachine db (h.cells r hr)
    have hrows : rowsOf db (stamped clock (readMachines (t.map exportRow))) = t :=
      (rowsOf_stamped_eq_iff db ht hms).mpr fun i hi =>
        ⟨h.cells _ (List.getElem_mem hi), h.stamps i hi⟩
    have hkept : Kept db (stamped clock (readMachines (t.map exportRow))) [] := by
      apply (kept_iff db _ []).mpr
      intro pre r post heq
      exact h.undisturbed pre r post (hrows.symm.trans heq)
    unfold reimport
    rw [getVMs_exportMachines ht, importMachines_of_kept db hkept, List.nil_append, hrows]

end Import

/-- The row of a machine whose processor has a comma in its name. -/
def commaRow : Row :=
  rowOf plainEngine { machinename := some "m".toList, cpu := some "a,b".toList }
    "2014-01-01 00:00:00".toList

/-- What is imported has no commas. -/
theorem reimport_commaRow :
    reimport plainEngine (fun _ => "2014-01-01 00:00:00".toList) [commaRow] ≠ [commaRow] := by
  intro h
  have hrow := unbroken_of_reimport plainEngine h commaRow (List.mem_singleton_self commaRow)
  have hcomma : ',' ∈ orNull (commaRow .cpu) := by decide
  exact (hrow .cpu (by decide)).1 hcomma

end Limbo.Machines
