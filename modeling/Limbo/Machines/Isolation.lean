import Limbo.Machines.Table

/-!
# Rows by their names

A row is looked up, changed and deleted by the texts in `MACHINE_NAME` and `SNAPSHOT_NAME`. The
statements keep to the rows of these names when the names are plain.
-/

namespace Limbo.Machines

/-! ### Keys -/

/-- The names of a row. -/
def Row.key (r : Row) : Option Text × Option Text := (r .machineName, r .snapshotName)

/-- The names of a machine. -/
def Machine.key (m : Machine) : Option Text × Option Text := (m.machinename, m.snapshotName)

section Keys

variable (db : SQLite)

lemma map_stored {c : Column} (hc : c.isInteger = false) (v : Option Text) :
    v.map (db.stored c) = v := by
  cases v with
  | none => rfl
  | some s => exact congrArg some (db.stored_text c s hc)

@[simp] lemma key_rowOf (m : Machine) (now : Text) : (rowOf db m now).key = m.key :=
  Prod.ext (map_stored db rfl _) (map_stored db rfl _)

lemma listed_rowOf (m : Machine) (now : Text) : (rowOf db m now).Listed :=
  Or.inl (congrArg some (db.stored_int _ _))

/-- The names are texts. -/
def Machine.Named (m : Machine) : Prop := m.machinename ≠ none ∧ m.snapshotName ≠ none

lemma Machine.Named.key_eq {m : Machine} (h : m.Named) :
    m.key = (some (orNull m.machinename), some (orNull m.snapshotName)) := by
  obtain ⟨n, hn⟩ := Option.ne_none_iff_exists'.mp h.1
  obtain ⟨s, hs⟩ := Option.ne_none_iff_exists'.mp h.2
  unfold Machine.key
  rw [hn, hs]
  rfl

/-- For texts, the condition on the names is the key. -/
lemma meets_iff_key {m : Machine} (h : m.Named) {r : Row} :
    r.Meets (nameCondition m.machinename m.snapshotName) ↔ r.key = m.key := by
  rw [meets_nameCondition, h.key_eq]
  exact Prod.mk_inj.symm

/-- A deletion deletes the rows of the key. -/
lemma deleteMachine_of_named {m : Machine} (h : m.Named)
    (hp : PlainNames m.machinename m.snapshotName) (t : Table) :
    deleteMachine db m t = t.filter fun r => r.key ≠ m.key := by
  rw [deleteMachine_of_plain db hp]
  apply List.filter_congr
  intro r _
  exact decide_eq_decide.mpr (not_congr (meets_iff_key h))

/-- A query finds the first row of the key. -/
lemma getMachine_of_named {m : Machine} (h : m.Named)
    (hp : PlainNames m.machinename m.snapshotName) (t : Table) :
    getMachine db m.machinename m.snapshotName t =
      some ((t.find? fun r => r.Listed ∧ r.key = m.key).map (machineOf db)) := by
  rw [getMachine_of_plain db hp]
  congr 3
  funext r
  exact decide_eq_decide.mpr (and_congr_right' (meets_iff_key h))

/-- What is found bears a text as its name. -/
lemma machinename_of_getMachine {m m' : Machine}
    (hp : PlainNames m.machinename m.snapshotName) {t : Table}
    (h : getMachine db m.machinename m.snapshotName t = some (some m')) : m'.Named := by
  rw [getMachine_of_plain db hp, Option.some.injEq, Option.map_eq_some_iff] at h
  obtain ⟨r, hr, rfl⟩ := h
  have hfound := List.find?_some hr
  rw [decide_eq_true_iff, meets_nameCondition] at hfound
  obtain ⟨-, hmeets⟩ := hfound
  exact ⟨fun hn => Option.some_ne_none _ (hmeets.1.symm.trans hn),
    fun hs => Option.some_ne_none _ (hmeets.2.symm.trans hs)⟩

/-- What is read from the row of a machine is the machine, but for its kernel. -/
lemma machineOf_rowOf (m : Machine) (now : Text) :
    machineOf db (rowOf db m now) = { m with kernel := m.kernel.map (db.stored .kernel) } := by
  have hint : ∀ (c : Column) (n : Int32),
      db.getInt ((some (intText n)).map (db.stored c)) = n := by
    intro c n
    rw [Option.map_some, db.stored_int, db.getInt_intText]
  simp (disch := decide) only [machineOf, rowOf, Machine.stateValues, hint, map_stored,
    db.getInt_intText]

end Keys

/-! ### Isolation -/

section Isolation

variable (db : SQLite)

/-- The statements for a machine keep to the rows of its key. -/
structure Isolated (t : Table) (m : Machine) (now : Text) : Prop where
  /-- A machine that is inserted is found, -/
  found : getMachine db m.machinename m.snapshotName (insertMachine db m now t) = some (some m)
  /-- a deletion keeps the rows of the other keys, -/
  deleted : (deleteMachine db m t).filter (fun r => r.key ≠ m.key) =
    t.filter fun r => r.key ≠ m.key
  /-- nothing is found after it, -/
  gone : getMachine db m.machinename m.snapshotName (deleteMachine db m t) = some none
  /-- and an update changes rows of the key only. -/
  updated : ∀ c v, List.Forall₂ (fun r r' => r.key ≠ m.key → r' = r) t (update db m c v t)

/-- What it takes for plain names. The query returns the first row of the key, a text that looks
like a number is stored as one in `KERNEL`, and `update` changes the rows without a snapshot,
whatever the machine's is. -/
structure Isolable (t : Table) (m : Machine) : Prop where
  named : m.Named
  earlier : ∀ r, t.find? (fun r => r.Listed ∧ r.key = m.key) = some r → machineOf db r = m
  kernel : t.find? (fun r => r.Listed ∧ r.key = m.key) = none →
    m.kernel.map (db.stored .kernel) = m.kernel
  base : m.snapshotName = some [] ∨ ∀ r ∈ t, r.key ≠ (m.machinename, some [])

variable {db} {t : Table} {m : Machine}

/-- The machine that is found is that of the first row of the key. -/
lemma found_iff (hp : PlainNames m.machinename m.snapshotName) (hm : m.Named) (now : Text) :
    getMachine db m.machinename m.snapshotName (insertMachine db m now t) = some (some m) ↔
      (∀ r, t.find? (fun r => r.Listed ∧ r.key = m.key) = some r → machineOf db r = m) ∧
        (t.find? (fun r => r.Listed ∧ r.key = m.key) = none →
          m.kernel.map (db.stored .kernel) = m.kernel) := by
  have hrow : [rowOf db m now].find? (fun r => r.Listed ∧ r.key = m.key) =
      some (rowOf db m now) :=
    List.find?_cons_of_pos (decide_eq_true ⟨listed_rowOf db m now, key_rowOf db m now⟩)
  rw [getMachine_of_named db hm hp, Option.some.injEq]
  unfold insertMachine
  rw [List.find?_append]
  cases hfind : t.find? (fun r => r.Listed ∧ r.key = m.key) with
  | some r =>
    rw [Option.some_or, Option.map_some, Option.some.injEq]
    constructor
    · exact fun h => ⟨fun r' hr => Option.some.inj hr ▸ h, fun hn => by cases hn⟩
    · exact fun h => h.1 r rfl
  | none =>
    rw [Option.none_or, hrow, Option.map_some, Option.some.injEq, machineOf_rowOf]
    constructor
    · exact fun h => ⟨fun r hr => (by cases hr), fun _ => congrArg Machine.kernel h⟩
    · intro h
      rw [h.2 rfl]

lemma deleted_of_named (hp : PlainNames m.machinename m.snapshotName) (hm : m.Named) :
    (deleteMachine db m t).filter (fun r => r.key ≠ m.key) = t.filter fun r => r.key ≠ m.key := by
  rw [deleteMachine_of_named db hm hp, List.filter_filter]
  apply List.filter_congr
  intro r _
  exact Bool.and_self _

lemma gone_of_named (hp : PlainNames m.machinename m.snapshotName) (hm : m.Named) :
    getMachine db m.machinename m.snapshotName (deleteMachine db m t) = some none := by
  rw [getMachine_of_named db hm hp, deleteMachine_of_named db hm hp]
  have hnone : (t.filter fun r => r.key ≠ m.key).find? (fun r => r.Listed ∧ r.key = m.key) =
      none := by
    rw [List.find?_eq_none]
    intro r hr hfound
    have hne := List.of_mem_filter hr
    rw [decide_eq_true_iff] at hne hfound
    exact hne hfound.2
  rw [hnone, Option.map_none]

/-- `update` sets the column in the rows of the name that have no snapshot. -/
lemma update_of_named (hp : PlainNames m.machinename m.snapshotName) (hm : m.Named) (c : Column)
    (v : Option Text) :
    update db m c v t = t.map fun r : Row =>
      if r.key = (m.machinename, some []) then Function.update r c (v.map (db.stored c)) else r := by
  have hcond : ∀ p ∈ [(Column.machineName, orNull m.machinename), (.snapshotName, ([] : Text))],
      Plain p.2 ∧ p.1.isInteger = false := by
    rw [List.forall_mem_cons, List.forall_mem_singleton]
    exact ⟨⟨hp.1, rfl⟩, plain_nil, rfl⟩
  have hmeets : ∀ r : Row,
      r.Meets [(.machineName, orNull m.machinename), (.snapshotName, [])] ↔
        r.key = (m.machinename, some []) := by
    intro r
    obtain ⟨n, hn⟩ := Option.ne_none_iff_exists'.mp hm.1
    unfold Row.Meets Row.key
    rw [List.forall_mem_cons, List.forall_mem_singleton, hn, Prod.mk_inj]
    rfl
  unfold update updateWhere
  rw [db.clause_plain _ hcond]
  dsimp only
  apply List.map_congr_left
  intro r _
  exact if_congr (decide_eq_true_iff.trans (hmeets r)) rfl rfl

lemma updated_iff (hp : PlainNames m.machinename m.snapshotName) (hm : m.Named) :
    (∀ c v, List.Forall₂ (fun r r' => r.key ≠ m.key → r' = r) t (update db m c v t)) ↔
      m.snapshotName = some [] ∨ ∀ r ∈ t, r.key ≠ (m.machinename, some []) := by
  simp only [update_of_named hp hm, List.forall₂_map_right_iff, List.forall₂_same]
  constructor
  · intro h
    rw [or_iff_not_imp_left]
    intro hs r hr hbase
    have hkey : r.key ≠ m.key := fun heq => hs (Prod.mk.inj (heq.symm.trans hbase)).2
    -- some value is not the one that the row has
    obtain ⟨v, hv⟩ : ∃ v : Option Text, v ≠ r .cpu := exists_ne _
    have hr := congrFun (h .cpu v r hr hkey) .cpu
    rw [if_pos hbase, Function.update_self, map_stored db rfl] at hr
    exact hv hr
  · rintro (hs | hbase) c v r hr hkey
    · rw [if_neg]
      exact fun h => hkey (h.trans (congrArg _ hs.symm))
    · rw [if_neg (hbase r hr)]

/-- For plain names the statements keep to the rows of the key exactly under `Isolable`. -/
theorem isolated_iff (hp : PlainNames m.machinename m.snapshotName) (now : Text) :
    Isolated db t m now ↔ Isolable db t m := by
  constructor
  · intro h
    have hm : m.Named := machinename_of_getMachine db hp h.found
    obtain ⟨hearlier, hkernel⟩ := (found_iff hp hm now).mp h.found
    exact ⟨hm, hearlier, hkernel, (updated_iff hp hm).mp h.updated⟩
  · intro h
    exact ⟨(found_iff hp h.named now).mpr ⟨h.earlier, h.kernel⟩, deleted_of_named hp h.named,
      gone_of_named hp h.named, (updated_iff hp h.named).mpr h.base⟩

end Isolation

/-- A machine beside the saved state of another one. -/
theorem isolated_debian :
    Isolated plainEngine
      [rowOf plainEngine { machinename := some "dos".toList, snapshotName := some "s1".toList } []]
      { machinename := some "debian".toList } "2014-01-01 00:00:00".toList := by
  apply (isolated_iff ⟨by decide, by decide⟩ _).mpr
  refine ⟨⟨Option.some_ne_none _, Option.some_ne_none _⟩, ?_, fun _ => rfl, Or.inl rfl⟩
  intro r hr
  cases hr

/-- The machine whose name ends in a quote. -/
def quoteMachine : Machine := { machinename := some "a\"".toList }

/-- The query for it does not compile. -/
theorem not_isolated_quoteMachine : ¬ Isolated plainEngine [] quoteMachine [] := fun h =>
  absurd h.found (by decide)

end Limbo.Machines
