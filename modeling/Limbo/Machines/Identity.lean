import Limbo.Lib.Run
import Limbo.Machines.Import
import Limbo.Machines.Isolation

/-!
# One row for each machine and snapshot

The schema has no key. Whether there is one row for each pair of names is left to the operations of
`LimboActivity`, of which some look before they insert and some delete.
-/

namespace Limbo.Machines

open Lib

/-! ### The operations -/

section Operations

variable (db : SQLite)

/-- `VM_CREATED`. A name that exists is reported and the machine inserted all the same. -/
def createMachine (name now : Text) (t : Table) : Table :=
  match getMachine db (some name) (some []) t with
  | none => t
  | some _ =>
    let m : Machine := { machinename := some name }
    update db m .memory (some "64".toList)
      (update db m .cpu (some "pentium3".toList) (insertMachine db m now t))

/-- One round of the loop of `ImportMachines`. -/
def importMachine (m : Machine) (now : Text) (t : Table) : Table :=
  match clearMachine db m t with
  | none => t
  | some t => insertMachine db m now t

/-- `saveStateDB`, with the current machine. -/
def saveStateDB (m : Machine) (snapshot now : Text) (t : Table) : Table :=
  let m := { m with snapshotName := some snapshot }
  insertMachine db m now (deleteMachine db m t)

/-- What changes the table. -/
inductive Op where
  | create (name now : Text)
  | importMachine (m : Machine) (now : Text)
  | saveState (m : Machine) (snapshot now : Text)
  | update (m : Machine) (c : Column) (v : Option Text)
  | delete (m : Machine)

/-- An operation; after an exception the table is as it was. -/
def step (t : Table) : Op → Option Table
  | .create name now => some (createMachine db name now t)
  | .importMachine m now => some (importMachine db m now t)
  | .saveState m snapshot now => some (saveStateDB db m snapshot now t)
  | .update m c v => some (update db m c v t)
  | .delete m => some (deleteMachine db m t)

/-- The rounds of an import. -/
def imports (ms : List (Machine × Text)) : List Op := ms.map fun p => .importMachine p.1 p.2

end Operations

/-! ### Unique keys -/

/-- No two rows have the same names. -/
def UniqueKeys (t : Table) : Prop := (t.map Row.key).Nodup

instance (t : Table) : Decidable (UniqueKeys t) := inferInstanceAs (Decidable (List.Nodup _))

/-- The statements for the machine keep to its rows. -/
def Machine.Plain (m : Machine) : Prop := m.Named ∧ PlainNames m.machinename m.snapshotName

/-- The operation takes no key that is in use, or deletes its row first: a machine is not created
under a name that exists, an imported machine finds the row without a snapshot, and what is
updated is no name. -/
def Op.Fresh (t : Table) : Op → Prop
  | .create name _ => ∀ r ∈ t, r.key ≠ (some name, some [])
  | .importMachine m _ => (∀ r ∈ t, r.key ≠ m.key) ∨
      (m.Plain ∧ ∃ r ∈ t, r.Listed ∧ r.key = (m.machinename, some []))
  | .saveState m snapshot _ => (∀ r ∈ t, r.key ≠ (m.machinename, some snapshot)) ∨
      Machine.Plain { m with snapshotName := some snapshot }
  | .update _ c _ => c ≠ .machineName ∧ c ≠ .snapshotName
  | .delete _ => True

section Unique

variable {db : SQLite}

lemma UniqueKeys.sublist {t t' : Table} (h : UniqueKeys t) (hsub : t'.Sublist t) : UniqueKeys t' :=
  List.Nodup.sublist (hsub.map Row.key) h

/-- A machine with a new key can be inserted. -/
lemma UniqueKeys.insert {t : Table} (h : UniqueKeys t) {m : Machine}
    (hm : ∀ r ∈ t, r.key ≠ m.key) (now : Text) : UniqueKeys (insertMachine db m now t) := by
  unfold UniqueKeys insertMachine
  rw [List.map_append, List.map_singleton, key_rowOf, List.nodup_append]
  refine ⟨h, List.nodup_singleton _, ?_⟩
  intro a ha b hb
  obtain ⟨r, hr, rfl⟩ := List.mem_map.mp ha
  obtain rfl := List.mem_singleton.mp hb
  exact hm r hr

/-- An update of another column keeps the keys. -/
lemma map_key_update {c : Column} (hn : c ≠ .machineName) (hs : c ≠ .snapshotName) (m : Machine)
    (v : Option Text) (t : Table) : (update db m c v t).map Row.key = t.map Row.key := by
  have hkey : ∀ (r : Row) w, Row.key (Function.update r c w) = r.key := by
    intro r w
    unfold Row.key
    rw [Function.update_of_ne hn.symm, Function.update_of_ne hs.symm]
  unfold update updateWhere
  cases db.clause [(.machineName, orNull m.machinename), (.snapshotName, [])] with
  | none => rfl
  | some p =>
    dsimp only
    rw [List.map_map]
    apply List.map_congr_left
    intro r _
    show Row.key (if p r then Function.update r c _ else r) = r.key
    by_cases hp : p r
    · rw [if_pos hp, hkey]
    · rw [if_neg hp]

lemma UniqueKeys.update {t : Table} (h : UniqueKeys t) {c : Column} (hn : c ≠ .machineName)
    (hs : c ≠ .snapshotName) (m : Machine) (v : Option Text) :
    UniqueKeys (update db m c v t) := by
  unfold UniqueKeys
  rwa [map_key_update hn hs]

lemma UniqueKeys.createMachine {t : Table} (h : UniqueKeys t) {name : Text}
    (hname : ∀ r ∈ t, r.key ≠ (some name, some [])) (now : Text) :
    UniqueKeys (createMachine db name now t) := by
  unfold Machines.createMachine
  cases getMachine db (some name) (some []) t with
  | none => exact h
  | some found =>
    have hinsert : UniqueKeys (insertMachine db { machinename := some name } now t) :=
      h.insert (m := { machinename := some name }) hname now
    exact (hinsert.update (by decide) (by decide) _ _).update (by decide) (by decide) _ _

/-- A machine with plain names has no row left when its key is new, or its name is found. -/
lemma clearMachine_of_plain {t : Table} {m : Machine} (hm : m.Plain)
    (h : (∀ r ∈ t, r.key ≠ m.key) ∨ ∃ r ∈ t, r.Listed ∧ r.key = (m.machinename, some [])) :
    clearMachine db m t = some (t.filter fun r => r.key ≠ m.key) := by
  obtain ⟨hnamed, hp⟩ := hm
  have hbase := getMachine_of_named db (m := { m with snapshotName := some [] })
    ⟨hnamed.1, Option.some_ne_none _⟩ ⟨hp.1, plain_nil⟩ t
  unfold clearMachine
  rw [hbase, Option.map_some, deleteMachine_of_named db hnamed hp]
  rcases h with hnew | ⟨r, hr, hfound⟩
  · have hself : (t.filter fun r => r.key ≠ m.key) = t :=
      List.filter_eq_self.mpr fun r hr => decide_eq_true (hnew r hr)
    rw [hself, ite_self]
  · rw [if_pos]
    rw [Option.isSome_map, List.find?_isSome]
    exact ⟨r, hr, decide_eq_true hfound⟩

lemma UniqueKeys.filter_insert {t : Table} (h : UniqueKeys t) (m : Machine) (now : Text) :
    UniqueKeys (insertMachine db m now (t.filter fun r => r.key ≠ m.key)) := by
  apply (h.sublist List.filter_sublist).insert
  intro r hr
  have hne := List.of_mem_filter hr
  rwa [decide_eq_true_iff] at hne

lemma UniqueKeys.importMachine {t : Table} (h : UniqueKeys t) {m : Machine} {now : Text}
    (hm : (Op.importMachine m now).Fresh t) : UniqueKeys (importMachine db m now t) := by
  unfold Machines.importMachine
  cases hc : clearMachine db m t with
  | none => exact h
  | some t' =>
    rcases hm with hnew | ⟨hplain, hbase⟩
    · have hsub := clearMachine_sublist db hc
      exact (h.sublist hsub).insert (fun r hr => hnew r (hsub.subset hr)) now
    · rw [clearMachine_of_plain hplain (Or.inr hbase)] at hc
      obtain rfl := Option.some.inj hc
      exact h.filter_insert m now

lemma UniqueKeys.saveStateDB {t : Table} (h : UniqueKeys t) {m : Machine} {snapshot now : Text}
    (hm : (Op.saveState m snapshot now).Fresh t) :
    UniqueKeys (saveStateDB db m snapshot now t) := by
  unfold Machines.saveStateDB
  dsimp only
  rcases hm with hnew | ⟨hnamed, hp⟩
  · have hsub := deleteMachine_sublist db { m with snapshotName := some snapshot } t
    exact (h.sublist hsub).insert (m := { m with snapshotName := some snapshot })
      (fun r hr => hnew r (hsub.subset hr)) now
  · rw [deleteMachine_of_named db hnamed hp]
    exact h.filter_insert _ now

/-- Each fresh operation keeps the keys unique. -/
lemma uniqueKeys_of_step {t t' : Table} {op : Op} (h : UniqueKeys t) (hop : op.Fresh t)
    (hstep : step db t op = some t') : UniqueKeys t' := by
  cases op with
  | create name now =>
    obtain rfl := Option.some.inj hstep
    exact h.createMachine hop now
  | importMachine m now =>
    obtain rfl := Option.some.inj hstep
    exact h.importMachine hop
  | saveState m snapshot now =>
    obtain rfl := Option.some.inj hstep
    exact h.saveStateDB hop
  | update m c v =>
    obtain rfl := Option.some.inj hstep
    exact h.update hop.1 hop.2 m v
  | delete m =>
    obtain rfl := Option.some.inj hstep
    exact h.sublist (deleteMachine_sublist db m t)

end Unique

/-! ### Importing twice -/

section Twice

variable {db : SQLite}

/-- The row without the time of its last change. -/
def Row.erase (r : Row) : Row := Function.update r .lastupdated none

/-- The tables have the same rows, but for their order and the times of the last changes. -/
def SameRows (t t' : Table) : Prop := (t.map Row.erase).Perm (t'.map Row.erase)

@[simp] lemma key_erase (r : Row) : r.erase.key = r.key := by
  unfold Row.key Row.erase
  rw [Function.update_of_ne (by decide), Function.update_of_ne (by decide)]

/-- Apart from that time, a machine has one row. -/
lemma erase_rowOf (m : Machine) (now now' : Text) :
    (rowOf db m now).erase = (rowOf db m now').erase := by
  funext c
  unfold Row.erase
  rw [Function.update_apply, Function.update_apply]
  cases c <;> rfl

/-- The table after the rows of the key were deleted and the machine inserted. -/
def replaceRow (db : SQLite) (t : Table) (p : Machine × Text) : Table :=
  insertMachine db p.1 p.2 (t.filter fun r => r.key ≠ p.1.key)

/-- An import replaces the rows of the machines, one after the other. -/
lemma importMachines_eq_foldl {ms : List (Machine × Text)} {t : Table}
    (hplain : ∀ p ∈ ms, p.1.Plain) (hok : Guarded (step db) (fun t op => op.Fresh t) t (imports ms)) :
    importMachines db ms t = ms.foldl (replaceRow db) t := by
  induction ms generalizing t with
  | nil => rfl
  | cons p ms ih =>
    rw [List.forall_mem_cons] at hplain
    obtain ⟨hp, hrest⟩ := hok
    have hclear : clearMachine db p.1 t = some (t.filter fun r => r.key ≠ p.1.key) :=
      clearMachine_of_plain hplain.1 (hp.imp id And.right)
    have hstep : step db t (.importMachine p.1 p.2) = some (replaceRow db t p) := by
      show some (importMachine db p.1 p.2 t) = _
      unfold importMachine
      rw [hclear]
      rfl
    unfold importMachines
    rw [hclear]
    exact ih hplain.2 (hrest _ hstep)

/-- The row is that of the last machine with its key. -/
def LastRow (db : SQLite) : List Machine → Row → Prop
  | [], _ => False
  | m :: ms, r => LastRow db ms r ∨ (m.key ∉ ms.map Machine.key ∧ r = (rowOf db m []).erase)

lemma mem_replaceRow {t : Table} {p : Machine × Text} {r : Row} :
    r ∈ (replaceRow db t p).map Row.erase ↔
      (r.key ≠ p.1.key ∧ r ∈ t.map Row.erase) ∨ r = (rowOf db p.1 []).erase := by
  unfold replaceRow insertMachine
  rw [List.map_append, List.mem_append, List.map_singleton, List.mem_singleton,
    erase_rowOf p.1 p.2 []]
  apply or_congr_left
  constructor
  · intro h
    obtain ⟨r', hr', rfl⟩ := List.mem_map.mp h
    rw [List.mem_filter, decide_eq_true_iff] at hr'
    rw [key_erase]
    exact ⟨hr'.2, List.mem_map_of_mem hr'.1⟩
  · rintro ⟨hkey, h⟩
    obtain ⟨r', hr', rfl⟩ := List.mem_map.mp h
    rw [key_erase] at hkey
    exact List.mem_map_of_mem (List.mem_filter.mpr ⟨hr', decide_eq_true hkey⟩)

/-- Which rows there are after the replacements: those of the last machines, and the old ones with
other keys. -/
lemma mem_foldl_replaceRow {ms : List (Machine × Text)} {t : Table} {r : Row} :
    r ∈ (ms.foldl (replaceRow db) t).map Row.erase ↔ LastRow db (ms.map Prod.fst) r ∨
      (r.key ∉ (ms.map Prod.fst).map Machine.key ∧ r ∈ t.map Row.erase) := by
  induction ms generalizing t with
  | nil =>
    show _ ↔ False ∨ (r.key ∉ [] ∧ _)
    rw [false_or, and_iff_right List.not_mem_nil]
    rfl
  | cons p ms ih =>
    have hkey : r = (rowOf db p.1 []).erase → r.key = p.1.key := by
      rintro rfl
      rw [key_erase, key_rowOf]
    rw [List.foldl_cons, ih, mem_replaceRow, List.map_cons, List.map_cons, List.mem_cons, not_or]
    show _ ↔ (LastRow db (ms.map Prod.fst) r ∨ _) ∨ _
    constructor
    · rintro (hlast | ⟨hmem, ⟨hne, hr⟩ | hr⟩)
      · exact Or.inl (Or.inl hlast)
      · exact Or.inr ⟨⟨hne, hmem⟩, hr⟩
      · exact Or.inl (Or.inr ⟨hkey hr ▸ hmem, hr⟩)
    · rintro ((hlast | ⟨hmem, hr⟩) | ⟨⟨hne, hmem⟩, hr⟩)
      · exact Or.inl hlast
      · exact Or.inr ⟨hkey hr ▸ hmem, Or.inr hr⟩
      · exact Or.inr ⟨hmem, Or.inl ⟨hne, hr⟩⟩

lemma UniqueKeys.foldl {ms : List (Machine × Text)} {t : Table} (h : UniqueKeys t) :
    UniqueKeys (ms.foldl (replaceRow db) t) := by
  induction ms generalizing t with
  | nil => exact h
  | cons p ms ih => exact ih (h.filter_insert p.1 p.2)

lemma UniqueKeys.nodup_erase {t : Table} (h : UniqueKeys t) : (t.map Row.erase).Nodup := by
  apply List.Nodup.of_map Row.key
  rw [List.map_map, show Row.key ∘ Row.erase = Row.key from funext key_erase]
  exact h

/-- The same machines once more leave the same rows. -/
lemma sameRows_foldl {ms ms' : List (Machine × Text)} {t : Table} (ht : UniqueKeys t)
    (h : ms.map Prod.fst = ms'.map Prod.fst) :
    SameRows (ms'.foldl (replaceRow db) (ms.foldl (replaceRow db) t))
      (ms.foldl (replaceRow db) t) := by
  apply (List.perm_ext_iff_of_nodup ht.foldl.foldl.nodup_erase ht.foldl.nodup_erase).mpr
  intro r
  rw [mem_foldl_replaceRow, mem_foldl_replaceRow, ← h]
  tauto

end Twice

/-! ### Identity -/

section Identity

variable (db : SQLite)

/-- An import is a run of rounds, up to the one with an exception. -/
lemma exists_run_imports (ms : List (Machine × Text)) (t : Table) :
    ∃ k, run (step db) t ((imports ms).take k) = some (importMachines db ms t) := by
  induction ms generalizing t with
  | nil => exact ⟨0, rfl⟩
  | cons p ms ih =>
    unfold importMachines
    cases hc : clearMachine db p.1 t with
    | none => exact ⟨0, rfl⟩
    | some t' =>
      obtain ⟨k, hk⟩ := ih (insertMachine db p.1 p.2 t')
      refine ⟨k + 1, run_cons.mpr ⟨insertMachine db p.1 p.2 t', ?_, hk⟩⟩
      show some (importMachine db p.1 p.2 t) = _
      unfold importMachine
      rw [hc]

/-- Runs of fresh operations keep the keys unique, and then a file can be imported twice. -/
theorem uniqueKeys_of_run {t : Table} (ht : UniqueKeys t) :
    (∀ ops t', Guarded (step db) (fun t op => op.Fresh t) t ops →
      run (step db) t ops = some t' → UniqueKeys t') ∧
    ∀ (ms : List Machine) (clock clock' : ℕ → Text), (∀ m ∈ ms, m.Plain) →
      Guarded (step db) (fun t op => op.Fresh t) t (imports (stamped clock ms)) →
      Guarded (step db) (fun t op => op.Fresh t) (importMachines db (stamped clock ms) t)
        (imports (stamped clock' ms)) →
      SameRows
        (importMachines db (stamped clock' ms) (importMachines db (stamped clock ms) t))
        (importMachines db (stamped clock ms) t) := by
  constructor
  · intro ops t' hok hrun
    exact run_invariant_of_guarded (fun s op s' hs hop hstep => uniqueKeys_of_step hs hop hstep)
      ht hok hrun
  · intro ms clock clock' hplain hok hok'
    have hall : ∀ clock : ℕ → Text, ∀ p ∈ stamped clock ms, p.1.Plain := by
      intro clock p hp
      apply hplain
      rw [← map_fst_stamped clock ms]
      exact List.mem_map_of_mem hp
    rw [importMachines_eq_foldl (hall clock) hok] at hok' ⊢
    rw [importMachines_eq_foldl (hall clock') hok']
    apply sameRows_foldl ht
    rw [map_fst_stamped, map_fst_stamped]

end Identity

instance (m : Machine) : Decidable m.Plain :=
  inferInstanceAs (Decidable ((_ ≠ _ ∧ _ ≠ _) ∧ _ ∧ _))

instance Op.Fresh.decidable (t : Table) : (op : Op) → Decidable (op.Fresh t)
  | .create _ _ => inferInstanceAs (Decidable (∀ r ∈ t, _ ≠ _))
  | .importMachine _ _ => inferInstanceAs (Decidable (_ ∨ _))
  | .saveState _ _ _ => inferInstanceAs (Decidable (_ ∨ _))
  | .update _ _ _ => inferInstanceAs (Decidable (_ ∧ _))
  | .delete _ => .isTrue trivial

/-- A machine is created, saved, edited and imported together with one that is new. -/
def dosRun : List Op :=
  [.create "dos".toList [], .saveState { machinename := some "dos".toList } "s1".toList [],
    .update { machinename := some "dos".toList } .cdrom (some "/a.iso".toList),
    .importMachine { machinename := some "dos".toList } [],
    .importMachine { machinename := some "debian".toList } []]

theorem uniqueKeys_dosRun :
    (∃ t', run (step plainEngine) [] dosRun = some t' ∧ UniqueKeys t') ∧
      SameRows
        (importMachines plainEngine (stamped (fun _ => ['2']) [{ machinename := some ['a'] }])
          (importMachines plainEngine (stamped (fun _ => ['1']) [{ machinename := some ['a'] }]) []))
        (importMachines plainEngine (stamped (fun _ => ['1']) [{ machinename := some ['a'] }])
          []) := by
  have hnil : UniqueKeys [] := List.nodup_nil
  constructor
  · exact ⟨_, rfl, (uniqueKeys_of_run plainEngine hnil).1 dosRun _ (by decide) rfl⟩
  · exact (uniqueKeys_of_run plainEngine hnil).2 _ _ _ (by decide) (by decide) (by decide)

/-- Creating a machine twice leaves two rows of its name. -/
theorem not_uniqueKeys_twice :
    ∃ t', run (step plainEngine) [] [.create "dos".toList [], .create "dos".toList []] = some t' ∧
      ¬ UniqueKeys t' :=
  ⟨_, rfl, by decide⟩

end Limbo.Machines
