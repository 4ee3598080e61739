import Mathlib

/-!
# The table of machines

The table that `MachineOpenHelper` keeps, and its statements. A condition is put together from the
texts of the caller between double quotes; what SQLite makes of a text that is no plain literal is
left open, and so is how it stores a text in an `INTEGER` column.
-/

namespace Limbo.Machines

/-- The texts of the database. -/
abbrev Text := List Char

/-- `String.valueOf(int)`. -/
def intText (n : Int32) : Text :=
  (if n.toInt < 0 then ['-'] else []) ++ Nat.toDigits 10 n.toInt.natAbs

/-- What concatenation makes of a string that may be null. -/
def orNull (s : Option Text) : Text := s.getD "null".toList

/-! ### `Integer.parseInt` -/

/-- The zeros of the decimal digits that a single `char` can be. -/
def digitZeros : List Nat :=
  [0x30, 0x660, 0x6F0, 0x7C0, 0x966, 0x9E6, 0xA66, 0xAE6, 0xB66, 0xBE6, 0xC66, 0xCE6, 0xD66, 0xE50,
   0xED0, 0xF20, 0x1040, 0x1090, 0x17E0, 0x1810, 0x1946, 0x19D0, 0x1A80, 0x1A90, 0x1B50, 0x1BB0,
   0x1C40, 0x1C50, 0xA620, 0xA8D0, 0xA900, 0xA9D0, 0xAA50, 0xABF0, 0xFF10]

/-- `Character.digit(c, 10)`. -/
def digit (c : Char) : Option Nat :=
  (digitZeros.find? fun z => z ≤ c.toNat ∧ c.toNat < z + 10).map (c.toNat - ·)

/-- The value of a text of digits. -/
def parseDigits (s : Text) : Option Nat :=
  if s = [] then none else s.foldlM (fun n c => (digit c).map (10 * n + ·)) 0

/-- `Integer.parseInt`, or `none` for its exception. -/
def parseInt : Text → Option Int32
  | '-' :: s => (parseDigits s).bind fun n => if n ≤ 2 ^ 31 then some (Int32.ofInt (-n)) else none
  | '+' :: s => (parseDigits s).bind fun n => if n < 2 ^ 31 then some (Int32.ofInt n) else none
  | s => (parseDigits s).bind fun n => if n < 2 ^ 31 then some (Int32.ofInt n) else none

lemma digit_of_isDigit {c : Char} (h : c.isDigit) : digit c = some (c.toNat - '0'.toNat) := by
  have hc : '0'.toNat ≤ c.toNat ∧ c.toNat ≤ '9'.toNat := by
    simpa [Char.isDigit, UInt32.le_iff_toNat_le] using h
  unfold digit digitZeros
  rw [List.find?_cons_of_pos]
  · rfl
  · exact decide_eq_true ⟨hc.1, Nat.lt_succ_of_le hc.2⟩

lemma parseDigits_toDigits (n : Nat) : parseDigits (Nat.toDigits 10 n) = some n := by
  have hfold : ∀ (s : Text) (k : Nat), (∀ c ∈ s, c.isDigit) →
      s.foldlM (fun n c => (digit c).map (10 * n + ·)) k = some (Nat.ofDigitChars 10 s k) := by
    intro s
    induction s with
    | nil => intro k _; rfl
    | cons c s ih =>
      intro k hs
      rw [List.foldlM_cons, digit_of_isDigit (hs c List.mem_cons_self)]
      exact ih _ fun d hd => hs d (List.mem_cons_of_mem c hd)
  unfold parseDigits
  rw [if_neg Nat.toDigits_ne_nil,
    hfold _ 0 fun c hc => Nat.isDigit_of_mem_toDigits (by decide) (by decide) hc,
    Nat.ofDigitChars_ten_toDigits]

/-- What `String.valueOf` writes, `Integer.parseInt` reads. -/
lemma parseInt_intText (n : Int32) : parseInt (intText n) = some n := by
  have hlow : -2147483648 ≤ n.toInt := Int32.minValue_le_toInt n
  have hhigh : n.toInt ≤ 2147483647 := Int32.toInt_le n
  unfold intText
  by_cases hn : n.toInt < 0
  · rw [if_pos hn]
    show (parseDigits (Nat.toDigits 10 n.toInt.natAbs)).bind _ = _
    rw [parseDigits_toDigits, Option.bind_some, if_pos (by omega)]
    rw [show -(n.toInt.natAbs : Int) = n.toInt by omega, Int32.ofInt_toInt]
  · rw [if_neg hn, List.nil_append]
    have hdigits : parseInt (Nat.toDigits 10 n.toInt.natAbs) =
        (parseDigits (Nat.toDigits 10 n.toInt.natAbs)).bind fun k =>
          if k < 2 ^ 31 then some (Int32.ofInt k) else none := by
      have hd : ∀ c ∈ Nat.toDigits 10 n.toInt.natAbs, c.isDigit := fun c hc =>
        Nat.isDigit_of_mem_toDigits (by decide) (by decide) hc
      revert hd
      generalize Nat.toDigits 10 n.toInt.natAbs = s
      intro hd
      unfold parseInt
      split
      · exact absurd (hd '-' List.mem_cons_self) (by decide)
      · exact absurd (hd '+' List.mem_cons_self) (by decide)
      · rfl
    rw [hdigits, parseDigits_toDigits, Option.bind_some, if_pos (by omega)]
    rw [show (n.toInt.natAbs : Int) = n.toInt by omega, Int32.ofInt_toInt]

/-! ### Columns and rows -/

/-- The columns, in the order of `MACHINE_TABLE_CREATE`. -/
inductive Column where
  | machineName | snapshotName | cpu | memory | fda | fdb | cdrom | hda | hdb | bootConfig
  | netConfig | nicConfig | vga | soundcardConfig | hdcacheConfig | disableAcpi | disableHpet
  | enableUsbmouse | status | lastupdated | kernel | initrd | cpunum | machineType
deriving DecidableEq

/-- All of them. -/
def columns : List Column :=
  [.machineName, .snapshotName, .cpu, .memory, .fda, .fdb, .cdrom, .hda, .hdb, .bootConfig,
   .netConfig, .nicConfig, .vga, .soundcardConfig, .hdcacheConfig, .disableAcpi, .disableHpet,
   .enableUsbmouse, .status, .lastupdated, .kernel, .initrd, .cpunum, .machineType]

instance : Fintype Column := Fintype.ofList columns fun c => by cases c <;> decide

/-- The name of a column in the database. -/
def Column.name : Column → Text
  | machineName => "MACHINE_NAME".toList
  | snapshotName => "SNAPSHOT_NAME".toList
  | cpu => "CPU".toList
  | memory => "MEMORY".toList
  | fda => "FDA".toList
  | fdb => "FDB".toList
  | cdrom => "CDROM".toList
  | hda => "HDA".toList
  | hdb => "HDB".toList
  | bootConfig => "BOOT_CONFIG".toList
  | netConfig => "NETCONFIG".toList
  | nicConfig => "NICCONFIG".toList
  | vga => "VGA".toList
  | soundcardConfig => "SOUNDCARD".toList
  | hdcacheConfig => "HDCONFIG".toList
  | disableAcpi => "DISABLE_ACPI".toList
  | disableHpet => "DISABLE_HPET".toList
  | enableUsbmouse => "ENABLE_USBMOUSE".toList
  | status => "STATUS".toList
  | lastupdated => "LAST_UPDATED".toList
  | kernel => "KERNEL".toList
  | initrd => "INITRD".toList
  | cpunum => "CPUNUM".toList
  | machineType => "MACHINETYPE".toList

/-- The columns declared `INTEGER`. -/
def Column.isInteger : Column → Bool
  | disableAcpi | disableHpet | enableUsbmouse | kernel | cpunum => true
  | _ => false

/-- A row: what `getString` reads in each column. -/
abbrev Row := Column → Option Text

/-- The rows in the order of their ids. -/
abbrev Table := List Row

/-! ### Machines -/

/-- `Machine`, as far as the table holds it. -/
structure Machine where
  machinename : Option Text
  cdIsoPath : Option Text := none
  hdaImgPath : Option Text := none
  fdaImgPath : Option Text := none
  hdbImgPath : Option Text := none
  fdbImgPath : Option Text := none
  cpu : Option Text := none
  kernel : Option Text := none
  initrd : Option Text := none
  memory : Int32 := 128
  bootdevice : Option Text := some "c".toList
  netCfg : Option Text := some "None".toList
  vgaType : Option Text := some "std".toList
  hdCache : Option Text := some "default".toList
  nicDriver : Option Text := some "ne2k_pci".toList
  soundcard : Option Text := some "None".toList
  disableacpi : Int32 := 0
  disablehpet : Int32 := 0
  bluetoothmouse : Int32 := 0
  snapshotName : Option Text := some []
  cpuNum : Int32 := 1
  machineType : Option Text := none
deriving DecidableEq

/-- `Const.STATUS_CREATED` and `Const.STATUS_PAUSED`. -/
def statusCreated : Int32 := 1000

def statusPaused : Int32 := 1001

/-- The values that `insertMachine` puts for a machine. -/
def Machine.stateValues (m : Machine) (now : Text) : Row
  | .machineName => m.machinename
  | .snapshotName => m.snapshotName
  | .cpu => m.cpu
  | .cpunum => some (intText m.cpuNum)
  | .memory => some (intText m.memory)
  | .hda => m.hdaImgPath
  | .hdb => m.hdbImgPath
  | .cdrom => m.cdIsoPath
  | .fda => m.fdaImgPath
  | .fdb => m.fdbImgPath
  | .bootConfig => m.bootdevice
  | .netConfig => m.netCfg
  | .nicConfig => m.nicDriver
  | .vga => m.vgaType
  | .hdcacheConfig => m.hdCache
  | .disableAcpi => some (intText m.disableacpi)
  | .disableHpet => some (intText m.disablehpet)
  | .enableUsbmouse => some (intText m.bluetoothmouse)
  | .soundcardConfig => m.soundcard
  | .kernel => m.kernel
  | .initrd => m.initrd
  | .machineType => m.machineType
  | .lastupdated => some now
  | .status => some (intText statusCreated)

/-! ### SQLite -/

/-- `C1="t1" and C2="t2" ...`. -/
abbrev Condition := List (Column × Text)

/-- A quoted text that SQLite resolves to a column: the name of one, in upper or lower case, or one
of the names of the row id. -/
def IsIdentifier (t : Text) : Prop :=
  (∃ c : Column, t.map Char.toUpper = c.name) ∨
    t.map Char.toUpper ∈ ["ROWID".toList, "OID".toList, "_ROWID_".toList]

/-- Between double quotes the text is a literal. -/
structure Plain (t : Text) : Prop where
  quote : '"' ∉ t
  zero : '\x00' ∉ t
  identifier : ¬ IsIdentifier t

/-- The row has a status that the queries ask for. -/
def Row.Listed (r : Row) : Prop :=
  r .status = some (intText statusCreated) ∨ r .status = some (intText statusPaused)

instance (r : Row) : Decidable r.Listed := inferInstanceAs (Decidable (_ ∨ _))

/-- The row has the texts of a condition. -/
def Row.Meets (r : Row) (cond : Condition) : Prop := ∀ p ∈ cond, r p.1 = some p.2

instance (r : Row) (cond : Condition) : Decidable (r.Meets cond) :=
  inferInstanceAs (Decidable (∀ p ∈ cond, r p.1 = some p.2))

/-- The database engine: the rows that a condition stands for in `DELETE` and `UPDATE`, and behind
`STATUS in ( ... ) and` in a query, unless the statement does not compile; what is read back from a
text that is stored in a column; and `Cursor.getInt`. The laws are its documented behaviour. -/
structure SQLite where
  clause : Condition → Option (Row → Bool)
  query : Condition → Option (Row → Bool)
  stored : Column → Text → Text
  getInt : Option Text → Int32
  clause_plain : ∀ cond, (∀ p ∈ cond, Plain p.2 ∧ p.1.isInteger = false) →
    clause cond = some fun r => decide (r.Meets cond)
  query_plain : ∀ cond, (∀ p ∈ cond, Plain p.2 ∧ p.1.isInteger = false) →
    query cond = some fun r => decide (r.Listed ∧ r.Meets cond)
  stored_text : ∀ c t, c.isInteger = false → stored c t = t
  stored_int : ∀ c n, stored c (intText n) = intText n
  stored_number : ∀ c t, stored c t = t ∨ ∀ x ∈ stored c t, x.isAlphanum ∨ x ∈ ['+', '-', '.']
  getInt_intText : ∀ n, getInt (some (intText n)) = n

/-! ### The statements -/

section Statements

variable (db : SQLite)

/-- The condition of `deleteMachine` and `getMachine`. -/
def nameCondition (machine snapshot : Option Text) : Condition :=
  [(.machineName, orNull machine), (.snapshotName, orNull snapshot)]

/-- The row of a machine that is inserted at the time `now`. -/
def rowOf (m : Machine) (now : Text) : Row := fun c => (m.stateValues now c).map (db.stored c)

/-- `insertMachine`. -/
def insertMachine (m : Machine) (now : Text) (t : Table) : Table := t ++ [rowOf db m now]

/-- `db.update` with one value, for the rows that a condition stands for. -/
def updateWhere (cond : Condition) (values : List (Column × Option Text)) (t : Table) : Table :=
  match db.clause cond with
  | none => t
  | some p => t.map fun r =>
    if p r then values.foldl (fun r v => Function.update r v.1 (v.2.map (db.stored v.1))) r else r

/-- `updateStatus`. -/
def updateStatus (m : Machine) (status : Int32) (now : Text) (t : Table) : Table :=
  updateWhere db [(.machineName, orNull m.machinename)]
    [(.status, some (intText status)), (.lastupdated, some now)] t

/-- `update`. -/
def update (m : Machine) (colname : Column) (value : Option Text) (t : Table) : Table :=
  updateWhere db [(.machineName, orNull m.machinename), (.snapshotName, [])]
    [(colname, value)] t

/-- `deleteMachine`. -/
def deleteMachine (m : Machine) (t : Table) : Table :=
  match db.clause (nameCondition m.machinename m.snapshotName) with
  | none => t
  | some p => t.filter (!p ·)

/-- The machine that `getMachine` makes of a row. -/
def machineOf (r : Row) : Machine where
  machinename := r .machineName
  cpu := r .cpu
  memory := db.getInt (r .memory)
  cdIsoPath := r .cdrom
  hdaImgPath := r .hda
  hdbImgPath := r .hdb
  fdaImgPath := r .fda
  fdbImgPath := r .fdb
  vgaType := r .vga
  soundcard := r .soundcardConfig
  netCfg := r .netConfig
  nicDriver := r .nicConfig
  disableacpi := db.getInt (r .disableAcpi)
  disablehpet := db.getInt (r .disableHpet)
  bluetoothmouse := db.getInt (r .enableUsbmouse)
  hdCache := r .hdcacheConfig
  snapshotName := r .snapshotName
  bootdevice := r .bootConfig
  kernel := r .kernel
  initrd := r .initrd
  cpuNum := db.getInt (r .cpunum)
  machineType := r .machineType

/-- `getMachine`: the first row that the query finds, or null; an error is not caught. -/
def getMachine (machine snapshot : Option Text) (t : Table) : Option (Option Machine) :=
  (db.query (nameCondition machine snapshot)).map fun p => (t.find? p).map (machineOf db)

end Statements

/-! ### What the statements do -/

section Lemmas

variable (db : SQLite)

/-- A deletion only deletes. -/
lemma deleteMachine_sublist (m : Machine) (t : Table) : (deleteMachine db m t).Sublist t := by
  unfold deleteMachine
  cases db.clause (nameCondition m.machinename m.snapshotName) with
  | none => exact List.Sublist.refl t
  | some p => exact List.filter_sublist

/-- The texts that name a machine are plain. -/
def PlainNames (machine snapshot : Option Text) : Prop :=
  Plain (orNull machine) ∧ Plain (orNull snapshot)

lemma plain_nil : Plain [] where
  quote := List.not_mem_nil
  zero := List.not_mem_nil
  identifier := by
    rintro (⟨c, hc⟩ | h)
    · cases c <;> cases hc
    · revert h
      decide

lemma nameCondition_plain {machine snapshot : Option Text} (h : PlainNames machine snapshot) :
    ∀ p ∈ nameCondition machine snapshot, Plain p.2 ∧ p.1.isInteger = false := by
  intro p hp
  rcases List.mem_cons.mp hp with rfl | hp
  · exact ⟨h.1, rfl⟩
  · obtain rfl := List.mem_singleton.mp hp
    exact ⟨h.2, rfl⟩

lemma meets_nameCondition {machine snapshot : Option Text} {r : Row} :
    r.Meets (nameCondition machine snapshot) ↔
      r .machineName = some (orNull machine) ∧ r .snapshotName = some (orNull snapshot) := by
  unfold Row.Meets nameCondition
  rw [List.forall_mem_cons, List.forall_mem_singleton]

/-- A deletion for plain names deletes the rows of these names. -/
lemma deleteMachine_of_plain {m : Machine} (h : PlainNames m.machinename m.snapshotName)
    (t : Table) : deleteMachine db m t =
      t.filter fun r => ¬ r.Meets (nameCondition m.machinename m.snapshotName) := by
  unfold deleteMachine
  rw [db.clause_plain _ (nameCondition_plain h)]
  dsimp only
  congr 1
  funext r
  exact (decide_not ..).symm

lemma getMachine_of_plain {machine snapshot : Option Text} (h : PlainNames machine snapshot)
    (t : Table) : getMachine db machine snapshot t = some ((t.find? fun r =>
      r.Listed ∧ r.Meets (nameCondition machine snapshot)).map (machineOf db)) := by
  unfold getMachine
  rw [db.query_plain _ (nameCondition_plain h)]
  rfl

end Lemmas

/-! ### An engine -/

instance (t : Text) : Decidable (IsIdentifier t) := inferInstanceAs (Decidable (_ ∨ _))

lemma plain_iff {t : Text} : Plain t ↔ '"' ∉ t ∧ '\x00' ∉ t ∧ ¬ IsIdentifier t :=
  ⟨fun h => ⟨h.quote, h.zero, h.identifier⟩, fun h => ⟨h.1, h.2.1, h.2.2⟩⟩

instance (t : Text) : Decidable (Plain t) := decidable_of_iff _ plain_iff.symm

/-- An engine for plain texts: it refuses every other statement, as SQLite refuses those in which a
quote is left open. -/
def plainEngine : SQLite where
  clause cond :=
    if ∀ p ∈ cond, Plain p.2 ∧ p.1.isInteger = false then some fun r => decide (r.Meets cond)
    else none
  query cond :=
    if ∀ p ∈ cond, Plain p.2 ∧ p.1.isInteger = false then
      some fun r => decide (r.Listed ∧ r.Meets cond)
    else none
  stored _ t := t
  getInt v := (v.bind parseInt).getD 0
  clause_plain _ h := if_pos h
  query_plain _ h := if_pos h
  stored_text _ _ _ := rfl
  stored_int _ _ := rfl
  stored_number _ _ := Or.inl rfl
  getInt_intText n := by rw [Option.bind_some, parseInt_intText, Option.getD_some]

end Limbo.Machines
