import Limbo.Machines.Table

/-!
# The file of machines

`MachineOpenHelper.exportMachines` writes the table as comma-separated lines, and
`FileUtils.getVMs` reads such lines back into machines.
-/

namespace Limbo.Machines

/-! ### Writing -/

/-- The columns that `exportMachines` selects. -/
def exportColumns : List Column :=
  [.machineName, .cpu, .memory, .cdrom, .fda, .fdb, .hda, .hdb, .netConfig, .nicConfig, .vga,
   .soundcardConfig, .hdcacheConfig, .disableAcpi, .disableHpet, .enableUsbmouse, .snapshotName,
   .bootConfig, .kernel, .initrd, .cpunum, .machineType]

/-- A cell between double quotes. -/
def quoted (s : Text) : Text := '"' :: (s ++ ['"'])

/-- The cells of a line with commas between them. -/
def csvLine (cells : List Text) : Text := [','].intercalate (cells.map quoted)

/-- The first line, with the names of the columns. -/
def header : Text := csvLine (exportColumns.map Column.name)

/-- The line of a row; `getString` may be null. -/
def exportRow (r : Row) : Text := csvLine (exportColumns.map fun c => orNull (r c))

/-- `exportMachines`. -/
def exportMachines (t : Table) : Text :=
  header ++ '\n' :: t.flatMap fun r => exportRow r ++ ['\n']

/-! ### Reading -/

/-- The lines that `readLine` returns. -/
def readLines : Text → List Text
  | [] => []
  | '\n' :: s => [] :: readLines s
  | '\r' :: '\n' :: s => [] :: readLines s
  | '\r' :: s => [] :: readLines s
  | c :: s =>
    match readLines s with
    | [] => [[c]]
    | l :: ls => (c :: l) :: ls

/-- `line.split(",")`: empty cells at the end are dropped, but not a line without commas. -/
def splitLine (line : Text) : List Text :=
  if ',' ∈ line then (line.splitOn ',').rdropWhile List.isEmpty else [line]

/-- `replace("\"", "")`. -/
def unquoted (s : Text) : Text := s.filter (· ≠ '"')

/-- What `getVMs` does with the text of a column. -/
def setAttr (m : Machine) (s : Text) : Column → Option Machine
  | .machineName => some { m with machinename := some s }
  | .cpu => some { m with cpu := some s }
  | .memory => (parseInt s).map fun n => { m with memory := n }
  | .cdrom => some { m with cdIsoPath := some s }
  | .fda => some { m with fdaImgPath := some s }
  | .fdb => some { m with fdbImgPath := some s }
  | .hda => some { m with hdaImgPath := some s }
  | .hdb => some { m with hdbImgPath := some s }
  | .netConfig => some { m with netCfg := some s }
  | .nicConfig => some { m with nicDriver := some s }
  | .vga => some { m with vgaType := some s }
  | .soundcardConfig => some { m with soundcard := some s }
  | .hdcacheConfig => some { m with hdCache := some s }
  | .disableAcpi => (parseInt s).map fun n => { m with disableacpi := n }
  | .disableHpet => (parseInt s).map fun n => { m with disablehpet := n }
  | .snapshotName => some { m with snapshotName := some s }
  | .bootConfig => some { m with bootdevice := some s }
  | .kernel => some { m with kernel := some s }
  | .initrd => some { m with initrd := some s }
  -- the names of the last three are in the list too, but no branch is for them
  | .enableUsbmouse | .cpunum | .machineType | .status | .lastupdated => some m

/-- `machineAttrNames`. -/
def machineAttrNames : List Column :=
  [.machineName, .cpu, .memory, .cdrom, .fda, .fdb, .hda, .hdb, .netConfig, .nicConfig, .vga,
   .soundcardConfig, .hdcacheConfig, .disableAcpi, .disableHpet, .enableUsbmouse, .snapshotName,
   .bootConfig, .kernel, .initrd, .cpunum, .machineType]

/-- The loop over the cells of a line: a cell `"null"` is passed over before its name is looked up,
and a cell without a name is an exception. -/
def readAttrs : List Column → List Text → Machine → Option Machine
  | _, [], m => some m
  | names, attr :: attrs, m =>
    if attr = quoted "null".toList then readAttrs names.tail attrs m
    else
      match names with
      | [] => none
      | name :: names => (setAttr m (unquoted attr) name).bind (readAttrs names attrs)

/-- The machine of a line; it is first named by the whole first cell. -/
def readMachine (line : Text) : Option Machine :=
  match splitLine line with
  | [] => none
  | attr :: attrs => readAttrs machineAttrNames (attr :: attrs) { machinename := some attr }

/-- The machines up to the first line that is an exception. -/
def readMachines : List Text → List Machine
  | [] => []
  | line :: lines =>
    match readMachine line with
    | none => []
    | some m => m :: readMachines lines

/-- `getVMs`. -/
def getVMs (file : Text) : List Machine := readMachines (readLines file).tail

/-! ### Lines and cells -/

/-- The text neither ends a line nor a cell. -/
def Unbroken (s : Text) : Prop := ',' ∉ s ∧ '\n' ∉ s ∧ '\r' ∉ s

lemma readLines_cons {c : Char} (hn : c ≠ '\n') (hr : c ≠ '\r') (s l : Text) (ls : List Text)
    (h : readLines s = l :: ls) : readLines (c :: s) = (c :: l) :: ls := by
  rw [readLines.eq_def]
  split
  · contradiction
  · rename_i heq
    exact absurd (List.cons.inj heq).1 hn
  · rename_i heq
    exact absurd (List.cons.inj heq).1 hr
  · rename_i heq
    exact absurd (List.cons.inj heq).1 hr
  · rename_i heq
    obtain ⟨rfl, rfl⟩ := List.cons.inj heq
    rw [h]

/-- A line that is written is read. -/
lemma readLines_append (l s : Text) (hn : '\n' ∉ l) (hr : '\r' ∉ l) :
    readLines (l ++ '\n' :: s) = l :: readLines s := by
  induction l with
  | nil => rfl
  | cons c l ih =>
    rw [List.mem_cons, not_or] at hn hr
    exact readLines_cons (Ne.symm hn.1) (Ne.symm hr.1) _ _ _ (ih hn.2 hr.2)

/-- No line has a line break in it. -/
lemma forall_mem_readLines (s : Text) : ∀ l ∈ readLines s, '\n' ∉ l ∧ '\r' ∉ l := by
  have hnil : '\n' ∉ ([] : Text) ∧ '\r' ∉ ([] : Text) := ⟨List.not_mem_nil, List.not_mem_nil⟩
  fun_induction readLines s with
  | case1 => exact fun _ h => absurd h List.not_mem_nil
  | case2 s ih => exact List.forall_mem_cons.mpr ⟨hnil, ih⟩
  | case3 s ih => exact List.forall_mem_cons.mpr ⟨hnil, ih⟩
  | case4 s _ ih => exact List.forall_mem_cons.mpr ⟨hnil, ih⟩
  | case5 c s hn _ hr heq ih =>
    rw [List.forall_mem_singleton, List.mem_singleton, List.mem_singleton]
    exact ⟨fun h => hn h.symm, fun h => hr h.symm⟩
  | case6 c s hn _ hr l ls heq ih =>
    rw [heq, List.forall_mem_cons] at ih
    rw [List.forall_mem_cons, List.mem_cons, List.mem_cons, not_or, not_or]
    exact ⟨⟨⟨fun h => hn h.symm, ih.1.1⟩, fun h => hr h.symm, ih.1.2⟩, ih.2⟩

/-- No cell has a comma in it, and its characters are those of the line. -/
lemma forall_mem_splitOn (line : Text) :
    ∀ s ∈ line.splitOn ',', ',' ∉ s ∧ ∀ c ∈ s, c ∈ line := by
  induction line with
  | nil =>
    rw [List.splitOn_nil, List.forall_mem_singleton]
    exact ⟨List.not_mem_nil, fun c h => h⟩
  | cons c line ih =>
    rw [List.splitOn_cons_eq_if_modifyHead]
    have htail : ∀ s ∈ line.splitOn ',', ',' ∉ s ∧ ∀ d ∈ s, d ∈ c :: line := fun s hs =>
      ⟨(ih s hs).1, fun d hd => List.mem_cons_of_mem c ((ih s hs).2 d hd)⟩
    by_cases hc : c = ','
    · rw [if_pos (beq_iff_eq.mpr hc), List.forall_mem_cons]
      exact ⟨⟨List.not_mem_nil, fun d hd => absurd hd List.not_mem_nil⟩, htail⟩
    · rw [if_neg (by rwa [beq_iff_eq])]
      cases hs : line.splitOn ',' with
      | nil => exact absurd hs (List.splitOn_ne_nil ',' line)
      | cons s cells =>
        rw [hs, List.forall_mem_cons] at htail
        rw [List.modifyHead_cons, List.forall_mem_cons, List.mem_cons, not_or]
        refine ⟨⟨⟨Ne.symm hc, htail.1.1⟩, ?_⟩, htail.2⟩
        rw [List.forall_mem_cons]
        exact ⟨List.mem_cons_self, htail.1.2⟩

/-- The cells of a line that is read are unbroken. -/
lemma unbroken_of_mem_splitLine {line s : Text} (hn : '\n' ∉ line) (hr : '\r' ∉ line)
    (h : s ∈ splitLine line) : Unbroken s := by
  unfold splitLine at h
  by_cases hcomma : ',' ∈ line
  · rw [if_pos hcomma] at h
    have hs := forall_mem_splitOn line s ((List.rdropWhile_prefix _ _).subset h)
    exact ⟨hs.1, fun hc => hn (hs.2 _ hc), fun hc => hr (hs.2 _ hc)⟩
  · rw [if_neg hcomma, List.mem_singleton] at h
    subst h
    exact ⟨hcomma, hn, hr⟩

lemma readAttrs_attr (names : List Column) (attr : Text) (attrs : List Text) (m : Machine) :
    readAttrs names (attr :: attrs) m =
      if attr = quoted "null".toList then readAttrs names.tail attrs m
      else
        match names with
        | [] => none
        | name :: names => (setAttr m (unquoted attr) name).bind (readAttrs names attrs) := by
  cases names <;> rfl

lemma quoted_injective {s t : Text} : quoted s = quoted t ↔ s = t := by
  unfold quoted
  rw [List.cons_inj_right, List.append_cancel_right_eq]

lemma mem_quoted {c : Char} {s : Text} : c ∈ quoted s ↔ c = '"' ∨ c ∈ s := by
  unfold quoted
  rw [List.mem_cons, List.mem_append, List.mem_singleton]
  tauto

lemma unquoted_quoted (s : Text) : unquoted (quoted s) = unquoted s := by
  unfold unquoted quoted
  rw [List.filter_cons_of_neg (by decide), List.filter_append]
  exact List.append_nil _

lemma unquoted_eq_self {s : Text} : unquoted s = s ↔ '"' ∉ s := by
  unfold unquoted
  rw [List.filter_eq_self]
  constructor
  · exact fun h hs => of_decide_eq_true (h _ hs) rfl
  · exact fun h c hc => decide_eq_true fun hq => h (hq ▸ hc)

lemma Unbroken.unquoted {s : Text} (h : Unbroken s) : Unbroken (unquoted s) :=
  ⟨fun hc => h.1 (List.mem_of_mem_filter hc), fun hc => h.2.1 (List.mem_of_mem_filter hc),
    fun hc => h.2.2 (List.mem_of_mem_filter hc)⟩

/-- What is on a line comes from the cells. -/
lemma mem_csvLine {c : Char} {cells : List Text} (h : c ∈ csvLine cells) :
    c = ',' ∨ c = '"' ∨ ∃ s ∈ cells, c ∈ s := by
  induction cells with
  | nil => exact absurd h List.not_mem_nil
  | cons s cells ih =>
    have hrest : c ∈ quoted s ∨ c = ',' ∨ c ∈ csvLine cells := by
      unfold csvLine at h ⊢
      cases cells with
      | nil =>
        rw [List.map_singleton, List.intercalate_singleton] at h
        exact Or.inl h
      | cons t cells =>
        rw [List.map_cons, List.map_cons, List.intercalate_cons_cons, List.mem_append,
          List.mem_append, List.mem_singleton] at h
        tauto
    rcases hrest with hs | hc | hcells
    · rcases mem_quoted.mp hs with hq | hs
      · exact Or.inr (Or.inl hq)
      · exact Or.inr (Or.inr ⟨s, List.mem_cons_self, hs⟩)
    · exact Or.inl hc
    · rcases ih hcells with hc | hq | ⟨t, ht, hct⟩
      · exact Or.inl hc
      · exact Or.inr (Or.inl hq)
      · exact Or.inr (Or.inr ⟨t, List.mem_cons_of_mem s ht, hct⟩)

/-- The line of unbroken cells is one line. -/
lemma not_mem_csvLine {cells : List Text} (h : ∀ s ∈ cells, Unbroken s) :
    '\n' ∉ csvLine cells ∧ '\r' ∉ csvLine cells := by
  constructor
  · intro hn
    rcases mem_csvLine hn with hc | hq | ⟨s, hs, hns⟩
    · exact absurd hc (by decide)
    · exact absurd hq (by decide)
    · exact (h s hs).2.1 hns
  · intro hr
    rcases mem_csvLine hr with hc | hq | ⟨s, hs, hrs⟩
    · exact absurd hc (by decide)
    · exact absurd hq (by decide)
    · exact (h s hs).2.2 hrs

/-- Unbroken cells that are written are read. -/
lemma splitLine_csvLine {cells : List Text} (hne : cells ≠ []) (h : ∀ s ∈ cells, ',' ∉ s) :
    splitLine (csvLine cells) = cells.map quoted := by
  have hsplit : (csvLine cells).splitOn ',' = cells.map quoted := by
    apply List.splitOn_intercalate
    · intro l hl
      obtain ⟨s, hs, rfl⟩ := List.mem_map.mp hl
      rw [mem_quoted]
      rintro (hq | hc)
      · exact absurd hq (by decide)
      · exact h s hs hc
    · exact fun hnil => hne (List.map_eq_nil_iff.mp hnil)
  unfold splitLine
  by_cases hcomma : ',' ∈ csvLine cells
  · rw [if_pos hcomma, hsplit, List.rdropWhile_eq_self_iff]
    intro hl hempty
    obtain ⟨s, -, hs⟩ := List.mem_map.mp (List.getLast_mem hl)
    rw [← hs] at hempty
    exact absurd hempty Bool.false_ne_true
  · rw [if_neg hcomma, ← hsplit, List.splitOn_eq_singleton hcomma]

/-- The lines of a table of unbroken cells. -/
lemma readLines_exportMachines {t : Table}
    (h : ∀ r ∈ t, ∀ c ∈ exportColumns, Unbroken (orNull (r c))) :
    readLines (exportMachines t) = header :: t.map exportRow := by
  have hrows : readLines (t.flatMap fun r => exportRow r ++ ['\n']) = t.map exportRow := by
    induction t with
    | nil => rfl
    | cons r t ih =>
      rw [List.forall_mem_cons] at h
      have hr : '\n' ∉ exportRow r ∧ '\r' ∉ exportRow r := by
        apply not_mem_csvLine
        intro s hs
        obtain ⟨c, hc, rfl⟩ := List.mem_map.mp hs
        exact h.1 c hc
      rw [List.flatMap_cons, List.append_assoc, List.map_cons, ← ih h.2]
      exact readLines_append _ _ hr.1 hr.2
  unfold exportMachines
  rw [readLines_append _ _ (by decide) (by decide), hrows]

end Limbo.Machines
