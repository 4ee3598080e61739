import Limbo.Machines.DriveSpinners
import Limbo.Machines.Import

/-!
# The drives of imported machines

The files of the drives are kept in a table of their own, `FavOpenHelper`, under a key for each type
of drive, from which the spinners are loaded. `ImportMachines` files the CDs under `cdrom`; the
spinner loads `cd`.
-/

namespace Limbo.Machines

/-! ### The table of files -/

/-- A row of the table of files. -/
structure FavRow where
  favFileType : Text
  favFile : Option Text
deriving DecidableEq

/-- The rows in the order of their numbers. -/
abbrev Favorites := List FavRow

namespace Favorites

/-- The number of the last row of a file, or `none` for -1. -/
def getFavUrlSeq (fav : Favorites) (file type : Text) : Option ℕ :=
  (fav.findIdxs (· = ⟨type, some file⟩)).getLast?

def insertFavURL (fav : Favorites) (url urlname : Text) : Favorites := fav ++ [⟨urlname, some url⟩]

def getFavURL (fav : Favorites) (favType : Text) : List (Option Text) :=
  (fav.filter (·.favFileType = favType)).map FavRow.favFile

def addDriveToList (fav : Favorites) (file : Option Text) (type : Text) : Favorites :=
  match file with
  | none => fav
  | some file => if fav.getFavUrlSeq file type = none then fav.insertFavURL file type else fav

/-- The files that a spinner takes from the table. -/
def files (fav : Favorites) (favType : Text) : List Text := (fav.getFavURL favType).reduceOption

end Favorites

/-! ### The drives of a machine -/

inductive Drive where
  | hda | hdb | cd | fda | fdb | kernel | initrd
deriving DecidableEq

def Machine.drive (m : Machine) : Drive → Option Text
  | .hda => m.hdaImgPath
  | .hdb => m.hdbImgPath
  | .cd => m.cdIsoPath
  | .fda => m.fdaImgPath
  | .fdb => m.fdbImgPath
  | .kernel => m.kernel
  | .initrd => m.initrd

/-- The drives in the order in which `ImportMachines` files them, with the keys. -/
def importedDrives : List (Drive × Text) :=
  [(.cd, "cdrom".toList), (.hda, "hda".toList), (.hdb, "hdb".toList), (.fda, "fda".toList),
   (.fdb, "fdb".toList), (.kernel, "kernel".toList), (.initrd, "initrd".toList)]

def addDrives (fav : Favorites) (m : Machine) : Favorites :=
  importedDrives.foldl (fun fav p => fav.addDriveToList (m.drive p.1) p.2) fav

/-- The loop of `ImportMachines`: the table, the files and the machines that were inserted. An
exception of a query ends it. -/
def importDrives (db : SQLite) :
    List (Machine × Text) → Table → Favorites → Table × Favorites × List Machine
  | [], t, fav => (t, fav, [])
  | (m, now) :: ms, t, fav =>
    match clearMachine db m t with
    | none => (t, fav, [])
    | some t =>
      let (t, fav, done) := importDrives db ms (insertMachine db m now t) (addDrives fav m)
      (t, fav, m :: done)

/-! ### The spinners of the main screen -/

/-- The entries of the spinners of the hard disks. -/
def hdEntries (files : List Text) : List Text := noneEntry :: "New".toList :: openEntry :: files

def populateHD (fav : Favorites) (fileType : Text) : List Text := hdEntries (fav.files fileType)

def populateCDRom (fav : Favorites) (fileType : Text) : List Text :=
  driveEntries (fav.files fileType)

def populateFloppy (fav : Favorites) (fileType : Text) : List Text :=
  driveEntries (fav.files fileType)

def populateKernel (fav : Favorites) : List Text := driveEntries (fav.files "kernel".toList)

def populateInitrd (fav : Favorites) : List Text := driveEntries (fav.files "initrd".toList)

/-- What `populateAttributes` puts into the adapters of the drives. -/
def populateAttributes (fav : Favorites) : Drive → List Text
  | .kernel => populateKernel fav
  | .initrd => populateInitrd fav
  | .hda => populateHD fav "hda".toList
  | .hdb => populateHD fav "hdb".toList
  | .cd => populateCDRom fav "cd".toList
  | .fda => populateFloppy fav "fda".toList
  | .fdb => populateFloppy fav "fdb".toList

/-- The key under which the files of a drive are loaded. -/
def loadKey : Drive → Text
  | .kernel => "kernel".toList
  | .initrd => "initrd".toList
  | .hda => "hda".toList
  | .hdb => "hdb".toList
  | .cd => "cd".toList
  | .fda => "fda".toList
  | .fdb => "fdb".toList

/-- The least position that `setCDROM`, `setHDA` and the others select. -/
def leastPosition : Drive → ℤ
  | .cd => 2
  | .hda | .hdb | .fda | .fdb | .kernel | .initrd => 0

/-- The spinner of a drive after `populateAttributes` and `loadMachine`. -/
def loadDrive (fav : Favorites) (m : Machine) (d : Drive) : Spinner :=
  let s : Spinner := ⟨populateAttributes fav d, 0⟩
  s.setSelection (Spinner.drivePosition (leastPosition d) s.adapter (m.drive d))

/-- The drives of a machine are in the lists that the spinners load, and are shown when it is
loaded. -/
def Selectable (fav : Favorites) (m : Machine) : Prop :=
  ∀ d, ∀ path ∈ m.drive d, path ∈ fav.files (loadKey d) ∧
    (loadDrive fav m d).getSelectedItem = some path

/-! ### What is in the table -/

variable {fav : Favorites} {m : Machine}

lemma Favorites.mem_files {type file : Text} : file ∈ fav.files type ↔ ⟨type, some file⟩ ∈ fav := by
  simp only [files, getFavURL, List.reduceOption_mem_iff, List.mem_map, List.mem_filter,
    decide_eq_true_eq]
  constructor
  · rintro ⟨⟨t, f⟩, ⟨hmem, rfl⟩, rfl⟩
    exact hmem
  · intro hmem
    exact ⟨_, ⟨hmem, rfl⟩, rfl⟩

lemma Favorites.getFavUrlSeq_eq_none {file type : Text} :
    fav.getFavUrlSeq file type = none ↔ ⟨type, some file⟩ ∉ fav := by
  rw [getFavUrlSeq, List.getLast?_eq_none_iff, List.findIdxs_eq_nil_iff]
  simp only [decide_eq_false_iff_not, List.forall_mem_ne']

lemma Favorites.mem_addDriveToList {file : Option Text} {type : Text} {r : FavRow} :
    r ∈ fav.addDriveToList file type ↔ r ∈ fav ∨ ∃ f ∈ file, r = ⟨type, some f⟩ := by
  cases file with
  | none => simp [addDriveToList]
  | some file =>
    show r ∈ (if fav.getFavUrlSeq file type = none then _ else fav) ↔ _
    split_ifs with hnew
    · simp [insertFavURL]
    · have hold : (⟨type, some file⟩ : FavRow) ∈ fav := by
        rwa [getFavUrlSeq_eq_none, not_not] at hnew
      constructor
      · exact Or.inl
      · rintro (hr | ⟨f, hf, rfl⟩)
        · exact hr
        · cases hf
          exact hold

/-- The rows that a machine brings with it. -/
def Machine.FavRow (m : Machine) (r : FavRow) : Prop :=
  ∃ p ∈ importedDrives, ∃ f ∈ m.drive p.1, r = ⟨p.2, some f⟩

lemma mem_addDrives {r : FavRow} : r ∈ addDrives fav m ↔ r ∈ fav ∨ m.FavRow r := by
  have hfold : ∀ (drives : List (Drive × Text)) (fav : Favorites),
      r ∈ drives.foldl (fun fav p => fav.addDriveToList (m.drive p.1) p.2) fav ↔
        r ∈ fav ∨ ∃ p ∈ drives, ∃ f ∈ m.drive p.1, r = ⟨p.2, some f⟩ := by
    intro drives
    induction drives with
    | nil => simp
    | cons p drives ih =>
      intro fav
      rw [List.foldl_cons, ih, Favorites.mem_addDriveToList, or_assoc, List.exists_mem_cons_iff]
  exact hfold importedDrives fav

lemma mem_importDrives (db : SQLite) (ms : List (Machine × Text)) (t : Table) {r : FavRow} :
    r ∈ (importDrives db ms t fav).2.1 ↔
      r ∈ fav ∨ ∃ m ∈ (importDrives db ms t fav).2.2, m.FavRow r := by
  induction ms generalizing t fav with
  | nil => simp [importDrives]
  | cons p ms ih =>
    obtain ⟨m, now⟩ := p
    unfold importDrives
    cases hclear : clearMachine db m t with
    | none => simp
    | some t' =>
      show r ∈ (importDrives db ms (insertMachine db m now t') (addDrives fav m)).2.1 ↔ r ∈ fav ∨
        ∃ n ∈ m :: (importDrives db ms (insertMachine db m now t') (addDrives fav m)).2.2, n.FavRow r
      rw [ih, mem_addDrives, or_assoc, List.exists_mem_cons_iff]

/-- The table of machines is what the import makes of it. -/
lemma importDrives_fst (db : SQLite) (ms : List (Machine × Text)) (t : Table) (fav : Favorites) :
    (importDrives db ms t fav).1 = importMachines db ms t := by
  induction ms generalizing t fav with
  | nil => rfl
  | cons p ms ih =>
    obtain ⟨m, now⟩ := p
    unfold importDrives importMachines
    cases hclear : clearMachine db m t with
    | none => rfl
    | some t' => exact ih _ _

/-! ### What the spinners show -/

/-- All drives but the CD are filed under the key that is loaded. -/
lemma mem_importedDrives {d : Drive} : (d, loadKey d) ∈ importedDrives ↔ d ≠ .cd := by
  cases d <;> decide

/-- Every spinner offers `None` first, and the files last. -/
lemma populateAttributes_eq (fav : Favorites) (d : Drive) :
    ∃ entries, populateAttributes fav d = noneEntry :: (entries ++ fav.files (loadKey d)) := by
  cases d with
  | hda | hdb => exact ⟨["New".toList, openEntry], rfl⟩
  | cd | fda | fdb | kernel | initrd => exact ⟨[openEntry], rfl⟩

/-- A file that is loaded is shown, unless it is a CD by the name of an entry. -/
lemma loadDrive_shows {d : Drive} {path : Text} (hpath : m.drive d = some path)
    (hmem : path ∈ fav.files (loadKey d)) :
    (loadDrive fav m d).getSelectedItem = some path ↔ (d = .cd → path ≠ openEntry) := by
  obtain ⟨entries, hentries⟩ := populateAttributes_eq fav d
  have hoffered : path ∈ populateAttributes fav d := by
    rw [hentries]
    exact List.mem_cons_of_mem _ (List.mem_append_right _ hmem)
  have hshows : (loadDrive fav m d).getSelectedItem = some path ↔
      (loadDrive fav m d).Shows (m.drive d) := by
    have hshown : shownEntry (populateAttributes fav d) (some path) = path := if_pos hoffered
    show _ ↔ (loadDrive fav m d).getSelectedItem =
      some (shownEntry (populateAttributes fav d) (m.drive d))
    rw [hpath, hshown]
  rw [hshows]
  refine (Spinner.shows_iff hentries (m.drive d)).trans ?_
  rw [hpath]
  show (∀ f ∈ some path, f ∈ populateAttributes fav d →
    ((populateAttributes fav d).idxOf f : ℤ) < leastPosition d → f = noneEntry) ↔ _
  by_cases hcd : d = .cd
  · subst hcd
    have hlt : ((populateAttributes fav .cd).idxOf path : ℤ) < leastPosition .cd ↔
        path = noneEntry ∨ path = openEntry := by
      have htwo : ((driveEntries (fav.files "cd".toList)).idxOf path : ℤ) < 2 ↔
          (driveEntries (fav.files "cd".toList)).idxOf path < 2 := by omega
      exact htwo.trans idxOf_driveEntries_lt_two
    constructor
    · rintro h - rfl
      exact absurd (h openEntry rfl hoffered (hlt.mpr (.inr rfl))) (by decide)
    · intro h f hf _ hf'
      cases hf
      exact (hlt.mp hf').resolve_right (h rfl)
  · have hleast : leastPosition d = 0 := by
      cases d <;> first | rfl | exact absurd rfl hcd
    refine iff_of_true (fun f _ _ hf => ?_) (fun h => absurd h hcd)
    rw [hleast] at hf
    exact absurd hf (not_lt.mpr (Int.natCast_nonneg _))

/-- The rows that the import adds are not those that the spinner of the CD loads. -/
lemma cd_files_importDrives (db : SQLite) (ms : List (Machine × Text)) (t : Table) {path : Text} :
    path ∈ (importDrives db ms t fav).2.1.files "cd".toList ↔ path ∈ fav.files "cd".toList := by
  rw [Favorites.mem_files, Favorites.mem_files, mem_importDrives]
  refine or_iff_left ?_
  rintro ⟨m, -, p, hp, f, -, hr⟩
  have hkeys : ∀ p ∈ importedDrives, "cd".toList ≠ p.2 := by decide
  exact hkeys p hp (FavRow.mk.inj hr).1

/-- The other drives are found where the import has put them. -/
lemma files_importDrives {db : SQLite} {ms : List (Machine × Text)} {t : Table} {m : Machine}
    (hm : m ∈ (importDrives db ms t fav).2.2) {d : Drive} (hd : d ≠ .cd) {path : Text}
    (hpath : m.drive d = some path) :
    path ∈ (importDrives db ms t fav).2.1.files (loadKey d) := by
  rw [Favorites.mem_files, mem_importDrives]
  exact .inr ⟨m, hm, (d, loadKey d), mem_importedDrives.mpr hd, path, hpath, rfl⟩

/-- A file with a machine that has a CD. -/
def cdFile : Text :=
  "\"MACHINE_NAME\",\"CPU\",\"MEMORY\",\"CDROM\"\n\"dos\",\"null\",\"128\",\"dos.iso\"".toList

end Limbo.Machines
