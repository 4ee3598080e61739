import Limbo.Machines.Table

/-!
# The spinners of the drives

A spinner offers the entries of its adapter, of which the first is `None`, and the drives are put in
by position. `DrivesDialogBox.setFDB` takes the position from the adapter of the other floppy drive.
-/

namespace Limbo.Machines

/-! ### Spinners -/

/-- The entries and the position of the selected one. -/
structure Spinner where
  adapter : List Text
  selected : ℕ
deriving DecidableEq

namespace Spinner

/-- `getPosition` of an adapter. -/
def getPosition (adapter : List Text) (item : Text) : ℤ :=
  if item ∈ adapter then adapter.idxOf item else -1

/-- The position for a drive: its own when that is at least `least`, and else that of `None`. -/
def drivePosition (least : ℤ) (adapter : List Text) : Option Text → ℕ
  | none => 0
  | some file =>
    let pos := getPosition adapter file
    if least ≤ pos then pos.toNat else 0

def setSelection (s : Spinner) (pos : ℕ) : Spinner := { s with selected := pos }

/-- `getSelectedItem`; beyond the entries there is none. -/
def getSelectedItem (s : Spinner) : Option Text := s.adapter[s.selected]?

end Spinner

/-- The entry of no drive. -/
def noneEntry : Text := "None".toList

def openEntry : Text := "Open".toList

/-- The entries of the spinners of all drives but the hard disks. -/
def driveEntries (files : List Text) : List Text := noneEntry :: openEntry :: files

/-- The entry that a spinner is to show for a drive. -/
def shownEntry (adapter : List Text) : Option Text → Text
  | none => noneEntry
  | some file => if file ∈ adapter then file else noneEntry

/-- The selected entry is the drive, when it is offered, and else `None`. -/
def Spinner.Shows (s : Spinner) (file : Option Text) : Prop :=
  s.getSelectedItem = some (shownEntry s.adapter file)

lemma idxOf_driveEntries_lt_two {files : List Text} {file : Text} :
    (driveEntries files).idxOf file < 2 ↔ file = noneEntry ∨ file = openEntry := by
  by_cases hnone : file = noneEntry
  · subst hnone
    simp [driveEntries]
  · by_cases hopen : file = openEntry
    · subst hopen
      simp [driveEntries, List.idxOf_cons_ne _ (Ne.symm hnone)]
    · simp [driveEntries, List.idxOf_cons_ne _ (Ne.symm hnone),
        List.idxOf_cons_ne _ (Ne.symm hopen), hnone, hopen]

section Position

variable {least : ℤ} {adapter : List Text} {file : Text} {s : Spinner}

lemma Spinner.drivePosition_of_mem (h : file ∈ adapter) :
    drivePosition least adapter (some file) =
      if least ≤ adapter.idxOf file then adapter.idxOf file else 0 := by
  simp only [drivePosition, getPosition, if_pos h, Int.toNat_natCast]

lemma Spinner.drivePosition_of_not_mem (h : file ∉ adapter) :
    drivePosition least adapter (some file) = 0 := by
  simp only [drivePosition, getPosition, if_neg h]
  split_ifs <;> rfl

lemma getElem?_idxOf (h : file ∈ adapter) : adapter[adapter.idxOf file]? = some file :=
  List.getElem?_idxOf h

/-- Where `None` is the first entry, the spinner shows a drive for its position in the adapter,
unless the drive is offered before `least`. -/
lemma Spinner.shows_iff {files : List Text} (hs : s.adapter = noneEntry :: files)
    (file : Option Text) :
    (s.setSelection (drivePosition least s.adapter file)).Shows file ↔
      ∀ f ∈ file, f ∈ s.adapter → s.adapter.idxOf f < least → f = noneEntry := by
  have hfirst : s.adapter[0]? = some noneEntry := by rw [hs]; rfl
  show s.adapter[drivePosition least s.adapter file]? = some (shownEntry s.adapter file) ↔ _
  cases file with
  | none => exact iff_of_true hfirst fun f hf => nomatch hf
  | some file =>
    by_cases hmem : file ∈ s.adapter
    · rw [drivePosition_of_mem hmem, shownEntry, if_pos hmem]
      by_cases hleast : least ≤ s.adapter.idxOf file
      · rw [if_pos hleast]
        refine iff_of_true (getElem?_idxOf hmem) fun f hf _ hlt => ?_
        cases hf
        exact absurd hlt (not_lt.mpr hleast)
      · rw [if_neg hleast, hfirst, Option.some.injEq]
        constructor
        · intro h f hf _ _
          cases hf
          exact h.symm
        · intro h
          exact (h file rfl hmem (not_le.mp hleast)).symm
    · rw [drivePosition_of_not_mem hmem, shownEntry, if_neg hmem]
      refine iff_of_true hfirst fun f hf hmem' _ => ?_
      cases hf
      exact absurd hmem' hmem

end Position

/-! ### The dialog -/

structure DrivesDialogBox where
  mCD : Spinner
  mFDA : Spinner
  mFDB : Spinner
  userPressedCDROM : Bool
  userPressedFDA : Bool
  userPressedFDB : Bool
  cdIsoPath : Option Text
  fdaImgPath : Option Text
  fdbImgPath : Option Text
deriving DecidableEq

namespace DrivesDialogBox

def setCDROM (d : DrivesDialogBox) (cdrom : Option Text) (userPressed : Bool) : DrivesDialogBox :=
  { d with
    userPressedCDROM := userPressed
    cdIsoPath := cdrom
    mCD := d.mCD.setSelection (Spinner.drivePosition 2 d.mCD.adapter cdrom) }

def setFDA (d : DrivesDialogBox) (fda : Option Text) (userPressed : Bool) : DrivesDialogBox :=
  { d with
    userPressedFDA := userPressed
    fdaImgPath := fda
    mFDA := d.mFDA.setSelection (Spinner.drivePosition 0 d.mFDA.adapter fda) }

/-- The position is that in the adapter of the other floppy drive. -/
def setFDB (d : DrivesDialogBox) (fdb : Option Text) (userPressed : Bool) : DrivesDialogBox :=
  { d with
    userPressedFDB := userPressed
    fdbImgPath := fdb
    mFDB := d.mFDB.setSelection (Spinner.drivePosition 0 d.mFDA.adapter fdb) }

/-- The lists of the three drives have been loaded. -/
structure Populated (d : DrivesDialogBox) (cds fdas fdbs : List Text) : Prop where
  mCD : d.mCD.adapter = driveEntries cds
  mFDA : d.mFDA.adapter = driveEntries fdas
  mFDB : d.mFDB.adapter = driveEntries fdbs

/-- The entry at the position of a drive in one list is the one that is to be shown for it in the
other; when the one has no such drive, neither does the other. -/
def SamePlace (fdas fdbs : List Text) (file : Text) : Prop :=
  if file ∈ fdas then fdbs[fdas.idxOf file]? = some (shownEntry fdbs (some file)) else file ∉ fdbs

variable {d : DrivesDialogBox} {cds fdas fdbs : List Text}

lemma setCDROM_shows_iff (hd : d.Populated cds fdas fdbs) (f : Option Text) (userPressed : Bool) :
    (d.setCDROM f userPressed).mCD.Shows f ↔ f ≠ some openEntry := by
  refine (Spinner.shows_iff hd.mCD f).trans ?_
  rw [hd.mCD]
  constructor
  · rintro h rfl
    have hmem : openEntry ∈ driveEntries cds := List.mem_cons_of_mem _ List.mem_cons_self
    have hlt : (driveEntries cds).idxOf openEntry < 2 := idxOf_driveEntries_lt_two.mpr (.inr rfl)
    exact absurd (h openEntry rfl hmem (by exact_mod_cast hlt)) (by decide)
  · intro hne g hg _ hlt
    obtain hnone | rfl := idxOf_driveEntries_lt_two.mp (by exact_mod_cast hlt)
    · exact hnone
    · exact absurd hg hne

lemma setFDA_shows (hd : d.Populated cds fdas fdbs) (f : Option Text) (userPressed : Bool) :
    (d.setFDA f userPressed).mFDA.Shows f := by
  refine (Spinner.shows_iff hd.mFDA f).mpr fun g _ _ hlt => ?_
  exact absurd hlt (not_lt.mpr (Int.natCast_nonneg _))

lemma setFDB_shows_iff (hd : d.Populated cds fdas fdbs) (f : Option Text) (userPressed : Bool) :
    (d.setFDB f userPressed).mFDB.Shows f ↔
      ∀ g ∈ f, SamePlace (driveEntries fdas) (driveEntries fdbs) g := by
  have hfirst : (driveEntries fdbs)[0]? = some noneEntry := rfl
  show d.mFDB.adapter[Spinner.drivePosition 0 d.mFDA.adapter f]? =
    some (shownEntry d.mFDB.adapter f) ↔ _
  rw [hd.mFDA, hd.mFDB]
  cases f with
  | none => exact iff_of_true hfirst fun g hg => nomatch hg
  | some g =>
    have hall : (∀ g' ∈ some g, SamePlace (driveEntries fdas) (driveEntries fdbs) g') ↔
        SamePlace (driveEntries fdas) (driveEntries fdbs) g :=
      ⟨fun h => h g rfl, fun h g' hg' => Option.some.inj hg' ▸ h⟩
    rw [hall, SamePlace]
    by_cases hmem : g ∈ driveEntries fdas
    · rw [Spinner.drivePosition_of_mem hmem, if_pos (Int.natCast_nonneg _), if_pos hmem]
    · have hne : g ≠ noneEntry := by
        rintro rfl
        exact hmem List.mem_cons_self
      rw [Spinner.drivePosition_of_not_mem hmem, if_neg hmem, hfirst, Option.some.injEq, shownEntry]
      split_ifs with hmem'
      · exact iff_of_false hne.symm (not_not.mpr hmem')
      · exact iff_of_true rfl hmem'

/-- What each setter does to the three selections, when it is right: its own spinner shows the
drive, and the others are as they were. -/
structure SetsOnly (d : DrivesDialogBox) (own : DrivesDialogBox → Spinner)
    (others : List (DrivesDialogBox → Spinner)) (f : Option Text) (d' : DrivesDialogBox) : Prop where
  shows : (own d').Shows f
  unchanged : ∀ other ∈ others, other d' = other d

/-- A dialog with an image of its own for each drive. -/
def oneEach : DrivesDialogBox where
  mCD := ⟨driveEntries ["dos.iso".toList], 0⟩
  mFDA := ⟨driveEntries ["a.img".toList], 0⟩
  mFDB := ⟨driveEntries ["b.img".toList], 0⟩
  userPressedCDROM := false
  userPressedFDA := false
  userPressedFDB := false
  cdIsoPath := none
  fdaImgPath := none
  fdbImgPath := none

end DrivesDialogBox

end Limbo.Machines
