import Limbo.Snapshot.FailedSave
import Limbo.Snapshot.NewSnapshots

/-!
# Saving a machine with several disks

One record serves the creations on all disks in turn. Its id is that of the old snapshot on the
disk of the VM state, or a new one for the first disk; a disk where another snapshot has this id
gets none.
-/

namespace Limbo.Snapshot

open Lib BlockDriverState

/-- No read, write or allocation of a save fails; the VM state has at least its header. -/
structure NoFailure (env : Env) : Prop where
  deletes : ∀ i, env.deleteIo i = none
  creates : ∀ i, env.createIo i = none
  opens : env.opens
  written : 0 ≤ env.savevmState
  size : 0 < env.vmStateSize

/-- The save is complete: each disk that can snapshot has got a snapshot of the name, the one on
the disk that `bdrv_snapshots` selects has the VM state, and the snapshots of another id and name
are still there. -/
structure SavedEverywhere (name : CString) (s : State) (o : Outcome) : Prop where
  everyDisk : ∀ (j : ℕ) b, s.blk.devices[j]? = some b → b.canSnapshot →
    ∃ e, NewSnapshot s o j e ∧ e.name = name
  vmState : ∀ j e, NewSnapshot s o j e → (e.vmStateSize ≠ 0 ↔ s.blk.snapshots.1 = some j)
  kept : ∀ (j : ℕ) b t, s.blk.devices[j]? = some b → b.table = .ok t →
    ∀ x ∈ t, x.idStr ≠ name → x.name ≠ name →
      ∃ b' t', o.state.blk.devices[j]? = some b' ∧ b'.table = .ok t' ∧ x ∈ t'

/-- The id that the creations share: that of the old snapshot on the disk `bs` of the VM state, or
a new one for the first disk that can snapshot. -/
def sharedId (env : Env) (name : CString) (bs : BlockDriverState)
    (devices : List BlockDriverState) : CString :=
  newId (snInfo env (some bs) (some name)) (devices.map (afterDelete name))

/-- All disks take the snapshot: an old one that is found by `name` on the disk of the VM state is
called so, the deletions find what the lists show, and the shared id is free on every disk. -/
structure TakenEverywhere (env : Env) (name : CString) (bs : BlockDriverState)
    (devices : List BlockDriverState) : Prop where
  fits : name.length < 256
  oldName : ∀ old, bdrvSnapshotFind bs name = some old → old.name = name
  deletes : ∀ b ∈ devices, DeletesOld none name b
  freeId : ∀ b ∈ devices, b.canSnapshot → ∀ t, (afterDelete name b).table = .ok t →
    ∀ x ∈ t, x.idStr ≠ sharedId env name bs devices

/-- A save does not replace an entry of another id and name. -/
lemma mem_others {name : CString} {t : List QEMUSnapshotInfo} {x : QEMUSnapshotInfo} (hx : x ∈ t)
    (hid : x.idStr ≠ name) (hname : x.name ≠ name) : x ∈ others name t := by
  unfold others findSnapshotByIdOrName findSnapshotById
  have hkept : ∀ {p : QEMUSnapshotInfo → Bool} {i : ℕ}, t.findIdx? p = some i → p x = false →
      x ∈ t.eraseIdx i := by
    intro p i hi hp
    obtain ⟨j, hj⟩ := List.mem_iff_getElem?.mp hx
    refine List.mem_eraseIdx_iff_getElem?.mpr ⟨j, ?_, hj⟩
    rintro rfl
    obtain ⟨hlt, hpj, -⟩ := List.findIdx?_eq_some_iff_getElem.mp hi
    rw [List.getElem?_eq_getElem hlt] at hj
    rw [Option.some.inj hj, hp] at hpj
    cases hpj
  cases hi : t.findIdx? (·.idStr = name) with
  | some i => exact hkept hi (decide_eq_false hid)
  | none =>
    dsimp only
    cases hn : t.findIdx? (·.name = name) with
    | some i => exact hkept hn (decide_eq_false hname)
    | none => exact hx

/-- The snapshots of another id and name survive a save on every disk. -/
lemma saveSnapshot_kept {env : Env} (henv : NoFailure env) (name : CString) (s : State) {j : ℕ}
    {b : BlockDriverState} {t : List QEMUSnapshotInfo} (hj : s.blk.devices[j]? = some b)
    (ht : b.table = .ok t) {x : QEMUSnapshotInfo} (hx : x ∈ t) (hid : x.idStr ≠ name)
    (hname : x.name ≠ name) :
    ∃ b' t', (saveSnapshot env (some name) s).state.blk.devices[j]? = some b' ∧
      b'.table = .ok t' ∧ x ∈ t' := by
  obtain ⟨b', hb', hsame, hover⟩ := saveSnapshot_savedOver env name s j b hj
  by_cases hcan : b.canSnapshot
  · obtain ⟨t₀, t', ht₀, ht', hsub⟩ := hover hcan (henv.deletes j) (henv.creates j)
    obtain rfl := Except.ok.inj (ht.symm.trans ht₀)
    exact ⟨b', t', hb', ht', hsub.subset (mem_others hx hid hname)⟩
  · rw [hsame (Bool.not_eq_true _ ▸ hcan)] at hb'
    exact ⟨b, t, hb', ht, hx⟩

/-- The common name of the new entries is the given one. -/
lemma entryOn_name_eq_iff {env : Env} {name : CString} {bs : BlockDriverState}
    {devices : List BlockDriverState} {device j : ℕ} :
    (entryOn env (some name) bs devices device j).name = name ↔
      name.length < 256 ∧ ∀ old, bdrvSnapshotFind bs name = some old → old.name = name :=
  @newEntry_name_eq_iff env name bs devices

lemma savedEverywhere_saveSnapshot {env : Env} (henv : NoFailure env) (name : CString)
    (s : State) : SavedEverywhere name s (saveSnapshot env (some name) s) ↔
      ∀ device bs, s.blk.snapshots.1 = some device → s.blk.devices[device]? = some bs →
        TakenEverywhere env name bs s.blk.devices := by
  constructor
  · intro hsaved device bs hdevice hbs
    obtain ⟨-, bs', hbs', hcan⟩ := BlockLayer.snapshots_spec hdevice
    obtain rfl := Option.some.inj (hbs.symm.trans hbs')
    obtain ⟨e, hnew, hname⟩ := hsaved.everyDisk device bs hbs hcan
    obtain ⟨device', bs', hdevice', hbs', rfl⟩ := hnew.eq_entryOn
    obtain rfl := Option.some.inj (hdevice.symm.trans hdevice')
    obtain rfl := Option.some.inj (hbs.symm.trans hbs')
    obtain ⟨hfits, hold⟩ := entryOn_name_eq_iff.mp hname
    refine ⟨hfits, hold, fun b hb => ?_, fun b hb hbcan t ht => ?_⟩
    · obtain ⟨i, hi⟩ := List.mem_iff_getElem?.mp hb
      have hdel := (saveSnapshot_created.mp hnew.1).deletes name rfl i b hi
      rw [henv.deletes i] at hdel
      exact hdel
    · obtain ⟨i, hi⟩ := List.mem_iff_getElem?.mp hb
      obtain ⟨e', hnew', -⟩ := hsaved.everyDisk i b hi hbcan
      exact ((newSnapshot_saveSnapshot hnew.1 hdevice hbs hi hbcan ht).mp hnew').1.2
  · intro htaken
    refine ⟨fun j b hj hcan => ?_, fun j e hnew => ?_, fun j b t hj ht x hx hid hname => ?_⟩
    · have hsome : s.blk.snapshots.1 ≠ none := by
        rw [Ne, BlockLayer.snapshots_eq_none]
        intro hno
        rw [hno b (List.mem_of_getElem? hj)] at hcan
        cases hcan
      obtain ⟨device, hdevice⟩ := Option.ne_none_iff_exists'.mp hsome
      obtain ⟨-, bs, hbs, -⟩ := BlockLayer.snapshots_spec hdevice
      have htake := htaken device bs hdevice hbs
      have hcreated : (saveSnapshot env (some name) s).created = true := by
        apply saveSnapshot_created.mpr
        refine ⟨⟨b, List.mem_of_getElem? hj, hcan⟩, ?_, henv.opens, henv.written⟩
        intro n hn i c hi
        obtain rfl := Option.some.inj hn
        rw [henv.deletes i]
        exact htake.deletes c (List.mem_of_getElem? hi)
      obtain ⟨t, ht⟩ :=
        table_of_canSnapshot ((canSnapshot_deletedFrom (some name) b).trans hcan)
      refine ⟨entryOn env (some name) bs s.blk.devices device j, ?_,
        entryOn_name_eq_iff.mpr ⟨htake.fits, htake.oldName⟩⟩
      apply (newSnapshot_saveSnapshot hcreated hdevice hbs hj hcan ht).mpr
      exact ⟨⟨henv.creates j, htake.freeId b (List.mem_of_getElem? hj) hcan t ht⟩, rfl⟩
    · obtain ⟨device, bs, hdevice, -, rfl⟩ := hnew.eq_entryOn
      show (if j = device then env.vmStateSize else 0) ≠ 0 ↔ _
      rw [hdevice]
      by_cases hj : j = device
      · rw [if_pos hj, hj]
        exact iff_of_true henv.size.ne' rfl
      · rw [if_neg hj]
        refine iff_of_false (fun h => h rfl) ?_
        intro h
        exact hj (Option.some.inj h).symm
    · exact saveSnapshot_kept henv name s hj ht hx hid hname

/-- A save without failures is complete exactly when it selects no disk, or all disks take the
snapshot, and `do_savevm` finds no writable device without snapshots. -/
theorem savedEverywhere_iff (r : Routine) (env : Env) (name : CString) (s : State)
    (henv : NoFailure env) : SavedEverywhere name s (r.run env (some name) s) ↔
      ∀ device bs, s.blk.snapshots.1 = some device → s.blk.devices[device]? = some bs →
        (r = .doSavevm → AllSupported s.blk.devices) ∧
          TakenEverywhere env name bs s.blk.devices := by
  by_cases hsup : r = .doSavevm → AllSupported s.blk.devices
  · have hsame : SavedEverywhere name s (r.run env (some name) s) ↔
        SavedEverywhere name s (saveSnapshot env (some name) s) := by
      obtain ⟨-, hblk⟩ := @Routine.run_of_supported r env (some name) s hsup
      have hnew {j e} : NewSnapshot s (r.run env (some name) s) j e ↔
          NewSnapshot s (saveSnapshot env (some name) s) j e :=
        Routine.newSnapshot_iff.trans (and_iff_right hsup)
      constructor
      · rintro ⟨h1, h2, h3⟩
        simp only [hnew] at h1 h2
        rw [hblk] at h3
        exact ⟨h1, h2, h3⟩
      · rintro ⟨h1, h2, h3⟩
        simp only [← hnew] at h1 h2
        rw [← hblk] at h3
        exact ⟨h1, h2, h3⟩
    rw [hsame, savedEverywhere_saveSnapshot henv]
    constructor
    · intro h device bs hdevice hbs
      exact ⟨hsup, h device bs hdevice hbs⟩
    · intro h device bs hdevice hbs
      exact (h device bs hdevice hbs).2
  · have hno : ∀ j e, ¬ NewSnapshot s (r.run env (some name) s) j e := by
      intro j e h
      exact hsup (Routine.newSnapshot_iff.mp h).1
    constructor
    · intro h device bs hdevice hbs
      obtain ⟨-, bs', hbs', hcan⟩ := BlockLayer.snapshots_spec hdevice
      obtain ⟨e, hnew, -⟩ := h.everyDisk device bs' hbs' hcan
      exact absurd hnew (hno device e)
    · intro h
      have hnone : s.blk.snapshots.1 = none := by
        by_contra hsome
        obtain ⟨device, hdevice⟩ := Option.ne_none_iff_exists'.mp hsome
        obtain ⟨-, bs, hbs, -⟩ := BlockLayer.snapshots_spec hdevice
        exact hsup (h device bs hdevice hbs).1
      have hcan := BlockLayer.snapshots_eq_none.mp hnone
      have hblk : (r.run env (some name) s).state.blk.devices = s.blk.devices := by
        rcases r.run_blk env (some name) s with ⟨hblk, -⟩ | ⟨flag, -, -, hall⟩
        · rw [hblk]
        · exact absurd hall hsup
      refine ⟨fun j b hj hb => ?_, fun j e hnew => absurd hnew (hno j e),
        fun j b t hj ht x hx _ _ => ?_⟩
      · rw [hcan b (List.mem_of_getElem? hj)] at hb
        cases hb
      · rw [hblk]
        exact ⟨b, t, hj, ht, hx⟩

/-- The first save of a machine with one disk. -/
theorem savedEverywhere_first_save :
    SavedEverywhere (cstr "s") ⟨⟨[qcow2Disk []], none, by simp⟩, 0⟩
        (Routine.andDoSavevm.run quietEnv (some (cstr "s")) ⟨⟨[qcow2Disk []], none, by simp⟩, 0⟩) ↔
      ∀ device bs, (BlockLayer.mk [qcow2Disk []] none (by simp)).snapshots.1 = some device →
        [qcow2Disk []][device]? = some bs →
        (Routine.andDoSavevm = .doSavevm → AllSupported [qcow2Disk []]) ∧
          TakenEverywhere quietEnv (cstr "s") bs [qcow2Disk []] :=
  savedEverywhere_iff .andDoSavevm quietEnv (cstr "s") ⟨⟨[qcow2Disk []], none, by simp⟩, 0⟩
    ⟨fun _ => rfl, fun _ => rfl, rfl, le_rfl, by decide⟩

/-- The second disk has a snapshot with the id that is new on the first one: it gets none. -/
theorem second_disk_gets_none :
    let disk := qcow2Disk [⟨cstr "1", cstr "a", 0, 0, 0, 0⟩]
    let s : State := ⟨⟨[qcow2Disk [], disk], none, by simp⟩, 0⟩
    (doSavevm quietEnv (some (cstr "s")) s).reports = [.createFailed 1] ∧
      (doSavevm quietEnv (some (cstr "s")) s).state.blk.devices[1]? = some disk := by
  decide

end Limbo.Snapshot
