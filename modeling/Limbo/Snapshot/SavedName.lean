import Limbo.Snapshot.SaveLoad

/-!
# The name a snapshot gets

Whether the entry that a save adds on the device of the VM state is called what the save was asked
to call it, and whether a load by that name finds it. An entry found by its id keeps its own name,
and a long name is cut.
-/

namespace Limbo.Snapshot

open Lib BlockDriverState

/-! ### The creation on one device -/

/-- The fields of `sn` with the id it has after a creation on a table. -/
def withId (t : List QEMUSnapshotInfo) (sn : QEMUSnapshotInfo) : QEMUSnapshotInfo :=
  if sn.idStr = [] then { sn with idStr := findNewSnapshotId t } else sn

/-- The id of the new entries: the one in `sn`, or a new one for the first device that can
snapshot, which the other devices take over. -/
def newId (sn : QEMUSnapshotInfo) (devices : List BlockDriverState) : CString :=
  if sn.idStr = [] then
    match devices.find? canSnapshot with
    | some bs =>
      match bs.table with
      | .ok t => findNewSnapshotId t
      | .error _ => []
    | none => []
  else sn.idStr

lemma withId_idStr_ne_nil (t : List QEMUSnapshotInfo) (sn : QEMUSnapshotInfo) :
    (withId t sn).idStr ≠ [] := by
  unfold withId
  by_cases h : sn.idStr = []
  · rw [if_pos h]
    exact decimal_ne_nil _
  · rw [if_neg h]
    exact h

lemma newId_cons {d : BlockDriverState} {t : List QEMUSnapshotInfo} (hd : d.canSnapshot = true)
    (ht : d.table = .ok t) (sn : QEMUSnapshotInfo) (rest : List BlockDriverState) :
    newId sn (d :: rest) = (withId t sn).idStr := by
  unfold newId withId
  rw [List.find?_cons_of_pos hd]
  dsimp only
  rw [ht]
  by_cases hnil : sn.idStr = []
  · rw [if_pos hnil, if_pos hnil]
  · rw [if_neg hnil, if_neg hnil]

lemma qcow2SnapshotCreate_withId (io : Io) (t : List QEMUSnapshotInfo) (sn : QEMUSnapshotInfo) :
    qcow2SnapshotCreate io t (withId t sn) = qcow2SnapshotCreate io t sn := by
  by_cases h : sn.idStr = []
  · have hid : (withId t sn).idStr ≠ [] := withId_idStr_ne_nil t sn
    have hnew : withId t sn = { sn with idStr := findNewSnapshotId t } := if_pos h
    unfold qcow2SnapshotCreate
    rw [if_neg hid, if_pos h, hnew]
  · have hsame : withId t sn = sn := if_neg h
    rw [hsame]

lemma qcow2SnapshotCreate_snInfo (io : Io) (t : List QEMUSnapshotInfo) (sn : QEMUSnapshotInfo) :
    (qcow2SnapshotCreate io t sn).2.2 = withId t sn := by
  rw [← qcow2SnapshotCreate_withId]
  have hid := withId_idStr_ne_nil t sn
  generalize withId t sn = sn' at hid ⊢
  unfold qcow2SnapshotCreate
  rw [if_neg hid]
  dsimp only
  by_cases hold : (findSnapshotById t sn'.idStr).isSome
  · rw [if_pos hold]
  · rw [if_neg hold]
    cases io <;> rfl

lemma bdrvSnapshotCreate_of_table {bs : BlockDriverState} {t : List QEMUSnapshotInfo}
    (ht : bs.table = .ok t) (io : Io) (sn : QEMUSnapshotInfo) :
    bdrvSnapshotCreate io bs sn = bdrvSnapshotCreate io bs (withId t sn) ∧
      (bdrvSnapshotCreate io bs sn).2.2 = withId t sn := by
  unfold bdrvSnapshotCreate
  rw [ht]
  dsimp only
  rw [qcow2SnapshotCreate_withId]
  exact ⟨rfl, qcow2SnapshotCreate_snInfo io t sn⟩

/-- A creation succeeds when its calls do and no entry has the id. -/
lemma bdrvSnapshotCreate_ok_iff {io : Io} {bs : BlockDriverState} {t : List QEMUSnapshotInfo}
    {sn : QEMUSnapshotInfo} (ht : bs.table = .ok t) (hid : sn.idStr ≠ []) :
    (bdrvSnapshotCreate io bs sn).1 = none ↔ io = none ∧ ∀ e ∈ t, e.idStr ≠ sn.idStr := by
  have hfind : (findSnapshotById t sn.idStr).isSome ↔ ∃ e ∈ t, e.idStr = sn.idStr := by
    simp [findSnapshotById, List.findIdx?_isSome, List.any_eq_true]
  unfold bdrvSnapshotCreate qcow2SnapshotCreate
  rw [ht]
  dsimp only
  rw [if_neg hid]
  by_cases hold : ∃ e ∈ t, e.idStr = sn.idStr
  · rw [if_pos (hfind.mpr hold)]
    refine iff_of_false (by simp) ?_
    rintro ⟨-, hnew⟩
    obtain ⟨e, he, hide⟩ := hold
    exact hnew e he hide
  · rw [if_neg (mt hfind.mp hold)]
    push Not at hold
    cases io with
    | none => exact iff_of_true rfl ⟨rfl, hold⟩
    | some t' => simp

lemma bdrvSnapshotCreate_device {io : Io} {bs : BlockDriverState} {t : List QEMUSnapshotInfo}
    {sn : QEMUSnapshotInfo} (ht : bs.table = .ok t) (hid : sn.idStr ≠ [])
    (h : (bdrvSnapshotCreate io bs sn).1 = none) :
    (bdrvSnapshotCreate io bs sn).2.1 = bs.setTable (t ++ [sn]) := by
  obtain ⟨rfl, hnew⟩ := (bdrvSnapshotCreate_ok_iff ht hid).mp h
  have hfind : findSnapshotById t sn.idStr = none := by
    rw [findSnapshotById, List.findIdx?_eq_none_iff]
    exact fun e he => decide_eq_false (hnew e he)
  simp [bdrvSnapshotCreate, qcow2SnapshotCreate, ht, hid, hfind]

/-! ### The creation on all devices -/

lemma le_of_mem_failed {createIo : ℕ → Io} {vmState size : ℕ} {sn : QEMUSnapshotInfo} {i k : ℕ}
    {devices : List BlockDriverState}
    (h : k ∈ (createSnapshots createIo vmState size sn i devices).2) : i ≤ k := by
  induction devices generalizing sn i with
  | nil => cases h
  | cons b rest ih =>
    rw [createSnapshots] at h
    by_cases hcan : b.canSnapshot
    · rw [if_pos hcan] at h
      rcases hc : bdrvSnapshotCreate (createIo i) b
        { sn with vmStateSize := if i = vmState then size else 0 } with ⟨_ | e, b', sn'⟩
      · rw [hc] at h
        exact Nat.le_of_succ_le (ih h)
      · rw [hc] at h
        rcases List.mem_cons.mp h with rfl | h
        · exact le_rfl
        · exact Nat.le_of_succ_le (ih h)
    · rw [if_neg hcan] at h
      exact Nat.le_of_succ_le (ih h)

/-- What the loop does on a device that can snapshot: a creation with the common id. -/
lemma createSnapshots_getElem? {createIo : ℕ → Io} {vmState size : ℕ} {sn : QEMUSnapshotInfo}
    {i j : ℕ} {devices : List BlockDriverState} {b : BlockDriverState}
    (hj : devices[j]? = some b) (hcan : b.canSnapshot = true) :
    (createSnapshots createIo vmState size sn i devices).1[j]? =
        some (bdrvSnapshotCreate (createIo (i + j)) b { sn with
          idStr := newId sn devices
          vmStateSize := if i + j = vmState then size else 0 }).2.1 ∧
      (i + j ∈ (createSnapshots createIo vmState size sn i devices).2 ↔
        (bdrvSnapshotCreate (createIo (i + j)) b { sn with
          idStr := newId sn devices
          vmStateSize := if i + j = vmState then size else 0 }).1.isSome) := by
  induction devices generalizing sn i j with
  | nil => cases hj
  | cons d rest ih =>
    rw [createSnapshots]
    by_cases hd : d.canSnapshot
    · obtain ⟨t, ht⟩ := table_of_canSnapshot hd
      rw [if_pos hd]
      have hid : withId t { sn with vmStateSize := if i = vmState then size else 0 } =
          { sn with
            idStr := newId sn (d :: rest)
            vmStateSize := if i = vmState then size else 0 } := by
        rw [newId_cons hd ht]
        unfold withId
        by_cases hnil : sn.idStr = [] <;> simp [hnil]
      have hne := withId_idStr_ne_nil t
        { sn with vmStateSize := if i = vmState then size else 0 }
      obtain ⟨heq, hsn⟩ := bdrvSnapshotCreate_of_table ht (createIo i)
        { sn with vmStateSize := if i = vmState then size else 0 }
      rw [hid] at heq hsn hne
      rcases hc : bdrvSnapshotCreate (createIo i) d
        { sn with vmStateSize := if i = vmState then size else 0 } with ⟨ret, d', sn'⟩
      rw [hc] at heq hsn
      obtain rfl : sn' = _ := hsn
      dsimp only
      cases j with
      | zero =>
        obtain rfl := Option.some.inj hj
        simp only [Nat.add_zero]
        rw [← heq]
        refine ⟨rfl, ?_⟩
        have hlater : i ∉ (createSnapshots createIo vmState size
            { sn with
              idStr := newId sn (d :: rest)
              vmStateSize := if i = vmState then size else 0 } (i + 1) rest).2 :=
          fun hmem => absurd (le_of_mem_failed hmem) (Nat.not_succ_le_self i)
        cases ret with
        | none => exact iff_of_false hlater (by simp)
        | some e => exact iff_of_true List.mem_cons_self rfl
      | succ j =>
        have hnext := @ih { sn with
          idStr := newId sn (d :: rest)
          vmStateSize := if i = vmState then size else 0 } (i + 1) j hj
        have hkeep : newId { sn with
            idStr := newId sn (d :: rest)
            vmStateSize := if i = vmState then size else 0 } rest = newId sn (d :: rest) :=
          if_neg hne
        rw [hkeep, Nat.add_right_comm, Nat.add_assoc] at hnext
        refine ⟨hnext.1, Iff.trans ?_ hnext.2⟩
        cases ret with
        | none => rfl
        | some e =>
          show i + (j + 1) ∈ i :: _ ↔ _
          rw [List.mem_cons]
          exact or_iff_right (by omega)
    · have hskip : newId sn (d :: rest) = newId sn rest := by
        unfold newId
        rw [List.find?_cons_of_neg hd]
      rw [if_neg hd, hskip]
      cases j with
      | zero =>
        obtain rfl := Option.some.inj hj
        exact absurd hcan hd
      | succ j =>
        have hnext := @ih sn (i + 1) j hj
        rw [Nat.add_right_comm, Nat.add_assoc] at hnext
        exact hnext

/-! ### The entry on the device of the VM state -/

/-- The entry that the device `bs` of the VM state gets. -/
def newEntry (env : Env) (name : CString) (bs : BlockDriverState)
    (devices : List BlockDriverState) : QEMUSnapshotInfo :=
  { snInfo env (some bs) (some name) with
    idStr := newId (snInfo env (some bs) (some name)) (devices.map (afterDelete name))
    vmStateSize := env.vmStateSize }

/-- The save has added an entry called `name` on the device of the VM state, and a load by that
name finds it there: no older entry is in front of it. -/
def SavedAs (name : CString) (s : State) (o : Outcome) : Prop :=
  ∃ device bs t e, s.blk.snapshots.1 = some device ∧ o.created = true ∧
    .createFailed device ∉ o.reports ∧ o.state.blk.devices[device]? = some bs ∧
    bs.table = .ok (t ++ [e]) ∧ e.name = name ∧ bdrvSnapshotFind bs name = some e.listed ∧
    ∀ x ∈ t, ¬ x.listed.Denotes name

/-- What the save needs on the device of the VM state: an entry found by `name` is called so, it
is the only one found, and the creation succeeds. -/
structure TakesName (env : Env) (name : CString) (device : ℕ) (bs : BlockDriverState)
    (devices : List BlockDriverState) : Prop where
  fits : name.length < 256
  oldName : ∀ old, bdrvSnapshotFind bs name = some old → old.name = name
  alone : remaining name bs = none
  createIo : env.createIo device = none
  newId : ∀ t, (afterDelete name bs).table = .ok t →
    ∀ x ∈ t, x.idStr ≠ (newEntry env name bs devices).idStr

/-- The condition for a save to make a snapshot of the name it is given. -/
structure SavesName (env : Env) (name : CString) (blk : BlockLayer) : Prop where
  supported : AllSupported blk.devices
  reaches : ReachesCreate env (some name) blk.devices
  takes : ∃ device bs, blk.snapshots.1 = some device ∧ blk.devices[device]? = some bs ∧
    TakesName env name device bs blk.devices

lemma remaining_eq_none {name : CString} {bs : BlockDriverState} {t : List QEMUSnapshotInfo}
    (ht : (afterDelete name bs).table = .ok t) :
    remaining name bs = none ↔ ∀ x ∈ t, ¬ x.listed.Denotes name := by
  unfold remaining bdrvSnapshotFind bdrvSnapshotList
  rw [ht]
  simp [Except.map]

lemma newEntry_name_eq_iff {env : Env} {name : CString} {bs : BlockDriverState}
    {devices : List BlockDriverState} : (newEntry env name bs devices).name = name ↔
      name.length < 256 ∧ ∀ old, bdrvSnapshotFind bs name = some old → old.name = name := by
  have hname : (newEntry env name bs devices).name =
      (snInfo env (some bs) (some name)).name := rfl
  have hcut : ∀ s : CString, pstrcpy 256 s = name → name.length < 256 := by
    rintro s rfl
    exact length_pstrcpy_lt (by decide) s
  rw [hname]
  unfold snInfo
  simp only [Option.bind_some]
  cases hold : bdrvSnapshotFind bs name with
  | none =>
    constructor
    · intro h
      exact ⟨hcut name h, fun old hsome => by cases hsome⟩
    · rintro ⟨hlen, -⟩
      exact pstrcpy_of_length_lt hlen
  | some old =>
    obtain ⟨-, hlisted, -⟩ := bdrvSnapshotFind_listed hold
    constructor
    · intro h
      refine ⟨hcut old.name h, fun old' hold' => ?_⟩
      obtain rfl := Option.some.inj hold'
      exact hlisted.symm.trans h
    · rintro ⟨-, hsame⟩
      exact hlisted.trans (hsame old rfl)

lemma newId_ne_nil {sn : QEMUSnapshotInfo} {devices : List BlockDriverState}
    (h : ∃ b ∈ devices, b.canSnapshot) : newId sn devices ≠ [] := by
  unfold newId
  by_cases hnil : sn.idStr = []
  · rw [if_pos hnil]
    have hsome : (devices.find? canSnapshot).isSome := by
      rw [List.find?_isSome]
      exact h
    obtain ⟨d, hd⟩ := Option.isSome_iff_exists.mp hsome
    obtain ⟨t, ht⟩ := table_of_canSnapshot (List.find?_some hd)
    rw [hd]
    dsimp only
    rw [ht]
    exact decimal_ne_nil _
  · rw [if_neg hnil]
    exact hnil

lemma newEntry_idStr_ne_nil {env : Env} {name : CString} {bs : BlockDriverState} {device : ℕ}
    {devices : List BlockDriverState} (hbs : devices[device]? = some bs)
    (hcan : bs.canSnapshot = true) : (newEntry env name bs devices).idStr ≠ [] := by
  apply newId_ne_nil
  refine ⟨afterDelete name bs, List.mem_map_of_mem (List.mem_of_getElem? hbs), ?_⟩
  rw [afterDelete_canSnapshot, hcan]

/-- A save that comes to the creation makes a snapshot of its name exactly when the device of the
VM state takes it. -/
lemma savedAs_saveSnapshot {env : Env} {name : CString} {s : State}
    (h : (saveSnapshot env (some name) s).created = true) :
    SavedAs name s (saveSnapshot env (some name) s) ↔
      ∃ device bs, s.blk.snapshots.1 = some device ∧ s.blk.devices[device]? = some bs ∧
        TakesName env name device bs s.blk.devices := by
  obtain ⟨device, bs, hdevice, hbs, hcan, -, hdevices, hreports⟩ := saveSnapshot_of_created h
  have hj : (s.blk.devices.map (afterDelete name))[device]? = some (afterDelete name bs) := by
    rw [List.getElem?_map, hbs, Option.map_some]
  have hcan' : (afterDelete name bs).canSnapshot = true := by rw [afterDelete_canSnapshot, hcan]
  obtain ⟨t, ht⟩ := table_of_canSnapshot hcan'
  have hid : (newEntry env name bs s.blk.devices).idStr ≠ [] := newEntry_idStr_ne_nil hbs hcan
  -- the creation on this device, in the loop over all of them
  obtain ⟨hdev, hfail⟩ : (saveSnapshot env (some name) s).state.blk.devices[device]? =
      some (bdrvSnapshotCreate (env.createIo device) (afterDelete name bs)
        (newEntry env name bs s.blk.devices)).2.1 ∧
      (.createFailed device ∈ (saveSnapshot env (some name) s).reports ↔
        (bdrvSnapshotCreate (env.createIo device) (afterDelete name bs)
          (newEntry env name bs s.blk.devices)).1.isSome) := by
    have hget := @createSnapshots_getElem? env.createIo device env.vmStateSize
      (snInfo env (some bs) (some name)) 0 device _ _ hj hcan'
    simp only [Nat.zero_add, if_true] at hget
    rw [hdevices, hreports, List.mem_map]
    refine ⟨hget.1, Iff.trans ?_ hget.2⟩
    constructor
    · rintro ⟨k, hk, hkd⟩
      cases hkd
      exact hk
    · intro hk
      exact ⟨device, hk, rfl⟩
  by_cases hok : (bdrvSnapshotCreate (env.createIo device) (afterDelete name bs)
      (newEntry env name bs s.blk.devices)).1 = none
  · rw [bdrvSnapshotCreate_device ht hid hok] at hdev
    have htable := table_setTable (t ++ [newEntry env name bs s.blk.devices]) ht
    obtain ⟨hio, hnew⟩ := (bdrvSnapshotCreate_ok_iff ht hid).mp hok
    constructor
    · rintro ⟨device', bs', t', e, hd', -, -, hbs', ht', hname, -, hbefore⟩
      obtain rfl := Option.some.inj (hdevice.symm.trans hd')
      obtain rfl := Option.some.inj (hdev.symm.trans hbs')
      have hentries := Except.ok.inj (htable.symm.trans ht')
      obtain ⟨rfl, hlast⟩ := List.append_inj' hentries rfl
      obtain rfl := List.singleton_injective hlast
      obtain ⟨hfits, hold⟩ := newEntry_name_eq_iff.mp hname
      refine ⟨device, bs, hdevice, hbs, hfits, hold, (remaining_eq_none ht).mpr hbefore, hio, ?_⟩
      intro t' ht'
      obtain rfl := Except.ok.inj (ht.symm.trans ht')
      exact hnew
    · rintro ⟨device', bs', hd', hbs', htakes⟩
      obtain rfl := Option.some.inj (hdevice.symm.trans hd')
      obtain rfl := Option.some.inj (hbs.symm.trans hbs')
      have hname : (newEntry env name bs s.blk.devices).name = name :=
        newEntry_name_eq_iff.mpr ⟨htakes.fits, htakes.oldName⟩
      have hden : (newEntry env name bs s.blk.devices).listed.Denotes name := by
        right
        show pstrcpy 256 (newEntry env name bs s.blk.devices).name = name
        rw [hname]
        exact pstrcpy_of_length_lt htakes.fits
      refine ⟨device, _, t, newEntry env name bs s.blk.devices, hdevice, h, ?_, hdev, htable, hname,
        ?_, (remaining_eq_none ht).mp htakes.alone⟩
      · rw [hfail, hok]
        simp
      · have halone : bdrvSnapshotFind (afterDelete name bs) name = none := htakes.alone
        rw [bdrvSnapshotFind_append ht, halone, if_pos hden, Option.none_or]
  · refine iff_of_false ?_ ?_
    · rintro ⟨device', bs', t', e, hd', -, hno, -⟩
      obtain rfl := Option.some.inj (hdevice.symm.trans hd')
      exact hno (hfail.mpr (Option.isSome_iff_ne_none.mpr hok))
    · rintro ⟨device', bs', hd', hbs', htakes⟩
      obtain rfl := Option.some.inj (hdevice.symm.trans hd')
      obtain rfl := Option.some.inj (hbs.symm.trans hbs')
      exact hok ((bdrvSnapshotCreate_ok_iff ht hid).mpr ⟨htakes.createIo, htakes.newId t ht⟩)

/-- `do_savevm` makes a snapshot of the name it is given. -/
theorem savedAs_doSavevm_iff (env : Env) (name : CString) (s : State) :
    SavedAs name s (doSavevm env (some name) s) ↔ SavesName env name s.blk := by
  have hsaves : SavesName env name s.blk ↔ AllSupported s.blk.devices ∧
      ReachesCreate env (some name) s.blk.devices ∧ ∃ device bs,
        s.blk.snapshots.1 = some device ∧ s.blk.devices[device]? = some bs ∧
          TakesName env name device bs s.blk.devices :=
    ⟨fun h => ⟨h.supported, h.reaches, h.takes⟩, fun ⟨h1, h2, h3⟩ => ⟨h1, h2, h3⟩⟩
  have hcreated : (saveSnapshot env (some name) { s with savingState := 1 }).created = true ↔
      ReachesCreate env (some name) s.blk.devices := saveSnapshot_created
  rw [hsaves, ← findUnsupported_eq_none (i := 0), ← hcreated]
  unfold doSavevm
  dsimp only
  cases hf : findUnsupported 0 s.blk.devices with
  | some device =>
    refine iff_of_false ?_ (by simp)
    rintro ⟨_, _, _, _, -, hno, -⟩
    cases hno
  | none =>
    dsimp only
    by_cases hc : (saveSnapshot env (some name) { s with savingState := 1 }).created = true
    · rw [if_pos hc]
      exact (savedAs_saveSnapshot hc).trans ⟨fun h => ⟨rfl, hc, h⟩, fun h => h.2.2⟩
    · rw [if_neg hc]
      refine iff_of_false ?_ ?_
      · rintro ⟨_, _, _, _, -, hyes, -⟩
        exact hc hyes
      · rintro ⟨-, hyes, -⟩
        exact hc hyes

end Limbo.Snapshot
