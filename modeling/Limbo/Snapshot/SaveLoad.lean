import Limbo.Snapshot.SavingState

/-!
# Loading what has been saved

A save that reports no error has taken the entry that the name denotes out of every table and has
appended the new snapshot to it. Whether `load_vmstate` accepts the result depends on the entries
that are left in front of the new one, and on what the new one is called.
-/

namespace Limbo.Snapshot

open Lib BlockDriverState

/-! ### A successful deletion -/

/-- The device after the deletion of the entry that `name` denotes. -/
def afterDelete (name : CString) (bs : BlockDriverState) : BlockDriverState :=
  if bs.canSnapshot ∧ (bdrvSnapshotFind bs name).isSome then (bdrvSnapshotDelete none bs name).2
  else bs

lemma bdrvSnapshotDelete_eq {io : Io} {bs : BlockDriverState} {name : CString}
    (h : (bdrvSnapshotDelete io bs name).1 = none) :
    bdrvSnapshotDelete io bs name = bdrvSnapshotDelete none bs name := by
  unfold bdrvSnapshotDelete at h ⊢
  cases ht : bs.table with
  | error e => simp [ht] at h
  | ok t =>
    rw [ht] at h
    unfold qcow2SnapshotDelete at h ⊢
    cases hf : findSnapshotByIdOrName t name with
    | none => simp [hf] at h
    | some k =>
      cases io with
      | none => rfl
      | some t' => simp [hf] at h

lemma delExistingSnapshots_devices {deleteIo : ℕ → Io} {name : CString} {i : ℕ}
    {devices : List BlockDriverState}
    (h : (delExistingSnapshots deleteIo name i devices).1 = none) :
    (delExistingSnapshots deleteIo name i devices).2 = devices.map (afterDelete name) := by
  induction devices generalizing i with
  | nil => rfl
  | cons bs rest ih =>
    rw [delExistingSnapshots] at h ⊢
    rw [List.map_cons, afterDelete]
    by_cases hdel : bs.canSnapshot ∧ (bdrvSnapshotFind bs name).isSome
    · rw [if_pos hdel] at h ⊢
      rw [if_pos hdel]
      rcases hb : bdrvSnapshotDelete (deleteIo i) bs name with ⟨_ | e, bs'⟩
      · rw [hb] at h
        have hok : (bdrvSnapshotDelete (deleteIo i) bs name).1 = none := by rw [hb]
        rw [← bdrvSnapshotDelete_eq hok, hb]
        dsimp only at h ⊢
        rw [ih h]
      · rw [hb] at h
        simp at h
    · rw [if_neg hdel] at h ⊢
      rw [if_neg hdel]
      dsimp only at h ⊢
      rw [ih h]

lemma afterDelete_canSnapshot (name : CString) (bs : BlockDriverState) :
    (afterDelete name bs).canSnapshot = bs.canSnapshot := by
  unfold afterDelete
  split_ifs
  · exact canSnapshot_bdrvSnapshotDelete none bs name
  · rfl

/-! ### A successful creation -/

/-- An entry made of `sn`: the same name, and its id, or a number where it has none. -/
def Stored (sn e : QEMUSnapshotInfo) : Prop :=
  e.name = sn.name ∧ (sn.idStr ≠ [] → e.idStr = sn.idStr) ∧
    (sn.idStr = [] → ∃ n, e.idStr = decimal n)

lemma decimal_ne_nil (n : Int32) : decimal n ≠ [] := by
  unfold decimal
  simp [Nat.toDigits_ne_nil]

/-- The id stays in `sn`, so that the next device stores the same entry. -/
lemma Stored.trans {sn sn' e : QEMUSnapshotInfo} (h : Stored sn sn') (h' : Stored sn' e) :
    Stored sn e := by
  obtain ⟨hname, hid, hnew⟩ := h
  obtain ⟨hname', hid', -⟩ := h'
  refine ⟨hname'.trans hname, ?_, ?_⟩
  · intro hne
    rw [← hid hne]
    exact hid' (hid hne ▸ hne)
  · intro hnil
    obtain ⟨n, hn⟩ := hnew hnil
    exact ⟨n, by rw [hid' (hn ▸ decimal_ne_nil n), hn]⟩

/-- What a successful creation makes of a device. -/
def Created (sn : QEMUSnapshotInfo) (size : ℕ) (bs bs' : BlockDriverState) : Prop :=
  (bs.canSnapshot = false ∧ bs' = bs) ∨
    (bs.canSnapshot = true ∧ ∃ t e, bs.table = .ok t ∧ bs' = bs.setTable (t ++ [e]) ∧
      Stored sn e ∧ e.vmStateSize = size)

lemma bdrvSnapshotCreate_eq_none {io : Io} {bs bs' : BlockDriverState}
    {sn sn' : QEMUSnapshotInfo} (h : bdrvSnapshotCreate io bs sn = (none, bs', sn')) :
    ∃ t, bs.table = .ok t ∧ bs' = bs.setTable (t ++ [sn']) ∧ Stored sn sn' ∧
      sn'.vmStateSize = sn.vmStateSize := by
  unfold bdrvSnapshotCreate at h
  cases ht : bs.table with
  | error e => simp [ht] at h
  | ok t =>
    simp only [ht, qcow2SnapshotCreate] at h
    refine ⟨t, rfl, ?_⟩
    by_cases hid : sn.idStr = []
    · rw [if_pos hid] at h
      cases io with
      | some t' =>
        split_ifs at h
        · simp at h
        · simp at h
      | none =>
        split_ifs at h
        · simp at h
        · simp only [Prod.mk.injEq, true_and] at h
          obtain ⟨rfl, rfl⟩ := h
          exact ⟨rfl, ⟨rfl, fun hne => absurd hid hne, fun _ => ⟨_, rfl⟩⟩, rfl⟩
    · rw [if_neg hid] at h
      cases io with
      | some t' =>
        split_ifs at h
        · simp at h
        · simp at h
      | none =>
        split_ifs at h
        · simp at h
        · simp only [Prod.mk.injEq, true_and] at h
          obtain ⟨rfl, rfl⟩ := h
          exact ⟨rfl, ⟨rfl, fun _ => rfl, fun hnil => absurd hnil hid⟩, rfl⟩

/-- Creations that all succeed: every device that can snapshot has one more entry, with the VM
state on the device `vmState`. -/
lemma createSnapshots_created {createIo : ℕ → Io} {vmState size : ℕ} {sn : QEMUSnapshotInfo}
    {i : ℕ} {devices : List BlockDriverState}
    (h : (createSnapshots createIo vmState size sn i devices).2 = []) {j : ℕ}
    {bs : BlockDriverState} (hj : devices[j]? = some bs) :
    ∃ bs', (createSnapshots createIo vmState size sn i devices).1[j]? = some bs' ∧
      Created sn (if i + j = vmState then size else 0) bs bs' := by
  induction devices generalizing sn i j with
  | nil => simp at hj
  | cons b rest ih =>
    rw [createSnapshots] at h ⊢
    by_cases hcan : b.canSnapshot
    · rw [if_pos hcan] at h ⊢
      rcases hc : bdrvSnapshotCreate (createIo i) b
        { sn with vmStateSize := if i = vmState then size else 0 } with ⟨_ | e, b', sn'⟩
      · rw [hc] at h
        dsimp only at h ⊢
        obtain ⟨t, ht, hb', hsn, hsize⟩ := bdrvSnapshotCreate_eq_none hc
        cases j with
        | zero =>
          obtain rfl := Option.some.inj hj
          exact ⟨b', rfl, .inr ⟨hcan, t, sn', ht, hb', hsn, hsize⟩⟩
        | succ j =>
          obtain ⟨bs', hbs', hcr⟩ := ih h hj
          refine ⟨bs', hbs', ?_⟩
          rw [Nat.add_right_comm, Nat.add_assoc] at hcr
          rcases hcr with hno | ⟨hyes, t', e, ht', hbs, hse, hsz⟩
          · exact .inl hno
          · exact .inr ⟨hyes, t', e, ht', hbs, Stored.trans hsn hse, hsz⟩
      · rw [hc] at h
        simp at h
    · rw [if_neg hcan] at h ⊢
      dsimp only at h ⊢
      cases j with
      | zero =>
        obtain rfl := Option.some.inj hj
        exact ⟨b, rfl, .inl ⟨Bool.not_eq_true _ ▸ hcan, rfl⟩⟩
      | succ j =>
        obtain ⟨bs', hbs', hcr⟩ := ih h hj
        rw [Nat.add_right_comm, Nat.add_assoc] at hcr
        exact ⟨bs', hbs', hcr⟩

lemma length_createSnapshots (createIo : ℕ → Io) (vmState size : ℕ) (sn : QEMUSnapshotInfo)
    (i : ℕ) (devices : List BlockDriverState) :
    (createSnapshots createIo vmState size sn i devices).1.length = devices.length := by
  have h := congrArg List.length
    (canSnapshot_createSnapshots createIo vmState size sn i devices)
  simpa using h

/-! ### What the lists show -/

/-- The first entry that `name` denotes once the deletion has been made. -/
def remaining (name : CString) (bs : BlockDriverState) : Option QEMUSnapshotInfo :=
  bdrvSnapshotFind (afterDelete name bs) name

/-- The new entry is denoted by `name`, where `old` is the snapshot whose name and id it takes. -/
def NewDenotes (old : Option QEMUSnapshotInfo) (name : CString) : Prop :=
  match old with
  | some old => old.name = name ∨ (old.idStr = name ∧ name ≠ [])
  | none => name.length < 256

lemma pstrcpy_pstrcpy (size : ℕ) (s : CString) : pstrcpy size (pstrcpy size s) = pstrcpy size s := by
  unfold pstrcpy
  rw [List.take_take, Nat.min_self]

lemma pstrcpy_decimal (n : Int32) : pstrcpy 128 (decimal n) = decimal n := by
  have h := length_decimal n
  exact pstrcpy_of_length_lt (by omega)

/-- An entry found on a device is shown with a name and an id that fit their fields. -/
lemma bdrvSnapshotFind_listed {bs : BlockDriverState} {name : CString} {old : QEMUSnapshotInfo}
    (h : bdrvSnapshotFind bs name = some old) :
    old.Denotes name ∧ pstrcpy 256 old.name = old.name ∧ pstrcpy 128 old.idStr = old.idStr := by
  unfold bdrvSnapshotFind bdrvSnapshotList at h
  cases ht : bs.table with
  | error e => simp [ht, Except.map] at h
  | ok t =>
    simp only [ht, Except.map] at h
    have hden := List.find?_some h
    obtain ⟨sn, -, rfl⟩ := List.mem_map.mp (List.mem_of_find?_eq_some h)
    exact ⟨of_decide_eq_true hden, pstrcpy_pstrcpy _ _, pstrcpy_pstrcpy _ _⟩

lemma denotes_stored {env : Env} {bs : BlockDriverState} {name : CString} {e : QEMUSnapshotInfo}
    (h : Stored (snInfo env (some bs) (some name)) e) :
    e.listed.Denotes name ↔ NewDenotes (bdrvSnapshotFind bs name) name := by
  obtain ⟨hname, hid, hnew⟩ := h
  have hdec (n : Int32) (hn : e.idStr = decimal n) : e.listed.idStr ≠ [] ∧
      e.listed.idStr.length ≤ 11 := by
    show pstrcpy 128 e.idStr ≠ [] ∧ (pstrcpy 128 e.idStr).length ≤ 11
    rw [hn, pstrcpy_decimal]
    exact ⟨decimal_ne_nil n, length_decimal n⟩
  unfold snInfo at hname hid hnew
  simp only [Option.bind_some] at hname hid hnew
  unfold NewDenotes QEMUSnapshotInfo.Denotes
  cases hold : bdrvSnapshotFind bs name with
  | some old =>
    obtain ⟨hden, hn, hi⟩ := bdrvSnapshotFind_listed hold
    rw [hold] at hname hid hnew
    dsimp only at hname hid hnew ⊢
    rw [hi] at hid hnew
    have hlname : e.listed.name = old.name := by
      show pstrcpy 256 e.name = old.name
      rw [hname, pstrcpy_pstrcpy, hn]
    rw [hlname]
    by_cases hnil : old.idStr = []
    · obtain ⟨n, hdn⟩ := hnew hnil
      obtain ⟨hne, -⟩ := hdec n hdn
      rcases hden with hid' | hname'
      · have hname0 : name = [] := hid' ▸ hnil
        rw [hname0]
        constructor
        · rintro (hd | hd)
          · exact absurd hd hne
          · exact .inl hd
        · rintro (hd | ⟨-, hd⟩)
          · exact .inr hd
          · exact absurd rfl hd
      · exact iff_of_true (.inr hname') (.inl hname')
    · have hlid : e.listed.idStr = old.idStr := by
        show pstrcpy 128 e.idStr = old.idStr
        rw [hid hnil, hi]
      rw [hlid]
      constructor
      · rintro (hd | hd)
        · exact .inr ⟨hd, hd ▸ hnil⟩
        · exact .inl hd
      · rintro (hd | ⟨hd, -⟩)
        · exact .inr hd
        · exact .inl hd
  | none =>
    rw [hold] at hname hid hnew
    dsimp only at hname hid hnew ⊢
    obtain ⟨n, hdn⟩ := hnew rfl
    obtain ⟨-, hlen⟩ := hdec n hdn
    have hlname : e.listed.name = pstrcpy 256 name := by
      show pstrcpy 256 e.name = _
      rw [hname, pstrcpy_pstrcpy]
    rw [hlname]
    constructor
    · rintro (hd | hd)
      · rw [← hd]
        omega
      · rw [← hd]
        exact length_pstrcpy_lt (by decide) name
    · intro hlt
      exact .inr (pstrcpy_of_length_lt hlt)

/-- The entry found on a device that holds one more entry. -/
lemma bdrvSnapshotFind_append {bs : BlockDriverState} {t : List QEMUSnapshotInfo}
    (ht : bs.table = .ok t) (e : QEMUSnapshotInfo) (name : CString) :
    bdrvSnapshotFind (bs.setTable (t ++ [e])) name =
      (bdrvSnapshotFind bs name).or (if e.listed.Denotes name then some e.listed else none) := by
  unfold bdrvSnapshotFind bdrvSnapshotList
  rw [table_setTable _ ht, ht]
  simp only [Except.map, List.map_append, List.map_cons, List.map_nil, List.find?_append]
  congr 1
  by_cases h : e.listed.Denotes name <;> simp [h]

lemma canSnapshot_inserted {bs : BlockDriverState} (h : bs.canSnapshot = true) :
    bs.isInserted = true ∧ bs.isReadOnly = false := by
  cases bs with
  | protocol drv readOnly =>
    cases drv with
    | none => simp [canSnapshot] at h
    | some drv =>
      simp only [canSnapshot, Bool.and_eq_true, Bool.not_eq_true'] at h
      exact h.1
  | format drv readOnly file =>
    cases drv with
    | none => simp [canSnapshot] at h
    | some drv =>
      simp only [canSnapshot, Bool.and_eq_true, Bool.not_eq_true'] at h
      exact h.1

/-- The loop of `load_vmstate` passes when the devices are supported and hold the snapshot. -/
lemma checkDevices_eq_ok {name : CString} {i : ℕ} {devices : List BlockDriverState} :
    checkDevices name i devices = .ok () ↔ AllSupported devices ∧
      ∀ bs ∈ devices, bs.canSnapshot → (bdrvSnapshotFind bs name).isSome := by
  unfold AllSupported
  induction devices generalizing i with
  | nil => simp [checkDevices]
  | cons bs rest ih =>
    rw [checkDevices, List.forall_mem_cons, List.forall_mem_cons]
    by_cases hskip : ¬ bs.isInserted ∨ bs.isReadOnly
    · rw [if_pos hskip, ih]
      have hno : ¬ bs.canSnapshot := by
        intro hcan
        obtain ⟨hi, hw⟩ := canSnapshot_inserted hcan
        rcases hskip with h | h
        · exact h hi
        · rw [hw] at h
          exact Bool.noConfusion h
      constructor
      · rintro ⟨h1, h2⟩
        refine ⟨⟨fun hi hw => ?_, h1⟩, fun hc => absurd hc hno, h2⟩
        rcases hskip with h | h
        · exact absurd hi h
        · exact absurd h hw
      · rintro ⟨⟨-, h1⟩, -, h2⟩
        exact ⟨h1, h2⟩
    · rw [if_neg hskip]
      push Not at hskip
      by_cases hcan : bs.canSnapshot
      · rw [if_neg (not_not.mpr hcan)]
        cases hf : bdrvSnapshotFind bs name with
        | none => simp [hcan]
        | some sn =>
          rw [if_neg (by simp), ih]
          simp [hcan]
      · rw [if_pos hcan]
        simp [hcan, hskip]

/-! ### A save without errors, and the load after it -/

/-- The device that `bdrv_snapshots` selects for the VM state. -/
def BlockLayer.vmStateDevice (blk : BlockLayer) : Option BlockDriverState :=
  blk.snapshots.1.bind fun i => blk.devices[i]?

lemma BlockLayer.snapshots_spec {blk : BlockLayer} {device : ℕ}
    (h : blk.snapshots.1 = some device) : blk.snapshots.2.bsSnapshots = some device ∧
      ∃ bs, blk.devices[device]? = some bs ∧ bs.canSnapshot = true := by
  have hb : blk.snapshots.2.bsSnapshots = some device := by
    unfold BlockLayer.snapshots at h ⊢
    cases hc : blk.bsSnapshots with
    | some i =>
      rw [hc] at h
      exact hc.trans h
    | none =>
      rw [hc] at h
      dsimp only at h ⊢
      split at h
      next => simp at h
      next => exact h
  refine ⟨hb, ?_⟩
  rw [← BlockLayer.snapshots_devices]
  exact blk.snapshots.2.valid device hb

lemma BlockLayer.snapshots_cached {blk : BlockLayer} {device : ℕ}
    (h : blk.bsSnapshots = some device) : blk.snapshots = (some device, blk) := by
  unfold BlockLayer.snapshots
  rw [h]

/-- What a save that comes to the creation of the snapshots has done. -/
lemma saveSnapshot_of_created {env : Env} {name : CString} {s : State}
    (h : (saveSnapshot env (some name) s).created = true) :
    ∃ device bs, s.blk.snapshots.1 = some device ∧ s.blk.devices[device]? = some bs ∧
      bs.canSnapshot = true ∧
      (saveSnapshot env (some name) s).state.blk.bsSnapshots = some device ∧
      (saveSnapshot env (some name) s).state.blk.devices =
        (createSnapshots env.createIo device env.vmStateSize (snInfo env (some bs) (some name)) 0
          (s.blk.devices.map (afterDelete name))).1 ∧
      (saveSnapshot env (some name) s).reports =
        (createSnapshots env.createIo device env.vmStateSize (snInfo env (some bs) (some name)) 0
          (s.blk.devices.map (afterDelete name))).2.map .createFailed := by
  have hpath := saveSnapshot_path env (some name) s
  generalize saveSnapshot env (some name) s = o at h hpath ⊢
  cases hpath with
  | noDevice | deleteFailed | notOpened | notWritten => cases h
  | @created device blk blk' hs hd =>
    have hfst : s.blk.snapshots.1 = some device := by rw [hs]
    obtain ⟨hcached, bs, hbs, hcan⟩ := BlockLayer.snapshots_spec hfst
    have hdev := s.blk.snapshots_devices
    rw [hs] at hcached hdev
    dsimp only at hcached hdev
    have hsn : snInfo env blk.devices[device]? (some name) = snInfo env (some bs) (some name) := by
      rw [hdev, hbs]
    unfold deleteOld at hd
    obtain ⟨hnone, rfl⟩ := Prod.mk.inj hd
    have hdeleted : (delExistingSnapshots env.deleteIo name 0 blk.devices).2 =
        s.blk.devices.map (afterDelete name) := by
      rw [delExistingSnapshots_devices hnone, hdev]
    rw [hsn]
    refine ⟨device, bs, hfst, hbs, hcan, hcached, ?_, ?_⟩
    · rw [← hdeleted]
      rfl
    · rw [← hdeleted]
      rfl

/-- What a save that reports no error has done. -/
lemma saveSnapshot_complete {env : Env} {name : CString} {s : State}
    (h : (saveSnapshot env (some name) s).reports = []) :
    ∃ device bs, s.blk.snapshots.1 = some device ∧ s.blk.devices[device]? = some bs ∧
      bs.canSnapshot = true ∧
      (saveSnapshot env (some name) s).state.blk.bsSnapshots = some device ∧
      (saveSnapshot env (some name) s).state.blk.devices.length = s.blk.devices.length ∧
      ∀ j b, s.blk.devices[j]? = some b →
        ∃ b', (saveSnapshot env (some name) s).state.blk.devices[j]? = some b' ∧
          Created (snInfo env (some bs) (some name)) (if j = device then env.vmStateSize else 0)
            (afterDelete name b) b' := by
  have hcreated : (saveSnapshot env (some name) s).created = true := by
    have hpath := saveSnapshot_path env (some name) s
    generalize saveSnapshot env (some name) s = o at h hpath ⊢
    cases hpath with
    | noDevice | deleteFailed | notOpened | notWritten => cases h
    | created => rfl
  obtain ⟨device, bs, hdevice, hbs, hcan, hcached, hdevices, hreports⟩ :=
    saveSnapshot_of_created hcreated
  have hfailed := List.map_eq_nil_iff.mp (hreports.symm.trans h)
  rw [hdevices]
  refine ⟨device, bs, hdevice, hbs, hcan, hcached, ?_, ?_⟩
  · rw [length_createSnapshots, List.length_map]
  · intro j b hj
    have hj' : (s.blk.devices.map (afterDelete name))[j]? = some (afterDelete name b) := by
      rw [List.getElem?_map, hj, Option.map_some]
    obtain ⟨b', hb', hcr⟩ := createSnapshots_created hfailed hj'
    rw [Nat.zero_add] at hcr
    exact ⟨b', hb', hcr⟩

/-- The snapshot that a save without errors makes can be loaded by `name`: on every device the
name denotes an entry that is left or the new one, and on the device of the VM state the first
such entry has a VM state. -/
def Loadable (env : Env) (name : CString) (blk : BlockLayer) : Prop :=
  ∃ bs, blk.vmStateDevice = some bs ∧
    (∀ b ∈ blk.devices, b.canSnapshot →
      (remaining name b).isSome ∨ NewDenotes (bdrvSnapshotFind bs name) name) ∧
    (∀ sn, remaining name bs = some sn → sn.vmStateSize ≠ 0) ∧
    (remaining name bs = none →
      NewDenotes (bdrvSnapshotFind bs name) name ∧ env.vmStateSize ≠ 0)

/-- The two save routines. -/
inductive Routine where
  | doSavevm | andDoSavevm
deriving DecidableEq, Repr

def Routine.run : Routine → Env → Option CString → State → Outcome
  | doSavevm => Snapshot.doSavevm
  | andDoSavevm => Snapshot.andDoSavevm

/-- Either routine ends with an unsupported device, or does the part they share; `do_savevm` has
then checked the devices. -/
lemma Routine.run_blk (r : Routine) (env : Env) (name : Option CString) (s : State) :
    ((r.run env name s).state.blk = s.blk ∧
        ∃ device, (r.run env name s).reports = [.notSupported device]) ∨
      ∃ flag, (r.run env name s).reports =
          (saveSnapshot env name { s with savingState := flag }).reports ∧
        (r.run env name s).state.blk =
          (saveSnapshot env name { s with savingState := flag }).state.blk ∧
        (r = .doSavevm → AllSupported s.blk.devices) := by
  cases r with
  | andDoSavevm => exact .inr ⟨s.savingState, rfl, rfl, fun hr => Routine.noConfusion hr⟩
  | doSavevm =>
    simp only [Routine.run, Snapshot.doSavevm]
    rw [← findUnsupported_eq_none (i := 0)]
    cases hf : findUnsupported 0 s.blk.devices with
    | some device => exact .inl ⟨rfl, device, rfl⟩
    | none =>
      refine .inr ⟨1, ?_⟩
      dsimp only
      split_ifs
      · exact ⟨rfl, rfl, fun _ => rfl⟩
      · exact ⟨rfl, rfl, fun _ => rfl⟩

/-! ### From the devices before to the devices after -/

lemma forall_mem_iff_of_pointwise {α : Type} {l l' : List α} {R : α → α → Prop}
    (hlen : l'.length = l.length)
    (h : ∀ (j : ℕ) b, l[j]? = some b → ∃ b', l'[j]? = some b' ∧ R b b') {P Q : α → Prop}
    (hPQ : ∀ b b', R b b' → (Q b' ↔ P b)) : (∀ b' ∈ l', Q b') ↔ ∀ b ∈ l, P b := by
  constructor
  · intro hQ b hb
    obtain ⟨j, hj⟩ := List.mem_iff_getElem?.mp hb
    obtain ⟨b', hb', hR⟩ := h j b hj
    exact (hPQ b b' hR).mp (hQ b' (List.mem_of_getElem? hb'))
  · intro hP b' hb'
    obtain ⟨j, hj⟩ := List.mem_iff_getElem?.mp hb'
    have hlt : j < l.length := by
      obtain ⟨hlt, -⟩ := List.getElem?_eq_some_iff.mp hj
      omega
    obtain ⟨b'', hb'', hR⟩ := h j l[j] (List.getElem?_eq_getElem hlt)
    obtain rfl := Option.some.inj (hj.symm.trans hb'')
    exact (hPQ _ _ hR).mpr (hP _ (List.getElem_mem hlt))

lemma afterDelete_flags (name : CString) (bs : BlockDriverState) :
    (afterDelete name bs).isInserted = bs.isInserted ∧
      (afterDelete name bs).isReadOnly = bs.isReadOnly := by
  unfold afterDelete bdrvSnapshotDelete
  split_ifs
  · cases bs.table with
    | error e => exact ⟨rfl, rfl⟩
    | ok t => simp
  · exact ⟨rfl, rfl⟩

/-- A save changes the tables only. -/
lemma Created.flags {sn : QEMUSnapshotInfo} {size : ℕ} {name : CString}
    {bs bs' : BlockDriverState} (h : Created sn size (afterDelete name bs) bs') :
    bs'.isInserted = bs.isInserted ∧ bs'.isReadOnly = bs.isReadOnly ∧
      bs'.canSnapshot = bs.canSnapshot := by
  obtain ⟨hi, hw⟩ := afterDelete_flags name bs
  have hc := afterDelete_canSnapshot name bs
  rcases h with ⟨-, rfl⟩ | ⟨-, t, e, -, rfl, -⟩
  · exact ⟨hi, hw, hc⟩
  · simp [hi, hw, hc]

/-- The entry found on a device after a save. -/
lemma Created.find {env : Env} {bs : BlockDriverState} {name : CString} {size : ℕ}
    {b b' : BlockDriverState}
    (h : Created (snInfo env (some bs) (some name)) size (afterDelete name b) b')
    (hcan : b.canSnapshot = true) :
    ∃ e : QEMUSnapshotInfo, e.vmStateSize = size ∧ bdrvSnapshotFind b' name =
      (remaining name b).or (if e.listed.Denotes name then some e.listed else none) ∧
      (e.listed.Denotes name ↔ NewDenotes (bdrvSnapshotFind bs name) name) := by
  rcases h with ⟨hno, -⟩ | ⟨-, t, e, ht, rfl, hst, hsize⟩
  · rw [afterDelete_canSnapshot, hcan] at hno
    exact Bool.noConfusion hno
  · exact ⟨e, hsize, bdrvSnapshotFind_append ht e name, denotes_stored hst⟩

lemma Created.find_isSome {env : Env} {bs : BlockDriverState} {name : CString} {size : ℕ}
    {b b' : BlockDriverState}
    (h : Created (snInfo env (some bs) (some name)) size (afterDelete name b) b')
    (hcan : b.canSnapshot = true) : (bdrvSnapshotFind b' name).isSome = true ↔
      (remaining name b).isSome = true ∨ NewDenotes (bdrvSnapshotFind bs name) name := by
  obtain ⟨e, -, hfind, hden⟩ := h.find hcan
  rw [hfind, ← hden]
  cases remaining name b with
  | some g => simp
  | none => by_cases hd : e.listed.Denotes name <;> simp [hd]

/-- What `load_vmstate` checks after a save without errors. -/
theorem loadPrechecks_after_save (r : Routine) (env : Env) (name : CString) (s : State)
    (h : (r.run env (some name) s).reports = []) :
    loadPrechecks name (r.run env (some name) s).state.blk = .ok () ↔
      (r = .andDoSavevm → AllSupported s.blk.devices) ∧ Loadable env name s.blk := by
  obtain ⟨-, device, hrep⟩ | ⟨flag, hrep, hblk, hsup⟩ := r.run_blk env (some name) s
  · rw [hrep] at h
    cases h
  rw [hrep] at h
  obtain ⟨device, bs, hdevice, hbs, hcan, hcached, hlen, hsaved⟩ := saveSnapshot_complete h
  rw [← hblk] at hcached hlen hsaved
  dsimp only at hdevice hbs hlen hsaved
  generalize (r.run env (some name) s).state.blk = blk at hcached hlen hsaved
  have hvm : s.blk.vmStateDevice = some bs := by
    rw [BlockLayer.vmStateDevice, hdevice, Option.bind_some, hbs]
  have hpoint : ∀ (j : ℕ) b, s.blk.devices[j]? = some b → ∃ b', blk.devices[j]? = some b' ∧
      ∃ size, Created (snInfo env (some bs) (some name)) size (afterDelete name b) b' := by
    intro j b hj
    obtain ⟨b', hb', hcr⟩ := hsaved j b hj
    exact ⟨b', hb', _, hcr⟩
  have hsupported : AllSupported blk.devices ↔ AllSupported s.blk.devices := by
    refine forall_mem_iff_of_pointwise hlen hpoint ?_
    rintro b b' ⟨size, hcr⟩
    obtain ⟨h1, h2, h3⟩ := hcr.flags
    rw [h1, h2, h3]
  have hfound : (∀ b' ∈ blk.devices, b'.canSnapshot → (bdrvSnapshotFind b' name).isSome) ↔
      ∀ b ∈ s.blk.devices, b.canSnapshot →
        (remaining name b).isSome ∨ NewDenotes (bdrvSnapshotFind bs name) name := by
    refine forall_mem_iff_of_pointwise hlen hpoint ?_
    rintro b b' ⟨size, hcr⟩
    rw [hcr.flags.2.2]
    exact forall_congr' fun hc => hcr.find_isSome hc
  have hsup' : (r = .andDoSavevm → AllSupported s.blk.devices) ↔ AllSupported s.blk.devices := by
    cases r with
    | doSavevm => exact iff_of_true (fun hr => Routine.noConfusion hr) (hsup rfl)
    | andDoSavevm => simp
  obtain ⟨bs', hbs', hcr⟩ := hsaved device bs hbs
  obtain ⟨e, hsize, hfind, hden⟩ := hcr.find hcan
  rw [if_pos rfl] at hsize
  have hload : Loadable env name s.blk ↔
      (∀ b ∈ s.blk.devices, b.canSnapshot →
        (remaining name b).isSome ∨ NewDenotes (bdrvSnapshotFind bs name) name) ∧
      ∃ sn, bdrvSnapshotFind bs' name = some sn ∧ sn.vmStateSize ≠ 0 := by
    unfold Loadable
    rw [hvm, hfind]
    have hlisted : e.listed.vmStateSize = env.vmStateSize := hsize
    cases hrem : remaining name bs with
    | some g => simp [hrem]
    | none =>
      by_cases hd : e.listed.Denotes name
      · simp [hrem, hd, ← hden, hlisted]
      · simp [hrem, hd, ← hden]
  rw [hload, hsup', loadPrechecks, BlockLayer.snapshots_cached hcached]
  dsimp only
  rw [hbs', Option.bind_some]
  cases hf : bdrvSnapshotFind bs' name with
  | none => simp
  | some sn =>
    dsimp only
    by_cases hz : sn.vmStateSize = 0
    · simp [hz]
    · rw [if_neg hz, checkDevices_eq_ok, hsupported, hfound]
      simp [hz]

/-- Calls that all succeed. -/
def quietEnv : Env where
  deleteIo := fun _ => none
  createIo := fun _ => none
  opens := true
  savevmState := 0
  vmStateSize := 4096
  dateSec := 0
  dateNsec := 0
  vmClockNsec := 0
  autoName := cstr "vm-20150101000000"

/-- A qcow2 disk with a snapshot table. -/
def qcow2Disk (t : List QEMUSnapshotInfo) : BlockDriverState :=
  .format (some ⟨none, some t⟩) false (.protocol (some ⟨none, none⟩) false)

/-- A writable disk in the raw format. -/
def rawDisk : BlockDriverState :=
  .format (some ⟨none, none⟩) false (.protocol (some ⟨none, none⟩) false)

/-- A first save of a machine with one qcow2 disk can be loaded. -/
theorem loadPrechecks_after_first_save :
    loadPrechecks (cstr "s") (Routine.doSavevm.run quietEnv (some (cstr "s"))
      ⟨⟨[qcow2Disk []], none, by simp⟩, 0⟩).state.blk = .ok () := by
  refine (loadPrechecks_after_save .doSavevm quietEnv (cstr "s")
    ⟨⟨[qcow2Disk []], none, by simp⟩, 0⟩ (by decide)).mpr ⟨fun h => Routine.noConfusion h, ?_⟩
  have hnew : NewDenotes (bdrvSnapshotFind (qcow2Disk []) (cstr "s")) (cstr "s") := by
    show (cstr "s").length < 256
    decide
  have hrem : remaining (cstr "s") (qcow2Disk []) = none := by decide
  refine ⟨qcow2Disk [], rfl, ?_, ?_, fun _ => ⟨hnew, by decide⟩⟩
  · intro b hb _
    obtain rfl := List.mem_singleton.mp hb
    exact .inr hnew
  · intro sn hsn
    rw [hrem] at hsn
    cases hsn

/-- `and_do_savevm` saves a machine with a raw disk and reports nothing; the snapshot cannot be
loaded. -/
theorem andDoSavevm_raw_disk :
    (andDoSavevm quietEnv (some (cstr "s")) ⟨⟨[qcow2Disk [], rawDisk], none, by simp⟩, 0⟩).reports =
      [] ∧
    loadPrechecks (cstr "s") (andDoSavevm quietEnv (some (cstr "s"))
      ⟨⟨[qcow2Disk [], rawDisk], none, by simp⟩, 0⟩).state.blk = .error (.notSupported 1) := by
  decide

end Limbo.Snapshot
