import Limbo.Executor.ArgvFill

/-!
# When the two passes agree

The call leaves `argv` as it should be exactly when the strings that the fill pass copies are one
fewer than the count pass has counted (`Counted`) and each of them can be copied (`Readable`).
-/

namespace Limbo.Executor

open Lib

namespace VMExecutor

open Fill

variable (e : VMExecutor CString)

/-- `argc` and the array are as they should be: the call returns without a fault, every slot in
front of `argc` holds a string and the slot at `argc`, the last one, is `NULL`. -/
def ArgvFilled (thiz : VMExecutor JString) : Prop :=
  ∃ argc slots, start thiz = .ok (argc, slots) ∧ slots.length = argc + 1 ∧
    (∀ i < argc, ∃ s, slots[i]? = some (.string s)) ∧ slots[argc]? = some .null

lemma start_eq_ok {thiz : VMExecutor JString} {argc : ℕ} {slots : List Slot} :
    start thiz = .ok (argc, slots) ↔ ∃ params a, thiz.utfChars.params = .ok params ∧
      thiz.utfChars.fill (filled [] params) = .ok ((), a) ∧ a.param < a.slots.length ∧
      argc = params - 1 ∧ slots = a.slots.set a.param .null := by
  unfold start
  rw [except_bind_eq_ok]
  constructor
  · rintro ⟨params, hp, h⟩
    obtain ⟨⟨u, a⟩, hf, h⟩ := except_bind_eq_ok.mp h
    obtain ⟨a', ht, h⟩ := except_bind_eq_ok.mp h
    unfold terminate at ht
    split_ifs at ht with hlt
    cases ht
    cases h
    exact ⟨params, a, hp, hf, hlt, rfl, rfl⟩
  · rintro ⟨params, a, hp, hf, hlt, rfl, rfl⟩
    refine ⟨params, hp, except_bind_eq_ok.mpr ⟨((), a), hf, except_bind_eq_ok.mpr ?_⟩⟩
    exact ⟨_, if_pos hlt, rfl⟩

lemma isArm_of_params {e : VMExecutor CString} {params : ℕ} (h : e.params = .ok params) :
    ∃ arm, e.isArm = .ok arm := by
  obtain ⟨arm, ha, -⟩ := except_bind_eq_ok.mp h
  exact ⟨arm, ha⟩

/-- The array after the fill pass, with `NULL` behind the last argument. -/
lemma terminated_iff (ss : List CString) (k : ℕ) (hk : 0 < k) :
    ((∀ i < ss.length + k - 1, ∃ s, ((filled ss k).slots.set ss.length .null)[i]? =
        some (.string s)) ∧
      ((filled ss k).slots.set ss.length .null)[ss.length + k - 1]? = some .null) ↔ k = 1 := by
  have hslots : (filled ss k).slots.set ss.length .null =
      ss.map Slot.string ++ .null :: List.replicate (k - 1) .uninitialised := by
    obtain ⟨k, rfl⟩ := Nat.exists_eq_succ_of_ne_zero hk.ne'
    simp [filled, List.replicate_succ]
  rw [hslots]
  constructor
  · rintro ⟨hfront, -⟩
    by_contra hne
    obtain ⟨s, hs⟩ := hfront ss.length (by omega)
    simp at hs
  · rintro rfl
    refine ⟨fun i hi => ?_, by simp⟩
    have hi' : i < ss.length := by omega
    exact ⟨ss[i], by simp [List.getElem?_append, hi']⟩

/-- The array is as it should be when the strings are copied without a fault and their number is
one below the count. -/
theorem argvFilled_iff_args (thiz : VMExecutor JString) :
    ArgvFilled thiz ↔ ∃ arm params, thiz.utfChars.isArm = .ok arm ∧
      thiz.utfChars.params = .ok params ∧ (∀ s ∈ thiz.utfChars.args arm, Copyable s) ∧
      (thiz.utfChars.args arm).length + 1 = params := by
  constructor
  · rintro ⟨argc, slots, hstart, -, hslots⟩
    obtain ⟨params, a, hp, hf, hlt, rfl, rfl⟩ := start_eq_ok.mp hstart
    obtain ⟨arm, harm⟩ := isArm_of_params hp
    rw [fill_eq _ _ harm] at hf
    obtain ⟨ss, k, hargs, hss, rfl, ha⟩ := forM_arg_filled.mp hf
    obtain ⟨-, rfl⟩ := Prod.mk.inj ha
    rw [List.nil_append] at hlt hslots
    have hk : 0 < k := by simpa [filled] using hlt
    obtain rfl := (terminated_iff ss k hk).mp hslots
    refine ⟨arm, _, harm, hp, forall_copyable.mpr ⟨ss, hargs, hss⟩, ?_⟩
    rw [hargs, List.length_map]
  · rintro ⟨arm, params, harm, hp, hcopy, rfl⟩
    obtain ⟨ss, hargs, hss⟩ := forall_copyable.mp hcopy
    rw [hargs, List.length_map] at hp
    have hf : thiz.utfChars.fill (filled [] (ss.length + 1)) = .ok ((), filled ss 1) := by
      rw [fill_eq _ _ harm]
      exact forM_arg_filled.mpr ⟨ss, 1, hargs, hss, rfl, rfl⟩
    have hend := (terminated_iff ss 1 (by decide)).mpr rfl
    refine ⟨ss.length, (filled ss 1).slots.set ss.length .null, ?_, by simp [filled], hend⟩
    exact start_eq_ok.mpr ⟨_, _, hp, hf, by simp [filled], rfl, rfl⟩

/-! ### The condition on the configuration -/

/-- `strncmp(arch_str, "arm", 3) == 0`, for an architecture that is not null. -/
def armArch : Bool := e.arch.any fun arch => strncmpEq arch (cstr "arm") 3

lemma isArm_eq_ok {b : Bool} : e.isArm = .ok b ↔ e.arch ≠ none ∧ e.armArch = b := by
  unfold isArm armArch
  cases e.arch with
  | none => simp [deref, bind, Except.bind]
  | some arch => simp [deref, bind, Except.bind, pure, Except.pure]

/-- A CPU that is counted and not copied: it starts with `Default` and goes on. -/
def CpuMiscounted : Prop := e.cpu ≠ none ∧ e.cpu ≠ some (cstr "Default") ∧ ¬ e.cpuGiven

instance : Decidable e.CpuMiscounted := inferInstanceAs (Decidable (_ ∧ _ ∧ _))

/-- A network card that is counted with two slots and takes one: the mode takes no card. -/
def NicMiscounted : Prop := e.nicDriver ≠ none ∧ e.netCfg ≠ none ∧
  e.netCfg ≠ some (cstr "user") ∧ e.netCfg ≠ some (cstr "tap")

instance : Decidable e.NicMiscounted := inferInstanceAs (Decidable (_ ∧ _ ∧ _ ∧ _))

/-- `sound_card_str != NULL && strcmp(sound_card_str, "None") != 0`. -/
def soundGiven : Prop := e.soundCard ≠ none ∧ e.soundCard ≠ some (cstr "None")

instance : Decidable e.soundGiven := inferInstanceAs (Decidable (_ ∧ _))

/-- The two passes agree on the number of arguments. On ARM the sound card is copied in addition
to what is counted, so a miscounted CPU and a sound card make up for each other. -/
def Counted : Prop :=
  if e.armArch then (e.CpuMiscounted ↔ e.soundGiven)
  else ¬ e.CpuMiscounted ∧ ¬ e.NicMiscounted ∧ e.soundCard ≠ some (cstr "None")

/-- No string that the fill pass reads is null or longer than a slot. -/
structure Readable : Prop where
  libqemu : Copyable e.libqemu
  baseDir : Copyable e.baseDir
  machineType : Copyable e.machineType
  kernel : e.armArch → given e.kernel → Copyable e.kernel
  initrd : e.armArch → given e.initrd → Copyable e.initrd
  append : e.armArch → given e.append → Copyable e.append
  cpu : e.cpuGiven → Copyable e.cpu
  hda : e.hdaImgPath ≠ none → Copyable e.hdaImgPath
  hdb : e.hdbImgPath ≠ none → Copyable e.hdbImgPath
  cd : e.cdIsoPath ≠ none → Copyable e.cdIsoPath
  fda : e.fdaImgPath ≠ none → Copyable e.fdaImgPath
  fdb : e.fdbImgPath ≠ none → Copyable e.fdbImgPath
  vga : ¬ e.armArch → e.vgaType ≠ none → Copyable e.vgaType
  boot : e.bootdevice ≠ none → Copyable e.bootdevice
  nic : ¬ e.armArch → ∀ nic, e.nicDriver = some nic → e.netCfg ≠ none ∧
    (e.netCfg = some (cstr "user") → Copyable (some (cstr "nic,model=" ++ nic))) ∧
    (e.netCfg = some (cstr "tap") → Copyable (some (cstr "nic,vlan=0,model=" ++ nic)))
  sound : e.soundGiven → Copyable e.soundCard
  snapshot : given e.snapshotName → Copyable e.snapshotName

/-! ### Counting -/

lemma length_ite (c : Prop) [Decidable c] (l : List (Option CString)) :
    (if c then l else []).length = add c l.length := by
  unfold add
  split_ifs <;> rfl

lemma length_driveArgs (flag : String) (path : Option CString) (empty : String) :
    (driveArgs flag path empty).length = 2 := by
  unfold driveArgs
  split_ifs <;> rfl

lemma length_displayArgs : e.displayArgs.length = 2 := by
  unfold displayArgs
  split_ifs <;> rfl

lemma add_of_pos {c : Prop} [Decidable c] (h : c) (n : ℕ) : add c n = n := if_pos h

lemma add_of_neg {c : Prop} [Decidable c] (h : ¬ c) (n : ℕ) : add c n = 0 := if_neg h

lemma add_inj {c d : Prop} [Decidable c] [Decidable d] {n : ℕ} (hn : 0 < n) :
    add c n = add d n ↔ (c ↔ d) := by
  by_cases hc : c
  · by_cases hd : d
    · simp [add, hc, hd]
    · simp [add, hc, hd, hn.ne']
  · by_cases hd : d
    · simp [add, hc, hd, hn.ne]
    · simp [add, hc, hd]

lemma add_eq_zero {c : Prop} [Decidable c] {n : ℕ} (hn : 0 < n) : add c n = 0 ↔ ¬ c := by
  unfold add
  split_ifs with hc
  · simp [hc, hn.ne']
  · simp [hc]

lemma cpuGiven.counted {e : VMExecutor CString} (h : e.cpuGiven) :
    e.cpu ≠ none ∧ e.cpu ≠ some (cstr "Default") := by
  obtain ⟨cpu, hcpu, hne⟩ := h
  refine ⟨by simp [hcpu], ?_⟩
  intro hd
  obtain rfl := Option.some.inj (hcpu.symm.trans hd)
  exact absurd hne (by decide)

lemma count_cpu : add (e.cpu ≠ none ∧ e.cpu ≠ some (cstr "Default")) 2 =
    add e.cpuGiven 2 + add e.CpuMiscounted 2 := by
  by_cases hg : e.cpuGiven
  · rw [add_of_pos hg, add_of_pos (cpuGiven.counted hg), add_of_neg]
    intro hm
    exact hm.2.2 hg
  · rw [add_of_neg hg, Nat.zero_add]
    by_cases hc : e.cpu ≠ none ∧ e.cpu ≠ some (cstr "Default")
    · rw [add_of_pos hc, add_of_pos ⟨hc.1, hc.2, hg⟩]
    · rw [add_of_neg hc, add_of_neg]
      intro hm
      exact hc ⟨hm.1, hm.2.1⟩

/-- The sound card in the two passes: on ARM what is counted is copied twice. -/
lemma count_sound (arm : Bool) : add (e.soundCard ≠ none ∨ arm) 2 +
    (if arm then add e.soundGiven 2 else 0) =
      (e.soundArgs arm).length + (if arm then 0 else add (e.soundCard = some (cstr "None")) 2) := by
  unfold soundArgs
  rw [List.length_append, length_ite, length_ite]
  cases arm with
  | true =>
    have hs : add e.soundGiven 2 =
      add (e.soundCard ≠ none ∧ e.soundCard ≠ some (cstr "None")) 2 := rfl
    simp [add_of_pos, hs, Nat.add_comm]
  | false =>
    cases hc : e.soundCard with
    | none => simp [add]
    | some card =>
      by_cases hn : card = cstr "None"
      · simp [add, hn]
      · simp [add, hn]

/-- The network card in the two passes: one slot less in a mode that takes none. -/
lemma count_nic (arm : Bool) : add (e.nicDriver ≠ none) 2 = (e.nicArgs arm).length +
    (if arm then 0 else add e.NicMiscounted 1) := by
  unfold nicArgs nicModel
  cases hnic : e.nicDriver with
  | none =>
    have hm : ¬ e.NicMiscounted := fun h => h.1 hnic
    simp [add, hm]
  | some nic =>
    cases arm with
    | true => simp [add]
    | false =>
      by_cases h0 : e.netCfg = none
      · have hm : ¬ e.NicMiscounted := fun h => h.2.1 h0
        simp [add, h0, hm]
      · by_cases hu : e.netCfg = some (cstr "user")
        · have hm : ¬ e.NicMiscounted := fun h => h.2.2.1 hu
          simp [add, hu, hm]
        · by_cases ht : e.netCfg = some (cstr "tap")
          · have hm : ¬ e.NicMiscounted := fun h => h.2.2.2 ht
            have htu : cstr "tap" ≠ cstr "user" := by decide
            simp [add, ht, htu, hm]
          · have hm : e.NicMiscounted := ⟨by simp [hnic], h0, hu, ht⟩
            simp [add, h0, hu, ht, hm]

lemma params_eq {arm : Bool} (h : e.isArm = .ok arm) : e.params =
    .ok (4 + add (e.cpu ≠ none ∧ e.cpu ≠ some (cstr "Default")) 2 + add (e.hdaImgPath ≠ none) 2 +
      add (e.hdbImgPath ≠ none) 2 + 2 + 2 + 2 + add (e.netCfg ≠ none) 2 +
      add (e.nicDriver ≠ none) 2 + add (e.bootdevice ≠ none) 2 +
      add (e.vgaType ≠ none ∧ ¬ arm) 2 + add (e.soundCard ≠ none ∨ arm) 2 +
      add (e.disableacpi ≠ 0) 1 + add (e.disablehpet ≠ 0) 1 + add (e.usbmouse ≠ 0) 3 +
      add (given e.snapshotName) 2 + add (e.enableqmp ≠ 0) 1 + 2 + 2 + 2 + 2 +
      add arm (add (given e.kernel) 2 + add (given e.initrd) 2 + add (given e.append) 2)) := by
  unfold params
  rw [h]
  rfl

/-- What is counted and not copied, and what is copied and not counted. -/
lemma length_args {arm : Bool} {params : ℕ} (h : e.isArm = .ok arm) (hp : e.params = .ok params) :
    (e.args arm).length + 1 + add e.CpuMiscounted 2 +
      (if arm then 0 else add e.NicMiscounted 1) +
      (if arm then 0 else add (e.soundCard = some (cstr "None")) 2) =
    params + (if arm then add e.soundGiven 2 else 0) := by
  rw [params_eq e h, Except.ok.injEq] at hp
  have hcpu := count_cpu e
  have hsound := count_sound e arm
  have hnic := count_nic e arm
  have hkernel : (e.kernelArgs arm).length =
      add arm (add (given e.kernel) 2 + add (given e.initrd) 2 + add (given e.append) 2) := by
    unfold kernelArgs
    rw [length_ite, List.length_append, List.length_append, length_ite, length_ite, length_ite,
      ← Nat.add_assoc]
    rfl
  have hdrives : e.drivesArgs.length = add (e.hdaImgPath ≠ none) 2 + add (e.hdbImgPath ≠ none) 2 + 6 := by
    unfold drivesArgs
    simp only [List.length_append, length_ite, length_driveArgs, List.length_cons, List.length_nil,
      Nat.reduceAdd]
    omega
  have hnet : e.netArgs.length = add (e.netCfg ≠ none) 2 := length_ite _ _
  unfold args
  simp only [List.length_append, List.length_cons, List.length_nil, length_ite, hkernel, hdrives,
    hnet, length_displayArgs, Nat.reduceAdd]
  linarith

/-! ### Reading the strings -/

lemma forall_mem_ite (c : Prop) [Decidable c] (l : List (Option CString)) (P : Option CString → Prop) :
    (∀ s ∈ (if c then l else []), P s) ↔ (c → ∀ s ∈ l, P s) := by
  by_cases h : c
  · simp [h]
  · simp [h]

lemma copyable_cstr (s : String) (h : s.length < maxStringLen) : Copyable (some (cstr s)) := by
  rw [copyable_some, cstr, List.length_map, String.length_toList]
  exact h

lemma copyable_decimal (n : Int32) : Copyable (some (decimal n)) := by
  have := length_decimal n
  simp only [copyable_some, maxStringLen]
  omega

lemma forall_driveArgs (flag : String) (path : Option CString) (empty : String)
    (hf : flag.length < maxStringLen) (he : empty.length < maxStringLen) :
    (∀ s ∈ driveArgs flag path empty, Copyable s) ↔ (path ≠ none → Copyable path) := by
  unfold driveArgs
  have hd : "-drive".length < maxStringLen := by decide
  by_cases h : path ≠ none
  · simp [h, copyable_cstr flag hf, -copyable_some]
  · simp [h, copyable_cstr _ hd, copyable_cstr _ he, -copyable_some]

lemma copyable_netMode  : Copyable e.netMode := by
  unfold netMode
  split_ifs with hu ht
  · rw [hu]; exact copyable_cstr _ (by decide)
  · exact copyable_cstr _ (by decide)
  · exact copyable_cstr _ (by decide)

lemma copyable_displayArgs : ∀ s ∈ e.displayArgs, Copyable s := by
  unfold displayArgs
  have h1 : Copyable (some (cstr "-vnc")) := copyable_cstr _ (by decide)
  have h2 : Copyable (some (cstr ":1,password")) := copyable_cstr _ (by decide)
  have h3 : Copyable (some (cstr "localhost:1")) := copyable_cstr _ (by decide)
  have h4 : Copyable (some (cstr "-k")) := copyable_cstr _ (by decide)
  have h5 : Copyable (some (cstr "en-us")) := copyable_cstr _ (by decide)
  split_ifs <;> simp [h1, h2, h3, h4, h5, -copyable_some]

lemma forall_nicArgs (arm : Bool) : (∀ s ∈ e.nicArgs arm, Copyable s) ↔
    (arm = false → ∀ nic, e.nicDriver = some nic → e.netCfg ≠ none ∧
      (e.netCfg = some (cstr "user") → Copyable (some (cstr "nic,model=" ++ nic))) ∧
      (e.netCfg = some (cstr "tap") → Copyable (some (cstr "nic,vlan=0,model=" ++ nic)))) := by
  have h1 : Copyable (some (cstr "-net")) := copyable_cstr _ (by decide)
  have h2 : Copyable (some (cstr "nic")) := copyable_cstr _ (by decide)
  have htu : cstr "tap" ≠ cstr "user" := by decide
  unfold nicArgs nicModel
  cases hnic : e.nicDriver with
  | none => simp
  | some nic =>
    cases arm with
    | true => simp [h1, h2, -copyable_some]
    | false =>
      by_cases h0 : e.netCfg = none
      · simp [h0]
      · by_cases hu : e.netCfg = some (cstr "user")
        · simp [hu, h1, htu.symm, -copyable_some]
        · by_cases ht : e.netCfg = some (cstr "tap")
          · simp [ht, h1, htu, -copyable_some]
          · simp [h0, hu, ht, h1, -copyable_some]

lemma forall_args : (∀ s ∈ e.args e.armArch, Copyable s) ↔ e.Readable := by
  have hlit (s : String) (h : s.length < maxStringLen) : Copyable (some (cstr s)) ↔ True :=
    iff_true_intro (copyable_cstr s h)
  have hdec (n : Int32) := iff_true_intro (copyable_decimal n)
  have hsmp : Copyable (some e.smp) := copyable_some.mpr (length_smp_le e (by decide))
  unfold args kernelArgs drivesArgs netArgs soundArgs
  simp (disch := decide) only [List.forall_mem_append, List.forall_mem_cons, forall_mem_ite,
    forall_driveArgs, forall_nicArgs, iff_true_intro (copyable_netMode e),
    iff_true_intro (copyable_displayArgs e), iff_true_intro hsmp, hdec, hlit, List.not_mem_nil,
    false_imp_iff, implies_true, and_true, true_and]
  constructor
  · rintro ⟨⟨⟨⟨⟨⟨⟨⟨⟨⟨hlib, hkernel⟩, hcpu⟩, hbase⟩, hda, hdb, hcd, hfda, hfdb⟩, hvga⟩, hboot⟩, hnic⟩,
      hsound⟩, hsnapshot⟩, hmachine⟩
    exact {
      libqemu := hlib
      baseDir := hbase
      machineType := hmachine
      kernel := fun harm => (hkernel harm).1
      initrd := fun harm => (hkernel harm).2.1
      append := fun harm => (hkernel harm).2.2
      cpu := hcpu
      hda := hda
      hdb := hdb
      cd := hcd
      fda := hfda
      fdb := hfdb
      vga := fun harm hv => hvga ⟨hv, harm⟩
      boot := hboot
      nic := fun harm => hnic (Bool.not_eq_true _ ▸ harm)
      sound := hsound
      snapshot := hsnapshot }
  · intro h
    exact ⟨⟨⟨⟨⟨⟨⟨⟨⟨⟨h.libqemu, fun ha => ⟨h.kernel ha, h.initrd ha, h.append ha⟩⟩, h.cpu⟩,
      h.baseDir⟩, h.hda, h.hdb, h.cd, h.fda, h.fdb⟩, fun hv => h.vga hv.2 hv.1⟩, h.boot⟩,
      fun ha => h.nic (by simp [ha])⟩, h.sound⟩, h.snapshot⟩, h.machineType⟩

/-- The number of arguments is one below the count exactly when
no condition of the count pass differs from that of the fill pass. -/
lemma length_args_iff {params : ℕ} (h : e.isArm = .ok e.armArch) (hp : e.params = .ok params) :
    (e.args e.armArch).length + 1 = params ↔ e.Counted := by
  have hlen := length_args e h hp
  unfold Counted
  cases harm : e.armArch with
  | true =>
    rw [harm, if_pos rfl, if_pos rfl, if_pos rfl] at hlen
    have hinj := add_inj (c := e.CpuMiscounted) (d := e.soundGiven) (n := 2) (by decide)
    rw [if_pos rfl, ← hinj]
    constructor
    · intro hl
      linarith
    · intro hc
      linarith
  | false =>
    rw [harm, if_neg (by decide), if_neg (by decide), if_neg (by decide)] at hlen
    rw [if_neg (by decide), ← add_eq_zero (n := 2) (by decide), ← add_eq_zero (n := 1) (by decide),
      Ne, ← add_eq_zero (n := 2) (by decide)]
    constructor
    · intro hl
      refine ⟨?_, ?_, ?_⟩ <;> linarith
    · rintro ⟨h1, h2, h3⟩
      linarith

/-- The call leaves `argv` as it should be exactly when the architecture is not null, no string
that is copied is null or too long, and the two passes agree. -/
theorem argvFilled_iff (thiz : VMExecutor JString) : ArgvFilled thiz ↔
    thiz.utfChars.arch ≠ none ∧ thiz.utfChars.Readable ∧ thiz.utfChars.Counted := by
  rw [argvFilled_iff_args]
  constructor
  · rintro ⟨arm, params, harm, hp, hcopy, hlen⟩
    obtain ⟨harch, rfl⟩ := (isArm_eq_ok _).mp harm
    have hread := (forall_args _).mp hcopy
    exact ⟨harch, hread, (length_args_iff _ harm hp).mp hlen⟩
  · rintro ⟨harch, hread, hcount⟩
    have harm := (isArm_eq_ok thiz.utfChars).mpr ⟨harch, rfl⟩
    have hp := params_eq _ harm
    exact ⟨_, _, harm, hp, (forall_args _).mpr hread, (length_args_iff _ harm hp).mpr hcount⟩

/-- An ARM machine with a sound card. -/
def armWithSound : Machine where
  cpu := some (jstr "arm926 (arm)")
  machineType := some (jstr "versatilepb (arm926)")
  kernel := some (jstr "/sdcard/limbo/zImage")
  soundcard := some (jstr "sb16")

/-- Its sound card and the sound cards of every ARM machine are counted once and copied both, so
that the last argument is written behind the array. -/
theorem armWithSound_overruns :
    ∃ e, ofMachine armWithSound (jstr "/data/data/limbo") (jstr "/sdcard/limbo/") = some e ∧
      start e = .error .outOfBounds ∧ ¬ ArgvFilled e := by
  have hstart (e : VMExecutor JString) (h : start e = .error .outOfBounds) :
      start e = .error .outOfBounds ∧ ¬ ArgvFilled e := by
    refine ⟨h, ?_⟩
    rintro ⟨argc, slots, hok, -⟩
    rw [h] at hok
    cases hok
  exact ⟨_, rfl, hstart _ (by decide)⟩

end VMExecutor

end Limbo.Executor
