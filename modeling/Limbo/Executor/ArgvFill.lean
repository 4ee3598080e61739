import Limbo.Executor.Argv

/-!
# The fill pass as a list of arguments

The fill pass copies a list of strings, one per slot (`args`). It succeeds exactly when none of
them is null or too long and there are slots enough.
-/

namespace Limbo.Executor

open Lib

/-- A string that can be copied to a slot. -/
def Copyable (s : Option CString) : Prop := ∃ t, s = some t ∧ t.length < maxStringLen

@[simp] lemma copyable_some {t : CString} : Copyable (some t) ↔ t.length < maxStringLen := by
  simp [Copyable]

@[simp] lemma not_copyable_none : ¬ Copyable none := by simp [Copyable]

lemma forall_copyable {l : List (Option CString)} : (∀ s ∈ l, Copyable s) ↔
    ∃ ss : List CString, l = ss.map some ∧ ∀ s ∈ ss, s.length < maxStringLen := by
  constructor
  · intro h
    induction l with
    | nil => exact ⟨[], rfl, by simp⟩
    | cons s l ih =>
      obtain ⟨t, rfl, ht⟩ := h s List.mem_cons_self
      obtain ⟨ss, rfl, hss⟩ := ih fun u hu => h u (List.mem_cons_of_mem _ hu)
      refine ⟨t :: ss, rfl, ?_⟩
      intro u hu
      rcases List.mem_cons.mp hu with rfl | hu
      · exact ht
      · exact hss u hu
  · rintro ⟨ss, rfl, hss⟩ s hs
    obtain ⟨t, ht, rfl⟩ := List.mem_map.mp hs
    exact ⟨t, rfl, hss t ht⟩

namespace Fill

/-! ### Copying strings to the slots -/

lemma except_bind_eq_ok {ε α β : Type} {x : Except ε α} {f : α → Except ε β} {b : β} :
    (x >>= f) = .ok b ↔ ∃ a, x = .ok a ∧ f a = .ok b := by
  cases x with
  | error e => simp [bind, Except.bind]
  | ok a => simp [bind, Except.bind]

lemma bind_eq_ok {σ ε α β : Type} {x : StateT σ (Except ε) α} {f : α → StateT σ (Except ε) β}
    {s : σ} {r : β × σ} :
    (x >>= f) s = .ok r ↔ ∃ a s', x s = .ok (a, s') ∧ f a s' = .ok r := by
  show (Except.bind (x s) fun p => f p.1 p.2) = .ok r ↔ _
  cases x s with
  | error e => simp [Except.bind]
  | ok p =>
    obtain ⟨a, s'⟩ := p
    simp [Except.bind]

lemma write_of_slot {s : CString} {a : Argv} {slot : Slot} (h : a.slots[a.param]? = some slot)
    (hnull : slot ≠ .null) :
    write s a = if s.length < maxStringLen
      then .ok ((), { a with slots := a.slots.set a.param (.string s) })
      else .error .slotOverflow := by
  unfold write
  rw [h]
  cases slot with
  | null => exact absurd rfl hnull
  | uninitialised => rfl
  | string => rfl

lemma write_outside {s : CString} {a : Argv}
    (h : a.slots[a.param]? = none ∨ a.slots[a.param]? = some .null) :
    write s a = .error .outOfBounds := by
  unfold write
  rcases h with h | h <;> rw [h]

/-- A string put together in its slot is the string copied as a whole. -/
lemma strcpy_strcat {s t : CString} (h : s.length < maxStringLen) :
    (do strcpy (some s); strcat (some t)) = strcpy (some (s ++ t)) := by
  funext a
  have hcopy (u : CString) : strcpy (some u) a = write u a := rfl
  have hbind : (do strcpy (some s); strcat (some t) : Fill Unit) a =
      (write s a).bind fun p => strcat (some t) p.2 := rfl
  rw [hbind, hcopy]
  by_cases hslot : a.slots[a.param]? = none ∨ a.slots[a.param]? = some .null
  · rw [write_outside hslot, write_outside hslot]
    rfl
  · push Not at hslot
    obtain ⟨slot, hs⟩ := Option.ne_none_iff_exists'.mp hslot.1
    obtain ⟨hlt, -⟩ := List.getElem?_eq_some_iff.mp hs
    have hnull : slot ≠ .null := fun hc => hslot.2 (hc ▸ hs)
    have hnew : (a.slots.set a.param (.string s))[a.param]? = some (.string s) := by
      rw [List.getElem?_set_self hlt]
    rw [write_of_slot hs hnull, if_pos h, write_of_slot hs hnull]
    show strcat (some t) _ = _
    simp only [strcat, deref, bind, Except.bind, hnew]
    rw [write_of_slot hnew (by simp), List.set_set]

lemma strcpy_strcat_bind {s t : CString} (h : s.length < maxStringLen) (m : Fill Unit) :
    (do strcpy (some s); strcat (some t); m) = (do strcpy (some (s ++ t)); m) := by
  rw [← strcpy_strcat h, bind_assoc]

/-- The array after some arguments: their strings, then fresh buffers. -/
def filled (done : List CString) (k : ℕ) : Argv :=
  ⟨done.map .string ++ List.replicate k .uninitialised, done.length⟩

/-- One more argument. -/
lemma arg_filled {src : Option CString} {done : List CString} {k : ℕ} {r : Unit × Argv} :
    arg src (filled done k) = .ok r ↔
      ∃ s k', src = some s ∧ s.length < maxStringLen ∧ k = k' + 1 ∧
        r = ((), filled (done ++ [s]) k') := by
  cases src with
  | none => simp [arg, strcpy, deref, bind, StateT.bind, Except.bind]
  | some s =>
    cases k with
    | zero => simp [arg, strcpy, deref, write, filled, bind, StateT.bind, Except.bind]
    | succ k =>
      by_cases h : s.length < maxStringLen
      · simp [arg, strcpy, deref, write, filled, advance, h, List.replicate_succ, bind,
          StateT.bind, Except.bind, eq_comm]
      · simp [arg, strcpy, deref, write, filled, h, List.replicate_succ, bind, StateT.bind,
          Except.bind]

/-- A list of arguments is copied exactly when each of them can be and there are slots enough. -/
theorem forM_arg_filled {l : List (Option CString)} {done : List CString} {k : ℕ}
    {r : Unit × Argv} :
    l.forM arg (filled done k) = .ok r ↔
      ∃ ss k', l = ss.map some ∧ (∀ s ∈ ss, s.length < maxStringLen) ∧ k = ss.length + k' ∧
        r = ((), filled (done ++ ss) k') := by
  induction l generalizing done k with
  | nil =>
    have hnil : ([] : List (Option CString)).forM arg = (pure () : Fill Unit) := rfl
    rw [hnil]
    constructor
    · intro h
      refine ⟨[], k, rfl, by simp, by simp, ?_⟩
      simpa using (Except.ok.inj h).symm
    · rintro ⟨ss, k', hss, -, rfl, rfl⟩
      obtain rfl := List.map_eq_nil_iff.mp hss.symm
      simp [pure, StateT.pure, Except.pure]
  | cons src l ih =>
    have hcons : (src :: l).forM arg = (arg src >>= fun _ => l.forM arg : Fill Unit) := rfl
    rw [hcons, bind_eq_ok]
    constructor
    · rintro ⟨u, a', hsrc, hl⟩
      obtain ⟨s, k', rfl, hs, rfl, hr⟩ := arg_filled.mp hsrc
      obtain ⟨rfl, rfl⟩ := Prod.mk.inj hr
      obtain ⟨ss, k'', rfl, hss, rfl, rfl⟩ := ih.mp hl
      refine ⟨s :: ss, k'', rfl, ?_, by simp; omega, by simp⟩
      intro t ht
      rcases List.mem_cons.mp ht with rfl | ht
      · exact hs
      · exact hss t ht
    · rintro ⟨ss, k', hss, hlen, rfl, rfl⟩
      obtain ⟨s, ss, rfl, rfl, rfl⟩ := List.map_eq_cons_iff.mp hss.symm
      refine ⟨(), _, arg_filled.mpr ⟨s, ss.length + k', rfl, hlen s List.mem_cons_self, ?_, rfl⟩,
        ?_⟩
      · simp; omega
      · refine ih.mpr ⟨ss, k', rfl, fun t ht => hlen t (List.mem_cons_of_mem _ ht), rfl, ?_⟩
        simp

/-! ### Pieces of the fill pass as lists of arguments -/

lemma arg_eq (s : Option CString) : arg s = [s].forM arg := by simp

lemma option_eq (flag : String) (value : Option CString) :
    option flag value = [some (cstr flag), value].forM arg := by
  simp [option]

lemma when_forM (c : Prop) [Decidable c] (l : List (Option CString)) :
    when c (l.forM arg) = (if c then l else []).forM arg := by
  unfold when
  split_ifs <;> simp

lemma ite_forM (c : Prop) [Decidable c] (l l' : List (Option CString)) :
    (if c then l.forM arg else l'.forM arg : Fill Unit) = (if c then l else l').forM arg := by
  split_ifs <;> rfl

lemma forM_bind (l l' : List (Option CString)) :
    (l.forM arg >>= fun _ => l'.forM arg : Fill Unit) = (l ++ l').forM arg := by
  simp

end Fill

namespace VMExecutor

open Fill

variable (e : VMExecutor CString) (arm : Bool)

def kernelArgs : List (Option CString) :=
  if arm then
    (if given e.kernel then [some (cstr "-kernel"), e.kernel] else []) ++
    ((if given e.initrd then [some (cstr "-initrd"), e.initrd] else []) ++
    (if given e.append then [some (cstr "-append"), e.append] else []))
  else []

def driveArgs (flag : String) (path : Option CString) (empty : String) : List (Option CString) :=
  if path ≠ none then [some (cstr flag), path] else [some (cstr "-drive"), some (cstr empty)]

def drivesArgs : List (Option CString) :=
  (if e.hdaImgPath ≠ none then [some (cstr "-hda"), e.hdaImgPath] else []) ++
  ((if e.hdbImgPath ≠ none then [some (cstr "-hdb"), e.hdbImgPath] else []) ++
  (driveArgs "-cdrom" e.cdIsoPath "index=2,media=cdrom" ++
  (driveArgs "-fda" e.fdaImgPath "index=0,if=floppy" ++
  driveArgs "-fdb" e.fdbImgPath "index=1,if=floppy")))

def netArgs : List (Option CString) :=
  if e.netCfg ≠ none then [some (cstr "-net"), e.netMode] else []

/-- The model of the network card, for the two modes that take one. -/
def nicModel (nic : CString) : List (Option CString) :=
  if e.netCfg = none then [none]
  else if e.netCfg = some (cstr "user") then [some (cstr "nic,model=" ++ nic)]
  else if e.netCfg = some (cstr "tap") then [some (cstr "nic,vlan=0,model=" ++ nic)]
  else []

def nicArgs : List (Option CString) :=
  match e.nicDriver with
  | none => []
  | some nic => some (cstr "-net") :: if arm then [some (cstr "nic")] else e.nicModel nic

def soundArgs : List (Option CString) :=
  (if e.soundCard ≠ none ∧ e.soundCard ≠ some (cstr "None")
    then [some (cstr "-soundhw"), e.soundCard] else []) ++
  (if arm then [some (cstr "-soundhw"), some (cstr "all")] else [])

def displayArgs : List (Option CString) :=
  if e.enablevnc ≠ 0 then
    if e.vncAllowExternal ≠ 0 then [some (cstr "-vnc"), some (cstr ":1,password")]
    else [some (cstr "-vnc"), some (cstr "localhost:1")]
  else [some (cstr "-k"), some (cstr "en-us")]

/-- The number of processors as one string. -/
def smp : CString := cstr "sockets=" ++ decimal e.cpuNum ++ cstr ",cores=1" ++ cstr ",threads=1"

/-- The arguments that the fill pass copies, a null pointer for one it cannot read. -/
def args : List (Option CString) :=
  e.libqemu :: e.kernelArgs arm ++ (if e.cpuGiven then [some (cstr "-cpu"), e.cpu] else []) ++
  [some (cstr "-m"), some (decimal e.memory)] ++ [some (cstr "-L"), e.baseDir] ++ e.drivesArgs ++
  (if e.vgaType ≠ none ∧ ¬ arm then [some (cstr "-vga"), e.vgaType] else []) ++
  (if e.bootdevice ≠ none then [some (cstr "-boot"), e.bootdevice] else []) ++
  e.netArgs ++ e.nicArgs arm ++ e.soundArgs arm ++
  (if given e.snapshotName then [some (cstr "-loadvm"), e.snapshotName] else []) ++
  (if e.usbmouse ≠ 0 then [some (cstr "-usb"), some (cstr "-usbdevice"), some (cstr "tablet")]
    else []) ++
  (if e.disableacpi ≠ 0 then [some (cstr "-no-acpi")] else []) ++
  (if e.disablehpet ≠ 0 then [some (cstr "-no-hpet")] else []) ++
  (if e.enableqmp ≠ 0 then [some (cstr "-qmp tcp:0:4444,server")] else []) ++
  e.displayArgs ++ [some (cstr "-smp"), some e.smp] ++ [some (cstr "-M"), e.machineType]

lemma fillKernel_eq : e.fillKernel arm = (e.kernelArgs arm).forM arg := by
  simp only [fillKernel, option_eq, when_forM, forM_bind, kernelArgs]

lemma drive_eq (flag : String) (path : Option CString) (empty : String) :
    drive flag path empty = (driveArgs flag path empty).forM arg := by
  simp only [drive, option_eq, ite_forM, driveArgs]

lemma fillDrives_eq : e.fillDrives = e.drivesArgs.forM arg := by
  simp only [fillDrives, drive_eq, option_eq, when_forM, forM_bind, drivesArgs]

lemma fillNet_eq : e.fillNet = e.netArgs.forM arg := by
  rw [fillNet, netArgs, ← when_forM]
  congr 1
  simp [arg]

lemma fillNic_eq : e.fillNic arm = (e.nicArgs arm).forM arg := by
  unfold fillNic nicArgs
  cases hnic : e.nicDriver with
  | none => simp [when]
  | some nic =>
    have hpre (s : String) (hs : (cstr s).length < maxStringLen) :
        (do strcpy (some (cstr s)); strcat (some nic); advance) =
          arg (some (cstr s ++ nic)) := strcpy_strcat_bind hs advance
    have hmodel : (do
        let net ← deref e.netCfg
        if net = cstr "user" then
          strcpy (some (cstr "nic,model="))
          strcat (some nic)
          advance
        else if net = cstr "tap" then
          strcpy (some (cstr "nic,vlan=0,model="))
          strcat (some nic)
          advance
        else pure ()) = (e.nicModel nic).forM arg := by
      rw [hpre _ (by decide), hpre _ (by decide)]
      unfold nicModel
      cases hnet : e.netCfg with
      | none => rfl
      | some net =>
        have hd : (liftM (deref (some net)) : Fill CString) = pure net := rfl
        rw [hd, pure_bind]
        simp only [Option.some.injEq, reduceCtorEq, if_false]
        split_ifs <;> simp
    have hwhen (m : Fill Unit) : when (some nic ≠ none) m = m := if_pos (by simp)
    rw [hwhen]
    cases arm with
    | true => simp [arg]
    | false =>
      simp only [Bool.false_eq_true, if_false, hmodel]
      simp

lemma fillSound_eq : e.fillSound arm = (e.soundArgs arm).forM arg := by
  simp only [fillSound, option_eq, when_forM, forM_bind, soundArgs]

lemma fillDisplay_eq : e.fillDisplay = e.displayArgs.forM arg := by
  simp only [fillDisplay, option_eq, ite_forM, displayArgs]

lemma length_smp_le {s : CString} (h : s.length ≤ 8) :
    (s ++ decimal e.cpuNum ++ cstr ",cores=1" ++ cstr ",threads=1").length < maxStringLen := by
  have hd := length_decimal e.cpuNum
  have hc : (cstr ",cores=1").length = 8 := by decide
  have ht : (cstr ",threads=1").length = 10 := by decide
  simp only [List.length_append, maxStringLen]
  omega

lemma fillSmp_eq : e.fillSmp = [some (cstr "-smp"), some e.smp].forM arg := by
  have hlen := length_smp_le e (s := cstr "sockets=") (by decide)
  rw [List.length_append, List.length_append] at hlen
  unfold fillSmp smp
  rw [strcpy_strcat_bind (by decide), strcpy_strcat_bind (by omega), strcpy_strcat_bind]
  · simp [arg]
  · rw [List.length_append]
    omega

/-- The fill pass copies `args`. -/
theorem fill_eq (h : e.isArm = .ok arm) : e.fill = (e.args arm).forM arg := by
  have hlift (f : Bool → Fill Unit) : ((liftM e.isArm : Fill Bool) >>= f) = f arm := by
    rw [h]
    rfl
  unfold fill args
  simp only [hlift, fillKernel_eq, fillDrives_eq, fillNet_eq, fillNic_eq, fillSound_eq,
    fillDisplay_eq, fillSmp_eq, option_eq, arg_eq, when_forM, forM_bind, List.append_assoc,
    List.cons_append, List.nil_append]

end VMExecutor

end Limbo.Executor
