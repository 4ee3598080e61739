import Limbo.VncServer.Keys

/-!
# Modifiers that the guest holds

Shift, Ctrl and Alt are to go up in the guest when the client has released its keys or is gone,
whatever console is selected when they do. The server keeps a table of the modifiers of the client
in all consoles, and the guest has the strokes that were made on the graphic console.
-/

namespace Limbo.VncServer

/-- The keys of the locks are no prefixes when they go up. -/
def KbdConfig.LocksPlain (cfg : KbdConfig) : Prop :=
  cfg.kbdLayout.keysym2scancode 0xff7f % 128 ≠ 0x60 ∧
    cfg.kbdLayout.keysym2scancode 0xffe5 % 128 ≠ 0x60

namespace KeyState

/-- The guest holds the key. -/
def holds (s : KeyState) (key : ℕ) : Bool := held key s.guest.strokes

/-- The guest gets a stroke, if the machine runs. -/
def stroke (s : KeyState) (stroke : Stroke) : KeyState :=
  if s.running then { s with guest := ⟨false, s.guest.strokes ++ [stroke]⟩ } else s

variable {s t : KeyState} {cfg : KbdConfig} {keycode m : ℕ} {down : Bool} {sym : UInt32}

section
variable (st : Stroke)

@[simp] lemma modifiersState_stroke : (s.stroke st).modifiersState = s.modifiersState := by
  unfold stroke; split_ifs <;> rfl

@[simp] lemma activeConsole_stroke : (s.stroke st).activeConsole = s.activeConsole := by
  unfold stroke; split_ifs <;> rfl

@[simp] lemma running_stroke : (s.stroke st).running = s.running := by
  unfold stroke; split_ifs <;> rfl

lemma grey_stroke (hgrey : s.guest.grey = false) : (s.stroke st).guest.grey = false := by
  unfold stroke; split_ifs <;> simp [hgrey]

lemma holds_stroke : (s.stroke st).holds m =
    if s.running ∧ st.key = m then st.down else s.holds m := by
  unfold stroke holds
  split_ifs <;> simp_all

end

/-! ### Scancodes -/

lemma and_grey : keycode &&& 0x80 ≠ 0 ↔ 128 ≤ keycode % 256 := by
  have hmod : keycode &&& 0x80 = (keycode % 256) &&& 0x80 := by
    have h : (keycode &&& 0x80) % 2 ^ 8 = keycode % 2 ^ 8 &&& 0x80 % 2 ^ 8 := Nat.and_mod_two_pow
    rwa [Nat.mod_eq_of_lt (Nat.and_le_right.trans_lt (by decide))] at h
  have hbyte : ∀ r < 256, r &&& 0x80 ≠ 0 ↔ 128 ≤ r := by decide +kernel
  rw [hmod]
  exact hbyte _ (Nat.mod_lt _ (by decide))

lemma and_keycodemask (keycode : ℕ) : (keycode &&& 0x7f) % 256 = keycode % 128 := by
  rw [show 0x7f = 2 ^ 7 - 1 from rfl, Nat.and_two_pow_sub_one_eq_mod]
  omega

lemma or_up (keycode : ℕ) : (keycode ||| 0x80) % 256 = keycode % 128 + 128 := by
  have h : (keycode ||| 0x80) % 2 ^ 8 = keycode % 2 ^ 8 ||| 0x80 % 2 ^ 8 := Nat.or_mod_two_pow
  have hbyte : ∀ r < 256, r ||| 0x80 = r % 128 + 128 := by decide +kernel
  exact h.trans ((hbyte _ (Nat.mod_lt _ (by decide))).trans (by omega))

/-- A scancode with its grey byte is one stroke. -/
lemma kbdPutKeycode_putGrey (hgrey : s.guest.grey = false) {code : ℕ} (hcode : code % 256 ≠ 0xe0)
    (hkey : code % 128 = keycode % 128) :
    (s.putGrey keycode).kbdPutKeycode code = s.stroke ⟨keycode % 256, code % 256 < 128⟩ := by
  have hread : ∀ g : GuestKeyboard, g.read (code % 256) =
      ⟨false, g.strokes ++ [⟨code % 256 % 128 + if g.grey then 128 else 0, code % 256 < 128⟩]⟩ :=
    fun g => if_neg hcode
  by_cases hrun : s.running
  · rw [stroke, if_pos hrun, putGrey]
    split_ifs with h
    · have hkey : code % 128 + 128 = keycode % 256 := by have := and_grey.mp h; omega
      simp only [kbdPutKeycode, if_pos hrun, hread]
      simp [GuestKeyboard.read, hkey]
    · have hkey : code % 128 = keycode % 256 := by have := mt and_grey.mpr h; omega
      simp [kbdPutKeycode, if_pos hrun, hread, hgrey, hkey]
  · simp [stroke, putGrey, kbdPutKeycode, hrun]

lemma putDown_eq (hgrey : s.guest.grey = false) :
    s.putDown keycode = s.stroke ⟨keycode % 256, true⟩ := by
  have hcode := and_keycodemask keycode
  rw [putDown, kbdPutKeycode_putGrey hgrey (by omega) (by omega), hcode,
    decide_eq_true (Nat.mod_lt _ (by decide))]

lemma putUp_eq (hgrey : s.guest.grey = false) (hplain : keycode % 128 ≠ 0x60) :
    s.putUp keycode = s.stroke ⟨keycode % 256, false⟩ := by
  have hcode := or_up keycode
  rw [putUp, kbdPutKeycode_putGrey hgrey (by omega) (by omega), hcode,
    decide_eq_false (by omega)]

/-! ### Locks -/

/-- Nothing but the locks changes, and the guest holds no other key. -/
structure Quiet (s t : KeyState) : Prop where
  grey : t.guest.grey = false
  running : t.running = s.running
  activeConsole : t.activeConsole = s.activeConsole
  modifiers : ∀ i, i ≠ 0x3a → i ≠ 0x45 → t.modifiersState i = s.modifiersState i
  holds : ∀ m, t.holds m → s.holds m

lemma Quiet.rfl (hgrey : s.guest.grey = false) : Quiet s s :=
  ⟨hgrey, .refl _, .refl _, fun _ _ _ => .refl _, fun _ h => h⟩

lemma Quiet.trans {u : KeyState} (h : Quiet s t) (h' : Quiet t u) : Quiet s u where
  grey := h'.grey
  running := h'.running.trans h.running
  activeConsole := h'.activeConsole.trans h.activeConsole
  modifiers i h3a h45 := (h'.modifiers i h3a h45).trans (h.modifiers i h3a h45)
  holds m hm := h.holds m (h'.holds m hm)

lemma quiet_setModifier (hgrey : s.guest.grey = false) (hlock : keycode = 0x3a ∨ keycode = 0x45) :
    Quiet s (s.setModifier keycode down) where
  grey := hgrey
  running := .refl _
  activeConsole := .refl _
  modifiers i h3a h45 := Function.update_of_ne (by rintro rfl; omega) _ _
  holds _ h := h

/-- A key that is pressed is released at once. -/
lemma quiet_pressKey (hgrey : s.guest.grey = false) {keysym : ℕ}
    (hplain : cfg.kbdLayout.keysym2scancode keysym % 128 ≠ 0x60) :
    Quiet s (s.pressKey cfg keysym) := by
  have hmask : (cfg.kbdLayout.keysym2scancode keysym &&& 0xff) % 128 ≠ 0x60 := by
    rw [show 0xff = 2 ^ 8 - 1 from rfl, Nat.and_two_pow_sub_one_eq_mod]
    omega
  rw [pressKey, putDown_eq hgrey, putUp_eq (grey_stroke _ hgrey) hmask]
  refine ⟨grey_stroke _ (grey_stroke _ hgrey), by simp, by simp, by simp, fun m hm => ?_⟩
  rw [holds_stroke, holds_stroke] at hm
  split_ifs at hm with hup hdown
  · exact absurd hdown (by simpa using hup)
  · exact hm


lemma quiet_syncNumLock (hgrey : s.guest.grey = false) (hlocks : cfg.LocksPlain) :
    Quiet s (s.syncNumLock cfg down keycode sym) := by
  unfold syncNumLock
  have hlock : ∀ num, Quiet s ((s.setModifier 0x45 num).pressKey cfg 0xff7f) := fun num =>
    have hset : Quiet s (s.setModifier 0x45 num) := quiet_setModifier hgrey (.inr (.refl _))
    hset.trans (quiet_pressKey hset.grey hlocks.1)
  dsimp only
  split_ifs
  · exact hlock _
  · exact .rfl hgrey
  · exact .rfl hgrey

lemma quiet_syncCapsLock (hgrey : s.guest.grey = false) (hlocks : cfg.LocksPlain) :
    Quiet s (s.syncCapsLock cfg down sym) := by
  unfold syncCapsLock
  have hlock : ∀ caps, Quiet s ((s.setModifier 0x3a caps).pressKey cfg 0xffe5) := fun caps =>
    have hset : Quiet s (s.setModifier 0x3a caps) := quiet_setModifier hgrey (.inl (.refl _))
    hset.trans (quiet_pressKey hset.grey hlocks.2)
  dsimp only
  split_ifs
  · exact hlock _
  · exact .rfl hgrey
  · exact hlock _
  · exact .rfl hgrey
  · exact .rfl hgrey

lemma quiet_sync (down : Bool) (keycode : ℕ) (sym : UInt32) (hgrey : s.guest.grey = false) (hlocks : cfg.LocksPlain) :
    Quiet s ((s.syncNumLock cfg down keycode sym).syncCapsLock cfg down sym) :=
  have hnum := quiet_syncNumLock hgrey hlocks
  hnum.trans (quiet_syncCapsLock hnum.grey hlocks)

/-! ### Modifiers -/

/-- What the table of the modifiers becomes before the key is sent. -/
def track (s : KeyState) (down : Bool) (keycode : ℕ) : KeyState :=
  if keycode ∈ modifierKeys then s.setModifier keycode down
  else if (keycode = 0x3a ∨ keycode = 0x45) ∧ down then
    s.setModifier keycode !(s.modifiersState keycode)
  else s

lemma doKeyEvent_of_not_switches (h : ¬ s.Switches down keycode) :
    s.doKeyEvent cfg down keycode sym = (s.track down keycode).sendKey cfg down keycode sym := by
  rw [doKeyEvent, if_neg h, track]
  split_ifs <;> rfl

lemma doKeyEvent_of_switches (h : s.Switches down keycode) :
    s.doKeyEvent cfg down keycode sym = s.resetKeys.consoleSelect cfg (keycode - 0x02) := by
  have hmodifier : keycode ∉ modifierKeys := by
    intro hmem
    have hlarge : ∀ m ∈ modifierKeys, 0x0a < m := by decide
    exact absurd h.1.2 (hlarge _ hmem).not_ge
  rw [doKeyEvent, if_neg hmodifier, if_pos h]

@[simp] lemma guest_track : (s.track down keycode).guest = s.guest := by
  unfold track setModifier; split_ifs <;> rfl

@[simp] lemma running_track : (s.track down keycode).running = s.running := by
  unfold track setModifier; split_ifs <;> rfl

@[simp] lemma activeConsole_track : (s.track down keycode).activeConsole = s.activeConsole := by
  unfold track setModifier; split_ifs <;> rfl

lemma modifiersState_track_of_ne {i : ℕ} (hi : i ≠ keycode) :
    (s.track down keycode).modifiersState i = s.modifiersState i := by
  unfold track setModifier
  split_ifs <;> simp [hi]

lemma modifiersState_track_of_mem (hmem : keycode ∈ modifierKeys) :
    (s.track down keycode).modifiersState keycode = down := by
  simp [track, setModifier, hmem]

/-- The entries of the table that are ever set. -/
def Known (s : KeyState) : Prop :=
  ∀ i, s.modifiersState i → i ∈ modifierKeys ∨ i = 0x3a ∨ i = 0x45

lemma Known.track (h : s.Known) : (s.track down keycode).Known := by
  intro i hi
  by_cases heq : i = keycode
  · subst heq
    unfold KeyState.track at hi
    split_ifs at hi with hmem hlock
    · exact .inl hmem
    · exact .inr hlock.1
    · exact h i hi
  · exact h i (modifiersState_track_of_ne heq ▸ hi)

lemma Known.quiet (h : s.Known) (hquiet : Quiet s t) : t.Known := by
  intro i hi
  by_cases h3a : i = 0x3a
  · exact .inr (.inl h3a)
  by_cases h45 : i = 0x45
  · exact .inr (.inr h45)
  exact h i (hquiet.modifiers i h3a h45 ▸ hi)

lemma Known.plain (h : s.Known) {i : ℕ} (hi : s.modifiersState i) : i % 128 ≠ 0x60 := by
  have hmodifiers : ∀ m ∈ modifierKeys, m % 128 ≠ 0x60 := by decide
  rcases h i hi with hmem | rfl | rfl
  · exact hmodifiers i hmem
  · decide
  · decide

lemma lt_of_mem_modifierKeys (h : m ∈ modifierKeys) : m < 256 ∧ m ≠ 0x3a ∧ m ≠ 0x45 :=
  (by decide : ∀ m ∈ modifierKeys, m < 256 ∧ m ≠ 0x3a ∧ m ≠ 0x45) m h

/-- What remains of the table and what the guest holds after a key has been sent. -/
structure Sent (s t : KeyState) (down : Bool) (keycode : ℕ) : Prop where
  grey : t.guest.grey = false
  running : t.running = s.running
  activeConsole : t.activeConsole = s.activeConsole
  modifiers : ∀ i, i ≠ 0x3a → i ≠ 0x45 → t.modifiersState i = s.modifiersState i
  holds : ∀ m, t.holds m →
    if s.isGraphicConsole ∧ s.running ∧ keycode % 256 = m then down = true else s.holds m

lemma sent_sendKey (hgrey : s.guest.grey = false) (hlocks : cfg.LocksPlain)
    (hplain : s.isGraphicConsole → down = false → keycode % 128 ≠ 0x60) :
    Sent s (s.sendKey cfg down keycode sym) down keycode := by
  have hquiet := quiet_sync down keycode sym hgrey hlocks
  rw [sendKey]
  generalize (s.syncNumLock cfg down keycode sym).syncCapsLock cfg down sym = t at hquiet ⊢
  have hconsole : t.isGraphicConsole = s.isGraphicConsole := by
    rw [isGraphicConsole, isGraphicConsole, hquiet.activeConsole]
  rw [deliver, hconsole]
  cases hgraphic : s.isGraphicConsole
  · have hsent : ∀ u : KeyState, Quiet t u → Sent s u down keycode := fun u hu =>
      have hu := hquiet.trans hu
      ⟨hu.grey, hu.running, hu.activeConsole, hu.modifiers, fun m hm => by
        simpa [hgraphic] using hu.holds m hm⟩
    have hkeysym : ∀ keysym, Quiet t (t.kbdPutKeysym keysym) := fun keysym =>
      ⟨hquiet.grey, .refl _, .refl _, fun _ _ _ => .refl _, fun _ h => h⟩
    simp only [Bool.false_eq_true, if_false]
    split_ifs
    · split
      · exact hsent _ (hkeysym _)
      · exact hsent _ (.rfl hquiet.grey)
    · exact hsent _ (.rfl hquiet.grey)
  · have hstroke : (if down then t.putDown keycode else t.putUp keycode) =
        t.stroke ⟨keycode % 256, down⟩ := by
      cases down
      · exact putUp_eq hquiet.grey (hplain hgraphic rfl)
      · exact putDown_eq hquiet.grey
    rw [if_pos rfl, hstroke]
    refine ⟨grey_stroke _ hquiet.grey, by simp [hquiet.running], by simp [hquiet.activeConsole],
      by simpa using hquiet.modifiers, fun m hm => ?_⟩
    rw [holds_stroke, hquiet.running] at hm
    simp only [hgraphic, true_and]
    split_ifs at hm ⊢
    · exact hm
    · exact hquiet.holds m hm

/-! ### Releases -/

/-- Releases of the keys `l` that are in the table: the guest keeps nothing of them. -/
lemma foldl_putUp {l : List ℕ} (hgrey : s.guest.grey = false) (hknown : s.Known) :
    let t := l.foldl (fun s keycode => if s.modifiersState keycode then s.putUp keycode else s) s
    t.guest.grey = false ∧ t.running = s.running ∧ t.modifiersState = s.modifiersState ∧
      ∀ m, t.holds m → s.holds m ∧ (s.running → s.modifiersState m → m < 256 → m ∉ l) := by
  induction l generalizing s with
  | nil => exact ⟨hgrey, rfl, rfl, fun m hm => ⟨hm, fun _ _ _ => List.not_mem_nil⟩⟩
  | cons i l ih =>
    rw [List.foldl_cons]
    split_ifs with hi
    · rw [putUp_eq hgrey (hknown.plain hi)]
      obtain ⟨hg, hr, hstate, hholds⟩ := ih (grey_stroke ⟨i % 256, false⟩ hgrey)
        (by simpa [Known] using hknown)
      refine ⟨hg, hr.trans (running_stroke _), hstate.trans (modifiersState_stroke _), ?_⟩
      intro m hm
      obtain ⟨hm, hrest⟩ := hholds m hm
      rw [holds_stroke] at hm
      rw [running_stroke, modifiersState_stroke] at hrest
      split_ifs at hm with hkey
      refine ⟨hm, fun hrun hmstate hlt hmem => ?_⟩
      rcases List.mem_cons.mp hmem with rfl | hmem
      · exact hkey ⟨hrun, Nat.mod_eq_of_lt hlt⟩
      · exact hrest hrun hmstate hlt hmem
    · obtain ⟨hg, hr, hstate, hholds⟩ := ih hgrey hknown
      refine ⟨hg, hr, hstate, fun m hm => ⟨(hholds m hm).1, fun hrun hmstate hlt hmem => ?_⟩⟩
      rcases List.mem_cons.mp hmem with rfl | hmem
      · exact hi hmstate
      · exact (hholds m hm).2 hrun hmstate hlt hmem

/-- The loop of `reset_keys()` over the keys `l`. -/
lemma foldl_resetKeys {l : List ℕ} (hgrey : s.guest.grey = false) (hknown : s.Known) :
    let t := l.foldl
      (fun s i => if s.modifiersState i then (s.putUp i).setModifier i false else s) s
    t.guest.grey = false ∧ t.running = s.running ∧ t.activeConsole = s.activeConsole ∧
      (∀ i, t.modifiersState i → s.modifiersState i ∧ i ∉ l) ∧
      ∀ m, t.holds m → s.holds m ∧ (s.running → s.modifiersState m → m < 256 → m ∉ l) := by
  induction l generalizing s with
  | nil =>
    exact ⟨hgrey, rfl, rfl, fun i hi => ⟨hi, List.not_mem_nil⟩,
      fun m hm => ⟨hm, fun _ _ _ => List.not_mem_nil⟩⟩
  | cons i l ih =>
    rw [List.foldl_cons]
    split_ifs with hi
    · rw [putUp_eq hgrey (hknown.plain hi)]
      have hupdate : ∀ j, ((s.stroke ⟨i % 256, false⟩).setModifier i false).modifiersState j →
          s.modifiersState j ∧ j ≠ i := by
        intro j hj
        by_cases heq : j = i
        · simp [setModifier, heq] at hj
        · exact ⟨by simpa [setModifier, heq] using hj, heq⟩
      obtain ⟨hg, hr, hconsole, hstate, hholds⟩ :=
        ih (s := (s.stroke ⟨i % 256, false⟩).setModifier i false)
          (grey_stroke ⟨i % 256, false⟩ hgrey) fun j hj => hknown j (hupdate j hj).1
      refine ⟨hg, hr.trans (running_stroke _), hconsole.trans (activeConsole_stroke _), ?_, ?_⟩
      · intro j hj
        obtain ⟨hj, hjl⟩ := hstate j hj
        obtain ⟨hj, hne⟩ := hupdate j hj
        exact ⟨hj, by simp [hne, hjl]⟩
      · intro m hm
        obtain ⟨hm, hrest⟩ := hholds m hm
        have hm : (s.stroke ⟨i % 256, false⟩).holds m := hm
        rw [holds_stroke] at hm
        split_ifs at hm with hkey
        refine ⟨hm, fun hrun hmstate hlt hmem => ?_⟩
        rcases List.mem_cons.mp hmem with rfl | hmem
        · exact hkey ⟨hrun, Nat.mod_eq_of_lt hlt⟩
        · by_cases heq : m = i
          · subst heq
            exact hkey ⟨hrun, Nat.mod_eq_of_lt hlt⟩
          · exact hrest ((running_stroke _).trans hrun)
              (by simpa [setModifier, heq] using hmstate) hlt hmem
    · obtain ⟨hg, hr, hconsole, hstate, hholds⟩ := ih hgrey hknown
      refine ⟨hg, hr, hconsole, fun j hj => ⟨(hstate j hj).1, ?_⟩,
        fun m hm => ⟨(hholds m hm).1, fun hrun hmstate hlt hmem => ?_⟩⟩
      · have hne : j ≠ i := by rintro rfl; exact hi (hstate _ hj).1
        simp [hne, (hstate j hj).2]
      · rcases List.mem_cons.mp hmem with rfl | hmem
        · exact hi hmstate
        · exact (hholds m hm).2 hrun hmstate hlt hmem

lemma resetKeys_spec (hgrey : s.guest.grey = false) (hknown : s.Known)
    (hrun : ∀ m ∈ modifierKeys, s.holds m → s.running ∧ s.modifiersState m) :
    s.resetKeys.guest.grey = false ∧ s.resetKeys.Known ∧
      ∀ m ∈ modifierKeys, s.resetKeys.holds m = false := by
  unfold resetKeys
  have hrange : ∀ m < 256, m ∈ List.range 256 := fun m hm => List.mem_range.mpr hm
  generalize List.range 256 = l at hrange ⊢
  obtain ⟨hg, -, -, hstate, hholds⟩ := foldl_resetKeys (l := l) hgrey hknown
  refine ⟨hg, fun i hi => hknown i (hstate i hi).1, fun m hmem => ?_⟩
  by_contra hm
  obtain ⟨hm, hrest⟩ := hholds m (Bool.eq_true_of_not_eq_false hm)
  have hlt := (lt_of_mem_modifierKeys hmem).1
  obtain ⟨hrun, hmstate⟩ := hrun m hmem hm
  exact hrest hrun hmstate hlt (hrange m hlt)

lemma consoleSelect_eq (s : KeyState) (cfg : KbdConfig) (index : ℕ) :
    ∃ console, s.consoleSelect cfg index = { s with activeConsole := console } := by
  unfold consoleSelect
  split_ifs
  · exact ⟨_, rfl⟩
  · split
    · exact ⟨_, rfl⟩
    · exact ⟨_, rfl⟩

end KeyState

/-! ### Runs -/

/-- What a client has pressed, as the server looks at it: a symbol, or the scancode of an extended
event if there is no `keyboard_layout`. -/
inductive ClientKey where
  | sym (sym : UInt32)
  | code (keycode : UInt16)
deriving DecidableEq, Repr

def ClientKey.keycode (cfg : KbdConfig) (graphic : Bool) : ClientKey → ℕ
  | .sym keysym => KeyState.symKeycode cfg graphic keysym
  | .code scancode => scancode.toNat

inductive KeyboardEvent where
  | key (down : Bool) (sym : UInt32)
  | extKey (down : Bool) (sym : UInt32) (keycode : UInt16)
  | leds (caps num : Bool)
  /-- Another client or the monitor selects a console. -/
  | select (index : ℕ)
  /-- The machine stops or goes on. -/
  | machine (running : Bool)
deriving DecidableEq, Repr

/-- The key that goes down or up. -/
def KeyboardEvent.key? (cfg : KbdConfig) : KeyboardEvent → Option (ClientKey × Bool)
  | .key down sym => some (.sym sym, down)
  | .extKey down sym keycode =>
    some (if cfg.keyboardLayout then .sym sym else .code keycode, down)
  | _ => none

namespace KeyState

def step (cfg : KbdConfig) (s : KeyState) : KeyboardEvent → KeyState
  | .key down sym => s.keyEvent cfg down sym
  | .extKey down sym keycode => s.extKeyEvent cfg down sym keycode
  | .leds caps num => s.kbdLeds caps num
  | .select index => s.consoleSelect cfg index
  | .machine running => { s with running := running }

def run (cfg : KbdConfig) (s : KeyState) (es : List KeyboardEvent) : KeyState :=
  es.foldl (step cfg) s

end KeyState

/-- The keys that are down after an event. -/
def pressed (cfg : KbdConfig) (keys : List ClientKey) (e : KeyboardEvent) : List ClientKey :=
  match e.key? cfg with
  | some (k, true) => k :: keys
  | some (k, false) => keys.filter (· ≠ k)
  | none => keys

/-- The client has released its keys. -/
def AllReleased (cfg : KbdConfig) (es : List KeyboardEvent) : Prop :=
  es.foldl (pressed cfg) [] = []

namespace KeyState

variable {s t : KeyState} {cfg : KbdConfig} {keycode m : ℕ} {down : Bool} {sym : UInt32}

/-- The guest holds Shift, Ctrl or Alt. -/
def HoldsModifier (s : KeyState) : Prop := ∃ m ∈ modifierKeys, s.holds m

instance (s : KeyState) : Decidable s.HoldsModifier :=
  inferInstanceAs (Decidable (∃ m ∈ modifierKeys, _))

/-- What a key must not do: go down as a modifier that the table does not have, go up as a prefix,
and go up or select a console when the guest does not get to know it. -/
structure SafeKey (s : KeyState) (down : Bool) (keycode : ℕ) : Prop where
  tracked : s.isGraphicConsole → down → keycode % 256 ∈ modifierKeys → keycode < 256
  plain : s.isGraphicConsole → down = false → keycode % 128 ≠ 0x60
  up : s.HoldsModifier → down = false → s.isGraphicConsole ∧ s.running
  switch : s.HoldsModifier → s.Switches down keycode → s.running

instance (s : KeyState) (down : Bool) (keycode : ℕ) : Decidable (s.SafeKey down keycode) :=
  decidable_of_iff
    ((s.isGraphicConsole → down → keycode % 256 ∈ modifierKeys → keycode < 256) ∧
      (s.isGraphicConsole → down = false → keycode % 128 ≠ 0x60) ∧
      (s.HoldsModifier → down = false → s.isGraphicConsole ∧ s.running) ∧
      (s.HoldsModifier → s.Switches down keycode → s.running))
    ⟨fun ⟨h, h', h'', h'''⟩ => ⟨h, h', h'', h'''⟩, fun ⟨h, h', h'', h'''⟩ => ⟨h, h', h'', h'''⟩⟩

def Safe (cfg : KbdConfig) (s : KeyState) (e : KeyboardEvent) : Prop :=
  match e.key? cfg with
  | some (k, down) => s.SafeKey down (k.keycode cfg s.isGraphicConsole)
  | none => True

instance (cfg : KbdConfig) (s : KeyState) (e : KeyboardEvent) : Decidable (s.Safe cfg e) := by
  unfold Safe
  split <;> infer_instance

/-- Every event is safe when it comes. -/
def SafeRun (cfg : KbdConfig) : KeyState → List KeyboardEvent → Prop
  | _, [] => True
  | s, e :: es => s.Safe cfg e ∧ SafeRun cfg (s.step cfg e) es

instance decidableSafeRun (cfg : KbdConfig) :
    (s : KeyState) → (es : List KeyboardEvent) → Decidable (SafeRun cfg s es)
  | _, [] => .isTrue trivial
  | s, e :: es =>
    have := decidableSafeRun cfg (s.step cfg e) es
    inferInstanceAs (Decidable (_ ∧ _))

/-- When the client goes, the guest can be told. -/
def SafeEnd (s : KeyState) : Prop := s.HoldsModifier → s.isGraphicConsole ∧ s.running

instance (s : KeyState) : Decidable s.SafeEnd := inferInstanceAs (Decidable (_ → _))

lemma step_key {e : KeyboardEvent} {k : ClientKey} (he : e.key? cfg = some (k, down)) :
    ∃ sym, s.step cfg e = s.doKeyEvent cfg down (k.keycode cfg s.isGraphicConsole) sym := by
  cases e with
  | key down' sym =>
    obtain ⟨rfl, rfl⟩ := Prod.mk.inj (Option.some.inj he)
    exact ⟨sym, rfl⟩
  | extKey down' sym code =>
    obtain ⟨hk, rfl⟩ := Prod.mk.inj (Option.some.inj he)
    refine ⟨sym, ?_⟩
    rw [step, extKeyEvent, ← hk]
    split_ifs <;> rfl
  | leds | select | machine => cases he

/-- The guest holds only modifiers that are in the table, and the keys for them are down. -/
structure Inv (cfg : KbdConfig) (s : KeyState) (keys : List ClientKey) : Prop where
  grey : s.guest.grey = false
  known : s.Known
  tracked : ∀ m ∈ modifierKeys, s.holds m → s.modifiersState m
  down : ∀ m ∈ modifierKeys, s.holds m → ∃ k ∈ keys, k.keycode cfg true = m

lemma inv_init (cfg : KbdConfig) (console : Option ConsoleType) (running : Bool) :
    Inv cfg (init console running) [] where
  grey := rfl
  known _ h := by simp [init] at h
  tracked _ _ h := by simp [holds, init] at h
  down _ _ h := by simp [holds, init] at h

lemma Inv.quiet {keys : List ClientKey} (h : Inv cfg s keys) (hquiet : Quiet s t) :
    Inv cfg t keys where
  grey := hquiet.grey
  known := h.known.quiet hquiet
  tracked m hmem hm := by
    obtain ⟨-, h3a, h45⟩ := lt_of_mem_modifierKeys hmem
    rw [hquiet.modifiers m h3a h45]
    exact h.tracked m hmem (hquiet.holds m hm)
  down m hmem hm := h.down m hmem (hquiet.holds m hm)

lemma Inv.switch {keys : List ClientKey} (h : Inv cfg s keys) (hrun : s.HoldsModifier → s.running)
    (index : ℕ) (keys' : List ClientKey) : Inv cfg (s.resetKeys.consoleSelect cfg index) keys' := by
  obtain ⟨hgrey, hknown, hholds⟩ := resetKeys_spec h.grey h.known fun m hmem hm =>
    ⟨hrun ⟨m, hmem, hm⟩, h.tracked m hmem hm⟩
  generalize s.resetKeys = t at hgrey hknown hholds ⊢
  obtain ⟨console, heq⟩ := consoleSelect_eq t cfg index
  rw [heq]
  have hnone : ∀ m ∈ modifierKeys, ({ t with activeConsole := console } : KeyState).holds m ≠ true :=
    fun m hmem => Bool.eq_false_iff.mp (hholds m hmem)
  exact ⟨hgrey, hknown, fun m hmem hm => absurd hm (hnone m hmem),
    fun m hmem hm => absurd hm (hnone m hmem)⟩

lemma Inv.sendDown {keys : List ClientKey} {k : ClientKey} (h : Inv cfg s keys)
    (hlocks : cfg.LocksPlain) (hsafe : s.SafeKey true (k.keycode cfg s.isGraphicConsole)) :
    Inv cfg ((s.track true (k.keycode cfg s.isGraphicConsole)).sendKey cfg true
      (k.keycode cfg s.isGraphicConsole) sym) (k :: keys) := by
  have hcode : s.isGraphicConsole → k.keycode cfg s.isGraphicConsole = k.keycode cfg true :=
    fun hgraphic => by rw [hgraphic]
  generalize k.keycode cfg s.isGraphicConsole = keycode at hcode hsafe ⊢
  have hsent : Sent _ ((s.track true keycode).sendKey cfg true keycode sym) true keycode :=
    sent_sendKey (by simpa using h.grey) hlocks (by simp)
  have hcases : ∀ m ∈ modifierKeys, ((s.track true keycode).sendKey cfg true keycode sym).holds m →
      s.holds m ∨ s.isGraphicConsole ∧ keycode = m := by
    intro m hmem hm
    have hm := hsent.holds m hm
    split_ifs at hm with hkey
    · have hgraphic : s.isGraphicConsole := by simpa [isGraphicConsole] using hkey.1
      obtain ⟨-, -, hmod⟩ := hkey
      have := hsafe.tracked hgraphic rfl (hmod ▸ hmem)
      exact .inr ⟨hgraphic, by omega⟩
    · exact .inl (by simpa [holds] using hm)
  refine ⟨hsent.grey, ?_, fun m hmem hm => ?_, fun m hmem hm => ?_⟩
  · intro i hi
    by_cases h3a : i = 0x3a
    · exact .inr (.inl h3a)
    by_cases h45 : i = 0x45
    · exact .inr (.inr h45)
    exact h.known.track i (hsent.modifiers i h3a h45 ▸ hi)
  · obtain ⟨-, h3a, h45⟩ := lt_of_mem_modifierKeys hmem
    rw [hsent.modifiers m h3a h45]
    by_cases heq : m = keycode
    · subst heq
      exact modifiersState_track_of_mem hmem
    · rw [modifiersState_track_of_ne heq]
      rcases hcases m hmem hm with hm | hm
      · exact h.tracked m hmem hm
      · exact absurd hm.2.symm heq
  · rcases hcases m hmem hm with hm | ⟨hgraphic, rfl⟩
    · obtain ⟨k', hk', hcode'⟩ := h.down m hmem hm
      exact ⟨k', List.mem_cons_of_mem _ hk', hcode'⟩
    · exact ⟨k, List.mem_cons_self, (hcode hgraphic).symm⟩

/-- A key that goes up takes its modifier with it, and no other modifier needs it. -/
lemma Inv.sendUp {keys : List ClientKey} {k : ClientKey} (h : Inv cfg s keys)
    (hlocks : cfg.LocksPlain) (hsafe : s.SafeKey false (k.keycode cfg s.isGraphicConsole)) :
    Inv cfg ((s.track false (k.keycode cfg s.isGraphicConsole)).sendKey cfg false
      (k.keycode cfg s.isGraphicConsole) sym) (keys.filter (· ≠ k)) := by
  have hcode : s.isGraphicConsole → k.keycode cfg s.isGraphicConsole = k.keycode cfg true :=
    fun hgraphic => by rw [hgraphic]
  generalize k.keycode cfg s.isGraphicConsole = keycode at hcode hsafe ⊢
  have hconsole : (s.track false keycode).isGraphicConsole = s.isGraphicConsole := by
    simp [isGraphicConsole]
  have hsent : Sent _ ((s.track false keycode).sendKey cfg false keycode sym) false keycode :=
    sent_sendKey (by simpa using h.grey) hlocks (by rw [hconsole]; exact hsafe.plain)
  have hcases : ∀ m ∈ modifierKeys, ((s.track false keycode).sendKey cfg false keycode sym).holds m →
      s.holds m ∧ s.isGraphicConsole ∧ keycode ≠ m := by
    intro m hmem hm
    have hlt := (lt_of_mem_modifierKeys hmem).1
    have hm := hsent.holds m hm
    rw [hconsole, running_track] at hm
    split_ifs at hm with hkey
    have hm : s.holds m := by simpa [holds] using hm
    obtain ⟨hgraphic, hrun⟩ := hsafe.up ⟨m, hmem, hm⟩ rfl
    refine ⟨hm, hgraphic, ?_⟩
    rintro rfl
    exact hkey ⟨hgraphic, hrun, Nat.mod_eq_of_lt hlt⟩
  refine ⟨hsent.grey, ?_, fun m hmem hm => ?_, fun m hmem hm => ?_⟩
  · intro i hi
    by_cases h3a : i = 0x3a
    · exact .inr (.inl h3a)
    by_cases h45 : i = 0x45
    · exact .inr (.inr h45)
    exact h.known.track i (hsent.modifiers i h3a h45 ▸ hi)
  · obtain ⟨-, h3a, h45⟩ := lt_of_mem_modifierKeys hmem
    obtain ⟨hm, -, hne⟩ := hcases m hmem hm
    rw [hsent.modifiers m h3a h45, modifiersState_track_of_ne hne.symm]
    exact h.tracked m hmem hm
  · obtain ⟨hm, hgraphic, hne⟩ := hcases m hmem hm
    obtain ⟨k', hk', hcode'⟩ := h.down m hmem hm
    refine ⟨k', List.mem_filter.mpr ⟨hk', decide_eq_true ?_⟩, hcode'⟩
    rintro rfl
    exact hne ((hcode hgraphic).trans hcode')

lemma Inv.step {keys : List ClientKey} {e : KeyboardEvent} (h : Inv cfg s keys)
    (hlocks : cfg.LocksPlain) (hsafe : s.Safe cfg e) :
    Inv cfg (s.step cfg e) (pressed cfg keys e) := by
  unfold Safe at hsafe
  unfold pressed
  cases he : e.key? cfg with
  | some key =>
    obtain ⟨k, down⟩ := key
    rw [he] at hsafe
    obtain ⟨sym, hstep⟩ := step_key (s := s) he
    rw [hstep]
    by_cases hswitch : s.Switches down (k.keycode cfg s.isGraphicConsole)
    · rw [doKeyEvent_of_switches hswitch]
      exact h.switch (fun hm => hsafe.switch hm hswitch) _ _
    · rw [doKeyEvent_of_not_switches hswitch]
      cases down
      · exact h.sendUp hlocks hsafe
      · exact h.sendDown hlocks hsafe
  | none =>
    cases e with
    | key | extKey => cases he
    | leds caps num =>
      have hcaps : Quiet s (s.setModifier 0x3a caps) := quiet_setModifier h.grey (.inl rfl)
      exact h.quiet (hcaps.trans (quiet_setModifier hcaps.grey (.inr rfl)))
    | select index =>
      obtain ⟨console, heq⟩ := consoleSelect_eq s cfg index
      rw [show s.step cfg (.select index) = s.consoleSelect cfg index from rfl, heq]
      exact ⟨h.grey, h.known, h.tracked, h.down⟩
    | machine running => exact ⟨h.grey, h.known, h.tracked, h.down⟩

lemma Inv.run {keys : List ClientKey} {es : List KeyboardEvent} (h : Inv cfg s keys)
    (hlocks : cfg.LocksPlain) (hsafe : SafeRun cfg s es) :
    Inv cfg (s.run cfg es) (es.foldl (pressed cfg) keys) := by
  induction es generalizing s keys with
  | nil => exact h
  | cons e es ih => exact ih (h.step hlocks hsafe.1) hsafe.2

/-- The client is gone: the guest has got its modifiers back. -/
lemma Inv.not_holds_vncReleaseModifiers {keys : List ClientKey} (h : Inv cfg s keys)
    (hend : s.SafeEnd) (hmem : m ∈ modifierKeys) : s.vncReleaseModifiers.holds m = false := by
  by_contra hm
  have hm := Bool.eq_true_of_not_eq_false hm
  unfold vncReleaseModifiers at hm
  obtain ⟨-, -, -, hholds⟩ := foldl_putUp (l := modifierKeys) h.grey h.known
  split_ifs at hm with hgraphic
  · obtain ⟨hm, hrest⟩ := hholds m hm
    obtain ⟨-, hrun⟩ := hend ⟨m, hmem, hm⟩
    exact hrest hrun (h.tracked m hmem hm) (lt_of_mem_modifierKeys hmem).1 hmem
  · exact hgraphic (hend ⟨m, hmem, hm⟩).1

/-- While every event is safe, the presses of Shift, Ctrl and Alt that the guest has got are
followed by releases when the client has released its keys, and when it is gone. -/
theorem run_released (hlocks : cfg.LocksPlain) (console : Option ConsoleType) (running : Bool)
    (es : List KeyboardEvent) (hsafe : SafeRun cfg (init console running) es) :
    (AllReleased cfg es →
      ∀ m ∈ modifierKeys, Released m ((init console running).run cfg es).guest.strokes) ∧
    (((init console running).run cfg es).SafeEnd → ∀ m ∈ modifierKeys,
      Released m ((init console running).run cfg es).vncReleaseModifiers.guest.strokes) := by
  have h := (inv_init cfg console running).run hlocks hsafe
  constructor
  · intro hreleased m hmem
    rw [released_iff_not_held]
    by_contra hm
    obtain ⟨k, hk, -⟩ := h.down m hmem (Bool.eq_true_of_not_eq_false hm)
    rw [show es.foldl (pressed cfg) [] = [] from hreleased] at hk
    cases hk
  · exact fun hend m hmem => released_iff_not_held.mpr (h.not_holds_vncReleaseModifiers hend hmem)

/-- A keymap with Shift, Ctrl, Alt and two digits, a graphic console and the monitor. -/
def monitorConfig : KbdConfig where
  keyboardLayout := false
  kbdLayout := {
    keysym2scancode := fun keysym => match keysym with
      | 0xffe1 => 0x2a
      | 0xffe3 => 0x1d
      | 0xffe9 => 0x38
      | 0x31 => 0x02
      | 0x32 => 0x03
      | 0xff7f => 0x45
      | 0xffe5 => 0x3a
      | _ => 0
    keycodeIsKeypad := fun _ => false
    keysymIsNumlock := fun _ => false }
  lockKeySync := true
  consoles := [.graphic, .text]

/-- To the monitor and back while Shift, Ctrl and Alt are down. -/
theorem run_released_monitor :
    let es : List KeyboardEvent := [.key true 0xffe1, .key true 0xffe3, .key true 0xffe9,
      .key true 0x32, .key false 0x32, .key false 0xffe9, .key false 0xffe3, .key true 0xffe3,
      .key true 0xffe9, .key true 0x31, .key false 0x31, .key false 0xffe9, .key false 0xffe3,
      .key false 0xffe1]
    AllReleased monitorConfig es ∧ ∀ m ∈ modifierKeys,
      Released m ((init (some .graphic) true).run monitorConfig es).guest.strokes := by
  intro es
  have hreleased : AllReleased monitorConfig es := by unfold AllReleased; decide +kernel
  exact ⟨hreleased, (run_released (by unfold KbdConfig.LocksPlain; decide) (some .graphic) true es
    (by decide +kernel)).1 hreleased⟩

/-- Shift is left down by an extended key event that has more bits than a scancode, by a console
that another client has selected, and by a machine that is stopped. -/
theorem not_released :
    ¬ Released 0x2a ((init (some .graphic) true).run monitorConfig
      [.extKey true 0xffe1 0x12a]).vncReleaseModifiers.guest.strokes ∧
    (AllReleased monitorConfig [.key true 0xffe1, .select 1, .key false 0xffe1] ∧
      ¬ Released 0x2a ((init (some .graphic) true).run monitorConfig
        [.key true 0xffe1, .select 1, .key false 0xffe1]).vncReleaseModifiers.guest.strokes) ∧
    (AllReleased monitorConfig [.key true 0xffe1, .machine false, .key false 0xffe1] ∧
      ¬ Released 0x2a ((init (some .graphic) true).run monitorConfig
        [.key true 0xffe1, .machine false, .key false 0xffe1]).guest.strokes) := by
  refine ⟨by decide +kernel, ⟨?_, by decide +kernel⟩, ?_, by decide +kernel⟩ <;>
    (unfold AllReleased; decide +kernel)

end KeyState

end Limbo.VncServer
