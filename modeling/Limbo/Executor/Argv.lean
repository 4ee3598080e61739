import Limbo.Executor.VMExecutor

/-!
# The argument vector of the emulator

`VMExecutor.start()` counts the arguments in one pass, allocates `argv` for them, and fills it in a
second pass. The memory of `argv` is explicit: a read of a null string, a write past the array and
a string longer than its slot are faults.
-/

namespace Limbo.Executor

open Lib

/-- `MAX_STRING_LEN`, the bytes allocated for each argument. -/
def maxStringLen : ℕ := 1024

/-- What the fill pass can do wrong. -/
inductive Fault where
  | nullDereference | outOfBounds | slotOverflow
deriving DecidableEq, Repr

/-- An entry of `argv`: a pointer to a fresh buffer, a pointer to a buffer that holds a string, or
`NULL`. -/
inductive Slot where
  | uninitialised
  | string (s : CString)
  | null
deriving DecidableEq, Repr

/-- The allocated array and the index `param`. -/
structure Argv where
  slots : List Slot
  param : ℕ
deriving DecidableEq, Repr

/-- A piece of the fill pass. -/
abbrev Fill := StateT Argv (Except Fault)

namespace Fill

/-- A pointer that must not be null. -/
def deref (s : Option CString) : Except Fault CString :=
  match s with
  | none => .error .nullDereference
  | some s => .ok s

/-- A write of the string `s` to the buffer of `argv[param]`. -/
def write (s : CString) (a : Argv) : Except Fault (Unit × Argv) :=
  match a.slots[a.param]? with
  | none | some .null => .error .outOfBounds
  | some _ =>
    if s.length < maxStringLen
    then .ok ((), { a with slots := a.slots.set a.param (.string s) })
    else .error .slotOverflow

/-- `strcpy(argv[param], src)`. -/
def strcpy (src : Option CString) : Fill Unit := fun a => do write (← deref src) a

/-- `strcat(argv[param], src)`. -/
def strcat (src : Option CString) : Fill Unit := fun a => do
  let src ← deref src
  match a.slots[a.param]? with
  | some (.string s) => write (s ++ src) a
  | _ => .error .outOfBounds

/-- `param++`. -/
def advance : Fill Unit := fun a => .ok ((), { a with param := a.param + 1 })

/-- `strcpy(argv[param++], src)`. -/
def arg (src : Option CString) : Fill Unit := do strcpy src; advance

/-- A flag and its value, one slot each. -/
def option (flag : String) (value : Option CString) : Fill Unit := do
  arg (some (cstr flag))
  arg value

/-- An `if` without an `else`. -/
def when (c : Prop) [Decidable c] (m : Fill Unit) : Fill Unit := if c then m else pure ()

end Fill

namespace VMExecutor

variable (e : VMExecutor CString)

/-- `strncmp(arch_str, "arm", 3) == 0`. -/
def isArm : Except Fault Bool := do
  let arch ← Fill.deref e.arch
  return strncmpEq arch (cstr "arm") 3

/-- `s != NULL && strcmp(s, "") != 0`. -/
def given (s : Option CString) : Prop := s ≠ none ∧ s ≠ some []

instance (s : Option CString) : Decidable (given s) := inferInstanceAs (Decidable (_ ∧ _))

/-- `params += n` under a condition. -/
def add (c : Prop) [Decidable c] (n : ℕ) : ℕ := if c then n else 0

/-- The count pass. The network card and the CPU are counted by weaker conditions than the fill
pass has. -/
def params : Except Fault ℕ := do
  let arm ← e.isArm
  return 4 + add (e.cpu ≠ none ∧ e.cpu ≠ some (cstr "Default")) 2 + add (e.hdaImgPath ≠ none) 2 +
    add (e.hdbImgPath ≠ none) 2 + 2 + 2 + 2 + add (e.netCfg ≠ none) 2 +
    add (e.nicDriver ≠ none) 2 + add (e.bootdevice ≠ none) 2 +
    add (e.vgaType ≠ none ∧ ¬ arm) 2 + add (e.soundCard ≠ none ∨ arm) 2 +
    add (e.disableacpi ≠ 0) 1 + add (e.disablehpet ≠ 0) 1 + add (e.usbmouse ≠ 0) 3 +
    add (given e.snapshotName) 2 + add (e.enableqmp ≠ 0) 1 + 2 + 2 + 2 + 2 +
    add arm (add (given e.kernel) 2 + add (given e.initrd) 2 + add (given e.append) 2)

open Fill

/-- The boot image of an ARM machine. -/
def fillKernel (arm : Bool) : Fill Unit :=
  when arm do
    when (given e.kernel) (option "-kernel" e.kernel)
    when (given e.initrd) (option "-initrd" e.initrd)
    when (given e.append) (option "-append" e.append)

/-- `cpu_str != NULL && strncmp(cpu_str, "Default", 7) != 0`. -/
def cpuGiven : Prop := ∃ cpu, e.cpu = some cpu ∧ strncmpEq cpu (cstr "Default") 7 = false

instance : Decidable e.cpuGiven :=
  match h : e.cpu with
  | none => .isFalse (by simp [cpuGiven, h])
  | some cpu =>
    decidable_of_iff (strncmpEq cpu (cstr "Default") 7 = false) (by simp [cpuGiven, h])

/-- A drive with a medium, or the empty drive. -/
def drive (flag : String) (path : Option CString) (empty : String) : Fill Unit :=
  if path ≠ none then option flag path else option "-drive" (some (cstr empty))

/-- The drives. A CD drive and two floppy drives are defined without a medium, too. -/
def fillDrives : Fill Unit := do
  when (e.hdaImgPath ≠ none) (option "-hda" e.hdaImgPath)
  when (e.hdbImgPath ≠ none) (option "-hdb" e.hdbImgPath)
  drive "-cdrom" e.cdIsoPath "index=2,media=cdrom"
  drive "-fda" e.fdaImgPath "index=0,if=floppy"
  drive "-fdb" e.fdbImgPath "index=1,if=floppy"

/-- The string copied for a network mode; the mode `none` and every unknown mode give `none`. -/
def netMode : Option CString :=
  if e.netCfg = some (cstr "user") then e.netCfg
  else if e.netCfg = some (cstr "tap") then some (cstr "tap,vlan=0,ifname=tap0,script=no")
  else some (cstr "none")

/-- The network mode. -/
def fillNet : Fill Unit :=
  when (e.netCfg ≠ none) do
    arg (some (cstr "-net"))
    strcpy e.netMode
    advance

/-- The network card. In a mode other than `user` and `tap` only the flag is written. -/
def fillNic (arm : Bool) : Fill Unit :=
  when (e.nicDriver ≠ none) do
    arg (some (cstr "-net"))
    if arm then
      strcpy (some (cstr "nic"))
      advance
    else do
      let net ← deref e.netCfg
      if net = cstr "user" then
        strcpy (some (cstr "nic,model="))
        strcat e.nicDriver
        advance
      else if net = cstr "tap" then
        strcpy (some (cstr "nic,vlan=0,model="))
        strcat e.nicDriver
        advance
      else pure ()

/-- The sound card and, on ARM, all sound cards. -/
def fillSound (arm : Bool) : Fill Unit := do
  when (e.soundCard ≠ none ∧ e.soundCard ≠ some (cstr "None")) (option "-soundhw" e.soundCard)
  when arm (option "-soundhw" (some (cstr "all")))

/-- The display. -/
def fillDisplay : Fill Unit :=
  if e.enablevnc ≠ 0 then
    if e.vncAllowExternal ≠ 0 then option "-vnc" (some (cstr ":1,password"))
      else option "-vnc" (some (cstr "localhost:1"))
  else option "-k" (some (cstr "en-us"))

/-- The number of processors. -/
def fillSmp : Fill Unit := do
  arg (some (cstr "-smp"))
  strcpy (some (cstr "sockets="))
  strcat (some (decimal e.cpuNum))
  strcat (some (cstr ",cores=1"))
  strcat (some (cstr ",threads=1"))
  advance

/-- The fill pass. -/
def fill : Fill Unit := do
  arg e.libqemu
  let arm ← e.isArm
  e.fillKernel arm
  when e.cpuGiven (option "-cpu" e.cpu)
  option "-m" (some (decimal e.memory))
  option "-L" e.baseDir
  e.fillDrives
  when (e.vgaType ≠ none ∧ ¬ arm) (option "-vga" e.vgaType)
  when (e.bootdevice ≠ none) (option "-boot" e.bootdevice)
  e.fillNet
  e.fillNic arm
  e.fillSound arm
  when (given e.snapshotName) (option "-loadvm" e.snapshotName)
  when (e.usbmouse ≠ 0) do
    arg (some (cstr "-usb"))
    option "-usbdevice" (some (cstr "tablet"))
  when (e.disableacpi ≠ 0) (arg (some (cstr "-no-acpi")))
  when (e.disablehpet ≠ 0) (arg (some (cstr "-no-hpet")))
  when (e.enableqmp ≠ 0) (arg (some (cstr "-qmp tcp:0:4444,server")))
  e.fillDisplay
  e.fillSmp
  option "-M" e.machineType

/-- `argv[param] = NULL`. -/
def terminate (a : Argv) : Except Fault Argv :=
  if a.param < a.slots.length then .ok { a with slots := a.slots.set a.param .null }
  else .error .outOfBounds

/-- The two passes of `start()`: `argc` and the array handed to `qemu_start`. -/
def start (thiz : VMExecutor JString) : Except Fault (ℕ × List Slot) := do
  let e := thiz.utfChars
  let params ← e.params
  let (_, a) ← e.fill ⟨List.replicate params .uninitialised, 0⟩
  let a ← terminate a
  return (params - 1, a.slots)

end VMExecutor

end Limbo.Executor
