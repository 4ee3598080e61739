import Limbo.Lib.CString

/-!
# `VMExecutor`

The Java object whose fields `VMExecutor.start()` reads through the JNI, and the constructor that
fills them from a machine.
-/

namespace Limbo.Executor

open Lib

/-- The columns of a machine that the constructor reads. -/
structure Machine where
  cdIsoPath : Option JString := none
  hdaImgPath : Option JString := none
  hdbImgPath : Option JString := none
  fdaImgPath : Option JString := none
  fdbImgPath : Option JString := none
  cpu : Option JString := none
  kernel : Option JString := none
  initrd : Option JString := none
  memory : Int32 := 128
  bootdevice : Option JString := some (jstr "c")
  netCfg : Option JString := some (jstr "None")
  vgaType : Option JString := some (jstr "std")
  nicDriver : Option JString := some (jstr "ne2k_pci")
  soundcard : Option JString := some (jstr "None")
  disableacpi : Int32 := 0
  disablehpet : Int32 := 0
  enableqmp : Int32 := 0
  enablevnc : Int32 := 1
  snapshotName : Option JString := some []
  cpuNum : Int32 := 1
  machineType : Option JString := none

/-- The fields of a `VMExecutor` that make up the arguments of the emulator; `S` is the type of
strings on the side that looks at them. -/
structure VMExecutor (S : Type) where
  cpu : Option S
  machineType : Option S
  memory : Int32
  cpuNum : Int32
  disableacpi : Int32
  disablehpet : Int32
  usbmouse : Int32
  enableqmp : Int32
  enablevnc : Int32
  vncAllowExternal : Int32
  hdaImgPath : Option S
  hdbImgPath : Option S
  cdIsoPath : Option S
  fdaImgPath : Option S
  fdbImgPath : Option S
  bootdevice : Option S
  netCfg : Option S
  nicDriver : Option S
  libqemu : Option S
  vgaType : Option S
  soundCard : Option S
  snapshotName : Option S
  baseDir : Option S
  kernel : Option S
  arch : Option S
  append : Option S
  initrd : Option S

namespace VMExecutor

/-- `GetStringUTFChars` on every string that is not null. -/
def utfChars (e : VMExecutor JString) : VMExecutor CString where
  cpu := e.cpu.map JString.utfChars
  machineType := e.machineType.map JString.utfChars
  memory := e.memory
  cpuNum := e.cpuNum
  disableacpi := e.disableacpi
  disablehpet := e.disablehpet
  usbmouse := e.usbmouse
  enableqmp := e.enableqmp
  enablevnc := e.enablevnc
  vncAllowExternal := e.vncAllowExternal
  hdaImgPath := e.hdaImgPath.map JString.utfChars
  hdbImgPath := e.hdbImgPath.map JString.utfChars
  cdIsoPath := e.cdIsoPath.map JString.utfChars
  fdaImgPath := e.fdaImgPath.map JString.utfChars
  fdbImgPath := e.fdbImgPath.map JString.utfChars
  bootdevice := e.bootdevice.map JString.utfChars
  netCfg := e.netCfg.map JString.utfChars
  nicDriver := e.nicDriver.map JString.utfChars
  libqemu := e.libqemu.map JString.utfChars
  vgaType := e.vgaType.map JString.utfChars
  soundCard := e.soundCard.map JString.utfChars
  snapshotName := e.snapshotName.map JString.utfChars
  baseDir := e.baseDir.map JString.utfChars
  kernel := e.kernel.map JString.utfChars
  arch := e.arch.map JString.utfChars
  append := e.append.map JString.utfChars
  initrd := e.initrd.map JString.utfChars

/-- `path == null || path.equals("None")` gives null. -/
def imgPath (path : Option JString) : Option JString :=
  if path = some (jstr "None") then none else path

/-- The emulator, the CPU, the architecture and the machine type that the constructor takes from
the CPU of the machine; `none` for a `NullPointerException` or an index out of bounds. -/
def target (machine : Machine) (dataDir : JString) :
    Option (JString × JString × JString × JString) := do
  let cpu ← machine.cpu
  if cpu.endsWith (jstr "(arm)") then
    let machineType ← machine.machineType
    some (dataDir ++ jstr "/lib/libqemu-system-arm.so", ← cpu.splitFirst, jstr "arm",
      ← machineType.splitFirst)
  else if cpu.endsWith (jstr "(64Bit)") then
    some (dataDir ++ jstr "/lib/libqemu-system-x86_64.so", ← cpu.splitFirst, jstr "x86_64",
      jstr "pc")
  else
    some (dataDir ++ jstr "/lib/libqemu-system-x86_64.so", ← cpu.splitFirst, jstr "x86", jstr "pc")

/-- The boot device and the kernel arguments. -/
def boot (machine : Machine) (arch : JString) : Option (Option JString × JString) :=
  if arch = jstr "arm" then some (none, jstr "\"root=/dev/sda1\"")
  else do
    let bootdevice ← machine.bootdevice
    if bootdevice = jstr "Default" then some (none, [])
    else if bootdevice = jstr "CD Rom" then some (some (jstr "d"), [])
    else if bootdevice = jstr "Floppy" then some (some (jstr "a"), [])
    else if bootdevice = jstr "Hard Disk" then some (some (jstr "c"), [])
    else some (none, [])

/-- The network mode and the driver of the network card. An unknown mode leaves the defaults. -/
def net (machine : Machine) : Option JString × Option JString :=
  if machine.netCfg = none ∨ machine.netCfg = some (jstr "None") then (some (jstr "none"), none)
  else if machine.netCfg = some (jstr "User") then (some (jstr "user"), machine.nicDriver)
  else if machine.netCfg = some (jstr "TAP") then (some (jstr "tap"), machine.nicDriver)
  else (some (jstr "None"), none)

/-- `VMExecutor(machine)`. The data directory and the base directory are the application's. -/
def ofMachine (machine : Machine) (dataDir baseDir : JString) : Option (VMExecutor JString) := do
  let (libqemu, cpu, arch, machineType) ← target machine dataDir
  let (bootdevice, append) ← boot machine arch
  let (netCfg, nicDriver) := net machine
  some {
    cpu := some cpu
    machineType := some machineType
    memory := machine.memory
    cpuNum := machine.cpuNum
    disableacpi := machine.disableacpi
    disablehpet := machine.disablehpet
    usbmouse := 0
    enableqmp := machine.enableqmp
    enablevnc := machine.enablevnc
    vncAllowExternal := 0
    hdaImgPath := imgPath machine.hdaImgPath
    hdbImgPath := imgPath machine.hdbImgPath
    cdIsoPath := imgPath machine.cdIsoPath
    fdaImgPath := imgPath machine.fdaImgPath
    fdbImgPath := imgPath machine.fdbImgPath
    bootdevice := bootdevice
    netCfg := netCfg
    nicDriver := nicDriver
    libqemu := some libqemu
    vgaType := machine.vgaType
    soundCard := imgPath machine.soundcard
    snapshotName := machine.snapshotName
    baseDir := some baseDir
    kernel := machine.kernel
    arch := some arch
    append := some append
    initrd := machine.initrd }

end VMExecutor

end Limbo.Executor
