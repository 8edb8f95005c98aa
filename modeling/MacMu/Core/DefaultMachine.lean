import MacMu.Core.ImageReplacement
import MacMu.Lib.FileVolume

/-!
`macmu_create_default_machine` and `macmu_machine_exists`. A call to the file system
finds what the volume shows and does not fail otherwise. What is asked of contents and
done to them is in `Contents`; `Contents.bytes` is the one of the program. Error texts
are left out.
-/

namespace MacMu
namespace DefaultMachine

open FileTree SystemImage ImageReplacement

structure Contents (α : Type) where
  isDisk : α → Bool
  size : α → Nat
  resize : Nat → α → α
  text : String → α

def Contents.bytes : Contents Bytes where
  isDisk := metadataDisk
  size := List.length
  resize size bytes := bytes.take size ++ List.replicate (size - bytes.length) 0
  text value := value.toUTF8.data.toList

/-- What is read of `ShellOptions`, and the working directory of the process. The name
of the machine is one component of a path. -/
structure Options where
  appDataDir : String
  avdHome : String
  systemPath : String
  avdName : String
  workingDirectory : List String
  component : '/' ∉ avdName.toList

def pathJoin (lhs rhs : String) : String :=
  if lhs = "" then rhs else if lhs.toList.getLast? = some '/' then lhs ++ rhs else lhs ++ "/" ++ rhs

def kCacheSize : Nat := 66 * 1024 * 1024

namespace Options

variable (options : Options)

def appData : List String := pathOf options.workingDirectory options.appDataDir

def images : List String := options.appData ++ ["images"]

def home : List String := pathOf options.workingDirectory options.avdHome

def system : List String := pathOf options.workingDirectory options.systemPath

def machineName : String := options.avdName ++ ".avd"

def iniName : String := options.avdName ++ ".ini"

/-- `macmu_machine_path` -/
def machine : List String := options.home ++ [options.machineName]

def rootIni : String :=
  "avd.ini.encoding=UTF-8\n" ++
    "path=" ++ pathJoin options.avdHome options.machineName ++ "\n" ++
    "path.rel=avd/" ++ options.avdName ++ ".avd\n" ++
    "target=android-36\n"

def sysdir : String :=
  if options.systemPath ≠ "" ∧ options.systemPath.toList.getLast? ≠ some '/' then
    options.systemPath ++ "/"
  else options.systemPath

def configLines : List String :=
  ["PlayStore.enabled=no", "abi.type=arm64-v8a", "avd.id=" ++ options.avdName,
    "avd.ini.encoding=UTF-8", "avd.name=" ++ options.avdName, "disk.cachePartition=yes",
    "disk.cachePartition.size=66MB", "disk.dataPartition.path=<temp>",
    "disk.dataPartition.size=6G", "disk.systemPartition.size=0", "disk.vendorPartition.size=0",
    "fastboot.forceChosenSnapshotBoot=no", "fastboot.forceColdBoot=yes",
    "fastboot.forceFastBoot=no", "firstboot.bootFromDownloadableSnapshot=no",
    "firstboot.bootFromLocalSnapshot=no", "firstboot.saveToLocalSnapshot=no",
    "hw.accelerometer=yes", "hw.arc=false", "hw.audioInput=yes", "hw.audioOutput=yes",
    "hw.battery=yes", "hw.camera.back=emulated", "hw.camera.back.orientation=90",
    "hw.camera.front=none", "hw.cpu.arch=arm64", "hw.cpu.ncore=4", "hw.dPad=no",
    "hw.device.manufacturer=Google", "hw.device.name=pixel_6", "hw.gltransport=pipe",
    "hw.gpu.enabled=yes", "hw.gpu.mode=host", "hw.gsmModem=yes", "hw.gyroscope=yes",
    "hw.keyboard=no", "hw.keyboard.charmap=qwerty2", "hw.keyboard.lid=yes",
    "hw.lcd.backlight=yes", "hw.lcd.circular=false", "hw.lcd.density=420", "hw.lcd.depth=32",
    "hw.lcd.height=2400", "hw.lcd.transparent=false", "hw.lcd.vsync=60", "hw.lcd.width=1080",
    "hw.mainKeys=no", "hw.ramSize=2G", "hw.screen=multi-touch", "hw.sdCard=yes",
    "hw.sensors.light=yes", "hw.sensors.magnetic_field=yes", "hw.sensors.orientation=yes",
    "hw.sensors.pressure=yes", "hw.sensors.proximity=yes", "hw.trackBall=no", "hw.useext4=yes",
    "image.sysdir.1=" ++ options.sysdir, "kernel.newDeviceNaming=autodetect",
    "kernel.supportsYaffs2=autodetect", "runtime.network.latency=none",
    "runtime.network.speed=full", "sdcard.size=512 MB", "showDeviceFrame=yes",
    "tag.display=Default Android System Image", "tag.displaynames=Default Android System Image",
    "tag.id=default", "tag.ids=default", "target=android-36", "test.delayAdbTillBootComplete=0",
    "test.monitorAdb=0", "test.quitAfterBootTimeOut=-1", "userdata.useQcow2=no",
    "vm.heapSize=228M"]

def configIniFor : String := String.join (options.configLines.map (· ++ "\n"))

end Options

abbrev Call (α : Type) := Volume α → Bool × Volume α

section Calls

variable {α : Type} (contents : Contents α)

def runAll : List (Call α) → Call α
  | [], v => (true, v)
  | call :: rest, v =>
    match call v with
    | (true, next) => runAll rest next
    | (false, next) => (false, next)

def check (holds : Volume α → Bool) : Call α := fun v => (holds v, v)

def ensureDirectory (path : List String) : Call α := fun v =>
  if leadsToDirectory v.tree path then (true, v)
  else
    let made := v.makeDirectories path
    (leadsToDirectory made.tree path, made)

/-- `ensure_directory` of a path from the options. The empty path leads nowhere. -/
def ensureNamed (text : String) (path : List String) : Call α := fun v =>
  if text = "" then (false, v) else ensureDirectory path v

def writeTextFile (dir : List String) (name : String) (text : String) : Call α := fun v =>
  match v.write dir name (contents.text text) with
  | some written => (true, written)
  | none => (false, v)

def metadataDiskExists (v : Volume α) (dir : List String) (name : String) : Bool :=
  (v.contentAt dir name).any contents.isDisk

def hasSize (v : Volume α) (dir : List String) (name : String) (size : Nat) : Bool :=
  (v.contentAt dir name).any fun content => contents.size content == size

def ensureSizedFile (dir : List String) (name : String) (size : Nat) : Call α := fun v =>
  if hasSize contents v dir name size then (true, v)
  else
    match if v.leadsToNode dir name then some v else v.write dir name (contents.text "") with
    | none => (false, v)
    | some created =>
      match created.resizeFile dir name (contents.resize size) with
      | none => (false, created)
      | some resized => (hasSize contents resized dir name size, resized)

def replaceWithSymlink (source dir : List String) (name : String) : Call α := fun v =>
  let removed := v.remove dir name
  match removed.createSymlink dir name source with
  | none => (false, removed)
  | some linked => (linked.isRegular dir name, linked)

def ensureMetadataDisk (sourceDir dir : List String) (name : String) : Call α := fun v =>
  if metadataDiskExists contents v dir name then (true, v)
  else
    let removed := (v.remove dir name).remove dir (name ++ ".qcow2")
    match removed.copyFile sourceDir name dir name with
    | none => (false, removed)
    | some copied => (metadataDiskExists contents copied dir name, copied)

variable (options : Options)

/-- `macmu_ensure_runtime_directories` -/
def runtimeDirectories : List (Call α) :=
  [ensureNamed options.appDataDir options.appData, ensureNamed options.avdHome options.home,
    ensureDirectory options.images]

/-- `macmu_system_image_exists` -/
def systemImageExists (v : Volume α) : Bool :=
  systemImageExistsAt contents.isDisk (v.contentAt options.system)

/-- `macmu_machine_exists` -/
def machineExists (v : Volume α) : Bool :=
  v.isRegular options.home options.iniName && v.isRegular options.machine "config.ini" &&
    v.isRegular options.machine "system-qemu.img" &&
    v.isRegular options.machine "vendor-qemu.img" &&
    metadataDiskExists contents v options.machine kMetadataDisk

/-- `macmu_create_default_machine` -/
def createDefaultMachine : Call α :=
  runAll <| runtimeDirectories options ++
    [check (systemImageExists contents options),
      ensureDirectory options.machine,
      writeTextFile contents options.home options.iniName options.rootIni,
      writeTextFile contents options.machine "config.ini" options.configIniFor,
      replaceWithSymlink (options.system ++ ["system-qemu.img"]) options.machine "system-qemu.img",
      replaceWithSymlink (options.system ++ ["vendor-qemu.img"]) options.machine "vendor-qemu.img",
      ensureMetadataDisk contents options.system options.machine kMetadataDisk,
      ensureSizedFile contents options.machine "cache.img" kCacheSize]

end Calls

end DefaultMachine
end MacMu
