import MacMu.Core.DefaultMachine

/-!
`parse_options`. What it finds outside of the command line is in `Host`: the
environment, which files exist, the directory of the executable, the working directory
and the process id. `argv` is given without the name of the program.

The texts of `ShellOptions` are all treated alike: each has the environment variables it is
first read from, a default and the option that replaces it. `Setting` names them as the
structure does and says the variables, the default and the option of each. What is printed
about an option without its value is left out.
-/

namespace MacMu
namespace ShellOptions

open DefaultMachine (pathJoin)

structure Host where
  getenv : String → Option String
  fileExists : String → Bool
  /-- empty where it is not known -/
  executableDirectory : String
  workingDirectory : String
  pid : Nat

def kQemuHeadlessRelativePath : String := "qemu/darwin-aarch64/qemu-system-aarch64-headless"

def kDefaultAvdName : String := "macmu_aosp16_arm64"

def kInputSocketEnv : String := "MACMU_INPUT_SOCKET_PATH"

def directoryName (path : String) : String :=
  match path.toList.reverse.dropWhile (· ≠ '/') with
  | [] => "."
  | [_] => "/"
  | _ :: directory => String.ofList directory.reverse

def baseName (path : String) : String :=
  String.ofList (path.toList.reverse.takeWhile (· ≠ '/')).reverse

section Defaults

variable (host : Host)

/-- An empty variable does not count. -/
def envOrDefault (name fallback : String) : String :=
  match host.getenv name with
  | some value => if value = "" then fallback else value
  | none => fallback

def envBoolOrDefault (name legacyName : String) (fallback : Bool) : Bool :=
  let value := (envOrDefault host name
    (envOrDefault host legacyName (if fallback then "1" else "0"))).toLower
  value != "0" && value != "false" && value != "no" && value != "off"

def defaultAppDataDir : String :=
  match host.getenv "HOME" with
  | some home => if home = "" then "MacMuData" else pathJoin (pathJoin home "Library") "MacMu"
  | none => "MacMuData"

def holdsQemu (directory : String) : Bool :=
  host.fileExists (pathJoin directory kQemuHeadlessRelativePath)

def defaultLauncherDir : String :=
  let executableDir := host.executableDirectory
  let contentsDir := directoryName executableDir
  let bundledDist := pathJoin contentsDir "Resources/emulator"
  let siblingDist := pathJoin (directoryName executableDir) "distribution/emulator"
  let repoDist := pathJoin host.workingDirectory "build/cmake/distribution/emulator"
  if executableDir ≠ "" ∧ holdsQemu host executableDir = true then executableDir
  else if baseName executableDir = "MacOS" ∧ baseName contentsDir = "Contents" ∧
      holdsQemu host bundledDist = true then bundledDist
  else if executableDir ≠ "" ∧ holdsQemu host siblingDist = true then siblingDist
  else if host.workingDirectory ≠ "" ∧ holdsQemu host repoDist = true then repoDist
  else if executableDir = "" then "." else executableDir

def defaultAvdHome (appDataDir : String) : String := pathJoin appDataDir "avd"

def defaultSystemPath (appDataDir : String) : String := pathJoin appDataDir "images/aosp16-arm64"

def defaultQemuPath (launcherDir : String) : String :=
  pathJoin launcherDir kQemuHeadlessRelativePath

def defaultDyldLibraryPath (launcherDir : String) : String :=
  let lib64 := pathJoin launcherDir "lib64"
  lib64 ++ ":" ++ pathJoin lib64 "gles_angle" ++ ":" ++ pathJoin lib64 "vulkan"

def ifExists (path : String) : String := if host.fileExists path then path else ""

def defaultGuestRamdiskOverlayPath (launcherDir : String) : String :=
  ifExists host (pathJoin launcherDir "lib/macmu-guest-overlay.img")

def defaultGuestRamdiskPath (_launcherDir : String) : String := ""

def defaultGuestAgentImagePath (launcherDir : String) : String :=
  ifExists host (pathJoin launcherDir "lib/macmu-agent.img")

def defaultGuestRpcSocketPath : String := "/tmp/macmu.rpc." ++ toString host.pid ++ ".sock"

def defaultGuestCtrlSocketPath : String := "/tmp/macmu.ctrl." ++ toString host.pid ++ ".sock"

end Defaults

/-- The texts of `ShellOptions`. -/
inductive Setting where
  | appDataDir
  | avdHome
  | launcherDir
  | qemuPath
  | dyldLibraryPath
  | inputSocketPath
  | systemPath
  | imageImportSource
  | guestRpcSocketPath
  | guestCtrlSocketPath
  | guestAgentImagePath
  | guestRamdiskOverlayPath
  | guestRamdiskPath
  | avdName
  deriving DecidableEq, Repr

namespace Setting

def option : Setting → String
  | launcherDir => "--launcher-dir"
  | appDataDir => "--app-data-dir"
  | avdHome => "--avd-home"
  | qemuPath => "--qemu"
  | dyldLibraryPath => "--dyld-library-path"
  | inputSocketPath => "--input-socket"
  | systemPath => "--system-path"
  | imageImportSource => "--import-image"
  | guestRpcSocketPath => "--guest-rpc-socket"
  | guestCtrlSocketPath => "--guest-ctrl-socket"
  | guestAgentImagePath => "--guest-agent-image"
  | guestRamdiskOverlayPath => "--guest-ramdisk-overlay"
  | guestRamdiskPath => "--guest-ramdisk"
  | avdName => "--avd"

def all : List Setting :=
  [launcherDir, appDataDir, avdHome, qemuPath, dyldLibraryPath, inputSocketPath, systemPath,
    imageImportSource, guestRpcSocketPath, guestCtrlSocketPath, guestAgentImagePath,
    guestRamdiskOverlayPath, guestRamdiskPath, avdName]

def ofOption (arg : String) : Option Setting := all.find? fun setting => setting.option == arg

/-- A variable and its legacy name. -/
def names (name : String) : List String := ["MACMU_" ++ name, "AEMU_SHELL_" ++ name]

/-- In the order in which they are asked. -/
def envNames : Setting → List String
  | appDataDir => names "APP_DATA_DIR"
  | avdHome => names "AVD_HOME" ++ ["ANDROID_AVD_HOME"]
  | launcherDir => names "LAUNCHER_DIR"
  | qemuPath => names "QEMU_PATH"
  | dyldLibraryPath => names "DYLD_LIBRARY_PATH"
  | inputSocketPath => [kInputSocketEnv]
  | systemPath => names "SYSTEM_PATH"
  | imageImportSource => names "IMPORT_IMAGE"
  | guestRpcSocketPath => names "GUEST_RPC_SOCKET"
  | guestCtrlSocketPath => names "GUEST_CTRL_SOCKET"
  | guestAgentImagePath => names "GUEST_AGENT_IMAGE"
  | guestRamdiskOverlayPath => names "GUEST_RAMDISK_OVERLAY"
  | guestRamdiskPath => names "GUEST_RAMDISK"
  | avdName => names "AVD_NAME"

/-- The directory that the default is derived from. -/
def directory : Setting → Option Setting
  | avdHome | systemPath => some appDataDir
  | qemuPath | dyldLibraryPath | guestAgentImagePath | guestRamdiskOverlayPath
  | guestRamdiskPath => some launcherDir
  | _ => none

def default (host : Host) (setting : Setting) (directory : String) : String :=
  match setting with
  | appDataDir => defaultAppDataDir host
  | avdHome => defaultAvdHome directory
  | launcherDir => defaultLauncherDir host
  | qemuPath => defaultQemuPath directory
  | dyldLibraryPath => defaultDyldLibraryPath directory
  | inputSocketPath | imageImportSource => ""
  | systemPath => defaultSystemPath directory
  | guestRpcSocketPath => defaultGuestRpcSocketPath host
  | guestCtrlSocketPath => defaultGuestCtrlSocketPath host
  | guestAgentImagePath => defaultGuestAgentImagePath host directory
  | guestRamdiskOverlayPath => defaultGuestRamdiskOverlayPath host directory
  | guestRamdiskPath => defaultGuestRamdiskPath directory
  | avdName => kDefaultAvdName

section Environment

variable (host : Host)

/-- `env_or_default` over the variables. -/
def fromEnvironment (setting : Setting) (directory : String) : String :=
  setting.envNames.foldr (envOrDefault host) (setting.default host directory)

/-- The text before the command line is read. -/
def initialText (setting : Setting) : String :=
  match setting.directory with
  | none => setting.fromEnvironment host ""
  | some directory => setting.fromEnvironment host (directory.fromEnvironment host "")

/-- An empty variable does count. -/
def isSet (setting : Setting) : Bool :=
  setting.envNames.any fun name => (host.getenv name).isSome

end Environment

end Setting

/-- `ShellOptions` -/
@[ext]
structure Options where
  texts : Setting → String
  autoImportDefaultImage : Bool
  wipeData : Bool

/-- `overridden` has the flags `qemu_path_overridden` and so on. Those of a setting that is
not derived from a directory are never read. -/
@[ext]
structure State where
  options : Options
  overridden : Setting → Bool

def initialState (host : Host) : State where
  options :=
    { texts := Setting.initialText host
      autoImportDefaultImage :=
        envBoolOrDefault host "MACMU_AUTO_IMPORT_IMAGE" "AEMU_SHELL_AUTO_IMPORT_IMAGE" false
      wipeData := false }
  overridden := Setting.isSet host

inductive Flag where
  | autoImageImport
  | noAutoImageImport
  | wipeData
  deriving DecidableEq, Repr

def Flag.option : Flag → String
  | autoImageImport => "--auto-image-import"
  | noAutoImageImport => "--no-auto-image-import"
  | wipeData => "--wipe-data"

def Flag.ofOption (arg : String) : Option Flag :=
  [autoImageImport, noAutoImageImport, wipeData].find? fun flag => flag.option == arg

namespace State

/-- An option with its value. What is derived from it follows unless it is overridden. -/
def set (host : Host) (s : State) (setting : Setting) (value : String) : State where
  options :=
    { s.options with
      texts := fun other =>
        if other = setting then value
        else if other.directory = some setting ∧ s.overridden other = false then
          other.default host value
        else s.options.texts other }
  overridden := fun other => if other = setting then true else s.overridden other

def flag (s : State) : Flag → State
  | .autoImageImport => { s with options := { s.options with autoImportDefaultImage := true } }
  | .noAutoImageImport => { s with options := { s.options with autoImportDefaultImage := false } }
  | .wipeData => { s with options := { s.options with wipeData := true } }

/-- The loop over the arguments. A word that is no option is passed over. -/
def parse (host : Host) (s : State) : List String → State
  | [] => s
  | arg :: rest =>
    match Setting.ofOption arg with
    | some setting =>
      match rest with
      | [] => s
      | value :: rest => parse host (s.set host setting value) rest
    | none =>
      match Flag.ofOption arg with
      | some flag => parse host (s.flag flag) rest
      | none => parse host s rest

end State

def parseOptions (host : Host) (argv : List String) : Options :=
  (State.parse host (initialState host) argv).options

end ShellOptions
end MacMu
