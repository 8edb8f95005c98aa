import Mathlib.Tactic.Common

/-!
The emulator's display table as `MultiDisplay.cpp` keeps it, and the path of
`setMultiDisplay` through `createDisplay`, `setDisplayPose` and
`destroyDisplay`. The header with the limits and the default entry is not part
of the repository; what the code takes from it is `Header`. Window positions,
recording, adb broadcasts and change notifications are left out: no decision
here reads them. `resolveStackedLayout` moves displays only.
-/

namespace MacMu
namespace MultiDisplay

open Std

structure MultiDisplayInfo where
  width : UInt32
  height : UInt32
  originalWidth : UInt32
  originalHeight : UInt32
  dpi : UInt32
  flag : UInt32
  cb : UInt32
  enabled : Bool
  deriving DecidableEq, Repr

/-- What the code takes from `host-common/MultiDisplay.h`: the limits and the
entry that a default constructed `MultiDisplayInfo` is. -/
structure Header where
  maxNumMultiDisplay : UInt32
  displayIdInternalBegin : UInt32
  invalidIdMultiDisplay : UInt32
  defaultInfo : MultiDisplayInfo

inductive AvdFlavor where
  | tv
  | wear
  | androidAuto
  | other
  deriving DecidableEq, Repr

structure AvdInfo where
  flavor : AvdFlavor
  isDesktopApi36OrHigher : Bool
  apiLevel : Nat
  deriving DecidableEq, Repr

inductive SkinRotation where
  | rotation0
  | rotation90
  | rotation180
  | rotation270
  deriving DecidableEq, Repr

/-- Everything `setMultiDisplay` asks of the rest of the emulator during one
call. `pipe` is whether `MultiDisplayPipe::getInstance()` is there when the
request is to be sent. -/
structure Environment where
  multiDisplayFeature : Bool
  anyFoldedAreaConfigured : Bool
  resizableEnabled : Bool
  avdInfo : Option AvdInfo
  orientation : SkinRotation
  hotPlugDisplayEnabled : Bool
  isMultiDisplayWindow : Bool
  isPixelFold : Bool
  isFolded : Bool
  pixelFoldSecondDisplayId : UInt32
  pipe : Bool
  deriving DecidableEq, Repr

def Environment.flavor (env : Environment) : AvdFlavor :=
  (env.avdInfo.map AvdInfo.flavor).getD .other

structure State where
  mMultiDisplay : ExtTreeMap UInt32 MultiDisplayInfo
  mGuestMode : Bool

def ENODEV : Int := 19
def EINVAL : Int := 22
def EPIPE : Int := 32
def ENOSYS : Int := 78

namespace DisplayManager

def VIRTUAL_DISPLAY_FLAG_PUBLIC : UInt32 := (1 : UInt32) <<< 0
def VIRTUAL_DISPLAY_FLAG_PRESENTATION : UInt32 := (1 : UInt32) <<< 1
def VIRTUAL_DISPLAY_FLAG_OWN_CONTENT_ONLY : UInt32 := (1 : UInt32) <<< 3
def VIRTUAL_DISPLAY_FLAG_SUPPORTS_TOUCH : UInt32 := (1 : UInt32) <<< 6
def VIRTUAL_DISPLAY_FLAG_ROTATES_WITH_CONTENT : UInt32 := (1 : UInt32) <<< 7
def VIRTUAL_DISPLAY_FLAG_DESTROY_CONTENT_ON_REMOVAL : UInt32 := (1 : UInt32) <<< 8
def VIRTUAL_DISPLAY_FLAG_SHOULD_SHOW_SYSTEM_DECORATIONS : UInt32 := (1 : UInt32) <<< 9
def VIRTUAL_DISPLAY_FLAG_TRUSTED : UInt32 := (1 : UInt32) <<< 10
def VIRTUAL_DISPLAY_FLAG_ALLOWS_CONTENT_MODE_SWITCH : UInt32 := (1 : UInt32) <<< 17

end DisplayManager

open DisplayManager

def DEFAULT_FLAGS_AUTO : UInt32 :=
  VIRTUAL_DISPLAY_FLAG_PUBLIC ||| VIRTUAL_DISPLAY_FLAG_OWN_CONTENT_ONLY |||
    VIRTUAL_DISPLAY_FLAG_ROTATES_WITH_CONTENT ||| VIRTUAL_DISPLAY_FLAG_TRUSTED |||
    VIRTUAL_DISPLAY_FLAG_SUPPORTS_TOUCH |||
    VIRTUAL_DISPLAY_FLAG_SHOULD_SHOW_SYSTEM_DECORATIONS |||
    VIRTUAL_DISPLAY_FLAG_DESTROY_CONTENT_ON_REMOVAL

def DEFAULT_FLAGS_AUTO_CLUSTER : UInt32 :=
  VIRTUAL_DISPLAY_FLAG_OWN_CONTENT_ONLY ||| VIRTUAL_DISPLAY_FLAG_TRUSTED |||
    VIRTUAL_DISPLAY_FLAG_SUPPORTS_TOUCH ||| VIRTUAL_DISPLAY_FLAG_DESTROY_CONTENT_ON_REMOVAL

def DEFAULT_FLAGS_DESKTOP : UInt32 :=
  VIRTUAL_DISPLAY_FLAG_PUBLIC ||| VIRTUAL_DISPLAY_FLAG_TRUSTED |||
    VIRTUAL_DISPLAY_FLAG_ALLOWS_CONTENT_MODE_SWITCH ||| VIRTUAL_DISPLAY_FLAG_SUPPORTS_TOUCH |||
    VIRTUAL_DISPLAY_FLAG_PRESENTATION

def DEFAULT_FLAGS_SINCE_S : UInt32 :=
  VIRTUAL_DISPLAY_FLAG_PUBLIC ||| VIRTUAL_DISPLAY_FLAG_OWN_CONTENT_ONLY |||
    VIRTUAL_DISPLAY_FLAG_ROTATES_WITH_CONTENT ||| VIRTUAL_DISPLAY_FLAG_TRUSTED |||
    VIRTUAL_DISPLAY_FLAG_SUPPORTS_TOUCH |||
    VIRTUAL_DISPLAY_FLAG_SHOULD_SHOW_SYSTEM_DECORATIONS ||| VIRTUAL_DISPLAY_FLAG_PRESENTATION

def getDefaultFlagsForDisplay (displayId : UInt32) : UInt32 :=
  if displayId = 1 then DEFAULT_FLAGS_AUTO_CLUSTER else DEFAULT_FLAGS_AUTO

def effectiveFlag (env : Environment) (id flag : UInt32) : UInt32 :=
  if flag = 0 then
    match env.avdInfo with
    | none => flag
    | some avd =>
      if avd.flavor = .androidAuto then getDefaultFlagsForDisplay id
      else if avd.isDesktopApi36OrHigher then DEFAULT_FLAGS_DESKTOP
      else if 31 ≤ avd.apiLevel then DEFAULT_FLAGS_SINCE_S
      else flag
  else flag

def multiDisplayParamValidate (header : Header) (id w h dpi : UInt32) : Bool :=
  if dpi < 120 || 640 < dpi then false
  else if w < 320 * dpi / 160 || h < 320 * dpi / 160 then false
  else if !((w ≤ 7680 && h ≤ 4320) || (w ≤ 4320 && h ≤ 7680)) then false
  else !(header.maxNumMultiDisplay < id)

/-- `mMultiDisplay[id]` on a missing key puts a default entry there. -/
def touch (header : Header) (id : UInt32) (m : ExtTreeMap UInt32 MultiDisplayInfo) :
    ExtTreeMap UInt32 MultiDisplayInfo :=
  m.insertIfNew id header.defaultInfo

def performRotationLocked (header : Header) (env : Environment)
    (m : ExtTreeMap UInt32 MultiDisplayInfo) : ExtTreeMap UInt32 MultiDisplayInfo :=
  if env.isPixelFold then touch header 0 m
  else if env.orientation = .rotation90 ∨ env.orientation = .rotation270 then
    m.map fun _ info => { info with width := info.originalHeight, height := info.originalWidth }
  else
    m.map fun _ info => { info with width := info.originalWidth, height := info.originalHeight }

/-- The sizes go to the window; on a folding device reading them touches the
primary display. -/
def getCombinedDisplaySizeLocked (header : Header) (env : Environment)
    (m : ExtTreeMap UInt32 MultiDisplayInfo) : ExtTreeMap UInt32 MultiDisplayInfo :=
  if env.isPixelFold && !(env.isFolded && m.contains env.pixelFoldSecondDisplayId) then
    touch header 0 m
  else m

def createDisplay (header : Header) (s : State) (id : UInt32) : Int × UInt32 × State :=
  if s.mGuestMode then (-ENOSYS, id, s)
  else if header.maxNumMultiDisplay.toNat < s.mMultiDisplay.size then (-EINVAL, id, s)
  else if s.mMultiDisplay.contains id then (0, id, s)
  else
    let internal := (List.range header.maxNumMultiDisplay.toNat).find? fun i =>
      header.displayIdInternalBegin.toNat ≤ i && !s.mMultiDisplay.contains (UInt32.ofNat i)
    let id := if id = header.invalidIdMultiDisplay then
      (internal.map UInt32.ofNat).getD id else id
    if id = header.invalidIdMultiDisplay then (-EINVAL, id, s)
    else
      -- std::map::emplace leaves an entry that is already there
      (0, id, { s with mMultiDisplay := s.mMultiDisplay.insertIfNew id header.defaultInfo })

def destroyDisplay (header : Header) (env : Environment) (s : State) (displayId : UInt32) :
    Int × State :=
  if s.mGuestMode then (-ENOSYS, s)
  else
    match s.mMultiDisplay[displayId]? with
    | none => (0, s)
    | some info =>
      let m := s.mMultiDisplay.erase displayId
      if info.cb ≠ 0 ∧ env.isMultiDisplayWindow = false then
        let m := getCombinedDisplaySizeLocked header env (performRotationLocked header env m)
        (0, { s with mMultiDisplay := m })
      else (0, { s with mMultiDisplay := m })

def MultiDisplayInfo.pose (info : MultiDisplayInfo) (w h dpi flag : UInt32) : MultiDisplayInfo :=
  { info with width := w, height := h, originalWidth := w, originalHeight := h,
              dpi := dpi, flag := flag }

def setDisplayPose (header : Header) (env : Environment) (s : State) (displayId : UInt32)
    (x y : Int) (w h dpi flag : UInt32) : Int × State :=
  if s.mGuestMode then (-ENOSYS, s)
  else
    match s.mMultiDisplay[displayId]? with
    | none => (-EINVAL, s)
    | some info =>
      let m := s.mMultiDisplay.insert displayId (info.pose w h dpi flag)
      if info.cb ≠ 0 ∧ env.isMultiDisplayWindow = false then
        let m := if x = -1 ∧ y = -1 then performRotationLocked header env m else m
        (0, { s with mMultiDisplay := getCombinedDisplaySizeLocked header env m })
      else (0, { s with mMultiDisplay := m })

/-- The checks `setMultiDisplay` makes before it touches anything. -/
def refusal (header : Header) (env : Environment) (s : State) (id w h dpi : UInt32)
    (add : Bool) : Option Int :=
  if env.multiDisplayFeature = false then some (-ENODEV)
  else if env.anyFoldedAreaConfigured then some (-ENOSYS)
  else if env.resizableEnabled then some (-ENOSYS)
  else if env.flavor = .tv ∨ env.flavor = .wear then some (-ENOSYS)
  else if s.mGuestMode then some (-ENOSYS)
  else if add && !multiDisplayParamValidate header id w h dpi then some (-EINVAL)
  else if env.orientation ≠ .rotation0 then some (-EINVAL)
  else none

/-- The table work of `setMultiDisplay`; `hotPlugDisplayEnabled` has been ruled
out. -/
def applyToTable (header : Header) (env : Environment) (s : State) (id : UInt32)
    (x y : Int) (w h dpi flag : UInt32) (add : Bool) : Int × State :=
  if add then
    match createDisplay header s id with
    | (0, id, s) => setDisplayPose header env s id x y w h dpi flag
    | (ret, _, s) => (ret, s)
  else destroyDisplay header env s id

def setMultiDisplay (header : Header) (env : Environment) (s : State) (id : UInt32)
    (x y : Int) (w h dpi flag : UInt32) (add : Bool) : Int × State :=
  match refusal header env s id w h dpi add with
  | some ret => (ret, s)
  | none =>
    let flag := effectiveFlag env id flag
    -- the hot-plug path hands the request to the VM and keeps no table
    if env.hotPlugDisplayEnabled then (0, s)
    else
      match applyToTable header env s id x y w h dpi flag add with
      | (0, s) => (if env.pipe then 0 else -EPIPE, s)
      | (ret, s) => (ret, s)

def getMultiDisplay (s : State) (id : UInt32) : Bool :=
  match s.mMultiDisplay[id]? with
  | none => false
  | some info => info.enabled

/-- The first display from the one after `startId` on, in the order of the
ids. The sum wraps as it does on the machine. -/
def getNextMultiDisplay (s : State) (startId : Int32) : Option (UInt32 × MultiDisplayInfo) :=
  let key := if startId < 0 then 0 else (startId + 1).toUInt32
  -- std::map::lower_bound
  s.mMultiDisplay.toList.find? fun entry => key ≤ entry.1

end MultiDisplay
end MacMu
