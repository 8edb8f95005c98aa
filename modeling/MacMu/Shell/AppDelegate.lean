import MacMu.Core.ControlRoundTrip

/-!
The main-queue state of `MacMuAppDelegate` and the methods that change it. A
method is a function on the state; what it hands to the control channel, to the
guest agent or to a delayed block goes to `outbox` with the values the
completion captures. Flags owned by other threads are read through
`Surroundings`, one field for each method that reads them, since they may
change between two reads of one block. Window contents, menus, status texts and
the catalogue of applications are left out.
-/

namespace MacMu

open Std ControlProtocol

structure DisplayLaunchProfile where
  title : String
  width : UInt32
  height : UInt32
  dpi : UInt32
  deriving DecidableEq, Repr

inductive Effect where
  | launchDisplayAdd (request : ControlDisplayAdd) (component packageName : String)
  /-- DISPLAY_ADD of a resize; the completion restores `previous` on failure. -/
  | resizeDisplayAdd (request : ControlDisplayAdd) (previous : DisplayLaunchProfile)
  | displayRemove (displayId : UInt32)
  | displayStream (request : ControlDisplayStream)
  | launchHandoff (component packageName : String) (displayId : UInt32)
  | guestLaunch (component : String) (displayId : UInt32)
  /-- `close` sent for a window that was closed. -/
  | guestClose (component packageName : String) (displayId : UInt32)
  /-- `close` sent to clean up after a failed launch. -/
  | guestCleanup (component : String) (displayId : UInt32)
  | guestDisplayState (displayId : UInt32)
  | guestUninstall (packageName : String)
  deriving DecidableEq, Repr

/-- The flags and readings a block takes from outside the main queue. A field
is named after the method that reads it. -/
structure Surroundings where
  /-- `requestDisplayRemove:` finds a control channel that is alive. -/
  removeChannelAlive : UInt32 → Bool
  /-- `requestDisplayRemove:` finds `currentQemuPid` above zero. -/
  removeQemuRunning : UInt32 → Bool
  launchChannelAlive : Bool
  resizeChannelAlive : Bool
  /-- `setDisplayStreaming:enabled:` finds a channel that is ready. -/
  streamChannelReady : UInt32 → Bool → Bool
  maximumFramesPerSecond : UInt32 → UInt32
  closeGuestReady : Bool
  cleanupGuestReady : UInt32 → Bool
  launchGuestReady : Bool
  pollGuestReady : Bool
  uninstallGuestReady : Bool
  /-- The guest client is ready and the catalogue of applications is shown. -/
  installReady : Bool
  canPresent : Bool
  keyDisplay : UInt32
  visible : UInt32 → Bool
  now : Nat

def upSurroundings : Surroundings where
  removeChannelAlive := fun _ => true
  removeQemuRunning := fun _ => true
  launchChannelAlive := true
  resizeChannelAlive := true
  streamChannelReady := fun _ _ => true
  maximumFramesPerSecond := fun _ => 60
  closeGuestReady := true
  cleanupGuestReady := fun _ => true
  launchGuestReady := true
  pollGuestReady := true
  uninstallGuestReady := true
  installReady := true
  canPresent := true
  keyDisplay := 1
  visible := fun _ => true
  now := 0

structure AppDelegate where
  displayWindows : ExtTreeSet UInt32 := ∅
  suppressRemoveOnClose : ExtTreeSet UInt32 := ∅
  displayAppBindings : ExtTreeMap UInt32 String := ∅
  appDisplayBindings : ExtTreeMap String UInt32 := ∅
  pendingAppPackages : ExtTreeSet String := ∅
  launchRequestsInFlight : ExtTreeSet String := ∅
  closingAppPackages : ExtTreeSet String := ∅
  uninstallingAppPackages : ExtTreeSet String := ∅
  closingLaunchFailures : ExtTreeMap UInt32 String := ∅
  deferredLaunchCleanup : ExtTreeMap UInt32 String := ∅
  displayLaunchProfiles : ExtTreeMap UInt32 DisplayLaunchProfile := ∅
  screenMatchedDisplayIds : ExtTreeSet UInt32 := ∅
  displayResizePending : ExtTreeSet UInt32 := ∅
  orientationPollInFlight : ExtTreeSet UInt32 := ∅
  orientationSyncSuppressedUntil : ExtTreeMap UInt32 Nat := ∅
  displayRemovalPending : ExtTreeSet UInt32 := ∅
  activeUserDisplayIds : ExtTreeSet UInt32 := ∅
  pendingApkInstalls : Nat := 0
  agentConnected : Bool := false
  shuttingDown : Bool := false
  outbox : List Effect := []

def kMaxUserDisplayId : UInt32 := 5

/-- PUBLIC, PRESENTATION, OWN_CONTENT_ONLY, SUPPORTS_TOUCH, ROTATES_WITH_CONTENT
and TRUSTED. -/
def kNewDisplayFlags : UInt32 := 0x1 ||| 0x2 ||| 0x8 ||| 0x40 ||| 0x80 ||| 0x400

def kOrientationResizeSettleTime : Nat := 2000

def packageFromComponent (component : String) : String :=
  String.ofList (component.toList.takeWhile (· ≠ '/'))

namespace AppDelegate

variable (env : Surroundings) (s : AppDelegate)

def send (e : Effect) : AppDelegate := { s with outbox := s.outbox ++ [e] }

def focusedApplicationDisplayId : UInt32 :=
  if s.displayWindows.contains env.keyDisplay then env.keyDisplay else 0

/-- The smallest user id that is neither active nor awaiting its removal. -/
def freeUserDisplayId : Option UInt32 :=
  [1, 2, 3, 4, 5].find? fun candidate =>
    !s.activeUserDisplayIds.contains candidate && !s.displayRemovalPending.contains candidate

def allocateUserDisplayId : UInt32 × AppDelegate :=
  match s.freeUserDisplayId with
  | some candidate =>
    (candidate, { s with activeUserDisplayIds := s.activeUserDisplayIds.insert candidate })
  | none => (0, s)

def releaseUserDisplayId (displayId : UInt32) : AppDelegate :=
  if displayId ≠ 0 then
    { s with activeUserDisplayIds := s.activeUserDisplayIds.erase displayId }
  else s

def setDisplayStreaming (displayId : UInt32) (enabled : Bool) : AppDelegate :=
  if env.streamChannelReady displayId enabled then
    let fps := if s.displayWindows.contains displayId then
      env.maximumFramesPerSecond displayId else 60
    s.send (.displayStream ⟨displayId, if enabled then 1 else 0, fps⟩)
  else s

def unbindApplicationFromDisplay (displayId : UInt32) : AppDelegate :=
  match s.displayAppBindings[displayId]? with
  | none => s
  | some component =>
    let packageName := packageFromComponent component
    { s with
      appDisplayBindings :=
        if s.appDisplayBindings[packageName]? = some displayId then
          s.appDisplayBindings.erase packageName
        else s.appDisplayBindings
      pendingAppPackages := s.pendingAppPackages.erase packageName
      launchRequestsInFlight := s.launchRequestsInFlight.erase packageName
      closingAppPackages := s.closingAppPackages.erase packageName
      closingLaunchFailures := s.closingLaunchFailures.erase displayId
      deferredLaunchCleanup := s.deferredLaunchCleanup.erase displayId
      displayLaunchProfiles := s.displayLaunchProfiles.erase displayId
      screenMatchedDisplayIds := s.screenMatchedDisplayIds.erase displayId
      displayResizePending := s.displayResizePending.erase displayId
      orientationPollInFlight := s.orientationPollInFlight.erase displayId
      orientationSyncSuppressedUntil := s.orientationSyncSuppressedUntil.erase displayId
      displayAppBindings := s.displayAppBindings.erase displayId }

def requestDisplayRemove (displayId : UInt32) : AppDelegate :=
  if displayId = 0 ∨ kMaxUserDisplayId < displayId ∨ displayId ∈ s.displayRemovalPending then s
  else
    let marked := { s with displayRemovalPending := s.displayRemovalPending.insert displayId }
    if env.removeChannelAlive displayId then marked.send (.displayRemove displayId)
    else if env.removeQemuRunning displayId then marked
    else
      let gone := { marked with
        displayRemovalPending := marked.displayRemovalPending.erase displayId }
      (gone.unbindApplicationFromDisplay displayId).releaseUserDisplayId displayId

/-- The geometry only shapes the window; see the call sites for it. -/
def openDisplayWindowForDisplay (displayId : UInt32) : AppDelegate :=
  if s.shuttingDown ∨ displayId = 0 ∨ kMaxUserDisplayId < displayId then s
  else
    match s.displayAppBindings[displayId]? with
    | none => s
    | some component =>
      if packageFromComponent component ∈ s.closingAppPackages ∨
          displayId ∈ s.displayRemovalPending then s
      else if env.canPresent = false then s
      else if displayId ∈ s.displayWindows then s.setDisplayStreaming env displayId true
      else
        let opened := { s with
          displayWindows := s.displayWindows.insert displayId
          activeUserDisplayIds := s.activeUserDisplayIds.insert displayId }
        opened.setDisplayStreaming env displayId true

def closeBoundAppAndRemoveDisplay (displayId : UInt32) : AppDelegate :=
  if s.shuttingDown then s
  else
    match s.displayAppBindings[displayId]? with
    | none => s.requestDisplayRemove env displayId
    | some component =>
      let packageName := packageFromComponent component
      let wasPending := s.pendingAppPackages.contains packageName
      let launchWasSent := s.launchRequestsInFlight.contains packageName
      let closing := { s with
        pendingAppPackages := s.pendingAppPackages.erase packageName
        launchRequestsInFlight := s.launchRequestsInFlight.erase packageName
        closingLaunchFailures := s.closingLaunchFailures.erase displayId
        closingAppPackages := s.closingAppPackages.insert packageName }
      if wasPending && !launchWasSent then closing.requestDisplayRemove env displayId
      else if env.closeGuestReady = false then
        let kept := { closing with
          closingAppPackages := closing.closingAppPackages.erase packageName }
        kept.openDisplayWindowForDisplay env displayId
      else closing.send (.guestClose component packageName displayId)

/-- `windowWillClose:` for the window of `displayId`. -/
def windowWillClose (displayId : UInt32) : AppDelegate :=
  if s.shuttingDown then s
  else if displayId ∉ s.displayWindows then s
  else
    let s := s.setDisplayStreaming env displayId false
    let s := { s with displayWindows := s.displayWindows.erase displayId }
    if displayId ∈ s.suppressRemoveOnClose then
      let s := { s with suppressRemoveOnClose := s.suppressRemoveOnClose.erase displayId }
      let s := s.unbindApplicationFromDisplay displayId
      if displayId ∈ s.displayRemovalPending then s else s.releaseUserDisplayId displayId
    else s.closeBoundAppAndRemoveDisplay env displayId

/-- `[window close]` for a window whose closing must not remove its display. -/
def closeSuppressed (displayId : UInt32) : AppDelegate :=
  let s := { s with suppressRemoveOnClose := s.suppressRemoveOnClose.insert displayId }
  s.windowWillClose env displayId

def rollbackApplicationDisplay (displayId : UInt32) : AppDelegate :=
  let s := s.unbindApplicationFromDisplay displayId
  let s := s.requestDisplayRemove env displayId
  if displayId ∈ s.displayWindows then s.closeSuppressed env displayId else s

def cleanupFailedLaunchForDisplay (displayId : UInt32) (component : String) : AppDelegate :=
  if s.shuttingDown then s
  else if s.displayAppBindings[displayId]? ≠ some component then s
  else
    let packageName := packageFromComponent component
    let s := { s with
      pendingAppPackages := s.pendingAppPackages.erase packageName
      launchRequestsInFlight := s.launchRequestsInFlight.erase packageName
      closingAppPackages := s.closingAppPackages.insert packageName
      deferredLaunchCleanup := s.deferredLaunchCleanup.insert displayId component }
    if env.cleanupGuestReady displayId then s.send (.guestCleanup component displayId) else s

def launchComponent (component : String) (displayId : UInt32) : AppDelegate :=
  if s.shuttingDown then s
  else if env.launchGuestReady then s.send (.guestLaunch component displayId)
  else s.cleanupFailedLaunchForDisplay env displayId component

def resizeDisplay (displayId width height dpi : UInt32) : AppDelegate :=
  if s.shuttingDown ∨ displayId = 0 ∨ kMaxUserDisplayId < displayId ∨ width = 0 ∨ height = 0 ∨
      dpi = 0 ∨ displayId ∈ s.displayResizePending ∨ displayId ∈ s.displayRemovalPending ∨
      displayId ∉ s.displayAppBindings then s
  else
    match s.displayLaunchProfiles[displayId]? with
    | none => s
    | some previous =>
      if previous.width = width ∧ previous.height = height ∧ previous.dpi = dpi then s
      else if env.resizeChannelAlive = false then s
      else
        let s := { s with
          displayLaunchProfiles := s.displayLaunchProfiles.insert displayId
            ⟨previous.title, width, height, dpi⟩
          displayResizePending := s.displayResizePending.insert displayId
          orientationSyncSuppressedUntil := s.orientationSyncSuppressedUntil.insert displayId
            (env.now + kOrientationResizeSettleTime) }
        s.send (.resizeDisplayAdd ⟨displayId, width, height, dpi, kNewDisplayFlags⟩ previous)

end AppDelegate
end MacMu
