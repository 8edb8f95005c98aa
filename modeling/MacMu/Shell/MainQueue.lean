import MacMu.Shell.AppDelegate
import MacMu.Lib.TransitionSystem

/-!
The blocks that run on the main queue: user actions, window notifications,
control events, the completions of control and guest requests, timers, and the
reset after the emulator exits. A block carries the values its closure
captured, and nothing ties them to the state it meets when it finally runs.
-/

namespace MacMu

open Std ControlProtocol ControlRoundTrip

namespace AppDelegate

variable (env : Surroundings) (s : AppDelegate)

def launchApplicationComponent (component : String) (profile : DisplayLaunchProfile)
    (matchesCurrentScreen : Bool) : AppDelegate :=
  if s.shuttingDown ∨ component = "" then s
  else
    let packageName := packageFromComponent component
    if s.uninstallingAppPackages.isEmpty = false then s
    else
      match s.appDisplayBindings[packageName]? with
      | some existing =>
        if packageName ∈ s.closingAppPackages ∨ existing ∈ s.displayRemovalPending then s
        else if existing ∈ s.displayWindows then s.setDisplayStreaming env existing true
        else s
      | none =>
        if 0 < s.pendingApkInstalls ∨ s.agentConnected = false ∨
            env.launchChannelAlive = false then s
        else
          match s.allocateUserDisplayId with
          | (displayId, s) =>
            if displayId = 0 then s
            else
              let bound := { s with
                displayAppBindings := s.displayAppBindings.insert displayId component
                appDisplayBindings := s.appDisplayBindings.insert packageName displayId
                pendingAppPackages := s.pendingAppPackages.insert packageName
                displayLaunchProfiles := s.displayLaunchProfiles.insert displayId profile
                screenMatchedDisplayIds :=
                  if matchesCurrentScreen then s.screenMatchedDisplayIds.insert displayId
                  else s.screenMatchedDisplayIds }
              bound.send (.launchDisplayAdd
                ⟨displayId, profile.width, profile.height, profile.dpi, kNewDisplayFlags⟩
                component packageName)

def launchAddResponse (component packageName : String) (displayId : UInt32)
    (response : Response) : AppDelegate :=
  if response.ok = false then
    if response.type = ControlMessageType.kError.code then
      (s.unbindApplicationFromDisplay displayId).releaseUserDisplayId displayId
    else s.rollbackApplicationDisplay env displayId
  else if response.payload.length < displayIdSize then s.rollbackApplicationDisplay env displayId
  else
    let okDisplayId := displayIdOfBytes response.payload
    if s.appDisplayBindings[packageName]? ≠ some displayId then
      s.requestDisplayRemove env okDisplayId
    else if okDisplayId ≠ displayId then
      (s.rollbackApplicationDisplay env displayId).requestDisplayRemove env okDisplayId
    else
      let s := s.openDisplayWindowForDisplay env okDisplayId
      if okDisplayId ∉ s.displayWindows then s.rollbackApplicationDisplay env okDisplayId
      else s.send (.launchHandoff component packageName okDisplayId)

/-- The block that runs 0.2 s after the window of a launch is up. -/
def launchHandoff (component packageName : String) (displayId : UInt32) : AppDelegate :=
  if s.displayAppBindings[displayId]? = some component ∧ packageName ∈ s.pendingAppPackages ∧
      packageName ∉ s.closingAppPackages then
    let s := { s with launchRequestsInFlight := s.launchRequestsInFlight.insert packageName }
    s.launchComponent env component displayId
  else s

/-- The failures that leave open whether the guest has started the task. -/
def ambiguousTransportFailure (payload : String) : Bool :=
  payload == "guest request timed out" || payload == "guest agent disconnected" ||
    payload == "guest control client stopped" || payload == "guest control write failed" ||
    payload == "guest agent not connected"

def launchResponse (component : String) (displayId : UInt32) (ok : Bool) (payload : String) :
    AppDelegate :=
  let packageName := packageFromComponent component
  let s := { s with launchRequestsInFlight := s.launchRequestsInFlight.erase packageName }
  if s.displayAppBindings[displayId]? ≠ some component then s
  else if packageName ∈ s.closingAppPackages then
    if !ok && !ambiguousTransportFailure payload then
      { s with closingLaunchFailures := s.closingLaunchFailures.insert displayId payload }
    else s
  else if ok = false then s.cleanupFailedLaunchForDisplay env displayId component
  else { s with pendingAppPackages := s.pendingAppPackages.erase packageName }

def closeResponse (component packageName : String) (displayId : UInt32) (ok : Bool) :
    AppDelegate :=
  if s.displayAppBindings[displayId]? ≠ some component then s
  else if ok then s.requestDisplayRemove env displayId
  else if displayId ∈ s.closingLaunchFailures then s.requestDisplayRemove env displayId
  else
    let s := { s with closingAppPackages := s.closingAppPackages.erase packageName }
    s.openDisplayWindowForDisplay env displayId

def cleanupResponse (component : String) (displayId : UInt32) (ok : Bool) : AppDelegate :=
  if s.deferredLaunchCleanup[displayId]? ≠ some component ∨
      s.displayAppBindings[displayId]? ≠ some component ∨ ok = false then s
  else
    let s := { s with deferredLaunchCleanup := s.deferredLaunchCleanup.erase displayId }
    s.rollbackApplicationDisplay env displayId

def resizeResponse (displayId : UInt32) (previous : DisplayLaunchProfile)
    (response : Response) : AppDelegate :=
  let accepted := response.ok && decide (displayIdSize ≤ response.payload.length) &&
    displayIdOfBytes response.payload == displayId
  let s := { s with displayResizePending := s.displayResizePending.erase displayId }
  if displayId ∉ s.displayAppBindings then
    { s with
      orientationSyncSuppressedUntil := s.orientationSyncSuppressedUntil.erase displayId }
  else if accepted then s
  else
    { s with
      displayLaunchProfiles := s.displayLaunchProfiles.insert displayId previous
      orientationSyncSuppressedUntil := s.orientationSyncSuppressedUntil.erase displayId }

def followEvent (event : ControlEventDisplay) : AppDelegate :=
  match s.displayLaunchProfiles[event.displayId]? with
  | none => s
  | some profile =>
    if 0 < event.width ∧ 0 < event.height ∧ 0 < event.dpi then
      { s with
        displayLaunchProfiles := s.displayLaunchProfiles.insert event.displayId
          ⟨profile.title, event.width, event.height, event.dpi⟩ }
    else s

def displayAdded (event : ControlEventDisplay) : AppDelegate :=
  if event.displayId ∉ s.displayAppBindings then s.requestDisplayRemove env event.displayId
  else (s.followEvent event).openDisplayWindowForDisplay env event.displayId

def displayRemoved (displayId : UInt32) : AppDelegate :=
  let s := { s with displayRemovalPending := s.displayRemovalPending.erase displayId }
  let s := s.unbindApplicationFromDisplay displayId
  if displayId ∈ s.displayWindows then s.closeSuppressed env displayId
  else s.releaseUserDisplayId displayId

def handleControlEvent (type : UInt16) (payload : List UInt8) : AppDelegate :=
  if s.shuttingDown then s
  else if type ≠ ControlMessageType.kEventDisplay.code ∨
      payload.length < ControlEventDisplay.size then s
  else
    let event := ControlEventDisplay.ofBytes payload
    if event.displayId = 0 ∨ kMaxUserDisplayId < event.displayId then s
    else if event.state = kControlDisplayAdded then s.displayAdded env event
    else if event.state = kControlDisplayRemoved then s.displayRemoved env event.displayId
    else s

def agentConnection (connected : Bool) : AppDelegate :=
  if s.shuttingDown then s
  else
    let s := { s with agentConnected := connected }
    if connected then
      s.deferredLaunchCleanup.toList.foldl
        (fun s cleanup => s.cleanupFailedLaunchForDisplay env cleanup.1 cleanup.2) s
    else s

def rotateFocusedApplication : AppDelegate :=
  let displayId := s.focusedApplicationDisplayId env
  match s.displayLaunchProfiles[displayId]? with
  | none => s
  | some profile =>
    if displayId = 0 then s
    else s.resizeDisplay env displayId profile.height profile.width profile.dpi

/-- The window with this display went to the background or came back. -/
def setDisplayStreamingForWindow (displayId : UInt32) (enabled : Bool) : AppDelegate :=
  if s.shuttingDown then s
  else if displayId ∈ s.displayWindows then s.setDisplayStreaming env displayId enabled
  else s

/-- A display launched with the dynamic profile takes the geometry `target` of
the screen its window is on now, in its own orientation. -/
def followScreen (displayId : UInt32) (target : DisplayLaunchProfile) : AppDelegate :=
  if displayId ∉ s.displayWindows ∨ displayId ∉ s.screenMatchedDisplayIds then s
  else
    match s.displayLaunchProfiles[displayId]? with
    | none => s
    | some current =>
      let width := if current.height < current.width then target.height else target.width
      let height := if current.height < current.width then target.width else target.height
      if width ≠ current.width ∨ height ≠ current.height ∨ target.dpi ≠ current.dpi then
        s.resizeDisplay env displayId width height target.dpi
      else s

def windowDidChangeScreen (displayId : UInt32) (target : DisplayLaunchProfile) : AppDelegate :=
  (s.followScreen env displayId target).setDisplayStreamingForWindow env displayId
    (env.visible displayId)

def pollFocusedApplicationOrientation : AppDelegate :=
  let displayId := s.focusedApplicationDisplayId env
  if s.shuttingDown ∨ env.pollGuestReady = false ∨ displayId = 0 ∨
      displayId ∈ s.displayResizePending ∨ displayId ∈ s.orientationPollInFlight ∨
      displayId ∈ s.displayRemovalPending then s
  else
    let poll (s : AppDelegate) : AppDelegate :=
      { s with orientationPollInFlight := s.orientationPollInFlight.insert displayId }.send
        (.guestDisplayState displayId)
    match s.orientationSyncSuppressedUntil[displayId]? with
    | none => poll s
    | some suppressed =>
      if env.now < suppressed then s
      else poll { s with
        orientationSyncSuppressedUntil := s.orientationSyncSuppressedUntil.erase displayId }

/-- `logical` is the size the guest reported, if the answer could be read. -/
def orientationResponse (displayId : UInt32) (logical : Option (UInt32 × UInt32)) :
    AppDelegate :=
  let s := { s with orientationPollInFlight := s.orientationPollInFlight.erase displayId }
  match logical with
  | none => s
  | some (logicalWidth, logicalHeight) =>
    if logicalWidth = 0 ∨ logicalHeight = 0 ∨ s.shuttingDown ∨
        s.focusedApplicationDisplayId env ≠ displayId ∨ displayId ∈ s.displayResizePending ∨
        displayId ∈ s.displayRemovalPending then s
    else
      match s.displayLaunchProfiles[displayId]? with
      | none => s
      | some profile =>
        if logicalWidth = logicalHeight ∨ profile.width = profile.height ∨
            (logicalHeight < logicalWidth ↔ profile.height < profile.width) then s
        else s.resizeDisplay env displayId profile.height profile.width profile.dpi

def presentFrameForDisplay (displayId : UInt32) : AppDelegate :=
  if s.shuttingDown ∨ displayId = 0 ∨ displayId ∉ s.displayAppBindings then s
  else if displayId ∈ s.displayWindows then s
  else s.openDisplayWindowForDisplay env displayId

def restoreDisplaySubscriptions : AppDelegate :=
  s.displayWindows.toList.foldl
    (fun s displayId =>
      if env.visible displayId then s.setDisplayStreaming env displayId true else s) s

def uninstallAccepted (packageName : String) : AppDelegate :=
  if s.shuttingDown ∨ env.uninstallGuestReady = false then s
  else
    { s with uninstallingAppPackages := s.uninstallingAppPackages.insert packageName }.send
      (.guestUninstall packageName)

def uninstallResponse (packageName : String) : AppDelegate :=
  if s.shuttingDown then s
  else { s with uninstallingAppPackages := s.uninstallingAppPackages.erase packageName }

def installApkURLs (count : Nat) : AppDelegate :=
  if s.shuttingDown ∨ env.installReady = false ∨ s.agentConnected = false ∨
      s.uninstallingAppPackages.isEmpty = false then s
  else { s with pendingApkInstalls := s.pendingApkInstalls + count }

def apkInstallFinished : AppDelegate :=
  if s.shuttingDown then s else { s with pendingApkInstalls := s.pendingApkInstalls - 1 }

def resetSecondaryDisplayStateAfterQemuExit : AppDelegate :=
  { s with
    displayWindows := ∅, suppressRemoveOnClose := ∅, displayAppBindings := ∅
    appDisplayBindings := ∅, pendingAppPackages := ∅, launchRequestsInFlight := ∅
    closingAppPackages := ∅, closingLaunchFailures := ∅, deferredLaunchCleanup := ∅
    displayLaunchProfiles := ∅, screenMatchedDisplayIds := ∅, displayResizePending := ∅
    orientationPollInFlight := ∅, orientationSyncSuppressedUntil := ∅
    displayRemovalPending := ∅, activeUserDisplayIds := ∅ }

/-- The block the supervisor runs after the emulator has exited. -/
def qemuExited : AppDelegate :=
  { s with agentConnected := false }.resetSecondaryDisplayStateAfterQemuExit

def hideWindowsForTermination : AppDelegate := { s with displayWindows := ∅ }

def beginAsyncTermination : AppDelegate :=
  { s with shuttingDown := true }.hideWindowsForTermination

def shutdownRuntime : AppDelegate := { s with shuttingDown := true }

end AppDelegate

inductive Block where
  | launch (component : String) (profile : DisplayLaunchProfile) (matchesCurrentScreen : Bool)
  | windowClosed (displayId : UInt32)
  | controlEvent (type : UInt16) (payload : List UInt8)
  | launchAddResponse (component packageName : String) (displayId : UInt32)
      (response : Response)
  | resizeResponse (displayId : UInt32) (previous : DisplayLaunchProfile) (response : Response)
  | launchHandoff (component packageName : String) (displayId : UInt32)
  | launchResponse (component : String) (displayId : UInt32) (ok : Bool) (payload : String)
  | closeResponse (component packageName : String) (displayId : UInt32) (ok : Bool)
  | cleanupResponse (component : String) (displayId : UInt32) (ok : Bool)
  | agentConnection (connected : Bool)
  | rotateFocused
  | changedScreen (displayId : UInt32) (target : DisplayLaunchProfile)
  | streamWindow (displayId : UInt32) (enabled : Bool)
  | pollOrientation
  | orientationResponse (displayId : UInt32) (logical : Option (UInt32 × UInt32))
  | presentFrame (displayId : UInt32)
  | restoreSubscriptions
  | uninstallAccepted (packageName : String)
  | uninstallResponse (packageName : String)
  | installApks (count : Nat)
  | apkInstallFinished
  | qemuExited
  | beginTermination
  | shutdownRuntime

def AppDelegate.run (env : Surroundings) (s : AppDelegate) : Block → AppDelegate
  | .launch component profile matchesScreen =>
    s.launchApplicationComponent env component profile matchesScreen
  | .windowClosed displayId => s.windowWillClose env displayId
  | .controlEvent type payload => s.handleControlEvent env type payload
  | .launchAddResponse component packageName displayId response =>
    s.launchAddResponse env component packageName displayId response
  | .resizeResponse displayId previous response => s.resizeResponse displayId previous response
  | .launchHandoff component packageName displayId =>
    s.launchHandoff env component packageName displayId
  | .launchResponse component displayId ok payload =>
    s.launchResponse env component displayId ok payload
  | .closeResponse component packageName displayId ok =>
    s.closeResponse env component packageName displayId ok
  | .cleanupResponse component displayId ok => s.cleanupResponse env component displayId ok
  | .agentConnection connected => s.agentConnection env connected
  | .rotateFocused => s.rotateFocusedApplication env
  | .changedScreen displayId target => s.windowDidChangeScreen env displayId target
  | .streamWindow displayId enabled => s.setDisplayStreamingForWindow env displayId enabled
  | .pollOrientation => s.pollFocusedApplicationOrientation env
  | .orientationResponse displayId logical => s.orientationResponse env displayId logical
  | .presentFrame displayId => s.presentFrameForDisplay env displayId
  | .restoreSubscriptions => s.restoreDisplaySubscriptions env
  | .uninstallAccepted packageName => s.uninstallAccepted env packageName
  | .uninstallResponse packageName => s.uninstallResponse packageName
  | .installApks count => s.installApkURLs env count
  | .apkInstallFinished => s.apkInstallFinished
  | .qemuExited => s.qemuExited
  | .beginTermination => s.beginAsyncTermination
  | .shutdownRuntime => s.shutdownRuntime

/-- The main queue as a transition system: any block may run next, under any
surroundings. -/
def mainQueueStep (s : AppDelegate) (step : Surroundings × Block) : Option AppDelegate :=
  some (s.run step.1 step.2)

end MacMu
