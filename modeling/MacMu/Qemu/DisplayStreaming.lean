import MacMu.Lib.TransitionSystem
import MacMu.Qemu.ControlReceiver
import Std.Data.ExtTreeMap

/-!
`set_display_streaming` and the export hooks of `opengles.cpp`, one access at a
time. What is streamed is kept three times: in `mStreamingDisplays`, in the mask
`sMacMuDisplayExportSubscriptions`, and in the renderer, of which only the export
flag of each display is looked at. The reader thread, the main looper and the
thread that installs a renderer take their steps in any order. The pacing of the
stream loop, single exports and the end of the receiver are left out.
-/

namespace MacMu
namespace DisplayStreaming

open ControlReceiver

def kDefaultDisplayStreamFps : UInt32 := 60
def kMaximumDisplayStreamFps : UInt32 := 1000

def normalizeStreamFps (requestedFps : UInt32) : UInt32 :=
  if requestedFps = 0 then kDefaultDisplayStreamFps
  else if kMaximumDisplayStreamFps < requestedFps then kMaximumDisplayStreamFps
  else requestedFps

/-- An atomic operation, a call of the renderer that was loaded last, or a section
under `mStreamMutex`. -/
inductive Access where
  | subscribe (displayId : Nat) (enabled : Bool)
  | loadRenderer
  | setDisplayExportEnabled (displayId : Nat) (enabled : Bool)
  | clearDisplayExportFrame (displayId : Nat)
  | stream (displayId : Nat) (framesPerSecond : UInt32)
  | unstream (displayId : Nat)
  deriving DecidableEq, Repr

def androidSetDisplayExportEnabled (displayId : Nat) (enabled : Bool) : List Access :=
  if 16 ≤ displayId then []
  else [.subscribe displayId enabled, .loadRenderer, .setDisplayExportEnabled displayId enabled]

def androidClearDisplayExportFrame (displayId : Nat) : List Access :=
  if 16 ≤ displayId then []
  else [.subscribe displayId false, .loadRenderer, .clearDisplayExportFrame displayId]

def setDisplayStreaming (displayId : Nat) (enabled : Bool) (requestedFramesPerSecond : UInt32) :
    List Access :=
  androidSetDisplayExportEnabled displayId enabled ++
    if displayId = 0 then []
    else if enabled then [.stream displayId (normalizeStreamFps requestedFramesPerSecond)]
    else [.unstream displayId]

def StreamCall.accesses (call : StreamCall) : List Access :=
  setDisplayStreaming call.displayId.toNat call.enabled call.requestedFramesPerSecond

/-- A removal switches the stream off and then clears the slot of the display. -/
def removalAccesses (call : StreamCall) : List Access :=
  StreamCall.accesses call ++ androidClearDisplayExportFrame call.displayId.toNat

inductive Worker where
  | reader
  | looper
  deriving DecidableEq, Repr

/-- Where `android_setOpenglesRenderer` is. Renderers are told apart by a number. -/
inductive Installer where
  | idle
  | store (renderer : Nat)
  | load
  | loadMask (renderer : Nat)
  | apply (renderer : Nat) (subscriptions : BitVec 32) (displays : List Nat)
  deriving DecidableEq, Repr

structure State where
  subscriptions : BitVec 32
  renderer : Option Nat
  exporting : Nat → Nat → Bool
  streaming : Std.ExtTreeMap Nat UInt32
  todo : Worker → List Access
  loaded : Worker → Option Nat
  installer : Installer

/-- No display is streamed, and no renderer is there; the flags of a renderer that
will be installed are unknown. -/
def State.initial (exporting : Nat → Nat → Bool) : State :=
  ⟨0, none, exporting, ∅, fun _ => [], fun _ => none, .idle⟩

def subscribed (subscriptions : BitVec 32) (displayId : Nat) : Bool :=
  subscriptions &&& BitVec.twoPow 32 displayId != 0

/-- `fetch_or`, or `fetch_and` with the complement. -/
def fetch (subscriptions : BitVec 32) (displayId : Nat) (enabled : Bool) : BitVec 32 :=
  if enabled then subscriptions ||| BitVec.twoPow 32 displayId
  else subscriptions &&& ~~~BitVec.twoPow 32 displayId

def setFlag (exporting : Nat → Nat → Bool) (renderer displayId : Nat) (enabled : Bool) :
    Nat → Nat → Bool :=
  Function.update exporting renderer (Function.update (exporting renderer) displayId enabled)

namespace State

variable (s : State)

def call (worker : Worker) (displayId : Nat) (enabled : Bool) : State :=
  match s.loaded worker with
  | none => s
  | some renderer => { s with exporting := setFlag s.exporting renderer displayId enabled }

def access (worker : Worker) : Access → State
  | .subscribe displayId enabled =>
    { s with subscriptions := fetch s.subscriptions displayId enabled }
  | .loadRenderer => { s with loaded := Function.update s.loaded worker s.renderer }
  | .setDisplayExportEnabled displayId enabled => s.call worker displayId enabled
  | .clearDisplayExportFrame displayId => s.call worker displayId false
  | .stream displayId framesPerSecond =>
    { s with streaming := s.streaming.insert displayId framesPerSecond }
  | .unstream displayId => { s with streaming := s.streaming.erase displayId }

def begin (worker : Worker) (accesses : List Access) : Option State :=
  if s.todo worker = [] then
    some { s with todo := Function.update s.todo worker accesses }
  else none

def work (worker : Worker) : Option State :=
  match s.todo worker with
  | [] => none
  | a :: rest =>
    some ({ s with todo := Function.update s.todo worker rest }.access worker a)

/-- `android_setOpenglesRenderer` with `applyMacMuDisplayExportSubscriptions`. -/
def install : Option State :=
  match s.installer with
  | .idle => none
  | .store renderer => some { s with renderer := some renderer, installer := .load }
  | .load =>
    match s.renderer with
    | none => some { s with installer := .idle }
    | some renderer => some { s with installer := .loadMask renderer }
  | .loadMask renderer =>
    some { s with installer := .apply renderer s.subscriptions (List.range 16) }
  | .apply _ _ [] => some { s with installer := .idle }
  | .apply renderer subscriptions (displayId :: rest) =>
    some { s with
      exporting :=
        setFlag s.exporting renderer displayId (subscribed subscriptions displayId),
      installer := .apply renderer subscriptions rest }

end State

/-- The frame, the table of displays and what is around it are as they come. -/
inductive Label where
  | displayStream (requestId : UInt32) (payload : List UInt8)
  | displayRemove (around : Surroundings) (displays : MultiDisplay.State)
      (requestId displayId : UInt32)
  | setOpenglesRenderer (renderer : Nat)
  | work (worker : Worker)
  | install

def frameAccesses (requestId : UInt32) (payload : List UInt8) : List Access :=
  (handleDisplayStream requestId payload).streaming.elim [] StreamCall.accesses

def taskAccesses (around : Surroundings) (displays : MultiDisplay.State)
    (requestId displayId : UInt32) : List Access :=
  (handleDisplayRemove around displays requestId displayId).streaming.elim [] removalAccesses

def State.step (s : State) : Label → Option State
  | .displayStream requestId payload => s.begin .reader (frameAccesses requestId payload)
  | .displayRemove around displays requestId displayId =>
    s.begin .looper (taskAccesses around displays requestId displayId)
  | .setOpenglesRenderer renderer =>
    if s.installer = .idle then some { s with installer := .store renderer } else none
  | .work worker => s.work worker
  | .install => s.install

end DisplayStreaming
end MacMu
