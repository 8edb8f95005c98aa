import MacMu.Core.ControlChannel
import MacMu.Shell.MainQueue
import MacMu.Qemu.ControlReceiver

/-!
The shell and the emulator in one generation, joined by the control stream. The
shell's main queue issues requests; they cross to the receiver's thread, are
answered there or queued for the main looper, and the answers and events cross
back through the shell's reader thread to the main queue. Each of these is a
first-in first-out queue, and a request may time out at any moment while it is
pending. Queues hold whole frames: the byte streams deliver exactly the frames
that were written, and a frame is written whole or not at all here.

`issued`, `answered`, `emitted` and `lastFollowed` are history that no step
reads; they let the results speak about what was sent and handled.
-/

namespace MacMu

open Std ControlProtocol ControlRoundTrip ControlReceiver

/-- What the completion of a control request has captured. The other requests
only log. -/
inductive Completion where
  | launchAdd (component packageName : String) (displayId : UInt32)
  | resizeAdd (displayId : UInt32) (previous : DisplayLaunchProfile)
  | logOnly
  deriving DecidableEq, Repr

def Completion.block : Completion → Response → Option Block
  | .launchAdd component packageName displayId, response =>
    some (.launchAddResponse component packageName displayId response)
  | .resizeAdd displayId previous, response => some (.resizeResponse displayId previous response)
  | .logOnly, _ => none

structure ControlRequest where
  type : ControlMessageType
  payload : List UInt8
  completion : Completion

def Effect.controlRequest : Effect → Option ControlRequest
  | .launchDisplayAdd request component packageName =>
    some ⟨.kDisplayAdd, request.bytes, .launchAdd component packageName request.displayId⟩
  | .resizeDisplayAdd request previous =>
    some ⟨.kDisplayAdd, request.bytes, .resizeAdd request.displayId previous⟩
  | .displayRemove displayId => some ⟨.kDisplayRemove, displayIdBytes displayId, .logOnly⟩
  | .displayStream request => some ⟨.kDisplayStream, request.bytes, .logOnly⟩
  | _ => none

/-- How `ControlChannel::request` gets on with its write. -/
inductive WriteOutcome where
  | refused
  | failed
  | written
  deriving DecidableEq, Repr

/-- A control request in the order of issue. `boundTo` is the launch whose
application holds the display when the block that sent the removal ends. Such a
block makes no binding, so the application held the display when the removal
was sent as well. -/
inductive Issued where
  | launch (displayId : UInt32)
  | resize (displayId : UInt32)
  | remove (displayId : UInt32) (boundTo : Option Nat)
  | other
  deriving DecidableEq, Repr

def lastLaunch (issued : List Issued) (displayId : UInt32) : Option Nat :=
  (issued.reverse.findIdx? (· == .launch displayId)).map fun back => issued.length - 1 - back

def boundTo (shell : AppDelegate) (issued : List Issued) (displayId : UInt32) : Option Nat :=
  if displayId ∈ shell.displayAppBindings then lastLaunch issued displayId else none

structure Geometry where
  width : UInt32
  height : UInt32
  dpi : UInt32
  deriving DecidableEq, Repr

def DisplayLaunchProfile.geometry (p : DisplayLaunchProfile) : Geometry :=
  ⟨p.width, p.height, p.dpi⟩

/-- A request frame on the stream; `tag` is its position in `issued`. -/
structure RequestFrame where
  tag : Nat
  type : UInt16
  requestId : UInt32
  payload : List UInt8
  deriving DecidableEq, Repr

structure World where
  shell : AppDelegate
  nextRequestId : UInt32
  pending : ExtTreeMap UInt32 (Nat × Completion)
  mainQueue : List (Nat × Block)
  toQemu : List RequestFrame
  mainLooper : Bool
  looper : List (Nat × Task)
  displays : MultiDisplay.State
  outgoing : List (Nat × Reply)
  toShell : List (Nat × Reply)
  issued : List Issued
  answered : List Nat
  emitted : List Nat
  lastFollowed : ExtTreeMap UInt32 (Nat × Geometry)

def Block.removedDisplay : Block → Option UInt32
  | .controlEvent type payload =>
    let event := ControlEventDisplay.ofBytes payload
    if type = ControlMessageType.kEventDisplay.code ∧
        ControlEventDisplay.size ≤ payload.length ∧ event.state = kControlDisplayRemoved then
      some event.displayId
    else none
  | _ => none

theorem Block.removedDisplay_eq_some {b : Block} {d : UInt32} (h : b.removedDisplay = some d) :
    ∃ payload, b = .controlEvent ControlMessageType.kEventDisplay.code payload ∧
      ControlEventDisplay.size ≤ payload.length ∧
      (ControlEventDisplay.ofBytes payload).state = kControlDisplayRemoved ∧
      (ControlEventDisplay.ofBytes payload).displayId = d := by
  cases b with
  | controlEvent type payload =>
    dsimp only [Block.removedDisplay] at h
    split at h
    · rename_i hremoved
      obtain ⟨rfl, hsize, hstate⟩ := hremoved
      exact ⟨payload, rfl, hsize, hstate, Option.some.inj h⟩
    · cases h
  | _ => cases h

/-- The event of a block that says a display was added or resized. -/
def Block.addedEvent : Block → Option ControlEventDisplay
  | .controlEvent type payload =>
    let event := ControlEventDisplay.ofBytes payload
    if type = ControlMessageType.kEventDisplay.code ∧
        ControlEventDisplay.size ≤ payload.length ∧ event.state = kControlDisplayAdded then
      some event
    else none
  | _ => none

def ControlReceiver.Reply.removedDisplay : Reply → Option UInt32
  | .eventDisplay event =>
    if event.state = kControlDisplayRemoved then some event.displayId else none
  | _ => none

def Block.isLocal : Block → Bool
  | .controlEvent .. | .launchAddResponse .. | .resizeResponse .. | .qemuExited => false
  | _ => true

namespace World

variable (w : World)

def complete (tag : Nat) (c : Completion) (response : Response) : World :=
  match c.block response with
  | none => w
  | some block => { w with mainQueue := w.mainQueue ++ [(tag, block)] }

theorem complete_eq (tag : Nat) (c : Completion) (response : Response) :
    w.complete tag c response =
      { w with mainQueue := w.mainQueue ++ (c.block response).toList.map (tag, ·) } := by
  unfold complete
  split
  · rename_i hnone
    rw [hnone, Option.toList_none, List.map_nil, List.append_nil]
  · rename_i block hsome
    rw [hsome]
    rfl

def issuedEntry : Effect → Issued
  | .launchDisplayAdd request .. => .launch request.displayId
  | .resizeDisplayAdd request _ => .resize request.displayId
  | .displayRemove displayId => .remove displayId (boundTo w.shell w.issued displayId)
  | _ => .other

/-- `ControlChannel::request` for one effect of a block. -/
def request (e : Effect) (outcome : WriteOutcome) : World :=
  match e.controlRequest with
  | none => w
  | some r =>
    let tag := w.issued.length
    let id := w.nextRequestId
    let noted := { w with issued := w.issued ++ [w.issuedEntry e] }
    match outcome with
    | .refused =>
      noted.complete tag r.completion (channelFailure "control channel not connected")
    | .failed =>
      { noted with nextRequestId := id + 1, pending := w.pending.erase id }.complete tag
        r.completion (channelFailure "control channel write failed")
    | .written =>
      { noted with
        nextRequestId := id + 1
        pending := w.pending.insert id (tag, r.completion)
        toQemu := w.toQemu ++ [⟨tag, r.type.code, id, r.payload⟩] }

/-- The effects of a block, in order; outcomes that are not given are writes
that succeed. -/
def requests : World → List Effect → List WriteOutcome → World
  | w, [], _ => w
  | w, e :: es, outcomes => requests (w.request e (outcomes.headD .written)) es outcomes.tail

def runBlock (env : Surroundings) (b : Block) (outcomes : List WriteOutcome) : World :=
  let shell := w.shell.run env b
  { w with shell := { shell with outbox := [] } }.requests shell.outbox outcomes

def noteBlock (tag : Nat) (b : Block) : World :=
  if w.shell.shuttingDown then w
  else
    let w := if b.removedDisplay.isSome then { w with answered := w.answered ++ [tag] } else w
    match b.addedEvent with
    | none => w
    | some event =>
      { w with
        lastFollowed := w.lastFollowed.insert event.displayId
          (w.issued.length, ⟨event.width, event.height, event.dpi⟩) }

end World

inductive PipelineStep where
  | localBlock (env : Surroundings) (b : Block) (outcomes : List WriteOutcome)
  | mainBlock (env : Surroundings) (outcomes : List WriteOutcome)
  /-- `sweep_timeouts` finds the request expired. -/
  | timeout (requestId : UInt32)
  | read
  | receive (steadyNowNs : UInt64)
  | looperStarts
  | task (around : ControlReceiver.Surroundings)
  | send

namespace World

/-- One step of the composition, `none` where it is not enabled. -/
def step (w : World) : PipelineStep → Option World
  | .localBlock env b outcomes => if b.isLocal then some (w.runBlock env b outcomes) else none
  | .mainBlock env outcomes =>
    match w.mainQueue with
    | [] => none
    | (tag, b) :: rest =>
      some (({ w with mainQueue := rest }.noteBlock tag b).runBlock env b outcomes)
  | .timeout id =>
    match w.pending[id]? with
    | none => none
    | some (tag, c) =>
      some ({ w with pending := w.pending.erase id }.complete tag c
        (channelFailure "request timed out"))
  | .read =>
    match w.toShell with
    | [] => none
    | (tag, reply) :: rest =>
      let w := { w with toShell := rest }
      if reply.requestId = 0 then
        some { w with
          mainQueue := w.mainQueue ++
            [(tag, .controlEvent reply.type.code reply.payload)] }
      else
        match w.pending[reply.requestId]? with
        | none => some w
        | some (tag, c) =>
          some ({ w with pending := w.pending.erase reply.requestId }.complete tag c
            (responseOf reply.type.code reply.payload))
  | .receive now =>
    match w.toQemu with
    | [] => none
    | frame :: rest =>
      let handled :=
        handleFrame w.mainLooper now frame.type frame.requestId frame.payload
      some { w with
        toQemu := rest
        toShell := w.toShell ++ handled.sends.map (frame.tag, ·)
        looper := w.looper ++ handled.task.toList.map (frame.tag, ·) }
  | .looperStarts => some { w with mainLooper := true }
  | .task around =>
    match w.looper, w.outgoing with
    | (tag, task) :: rest, [] =>
      let ran := runTask around w.displays task
      some { w with
        looper := rest
        displays := ran.displays
        outgoing := ran.sends.map (tag, ·)
        emitted := w.emitted ++
          (ran.sends.filterMap Reply.removedDisplay).map fun _ => tag }
    | _, _ => none
  | .send =>
    match w.outgoing with
    | [] => none
    | reply :: rest => some { w with outgoing := rest, toShell := w.toShell ++ [reply] }

/-- The start of a generation: the shell is as the reset after the last exit
left it, which is also how the first one starts, and HELLO is on its way. -/
def start (shell : AppDelegate) (displays : MultiDisplay.State) : World where
  shell := { shell.qemuExited with outbox := [] }
  nextRequestId := 2
  pending := (∅ : ExtTreeMap UInt32 (Nat × Completion)).insert 1 (0, .logOnly)
  mainQueue := []
  toQemu := [⟨0, ControlMessageType.kHello.code, 1, words [kControlProtocolVersion.toUInt32]⟩]
  mainLooper := false
  looper := []
  displays := displays
  outgoing := []
  toShell := []
  issued := [.other]
  answered := []
  emitted := []
  lastFollowed := ∅

end World
end MacMu
