import MacMu.Core.ControlRoundTrip
import MacMu.Qemu.MultiDisplay

/-!
The frame handler of `macmu-control-receiver.cpp`. A frame is answered on the
reader thread or queued as a task for the main looper, where the display
handlers run against `MultiDisplay`. The frames a handler sends are `Reply`
values with their wire form; calls of `set_display_streaming` are recorded in
order, their pacing is not modelled here.
-/

namespace MacMu
namespace ControlReceiver

open ControlProtocol ControlFraming ControlRoundTrip

def kMaxUserDisplayId : UInt32 := 5
def kFrameSlotCount : UInt32 := 16

structure ControlDisplayInfo where
  displayId : UInt32
  width : UInt32
  height : UInt32
  dpi : UInt32
  flags : UInt32
  enabled : UInt32
  deriving DecidableEq, Repr

/-- A frame that the receiver hands to `send_frame`. -/
inductive Reply where
  | helloAck (requestId protoVersion capabilities maxDisplays frameShmVersion : UInt32)
  | pong (requestId : UInt32) (timestampNs : UInt64)
  | displayAddOk (requestId displayId : UInt32)
  | displayRemoveOk (requestId : UInt32)
  | displayStreamOk (requestId : UInt32)
  | displayListOk (requestId : UInt32) (entries : List ControlDisplayInfo)
  | error (requestId : UInt32) (code : Int32) (message : String)
  | eventDisplay (event : ControlEventDisplay)
  deriving DecidableEq, Repr

namespace Reply

def type : Reply → ControlMessageType
  | helloAck .. => .kHelloAck
  | pong .. => .kPong
  | displayAddOk .. => .kDisplayAddOk
  | displayRemoveOk .. => .kDisplayRemoveOk
  | displayStreamOk .. => .kDisplayStreamOk
  | displayListOk .. => .kDisplayListOk
  | error .. => .kError
  | eventDisplay .. => .kEventDisplay

def requestId : Reply → UInt32
  | helloAck requestId .. | pong requestId _ | displayAddOk requestId _
  | displayRemoveOk requestId | displayStreamOk requestId | displayListOk requestId _
  | error requestId .. => requestId
  | eventDisplay _ => 0

def payload : Reply → List UInt8
  | helloAck _ protoVersion capabilities maxDisplays frameShmVersion =>
    words [protoVersion, capabilities, maxDisplays, frameShmVersion]
  | pong _ timestampNs => LittleEndian.encode 8 timestampNs.toNat
  | displayAddOk _ displayId => displayIdBytes displayId
  | displayRemoveOk _ | displayStreamOk _ => []
  | displayListOk _ entries =>
    words (UInt32.ofNat entries.length :: entries.flatMap fun e =>
      [e.displayId, e.width, e.height, e.dpi, e.flags, e.enabled])
  | error _ code message =>
    (ControlError.mk code (UInt32.ofNat message.toUTF8.toList.length)).bytes ++
      message.toUTF8.toList
  | eventDisplay event => event.bytes

def IsError (r : Reply) : Prop := r.type = .kError

instance (r : Reply) : Decidable r.IsError := inferInstanceAs (Decidable (r.type = .kError))

end Reply

/-- A closure `run_on_main_looper` has queued. -/
inductive Task where
  | displayAdd (requestId : UInt32) (request : ControlDisplayAdd)
  | displayRemove (requestId displayId : UInt32)
  | displayList (requestId : UInt32)
  deriving DecidableEq, Repr

structure StreamCall where
  displayId : UInt32
  enabled : Bool
  requestedFramesPerSecond : UInt32
  deriving DecidableEq, Repr

structure Handled where
  sends : List Reply
  task : Option Task
  streaming : Option StreamCall
  deriving DecidableEq, Repr

def Handled.answer (r : Reply) : Handled := ⟨[r], none, none⟩

/-- `looper` is whether the main looper exists yet. -/
def runOnMainLooper (looper : Bool) (requestId : UInt32) (task : Task) : Handled :=
  if looper then ⟨[], some task, none⟩
  else .answer (.error requestId kControlErrNotReady "qemu main looper not ready")

def handleHello (requestId : UInt32) : Handled :=
  .answer (.helloAck requestId kControlProtocolVersion.toUInt32 0 kMaxUserDisplayId 2)

/-- The legacy request has no frame rate; its bytes are then zero. -/
def displayStreamOfBytes (payload : List UInt8) : ControlDisplayStream :=
  let buffer := payload.take 12 ++ List.replicate (12 - payload.length) 0
  ⟨u32At buffer 0, u32At buffer 4, u32At buffer 8⟩

def handleDisplayStream (requestId : UInt32) (payload : List UInt8) : Handled :=
  if payload.length < 8 then
    .answer (.error requestId kControlErrInvalidArgument "short DISPLAY_STREAM payload")
  else
    let request := displayStreamOfBytes payload
    if kFrameSlotCount ≤ request.displayId then
      .answer (.error requestId kControlErrInvalidArgument
        "display id exceeds frame slot table")
    else
      ⟨[.displayStreamOk requestId], none,
        some ⟨request.displayId, request.enabled != 0, request.maximumFramesPerSecond⟩⟩

def handleFrame (looper : Bool) (steadyNowNs : UInt64) (type : UInt16) (requestId : UInt32)
    (payload : List UInt8) : Handled :=
  if type = ControlMessageType.kHello.code then handleHello requestId
  else if type = ControlMessageType.kPing.code then .answer (.pong requestId steadyNowNs)
  else if type = ControlMessageType.kDisplayAdd.code then
    if payload.length < ControlDisplayAdd.size then
      .answer (.error requestId kControlErrInvalidArgument "short DISPLAY_ADD payload")
    else runOnMainLooper looper requestId (.displayAdd requestId (.ofBytes payload))
  else if type = ControlMessageType.kDisplayRemove.code then
    if payload.length < displayIdSize then
      .answer (.error requestId kControlErrInvalidArgument "short DISPLAY_REMOVE payload")
    else runOnMainLooper looper requestId (.displayRemove requestId (displayIdOfBytes payload))
  else if type = ControlMessageType.kDisplayStream.code then
    handleDisplayStream requestId payload
  else if type = ControlMessageType.kDisplayList.code then
    runOnMainLooper looper requestId (.displayList requestId)
  else .answer (.error requestId kControlErrUnsupported "unsupported request type")

/-- What a looper task meets: the agent pointer, the emulator's checks and the
constants of the header. -/
structure Surroundings where
  agent : Bool
  header : MultiDisplay.Header
  env : MultiDisplay.Environment

/-- An emulator that passes every check, with or without the guest pipe. -/
def plainSurroundings (pipe : Bool) : Surroundings where
  agent := true
  header :=
    { maxNumMultiDisplay := 11, displayIdInternalBegin := 6, invalidIdMultiDisplay := 0xFFFFFFAB
      defaultInfo := ⟨0, 0, 0, 0, 0, 0, 0, true⟩ }
  env :=
    { multiDisplayFeature := true, anyFoldedAreaConfigured := false, resizableEnabled := false
      avdInfo := none, orientation := .rotation0, hotPlugDisplayEnabled := false
      isMultiDisplayWindow := false, isPixelFold := false, isFolded := false
      pixelFoldSecondDisplayId := 6, pipe := pipe }

structure Ran where
  sends : List Reply
  displays : MultiDisplay.State
  streaming : Option StreamCall := none

def sendDisplayEvent (displayId state w h dpi flags : UInt32) : Reply :=
  .eventDisplay ⟨displayId, state, w, h, dpi, flags⟩

/-- The candidates of the automatic id, in the order they are tried. -/
def userDisplayIds : List UInt32 := [1, 2, 3, 4, 5]

def freeDisplayId (s : MultiDisplay.State) : Option UInt32 :=
  userDisplayIds.find? fun candidate => !MultiDisplay.getMultiDisplay s candidate

def addDisplay (around : Surroundings) (s : MultiDisplay.State) (requestId : UInt32)
    (request : ControlDisplayAdd) (displayId : UInt32) : Ran :=
  if displayId = 0 ∨ kMaxUserDisplayId < displayId then
    ⟨[.error requestId kControlErrInvalidArgument "display id out of user range (1..5)"], s, none⟩
  else
    match MultiDisplay.setMultiDisplay around.header around.env s displayId (-1) (-1)
      request.width request.height request.dpi request.flags true with
    | (result, s) =>
      if result < 0 then
        ⟨[.error requestId
          (if result = -MultiDisplay.EPIPE then kControlErrNotReady else kControlErrRejected)
          ("setMultiDisplay failed: " ++ toString result)], s, none⟩
      else
        ⟨[.displayAddOk requestId displayId,
          sendDisplayEvent displayId kControlDisplayAdded request.width request.height
            request.dpi request.flags], s, none⟩

def handleDisplayAdd (around : Surroundings) (s : MultiDisplay.State) (requestId : UInt32)
    (request : ControlDisplayAdd) : Ran :=
  if around.agent = false then
    ⟨[.error requestId kControlErrInternal "multi-display agent unavailable"], s, none⟩
  else if request.displayId = kControlDisplayIdAuto then
    match freeDisplayId s with
    | none => ⟨[.error requestId kControlErrRejected "no free display id"], s, none⟩
    | some displayId => addDisplay around s requestId request displayId
  else addDisplay around s requestId request request.displayId

def handleDisplayRemove (around : Surroundings) (s : MultiDisplay.State)
    (requestId displayId : UInt32) : Ran :=
  if around.agent = false then
    ⟨[.error requestId kControlErrInternal "multi-display agent unavailable"], s, none⟩
  else if displayId = 0 ∨ kMaxUserDisplayId < displayId then
    ⟨[.error requestId kControlErrInvalidArgument "display id out of user range (1..5)"], s, none⟩
  else
    match MultiDisplay.setMultiDisplay around.header around.env s displayId (-1) (-1)
      0 0 0 0 false with
    | (result, s) =>
      if result < 0 then
        ⟨[.error requestId kControlErrRejected
          ("setMultiDisplay(del) failed: " ++ toString result)], s, none⟩
      else
        ⟨[.displayRemoveOk requestId,
          sendDisplayEvent displayId kControlDisplayRemoved 0 0 0 0], s,
          some ⟨displayId, false, 0⟩⟩

/-- The walk of `handle_display_list` over the table, `none` while it has not
come to an end. The id is kept in a signed variable between the calls. -/
def displayInfos (s : MultiDisplay.State) : Nat → Int32 → Option (List ControlDisplayInfo)
  | 0, _ => none
  | fuel + 1, previousId =>
    match MultiDisplay.getNextMultiDisplay s previousId with
    | none => some []
    | some (id, info) =>
      (displayInfos s fuel id.toInt32).map
        (⟨id, info.originalWidth, info.originalHeight, info.dpi, info.flag, 1⟩ :: ·)

/-- A walk that has not ended after it has seen as many displays as there are
never ends, and there is no answer then. -/
def handleDisplayList (around : Surroundings) (s : MultiDisplay.State) (requestId : UInt32) : Ran :=
  if around.agent = false then
    ⟨[.error requestId kControlErrInternal "multi-display agent unavailable"], s, none⟩
  else
    match displayInfos s (s.mMultiDisplay.size + 1) (-1) with
    | some entries => ⟨[.displayListOk requestId entries], s, none⟩
    | none => ⟨[], s, none⟩

def runTask (around : Surroundings) (s : MultiDisplay.State) : Task → Ran
  | .displayAdd requestId request => handleDisplayAdd around s requestId request
  | .displayRemove requestId displayId => handleDisplayRemove around s requestId displayId
  | .displayList requestId => handleDisplayList around s requestId

end ControlReceiver
end MacMu
