import MacMu.Core.FrameConsumer

/-!
How frames reach the main queue within one generation of the emulator. The
producer publishes frames, the doorbell thread scans the slots and keeps a
cursor for each display, and presentation blocks on the main queue read the slot
once more and redraw. One pending flag for each display coalesces the blocks.

A publish and a read take time here. A read answers a frame that was current at
some moment of the call, and it fails only if a publish overlapped it or the
slot was empty. The mutex around a read is left out, so that the reads of the
two threads may overlap. The generation begins when the doorbell loop has
noticed it and cleared its cursors: frames may have been published before that,
and blocks may wait in the queue. The frame consumer exists throughout.

`presented` is history that no step reads.
-/

namespace MacMu
namespace FramePresentation

open Function FrameConsumer

/-- The frame published last, and the one whose publish is under way. Frame
numbers grow; zero stands for no frame. -/
structure SlotState where
  frame : Nat
  publishing : Option Nat
  later : ∀ next, publishing = some next → frame < next

namespace SlotState

def empty : SlotState := ⟨0, none, nofun⟩

def begin (s : SlotState) (next : Nat) (h : s.frame < next) : SlotState :=
  ⟨s.frame, some next, fun _ heq => Option.some.inj heq ▸ h⟩

def finish (next : Nat) : SlotState := ⟨next, none, nofun⟩

end SlotState

/-- A call of `read` so far: the frames that were current since it began, and
whether a publish overlapped it. -/
structure Reading where
  seen : List Nat
  overlapped : Bool
  deriving DecidableEq, Repr

inductive Answer where
  | frame (number : Nat)
  | failed
  deriving DecidableEq, Repr

namespace Reading

def begin (s : SlotState) : Reading :=
  match s.publishing with
  | none => ⟨[s.frame], false⟩
  | some _ => ⟨[], true⟩

def overlap (r : Reading) : Reading := { r with overlapped := true }

def see (r : Reading) (frame : Nat) : Reading := { r with seen := frame :: r.seen }

/-- The answers `read` may give. -/
def mayAnswer (r : Reading) : Answer → Bool
  | .frame number => number != 0 && r.seen.contains number
  | .failed => r.overlapped || r.seen.contains 0

end Reading

inductive Doorbell where
  | idle
  /-- `scan_slots` reads the slot at this offset from its start. -/
  | scanning (offset : Nat) (reading : Reading)
  | confirming (displayId : Slot) (reading : Reading)
  /-- The cursor is set; `enqueueFramePresentationForDisplay:` is next. -/
  | exchanging (displayId : Slot)
  | dispatching (displayId : Slot)
  deriving DecidableEq, Repr

inductive Stage where
  | starting
  | reading (reading : Reading)
  | calling (frame : Nat)
  | clearing (presentedFrame : Nat)
  | rechecking (presentedFrame : Nat)
  | readingAgain (presentedFrame : Nat) (reading : Reading)
  | exchanging
  | dispatching
  deriving DecidableEq, Repr

structure World where
  slots : Slot → SlotState
  lastFrames : Slot → Nat
  nextScanStart : Slot
  doorbell : Doorbell
  framePresentationPending : Slot → Bool
  mainQueue : List Slot
  running : Option (Slot × Stage)
  shuttingDown : Bool
  presented : List (Slot × Nat)

inductive Step where
  /-- The producer makes the sequence word odd for its next frame. -/
  | publish (displayId : Slot) (frame : Nat)
  | published (displayId : Slot)
  /-- The doorbell thread goes on; the answer is that of the read it is in. -/
  | doorbell (answer : Answer)
  /-- The main queue goes on with its block, or takes the next one. -/
  | main (answer : Answer)
  | shutDown
  deriving DecidableEq, Repr

namespace World

variable (w : World)

def scanned (offset : Nat) : Slot :=
  ⟨(w.nextScanStart.val + offset) % kMacmuFrameSlotCount, Nat.mod_lt _ (by decide)⟩

/-- What a publish does to the reads of the slot that are under way. -/
def noteReads (displayId : Slot) (note : Reading → Reading) : World :=
  { w with
    doorbell :=
      match w.doorbell with
      | .scanning offset reading =>
        .scanning offset (if w.scanned offset = displayId then note reading else reading)
      | .confirming d reading => .confirming d (if d = displayId then note reading else reading)
      | other => other
    running := w.running.map fun (d, stage) =>
      if d = displayId then
        match stage with
        | .reading reading => (d, .reading (note reading))
        | .readingAgain presentedFrame reading => (d, .readingAgain presentedFrame (note reading))
        | other => (d, other)
      else (d, stage) }

def setSlot (displayId : Slot) (s : SlotState) : World :=
  { w with slots := update w.slots displayId s }

def scanNext (offset : Nat) : World :=
  if offset < kMacmuFrameSlotCount then
    { w with doorbell := .scanning offset (.begin (w.slots (w.scanned offset))) }
  else { w with doorbell := .idle }

def scanAnswered (offset : Nat) : Answer → World
  | .failed => w.scanNext (offset + 1)
  | .frame number =>
    let id := w.scanned offset
    if number ≠ w.lastFrames id then
      { w with
        nextScanStart := ⟨(id.val + 1) % kMacmuFrameSlotCount, Nat.mod_lt _ (by decide)⟩
        doorbell := .confirming id (.begin (w.slots id)) }
    else w.scanNext (offset + 1)

def confirmAnswered (displayId : Slot) : Answer → World
  | .failed => { w with doorbell := .idle }
  | .frame number =>
    { w with
      lastFrames := update w.lastFrames displayId number
      doorbell := if displayId = 0 then .idle else .exchanging displayId }

def doorbellStep (answer : Answer) : Option World :=
  match w.doorbell with
  | .idle => some (w.scanNext 0)
  | .scanning offset reading =>
    if reading.mayAnswer answer then some (w.scanAnswered offset answer) else none
  | .confirming displayId reading =>
    if reading.mayAnswer answer then some (w.confirmAnswered displayId answer) else none
  | .exchanging displayId =>
    if w.framePresentationPending displayId then some { w with doorbell := .idle }
    else
      some { w with
        framePresentationPending := update w.framePresentationPending displayId true
        doorbell := .dispatching displayId }
  | .dispatching displayId =>
    some { w with mainQueue := w.mainQueue ++ [displayId], doorbell := .idle }

/-- One step of the block of `enqueueFramePresentationForDisplay:`. -/
def blockStep (displayId : Slot) (stage : Stage) (answer : Answer) : Option World :=
  match stage with
  | .starting =>
    if w.shuttingDown then some { w with running := some (displayId, .clearing 0) }
    else some { w with running := some (displayId, .reading (.begin (w.slots displayId))) }
  | .reading reading =>
    if reading.mayAnswer answer then
      match answer with
      | .failed => some { w with running := some (displayId, .clearing 0) }
      | .frame number => some { w with running := some (displayId, .calling number) }
    else none
  | .calling number =>
    some { w with
      presented := w.presented ++ [(displayId, number)]
      running := some (displayId, .clearing number) }
  | .clearing presentedFrame =>
    some { w with
      framePresentationPending := update w.framePresentationPending displayId false
      running := some (displayId, .rechecking presentedFrame) }
  | .rechecking presentedFrame =>
    if w.shuttingDown then some { w with running := none }
    else
      some { w with
        running := some (displayId, .readingAgain presentedFrame (.begin (w.slots displayId))) }
  | .readingAgain presentedFrame reading =>
    if reading.mayAnswer answer then
      match answer with
      | .failed => some { w with running := none }
      | .frame number =>
        if number ≠ presentedFrame then some { w with running := some (displayId, .exchanging) }
        else some { w with running := none }
    else none
  | .exchanging =>
    if w.framePresentationPending displayId then some { w with running := none }
    else
      some { w with
        framePresentationPending := update w.framePresentationPending displayId true
        running := some (displayId, .dispatching) }
  | .dispatching =>
    some { w with mainQueue := w.mainQueue ++ [displayId], running := none }

def mainStep (answer : Answer) : Option World :=
  match w.running with
  | some (displayId, stage) => w.blockStep displayId stage answer
  | none =>
    match w.mainQueue with
    | [] => none
    | displayId :: rest =>
      some { w with mainQueue := rest, running := some (displayId, .starting) }

/-- One step, `none` where it is not enabled. -/
def step : Step → Option World
  | .publish displayId frame =>
    if h : (w.slots displayId).publishing = none ∧ (w.slots displayId).frame < frame then
      some ((w.noteReads displayId .overlap).setSlot displayId
        ((w.slots displayId).begin frame h.2))
    else none
  | .published displayId =>
    match (w.slots displayId).publishing with
    | none => none
    | some frame =>
      some ((w.noteReads displayId (·.see frame)).setSlot displayId (.finish frame))
  | .doorbell answer => w.doorbellStep answer
  | .main answer => w.mainStep answer
  | .shutDown => some { w with shuttingDown := true }

/-- The doorbell loop has just cleared its cursors for a new generation. -/
def start (slots : Slot → SlotState) (mainQueue : List Slot) : World where
  slots := slots
  lastFrames := fun _ => 0
  nextScanStart := 0
  doorbell := .idle
  framePresentationPending := fun displayId => decide (displayId ∈ mainQueue)
  mainQueue := mainQueue
  running := none
  shuttingDown := false
  presented := []

end World

/-- No presentation block for the display is queued or running. -/
def NoBlock (w : World) (displayId : Slot) : Prop :=
  displayId ∉ w.mainQueue ∧ w.running.map Prod.fst ≠ some displayId

instance (w : World) (displayId : Slot) : Decidable (NoBlock w displayId) :=
  inferInstanceAs (Decidable (_ ∧ _))

/-- The doorbell thread has set the cursor of the display and has not returned
from `enqueueFramePresentationForDisplay:`. -/
def Enqueuing (w : World) (displayId : Slot) : Prop :=
  w.doorbell = .exchanging displayId ∨ w.doorbell = .dispatching displayId

instance (w : World) (displayId : Slot) : Decidable (Enqueuing w displayId) :=
  inferInstanceAs (Decidable (_ ∨ _))

end FramePresentation
end MacMu
