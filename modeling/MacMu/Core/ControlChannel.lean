import MacMu.Core.ControlRoundTrip
import MacMu.Core.PendingRequestTable
import MacMu.Lib.TransitionSystem

/-!
`ControlChannel` after `start`, as a transition system of its threads: any
number of `request` calls, the reader thread and one call of `stop`. A step is
one access to what the threads share: an atomic, the pending table under its
mutex, a critical section entered, or a callback run. What arrives on the
socket, how sends end and what the clock shows are inputs of the steps. A
callback is named by the number of the call it was given to. `ready_` and the
event callbacks are left out: no completion depends on them.
-/

namespace MacMu

open ControlProtocol ControlRoundTrip

/-- The response `ControlChannel` makes up itself. -/
def channelFailure (message : String) : Response :=
  { ok := false, type := 0, errorCode := kControlErrInternal
    errorMessage := message.toUTF8.toList, payload := [] }

namespace ControlChannel

/-- Where a call of `request` stands. -/
inductive CallerPhase where
  | idle
  | checking (callback : Bool) (timeoutMs : UInt64)
  | refused
  | admitted (callback : Bool) (timeoutMs : UInt64)
  | registering (callback : Bool) (timeoutMs : UInt64) (requestId : UInt32)
  /-- In `write_frame`, before its critical section. -/
  | locking (requestId : UInt32)
  /-- Holds `writeMutex_` and sends. -/
  | sending (requestId : UInt32)
  /-- `write_frame` has returned false. -/
  | failed (requestId : UInt32)
  /-- Holds the callback that `take` handed back. -/
  | completing (callback : Nat)
  | returned
  deriving DecidableEq, Repr

inductive ReaderPhase where
  | looping
  | polling
  | answering (callback : Nat) (response : Response)
  | sweeping
  | expiring (callbacks : List Nat)
  /-- Out of the loop, before `alive_` is cleared. -/
  | leaving
  | clearing
  | closing (callbacks : List Nat)
  | finished
  deriving DecidableEq, Repr

inductive StopPhase where
  | idle
  /-- `stopRequested_` is set and the socket shut down. -/
  | joining
  | joined
  | closed
  | failing (callbacks : List Nat)
  | returned
  deriving DecidableEq, Repr

inductive Arrival where
  /-- `poll` timed out. -/
  | quiet
  | spurious
  /-- `poll` or a read failed, the stream ended, or the header was bad. -/
  | broken
  | frame (type : UInt16) (requestId : UInt32) (payload : List UInt8)
  deriving DecidableEq, Repr

/-- The channel and its threads. `given` lists the calls that were given a
callback, `drawn` the calls in the order in which they drew a request id; no
step reads them. -/
structure State where
  alive : Bool
  stopRequested : Bool
  /-- `localFd_` is not yet closed. -/
  localFd : Bool
  nextRequestId : UInt32
  writeMutex : Option Nat
  pending : PendingRequestTable UInt32 Nat
  callers : Nat → CallerPhase
  reader : ReaderPhase
  stop : StopPhase
  completed : List (Nat × Response)
  given : List Nat
  drawn : List Nat

def start : State where
  alive := true
  stopRequested := false
  localFd := true
  nextRequestId := 1
  writeMutex := none
  pending := .empty
  callers := fun _ => .idle
  reader := .looping
  stop := .idle
  completed := []
  given := []
  drawn := []

namespace State

variable (s : State)

def setCaller (i : Nat) (phase : CallerPhase) : State :=
  { s with callers := Function.update s.callers i phase }

def complete (callback : Nat) (response : Response) : State :=
  { s with completed := s.completed ++ [(callback, response)] }

/-- The next step of call `i`. `nowMs` is read when the request is added to the
table, `sent` tells how the sends of the frame end. -/
def callerStep (i : Nat) (nowMs : UInt64) (sent : Bool) : Option State :=
  match s.callers i with
  | .idle | .returned => none
  | .checking callback timeoutMs =>
    if s.alive then some (s.setCaller i (.admitted callback timeoutMs))
    else some (s.setCaller i (if callback then .refused else .returned))
  | .refused =>
    some ((s.complete i (channelFailure "control channel not connected")).setCaller i .returned)
  | .admitted callback timeoutMs =>
    some ({ s with
      nextRequestId := s.nextRequestId + 1
      drawn := s.drawn ++ [i] }.setCaller i (.registering callback timeoutMs s.nextRequestId))
  | .registering callback timeoutMs requestId =>
    let registered :=
      if callback then { s with pending := s.pending.add requestId i nowMs timeoutMs } else s
    some (registered.setCaller i (.locking requestId))
  | .locking requestId =>
    if s.writeMutex.isSome then none
    else if s.localFd = false ∨ s.alive = false then some (s.setCaller i (.failed requestId))
    else some ({ s with writeMutex := some i }.setCaller i (.sending requestId))
  | .sending requestId =>
    some ({ s with writeMutex := none }.setCaller i
      (if sent then .returned else .failed requestId))
  | .failed requestId =>
    match s.pending.take requestId with
    | (none, pending) => some ({ s with pending := pending }.setCaller i .returned)
    | (some callback, pending) =>
      some ({ s with pending := pending }.setCaller i (.completing callback))
  | .completing callback =>
    some ((s.complete callback
      (channelFailure "control channel write failed")).setCaller i .returned)

def readFrame (type : UInt16) (requestId : UInt32) (payload : List UInt8) : State :=
  if requestId = 0 then { s with reader := .looping }
  else
    match s.pending.take requestId with
    | (none, pending) => { s with pending := pending, reader := .looping }
    | (some callback, pending) =>
      { s with pending := pending, reader := .answering callback (responseOf type payload) }

def readerStep (nowMs : UInt64) (arrival : Arrival) : Option State :=
  match s.reader with
  | .looping => some { s with reader := if s.stopRequested then .leaving else .polling }
  | .polling =>
    match arrival with
    | .quiet => some { s with reader := .sweeping }
    | .spurious => some { s with reader := .looping }
    | .broken => some { s with reader := .leaving }
    | .frame type requestId payload => some (s.readFrame type requestId payload)
  | .answering callback response => some { s.complete callback response with reader := .sweeping }
  | .sweeping =>
    match s.pending.sweepTimeouts nowMs with
    | (callbacks, pending) => some { s with pending := pending, reader := .expiring callbacks }
  | .expiring [] => some { s with reader := .looping }
  | .expiring (callback :: rest) =>
    some { s.complete callback (channelFailure "request timed out") with
      reader := .expiring rest }
  | .leaving => some { s with alive := false, reader := .clearing }
  | .clearing =>
    match s.pending.failAll with
    | (callbacks, pending) => some { s with pending := pending, reader := .closing callbacks }
  | .closing [] => some { s with reader := .finished }
  | .closing (callback :: rest) =>
    some { s.complete callback (channelFailure "control channel closed") with
      reader := .closing rest }
  | .finished => none

def stopStep : Option State :=
  match s.stop with
  | .idle => some { s with stopRequested := true, stop := .joining }
  | .joining => if s.reader = .finished then some { s with stop := .joined } else none
  | .joined =>
    if s.writeMutex.isSome then none else some { s with localFd := false, stop := .closed }
  | .closed =>
    match s.pending.failAll with
    | (callbacks, pending) => some { s with pending := pending, stop := .failing callbacks }
  | .failing (callback :: rest) =>
    some { s.complete callback (channelFailure "channel stopped") with stop := .failing rest }
  | .failing [] => some { s with alive := false, stop := .returned }
  | .returned => none

end State

inductive Step where
  /-- A thread calls `request`. -/
  | call (i : Nat) (callback : Bool) (timeoutMs : UInt64)
  | caller (i : Nat) (nowMs : UInt64) (sent : Bool)
  | reader (nowMs : UInt64) (arrival : Arrival)
  | stop
  deriving DecidableEq, Repr

def State.step (s : State) : Step → Option State
  | .call i callback timeoutMs =>
    if s.callers i = .idle then
      some ({ s with given := if callback then s.given ++ [i] else s.given }.setCaller i
        (.checking callback timeoutMs))
    else none
  | .caller i nowMs sent => s.callerStep i nowMs sent
  | .reader nowMs arrival => s.readerStep nowMs arrival
  | .stop => s.stopStep

end ControlChannel
end MacMu
