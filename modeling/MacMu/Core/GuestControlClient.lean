import MacMu.Core.PendingRequestTable
import MacMu.Lib.TransitionSystem

/-!
`GuestControlClient` after `start`, as a transition system of its threads: any
number of `request` and `install_apk` calls, the accept thread, which also reads
from the agent, and one call of `stop`. A step is one access to what the threads
share: an atomic, the pending table under its mutex, the write mutex, or a
callback run. What the kernel, the file system and the agent answer are inputs
of the steps. A callback is named by the number of the call it was given to. The
bytes of the lines and the connection callback are left out: no completion
depends on them.
-/

namespace MacMu
namespace GuestControlClient

inductive Operation where
  | request
  | installApk
  deriving DecidableEq, Repr

/-- Where a call of `request` or `install_apk` stands. -/
inductive CallerPhase where
  | idle
  /-- `request` is about to look at `clientFd_`. -/
  | checking (callback : Bool) (timeoutMs : UInt64)
  /-- `install_apk` is about to set `fileTransferActive_`. -/
  | entering (callback : Bool) (timeoutMs : UInt64)
  /-- `install_apk` looks at the file. -/
  | opening (callback : Bool) (timeoutMs : UInt64)
  /-- The file is good; `install_apk` is about to look at `clientFd_`. -/
  | connecting (callback : Bool) (timeoutMs : UInt64)
  /-- `install_apk` gives up and is about to clear `fileTransferActive_`. -/
  | releasing (callback : Bool) (message : String)
  | refused (message : String)
  | admitted (operation : Operation) (callback : Bool) (timeoutMs : UInt64)
  | registering (operation : Operation) (callback : Bool) (timeoutMs requestId : UInt64)
  /-- `request` is about to try the write mutex. -/
  | tryLocking (requestId : UInt64)
  /-- `try_lock` failed. -/
  | contended (requestId : UInt64)
  | blocking (operation : Operation) (requestId : UInt64)
  /-- `request` holds the write mutex and is about to look for a transfer. -/
  | locked (requestId : UInt64)
  /-- Holds the write mutex and is about to load `clientFd_` again. -/
  | loading (operation : Operation) (requestId : UInt64)
  | sending (operation : Operation) (requestId : UInt64)
  /-- `install_apk` is about to clear `fileTransferActive_`. -/
  | settling (requestId : UInt64) (sent : Bool)
  | failed (requestId : UInt64) (message : String)
  /-- Holds the callback that `take` handed back. -/
  | completing (callback : Nat) (message : String)
  | returned
  deriving DecidableEq, Repr

/-- `request` tries the write mutex first, `install_apk` waits for it. -/
def Operation.beforeWrite : Operation → UInt64 → CallerPhase
  | request, requestId => .tryLocking requestId
  | installApk, requestId => .blocking .installApk requestId

/-- A line of the agent that `handle_line` reads as an answer. -/
structure Answer where
  id : UInt64
  ok : Bool
  payload : List UInt8
  deriving DecidableEq, Repr

/-- Where the accept thread stands; `fd` is the connection it serves. -/
inductive AcceptPhase where
  | looping
  | accepting
  | publishing (fd : Nat)
  | serving (fd : Nat)
  | polling (fd : Nat)
  /-- Lines of one read are left, and whether the rest of the buffer is oversized. -/
  | handling (fd : Nat) (answers : List Answer) (oversized : Bool)
  | answering (fd callback : Nat) (answer : Answer) (rest : List Answer) (oversized : Bool)
  | sweeping (fd : Nat)
  | expiring (fd : Nat) (callbacks : List Nat)
  | disconnecting (fd : Nat)
  | clearing
  | failing (callbacks : List Nat)
  | finished
  deriving DecidableEq, Repr

inductive StopPhase where
  | idle
  /-- `stopRequested_` is set. -/
  | closing
  | waking
  | joining
  | joined
  | failing (callbacks : List Nat)
  | returned
  deriving DecidableEq, Repr

def kMaximumApkBytes : Int := 2 * 1024 * 1024 * 1024

/-- What `open` and `fstat` say about an APK. -/
inductive ApkFile where
  | unopenable (strerror : String)
  /-- `regular` is false as well when `fstat` fails. -/
  | opened (regular : Bool) (size : Int)
  deriving DecidableEq, Repr

/-- Why `install_apk` turns a file down. -/
def ApkFile.refusal : ApkFile → Option String
  | unopenable strerror => some ("could not open APK: " ++ strerror)
  | opened regular size =>
    if regular = false ∨ size ≤ 0 then some "APK must be a non-empty regular file"
    else if kMaximumApkBytes < size then some "APK exceeds the 2 GiB transfer limit"
    else none

structure CallerInput where
  nowMs : UInt64
  /-- `try_lock` may fail for no reason. -/
  spurious : Bool
  file : ApkFile
  sent : Bool
  deriving DecidableEq, Repr

inductive Arrival where
  /-- `accept` or the handshake failed, `poll` was interrupted. -/
  | nothing
  | connection (fd : Nat)
  /-- `poll` timed out. -/
  | quiet
  /-- `poll` or `read` failed, or the agent is gone. -/
  | broken
  | lines (answers : List Answer) (oversized : Bool)
  deriving DecidableEq, Repr

/-- The client and its threads. `given` lists the calls that were given a
callback, `drawn` the calls in the order in which they drew a request id; no
step reads them. -/
structure State where
  /-- `listenFd_` is open. -/
  listenFd : Bool
  clientFd : Option Nat
  stopRequested : Bool
  fileTransferActive : Bool
  nextRequestId : UInt64
  writeMutex : Option Nat
  pending : PendingRequestTable UInt64 Nat
  callers : Nat → CallerPhase
  accept : AcceptPhase
  stop : StopPhase
  completed : List (Nat × Bool × List UInt8)
  given : List Nat
  drawn : List Nat

def start : State where
  listenFd := true
  clientFd := none
  stopRequested := false
  fileTransferActive := false
  nextRequestId := 1
  writeMutex := none
  pending := .empty
  callers := fun _ => .idle
  accept := .looping
  stop := .idle
  completed := []
  given := []
  drawn := []

namespace State

variable (s : State)

def setCaller (i : Nat) (phase : CallerPhase) : State :=
  { s with callers := Function.update s.callers i phase }

def complete (callback : Nat) (ok : Bool) (payload : List UInt8) : State :=
  { s with completed := s.completed ++ [(callback, ok, payload)] }

def fail (callback : Nat) (message : String) : State :=
  s.complete callback false message.toUTF8.toList

def giveUp (callback : Bool) (message : String) : CallerPhase :=
  if callback then .refused message else .returned

/-- The next step of call `i`. -/
def callerStep (i : Nat) (input : CallerInput) : Option State :=
  match s.callers i with
  | .idle | .returned => none
  | .checking callback timeoutMs =>
    some (s.setCaller i (if s.clientFd.isSome then .admitted .request callback timeoutMs
      else giveUp callback "guest agent not connected"))
  | .entering callback timeoutMs =>
    if s.fileTransferActive then
      some (s.setCaller i (giveUp callback "another APK transfer is already in progress"))
    else some ({ s with fileTransferActive := true }.setCaller i (.opening callback timeoutMs))
  | .opening callback timeoutMs =>
    some (s.setCaller i (match input.file.refusal with
      | none => .connecting callback timeoutMs
      | some message => .releasing callback message))
  | .connecting callback timeoutMs =>
    some (s.setCaller i (if s.clientFd.isSome then .admitted .installApk callback timeoutMs
      else .releasing callback "guest agent not connected"))
  | .releasing callback message =>
    some ({ s with fileTransferActive := false }.setCaller i (giveUp callback message))
  | .refused message => some ((s.fail i message).setCaller i .returned)
  | .admitted operation callback timeoutMs =>
    some ({ s with
      nextRequestId := s.nextRequestId + 1
      drawn := s.drawn ++ [i] }.setCaller i
        (.registering operation callback timeoutMs s.nextRequestId))
  | .registering operation callback timeoutMs requestId =>
    let registered :=
      if callback then { s with pending := s.pending.add requestId i input.nowMs timeoutMs }
      else s
    some (registered.setCaller i (operation.beforeWrite requestId))
  | .tryLocking requestId =>
    if s.writeMutex.isSome ∨ input.spurious then some (s.setCaller i (.contended requestId))
    else some ({ s with writeMutex := some i }.setCaller i (.locked requestId))
  | .contended requestId =>
    some (s.setCaller i (if s.fileTransferActive then
      .failed requestId "APK transfer in progress" else .blocking .request requestId))
  | .blocking operation requestId =>
    if s.writeMutex.isSome then none
    else some ({ s with writeMutex := some i }.setCaller i (match operation with
      | .request => .locked requestId
      | .installApk => .loading .installApk requestId))
  | .locked requestId =>
    if s.fileTransferActive then
      some ({ s with writeMutex := none }.setCaller i
        (.failed requestId "APK transfer in progress"))
    else some (s.setCaller i (.loading .request requestId))
  | .loading operation requestId =>
    if s.clientFd.isSome then some (s.setCaller i (.sending operation requestId))
    else some ({ s with writeMutex := none }.setCaller i (match operation with
      | .request => .failed requestId "guest control write failed"
      | .installApk => .settling requestId false))
  | .sending operation requestId =>
    some ({ s with writeMutex := none }.setCaller i (match operation with
      | .request =>
        if input.sent then .returned else .failed requestId "guest control write failed"
      | .installApk => .settling requestId input.sent))
  | .settling requestId sent =>
    some ({ s with fileTransferActive := false }.setCaller i
      (if sent then .returned else .failed requestId "APK transfer failed"))
  | .failed requestId message =>
    match s.pending.take requestId with
    | (none, pending) => some ({ s with pending := pending }.setCaller i .returned)
    | (some callback, pending) =>
      some ({ s with pending := pending }.setCaller i (.completing callback message))
  | .completing callback message => some ((s.fail callback message).setCaller i .returned)

def acceptStep (nowMs : UInt64) (arrival : Arrival) : Option State :=
  match s.accept with
  | .looping => some { s with accept := if s.stopRequested then .finished else .accepting }
  | .accepting =>
    match arrival with
    -- A handshake goes on when the listener is closed meanwhile.
    | .connection fd => some { s with accept := .publishing fd }
    | _ => some { s with accept := if s.listenFd then .looping else .finished }
  | .publishing fd =>
    if s.writeMutex.isSome then none
    else if s.stopRequested then some { s with accept := .finished }
    else some { s with clientFd := some fd, accept := .serving fd }
  | .serving fd =>
    some { s with accept := if s.stopRequested then .disconnecting fd else .polling fd }
  | .polling fd =>
    match arrival with
    | .quiet => some { s with accept := .sweeping fd }
    | .broken => some { s with accept := .disconnecting fd }
    | .lines answers oversized => some { s with accept := .handling fd answers oversized }
    | _ => some { s with accept := .serving fd }
  | .handling fd [] oversized =>
    some { s with accept := if oversized then .disconnecting fd else .serving fd }
  | .handling fd (answer :: rest) oversized =>
    match s.pending.take answer.id with
    | (none, pending) => some { s with pending := pending, accept := .handling fd rest oversized }
    | (some callback, pending) =>
      some { s with
        pending := pending, accept := .answering fd callback answer rest oversized }
  | .answering fd callback answer rest oversized =>
    some { s.complete callback answer.ok answer.payload with
      accept := .handling fd rest oversized }
  | .sweeping fd =>
    match s.pending.sweepTimeouts nowMs with
    | (callbacks, pending) => some { s with pending := pending, accept := .expiring fd callbacks }
  | .expiring fd [] => some { s with accept := .serving fd }
  | .expiring fd (callback :: rest) =>
    some { s.fail callback "guest request timed out" with accept := .expiring fd rest }
  | .disconnecting fd =>
    if s.writeMutex.isSome then none
    else
      some { s with
        clientFd := if s.clientFd = some fd then none else s.clientFd, accept := .clearing }
  | .clearing =>
    match s.pending.failAll with
    | (callbacks, pending) => some { s with pending := pending, accept := .failing callbacks }
  | .failing [] => some { s with accept := .looping }
  | .failing (callback :: rest) =>
    some { s.fail callback "guest agent disconnected" with accept := .failing rest }
  | .finished => none

def stopStep : Option State :=
  match s.stop with
  | .idle => some { s with stopRequested := true, stop := .closing }
  | .closing => some { s with listenFd := false, stop := .waking }
  | .waking => if s.writeMutex.isSome then none else some { s with stop := .joining }
  | .joining => if s.accept = .finished then some { s with stop := .joined } else none
  | .joined =>
    match s.pending.failAll with
    | (callbacks, pending) => some { s with pending := pending, stop := .failing callbacks }
  | .failing (callback :: rest) =>
    some { s.fail callback "guest control client stopped" with stop := .failing rest }
  | .failing [] => some { s with stop := .returned }
  | .returned => none

end State

inductive Step where
  /-- A thread calls `request` or `install_apk`. -/
  | call (i : Nat) (operation : Operation) (callback : Bool) (timeoutMs : UInt64)
  | caller (i : Nat) (input : CallerInput)
  | accept (nowMs : UInt64) (arrival : Arrival)
  | stop
  deriving DecidableEq, Repr

def Operation.entry (operation : Operation) (callback : Bool) (timeoutMs : UInt64) : CallerPhase :=
  match operation with
  | .request => .checking callback timeoutMs
  | .installApk => .entering callback timeoutMs

def State.step (s : State) : Step → Option State
  | .call i operation callback timeoutMs =>
    if s.callers i = .idle then
      some ({ s with given := if callback then s.given ++ [i] else s.given }.setCaller i
        (operation.entry callback timeoutMs))
    else none
  | .caller i input => s.callerStep i input
  | .accept nowMs arrival => s.acceptStep nowMs arrival
  | .stop => s.stopStep

end GuestControlClient
end MacMu
