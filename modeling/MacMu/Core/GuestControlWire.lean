import MacMu.Core.GuestControlLines

/-!
The threads of `GuestControlClient` together with the bytes they put on an agent
connection. The threads are those of `GuestControlClient.State`; here the phase
in which a call sends is taken apart into its system calls, and the end of that
phase must report what they came to. The log of a connection has one entry for
each stretch of bytes of one call. A connection that was shut down takes no more
bytes; any other send may come back in any way.
-/

namespace MacMu
namespace GuestControlWire

open GuestControlClient ByteStream

inductive Message where
  | request (requestId : UInt64) (command : List UInt8)
  | install (requestId : UInt64) (apkSize : Nat)
  deriving DecidableEq, Repr

namespace Message

/-- All bytes of the message: a line, or a header and as many bytes as it
announces. -/
def Whole : Message → List UInt8 → Prop
  | request requestId command, put => put = requestLine requestId command
  | install requestId apkSize, put =>
    ∃ data, data.length = apkSize ∧ put = installHeader requestId apkSize ++ data

def Incomplete (m : Message) (put : List UInt8) : Prop :=
  ∃ more, more ≠ [] ∧ m.Whole (put ++ more)

end Message

inductive WritePhase where
  /-- The bytes still to send, and how much of the file comes after them if the
  call is an installation. -/
  | sending (left : List UInt8) (remaining : Option Nat)
  | transferring (remaining : Nat)
  | reading (remaining : Nat)
  | finished (sent : Bool)
  deriving DecidableEq, Repr

def Message.start : Message → WritePhase
  | request requestId command => .sending (requestLine requestId command) none
  | install requestId apkSize => .sending (installHeader requestId apkSize) (some apkSize)

inductive WriteInput where
  | send (outcome : Transfer)
  /-- `read` on the APK; no bytes at the end of the file. -/
  | read (bytes : List UInt8)
  | readInterrupted
  | readFailed
  | go
  deriving DecidableEq, Repr

/-- The next step of a writer: the bytes it puts and where it goes. -/
def WritePhase.step (stopRequested shut : Bool) :
    WritePhase → WriteInput → Option (List UInt8 × WritePhase)
  | .sending [] none, .go => some ([], .finished true)
  | .sending [] (some remaining), .go => some ([], .transferring remaining)
  | .sending (b :: bs) remaining, .send (.wrote (n + 1)) =>
    if shut then none else some (b :: bs.take n, .sending (bs.drop n) remaining)
  | .sending (b :: bs) remaining, .send .interrupted => some ([], .sending (b :: bs) remaining)
  | .sending (_ :: _) _, .send (.wrote 0) | .sending (_ :: _) _, .send .failed =>
    some ([], .finished false)
  | .transferring remaining, .go =>
    if remaining = 0 then some ([], .finished true)
    else if stopRequested then some ([], .finished false)
    else some ([], .reading remaining)
  | .reading remaining, .read (b :: bs) =>
    if (b :: bs).length ≤ min remaining kApkTransferBufferBytes then
      some ([], .sending (b :: bs) (some (remaining - (b :: bs).length)))
    else none
  | .reading _, .read [] | .reading _, .readFailed => some ([], .finished false)
  | .reading remaining, .readInterrupted => some ([], .transferring remaining)
  | _, _ => none

structure Entry where
  call : Nat
  message : Message
  put : List UInt8
  deriving DecidableEq, Repr

/-- More bytes of a call, after its own if they are the last ones. -/
def append (log : List Entry) (call : Nat) (message : Message) (put : List UInt8) : List Entry :=
  if put = [] then log
  else
    match log.getLast? with
    | some e =>
      if e.call = call then log.dropLast ++ [{ e with put := e.put ++ put }]
      else log ++ [⟨call, message, put⟩]
    | none => [⟨call, message, put⟩]

/-- The client's threads and its connections. `log` and `shut` belong to the
connection published last, `past` has the logs of the ones before. -/
structure World where
  client : State
  commands : Nat → List UInt8
  apkSizes : Nat → Nat
  writers : Nat → Option (Message × WritePhase)
  log : List Entry
  shut : Bool
  past : List (List Entry)

inductive Step where
  | call (i : Nat) (operation : Operation) (callback : Bool) (timeoutMs : UInt64)
      (command : List UInt8)
  | caller (i : Nat) (input : CallerInput)
  | write (i : Nat) (input : WriteInput)
  | accept (nowMs : UInt64) (arrival : GuestControlClient.Arrival)
  | stop
  deriving DecidableEq, Repr

namespace World

variable (w : World)

def message (i : Nat) (requestId : UInt64) : Operation → Message
  | .request => .request requestId (w.commands i)
  | .installApk => .install requestId (w.apkSizes i)

/-- The size `fstat` reports. -/
def apkSize (i : Nat) : ApkFile → Nat
  | .opened _ size => size.toNat
  | .unopenable _ => w.apkSizes i

def callerStep (i : Nat) (input : CallerInput) : Option World :=
  match w.client.callers i with
  | .opening .. =>
    (w.client.callerStep i input).map fun client =>
      { w with
        client := client
        apkSizes := Function.update w.apkSizes i (w.apkSize i input.file) }
  | .loading operation requestId =>
    (w.client.callerStep i input).map fun client =>
      let message := w.message i requestId operation
      { w with
        client := client
        writers := Function.update w.writers i
          (if w.client.clientFd.isSome then some (message, message.start) else none) }
  | .sending operation _ =>
    match w.writers i with
    | some (_, .finished sent) =>
      if input.sent = sent then
        (w.client.callerStep i input).map fun client =>
          { w with
            client := client
            writers := Function.update w.writers i none
            -- a failed installation shuts the connection down before it unlocks
            shut := w.shut || (decide (operation = .installApk) && !sent) }
      else none
    | _ => none
  | _ => (w.client.callerStep i input).map fun client => { w with client := client }

def writeStep (i : Nat) (input : WriteInput) : Option World :=
  match w.client.callers i, w.writers i with
  | .sending .., some (message, phase) =>
    (phase.step w.client.stopRequested w.shut input).map fun next =>
      { w with
        writers := Function.update w.writers i (some (message, next.2))
        log := append w.log i message next.1 }
  | _, _ => none

def step : Step → Option World
  | .call i operation callback timeoutMs command =>
    (w.client.step (.call i operation callback timeoutMs)).map fun client =>
      { w with client := client, commands := Function.update w.commands i command }
  | .caller i input => w.callerStep i input
  | .write i input => w.writeStep i input
  | .accept nowMs arrival =>
    (w.client.acceptStep nowMs arrival).map fun client =>
      match w.client.accept, client.accept with
      | .publishing _, .serving _ =>
        { w with client := client, log := [], shut := false, past := w.past ++ [w.log] }
      | _, _ => { w with client := client }
  | .stop =>
    w.client.stopStep.map fun client =>
      match w.client.stop with
      | .waking => { w with client := client, shut := w.shut || w.client.clientFd.isSome }
      | _ => { w with client := client }

def start : World where
  client := GuestControlClient.start
  commands := fun _ => []
  apkSizes := fun _ => 0
  writers := fun _ => none
  log := []
  shut := false
  past := []

def logs : List (List Entry) := w.past ++ [w.log]

end World

/-- Whole messages, and at most one incomplete one, which is the last. -/
def Intact (log : List Entry) : Prop :=
  (∀ e ∈ log.dropLast, e.message.Whole e.put) ∧
    ∀ e ∈ log.getLast?, e.message.Whole e.put ∨ e.message.Incomplete e.put

end GuestControlWire
end MacMu
