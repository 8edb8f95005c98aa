import MacMu.Core.GuestControlLines
import MacMu.Core.HidKeyboard
import MacMu.Core.InputSender

/-!
`GuestInputSender`: the accept thread, `start` and `stop`, and any number of callers of
the `send_*` functions. A caller has `m_socketMutex` from the look at `m_writeFd` to its
return, and each of its system calls is one step; what the accept thread and `stop` do
under the mutex is one step each, taken while no caller has it. A connection is numbered
by how many were accepted before it. How a system call gets on is left open.

A scroll is given by what `milliscroll` makes of its two deltas. The path of the socket,
its unlinking and the log are left out; the connection that `wake_unix_listener` makes is
one that may be accepted like any other.
-/

namespace MacMu
namespace GuestInputSender

open GuestControlClient (ascii)
open InputSender (InputEventKind)

abbrev Bytes := List UInt8

/-- `%d` -/
def decimal (value : Int32) : Bytes :=
  if value < 0 then ascii "-" ++ Decimal.bytes value.toInt.natAbs
  else Decimal.bytes value.toInt.natAbs

/-- `%u` -/
def unsigned (value : UInt32) : Bytes := Decimal.bytes value.toNat

inductive Call where
  | hover (displayId : UInt32) (x y : Int32)
  | hoverExit
  | scroll (displayId : UInt32) (x y hscrollMilli vscrollMilli : Int32)
  | touch (kind : InputEventKind) (displayId : UInt32) (pointerId x y : Int32)
  | mouseMove (displayId : UInt32) (x y : Int32) (buttons : UInt32)
  | mouseButton (displayId : UInt32) (x y : Int32) (buttons : UInt32)
  | keyboardReport (displayId : UInt32) (report : HidKeyboard.Report)
  deriving DecidableEq, Repr

/-- What a call comes to: an answer at once, or a line for `send_line`. -/
inductive Outgoing where
  | done (result : Bool)
  | line (bytes : Bytes) (reliable : Bool)
  deriving DecidableEq, Repr

/-- A line has to fit its buffer together with the zero after it. -/
def fitting (size : Nat) (bytes : Bytes) (reliable : Bool) : Outgoing :=
  if size ≤ bytes.length then .done false else .line bytes reliable

def fields (values : List Bytes) : Bytes := (values.intersperse (ascii " ")).flatten

def phase : InputEventKind → Option String
  | .touchBegin => some "b"
  | .touchUpdate => some "m"
  | .touchEnd => some "e"
  | _ => none

def hexDigit (value : UInt8) : UInt8 := if value < 10 then 48 + value else 87 + value

def hex (report : HidKeyboard.Report) : Bytes :=
  report.toList.flatMap fun (byte : UInt8) => [hexDigit (byte >>> 4), hexDigit (byte &&& 0x0f)]

def Call.outgoing : Call → Outgoing
  | hover displayId x y =>
    fitting 96 (fields [ascii "h", unsigned displayId, decimal x, decimal y] ++ [10]) false
  | hoverExit => .line (ascii "e" ++ [10]) true
  | scroll displayId x y hscrollMilli vscrollMilli =>
    if hscrollMilli = 0 ∧ vscrollMilli = 0 then .done true
    else
      fitting 128
        (fields [ascii "s", unsigned displayId, decimal x, decimal y, decimal hscrollMilli,
          decimal vscrollMilli] ++ [10]) false
  | touch kind displayId pointerId x y =>
    match phase kind with
    | none => .done false
    | some letter =>
      fitting 128
        (fields [ascii "t", unsigned displayId, decimal pointerId, ascii letter, decimal x,
          decimal y] ++ [10]) (letter != "m")
  | mouseMove displayId x y buttons =>
    fitting 128
      (fields [ascii "m", unsigned displayId, decimal x, decimal y, unsigned buttons] ++ [10])
      false
  | mouseButton displayId x y buttons =>
    fitting 128
      (fields [ascii "b", unsigned displayId, decimal x, decimal y, unsigned buttons] ++ [10])
      true
  | keyboardReport displayId report =>
    fitting 64 (fields [ascii "k", unsigned displayId, hex report] ++ [10]) true

def IsLine (bytes : Bytes) : Prop := ∃ body, bytes = body ++ [10] ∧ 10 ∉ body

theorem newline_not_mem_unsigned (value : Nat) : 10 ∉ Decimal.bytes value := by
  intro hmem
  cases Decimal.isDigit_of_mem_bytes hmem

theorem newline_not_mem_decimal (value : Int32) : 10 ∉ decimal value := by
  unfold decimal
  split
  · intro hmem
    obtain hsign | hdigit := List.mem_append.mp hmem
    · exact absurd hsign (by decide)
    · exact newline_not_mem_unsigned _ hdigit
  · exact newline_not_mem_unsigned _

theorem newline_not_mem_hex (report : HidKeyboard.Report) : 10 ∉ hex report := by
  have hdigits : ∀ n < 256, hexDigit (UInt8.ofNat n >>> 4) ≠ 10 ∧
      hexDigit (UInt8.ofNat n &&& 0x0f) ≠ 10 := by decide +kernel
  intro hmem
  obtain ⟨byte, -, hbyte⟩ := List.mem_flatMap.mp hmem
  have hdigit := hdigits byte.toNat byte.toNat_lt
  rw [UInt8.ofNat_toNat] at hdigit
  obtain hhigh | hlow := List.mem_cons.mp hbyte
  · exact hdigit.1 hhigh.symm
  · exact hdigit.2 (List.mem_singleton.mp hlow).symm

theorem isLine_fields {values : List Bytes} (h : ∀ value ∈ values, 10 ∉ value) :
    IsLine (fields values ++ [10]) := by
  refine ⟨fields values, rfl, ?_⟩
  induction values with
  | nil => exact List.not_mem_nil
  | cons value values ih =>
    obtain ⟨hvalue, hvalues⟩ := List.forall_mem_cons.mp h
    have hrest := ih hvalues
    cases values with
    | nil => simpa [fields] using hvalue
    | cons other values =>
      have hfields : fields (value :: other :: values) =
          value ++ ascii " " ++ fields (other :: values) := by simp [fields]
      have hblank : 10 ∉ ascii " " := by decide
      simp only [hfields, List.mem_append, hvalue, hblank, hrest, or_self, not_false_eq_true]

/-- What is handed to `send_line` is one line. -/
theorem isLine_of_outgoing {call : Call} {bytes : Bytes} {reliable : Bool}
    (h : call.outgoing = .line bytes reliable) : IsLine bytes := by
  have hfitting : ∀ {size : Nat} {text : Bytes} {flag : Bool},
      fitting size text flag = .line bytes reliable → bytes = text := by
    intro size text flag heq
    unfold fitting at heq
    split at heq <;> cases heq
    rfl
  have hunsigned (value : UInt32) : 10 ∉ unsigned value := newline_not_mem_unsigned _
  cases call with
  | hover displayId x y =>
    rw [hfitting h]
    apply isLine_fields
    simp [newline_not_mem_decimal, hunsigned, ascii]
  | hoverExit =>
    cases h
    exact ⟨ascii "e", rfl, by decide⟩
  | scroll displayId x y hscrollMilli vscrollMilli =>
    rw [Call.outgoing] at h
    split at h
    · cases h
    · rw [hfitting h]
      apply isLine_fields
      simp [newline_not_mem_decimal, hunsigned, ascii]
  | touch kind displayId pointerId x y =>
    rw [Call.outgoing] at h
    cases kind with
    | mouseMove | mouseButton => cases h
    | touchBegin | touchUpdate | touchEnd =>
      rw [hfitting h]
      apply isLine_fields
      simp [newline_not_mem_decimal, hunsigned, ascii]
  | mouseMove displayId x y buttons | mouseButton displayId x y buttons =>
    rw [hfitting h]
    apply isLine_fields
    simp [newline_not_mem_decimal, hunsigned, ascii]
  | keyboardReport displayId report =>
    rw [hfitting h]
    apply isLine_fields
    simp [newline_not_mem_hex, hunsigned, ascii]

/-- What `perform_unix_pipe_handshake` sends. -/
def ping : Bytes := ascii "v" ++ [10]

structure Socket where
  bytes : Bytes
  isOpen : Bool
  deriving DecidableEq, Repr

/-- Where `send_line` is. -/
inductive Stage where
  | send (fd : Nat)
  | poll (fd : Nat)
  | resend (fd : Nat)
  | drop (fd : Nat)
  | leave (connection : Option Nat) (result : Bool)
  deriving DecidableEq, Repr

/-- The look at `m_writeFd`. -/
def Stage.first : Option Nat → Stage
  | none => leave none false
  | some fd => send fd

structure Holder where
  call : Call
  line : Bytes
  reliable : Bool
  stage : Stage
  deriving DecidableEq, Repr

structure Return where
  call : Call
  connection : Option Nat
  result : Bool
  deriving DecidableEq, Repr

inductive AcceptPhase where
  | looping
  | loading
  | accepting
  | preparing (fd : Nat)
  | pinging (fd : Nat)
  | awaiting (fd : Nat)
  | refusing (fd : Nat)
  | publishing (fd : Nat)
  | finished
  deriving DecidableEq, Repr

/-- Where `start` and `stop` are. `start` begins with `stop`. -/
inductive Control where
  | stopped
  | flagging (starting : Bool)
  | closingListener (starting : Bool)
  | closingClient (starting : Bool)
  | joining (starting : Bool)
  | listening
  | clearing
  | storing
  | spawning
  | started
  deriving DecidableEq, Repr

structure State where
  stopRequested : Bool
  /-- `m_listenFd` is a descriptor. -/
  listening : Bool
  writeFd : Option Nat
  sockets : List Socket
  mutex : Option Holder
  accept : AcceptPhase
  control : Control
  /-- The calls that have returned, in the order in which they had the mutex. -/
  returned : List Return
  deriving DecidableEq, Repr

def State.initial : State := ⟨false, false, none, [], none, .finished, .stopped, []⟩

/-- How a `send` gets on. -/
inductive Sent where
  | wrote (count : Nat)
  | wouldBlock
  | failed
  deriving DecidableEq, Repr

inductive Polled where
  | interrupted
  | writable
  | otherwise
  deriving DecidableEq, Repr

def Stage.polled (fd : Nat) : Polled → Stage
  | .interrupted => poll fd
  | .writable => resend fd
  | .otherwise => drop fd

/-- A step of the accept thread, with what its system call says. -/
inductive Event where
  | next
  | passed
  | failed
  | wrote (count : Nat)
  deriving DecidableEq, Repr

inductive Action where
  | start
  | stop
  /-- The call of `start` or `stop` goes on. -/
  | control
  | listen (passed : Bool)
  | accept (event : Event)
  | call (call : Call)
  | send (outcome : Sent)
  | poll (outcome : Polled)
  | drop
  | leave
  deriving DecidableEq, Repr

namespace State

def ready (s : State) : Bool := s.writeFd.isSome

def write (s : State) (fd : Nat) (bytes : Bytes) : State :=
  { s with sockets := s.sockets.modify fd fun c => { c with bytes := c.bytes ++ bytes } }

def close (s : State) (fd : Nat) : State :=
  { s with sockets := s.sockets.modify fd fun c => { c with isOpen := false } }

/-- `close_client_locked` -/
def closeClient (s : State) : State :=
  match s.writeFd with
  | none => s
  | some fd => { s.close fd with writeFd := none }

def acceptStep (s : State) (event : Event) : Option State :=
  match s.accept, event with
  | .looping, .next =>
    some { s with accept := if s.stopRequested then .finished else .loading }
  | .loading, .next => some { s with accept := if s.listening then .accepting else .finished }
  | .accepting, .passed =>
    some { s with sockets := s.sockets ++ [⟨[], true⟩], accept := .preparing s.sockets.length }
  | .accepting, .failed => some { s with accept := .looping }
  | .preparing fd, .passed => some { s with accept := .pinging fd }
  | .preparing fd, .failed => some { s with accept := .refusing fd }
  | .pinging fd, .wrote count =>
    if ping.length < count then none
    else
      some { s.write fd (ping.take count) with
        accept := if count = ping.length then .awaiting fd else .refusing fd }
  | .pinging fd, .failed => some { s with accept := .refusing fd }
  | .awaiting fd, .passed => some { s with accept := .publishing fd }
  | .awaiting fd, .failed => some { s with accept := .refusing fd }
  | .refusing fd, .next => some { s.close fd with accept := .looping }
  | .publishing fd, .next =>
    -- The flag is not looked at again.
    if s.mutex.isSome then none
    else some { s.closeClient with writeFd := some fd, accept := .looping }
  | _, _ => none

def controlStep (s : State) : Option State :=
  match s.control with
  | .flagging starting =>
    some { s with stopRequested := true, control := .closingListener starting }
  | .closingListener starting =>
    some { s with listening := false, control := .closingClient starting }
  | .closingClient starting =>
    if s.mutex.isSome then none else some { s.closeClient with control := .joining starting }
  | .joining starting =>
    if s.accept = .finished then
      some { s with control := if starting then .listening else .stopped }
    else none
  | .clearing => some { s with stopRequested := false, control := .storing }
  | .storing => some { s with listening := true, control := .spawning }
  | .spawning => some { s with accept := .looping, control := .started }
  | .stopped | .listening | .started => none

/-- A new call of `start` or `stop`. -/
def enter (s : State) (starting : Bool) : Option State :=
  match s.control with
  | .stopped | .started => some { s with control := .flagging starting }
  | _ => none

/-- A new call of a `send_*` function. -/
def callStep (s : State) (call : Call) : Option State :=
  match call.outgoing with
  | .done result => some { s with returned := s.returned ++ [⟨call, none, result⟩] }
  | .line bytes reliable =>
    if s.mutex.isSome then none
    else some { s with mutex := some ⟨call, bytes, reliable, Stage.first s.writeFd⟩ }

/-- One `send` of the line. A line of which only a part is written is not sent on. -/
def transmit (s : State) (h : Holder) (fd : Nat) (outcome : Sent) (blocked : Stage) :
    Option State :=
  match outcome with
  | .wrote count =>
    if h.line.length < count then none
    else
      let stage := if count = h.line.length then .leave (some fd) true else .drop fd
      some { s.write fd (h.line.take count) with mutex := some { h with stage := stage } }
  | .wouldBlock => some { s with mutex := some { h with stage := blocked } }
  | .failed => some { s with mutex := some { h with stage := .drop fd } }

def sendStep (s : State) (outcome : Sent) : Option State :=
  match s.mutex with
  | none => none
  | some h =>
    match h.stage with
    | .send fd =>
      s.transmit h fd outcome (if h.reliable then .poll fd else .leave (some fd) false)
    | .resend fd => s.transmit h fd outcome (.drop fd)
    | _ => none

def pollStep (s : State) (outcome : Polled) : Option State :=
  match s.mutex with
  | none => none
  | some h =>
    match h.stage with
    | .poll fd => some { s with mutex := some { h with stage := Stage.polled fd outcome } }
    | _ => none

def dropStep (s : State) : Option State :=
  match s.mutex with
  | none => none
  | some h =>
    match h.stage with
    | .drop fd =>
      some { s.closeClient with mutex := some { h with stage := .leave (some fd) false } }
    | _ => none

def leaveStep (s : State) : Option State :=
  match s.mutex with
  | none => none
  | some h =>
    match h.stage with
    | .leave connection result =>
      some { s with
        mutex := none, returned := s.returned ++ [⟨h.call, connection, result⟩] }
    | _ => none

def step (s : State) : Action → Option State
  | .start => s.enter true
  | .stop => s.enter false
  | .control => s.controlStep
  | .listen passed =>
    if s.control = .listening then
      some { s with control := if passed then .clearing else .stopped }
    else none
  | .accept event => s.acceptStep event
  | .call call => s.callStep call
  | .send outcome => s.sendStep outcome
  | .poll outcome => s.pollStep outcome
  | .drop => s.dropStep
  | .leave => s.leaveStep

end State

end GuestInputSender
end MacMu
