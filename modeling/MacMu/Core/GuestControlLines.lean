import MacMu.Core.GuestControlClient
import MacMu.Lib.ByteStream
import MacMu.Lib.Decimal
import MacMu.Lib.Lines

/-!
The bytes of `GuestControlClient`: the request lines and install messages it
writes on a connection, and `serve_connection`, which cuts what the agent sends
into lines and hands answers to pending requests. One thread's view: a write
here has the connection to itself, and the table changes only through the
answers and the timeout sweeps of this loop.
-/

namespace MacMu
namespace GuestControlClient

open ByteStream

def ascii (s : String) : List UInt8 := s.toList.map fun c => UInt8.ofNat c.toNat

def requestLine (requestId : UInt64) (command : List UInt8) : List UInt8 :=
  Decimal.bytes requestId.toNat ++ ascii " " ++ command ++ ascii "\n"

def installHeader (requestId : UInt64) (apkSize : Nat) : List UInt8 :=
  Decimal.bytes requestId.toNat ++ ascii " install " ++ Decimal.bytes apkSize ++ ascii "\n"

def kApkTransferBufferBytes : Nat := 256 * 1024

/-- The transfer loop of `install_apk` while no stop is requested. -/
def sendApk (remaining : Nat) (file : List ByteStream.Arrival) (ts : List Transfer) : Written :=
  if _h : remaining = 0 then ⟨[], some true, ts⟩
  else
    match readSome (min remaining kApkTransferBufferBytes) file with
    | .data b bs file => (writeAll (b :: bs) ts).andThen (sendApk (remaining - (bs.length + 1)) file)
    | .endOfFile | .failed => ⟨[], some false, ts⟩
termination_by remaining

/-- A call that reaches the connection; `file` is how the APK reads. -/
inductive Call where
  | request (requestId : UInt64) (command : List UInt8)
  | installApk (requestId : UInt64) (file : List ByteStream.Arrival)
  deriving DecidableEq, Repr

namespace Call

def bytes : Call → List UInt8
  | request requestId command => requestLine requestId command
  | installApk requestId file =>
    installHeader requestId (received file).length ++ received file

def write : Call → List Transfer → Written
  | request requestId command, ts => writeAll (requestLine requestId command) ts
  | installApk requestId file, ts =>
    (writeAll (installHeader requestId (received file).length) ts).andThen
      (sendApk (received file).length file)

end Call

def writeCalls : List Call → List Transfer → Written
  | [], ts => ⟨[], some true, ts⟩
  | call :: calls, ts => (call.write ts).andThen (writeCalls calls)

theorem puts_sendApk (remaining : Nat) (file : List ByteStream.Arrival)
    (h : remaining ≤ (received file).length) :
    Puts ((received file).take remaining) (sendApk remaining file) := by
  induction remaining using Nat.strong_induction_on generalizing file with
  | _ remaining ih =>
    by_cases hzero : remaining = 0
    · have hnil : sendApk remaining file = writeAll [] := by
        funext ts
        rw [sendApk, dif_pos hzero, writeAll]
      rw [hnil, hzero, List.take_zero]
      exact puts_writeAll []
    · have hne : received file ≠ [] := List.length_pos_iff.mp (by omega)
      obtain ⟨b, bs, later, hread⟩ :=
        readSome_of_received (min remaining kApkTransferBufferBytes) hne
      obtain ⟨hlen, hrec⟩ := readSome_data hread
      have hpiece : (b :: bs).length ≤ remaining := by
        rw [List.length_cons]
        omega
      have hsend : sendApk remaining file = fun ts =>
          (writeAll (b :: bs) ts).andThen (sendApk (remaining - (bs.length + 1)) later) := by
        funext ts
        rw [sendApk, dif_neg hzero, hread]
      rw [hrec, List.length_append, List.length_cons] at h
      rw [hsend, hrec, List.take_append, List.take_of_length_le hpiece, List.length_cons]
      exact (puts_writeAll (b :: bs)).andThen (ih _ (by omega) later (by omega))

theorem Call.puts_write (call : Call) : Puts call.bytes call.write := by
  cases call with
  | request requestId command => exact puts_writeAll _
  | installApk requestId file =>
    have hsend := puts_sendApk (received file).length file (Nat.le_refl _)
    rw [List.take_length] at hsend
    exact (puts_writeAll _).andThen hsend

theorem puts_writeCalls (calls : List Call) :
    Puts (calls.flatMap Call.bytes) (writeCalls calls) := by
  induction calls with
  | nil =>
    have hnil : writeCalls [] = writeAll [] := by
      funext ts
      rw [writeCalls, writeAll]
    rw [hnil]
    exact puts_writeAll []
  | cons call calls ih => exact call.puts_write.andThen ih

/-- `isspace` in the C locale. -/
def isSpace (b : UInt8) : Bool := b = 32 ∨ (9 ≤ b ∧ b ≤ 13)

def signed : List UInt8 → Bool × List UInt8
  | 45 :: digits => (true, digits)
  | 43 :: digits => (false, digits)
  | digits => (false, digits)

/-- `strtoull` in base 10, `none` where `errno` is set or nothing is converted. -/
def strtoull (s : List UInt8) : Option (UInt64 × List UInt8) :=
  let number := signed (s.dropWhile isSpace)
  let digits := number.2.takeWhile fun b => Decimal.isDigit b.toNat
  let n := Decimal.value (digits.map UInt8.toNat)
  if digits = [] ∨ 2 ^ 64 ≤ n then none
  else
    some (if number.1 then -UInt64.ofNat n else UInt64.ofNat n,
      number.2.dropWhile fun b => Decimal.isDigit b.toNat)

/-- The rest of an answer after the word, without the space that follows it. -/
def afterWord (word rest : List UInt8) : Option (List UInt8) :=
  if word <+: rest then
    match rest.drop word.length with
    | [] => some []
    | 32 :: payload => some payload
    | _ => none
  else none

/-- What `handle_line` reads in a line. The line is used as a C string. -/
def parseAnswer (line : List UInt8) : Option Answer :=
  match strtoull (line.takeWhile (· ≠ 0)) with
  | some (id, 32 :: rest) =>
    match afterWord (ascii "ok") rest with
    | some payload => some ⟨id, true, payload⟩
    | none => (afterWord (ascii "err") rest).map fun message => ⟨id, false, message⟩
  | _ => none

/-- How `poll` and `read` in `serve_connection` come back. -/
inductive Wake where
  | quiet (nowMs : UInt64)
  | interrupted
  | failed
  | stopRequested
  /-- The bytes of one `read`; none at the end of the stream. -/
  | read (bytes : List UInt8)
  deriving DecidableEq, Repr

/-- `completed` has the answers handed out, with the request id they were for;
`expired` the callbacks that a sweep failed. -/
structure Serving (γ : Type) where
  buffer : List UInt8
  pending : PendingRequestTable UInt64 γ
  completed : List (UInt64 × γ × Bool × List UInt8)
  expired : List γ

namespace Serving

variable {γ : Type} (s : Serving γ)

def handleLine (line : List UInt8) : Serving γ :=
  match parseAnswer line with
  | none => s
  | some answer =>
    match s.pending.take answer.id with
    | (none, pending) => { s with pending := pending }
    | (some callback, pending) =>
      { s with
        pending := pending
        completed := s.completed ++ [(answer.id, callback, answer.ok, answer.payload)] }

/-- A line of the buffer: a carriage return at its end goes, an empty line is
not looked at. -/
def takeLine (line : List UInt8) : Serving γ :=
  let line := if line.getLast? = some 13 then line.dropLast else line
  if line = [] then s else s.handleLine line

def readChunk (bytes : List UInt8) : Serving γ :=
  let cut := Lines.cut 10 (s.buffer ++ bytes)
  cut.1.foldl takeLine { s with buffer := cut.2 }

def maximumLine : Nat := 4 * 1024 * 1024

def sweep (nowMs : UInt64) : Serving γ :=
  let swept := s.pending.sweepTimeouts nowMs
  { s with pending := swept.2, expired := s.expired ++ swept.1 }

/-- `serve_connection`. -/
def serveConnection : Serving γ → List Wake → Serving γ
  | s, [] => s
  | s, .quiet nowMs :: wakes => serveConnection (s.sweep nowMs) wakes
  | s, .interrupted :: wakes => serveConnection s wakes
  | s, .failed :: _ | s, .stopRequested :: _ | s, .read [] :: _ => s
  | s, .read (b :: bs) :: wakes =>
    let s := s.readChunk (b :: bs)
    if maximumLine < s.buffer.length then s else serveConnection s wakes

end Serving

/-- The bytes `serve_connection` reads. -/
def incoming : List Wake → List UInt8
  | [] => []
  | .quiet _ :: wakes | .interrupted :: wakes => incoming wakes
  | .failed :: _ | .stopRequested :: _ | .read [] :: _ => []
  | .read (b :: bs) :: wakes => b :: bs ++ incoming wakes

end GuestControlClient
end MacMu
