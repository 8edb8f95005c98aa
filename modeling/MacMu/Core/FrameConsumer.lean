import MacMu.Lib.Seqlock
import MacMu.Lib.TransitionSystem
import Mathlib

/-!
The frame channel: a table of slots in shared memory that the producer in the
emulator writes and the shell's `FrameConsumer` reads. Every access to a word is
one step, and the accesses interleave in any order. The producer is not part of
this repository; it is any process that keeps to the documented discipline: it
makes `seq` odd, stores the fields in any order, possibly more than once, and
makes `seq` even. It can be killed between any two accesses, and the shell
launches the next one only after it has reset the table. `read` and
`reset_slots` hold `slotsMutex_` for the whole call, so a call that waits for it
has not begun here. Only the fields that `read` looks at are kept.

`storedBy`, `ticks`, `since`, `log` and `returned` are history that no step
reads.
-/

namespace MacMu
namespace FrameConsumer

open Function

abbrev kMacmuFrameSlotCount : Nat := 16

instance : NeZero kMacmuFrameSlotCount := ⟨by decide⟩

abbrev Slot := Fin kMacmuFrameSlotCount

inductive Field where
  | frame
  | iosurfaceId
  | width
  | height
  deriving DecidableEq, Repr

abbrev Field.Value : Field → Type
  | .frame => UInt64
  | .iosurfaceId | .width | .height => UInt32

/-- A word of shared memory, with the number of the transaction that stored it.
The zeros of a fresh table have none. -/
structure Word (α : Type) where
  value : α
  storedBy : Option Nat
  deriving DecidableEq, Repr

/-- `ticks` counts the increments of `seq` since the slot was zeroed. -/
structure ShmDisplaySlot where
  seq : UInt64
  frame : Word UInt64
  iosurfaceId : Word UInt32
  width : Word UInt32
  height : Word UInt32
  ticks : Nat
  deriving DecidableEq, Repr

namespace ShmDisplaySlot

def zero : ShmDisplaySlot := ⟨0, ⟨0, none⟩, ⟨0, none⟩, ⟨0, none⟩, ⟨0, none⟩, 0⟩

def load (s : ShmDisplaySlot) : (f : Field) → Word f.Value
  | .frame => s.frame
  | .iosurfaceId => s.iosurfaceId
  | .width => s.width
  | .height => s.height

def store (s : ShmDisplaySlot) : (f : Field) → Word f.Value → ShmDisplaySlot
  | .frame, w => { s with frame := w }
  | .iosurfaceId, w => { s with iosurfaceId := w }
  | .width, w => { s with width := w }
  | .height, w => { s with height := w }

def increment (s : ShmDisplaySlot) : ShmDisplaySlot :=
  { s with seq := s.seq + 1, ticks := s.ticks + 1 }

@[simp] theorem load_store (s : ShmDisplaySlot) (f : Field) (w : Word f.Value) :
    (s.store f w).load = update s.load f w := by
  funext g
  cases f <;> cases g <;> rfl

@[simp] theorem seq_store (s : ShmDisplaySlot) (f : Field) (w : Word f.Value) :
    (s.store f w).seq = s.seq := by
  cases f <;> rfl

@[simp] theorem ticks_store (s : ShmDisplaySlot) (f : Field) (w : Word f.Value) :
    (s.store f w).ticks = s.ticks := by
  cases f <;> rfl

end ShmDisplaySlot

/-- A publish, or the clear on removal of a display, which puts `frame` back to
zero. -/
inductive Transaction where
  | publish (iosurfaceId width height : UInt32) (frame : UInt64)
  | clear (iosurfaceId width height : UInt32)
  deriving DecidableEq, Repr

def Transaction.value : Transaction → (f : Field) → f.Value
  | .publish _ _ _ frame, .frame => frame
  | .clear _ _ _, .frame => (0 : UInt64)
  | .publish iosurfaceId _ _ _, .iosurfaceId | .clear iosurfaceId _ _, .iosurfaceId => iosurfaceId
  | .publish _ width _ _, .width | .clear _ width _, .width => width
  | .publish _ _ height _, .height | .clear _ _ height, .height => height

/-- The words transaction number `n` stores. -/
def Transaction.words (t : Transaction) (n : Nat) (f : Field) : Word f.Value :=
  ⟨t.value f, some n⟩

/-- A transaction whose `seq` is odd; `left` are the fields it has not stored. -/
structure Writer where
  transaction : Transaction
  number : Nat
  left : List Field
  deriving DecidableEq, Repr

def Writer.words (w : Writer) : (f : Field) → Word f.Value := w.transaction.words w.number

/-- Where an attempt of `read` stands: the access it makes next, and the locals
so far. `since` is `ticks` when `s0` was loaded. -/
inductive ReadPhase where
  | seq
  | iosurfaceId (s0 : UInt64) (since : Nat)
  | width (s0 : UInt64) (since : Nat) (iosurfaceId : Word UInt32)
  | height (s0 : UInt64) (since : Nat) (iosurfaceId width : Word UInt32)
  | frame (s0 : UInt64) (since : Nat) (iosurfaceId width height : Word UInt32)
  | seqAgain (s0 : UInt64) (since : Nat) (iosurfaceId width height : Word UInt32)
      (frame : Word UInt64)
  deriving DecidableEq, Repr

/-- Who holds `slotsMutex_`; `left` are the slots a reset has not zeroed. -/
inductive Holder where
  | free
  | reading (displayId : UInt32) (slot : Slot) (attempt : Nat) (phase : ReadPhase)
  | resetting (left : List Slot)
  deriving DecidableEq, Repr

structure SurfaceMetadata where
  displayId : UInt32
  iosurfaceId : Word UInt32
  width : Word UInt32
  height : Word UInt32
  frame : Word UInt64
  deriving DecidableEq, Repr

/-- A call of `read` that has returned `result`; `out` is what it stored there. -/
structure Returned where
  displayId : UInt32
  result : Bool
  out : Option SurfaceMetadata
  deriving DecidableEq, Repr

/-- `running` is whether there is a producer, `clean` whether the table was
zeroed since the last one was launched. -/
structure FrameChannel where
  valid : Bool
  slots : Slot → ShmDisplaySlot
  writers : Slot → Option Writer
  running : Bool
  clean : Bool
  slotsMutex : Holder
  log : Slot → List Transaction
  returned : List Returned

inductive Step where
  | launch
  | kill
  /-- The producer makes `seq` odd. -/
  | open (slot : Slot) (transaction : Transaction)
  | store (slot : Slot) (field : Field)
  /-- The producer makes `seq` even. -/
  | close (slot : Slot)
  /-- A call of `read` gets the mutex; `out` is whether its pointer is not null. -/
  | read (displayId : UInt32) (out : Bool)
  | load
  /-- A call of `reset_slots` gets the mutex. -/
  | resetSlots
  | zeroSlot

namespace FrameChannel

variable (c : FrameChannel)

/-- The call of `read` returns and releases the mutex. -/
def answer (displayId : UInt32) (result : Bool) (out : Option SurfaceMetadata) : FrameChannel :=
  { c with slotsMutex := .free, returned := c.returned ++ [⟨displayId, result, out⟩] }

def nextAttempt (displayId : UInt32) (slot : Slot) (attempt : Nat) : FrameChannel :=
  if attempt + 1 < 8 then { c with slotsMutex := .reading displayId slot (attempt + 1) .seq }
  else c.answer displayId false none

/-- The next access of a `read` that holds the mutex. -/
def load (displayId : UInt32) (slot : Slot) (attempt : Nat) (phase : ReadPhase) : FrameChannel :=
  let s := c.slots slot
  let next (phase : ReadPhase) : FrameChannel :=
    { c with slotsMutex := .reading displayId slot attempt phase }
  match phase with
  | .seq =>
    if s.seq &&& 1 ≠ 0 then c.nextAttempt displayId slot attempt
    else next (.iosurfaceId s.seq s.ticks)
  | .iosurfaceId s0 since => next (.width s0 since s.iosurfaceId)
  | .width s0 since iosurfaceId => next (.height s0 since iosurfaceId s.width)
  | .height s0 since iosurfaceId width => next (.frame s0 since iosurfaceId width s.height)
  | .frame s0 since iosurfaceId width height =>
    next (.seqAgain s0 since iosurfaceId width height s.frame)
  | .seqAgain s0 _ iosurfaceId width height frame =>
    if s0 = s.seq then
      c.answer displayId (frame.value != 0) (some ⟨displayId, iosurfaceId, width, height, frame⟩)
    else c.nextAttempt displayId slot attempt

def step : Step → Option FrameChannel
  | .launch =>
    if c.running = false ∧ c.clean ∧ c.slotsMutex = .free then
      some { c with running := true, clean := false }
    else none
  | .kill => if c.running then some { c with running := false } else none
  | .open slot t =>
    if c.running ∧ c.writers slot = none then
      some { c with
        slots := update c.slots slot (c.slots slot).increment
        writers := update c.writers slot
          (some ⟨t, (c.log slot).length, [.frame, .iosurfaceId, .width, .height]⟩)
        log := update c.log slot (c.log slot ++ [t]) }
    else none
  | .store slot f =>
    match c.writers slot with
    | none => none
    | some w =>
      if c.running then
        some { c with
          slots := update c.slots slot ((c.slots slot).store f (w.words f))
          writers := update c.writers slot (some { w with left := w.left.filter (· ≠ f) }) }
      else none
  | .close slot =>
    match c.writers slot with
    | none => none
    | some w =>
      if c.running ∧ w.left = [] then
        some { c with
          slots := update c.slots slot (c.slots slot).increment
          writers := update c.writers slot none }
      else none
  | .read displayId out =>
    if c.slotsMutex ≠ .free then none
    else if c.valid = false ∨ out = false then some (c.answer displayId false none)
    else if h : displayId.toNat < kMacmuFrameSlotCount then
      some { c with slotsMutex := .reading displayId ⟨displayId.toNat, h⟩ 0 .seq }
    else some (c.answer displayId false none)
  | .load =>
    match c.slotsMutex with
    | .reading displayId slot attempt phase => some (c.load displayId slot attempt phase)
    | _ => none
  | .resetSlots =>
    if c.slotsMutex = .free ∧ c.running = false then
      if c.valid then
        some { c with slotsMutex := .resetting (List.finRange kMacmuFrameSlotCount) }
      else some c
    else none
  | .zeroSlot =>
    match c.slotsMutex with
    | .resetting [] => some { c with slotsMutex := .free, clean := true }
    | .resetting (slot :: left) =>
      some { c with
        slotsMutex := .resetting left
        slots := update c.slots slot .zero
        writers := update c.writers slot none }
    | _ => none

/-- After `create`, which may have failed. -/
def start (valid : Bool) : FrameChannel where
  valid := valid
  slots := fun _ => .zero
  writers := fun _ => none
  running := false
  clean := true
  slotsMutex := .free
  log := fun _ => []
  returned := []

end FrameChannel
end FrameConsumer
end MacMu
