import MacMu.Lib.TransitionSystem

/-!
`InputSender` under the supervisor loop of the shell. The socketpair is one queue
of datagrams, and its receiving end belongs to the shell and to every QEMU process
that was given it. A sender holds the mutex from the check of the flag to its last
`send`, and so does the supervisor while it changes the flag and drains the queue.
Each call and each access to the flag is one step; the steps of the threads and
processes interleave in any order. Whether a `send` finds room is left open.

A datagram carries the generation in which it was sent: the number of successful
launches before.
-/

namespace MacMu
namespace InputSender

open TransitionSystem

inductive InputEventKind where
  | touchBegin
  | touchUpdate
  | touchEnd
  | mouseMove
  | mouseButton
  deriving DecidableEq, Repr

structure InputEventPacket where
  kind : InputEventKind
  displayId : Nat
  pointerId : Int
  x : Int
  y : Int
  buttons : Nat
  deriving DecidableEq, Repr

inductive Request where
  | touch (kind : InputEventKind) (displayId : Nat) (pointerId x y : Int)
  | mouseMove (displayId : Nat) (x y : Int) (buttons : Nat)
  | mouseButton (displayId : Nat) (x y : Int) (buttons : Nat)
  deriving DecidableEq, Repr

def Request.packet : Request → InputEventPacket
  | .touch kind displayId pointerId x y => ⟨kind, displayId, pointerId, x, y, 0⟩
  | .mouseMove displayId x y buttons => ⟨.mouseMove, displayId, 0, x, y, buttons⟩
  | .mouseButton displayId x y buttons => ⟨.mouseButton, displayId, 0, x, y, buttons⟩

def Request.reliable : Request → Bool
  | .touch kind .. => kind = .touchBegin ∨ kind = .touchEnd
  | .mouseMove .. => false
  | .mouseButton .. => true

structure Datagram where
  packet : InputEventPacket
  sentIn : Nat
  deriving DecidableEq, Repr

/-- Where `send_packet` is. -/
inductive SendStage where
  | check
  | send
  | poll
  | resend
  | returned
  deriving DecidableEq, Repr

/-- Who has `m_sendMutex`. -/
inductive Holder where
  | supervisor
  | sender (request : Request) (stage : SendStage)
  deriving DecidableEq, Repr

/-- Where the supervisor is. It has the mutex in the four stages of
`set_enabled`. -/
inductive Supervisor where
  | launching
  | launched
  | enabling
  | enabled
  | waiting
  | exited
  | disabling
  | draining
  deriving DecidableEq, Repr

structure World where
  valid : Bool
  enabled : Bool
  queue : List Datagram
  mutex : Option Holder
  supervisor : Supervisor
  generation : Nat
  alive : List Nat
  received : List (Nat × Datagram)
  deriving DecidableEq, Repr

def World.start (valid : Bool) : World := ⟨valid, false, [], none, .launching, 0, [], []⟩

/-- How a `send` gets on. -/
inductive Sent where
  | sent
  | wouldBlock
  | failed
  deriving DecidableEq, Repr

inductive Step where
  | launchFails
  | launch
  | lockEnable
  | setEnabled
  | unlockEnabled
  | exit (process : Nat)
  /-- `waitpid` returns for the process, or fails for another reason than a signal. -/
  | waited
  | waitFails
  | lockDisable
  | clearEnabled
  | drain
  | unlockDrained
  | lockSend (request : Request)
  | check
  | send (outcome : Sent)
  | poll (writable : Bool)
  | resend (outcome : Sent)
  | unlockSend
  | receive (process : Nat)
  deriving DecidableEq, Repr

namespace World

variable (w : World)

/-- The supervisor goes on to `after` from `before`. -/
def supervise (before after : Supervisor) : Option World :=
  if w.supervisor = before then some { w with supervisor := after } else none

/-- The sender goes on to `stage`. -/
def senderAt (request : Request) (stage : SendStage) : World :=
  { w with mutex := some (.sender request stage) }

def push (request : Request) : World :=
  { w with queue := w.queue ++ [⟨request.packet, w.generation⟩] }

def step : Step → Option World
  | .launchFails => w.supervise .launching .launching
  | .launch =>
    (w.supervise .launching .launched).map fun w =>
      { w with generation := w.generation + 1, alive := w.alive ++ [w.generation + 1] }
  | .lockEnable =>
    if w.mutex = none then
      (w.supervise .launched .enabling).map fun w => { w with mutex := some .supervisor }
    else none
  | .setEnabled => (w.supervise .enabling .enabled).map fun w => { w with enabled := true }
  | .unlockEnabled => (w.supervise .enabled .waiting).map fun w => { w with mutex := none }
  | .exit process =>
    if process ∈ w.alive then some { w with alive := w.alive.erase process } else none
  | .waited => if w.generation ∈ w.alive then none else w.supervise .waiting .exited
  | .waitFails => w.supervise .waiting .exited
  | .lockDisable =>
    if w.mutex = none then
      (w.supervise .exited .disabling).map fun w => { w with mutex := some .supervisor }
    else none
  | .clearEnabled => (w.supervise .disabling .draining).map fun w => { w with enabled := false }
  | .drain =>
    match w.queue with
    | [] => none
    | _ :: rest => (w.supervise .draining .draining).map fun w => { w with queue := rest }
  | .unlockDrained =>
    if w.queue = [] then
      (w.supervise .draining .launching).map fun w => { w with mutex := none }
    else none
  | .lockSend request => if w.mutex = none then some (w.senderAt request .check) else none
  | .check =>
    match w.mutex with
    | some (.sender request .check) =>
      some (w.senderAt request (if w.valid && w.enabled then .send else .returned))
    | _ => none
  | .send outcome =>
    match w.mutex with
    | some (.sender request .send) =>
      match outcome with
      | .sent => some ((w.push request).senderAt request .returned)
      | .wouldBlock =>
        some (w.senderAt request (if request.reliable then .poll else .returned))
      | .failed => some (w.senderAt request .returned)
    | _ => none
  | .poll writable =>
    match w.mutex with
    | some (.sender request .poll) =>
      some (w.senderAt request (if writable then .resend else .returned))
    | _ => none
  | .resend outcome =>
    match w.mutex with
    | some (.sender request .resend) =>
      match outcome with
      | .sent => some ((w.push request).senderAt request .returned)
      | .wouldBlock | .failed => some (w.senderAt request .returned)
    | _ => none
  | .unlockSend =>
    match w.mutex with
    | some (.sender _ .returned) => some { w with mutex := none }
    | _ => none
  | .receive process =>
    match w.queue with
    | [] => none
    | datagram :: rest =>
      if process ∈ w.alive then
        some { w with queue := rest, received := w.received ++ [(process, datagram)] }
      else none

end World

def Supervisor.serves : Supervisor → Bool
  | .enabled | .waiting | .exited | .disabling => true
  | _ => false

def Supervisor.keepsQueue : Supervisor → Bool
  | .launching | .launched | .enabling => false
  | _ => true

def Supervisor.locks : Supervisor → Bool
  | .enabling | .enabled | .disabling | .draining => true
  | _ => false

def Holder.sends : Holder → Bool
  | .sender _ .send | .sender _ .poll | .sender _ .resend => true
  | _ => false

structure Inv (w : World) : Prop where
  enabled : w.enabled = true → w.supervisor.serves = true
  queue : w.supervisor.keepsQueue = false → w.queue = []
  current : ∀ datagram ∈ w.queue, datagram.sentIn = w.generation
  locked : w.supervisor.locks = true → w.mutex = some .supervisor
  sending : ∀ holder, w.mutex = some holder → holder.sends = true → w.enabled = true
  alive : ∀ process ∈ w.alive, process ≤ w.generation
  received : ∀ r ∈ w.received, r.1 ≤ r.2.sentIn

variable {w w' : World}

theorem keepsQueue_of_serves {supervisor : Supervisor} (h : supervisor.serves = true) :
    supervisor.keepsQueue = true := by
  revert h
  cases supervisor <;> decide

theorem inv_start (valid : Bool) : Inv (.start valid) :=
  ⟨nofun, fun _ => rfl, nofun, nofun, nofun, nofun, nofun⟩

theorem supervise_eq_some {before after : Supervisor} (h : w.supervise before after = some w') :
    w.supervisor = before ∧ w' = { w with supervisor := after } := by
  unfold World.supervise at h
  split at h <;> cases h
  exact ⟨‹_›, rfl⟩

theorem map_supervise_eq_some {before after : Supervisor} {f : World → World}
    (h : (w.supervise before after).map f = some w') :
    w.supervisor = before ∧ w' = f { w with supervisor := after } := by
  obtain ⟨moved, hmoved, rfl⟩ := Option.map_eq_some_iff.mp h
  obtain ⟨hat, rfl⟩ := supervise_eq_some hmoved
  exact ⟨hat, rfl⟩

section

variable (h : Inv w)
include h

theorem Inv.not_sending (hlocks : w.supervisor.locks = true) {holder : Holder}
    (hholder : w.mutex = some holder) : holder.sends = false := by
  cases (h.locked hlocks).symm.trans hholder
  rfl

theorem Inv.advance {after : Supervisor}
    (hserves : w.supervisor.serves = true → after.serves = true)
    (hqueue : after.keepsQueue = false → w.queue = [])
    (hlocked : after.locks = true → w.mutex = some .supervisor) :
    Inv { w with supervisor := after } :=
  { h with
    enabled := fun henabled => hserves (h.enabled henabled)
    queue := hqueue
    locked := hlocked }

theorem Inv.setMutex {mutex : Option Holder}
    (hlocked : w.supervisor.locks = true → mutex = some .supervisor)
    (hsends : ∀ holder, mutex = some holder → holder.sends = true → w.enabled = true) :
    Inv { w with mutex := mutex } :=
  { h with
    locked := hlocked
    sending := hsends }

theorem Inv.launch (hat : w.supervisor = .launching) : Inv { w with
      supervisor := .launched, generation := w.generation + 1,
      alive := w.alive ++ [w.generation + 1] } where
  enabled := fun henabled => by
    have hserves := h.enabled henabled
    rw [hat] at hserves
    cases hserves
  queue := fun _ => h.queue (by rw [hat]; rfl)
  current := fun datagram hdatagram => by
    rw [h.queue (by rw [hat]; rfl)] at hdatagram
    cases hdatagram
  locked := nofun
  sending := h.sending
  alive := fun process hprocess => by
    obtain hprocess | hprocess := List.mem_append.mp hprocess
    · exact Nat.le_succ_of_le (h.alive process hprocess)
    · exact Nat.le_of_eq (List.mem_singleton.mp hprocess)
  received := h.received

theorem Inv.clearEnabled (hat : w.supervisor = .disabling) :
    Inv { w with supervisor := .draining, enabled := false } where
  enabled := nofun
  queue := nofun
  current := h.current
  locked := fun _ => h.locked (by rw [hat]; rfl)
  sending := fun holder hholder hsends => by
    rw [h.not_sending (by rw [hat]; rfl) hholder] at hsends
    cases hsends
  alive := h.alive
  received := h.received

theorem Inv.pop {datagram : Datagram} {rest : List Datagram} (hqueue : w.queue = datagram :: rest) :
    Inv { w with queue := rest } :=
  { h with
    queue := fun hkeeps => by
      rw [h.queue hkeeps] at hqueue
      cases hqueue
    current := fun other hother => h.current other (hqueue ▸ List.mem_cons_of_mem _ hother) }

theorem Inv.push (henabled : w.enabled = true) (request : Request) : Inv (w.push request) :=
  { h with
    queue := fun hkeeps => by
      cases hkeeps.symm.trans (keepsQueue_of_serves (h.enabled henabled))
    current := fun datagram hdatagram => by
      obtain hold | hnew := List.mem_append.mp hdatagram
      · exact h.current datagram hold
      · rw [List.mem_singleton.mp hnew]
        rfl }

theorem Inv.receive {process : Nat} {datagram : Datagram} {rest : List Datagram}
    (hqueue : w.queue = datagram :: rest) (halive : process ∈ w.alive) :
    Inv { w with queue := rest, received := w.received ++ [(process, datagram)] } :=
  { h.pop hqueue with
    received := fun r hr => by
      obtain hold | hnew := List.mem_append.mp hr
      · exact h.received r hold
      · rw [List.mem_singleton.mp hnew, h.current datagram (hqueue ▸ List.mem_cons_self)]
        exact h.alive process halive }

theorem Inv.senderAt {request : Request} {stage : SendStage}
    (hmutex : w.mutex = some (.sender request stage)) {next : SendStage}
    (hsends : (Holder.sender request next).sends = true → w.enabled = true) :
    Inv (w.senderAt request next) := by
  refine h.setMutex (fun hlocks => ?_) fun holder hholder hholds => ?_
  · cases (h.locked hlocks).symm.trans hmutex
  · cases hholder
    exact hsends hholds

theorem Inv.setEnabled (hat : w.supervisor = .enabling) :
    Inv { w with supervisor := .enabled, enabled := true } where
  enabled := fun _ => rfl
  queue := nofun
  current := h.current
  locked := fun _ => h.locked (by rw [hat]; rfl)
  sending := fun _ _ _ => rfl
  alive := h.alive
  received := h.received

theorem Inv.lock : Inv { w with mutex := some .supervisor } :=
  h.setMutex (fun _ => rfl) fun holder hholder hsends => by
    cases hholder
    cases hsends

theorem Inv.unlock (hlocks : w.supervisor.locks = false) : Inv { w with mutex := none } :=
  h.setMutex (fun hlocks' => by cases hlocks.symm.trans hlocks') nofun

theorem Inv.sendStep {request : Request} {stage : SendStage}
    (hmutex : w.mutex = some (.sender request stage))
    (hsends : (Holder.sender request stage).sends = true) (outcome : Sent) :
    Inv (match outcome with
      | .sent => (w.push request).senderAt request .returned
      | .wouldBlock => w.senderAt request (if request.reliable then .poll else .returned)
      | .failed => w.senderAt request .returned) := by
  have henabled := h.sending _ hmutex hsends
  cases outcome with
  | sent => exact (h.push henabled request).senderAt hmutex nofun
  | wouldBlock => exact h.senderAt hmutex fun _ => henabled
  | failed => exact h.senderAt hmutex nofun

theorem Inv.step {a : Step} (hstep : w.step a = some w') : Inv w' := by
  cases a <;> dsimp only [World.step] at hstep
  case launchFails =>
    obtain ⟨hat, rfl⟩ := supervise_eq_some hstep
    exact hat ▸ h
  case launch =>
    obtain ⟨hat, rfl⟩ := map_supervise_eq_some hstep
    exact h.launch hat
  case lockEnable =>
    split at hstep
    · obtain ⟨hat, rfl⟩ := map_supervise_eq_some hstep
      exact h.lock.advance (fun hserves => by rw [hat] at hserves; cases hserves)
        (fun _ => h.queue (by rw [hat]; rfl)) fun _ => rfl
    · cases hstep
  case setEnabled =>
    obtain ⟨hat, rfl⟩ := map_supervise_eq_some hstep
    exact h.setEnabled hat
  case unlockEnabled =>
    obtain ⟨hat, rfl⟩ := map_supervise_eq_some hstep
    have hwaiting : Inv { w with supervisor := .waiting } := h.advance (fun _ => rfl) nofun nofun
    exact hwaiting.unlock rfl
  case exit process =>
    split at hstep <;> cases hstep
    exact { h with alive := fun other hother => h.alive other (List.mem_of_mem_erase hother) }
  case waited =>
    split at hstep
    · cases hstep
    · obtain ⟨-, rfl⟩ := supervise_eq_some hstep
      exact h.advance (fun _ => rfl) nofun nofun
  case waitFails =>
    obtain ⟨-, rfl⟩ := supervise_eq_some hstep
    exact h.advance (fun _ => rfl) nofun nofun
  case lockDisable =>
    split at hstep
    · obtain ⟨-, rfl⟩ := map_supervise_eq_some hstep
      exact h.lock.advance (fun _ => rfl) nofun fun _ => rfl
    · cases hstep
  case clearEnabled =>
    obtain ⟨hat, rfl⟩ := map_supervise_eq_some hstep
    exact h.clearEnabled hat
  case drain =>
    split at hstep
    · cases hstep
    · rename_i datagram rest hqueue
      obtain ⟨hat, rfl⟩ := map_supervise_eq_some hstep
      exact hat ▸ h.pop hqueue
  case unlockDrained =>
    split at hstep
    · rename_i hqueue
      obtain ⟨hat, rfl⟩ := map_supervise_eq_some hstep
      have hlaunching : Inv { w with supervisor := .launching } :=
        h.advance (fun hserves => by rw [hat] at hserves; cases hserves) (fun _ => hqueue) nofun
      exact hlaunching.unlock rfl
    · cases hstep
  case lockSend request =>
    split at hstep <;> cases hstep
    rename_i hfree
    refine h.setMutex (fun hlocks => ?_) fun holder hholder hsends => ?_
    · cases hfree.symm.trans (h.locked hlocks)
    · cases hholder
      cases hsends
  case check =>
    split at hstep <;> cases hstep
    rename_i request hmutex
    refine h.senderAt hmutex fun hsends => ?_
    split at hsends
    · rename_i hcheck
      exact (Bool.and_eq_true_iff.mp hcheck).2
    · cases hsends
  case send outcome =>
    split at hstep
    · rename_i request hmutex
      have hnext := h.sendStep hmutex rfl outcome
      cases outcome <;> cases hstep <;> exact hnext
    · cases hstep
  case poll writable =>
    split at hstep <;> cases hstep
    rename_i request hmutex
    exact h.senderAt hmutex fun _ => h.sending _ hmutex rfl
  case resend outcome =>
    split at hstep
    · rename_i request hmutex
      have henabled := h.sending _ hmutex rfl
      cases outcome with
      | sent =>
        cases hstep
        exact (h.push henabled request).senderAt hmutex nofun
      | wouldBlock | failed =>
        cases hstep
        exact h.senderAt hmutex nofun
    · cases hstep
  case unlockSend =>
    split at hstep <;> cases hstep
    rename_i request hmutex
    refine h.setMutex (fun hlocks => ?_) nofun
    cases (h.locked hlocks).symm.trans hmutex
  case receive process =>
    split at hstep
    · cases hstep
    · rename_i datagram rest hqueue
      split at hstep <;> cases hstep
      rename_i halive
      exact h.receive hqueue halive

end

/-- A datagram is received by the process of the generation it was sent in, or by an
earlier one that `waitpid` has lost track of. -/
theorem input_stays_in_generation {valid : Bool} {w : World}
    (h : Reachable World.step (.start valid) w) : ∀ r ∈ w.received, r.1 ≤ r.2.sentIn :=
  (h.invariant (fun _ _ _ hw hstep => hw.step hstep) (inv_start valid)).received

namespace Sample

def tap : Request := .touch .touchBegin 0 0 10 20

def release : Request := .touch .touchEnd 0 0 10 20

def sending (request : Request) : List Step :=
  [.lockSend request, .check, .send .wouldBlock, .poll true, .resend .sent, .unlockSend]

def launching : List Step := [.launchFails, .launch, .lockEnable, .setEnabled, .unlockEnabled]

/-- The first process takes a touch and exits; the second datagram is drained. -/
def restart : List Step :=
  launching ++ sending tap ++ [.receive 1, .exit 1] ++ sending release ++
    [.waited, .lockDisable, .clearEnabled, .drain, .unlockDrained] ++ launching ++ sending tap ++
    [.receive 2]

end Sample

theorem input_stays_in_generation_restarted : ∃ w,
    exec World.step (.start true) Sample.restart = some w ∧
      w.received.map Prod.fst = [1, 2] ∧ ∀ r ∈ w.received, r.1 ≤ r.2.sentIn := by
  obtain ⟨w, hrun, hreceived⟩ : ∃ w, exec World.step (.start true) Sample.restart = some w ∧
      w.received.map Prod.fst = [1, 2] := exists_of_map_decide (by decide +kernel)
  exact ⟨w, hrun, hreceived, input_stays_in_generation ⟨Sample.restart, hrun⟩⟩

end InputSender
end MacMu
