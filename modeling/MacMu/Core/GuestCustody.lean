import MacMu.Core.GuestControlClient
import MacMu.Core.PendingCalls
import Mathlib

/-!
The calls of `GuestControlClient` and their callbacks. A call relies on an
answer only after it has loaded a connected descriptor under the write mutex;
before that, and after a failed write, it will take its entry back. The steps of
the calls are checked here against the invariant, the other threads follow.
-/

namespace MacMu
namespace GuestControlClient

open Custody PendingRequestTable TransitionSystem

/-- The id that the counter hands out after `n` draws. -/
def ticket (n : Nat) : UInt64 := UInt64.ofNat (n + 1)

theorem ticket_injective {bound : Nat} (h : bound ≤ 2 ^ 64) (n m : Nat) (hn : n < bound)
    (hm : m < bound) (heq : ticket n = ticket m) : n = m := by
  have hnat := congrArg UInt64.toNat heq
  simp only [ticket, UInt64.toNat_ofNat'] at hnat
  omega

namespace CallerPhase

def kind : PhaseKind CallerPhase UInt64 where
  Idle := fun phase => phase = idle
  holds := fun phase => match phase with
    | checking callback _ | entering callback _ | opening callback _ | connecting callback _
    | releasing callback _ | admitted _ callback _ | registering _ callback _ _ => callback.toNat
    | refused _ | completing .. => 1
    | _ => 0
  carried := fun phase => match phase with
    | completing callback _ => some callback
    | _ => none
  Undrawn := fun phase => match phase with
    | idle | checking .. | entering .. | opening .. | connecting .. | admitted .. => True
    | _ => False
  requestId := fun phase => match phase with
    | registering _ _ _ id | tryLocking id | contended id | blocking _ id | locked id
    | loading _ id | sending _ id | settling id _ | failed id _ => some id
    | _ => none
  Retracting := fun phase => match phase with
    | tryLocking _ | contended _ | blocking .. | locked _ | loading .. | settling _ false
    | failed .. => True
    | _ => False

/-- The steps of a call that touch neither the table nor a callback. -/
inductive Quiet : CallerPhase → CallerPhase → Prop where
  | request (callback : Bool) (timeoutMs : UInt64) :
      Quiet (checking callback timeoutMs) (admitted .request callback timeoutMs)
  | noRequest (callback : Bool) (timeoutMs : UInt64) (message : String) :
      Quiet (checking callback timeoutMs) (State.giveUp callback message)
  | claim (callback : Bool) (timeoutMs : UInt64) :
      Quiet (entering callback timeoutMs) (opening callback timeoutMs)
  | noClaim (callback : Bool) (timeoutMs : UInt64) (message : String) :
      Quiet (entering callback timeoutMs) (State.giveUp callback message)
  | file (callback : Bool) (timeoutMs : UInt64) :
      Quiet (opening callback timeoutMs) (connecting callback timeoutMs)
  | noFile (callback : Bool) (timeoutMs : UInt64) (message : String) :
      Quiet (opening callback timeoutMs) (releasing callback message)
  | install (callback : Bool) (timeoutMs : UInt64) :
      Quiet (connecting callback timeoutMs) (admitted .installApk callback timeoutMs)
  | noInstall (callback : Bool) (timeoutMs : UInt64) (message : String) :
      Quiet (connecting callback timeoutMs) (releasing callback message)
  | release (callback : Bool) (message : String) :
      Quiet (releasing callback message) (State.giveUp callback message)
  | noCallback (operation : Operation) (timeoutMs id : UInt64) :
      Quiet (registering operation false timeoutMs id) (operation.beforeWrite id)
  | contend (id : UInt64) : Quiet (tryLocking id) (contended id)
  | tryLock (id : UInt64) : Quiet (tryLocking id) (locked id)
  | busy (id : UInt64) (message : String) : Quiet (contended id) (failed id message)
  | wait (id : UInt64) : Quiet (contended id) (blocking .request id)
  | lock (id : UInt64) : Quiet (blocking .request id) (locked id)
  | lockInstall (id : UInt64) : Quiet (blocking .installApk id) (loading .installApk id)
  | transfer (id : UInt64) (message : String) : Quiet (locked id) (failed id message)
  | noTransfer (id : UInt64) : Quiet (locked id) (loading .request id)
  | connected (operation : Operation) (id : UInt64) :
      Quiet (loading operation id) (sending operation id)
  | gone (id : UInt64) (message : String) : Quiet (loading .request id) (failed id message)
  | goneInstall (id : UInt64) : Quiet (loading .installApk id) (settling id false)
  | sent (id : UInt64) : Quiet (sending .request id) returned
  | broke (id : UInt64) (message : String) : Quiet (sending .request id) (failed id message)
  | transferred (id : UInt64) (sent : Bool) : Quiet (sending .installApk id) (settling id sent)
  | settle (id : UInt64) : Quiet (settling id true) returned
  | settleFailed (id : UInt64) (message : String) : Quiet (settling id false) (failed id message)

theorem Quiet.passes {old new : CallerPhase} (h : Quiet old new) : kind.Passes old new := by
  cases h with
  | noRequest callback | noClaim callback | release callback =>
    cases callback <;>
      exact ⟨rfl, CallerPhase.noConfusion, rfl, fun hn => hn.elim, fun _ hid => nomatch hid⟩
  | request | claim | file | install =>
    exact ⟨rfl, CallerPhase.noConfusion, rfl, fun _ => trivial, fun _ hid => nomatch hid⟩
  | noFile | noInstall | sent | settle =>
    exact ⟨rfl, CallerPhase.noConfusion, rfl, fun hn => hn.elim, fun _ hid => nomatch hid⟩
  | noCallback operation =>
    cases operation <;>
      exact ⟨rfl, CallerPhase.noConfusion, rfl, fun hn => hn.elim, fun _ hid => hid⟩
  | _ => exact ⟨rfl, CallerPhase.noConfusion, rfl, fun hn => hn.elim, fun _ hid => hid⟩

theorem done_returned : Calls.Done kind returned :=
  ⟨CallerPhase.noConfusion, rfl, rfl, id, rfl⟩

end CallerPhase
namespace AcceptPhase

def hand : AcceptPhase → List Nat
  | answering _ callback .. => [callback]
  | expiring _ callbacks | failing callbacks => callbacks
  | _ => []

def connection : AcceptPhase → Option Nat
  | serving fd | polling fd | handling fd .. | answering fd .. | sweeping fd | expiring fd _
  | disconnecting fd => some fd
  | _ => none

/-- No sweep of the table is to come for the connections so far. -/
def Swept : AcceptPhase → Prop
  | looping | accepting | publishing _ | failing _ | finished => True
  | _ => False

theorem not_swept_of_connection {a : AcceptPhase} {fd : Nat} (h : a.connection = some fd) :
    ¬ a.Swept := by
  intro hswept
  cases a <;> first | exact hswept.elim | cases h

end AcceptPhase

namespace StopPhase

def hand : StopPhase → List Nat
  | failing callbacks => callbacks
  | _ => []

def Joined : StopPhase → Prop
  | joined | failing _ | returned => True
  | _ => False

end StopPhase

/-- The calls of a state, and the callbacks that are elsewhere. -/
def State.calls (s : State) : Calls CallerPhase UInt64 where
  pending := s.pending
  phases := s.callers
  others := s.accept.hand ++ s.stop.hand ++ s.completed.map Prod.fst
  given := s.given
  drawn := s.drawn

structure Inv (s : State) : Prop where
  calls : s.calls.Inv CallerPhase.kind ticket s.accept.Swept
  next : s.nextRequestId = ticket s.drawn.length
  connected : ∀ fd, s.clientFd = some fd → s.accept.connection = some fd
  joined : s.stop.Joined → s.accept = .finished

theorem inv_start : Inv start where
  calls :=
    { conserved := fun _ => rfl
      fresh := fun _ _ => List.not_mem_nil
      own := fun _ _ h => nomatch h
      nodup := List.nodup_nil
      undrawn := fun _ _ => List.not_mem_nil
      ids := fun _ _ h => nomatch h
      keyed := keyed_empty _
      swept := fun _ _ h => absurd h List.not_mem_nil }
  next := rfl
  connected := fun _ h => nomatch h
  joined := fun h => h.elim

section Callers

variable {s : State} {i : Nat}

theorem Inv.pass (h : Inv s) {old phase : CallerPhase} (hphase : s.callers i = old)
    (hquiet : old.Quiet phase) {transfer : Bool} {mutex : Option Nat}
    (retracting : s.accept.Swept → CallerPhase.kind.Retracting old →
      CallerPhase.kind.Retracting phase := by
        first | exact fun _ hr => False.elim hr | exact fun _ _ => trivial) :
    Inv ({ s with fileTransferActive := transfer, writeMutex := mutex }.setCaller i phase) :=
  ⟨h.calls.pass hphase hquiet.passes retracting, h.next, h.connected, h.joined⟩

theorem Inv.finish (h : Inv s) {old : CallerPhase} (hphase : s.callers i = old)
    (holds : CallerPhase.kind.holds old = 1) (message : String) :
    Inv ((s.fail i message).setCaller i .returned) := by
  refine ⟨h.calls.finish hphase holds CallerPhase.done_returned ?_, h.next, h.connected,
    h.joined⟩
  simp only [State.fail, State.complete, State.setCaller, List.map_append, List.map_cons,
    List.map_nil, ← List.append_assoc]
  exact List.perm_append_singleton _ _

theorem Inv.draw (h : Inv s) {operation : Operation} {callback : Bool} {timeoutMs : UInt64}
    (hphase : s.callers i = .admitted operation callback timeoutMs) :
    Inv ({ s with nextRequestId := s.nextRequestId + 1, drawn := s.drawn ++ [i] }.setCaller i
      (.registering operation callback timeoutMs s.nextRequestId)) := by
  refine ⟨h.calls.draw hphase trivial id rfl CallerPhase.noConfusion rfl id ?_, ?_, h.connected,
    h.joined⟩
  · rw [h.next]
    rfl
  · simp only [State.setCaller, h.next, ticket, List.length_append, List.length_cons,
      List.length_nil, UInt64.ofNat_add]
    rfl

theorem Inv.register (h : Inv s) (hbound : s.drawn.length ≤ 2 ^ 64) {operation : Operation}
    {timeoutMs id : UInt64} (hphase : s.callers i = .registering operation true timeoutMs id)
    (nowMs : UInt64) :
    Inv ({ s with pending := s.pending.add id i nowMs timeoutMs }.setCaller i
      (operation.beforeWrite id)) := by
  refine ⟨?_, h.next, h.connected, h.joined⟩
  apply h.calls.register (ticket_injective hbound) hphase rfl rfl
  · cases operation <;> rfl
  · cases operation <;> exact CallerPhase.noConfusion
  · cases operation <;> rfl
  · cases operation <;> exact fun hn => hn
  · cases operation <;> rfl
  · cases operation <;> trivial

theorem Inv.retract (h : Inv s) (hbound : s.drawn.length ≤ 2 ^ 64) {id : UInt64}
    {message : String} (hphase : s.callers i = .failed id message) :
    Inv ({ s with pending := (s.pending.take id).2 }.setCaller i
      (((s.pending.take id).1.map (CallerPhase.completing · message)).getD .returned)) := by
  refine ⟨?_, h.next, h.connected, h.joined⟩
  apply h.calls.retract (ticket_injective hbound) hphase rfl rfl CallerPhase.done_returned
  · exact fun _ => CallerPhase.noConfusion
  · exact fun _ => rfl
  · exact fun _ => rfl
  · exact fun _ hn => hn
  · exact fun _ => rfl

theorem inv_callerStep {s' : State} (h : Inv s) (hbound : s.drawn.length ≤ 2 ^ 64)
    {input : CallerInput} (hstep : s.callerStep i input = some s') : Inv s' := by
  unfold State.callerStep at hstep
  split at hstep
  · cases hstep
  · cases hstep
  · rename_i callback timeoutMs hphase
    cases hstep
    split
    · exact h.pass hphase (.request callback timeoutMs)
    · exact h.pass hphase (.noRequest callback timeoutMs _)
  · rename_i callback timeoutMs hphase
    split at hstep
    · cases hstep
      exact h.pass hphase (.noClaim callback timeoutMs _)
    · cases hstep
      exact h.pass hphase (.claim callback timeoutMs)
  · rename_i callback timeoutMs hphase
    cases hstep
    split
    · exact h.pass hphase (.file callback timeoutMs)
    · exact h.pass hphase (.noFile callback timeoutMs _)
  · rename_i callback timeoutMs hphase
    cases hstep
    split
    · exact h.pass hphase (.install callback timeoutMs)
    · exact h.pass hphase (.noInstall callback timeoutMs _)
  · rename_i callback message hphase
    cases hstep
    exact h.pass hphase (.release callback message)
  · rename_i message hphase
    cases hstep
    exact h.finish hphase rfl message
  · rename_i operation callback timeoutMs hphase
    cases hstep
    exact h.draw hphase
  · rename_i operation callback timeoutMs id hphase
    cases hstep
    cases callback with
    | true => exact h.register hbound hphase ..
    | false => exact h.pass hphase (.noCallback operation timeoutMs id)
  · rename_i id hphase
    split at hstep
    · cases hstep
      exact h.pass hphase (.contend id)
    · cases hstep
      exact h.pass hphase (.tryLock id)
  · rename_i id hphase
    cases hstep
    split
    · exact h.pass hphase (.busy id _)
    · exact h.pass hphase (.wait id)
  · rename_i operation id hphase
    split at hstep <;> cases hstep
    cases operation with
    | request => exact h.pass hphase (.lock id)
    | installApk => exact h.pass hphase (.lockInstall id)
  · rename_i id hphase
    split at hstep
    · cases hstep
      exact h.pass hphase (.transfer id _)
    · cases hstep
      exact h.pass hphase (.noTransfer id)
  · rename_i operation id hphase
    split at hstep
    · rename_i hconnected
      cases hstep
      obtain ⟨fd, hfd⟩ := Option.isSome_iff_exists.mp hconnected
      -- the connection is still published, so the sweep after its end is to come
      exact h.pass hphase (.connected operation id)
        (fun hswept _ => absurd hswept
          (AcceptPhase.not_swept_of_connection (h.connected fd hfd)))
    · cases hstep
      cases operation with
      | request => exact h.pass hphase (.gone id _)
      | installApk => exact h.pass hphase (.goneInstall id)
  · rename_i operation id hphase
    cases hstep
    cases operation with
    | request =>
      dsimp only
      split
      · exact h.pass hphase (.sent id)
      · exact h.pass hphase (.broke id _)
    | installApk => exact h.pass hphase (.transferred id _)
  · rename_i id sent hphase
    cases hstep
    cases sent with
    | true => exact h.pass hphase (.settle id)
    | false => exact h.pass hphase (.settleFailed id _)
  · rename_i id message hphase
    have hretract := h.retract hbound hphase
    split at hstep
    · rename_i pending htake
      cases hstep
      rw [htake] at hretract
      exact hretract
    · rename_i callback pending htake
      cases hstep
      rw [htake] at hretract
      exact hretract
  · rename_i callback message hphase
    cases hstep
    have hown : callback = i := h.calls.own i callback (congrArg CallerPhase.kind.carried hphase)
    rw [hown] at hphase ⊢
    exact h.finish hphase rfl message

end Callers

end GuestControlClient
end MacMu
