import MacMu.Core.GuestCustody

/-!
The accept thread and `stop` keep the invariant of the calls. The accept thread
clears the descriptor under the write mutex and sweeps the table afterwards, so
no call can rely on an answer between the two.
-/

namespace MacMu
namespace GuestControlClient

open Custody PendingRequestTable TransitionSystem

section Accepting

variable {s : State} {phase accept : AcceptPhase}

theorem Inv.accept_handOn (h : Inv s) (haccept : s.accept = phase) {clientFd : Option Nat}
    {completed : List (Nat × Bool × List UInt8)}
    (hconnected : ∀ fd, clientFd = some fd → accept.connection = some fd)
    (hands : (accept.hand ++ s.stop.hand ++ completed.map Prod.fst).Perm
      (phase.hand ++ s.stop.hand ++ s.completed.map Prod.fst) := by rfl)
    (hswept : accept.Swept → phase.Swept := by first | exact False.elim | exact fun _ => trivial)
    (hrunning : phase ≠ .finished := by exact AcceptPhase.noConfusion) :
    Inv { s with clientFd := clientFd, accept := accept, completed := completed } := by
  subst haccept
  exact ⟨h.calls.handOn hands hswept, h.next, hconnected, fun hj => absurd (h.joined hj) hrunning⟩

theorem Inv.connected_of_eq (h : Inv s) (haccept : s.accept = phase)
    (hconnection : accept.connection = phase.connection) {fd : Nat} (hfd : s.clientFd = some fd) :
    accept.connection = some fd := by
  subst haccept
  exact hconnection.trans (h.connected fd hfd)

theorem Inv.accept_stay (h : Inv s) (haccept : s.accept = phase)
    (hands : accept.hand = phase.hand := by rfl)
    (hconnection : accept.connection = phase.connection := by rfl)
    (hswept : accept.Swept → phase.Swept := by first | exact False.elim | exact fun _ => trivial)
    (hrunning : phase ≠ .finished := by exact AcceptPhase.noConfusion) :
    Inv { s with accept := accept } :=
  h.accept_handOn haccept (fun _ => h.connected_of_eq haccept hconnection) (by rw [hands]) hswept
    hrunning

theorem Inv.accept_complete (h : Inv s) (haccept : s.accept = phase) {callback : Nat} {ok : Bool}
    {payload : List UInt8} (hand : phase.hand = callback :: accept.hand := by rfl)
    (hconnection : accept.connection = phase.connection := by rfl)
    (hswept : accept.Swept → phase.Swept := by first | exact False.elim | exact fun _ => trivial)
    (hrunning : phase ≠ .finished := by exact AcceptPhase.noConfusion) :
    Inv { s.complete callback ok payload with accept := accept } := by
  refine h.accept_handOn haccept (fun _ => h.connected_of_eq haccept hconnection) ?_ hswept hrunning
  simp only [State.complete, hand, List.map_append, List.map_cons, List.map_nil,
    ← List.append_assoc]
  exact List.perm_append_singleton _ _

theorem Inv.accept_remove (h : Inv s) (haccept : s.accept = phase)
    {pending : PendingRequestTable UInt64 Nat}
    (hpending : s.pending.callbacks.Perm (accept.hand ++ pending.callbacks))
    (keyed : pending.Keyed fun id i => Drew ticket s.drawn i id)
    (hswept : accept.Swept → pending.callbacks = []) (hempty : phase.hand = [] := by rfl)
    (hconnection : accept.connection = phase.connection := by rfl)
    (hrunning : phase ≠ .finished := by exact AcceptPhase.noConfusion) :
    Inv { s with pending := pending, accept := accept } := by
  have hconnected : ∀ fd, s.clientFd = some fd → accept.connection = some fd :=
    fun _ => h.connected_of_eq haccept hconnection
  subst haccept
  refine ⟨h.calls.remove accept.hand hpending ?_ keyed (fun hs => .inl (hswept hs)), h.next,
    hconnected, fun hj => absurd (h.joined hj) hrunning⟩
  simp only [State.calls, hempty, List.nil_append, List.append_assoc]
  exact List.Perm.refl _

end Accepting

theorem inv_acceptStep {s s' : State} (h : Inv s) {nowMs : UInt64} {arrival : Arrival}
    (hstep : s.acceptStep nowMs arrival = some s') : Inv s' := by
  unfold State.acceptStep at hstep
  split at hstep
  · rename_i haccept
    cases hstep
    split <;> exact h.accept_stay haccept
  · rename_i haccept
    split at hstep
    · cases hstep
      exact h.accept_stay haccept
    · cases hstep
      split <;> exact h.accept_stay haccept
  · rename_i fd haccept
    split at hstep
    · cases hstep
    · split at hstep
      · cases hstep
        exact h.accept_stay haccept
      · cases hstep
        exact h.accept_handOn haccept fun _ hfd => hfd
  · rename_i fd haccept
    cases hstep
    split <;> exact h.accept_stay haccept
  · rename_i fd haccept
    split at hstep <;> cases hstep <;> exact h.accept_stay haccept
  · rename_i fd oversized haccept
    cases hstep
    split <;> exact h.accept_stay haccept
  · rename_i fd answer rest oversized haccept
    have htake := callbacks_take s.pending answer.id
    have hkeyed : (s.pending.take answer.id).2.Keyed fun id i => Drew ticket s.drawn i id :=
      h.calls.keyed.take answer.id
    split at hstep
    · rename_i pending hresult
      cases hstep
      rw [hresult] at htake hkeyed
      exact h.accept_remove haccept htake hkeyed False.elim
    · rename_i callback pending hresult
      cases hstep
      rw [hresult] at htake hkeyed
      exact h.accept_remove haccept htake hkeyed False.elim
  · rename_i fd callback answer rest oversized haccept
    cases hstep
    exact h.accept_complete haccept
  · rename_i fd haccept
    cases hstep
    exact h.accept_remove haccept (callbacks_sweepTimeouts s.pending nowMs)
      (h.calls.keyed.sweepTimeouts nowMs) False.elim
  · rename_i fd haccept
    cases hstep
    exact h.accept_stay haccept
  · rename_i fd callback rest haccept
    cases hstep
    exact h.accept_complete haccept
  · rename_i fd haccept
    split at hstep <;> cases hstep
    refine h.accept_handOn haccept fun other hother => ?_
    -- only this thread publishes, so the descriptor is the one it serves
    split at hother
    · cases hother
    · rename_i hne
      have hconnection := h.connected other hother
      rw [haccept] at hconnection
      cases hconnection
      exact absurd hother hne
  · rename_i haccept
    cases hstep
    refine h.accept_remove haccept ?_ (keyed_empty _) fun _ => rfl
    rw [callbacks_empty, List.append_nil]
    exact List.Perm.refl _
  · rename_i haccept
    cases hstep
    exact h.accept_stay haccept
  · rename_i callback rest haccept
    cases hstep
    exact h.accept_complete haccept
  · cases hstep

theorem Inv.stop_handOn {s : State} (h : Inv s) {old stop : StopPhase} (hstop : s.stop = old)
    {listenFd stopRequested : Bool} {completed : List (Nat × Bool × List UInt8)}
    (hjoined : stop.Joined → old.Joined ∨ s.accept = .finished)
    (hands : (s.accept.hand ++ stop.hand ++ completed.map Prod.fst).Perm
      (s.accept.hand ++ old.hand ++ s.completed.map Prod.fst) := by rfl) :
    Inv { s with
      listenFd := listenFd, stopRequested := stopRequested, stop := stop
      completed := completed } := by
  subst hstop
  exact ⟨h.calls.handOn hands id, h.next, h.connected, fun hj => (hjoined hj).elim h.joined id⟩

theorem inv_stopStep {s s' : State} (h : Inv s) (hstep : s.stopStep = some s') : Inv s' := by
  unfold State.stopStep at hstep
  split at hstep
  · rename_i hstop
    cases hstep
    exact h.stop_handOn hstop False.elim
  · rename_i hstop
    cases hstep
    exact h.stop_handOn hstop False.elim
  · rename_i hstop
    split at hstep <;> cases hstep
    exact h.stop_handOn hstop False.elim
  · rename_i hstop
    split at hstep <;> cases hstep
    rename_i hfinished
    exact h.stop_handOn hstop fun _ => .inr hfinished
  · rename_i hstop
    cases hstep
    refine ⟨h.calls.remove s.pending.callbacks ?_ ?_ (keyed_empty _) (fun _ => .inl rfl), h.next,
      h.connected, fun _ => h.joined (by rw [hstop]; trivial)⟩
    · rw [callbacks_empty, List.append_nil]
      exact List.Perm.refl _
    · simp only [State.calls, hstop, StopPhase.hand, List.append_nil, ← List.append_assoc]
      exact List.perm_append_comm.append_right _
  · rename_i callback rest hstop
    cases hstep
    refine h.stop_handOn hstop .inl ?_
    simp only [State.fail, State.complete, StopPhase.hand, List.map_append, List.map_cons,
      List.map_nil, ← List.append_assoc]
    refine (List.perm_append_singleton _ _).trans ?_
    rw [List.append_assoc, List.append_assoc]
    exact List.perm_middle.symm
  · rename_i hstop
    cases hstep
    exact h.stop_handOn hstop .inl
  · cases hstep

end GuestControlClient
end MacMu
