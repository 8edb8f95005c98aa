import MacMu.Core.GuestThreads

/-!
`GuestControlClient` runs the callback of every operation once, as long as its
64-bit request ids do not come round. When no sweep of the table is to come,
what is left in it belongs to calls that will fail to write and take their entry
back. An id that is drawn again while its first request is pending overwrites
the entry, and the first callback never runs.
-/

namespace MacMu
namespace GuestControlClient

open Custody PendingRequestTable TransitionSystem

theorem inv_call {s : State} (h : Inv s) {i : Nat} (hidle : s.callers i = .idle)
    (operation : Operation) (callback : Bool) (timeoutMs : UInt64) :
    Inv ({ s with given := if callback then s.given ++ [i] else s.given }.setCaller i
      (operation.entry callback timeoutMs)) := by
  refine ⟨?_, h.next, h.connected, h.joined⟩
  apply h.calls.call hidle rfl trivial rfl id callback
  · cases operation <;> rfl
  · cases operation <;> exact CallerPhase.noConfusion
  · cases operation <;> rfl
  · cases operation <;> rfl

theorem inv_step {s s' : State} (h : Inv s) (hbound : s.drawn.length ≤ 2 ^ 64) (step : Step)
    (hstep : s.step step = some s') : Inv s' := by
  cases step with
  | call i operation callback timeoutMs =>
    simp only [State.step] at hstep
    split at hstep <;> cases hstep
    rename_i hidle
    exact inv_call h hidle ..
  | caller i input => exact inv_callerStep h hbound hstep
  | accept nowMs arrival => exact inv_acceptStep h hstep
  | stop => exact inv_stopStep h hstep

theorem drawn_length_le {s s' : State} (step : Step) (hstep : s.step step = some s') :
    s.drawn.length ≤ s'.drawn.length := by
  cases step with
  | call i operation callback timeoutMs =>
    simp only [State.step] at hstep
    split at hstep <;> cases hstep
    exact Nat.le_refl _
  | caller i input =>
    simp only [State.step, State.callerStep] at hstep
    cases hphase : s.callers i with
    | admitted operation callback timeoutMs =>
      rw [hphase] at hstep
      cases hstep
      change s.drawn.length ≤ (s.drawn ++ [i]).length
      rw [List.length_append]
      exact Nat.le_add_right _ _
    | registering operation callback timeoutMs id =>
      rw [hphase] at hstep
      cases hstep
      cases callback <;> exact Nat.le_refl _
    | _ =>
      simp only [hphase] at hstep
      (repeat' split at hstep) <;> cases hstep <;> exact Nat.le_refl _
  | accept nowMs arrival =>
    simp only [State.step, State.acceptStep] at hstep
    cases haccept : s.accept with
    | handling fd answers oversized =>
      rw [haccept] at hstep
      cases answers <;> simp only at hstep <;> (repeat' split at hstep) <;> cases hstep <;>
        exact Nat.le_refl _
    | expiring fd callbacks | failing callbacks =>
      rw [haccept] at hstep
      cases callbacks <;> cases hstep <;> exact Nat.le_refl _
    | _ =>
      simp only [haccept] at hstep
      (repeat' split at hstep) <;> cases hstep <;> exact Nat.le_refl _
  | stop =>
    simp only [State.step, State.stopStep] at hstep
    (repeat' split at hstep) <;> cases hstep <;> exact Nat.le_refl _

theorem inv_of_reachable {s : State} (h : Reachable State.step start s)
    (hbound : s.drawn.length ≤ 2 ^ 64) : Inv s := by
  refine Reachable.invariant (I := fun s => s.drawn.length ≤ 2 ^ 64 → Inv s) ?_
    (fun _ => inv_start) h hbound
  intro s step s' hs hstep hbound'
  have hle := drawn_length_le step hstep
  exact inv_step (hs (by omega)) (by omega) step hstep

/-- When `stop` and every call have returned, and at most `2 ^ 64` request ids
were drawn, each callback has run exactly once. -/
theorem guest_control_client_completes_once (s : State) (h : Reachable State.step start s)
    (hbound : s.drawn.length ≤ 2 ^ 64) (hstop : s.stop = .returned)
    (hcalls : ∀ i, s.callers i = .idle ∨ s.callers i = .returned) :
    ∀ i ∈ s.given, (s.completed.map Prod.fst).count i = 1 := by
  have hinv := inv_of_reachable h hbound
  have hfinished : s.accept = .finished := hinv.joined (by rw [hstop]; trivial)
  have hswept : s.accept.Swept := by
    rw [hfinished]
    trivial
  intro i hi
  have hone : s.calls.others.count i = 1 := by
    rcases hcalls i with hcall | hcall
    · exact hinv.calls.count_others hswept hcall rfl id hi
    · exact hinv.calls.count_others hswept hcall rfl id hi
  rw [State.calls, hfinished, hstop] at hone
  exact hone

def smooth : CallerInput := ⟨0, false, .unopenable "", true⟩

/-- One request that is answered, and `stop`. -/
def answeredCall : List Step :=
  [.accept 0 .nothing, .accept 0 (.connection 0), .accept 0 .nothing, .accept 0 .nothing,
    .call 0 .request true 1000, .caller 0 smooth, .caller 0 smooth, .caller 0 smooth,
    .caller 0 smooth, .caller 0 smooth, .caller 0 smooth, .caller 0 smooth,
    .accept 0 (.lines [⟨1, true, []⟩] false), .accept 0 .nothing, .accept 0 .nothing,
    .accept 0 .nothing, .stop, .stop, .stop, .accept 0 .nothing, .accept 0 .nothing,
    .accept 0 .nothing, .accept 0 .nothing, .accept 0 .nothing, .stop, .stop, .stop]

theorem guest_control_client_completes_once_answered :
    ∃ s, exec State.step start answeredCall = some s ∧ s.stop = .returned ∧
      (0 : Nat) ∈ s.given ∧ (s.completed.map Prod.fst).count 0 = 1 := by
  have hrun : (exec State.step start answeredCall).map (fun s =>
      (s.stop, s.given, s.drawn.length)) = some (.returned, [0], 1) := by
    decide
  obtain ⟨s, hs, hfields⟩ := Option.map_eq_some_iff.mp hrun
  obtain ⟨hstop, hrest⟩ := Prod.mk.inj hfields
  obtain ⟨hgiven, hdrawn⟩ := Prod.mk.inj hrest
  have hcalls : ∀ i, s.callers i = .idle ∨ s.callers i = .returned := by
    intro i
    have hphase : (exec State.step start answeredCall).map (fun s => s.callers i) =
        some (if i = 0 then .returned else .idle) := by
      cases i <;> rfl
    rw [hs, Option.map_some, Option.some.injEq] at hphase
    rw [hphase]
    split
    · exact .inr rfl
    · exact .inl rfl
  have hmem : (0 : Nat) ∈ s.given := by
    rw [hgiven]
    exact List.mem_singleton.mpr rfl
  exact ⟨s, hs, hstop, hmem, guest_control_client_completes_once s ⟨_, hs⟩
    (by rw [hdrawn]; decide) hstop hcalls 0 hmem⟩

section Wrap

/-- A call of `request` from its start to its return. -/
def wholeRequest (i : Nat) (callback : Bool) : List Step :=
  .call i .request callback 0 :: List.replicate 7 (.caller i smooth)

/-- What the request leaves behind while the agent has not answered. -/
def State.requested (s : State) (i : Nat) (callback : Bool) : State :=
  { s with
    nextRequestId := s.nextRequestId + 1
    pending := if callback then s.pending.add s.nextRequestId i 0 0 else s.pending
    callers := Function.update s.callers i .returned
    given := if callback then s.given ++ [i] else s.given
    drawn := s.drawn ++ [i] }

structure State.Ready (s : State) : Prop where
  connected : s.clientFd.isSome
  unlocked : s.writeMutex = none
  noTransfer : s.fileTransferActive = false

theorem exec_wholeRequest {s : State} (h : s.Ready) {i : Nat} (hidle : s.callers i = .idle)
    (callback : Bool) :
    exec State.step s (wholeRequest i callback) = some (s.requested i callback) := by
  cases callback <;>
    simp [wholeRequest, List.replicate, exec_cons, State.step, State.callerStep, hidle,
      State.setCaller, Operation.entry, Operation.beforeWrite, smooth, State.requested,
      h.connected, h.unlocked, h.noTransfer]

/-- `n` requests without a callback, made by the calls from `m` on. -/
def silentRequests (m n : Nat) : List Step :=
  (List.range' m n).flatMap fun i => wholeRequest i false

def State.silent (s : State) (m n : Nat) : State :=
  { s with
    nextRequestId := s.nextRequestId + UInt64.ofNat n
    callers := fun i => if m ≤ i ∧ i < m + n then .returned else s.callers i
    drawn := s.drawn ++ List.range' m n }

theorem silent_requested (s : State) (m n : Nat) :
    (s.requested m false).silent (m + 1) n = s.silent m (n + 1) := by
  have hid : s.nextRequestId + 1 + UInt64.ofNat n = s.nextRequestId + UInt64.ofNat (n + 1) := by
    rw [UInt64.ofNat_add, UInt64.add_assoc, UInt64.add_comm 1]
    rfl
  have hcallers : (fun i => if m + 1 ≤ i ∧ i < m + 1 + n then CallerPhase.returned
      else Function.update s.callers m .returned i) =
      fun i => if m ≤ i ∧ i < m + (n + 1) then .returned else s.callers i := by
    funext i
    by_cases hi : i = m
    · subst hi
      rw [Function.update_self, if_pos (show i ≤ i ∧ i < i + (n + 1) by omega), ite_self]
    · rw [Function.update_of_ne hi]
      exact if_congr (by omega) rfl rfl
  have hdrawn : s.drawn ++ [m] ++ List.range' (m + 1) n = s.drawn ++ List.range' m (n + 1) := by
    rw [List.append_assoc]
    rfl
  simp only [State.silent, State.requested, Bool.false_eq_true, ite_false, hid, hcallers, hdrawn]

theorem exec_silentRequests {s : State} (h : s.Ready) (n : Nat) {m : Nat}
    (hidle : ∀ i, m ≤ i → s.callers i = .idle) :
    exec State.step s (silentRequests m n) = some (s.silent m n) := by
  induction n generalizing s m with
  | zero =>
    have hcallers : (fun i => if m ≤ i ∧ i < m + 0 then CallerPhase.returned
        else s.callers i) = s.callers := by
      funext i
      exact if_neg (by omega)
    have hid : s.nextRequestId + UInt64.ofNat 0 = s.nextRequestId := UInt64.add_zero _
    simp only [silentRequests, List.range'_zero, List.flatMap_nil, exec_nil, State.silent, hid,
      hcallers, List.append_nil]
  | succ n ih =>
    rw [silentRequests, List.range'_succ, List.flatMap_cons,
      exec_append_of_exec (exec_wholeRequest h (hidle m (Nat.le_refl m)) false),
      ← silent_requested]
    have hready : (s.requested m false).Ready := ⟨h.connected, h.unlocked, h.noTransfer⟩
    refine ih hready ?_
    intro i hi
    have hne : i ≠ m := by omega
    exact (Function.update_of_ne hne _ _).trans (hidle i (by omega))

def connect : List Step := [.accept 0 .nothing, .accept 0 (.connection 0), .accept 0 .nothing]

/-- `stop`, while the accept thread serves a connection and nobody writes. -/
def shutDown : List Step :=
  [.stop, .stop, .stop] ++ List.replicate 6 (.accept 0 .nothing) ++ [.stop, .stop, .stop]

/-- Request 0 stays unanswered until the ids come round. -/
def wrappedRun : List Step :=
  connect ++ wholeRequest 0 true ++ silentRequests 1 (2 ^ 64 - 1) ++ wholeRequest (2 ^ 64) true ++
    shutDown

def connected : State := { start with clientFd := some 0, accept := .serving 0 }

def wrapped : State :=
  ((connected.requested 0 true).silent 1 (2 ^ 64 - 1)).requested (2 ^ 64) true

def State.Resting (s : State) : Prop :=
  ∀ i, s.callers i = .idle ∨ s.callers i = .returned

theorem resting_requested {s : State} (h : s.Resting) (i : Nat) (callback : Bool) :
    (s.requested i callback).Resting := by
  intro j
  by_cases hj : j = i
  · subst hj
    exact .inr (Function.update_self _ _ _)
  · rw [show (s.requested i callback).callers j = s.callers j from Function.update_of_ne hj _ _]
    exact h j

theorem resting_silent {s : State} (h : s.Resting) (m n : Nat) : (s.silent m n).Resting := by
  intro i
  change (if m ≤ i ∧ i < m + n then CallerPhase.returned else s.callers i) = .idle ∨
    (if m ≤ i ∧ i < m + n then CallerPhase.returned else s.callers i) = .returned
  split
  · exact .inr rfl
  · exact h i

theorem resting_wrapped : wrapped.Resting := by
  have hconnected : connected.Resting := fun _ => .inl rfl
  exact resting_requested (resting_silent (resting_requested hconnected 0 true) 1 _) _ true

theorem exec_wrappedRun : exec State.step start wrappedRun = exec State.step wrapped shutDown := by
  have hready : connected.Ready := ⟨rfl, rfl, rfl⟩
  have hconnect : exec State.step start connect = some connected := rfl
  have hfirst : exec State.step start (connect ++ wholeRequest 0 true) =
      some (connected.requested 0 true) := by
    rw [exec_append_of_exec hconnect]
    exact exec_wholeRequest hready rfl true
  have hsilent : exec State.step start
      (connect ++ wholeRequest 0 true ++ silentRequests 1 (2 ^ 64 - 1)) =
      some ((connected.requested 0 true).silent 1 (2 ^ 64 - 1)) := by
    rw [exec_append_of_exec hfirst]
    refine exec_silentRequests ⟨rfl, rfl, rfl⟩ _ ?_
    intro i hi
    exact Function.update_of_ne (by omega) _ _
  rw [wrappedRun, exec_append_of_exec]
  rw [exec_append_of_exec hsilent]
  exact exec_wholeRequest ⟨rfl, rfl, rfl⟩ (by rfl) true

/-- The second request of id 1 takes the place of the first in the table, so
`stop` fails the second callback only. -/
theorem callback_lost_when_ids_come_round :
    ∃ s, Reachable State.step start s ∧ s.stop = .returned ∧
      (∀ i, s.callers i = .idle ∨ s.callers i = .returned) ∧ (0 : Nat) ∈ s.given ∧
      (s.completed.map Prod.fst).count 0 = 0 := by
  have hfinal : (exec State.step wrapped shutDown).map (fun s =>
      (s.stop, s.given, s.completed.map Prod.fst)) = some (.returned, [0, 2 ^ 64], [2 ^ 64]) := by
    decide
  have hcallers : (exec State.step wrapped shutDown).map State.callers = some wrapped.callers := rfl
  obtain ⟨s, hs, hfields⟩ := Option.map_eq_some_iff.mp hfinal
  obtain ⟨hstop, hrest⟩ := Prod.mk.inj hfields
  obtain ⟨hgiven, hcompleted⟩ := Prod.mk.inj hrest
  rw [hs, Option.map_some, Option.some.injEq] at hcallers
  refine ⟨s, ⟨wrappedRun, exec_wrappedRun.trans hs⟩, hstop, ?_, ?_, ?_⟩
  · intro i
    rw [hcallers]
    exact resting_wrapped i
  · rw [hgiven]
    exact List.mem_cons_self
  · rw [hcompleted]
    rfl

end Wrap

end GuestControlClient
end MacMu
