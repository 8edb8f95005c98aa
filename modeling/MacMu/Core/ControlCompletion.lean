import MacMu.Core.ControlChannel
import MacMu.Core.PendingCalls

/-!
`ControlChannel` runs the callback of every request once. The callback is in
custody of its call, of the pending table, of the reader or of `stop`, and every
step hands it on. What is left in the table after the reader's last sweep was
added by a call that has not written its frame yet; such a call finds the
channel dead and takes its entry back, if `stop` has not taken it first.
-/

namespace MacMu
namespace ControlChannel

open Custody PendingRequestTable TransitionSystem ControlRoundTrip

variable {s s' : State} {i : Nat}

/-- The id that the counter hands out after `n` draws. -/
def ticket (n : Nat) : UInt32 := UInt32.ofNat (n + 1)

theorem ticket_injective {bound : Nat} (h : bound < 2 ^ 32 - 1) (n m : Nat) (hn : n < bound)
    (hm : m < bound) (heq : ticket n = ticket m) : n = m := by
  have hnat := congrArg UInt32.toNat heq
  simp only [ticket, UInt32.toNat_ofNat'] at hnat
  omega

namespace CallerPhase

def kind : PhaseKind CallerPhase UInt32 where
  Idle := fun phase => phase = idle
  holds := fun phase => match phase with
    | checking callback _ | admitted callback _ | registering callback _ _ => callback.toNat
    | refused | completing _ => 1
    | _ => 0
  carried := fun phase => match phase with
    | completing callback => some callback
    | _ => none
  Undrawn := fun phase => match phase with
    | idle | checking .. | admitted .. => True
    | _ => False
  requestId := fun phase => match phase with
    | registering _ _ id | locking id | sending id | failed id => some id
    | _ => none
  Retracting := fun phase => match phase with
    | locking _ | failed _ => True
    | _ => False

/-- The steps of a call that touch neither the table nor a callback. -/
inductive Quiet : CallerPhase → CallerPhase → Prop where
  | pass (callback : Bool) (timeoutMs : UInt64) :
      Quiet (checking callback timeoutMs) (admitted callback timeoutMs)
  | refuse (timeoutMs : UInt64) : Quiet (checking true timeoutMs) refused
  | turnAway (timeoutMs : UInt64) : Quiet (checking false timeoutMs) returned
  | noCallback (timeoutMs : UInt64) (id : UInt32) :
      Quiet (registering false timeoutMs id) (locking id)
  | dead (id : UInt32) : Quiet (locking id) (failed id)
  | enter (id : UInt32) : Quiet (locking id) (sending id)
  | sent (id : UInt32) : Quiet (sending id) returned
  | broke (id : UInt32) : Quiet (sending id) (failed id)

theorem Quiet.passes {old new : CallerPhase} (h : Quiet old new) : kind.Passes old new := by
  cases h with
  | pass => exact ⟨rfl, CallerPhase.noConfusion, rfl, fun _ => trivial, fun _ hid => nomatch hid⟩
  | refuse | turnAway | sent =>
    exact ⟨rfl, CallerPhase.noConfusion, rfl, fun hn => hn.elim, fun _ hid => nomatch hid⟩
  | _ => exact ⟨rfl, CallerPhase.noConfusion, rfl, fun hn => hn.elim, fun _ hid => hid⟩

theorem done_returned : Calls.Done kind returned :=
  ⟨CallerPhase.noConfusion, rfl, rfl, id, rfl⟩

end CallerPhase

namespace ReaderPhase

def hand : ReaderPhase → List Nat
  | answering callback _ => [callback]
  | expiring callbacks | closing callbacks => callbacks
  | _ => []

/-- The reader has not cleared `alive_` yet. -/
def Serving : ReaderPhase → Prop
  | clearing | closing _ | finished => False
  | _ => True

def Cleared : ReaderPhase → Prop
  | closing _ | finished => True
  | _ => False

theorem Serving.not_cleared {r : ReaderPhase} (h : r.Serving) : ¬ r.Cleared := by
  intro hcleared
  cases r <;> first | exact hcleared.elim | exact h.elim

end ReaderPhase

namespace StopPhase

def hand : StopPhase → List Nat
  | failing callbacks => callbacks
  | _ => []

def Joined : StopPhase → Prop
  | idle | joining => False
  | _ => True

end StopPhase

/-- The calls of a state, and the callbacks that are elsewhere. -/
def State.calls (s : State) : Calls CallerPhase UInt32 where
  pending := s.pending
  phases := s.callers
  others := s.reader.hand ++ s.stop.hand ++ s.completed.map Prod.fst
  given := s.given
  drawn := s.drawn

structure Inv (s : State) : Prop where
  calls : s.calls.Inv CallerPhase.kind ticket s.reader.Cleared
  next : s.nextRequestId = ticket s.drawn.length
  alive : s.alive = true → s.reader.Serving
  joined : s.stop.Joined → s.reader = .finished

theorem inv_start : Inv start where
  calls :=
    { conserved := fun _ => rfl
      fresh := fun _ _ => List.not_mem_nil
      own := fun _ _ h => nomatch h
      nodup := List.nodup_nil
      undrawn := fun _ _ => List.not_mem_nil
      ids := fun _ _ h => nomatch h
      keyed := keyed_empty _
      swept := fun h => h.elim }
  next := rfl
  alive := fun _ => trivial
  joined := fun h => h.elim

theorem Inv.pass (h : Inv s) {old phase : CallerPhase} (hphase : s.callers i = old)
    (hquiet : old.Quiet phase) {mutex : Option Nat}
    (retracting : s.reader.Cleared → CallerPhase.kind.Retracting old →
      CallerPhase.kind.Retracting phase := by
        first | exact fun _ hr => False.elim hr | exact fun _ _ => trivial) : Inv ({ s with writeMutex := mutex }.setCaller i phase) :=
  ⟨h.calls.pass hphase hquiet.passes retracting, h.next, h.alive, h.joined⟩

theorem Inv.finish (h : Inv s) {old : CallerPhase} (hphase : s.callers i = old)
    (holds : CallerPhase.kind.holds old = 1) (response : Response) :
    Inv ((s.complete i response).setCaller i .returned) := by
  refine ⟨h.calls.finish hphase holds CallerPhase.done_returned ?_, h.next, h.alive, h.joined⟩
  simp only [State.complete, State.setCaller, List.map_append, List.map_cons, List.map_nil,
    ← List.append_assoc]
  exact List.perm_append_singleton _ _

theorem Inv.draw (h : Inv s) {callback : Bool} {timeoutMs : UInt64}
    (hphase : s.callers i = .admitted callback timeoutMs) :
    Inv ({ s with nextRequestId := s.nextRequestId + 1, drawn := s.drawn ++ [i] }.setCaller i
      (.registering callback timeoutMs s.nextRequestId)) := by
  refine ⟨h.calls.draw hphase trivial id rfl CallerPhase.noConfusion rfl id ?_, ?_, h.alive,
    h.joined⟩
  · rw [h.next]
    rfl
  · simp only [State.setCaller, h.next, ticket, List.length_append, List.length_cons,
      List.length_nil, UInt32.ofNat_add]
    rfl

theorem Inv.register (h : Inv s) (hbound : s.drawn.length < 2 ^ 32 - 1) {timeoutMs : UInt64}
    {id : UInt32} (hphase : s.callers i = .registering true timeoutMs id) (nowMs : UInt64) :
    Inv ({ s with pending := s.pending.add id i nowMs timeoutMs }.setCaller i (.locking id)) := by
  refine ⟨?_, h.next, h.alive, h.joined⟩
  apply h.calls.register (ticket_injective hbound) hphase rfl rfl
  · rfl
  · exact CallerPhase.noConfusion
  · rfl
  · exact fun hn => hn
  · rfl
  · trivial

theorem Inv.retract (h : Inv s) (hbound : s.drawn.length < 2 ^ 32 - 1) {id : UInt32}
    (hphase : s.callers i = .failed id) :
    Inv ({ s with pending := (s.pending.take id).2 }.setCaller i
      (((s.pending.take id).1.map CallerPhase.completing).getD .returned)) := by
  refine ⟨?_, h.next, h.alive, h.joined⟩
  apply h.calls.retract (ticket_injective hbound) hphase rfl rfl CallerPhase.done_returned
  · exact fun _ => CallerPhase.noConfusion
  · exact fun _ => rfl
  · exact fun _ => rfl
  · exact fun _ hn => hn
  · exact fun _ => rfl

theorem inv_callerStep (h : Inv s) (hbound : s.drawn.length < 2 ^ 32 - 1) {nowMs : UInt64}
    {sent : Bool} (hstep : s.callerStep i nowMs sent = some s') : Inv s' := by
  unfold State.callerStep at hstep
  split at hstep
  · cases hstep
  · cases hstep
  · rename_i callback timeoutMs hphase
    split at hstep
    · cases hstep
      exact h.pass hphase (.pass callback timeoutMs)
    · cases hstep
      cases callback with
      | true => exact h.pass hphase (.refuse timeoutMs)
      | false => exact h.pass hphase (.turnAway timeoutMs)
  · rename_i hphase
    cases hstep
    exact h.finish hphase rfl _
  · rename_i callback timeoutMs hphase
    cases hstep
    exact h.draw hphase
  · rename_i callback timeoutMs id hphase
    cases hstep
    cases callback with
    | true => exact h.register hbound hphase nowMs
    | false => exact h.pass hphase (.noCallback timeoutMs id)
  · rename_i id hphase
    split at hstep
    · cases hstep
    · split at hstep
      · cases hstep
        exact h.pass hphase (.dead id)
      · rename_i hopen
        cases hstep
        refine h.pass hphase (.enter id) ?_
        -- the channel is alive under the mutex, so the reader has its last sweep to come
        intro hcleared _
        have halive : s.alive = true := Bool.eq_true_of_not_eq_false (not_or.mp hopen).2
        exact absurd hcleared (h.alive halive).not_cleared
  · rename_i id hphase
    cases hstep
    cases sent with
    | true => exact h.pass hphase (.sent id)
    | false => exact h.pass hphase (.broke id)
  · rename_i id hphase
    have hretract := h.retract hbound hphase
    split at hstep
    · rename_i pending htake
      cases hstep
      rw [htake] at hretract
      exact hretract
    · rename_i callback pending htake
      cases hstep
      rw [htake] at hretract
      exact hretract
  · rename_i callback hphase
    cases hstep
    have hown : callback = i := h.calls.own i callback (congrArg CallerPhase.kind.carried hphase)
    rw [hown] at hphase ⊢
    exact h.finish hphase rfl _

section Reader

variable {old reader : ReaderPhase}

theorem Inv.reader_handOn (h : Inv s) (hreader : s.reader = old) {alive : Bool}
    {completed : List (Nat × Response)} (halive : alive = true → reader.Serving)
    (hands : (reader.hand ++ s.stop.hand ++ completed.map Prod.fst).Perm
      (old.hand ++ s.stop.hand ++ s.completed.map Prod.fst) := by rfl)
    (hcleared : reader.Cleared → old.Cleared := by exact id)
    (hrunning : old ≠ .finished := by exact ReaderPhase.noConfusion) :
    Inv { s with alive := alive, reader := reader, completed := completed } := by
  subst hreader
  exact ⟨h.calls.handOn hands hcleared, h.next, halive, fun hj => absurd (h.joined hj) hrunning⟩

theorem Inv.reader_advance (h : Inv s) (hreader : s.reader = old)
    (hands : reader.hand = old.hand := by rfl)
    (hserving : old.Serving → reader.Serving := by exact id)
    (hcleared : reader.Cleared → old.Cleared := by exact id)
    (hrunning : old ≠ .finished := by exact ReaderPhase.noConfusion) :
    Inv { s with reader := reader } :=
  h.reader_handOn hreader (fun halive => hserving (hreader ▸ h.alive halive)) (by rw [hands])
    hcleared hrunning

theorem Inv.reader_complete (h : Inv s) (hreader : s.reader = old) {callback : Nat}
    (response : Response) (hand : old.hand = callback :: reader.hand := by rfl)
    (hserving : old.Serving → reader.Serving := by exact id)
    (hcleared : reader.Cleared → old.Cleared := by exact id)
    (hrunning : old ≠ .finished := by exact ReaderPhase.noConfusion) :
    Inv { s.complete callback response with reader := reader } := by
  refine h.reader_handOn hreader (fun halive => hserving (hreader ▸ h.alive halive)) ?_
    hcleared hrunning
  simp only [State.complete, hand, List.map_append, List.map_cons, List.map_nil,
    ← List.append_assoc]
  exact List.perm_append_singleton _ _

theorem Inv.reader_remove (h : Inv s) (hreader : s.reader = old)
    {pending : PendingRequestTable UInt32 Nat}
    (hpending : s.pending.callbacks.Perm (reader.hand ++ pending.callbacks))
    (keyed : pending.Keyed fun id i => Drew ticket s.drawn i id)
    (hcleared : reader.Cleared → pending.callbacks = []) (hempty : old.hand = [] := by rfl)
    (hserving : old.Serving → reader.Serving := by exact id)
    (hrunning : old ≠ .finished := by exact ReaderPhase.noConfusion) :
    Inv { s with pending := pending, reader := reader } := by
  subst hreader
  refine ⟨h.calls.remove reader.hand hpending ?_ keyed (fun hc => .inl (hcleared hc)), h.next,
    fun halive => hserving (h.alive halive), fun hj => absurd (h.joined hj) hrunning⟩
  simp only [State.calls, hempty, List.nil_append, List.append_assoc]
  exact List.Perm.refl _

theorem inv_readFrame (h : Inv s) (hreader : s.reader = .polling) (type : UInt16)
    (requestId : UInt32) (payload : List UInt8) : Inv (s.readFrame type requestId payload) := by
  have htake := callbacks_take s.pending requestId
  have hkeyed : (s.pending.take requestId).2.Keyed fun id i => Drew ticket s.drawn i id :=
    h.calls.keyed.take requestId
  unfold State.readFrame
  split
  · exact h.reader_advance hreader
  · split
    · rename_i pending hresult
      rw [hresult] at htake hkeyed
      exact h.reader_remove hreader htake hkeyed False.elim
    · rename_i callback pending hresult
      rw [hresult] at htake hkeyed
      exact h.reader_remove hreader htake hkeyed False.elim

theorem inv_readerStep (h : Inv s) {nowMs : UInt64} {arrival : Arrival}
    (hstep : s.readerStep nowMs arrival = some s') : Inv s' := by
  unfold State.readerStep at hstep
  split at hstep
  · rename_i hreader
    cases hstep
    split
    · exact h.reader_advance hreader
    · exact h.reader_advance hreader
  · rename_i hreader
    cases arrival with
    | quiet | spurious | broken =>
      cases hstep
      exact h.reader_advance hreader
    | frame type requestId payload =>
      cases hstep
      exact inv_readFrame h hreader ..
  · rename_i callback response hreader
    cases hstep
    exact h.reader_complete hreader ..
  · rename_i hreader
    cases hstep
    exact h.reader_remove hreader (callbacks_sweepTimeouts s.pending nowMs)
      (h.calls.keyed.sweepTimeouts nowMs) False.elim
  · rename_i hreader
    cases hstep
    exact h.reader_advance hreader
  · rename_i callback rest hreader
    cases hstep
    exact h.reader_complete hreader _
  · rename_i hreader
    cases hstep
    exact h.reader_handOn hreader (fun halive => nomatch halive)
  · rename_i hreader
    cases hstep
    refine h.reader_remove hreader ?_ (keyed_empty _) fun _ => rfl
    rw [callbacks_empty, List.append_nil]
    exact List.Perm.refl _
  · rename_i hreader
    cases hstep
    exact h.reader_advance hreader
  · rename_i callback rest hreader
    cases hstep
    exact h.reader_complete hreader _
  · cases hstep

end Reader

theorem Inv.stop_handOn (h : Inv s) {old stop : StopPhase} (hstop : s.stop = old)
    {alive stopRequested localFd : Bool} {completed : List (Nat × Response)}
    (hjoined : stop.Joined → old.Joined ∨ s.reader = .finished)
    (halive : alive = true → s.alive = true := by exact id)
    (hands : (s.reader.hand ++ stop.hand ++ completed.map Prod.fst).Perm
      (s.reader.hand ++ old.hand ++ s.completed.map Prod.fst) := by rfl) :
    Inv { s with
      alive := alive, stopRequested := stopRequested, localFd := localFd, stop := stop
      completed := completed } := by
  subst hstop
  exact ⟨h.calls.handOn hands id, h.next, fun ha => h.alive (halive ha),
    fun hj => (hjoined hj).elim h.joined id⟩

theorem inv_stopStep (h : Inv s) (hstep : s.stopStep = some s') : Inv s' := by
  unfold State.stopStep at hstep
  split at hstep
  · rename_i hstop
    cases hstep
    exact h.stop_handOn hstop False.elim
  · rename_i hstop
    split at hstep <;> cases hstep
    rename_i hfinished
    exact h.stop_handOn hstop fun _ => .inr hfinished
  · rename_i hstop
    split at hstep <;> cases hstep
    exact h.stop_handOn hstop .inl
  · rename_i hstop
    cases hstep
    refine ⟨h.calls.remove s.pending.callbacks ?_ ?_ (keyed_empty _) (fun _ => .inl rfl),
      h.next, h.alive, fun _ => h.joined (by rw [hstop]; trivial)⟩
    · rw [callbacks_empty, List.append_nil]
      exact List.Perm.refl _
    · simp only [State.calls, hstop, StopPhase.hand, List.append_nil, ← List.append_assoc]
      exact List.perm_append_comm.append_right _
  · rename_i callback rest hstop
    cases hstep
    refine h.stop_handOn hstop .inl id ?_
    simp only [State.complete, StopPhase.hand, List.map_append, List.map_cons, List.map_nil,
      ← List.append_assoc]
    refine (List.perm_append_singleton _ _).trans ?_
    rw [List.append_assoc, List.append_assoc]
    exact List.perm_middle.symm
  · rename_i hstop
    cases hstep
    exact h.stop_handOn hstop .inl (fun halive => absurd halive Bool.false_ne_true)
  · cases hstep

theorem inv_call (h : Inv s) (hidle : s.callers i = .idle) (callback : Bool) (timeoutMs : UInt64) :
    Inv ({ s with given := if callback then s.given ++ [i] else s.given }.setCaller i
      (.checking callback timeoutMs)) :=
  ⟨h.calls.call hidle rfl trivial rfl id callback rfl CallerPhase.noConfusion rfl rfl, h.next,
    h.alive, h.joined⟩

theorem inv_step (h : Inv s) (hbound : s.drawn.length < 2 ^ 32 - 1) (step : Step)
    (hstep : s.step step = some s') : Inv s' := by
  cases step with
  | call i callback timeoutMs =>
    simp only [State.step] at hstep
    split at hstep <;> cases hstep
    rename_i hidle
    exact inv_call h hidle ..
  | caller i nowMs sent => exact inv_callerStep h hbound hstep
  | reader nowMs arrival => exact inv_readerStep h hstep
  | stop => exact inv_stopStep h hstep

theorem drawn_length_le (step : Step) (hstep : s.step step = some s') :
    s.drawn.length ≤ s'.drawn.length := by
  cases step with
  | call i callback timeoutMs =>
    simp only [State.step] at hstep
    split at hstep <;> cases hstep
    exact Nat.le_refl _
  | caller i nowMs sent =>
    simp only [State.step, State.callerStep] at hstep
    cases hphase : s.callers i with
    | admitted callback timeoutMs =>
      rw [hphase] at hstep
      cases hstep
      change s.drawn.length ≤ (s.drawn ++ [i]).length
      rw [List.length_append]
      exact Nat.le_add_right _ _
    | registering callback timeoutMs id =>
      rw [hphase] at hstep
      cases hstep
      cases callback <;> exact Nat.le_refl _
    | _ =>
      simp only [hphase] at hstep
      (repeat' split at hstep) <;> cases hstep <;> exact Nat.le_refl _
  | reader nowMs arrival =>
    simp only [State.step, State.readerStep, State.readFrame] at hstep
    cases hreader : s.reader with
    | polling =>
      rw [hreader] at hstep
      cases arrival with
      | frame type requestId payload =>
        cases hstep
        (repeat' split) <;> exact Nat.le_refl _
      | _ =>
        cases hstep
        exact Nat.le_refl _
    | expiring callbacks | closing callbacks =>
      rw [hreader] at hstep
      cases callbacks <;> cases hstep <;> exact Nat.le_refl _
    | _ =>
      rw [hreader] at hstep
      cases hstep <;> exact Nat.le_refl _
  | stop =>
    simp only [State.step, State.stopStep] at hstep
    (repeat' split at hstep) <;> cases hstep <;> exact Nat.le_refl _

theorem inv_of_reachable (h : Reachable State.step start s) (hbound : s.drawn.length < 2 ^ 32 - 1) :
    Inv s := by
  refine Reachable.invariant (I := fun s => s.drawn.length < 2 ^ 32 - 1 → Inv s) ?_
    (fun _ => inv_start) h hbound
  intro s step s' hs hstep hbound'
  have hle := drawn_length_le step hstep
  exact inv_step (hs (by omega)) (by omega) step hstep

/-- When `stop` and every call of `request` have returned, and fewer than
`2 ^ 32 - 1` ids were drawn, each callback has run exactly once. -/
theorem control_channel_completes_once (s : State) (h : Reachable State.step start s)
    (hbound : s.drawn.length < 2 ^ 32 - 1) (hstop : s.stop = .returned)
    (hcalls : ∀ i, s.callers i = .idle ∨ s.callers i = .returned) :
    ∀ i ∈ s.given, (s.completed.map Prod.fst).count i = 1 := by
  have hinv := inv_of_reachable h hbound
  have hfinished : s.reader = .finished := hinv.joined (by rw [hstop]; trivial)
  have hcleared : s.reader.Cleared := by
    rw [hfinished]
    trivial
  intro i hi
  have hone : s.calls.others.count i = 1 := by
    rcases hcalls i with hcall | hcall
    · exact hinv.calls.count_others hcleared hcall rfl id hi
    · exact hinv.calls.count_others hcleared hcall rfl id hi
  rw [State.calls, hfinished, hstop] at hone
  exact hone

/-- One request that is answered, and `stop`. -/
def answeredCall : List Step :=
  [.call 0 true 1000, .caller 0 0 true, .caller 0 0 true, .caller 0 0 true, .caller 0 0 true,
    .reader 0 .quiet, .reader 0 (.frame 2 1 []), .caller 0 0 true, .reader 0 .quiet,
    .reader 0 .quiet, .reader 0 .quiet, .stop, .reader 0 .quiet, .reader 0 .quiet,
    .reader 0 .quiet, .reader 0 .quiet, .stop, .stop, .stop, .stop]

theorem control_channel_completes_once_answered :
    ∃ s, exec State.step start answeredCall = some s ∧ s.stop = .returned ∧
      (0 : Nat) ∈ s.given ∧ (s.completed.map Prod.fst).count 0 = 1 := by
  have hrun : (exec State.step start answeredCall).map (fun s =>
      (s.stop, s.given, s.drawn.length)) = some (.returned, [0], 1) := by
    decide
  obtain ⟨s, hs, hfields⟩ := Option.map_eq_some_iff.mp hrun
  obtain ⟨hstop, hrest⟩ := Prod.mk.inj hfields
  obtain ⟨hgiven, hdrawn⟩ := Prod.mk.inj hrest
  have hcalls : ∀ i, s.callers i = .idle ∨ s.callers i = .returned := by
    intro i
    have hphase : (exec State.step start answeredCall).map (fun s => s.callers i) =
        some (if i = 0 then .returned else .idle) := by
      cases i <;> rfl
    rw [hs, Option.map_some, Option.some.injEq] at hphase
    rw [hphase]
    split
    · exact .inr rfl
    · exact .inl rfl
  have hmem : (0 : Nat) ∈ s.given := by
    rw [hgiven]
    exact List.mem_singleton.mpr rfl
  exact ⟨s, hs, hstop, hmem, control_channel_completes_once s ⟨_, hs⟩ (by rw [hdrawn]; decide)
    hstop hcalls 0 hmem⟩

end ControlChannel
end MacMu
