import MacMu.Core.RequestTimeouts

/-!
The timeouts of requests, on both connections. `GuestControlClient` sweeps only when its
`poll` times out, and `ControlChannel` not after every frame, so traffic that goes on can
keep a request pending for as long as it lasts. Where the loops get to a sweep in time,
no iteration begins with a request that expired a second ago.
-/

namespace MacMu

open Deadlines (Loop Action World)
open TransitionSystem

namespace GuestControlClient

def Step.at (now : Nat) : Step → Step
  | caller i input => caller i { input with nowMs := .ofNat now }
  | accept _ arrival => accept (.ofNat now) arrival
  | other => other

/-- The top of the loop of `serve_connection`. -/
def AcceptPhase.begins : AcceptPhase → Bool
  | serving _ => true
  | _ => false

def AcceptPhase.polls : AcceptPhase → Bool
  | polling _ => true
  | _ => false

/-- Outside `serve_connection`, where the thread waits for a connection or for a mutex. -/
def AcceptPhase.idles : AcceptPhase → Bool
  | looping | accepting | publishing _ | disconnecting _ | finished => true
  | _ => false

def AcceptPhase.sweeps : AcceptPhase → Bool
  | sweeping _ => true
  | _ => false

def State.sweeps (s : State) : Step → Bool
  | .accept .. => s.accept.sweeps
  | _ => false

/-- `poll` returns, or a connection is served, and there is no sweep before the next
iteration. -/
def State.returns (s : State) : Step → Bool
  | .accept _ arrival =>
    match s.accept, arrival with
    | .publishing _, _ => !s.stopRequested
    | .polling _, .nothing => true
    | .polling _, .connection _ => true
    | .polling _, .lines _ oversized => !oversized
    | _, _ => false
  | _ => false

def State.fits (now : Nat) (s : State) : Step → Bool
  | .caller i _ =>
    match s.callers i with
    | .registering _ true timeoutMs _ => hasTime now timeoutMs
    | _ => true
  | _ => true

def loop : Loop State Step where
  step now s a := s.step (a.at now)
  deadlines s := s.pending.deadlines
  patience := kPollTimeoutMs
  horizon := 2 ^ 64
  begins s := s.accept.begins
  polls s := s.accept.polls
  idles s := s.accept.idles
  sweeps := State.sweeps
  returns := State.returns
  fits := State.fits

/-- The phases within an iteration in which a sweep is not still to come. -/
def AcceptPhase.clean : AcceptPhase → Bool
  | serving _ | expiring .. => true
  | handling _ _ oversized | answering _ _ _ _ oversized => !oversized
  | _ => false

section Reader

variable {s s' : State} {now d : Nat}

theorem deadlines_callerStep {i : Nat} {input : CallerInput}
    (hstep : s.callerStep i { input with nowMs := .ofNat now } = some s')
    (hfits : s.fits now (.caller i input) = true) (hd : d ∈ s'.pending.deadlines) : now < d ∨ d ∈ s.pending.deadlines := by
  unfold State.callerStep at hstep
  split at hstep
  case h_10 operation callback timeoutMs requestId hphase =>
    cases hstep
    cases callback with
    | false => exact .inr hd
    | true =>
      rw [State.fits, hphase] at hfits
      exact PendingRequestTable.deadlines_add hfits hd
  case h_18 requestId message hphase =>
    have htake : s'.pending = (s.pending.take requestId).2 := by
      split at hstep
      all_goals
        rename_i htaken
        cases hstep
        rw [htaken]
        rfl
    rw [htake] at hd
    exact .inr (PendingRequestTable.deadlines_take hd)
  all_goals
    repeat' split at hstep
    all_goals
      cases hstep
      try exact .inr hd

theorem deadlines_acceptStep {arrival : Arrival} (hnow : now < 2 ^ 64)
    (hstep : s.acceptStep (.ofNat now) arrival = some s') (hd : d ∈ s'.pending.deadlines) :
    now < d ∨ (d ∈ s.pending.deadlines ∧ s.accept.sweeps = false) := by
  unfold State.acceptStep at hstep
  split at hstep
  case h_7 fd answer rest oversized hphase =>
    have htake : s'.pending = (s.pending.take answer.id).2 := by
      split at hstep
      all_goals
        rename_i htaken
        cases hstep
        rw [htaken]
    rw [htake] at hd
    exact .inr ⟨PendingRequestTable.deadlines_take hd, by rw [hphase]; rfl⟩
  case h_9 fd hphase =>
    cases hstep
    have hlater := PendingRequestTable.deadlines_sweepTimeouts hd
    rw [UInt64.toNat_ofNat', Nat.mod_eq_of_lt hnow] at hlater
    exact .inl hlater
  case h_13 hphase =>
    cases hstep
    cases hd
  all_goals
    rename_i hphase
    repeat' split at hstep
    all_goals
      cases hstep
      try exact .inr ⟨hd, by rw [hphase]; rfl⟩

theorem deadlines_stopStep (hstep : s.stopStep = some s') (hd : d ∈ s'.pending.deadlines) :
    d ∈ s.pending.deadlines := by
  unfold State.stopStep at hstep
  split at hstep
  case h_5 =>
    cases hstep
    cases hd
  all_goals
    repeat' split at hstep
    all_goals
      cases hstep
      try exact hd

theorem accept_callerStep {i : Nat} {input : CallerInput}
    (hstep : s.callerStep i input = some s') : s'.accept = s.accept := by
  unfold State.callerStep at hstep
  split at hstep
  case h_10 operation callback timeoutMs requestId hphase =>
    cases hstep
    cases callback <;> rfl
  all_goals
    repeat' split at hstep
    all_goals
      cases hstep
      try rfl

theorem accept_stopStep (hstep : s.stopStep = some s') : s'.accept = s.accept := by
  unfold State.stopStep at hstep
  repeat' split at hstep
  all_goals
    cases hstep
    try rfl

/-- The loop gets to its next iteration after a sweep, or with what `poll` has brought. -/
theorem settles_acceptStep {nowMs : UInt64} {arrival : Arrival}
    (hstep : s.acceptStep nowMs arrival = some s') (hclean : s'.accept.clean = true) :
    s.accept.clean = true ∨ s.accept.sweeps = true ∨
      s.returns (.accept nowMs arrival) = true := by
  unfold State.acceptStep at hstep
  split at hstep
  case h_3 fd hphase =>
    refine .inr (.inr ?_)
    simp only [State.returns, hphase]
    split at hstep
    · cases hstep
    · split at hstep
      · cases hstep
        cases hclean
      · rename_i hflag
        simpa using hflag
  case h_4 hphase | h_10 hphase | h_11 hphase => exact .inl (by rw [hphase]; rfl)
  case h_5 fd hphase =>
    refine .inr (.inr ?_)
    simp only [State.returns, hphase]
    cases arrival with
    | nothing | connection fd => rfl
    | quiet | broken =>
      cases hstep
      cases hclean
    | lines answers oversized =>
      cases hstep
      exact hclean
  case h_6 fd oversized hphase =>
    cases hstep
    cases oversized with
    | false => exact .inl (by rw [hphase]; rfl)
    | true => cases hclean
  case h_7 fd answer rest oversized hphase =>
    refine .inl ?_
    rw [hphase]
    split at hstep
    all_goals
      cases hstep
      exact hclean
  case h_8 fd callback answer rest oversized hphase =>
    cases hstep
    exact .inl (by rw [hphase]; exact hclean)
  case h_9 fd hphase => exact .inr (.inl (by rw [hphase]; rfl))
  case h_1 =>
    cases hstep
    split at hclean <;> cases hclean
  case h_2 =>
    split at hstep
    · cases hstep
      cases hclean
    · cases hstep
      split at hclean <;> cases hclean
  all_goals
    repeat' split at hstep
    all_goals
      cases hstep
      try cases hclean

end Reader

theorem loop_lawful : loop.Lawful fun s => s.accept.clean where
  kept := by
    intro now s a s' hnow hstep hfits d hd
    cases a with
    | call i operation callback timeoutMs =>
      simp only [loop, Step.at, State.step] at hstep
      split at hstep <;> cases hstep
      exact .inr ⟨hd, rfl⟩
    | caller i input =>
      exact (deadlines_callerStep hstep hfits hd).imp_right fun hold => ⟨hold, rfl⟩
    | accept nowMs arrival => exact deadlines_acceptStep hnow hstep hd
    | stop => exact .inr ⟨deadlines_stopStep hstep hd, rfl⟩
  settles := by
    intro now s a s' hstep hclean
    cases a with
    | call i operation callback timeoutMs =>
      simp only [loop, Step.at, State.step] at hstep
      split at hstep <;> cases hstep
      exact .inl hclean
    | caller i input => exact .inl (by rw [← accept_callerStep hstep]; exact hclean)
    | accept nowMs arrival => exact settles_acceptStep hstep hclean
    | stop => exact .inl (by rw [← accept_stopStep hstep]; exact hclean)
  waits := by
    intro s hclean
    change s.accept.polls = false ∧ s.accept.idles = false
    cases hphase : s.accept with
    | serving | expiring | handling | answering => exact ⟨rfl, rfl⟩
    | _ =>
      rw [hphase] at hclean
      cases hclean
  begins := by
    intro s hbegins
    change s.accept.begins = true at hbegins
    cases hphase : s.accept with
    | serving => rfl
    | _ =>
      rw [hphase] at hbegins
      cases hbegins

end GuestControlClient

namespace RequestTimeouts

/-- No iteration of the loop begins with a request that expired a second ago or earlier. -/
def Enforced {σ ι : Type} (L : Loop σ ι) (s : σ) (actions : List (Action ι)) : Prop :=
  ∀ w, exec L.run (Loop.start s) actions = some w → L.begins w.state = true →
    ∀ d ∈ L.deadlines w.state, ¬d + kPollTimeoutMs ≤ w.now

/-- Timeouts are enforced in every run in which requests are made with time left, and in
which an iteration that ends without a sweep, while a request has expired, ends within a
second of the last one that left none. -/
theorem timeouts_enforced_of_timely (channelActions : List (Action ControlChannel.Step))
    (guestActions : List (Action GuestControlClient.Step)) :
    (Meets ControlChannel.loop.run ControlChannel.loop.Timely (Loop.start ControlChannel.start)
        channelActions →
      Enforced ControlChannel.loop ControlChannel.start channelActions) ∧
    (Meets GuestControlClient.loop.run GuestControlClient.loop.Timely
        (Loop.start GuestControlClient.start) guestActions →
      Enforced GuestControlClient.loop GuestControlClient.start guestActions) := by
  constructor
  · intro hmeets w hrun hbegins d hd
    have hempty : ControlChannel.loop.deadlines ControlChannel.start = [] := rfl
    exact Nat.not_le.mpr (Loop.punctual_of_timely ControlChannel.loop_lawful hempty (by decide)
      hmeets hrun hbegins d hd)
  · intro hmeets w hrun hbegins d hd
    have hempty : GuestControlClient.loop.deadlines GuestControlClient.start = [] := rfl
    exact Nat.not_le.mpr (Loop.punctual_of_timely GuestControlClient.loop_lawful hempty (by decide)
      hmeets hrun hbegins d hd)

namespace Sample

/-- A request to the emulator, at once, with a timeout of 100 ms. -/
def channelRequest : List (Action ControlChannel.Step) :=
  .act (.call 0 true 100) :: List.replicate 5 (.act (.caller 0 0 true)) ++
    [.act (.reader 0 .quiet)]

/-- An event after some time, and the next `poll`. -/
def channelEvent (duration : Nat) : List (Action ControlChannel.Step) :=
  [.pass duration, .act (.reader 0 (.frame 0 0 []))]

def proceed : GuestControlClient.Step := .caller 0 ⟨0, false, .opened true 1, true⟩

/-- The agent connects, and a request is made with a timeout of 100 ms. -/
def guestRequest : List (Action GuestControlClient.Step) :=
  [.act (.accept 0 .nothing), .act (.accept 0 (.connection 5)), .act (.accept 0 .nothing),
    .act (.accept 0 .nothing), .act (.call 0 .request true 100)] ++
    List.replicate 7 (.act proceed)

def guestLines (duration : Nat) : List (Action GuestControlClient.Step) :=
  [.pass duration, .act (.accept 0 (.lines [] false)), .act (.accept 0 .nothing)]

end Sample

/-- One iteration of 900 ms without a sweep. -/
theorem timeouts_enforced_of_timely_once :
    Enforced ControlChannel.loop ControlChannel.start
      (Sample.channelRequest ++ Sample.channelEvent 900) ∧
    Enforced GuestControlClient.loop GuestControlClient.start
      (Sample.guestRequest ++ Sample.guestLines 900) :=
  ⟨(timeouts_enforced_of_timely _ []).1 (by decide +kernel),
    (timeouts_enforced_of_timely [] _).2 (by decide +kernel)⟩

/-- Two iterations of 900 ms, of which neither sweeps. -/
theorem timeouts_not_enforced :
    ¬Enforced ControlChannel.loop ControlChannel.start
      (Sample.channelRequest ++ Sample.channelEvent 900 ++ [.act (.reader 0 .quiet)] ++
        Sample.channelEvent 900) ∧
    ¬Enforced GuestControlClient.loop GuestControlClient.start
      (Sample.guestRequest ++ Sample.guestLines 900 ++ [.act (.accept 0 .nothing)] ++
        Sample.guestLines 900) := by
  constructor
  · intro h
    obtain ⟨w, hrun, hbegins, hdeadlines, hnow⟩ := exists_of_map_decide
      (o := exec ControlChannel.loop.run (Loop.start ControlChannel.start)
        (Sample.channelRequest ++ Sample.channelEvent 900 ++ [.act (.reader 0 .quiet)] ++
          Sample.channelEvent 900))
      (p := fun w => ControlChannel.loop.begins w.state = true ∧
        ControlChannel.loop.deadlines w.state = [100] ∧ w.now = 1800) (by decide +kernel)
    refine h w hrun hbegins 100 ?_ ?_
    · rw [hdeadlines]
      exact List.mem_singleton.mpr rfl
    · rw [hnow]
      decide
  · intro h
    obtain ⟨w, hrun, hbegins, hdeadlines, hnow⟩ := exists_of_map_decide
      (o := exec GuestControlClient.loop.run (Loop.start GuestControlClient.start)
        (Sample.guestRequest ++ Sample.guestLines 900 ++ [.act (.accept 0 .nothing)] ++
          Sample.guestLines 900))
      (p := fun w => GuestControlClient.loop.begins w.state = true ∧
        GuestControlClient.loop.deadlines w.state = [100] ∧ w.now = 1800) (by decide +kernel)
    refine h w hrun hbegins 100 ?_ ?_
    · rw [hdeadlines]
      exact List.mem_singleton.mpr rfl
    · rw [hnow]
      decide

end RequestTimeouts
end MacMu
