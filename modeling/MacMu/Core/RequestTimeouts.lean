import MacMu.Core.ControlChannel
import MacMu.Core.GuestControlClient
import MacMu.Lib.Deadlines

/-!
The reader loops of `ControlChannel` and `GuestControlClient` against a clock. Both wait in
`poll` for at most a second and sweep the table of pending requests when it times out;
`ControlChannel` sweeps after an answer as well. Frames without a request, late answers and
all lines of the agent go on without a sweep. Callbacks and reads take no time, and neither
does a call of a thread; what the threads read from the clock is its time.
-/

namespace MacMu

open Std
open Deadlines (Loop)

def hasTime (now : Nat) (timeoutMs : UInt64) : Bool :=
  0 < timeoutMs.toNat && now + timeoutMs.toNat < 2 ^ 64

namespace PendingRequestTable

variable {κ γ : Type} [Ord κ] [TransOrd κ]

def deadlines (t : PendingRequestTable κ γ) : List Nat :=
  t.pending.toList.map fun entry => entry.2.deadlineMs.toNat

variable [LawfulEqOrd κ] {t : PendingRequestTable κ γ} {d : Nat}

theorem mem_deadlines : d ∈ t.deadlines ↔
    ∃ (key : κ) (entry : Pending γ), t.pending[key]? = some entry ∧ entry.deadlineMs.toNat = d := by
  simp only [deadlines, List.mem_map, Prod.exists, ExtTreeMap.mem_toList_iff_getElem?_eq_some]

theorem deadlines_take {key : κ} (h : d ∈ (t.take key).2.deadlines) : d ∈ t.deadlines := by
  unfold take at h
  split at h
  · exact h
  · obtain ⟨k, entry, hentry, hd⟩ := mem_deadlines.mp h
    rw [ExtTreeMap.getElem?_erase] at hentry
    split at hentry
    · cases hentry
    · exact mem_deadlines.mpr ⟨k, entry, hentry, hd⟩

theorem deadlines_sweepTimeouts {nowMs : UInt64} (h : d ∈ (t.sweepTimeouts nowMs).2.deadlines) :
    nowMs.toNat < d := by
  obtain ⟨k, entry, hentry, rfl⟩ := mem_deadlines.mp h
  rw [sweepTimeouts, ExtTreeMap.getElem?_filter', Option.filter_eq_some_iff] at hentry
  have hlater : ¬entry.deadlineMs ≤ nowMs := by
    simpa using hentry.2
  exact UInt64.lt_iff_toNat_lt.mp (UInt64.not_le.mp hlater)

theorem deadlines_add {key : κ} {callback : γ} {now : Nat} {timeoutMs : UInt64}
    (hfits : hasTime now timeoutMs = true)
    (h : d ∈ (t.add key callback (.ofNat now) timeoutMs).deadlines) :
    now < d ∨ d ∈ t.deadlines := by
  simp only [hasTime, Bool.and_eq_true, decide_eq_true_eq] at hfits
  obtain ⟨htimeout, hsum⟩ := hfits
  obtain ⟨k, entry, hentry, rfl⟩ := mem_deadlines.mp h
  rw [add, ExtTreeMap.getElem?_insert] at hentry
  split at hentry
  · cases hentry
    left
    rw [UInt64.toNat_add, UInt64.toNat_ofNat', Nat.mod_eq_of_lt (by omega : now < 2 ^ 64),
      Nat.mod_eq_of_lt hsum]
    omega
  · exact .inr (mem_deadlines.mpr ⟨k, entry, hentry, rfl⟩)

end PendingRequestTable

/-- The longest wait of `poll`, in milliseconds. -/
def kPollTimeoutMs : Nat := 1000

namespace ControlChannel

def Step.at (now : Nat) : Step → Step
  | caller i _ sent => caller i (.ofNat now) sent
  | reader _ arrival => reader (.ofNat now) arrival
  | other => other

def State.sweeps (s : State) : Step → Bool
  | .reader .. => s.reader = .sweeping
  | _ => false

/-- `poll` returns, and the reader goes on without a sweep. -/
def State.returns (s : State) : Step → Bool
  | .reader _ arrival =>
    decide (s.reader = .polling) && match arrival with
      | .spurious => true
      | .frame _ requestId _ => decide (requestId = 0) || (s.pending.take requestId).1.isNone
      | .quiet | .broken => false
  | _ => false

def State.fits (now : Nat) (s : State) : Step → Bool
  | .caller i _ _ =>
    match s.callers i with
    | .registering true timeoutMs _ => hasTime now timeoutMs
    | _ => true
  | _ => true

def loop : Loop State Step where
  step now s a := s.step (a.at now)
  deadlines s := s.pending.deadlines
  patience := kPollTimeoutMs
  horizon := 2 ^ 64
  begins s := s.reader = .looping
  polls s := s.reader = .polling
  idles s := s.reader = .finished
  sweeps := State.sweeps
  returns := State.returns
  fits := State.fits

/-- The phases of the reader in which a sweep is not still to come. -/
def ReaderPhase.clean : ReaderPhase → Bool
  | looping | expiring _ => true
  | _ => false

section Reader

variable {s s' : State} {now d : Nat}

theorem deadlines_callerStep {i : Nat} (nowMs : UInt64) {sent : Bool}
    (hstep : s.callerStep i (.ofNat now) sent = some s')
    (hfits : s.fits now (.caller i nowMs sent) = true) (hd : d ∈ s'.pending.deadlines) : now < d ∨ d ∈ s.pending.deadlines := by
  unfold State.callerStep at hstep
  split at hstep
  case h_6 callback timeoutMs requestId hphase =>
    cases hstep
    cases callback with
    | false => exact .inr hd
    | true =>
      rw [State.fits, hphase] at hfits
      exact PendingRequestTable.deadlines_add hfits hd
  case h_9 requestId hphase =>
    have htake : s'.pending = (s.pending.take requestId).2 := by
      split at hstep
      all_goals
        rename_i htaken
        cases hstep
        rw [htaken]
        rfl
    rw [htake] at hd
    exact .inr (PendingRequestTable.deadlines_take hd)
  all_goals
    repeat' split at hstep
    all_goals
      cases hstep
      try exact .inr hd

theorem deadlines_readFrame {type : UInt16} {requestId : UInt32} {payload : List UInt8}
    (hd : d ∈ (s.readFrame type requestId payload).pending.deadlines) :
    d ∈ s.pending.deadlines := by
  unfold State.readFrame at hd
  split at hd
  · exact hd
  · have htake : d ∈ (s.pending.take requestId).2.deadlines := by
      split at hd
      all_goals
        rename_i htaken
        rw [htaken]
        exact hd
    exact PendingRequestTable.deadlines_take htake

theorem deadlines_readerStep {arrival : Arrival} (hnow : now < 2 ^ 64)
    (hstep : s.readerStep (.ofNat now) arrival = some s') (hd : d ∈ s'.pending.deadlines) :
    now < d ∨ (d ∈ s.pending.deadlines ∧ s.reader ≠ .sweeping) := by
  unfold State.readerStep at hstep
  split at hstep
  case h_2 hphase =>
    have hne : s.reader ≠ .sweeping := by
      rw [hphase]
      exact nofun
    split at hstep
    case h_4 =>
      cases hstep
      exact .inr ⟨deadlines_readFrame hd, hne⟩
    all_goals
      cases hstep
      exact .inr ⟨hd, hne⟩
  case h_4 hphase =>
    cases hstep
    have hlater := PendingRequestTable.deadlines_sweepTimeouts hd
    rw [UInt64.toNat_ofNat', Nat.mod_eq_of_lt hnow] at hlater
    exact .inl hlater
  case h_8 hphase =>
    cases hstep
    cases hd
  case h_11 => cases hstep
  all_goals
    rename_i hphase
    cases hstep
    refine .inr ⟨hd, ?_⟩
    rw [hphase]
    exact nofun

theorem deadlines_stopStep (hstep : s.stopStep = some s') (hd : d ∈ s'.pending.deadlines) :
    d ∈ s.pending.deadlines := by
  unfold State.stopStep at hstep
  split at hstep
  case h_4 =>
    cases hstep
    cases hd
  all_goals
    repeat' split at hstep
    all_goals
      cases hstep
      try exact hd

theorem reader_callerStep {i : Nat} {nowMs : UInt64} {sent : Bool}
    (hstep : s.callerStep i nowMs sent = some s') : s'.reader = s.reader := by
  unfold State.callerStep at hstep
  split at hstep
  case h_6 callback timeoutMs requestId hphase =>
    cases hstep
    cases callback <;> rfl
  all_goals
    repeat' split at hstep
    all_goals
      cases hstep
      try rfl

theorem reader_stopStep (hstep : s.stopStep = some s') : s'.reader = s.reader := by
  unfold State.stopStep at hstep
  repeat' split at hstep
  all_goals
    cases hstep
    try rfl

/-- The reader gets to its next iteration after a sweep, or with what `poll` has brought. -/
theorem settles_readerStep {nowMs : UInt64} {arrival : Arrival}
    (hstep : s.readerStep nowMs arrival = some s') (hclean : s'.reader.clean = true) :
    s.reader.clean = true ∨ s.reader = .sweeping ∨
      s.returns (.reader nowMs arrival) = true := by
  unfold State.readerStep at hstep
  split at hstep
  case h_1 hphase => exact .inl (by rw [hphase]; rfl)
  case h_2 hphase =>
    refine .inr (.inr ?_)
    simp only [State.returns, hphase, decide_true, Bool.true_and]
    cases arrival with
    | spurious => rfl
    | quiet | broken =>
      cases hstep
      cases hclean
    | frame type requestId payload =>
      cases hstep
      simp only [Bool.or_eq_true, decide_eq_true_eq]
      unfold State.readFrame at hclean
      split at hclean
      · exact .inl ‹_›
      · split at hclean
        · rename_i htaken
          exact .inr (by rw [htaken]; rfl)
        · cases hclean
  case h_4 hphase => exact .inr (.inl hphase)
  case h_5 hphase | h_6 hphase => exact .inl (by rw [hphase]; rfl)
  all_goals
    cases hstep
    try cases hclean

end Reader

theorem loop_lawful : loop.Lawful fun s => s.reader.clean where
  kept := by
    intro now s a s' hnow hstep hfits d hd
    cases a with
    | call i callback timeoutMs =>
      simp only [loop, Step.at, State.step] at hstep
      split at hstep <;> cases hstep
      exact .inr ⟨hd, rfl⟩
    | caller i nowMs sent =>
      exact (deadlines_callerStep nowMs hstep hfits hd).imp_right fun hold => ⟨hold, rfl⟩
    | reader nowMs arrival =>
      exact (deadlines_readerStep hnow hstep hd).imp_right fun hold =>
        ⟨hold.1, decide_eq_false hold.2⟩
    | stop => exact .inr ⟨deadlines_stopStep hstep hd, rfl⟩
  settles := by
    intro now s a s' hstep hclean
    cases a with
    | call i callback timeoutMs =>
      simp only [loop, Step.at, State.step] at hstep
      split at hstep <;> cases hstep
      exact .inl hclean
    | caller i nowMs sent => exact .inl (by rw [← reader_callerStep hstep]; exact hclean)
    | reader nowMs arrival =>
      obtain hbefore | hsweeps | hreturns := settles_readerStep hstep hclean
      · exact .inl hbefore
      · exact .inr (.inl (decide_eq_true hsweeps))
      · exact .inr (.inr hreturns)
    | stop => exact .inl (by rw [← reader_stopStep hstep]; exact hclean)
  waits := by
    intro s hclean
    refine ⟨decide_eq_false fun hphase => ?_, decide_eq_false fun hphase => ?_⟩
    · rw [hphase] at hclean
      cases hclean
    · rw [hphase] at hclean
      cases hclean
  begins := by
    intro s hbegins
    rw [of_decide_eq_true hbegins]
    rfl

end ControlChannel

end MacMu
