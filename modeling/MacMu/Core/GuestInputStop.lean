import MacMu.Core.GuestInputFraming

/-!
What is left of a `GuestInputSender` after `stop`. The client is closed once, before the
accept thread is joined; a connection whose handshake passes in between is published all
the same. The results are about runs in which this does not happen.
-/

namespace MacMu
namespace GuestInputSender

open TransitionSystem

/-- A connection is about to be published although `stop` has closed the client. -/
def State.late (s : State) : Bool :=
  match s.accept, s.control with
  | .publishing _, .joining _ => true
  | _, _ => false

def Timely (s : State) (a : Action) : Prop := a = .accept .next → s.late = false

instance (s : State) (a : Action) : Decidable (Timely s a) := by
  unfold Timely
  infer_instance

/-- Whether `stop` has closed the client and no accept thread has been started since. -/
def Control.cleared : Control → Bool
  | joining _ | stopped | listening | clearing | storing | spawning => true
  | _ => false

structure Silent (s : State) : Prop where
  client : s.writeFd = none
  holder : ∀ h, s.mutex = some h → ∃ connection, h.stage = .leave connection false

def Cleared (s : State) : Prop := s.control.cleared = true → Silent s

section Steps

variable {s s' : State}

/-- Without a connection a call leaves with false, unless it needs none. -/
theorem Silent.caller (h : Silent s) {a : Action} (ha : a.ofCaller = true)
    (hstep : s.step a = some s') : Silent s' ∧ ∃ new, s'.returned = s.returned ++ new ∧
      ∀ r ∈ new, r.result = true → ∃ displayId x y, r.call = .scroll displayId x y 0 0 := by
  cases a with
  | start | stop | control | listen passed | accept event => cases ha
  | call call =>
    simp only [State.step, State.callStep] at hstep
    split at hstep
    · rename_i result hcall
      cases hstep
      refine ⟨⟨h.client, h.holder⟩, _, rfl, fun r hr hresult => ?_⟩
      obtain rfl := List.mem_singleton.mp hr
      obtain rfl : result = true := hresult
      exact outgoing_done_true hcall
    · split at hstep <;> cases hstep
      refine ⟨⟨h.client, ?_⟩, [], (List.append_nil _).symm, by rintro _ ⟨⟩⟩
      rintro _ ⟨rfl⟩
      rw [h.client]
      exact ⟨none, rfl⟩
  | send outcome | poll outcome | drop =>
    simp only [State.step, State.sendStep, State.pollStep, State.dropStep] at hstep
    split at hstep
    · cases hstep
    · rename_i holder hmutex
      obtain ⟨connection, hstage⟩ := h.holder holder hmutex
      rw [hstage] at hstep
      cases hstep
  | leave =>
    simp only [State.step, State.leaveStep] at hstep
    split at hstep
    · cases hstep
    · rename_i holder hmutex
      obtain ⟨connection, hstage⟩ := h.holder holder hmutex
      rw [hstage] at hstep
      cases hstep
      refine ⟨⟨h.client, by rintro _ ⟨⟩⟩, _, rfl, fun r hr hresult => ?_⟩
      obtain rfl := List.mem_singleton.mp hr
      cases hresult

theorem acceptStep_frame {event : Event} (hstep : s.acceptStep event = some s') :
    (∃ fd, s.accept = .publishing fd ∧ event = .next) ∨
      s'.writeFd = s.writeFd ∧ s'.mutex = s.mutex := by
  unfold State.acceptStep at hstep
  split at hstep
  case h_7 =>
    split at hstep <;> cases hstep
    exact .inr ⟨rfl, rfl⟩
  case h_12 fd haccept => exact .inl ⟨fd, haccept, rfl⟩
  case h_13 => cases hstep
  all_goals
    cases hstep
    exact .inr ⟨rfl, rfl⟩

theorem controlStep_frame (hstep : s.controlStep = some s') :
    Silent s' ∨ s'.writeFd = s.writeFd ∧ s'.mutex = s.mutex ∧
      (s'.control.cleared = true → s.control.cleared = true) := by
  unfold State.controlStep at hstep
  split at hstep
  case h_3 =>
    split at hstep <;> cases hstep
    rename_i hfree
    refine .inl ⟨closeClient_writeFd s, fun holder hmutex => ?_⟩
    cases (Option.not_isSome_iff_eq_none.mp hfree).symm.trans ((closeClient_mutex s).symm.trans hmutex)
  case h_4 hcontrol =>
    split at hstep <;> cases hstep
    exact .inr ⟨rfl, rfl, fun _ => by rw [hcontrol]; rfl⟩
  case h_5 hcontrol | h_6 hcontrol =>
    cases hstep
    exact .inr ⟨rfl, rfl, fun _ => by rw [hcontrol]; rfl⟩
  case h_8 | h_9 | h_10 => cases hstep
  all_goals
    cases hstep
    exact .inr ⟨rfl, rfl, nofun⟩

theorem Cleared.step (h : Cleared s) (hjoined : Joined s) {a : Action} (htimely : Timely s a)
    (hstep : s.step a = some s') : Cleared s' := by
  intro hcleared
  cases a with
  | start | stop =>
    simp only [State.step, State.enter] at hstep
    split at hstep
    all_goals
      cases hstep
      try cases hcleared
  | control =>
    obtain hsilent | ⟨hclient, hmutex, hbefore⟩ := controlStep_frame hstep
    · exact hsilent
    · have hsilent := h (hbefore hcleared)
      exact ⟨hclient ▸ hsilent.client, hmutex ▸ hsilent.holder⟩
  | listen passed =>
    simp only [State.step] at hstep
    split at hstep <;> cases hstep
    rename_i hcontrol
    have hsilent := h (by rw [hcontrol]; rfl)
    exact ⟨hsilent.client, hsilent.holder⟩
  | accept event =>
    obtain ⟨hrunning, hcontrol⟩ := acceptStep_running hstep
    rw [hcontrol] at hcleared
    obtain ⟨fd, haccept, rfl⟩ | ⟨hclient, hmutex⟩ := acceptStep_frame hstep
    · have hlate := htimely rfl
      cases hphase : s.control with
      | joining starting =>
        rw [State.late, haccept, hphase] at hlate
        cases hlate
      | stopped | listening | clearing | storing | spawning =>
        exact absurd (hjoined (by rw [hphase]; rfl)) hrunning
      | flagging | closingListener | closingClient | started =>
        rw [hphase] at hcleared
        cases hcleared
    · have hsilent := h hcleared
      exact ⟨hclient ▸ hsilent.client, hmutex ▸ hsilent.holder⟩
  | call call | send outcome | poll outcome | drop | leave =>
    rw [(caller_frame rfl hstep).1] at hcleared
    exact ((h hcleared).caller rfl hstep).1

/-- `stop` has returned, or has been called again. -/
def Control.resting : Control → Bool
  | stopped | flagging false | closingListener false | closingClient false | joining false => true
  | _ => false

theorem controlStep_resting (h : s.control.resting = true) (hstep : s.controlStep = some s') :
    s'.control.resting = true ∧ s'.accept = s.accept ∧ s'.returned = s.returned := by
  unfold State.controlStep at hstep
  cases hcontrol : s.control with
  | flagging starting | closingListener starting =>
    rw [hcontrol] at h hstep
    cases starting <;> cases h
    cases hstep
    exact ⟨rfl, rfl, rfl⟩
  | closingClient starting =>
    rw [hcontrol] at h hstep
    cases starting <;> cases h
    dsimp only at hstep
    split at hstep <;> cases hstep
    exact ⟨rfl, closeClient_accept s, closeClient_returned s⟩
  | joining starting =>
    rw [hcontrol] at h hstep
    cases starting <;> cases h
    dsimp only at hstep
    split at hstep <;> cases hstep
    exact ⟨rfl, rfl, rfl⟩
  | stopped =>
    rw [hcontrol] at hstep
    cases hstep
  | listening | clearing | storing | spawning | started =>
    rw [hcontrol] at h
    cases h

/-- The sender rests, and the calls since then have not been able to send. -/
structure Resting (old : List Return) (s : State) : Prop where
  silent : Silent s
  accept : s.accept = .finished
  control : s.control.resting = true
  returned : ∃ new, s.returned = old ++ new ∧
    ∀ r ∈ new, r.result = true → ∃ displayId x y, r.call = .scroll displayId x y 0 0

theorem Resting.step {old : List Return} (h : Resting old s) {a : Action} (ha : a ≠ .start)
    (hstep : s.step a = some s') : Resting old s' := by
  cases a with
  | start => exact absurd rfl ha
  | stop =>
    simp only [State.step, State.enter] at hstep
    split at hstep <;> cases hstep <;>
      exact ⟨⟨h.silent.client, h.silent.holder⟩, h.accept, rfl, h.returned⟩
  | control =>
    have hsilent : Silent s' := by
      obtain hsilent | ⟨hclient, hmutex, -⟩ := controlStep_frame hstep
      · exact hsilent
      · exact ⟨hclient ▸ h.silent.client, hmutex ▸ h.silent.holder⟩
    obtain ⟨hcontrol, haccept, hreturned⟩ := controlStep_resting h.control hstep
    exact ⟨hsilent, haccept.trans h.accept, hcontrol, hreturned ▸ h.returned⟩
  | listen passed =>
    simp only [State.step] at hstep
    split at hstep
    · rename_i hcontrol
      have hresting := h.control
      rw [hcontrol] at hresting
      cases hresting
    · cases hstep
  | accept event => exact absurd h.accept (acceptStep_running hstep).1
  | call call | send outcome | poll outcome | drop | leave =>
    obtain ⟨hcontrol, haccept⟩ := caller_frame rfl hstep
    obtain ⟨hsilent, later, hlater, htrue⟩ := h.silent.caller rfl hstep
    obtain ⟨new, hnew, hold⟩ := h.returned
    refine ⟨hsilent, haccept.trans h.accept, by rw [hcontrol, h.control], new ++ later, ?_, ?_⟩
    · rw [hlater, hnew, List.append_assoc]
    · intro r hr
      exact (List.mem_append.mp hr).elim (hold r) (htrue r)

end Steps

/-- When `stop` has returned, every connection is closed, and until the next `start` no call
sends. -/
theorem guest_input_stopped {as : List Action} {s : State}
    (hmeets : Meets State.step Timely State.initial as)
    (hrun : exec State.step State.initial as = some s) (hstopped : s.control = .stopped) :
    s.ready = false ∧ (∀ c ∈ s.sockets, c.isOpen = false) ∧
      ∀ bs t, exec State.step s bs = some t → .start ∉ bs → t.ready = false ∧
        ∃ new, t.returned = s.returned ++ new ∧
          ∀ r ∈ new, r.result = true → ∃ displayId x y, r.call = .scroll displayId x y 0 0 := by
  obtain ⟨hinv, hjoined, hcleared⟩ := exec_guarded_invariant
    (I := fun s => Inv s ∧ Joined s ∧ Cleared s)
    (fun _ _ _ hs htimely hstep => ⟨hs.1.step hs.2.1 hstep, hs.2.1.step hstep,
      hs.2.2.step hs.2.1 htimely hstep⟩)
    as ⟨inv_initial, fun _ => rfl, fun _ => ⟨rfl, nofun⟩⟩ hmeets hrun
  have hfinished : s.accept = .finished := hjoined (by rw [hstopped]; rfl)
  have hsilent : Silent s := hcleared (by rw [hstopped]; rfl)
  refine ⟨by rw [State.ready, hsilent.client]; rfl, fun c hc => ?_, fun bs t ht hstart => ?_⟩
  · obtain ⟨fd, hfd⟩ := List.mem_iff_getElem?.mp hc
    rw [← Bool.not_eq_true]
    intro hopen
    obtain hclient | haccept := hinv.owned fd c hfd hopen
    · cases hsilent.client.symm.trans hclient
    · rw [hfinished] at haccept
      cases haccept
  · have hrest : Resting s.returned s :=
      ⟨hsilent, hfinished, by rw [hstopped]; rfl, [], (List.append_nil _).symm, by rintro _ ⟨⟩⟩
    have hnone : Meets State.step (fun _ a => a ≠ .start) s bs := by
      refine meets_of_forall ?_ s
      rintro _ ha - rfl
      exact hstart ha
    have hrest' : Resting s.returned t := exec_guarded_invariant
      (fun _ _ _ hs ha hstep => Resting.step hs ha hstep) bs hrest hnone ht
    exact ⟨by rw [State.ready, hrest'.silent.client]; rfl, hrest'.returned⟩

namespace Sample

/-- `stop`, while the accept thread is at the top of its loop. -/
def stopIdle : List Action :=
  [.stop, .control, .control, .control, .accept .next, .control]

end Sample

theorem guest_input_stopped_idle : ∃ s,
    exec State.step State.initial (Sample.connect ++ Sample.stopIdle) = some s ∧
      s.sockets.length = 1 ∧ s.ready = false ∧ ∀ c ∈ s.sockets, c.isOpen = false := by
  have hmeets : Meets State.step Timely State.initial (Sample.connect ++ Sample.stopIdle) := by
    decide +kernel
  obtain ⟨s, hrun, hstopped, hlength⟩ := exists_of_map_decide
    (o := exec State.step State.initial (Sample.connect ++ Sample.stopIdle))
    (p := fun s => s.control = .stopped ∧ s.sockets.length = 1) (by decide +kernel)
  have hall := guest_input_stopped hmeets hrun hstopped
  exact ⟨s, hrun, hlength, hall.1, hall.2.1⟩

/-- A scroll by nothing returns true after `stop`. And a connection whose handshake passes
after `stop` has closed the client stays open, and takes a line. -/
theorem true_after_stop :
    (∃ s, exec State.step State.initial (Sample.connect ++ Sample.stopIdle) = some s ∧
      s.control = .stopped ∧ ∃ t, exec State.step s [.call (.scroll 0 5 6 0 0)] = some t ∧
        t.returned = s.returned ++ [⟨.scroll 0 5 6 0 0, none, true⟩]) ∧
    ∃ s, exec State.step State.initial (Sample.connect.take 14 ++
        [.stop, .control, .control, .control, .accept .passed, .accept .next, .accept .next,
          .control]) = some s ∧
      s.control = .stopped ∧ s.ready = true ∧ s.sockets.map Socket.isOpen = [true] ∧
      ∃ t, exec State.step s [.call .hoverExit, .send (.wrote 2), .leave] = some t ∧
        t.returned = s.returned ++ [⟨.hoverExit, some 0, true⟩] := by
  constructor
  · obtain ⟨s, hrun, hstopped, hcall⟩ := exists_of_map_decide
      (o := exec State.step State.initial (Sample.connect ++ Sample.stopIdle))
      (p := fun s => s.control = .stopped ∧
        (exec State.step s [.call (.scroll 0 5 6 0 0)]).map State.returned =
          some (s.returned ++ [⟨.scroll 0 5 6 0 0, none, true⟩])) (by decide +kernel)
    exact ⟨s, hrun, hstopped, Option.map_eq_some_iff.mp hcall⟩
  · obtain ⟨s, hrun, hstopped, hready, hopen, hcall⟩ := exists_of_map_decide
      (o := exec State.step State.initial (Sample.connect.take 14 ++
        [.stop, .control, .control, .control, .accept .passed, .accept .next, .accept .next,
          .control]))
      (p := fun s => s.control = .stopped ∧ s.ready = true ∧
        s.sockets.map Socket.isOpen = [true] ∧
        (exec State.step s [.call .hoverExit, .send (.wrote 2), .leave]).map State.returned =
          some (s.returned ++ [⟨.hoverExit, some 0, true⟩])) (by decide +kernel)
    exact ⟨s, hrun, hstopped, hready, hopen, Option.map_eq_some_iff.mp hcall⟩

/-- No connection is forgotten: each one that is open is the client, or the accept thread
has it. -/
theorem open_socket_owned {s : State} (h : Reachable State.step State.initial s) {fd : Nat}
    {c : Socket} (hc : s.sockets[fd]? = some c) (hopen : c.isOpen = true) :
    s.writeFd = some fd ∨ s.accept.connection = some fd :=
  (sound_reachable inv_initial (fun _ => rfl) h).1.owned fd c hc hopen

theorem open_socket_owned_connected : ∃ s, exec State.step State.initial Sample.connect = some s ∧
    s.sockets.map Socket.isOpen = [true] ∧
    (s.writeFd = some 0 ∨ s.accept.connection = some 0) := by
  obtain ⟨s, hrun, hopen⟩ : ∃ s, exec State.step State.initial Sample.connect = some s ∧
      s.sockets.map Socket.isOpen = [true] := exists_of_map_decide (by decide +kernel)
  obtain ⟨c, hsockets, htrue⟩ := List.map_eq_singleton_iff.mp hopen
  exact ⟨s, hrun, hopen, open_socket_owned ⟨_, hrun⟩ (by rw [hsockets]; rfl) htrue⟩

end GuestInputSender
end MacMu
