import MacMu.Core.GuestInputConnections

/-!
The steps of the accept thread, of `start` and `stop` and of the callers keep what is known
about the connections. The accept thread of an earlier `start` is joined before the next
one is spawned.
-/

namespace MacMu
namespace GuestInputSender

/-- The steps of the calls of `send_*`. -/
def Action.ofCaller : Action → Bool
  | call _ | send _ | poll _ | drop | leave => true
  | _ => false

/-- Whether `stop` has joined the accept thread and no other is started. -/
def Control.joined : Control → Bool
  | stopped | listening | clearing | storing | spawning => true
  | _ => false

def Joined (s : State) : Prop := s.control.joined = true → s.accept = .finished

section Steps

variable {s s' : State}

section

variable (h : Inv s)
include h

theorem Inv.acceptStep {event : Event} (hstep : s.acceptStep event = some s') : Inv s' := by
  unfold State.acceptStep at hstep
  split at hstep
  · rename_i haccept
    cases hstep
    refine h.advance haccept _ ?_ fun bytes _ => ?_
    · split <;> rfl
    · split <;> trivial
  · rename_i haccept
    cases hstep
    refine h.advance haccept _ ?_ fun bytes _ => ?_
    · split <;> rfl
    · split <;> trivial
  · rename_i haccept
    cases hstep
    exact h.accept_connection (by rw [haccept]; rfl)
  · rename_i haccept
    cases hstep
    exact h.advance haccept _ rfl fun _ _ => trivial
  · rename_i haccept
    cases hstep
    exact h.advance haccept _ rfl fun _ hbytes => hbytes
  · rename_i haccept
    cases hstep
    refine h.advance haccept _ rfl fun bytes hbytes => ?_
    obtain rfl : bytes = [] := hbytes
    exact List.nil_prefix
  · rename_i fd count haccept
    split at hstep <;> cases hstep
    have hconnection : s.accept.connection = some fd := by rw [haccept]; rfl
    obtain ⟨-, -, c, hc, -, hbytes⟩ := h.accepted fd hconnection
    rw [haccept] at hbytes
    have hnil : c.bytes = [] := hbytes
    refine h.greet hconnection hc _ _ ?_ ?_
    · split <;> rfl
    · rw [hnil, List.nil_append]
      split
      · rename_i hcount
        rw [hcount]
        exact List.take_length
      · exact List.take_prefix _ _
  · rename_i haccept
    cases hstep
    refine h.advance haccept _ rfl fun bytes hbytes => ?_
    obtain rfl : bytes = [] := hbytes
    exact List.nil_prefix
  · rename_i haccept
    cases hstep
    exact h.advance haccept _ rfl fun _ hbytes => hbytes
  · rename_i haccept
    cases hstep
    refine h.advance haccept _ rfl fun bytes hbytes => ?_
    obtain rfl : bytes = ping := hbytes
    exact List.prefix_rfl
  · rename_i fd haccept
    cases hstep
    exact h.refuse haccept
  · rename_i fd haccept
    split at hstep <;> cases hstep
    rename_i hfree
    have hmutex := Option.not_isSome_iff_eq_none.mp hfree
    refine (h.clear hmutex).publish ?_ (closeClient_writeFd s) ?_
    · rw [closeClient_mutex, hmutex]
    · rw [closeClient_accept, haccept]
  · cases hstep

theorem Inv.frame (hwriteFd : s'.writeFd = s.writeFd := by rfl)
    (hsockets : s'.sockets = s.sockets := by rfl) (hmutex : s'.mutex = s.mutex := by rfl)
    (haccept : s'.accept = s.accept := by rfl) (hreturned : s'.returned = s.returned := by rfl) :
    Inv s' := by
  obtain ⟨_, _, _, _, _, _, _, _⟩ := s'
  subst hwriteFd hsockets hmutex haccept hreturned
  refine ⟨h.client, h.accepted, h.closed, h.owned, fun holder hmutex => ?_, h.known, h.answered⟩
  have hholder := h.holder holder hmutex
  exact ⟨hholder.outgoing, hholder.live, hholder.known⟩

theorem Inv.controlStep (hjoined : Joined s) (hstep : s.controlStep = some s') : Inv s' := by
  unfold State.controlStep at hstep
  split at hstep
  case h_3 =>
    split at hstep <;> cases hstep
    rename_i hfree
    exact (h.clear (Option.not_isSome_iff_eq_none.mp hfree)).frame
  case h_4 =>
    split at hstep <;> cases hstep
    exact h.frame
  case h_7 hcontrol =>
    have hfinished := hjoined (by rw [hcontrol]; rfl)
    cases hstep
    have hlooping := h.advance hfinished .looping rfl fun _ _ => trivial
    exact hlooping.frame
  all_goals
    cases hstep
    try exact h.frame

theorem Inv.callStep {call : Call} (hstep : s.callStep call = some s') : Inv s' := by
  unfold State.callStep at hstep
  split at hstep
  · rename_i result hcall
    cases hstep
    exact h.done hcall
  · rename_i bytes reliable hcall
    split at hstep
    · cases hstep
    · rename_i hfree
      have hmutex := Option.not_isSome_iff_eq_none.mp hfree
      cases hstep
      apply h.proceed
      · intro part hpart
        rw [hmutex] at hpart
        cases hclient : s.writeFd <;> exact hpart
      · cases hclient : s.writeFd with
        | none => exact ⟨hcall, nofun, nofun⟩
        | some fd =>
          refine ⟨hcall, fun _ => ⟨fd, rfl, hclient⟩, ?_⟩
          rintro other ⟨rfl⟩
          obtain ⟨c, part, hc, -⟩ := h.client fd hclient
          exact ⟨(List.getElem?_eq_some_iff.mp hc).1, fun hfd => (h.accepted fd hfd).1 hclient⟩

theorem Inv.restage {holder : Holder} (hmutex : s.mutex = some holder) (stage : Stage)
    (hbegin : ∀ part, Added s.mutex part → part = [])
    (hadded : Added (some { holder with stage := stage }) [])
    (hconnection : stage.connection = holder.stage.connection)
    (hlive : stage.live = true → holder.stage.live = true) :
    Inv { s with mutex := some { holder with stage := stage } } := by
  have hholder := h.holder holder hmutex
  refine h.proceed _ (fun part hpart => ?_) ⟨hholder.outgoing, fun hlive' => ?_, fun fd hfd => ?_⟩
  · rw [hbegin part hpart]
    exact hadded
  · change ∃ fd, stage.connection = some fd ∧ _
    rw [hconnection]
    exact hholder.live (hlive hlive')
  · exact hholder.known fd (hconnection ▸ hfd)

theorem Inv.transmitStep {holder : Holder} (hmutex : s.mutex = some holder) {fd : Nat}
    (hconnection : holder.stage.connection = some fd) (hlive : holder.stage.live = true)
    (hbegin : ∀ part, Added s.mutex part → part = []) {outcome : Sent} {blocked : Stage}
    (hblocked : Added (some { holder with stage := blocked }) [])
    (hkept : blocked.connection = some fd)
    (hstep : s.transmit holder fd outcome blocked = some s') : Inv s' := by
  obtain ⟨fd', hfd', hclient⟩ := (h.holder holder hmutex).live hlive
  obtain rfl : fd = fd' := Option.some.inj (hconnection.symm.trans hfd')
  cases outcome with
  | wrote count =>
    simp only [State.transmit] at hstep
    split at hstep <;> cases hstep
    rename_i hcount
    refine h.transmit hmutex hclient hbegin _ _ ?_ ?_
    · split
      · rename_i hall
        rw [hall]
        exact List.take_length
      · rename_i hsome
        refine ⟨List.take_prefix _ _, fun hwhole => hsome ?_⟩
        have hlength : (holder.line.take count).length = holder.line.length :=
          congrArg List.length hwhole
        rw [List.length_take] at hlength
        omega
    · split <;> rfl
  | wouldBlock =>
    cases hstep
    exact h.restage hmutex _ hbegin hblocked (hkept.trans hconnection.symm) fun _ => hlive
  | failed =>
    cases hstep
    exact h.restage hmutex _ hbegin ⟨List.nil_prefix, (h.holder holder hmutex).line_ne_nil⟩
      hconnection.symm fun _ => hlive

theorem Inv.sendStep {outcome : Sent} (hstep : s.sendStep outcome = some s') : Inv s' := by
  unfold State.sendStep at hstep
  split at hstep
  · cases hstep
  · rename_i holder hmutex
    split at hstep
    · rename_i fd hstage
      refine h.transmitStep hmutex (by rw [hstage]; rfl) (by rw [hstage]; rfl) ?_ ?_ ?_ hstep
      · intro part hpart
        rwa [hmutex, Added, hstage] at hpart
      · split <;> rfl
      · split <;> rfl
    · rename_i fd hstage
      refine h.transmitStep hmutex (by rw [hstage]; rfl) (by rw [hstage]; rfl) ?_ ?_ rfl hstep
      · intro part hpart
        rwa [hmutex, Added, hstage] at hpart
      · exact ⟨List.nil_prefix, (h.holder holder hmutex).line_ne_nil⟩
    · cases hstep

theorem Inv.pollStep {outcome : Polled} (hstep : s.pollStep outcome = some s') : Inv s' := by
  unfold State.pollStep at hstep
  split at hstep
  · cases hstep
  · rename_i holder hmutex
    split at hstep <;> cases hstep
    rename_i fd hstage
    refine h.restage hmutex _ ?_ ?_ ?_ fun _ => by rw [hstage]; rfl
    · intro part hpart
      rwa [hmutex, Added, hstage] at hpart
    · cases outcome with
      | interrupted | writable => rfl
      | otherwise => exact ⟨List.nil_prefix, (h.holder holder hmutex).line_ne_nil⟩
    · rw [hstage]
      cases outcome <;> rfl

theorem Inv.dropStep (hstep : s.dropStep = some s') : Inv s' := by
  unfold State.dropStep at hstep
  split at hstep
  · cases hstep
  · rename_i holder hmutex
    split at hstep <;> cases hstep
    rename_i fd hstage
    have hholder := h.holder holder hmutex
    apply h.closeClient
    · intro part hpart
      rw [hmutex, Added, hstage] at hpart
      exact ⟨_, _, _, hholder.outgoing, hpart⟩
    · rintro _ ⟨rfl⟩
      refine ⟨rfl, hholder.outgoing, by rintro ⟨⟩, fun other hother => hholder.known other ?_⟩
      rw [hstage]
      exact hother

theorem Inv.leaveStep (hstep : s.leaveStep = some s') : Inv s' := by
  unfold State.leaveStep at hstep
  split at hstep
  · cases hstep
  · rename_i holder hmutex
    split at hstep <;> cases hstep
    rename_i connection result hstage
    exact h.leave hmutex hstage

theorem Inv.step (hjoined : Joined s) {a : Action} (hstep : s.step a = some s') : Inv s' := by
  cases a with
  | start | stop =>
    simp only [State.step, State.enter] at hstep
    split at hstep
    all_goals
      cases hstep
      try exact h.frame
  | control => exact h.controlStep hjoined hstep
  | listen passed =>
    simp only [State.step] at hstep
    split at hstep <;> cases hstep
    exact h.frame
  | accept event => exact h.acceptStep hstep
  | call call => exact h.callStep hstep
  | send outcome => exact h.sendStep hstep
  | poll outcome => exact h.pollStep hstep
  | drop => exact h.dropStep hstep
  | leave => exact h.leaveStep hstep

end

theorem acceptStep_running {event : Event} (hstep : s.acceptStep event = some s') :
    s.accept ≠ .finished ∧ s'.control = s.control := by
  unfold State.acceptStep at hstep
  repeat' split at hstep
  all_goals cases hstep
  all_goals
    rename_i haccept
    refine ⟨?_, ?_⟩
    · simp [*]
    · first | rfl | exact closeClient_control s

theorem caller_frame {a : Action} (ha : a.ofCaller = true) (hstep : s.step a = some s') :
    s'.control = s.control ∧ s'.accept = s.accept := by
  cases a with
  | start | stop | control | listen passed | accept event => cases ha
  | call call | send outcome | poll outcome | leave =>
    simp only [State.step, State.callStep, State.sendStep, State.transmit, State.pollStep,
      State.leaveStep] at hstep
    repeat' split at hstep
    all_goals cases hstep <;> exact ⟨rfl, rfl⟩
  | drop =>
    simp only [State.step, State.dropStep] at hstep
    repeat' split at hstep
    all_goals cases hstep <;> exact ⟨closeClient_control s, closeClient_accept s⟩

theorem Joined.step (h : Joined s) {a : Action} (hstep : s.step a = some s') : Joined s' := by
  cases a with
  | start | stop =>
    simp only [State.step, State.enter] at hstep
    split at hstep
    all_goals cases hstep <;> exact nofun
  | control =>
    simp only [State.step, State.controlStep] at hstep
    split at hstep
    case h_3 =>
      split at hstep <;> cases hstep
      exact nofun
    case h_4 =>
      split at hstep <;> cases hstep
      rename_i hfinished
      exact fun _ => hfinished
    case h_5 hcontrol | h_6 hcontrol =>
      cases hstep
      exact fun _ => h (by rw [hcontrol]; rfl)
    all_goals cases hstep <;> exact nofun
  | listen passed =>
    simp only [State.step] at hstep
    split at hstep <;> cases hstep
    rename_i hcontrol
    exact fun _ => h (by rw [hcontrol]; rfl)
  | accept event =>
    obtain ⟨hrunning, hcontrol⟩ := acceptStep_running hstep
    intro hjoined
    exact absurd (h (hcontrol ▸ hjoined)) hrunning
  | call call | send outcome | poll outcome | drop | leave =>
    obtain ⟨hcontrol, haccept⟩ := caller_frame rfl hstep
    rw [Joined, hcontrol, haccept]
    exact h

end Steps

end GuestInputSender
end MacMu
