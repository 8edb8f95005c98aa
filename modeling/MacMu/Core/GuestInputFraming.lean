import MacMu.Core.GuestInputSteps

/-!
What is written on a guest input connection. A caller writes on the published connection
while it has the mutex, so the lines of different calls do not mix; a call that leaves a
line incomplete closes the connection before it lets go of the mutex.
-/

namespace MacMu
namespace GuestInputSender

open GuestControlClient (ascii)
open TransitionSystem

def Ended (s : State) (fd : Nat) (c : Socket) : Prop :=
  c.isOpen = false ∨ (∃ h, s.mutex = some h ∧ h.stage = .drop fd) ∨ s.accept = .refusing fd

inductive Framed (s : State) (fd : Nat) (c : Socket) : Prop where
  | greeting (hbytes : c.bytes <+: ping) (hlines : linesOn s.returned fd = [])
      (hend : c.bytes = [] ∨ c.bytes = ping ∨ Ended s fd c)
  | lines (hbytes : c.bytes = ping ++ (linesOn s.returned fd).flatten)
  | returning (h : Holder) (hmutex : s.mutex = some h) (hstage : h.stage = .leave (some fd) true)
      (hbytes : c.bytes = ping ++ (linesOn s.returned fd).flatten ++ h.line)
  | incomplete (part : Bytes) (hpart : Incomplete part)
      (hbytes : c.bytes = ping ++ (linesOn s.returned fd).flatten ++ part) (hend : Ended s fd c)

section Ends

variable {s s' : State}
variable {fd : Nat} {bytes : Bytes}

theorem Inv.framed (h : Inv s) {c : Socket} (hc : s.sockets[fd]? = some c) : Framed s fd c := by
  by_cases hopen : c.isOpen = true
  · obtain hclient | haccept := h.owned fd c hc hopen
    · obtain ⟨c', part, hc', -, hbytes, hpart⟩ := h.client fd hclient
      obtain rfl := Option.some.inj (hc.symm.trans hc')
      cases hmutex : s.mutex with
      | none =>
        rw [hmutex] at hpart
        obtain rfl : part = [] := hpart
        exact .lines (hbytes.trans (List.append_nil _))
      | some holder =>
        rw [hmutex] at hpart
        have hholder := h.holder holder hmutex
        cases hstage : holder.stage with
        | drop fd' =>
          simp only [Added, hstage] at hpart
          obtain ⟨fd'', hconnection, hclient'⟩ := hholder.live (by rw [hstage]; rfl)
          rw [hstage] at hconnection
          obtain rfl : fd' = fd'' := Option.some.inj hconnection
          obtain rfl : fd = fd' := Option.some.inj (hclient.symm.trans hclient')
          exact .incomplete part ⟨_, _, _, hholder.outgoing, hpart⟩ hbytes
            (.inr (.inl ⟨holder, hmutex, hstage⟩))
        | leave connection result =>
          cases result with
          | false =>
            obtain rfl : part = [] := by
              cases connection <;> simpa only [Added, hstage] using hpart
            exact .lines (hbytes.trans (List.append_nil _))
          | true =>
            obtain ⟨fd', hconnection, hclient'⟩ := hholder.live (by rw [hstage]; rfl)
            obtain rfl : fd = fd' := Option.some.inj (hclient.symm.trans hclient')
            rw [hstage] at hconnection
            obtain rfl : connection = some fd := hconnection
            simp only [Added, hstage] at hpart
            exact .returning holder hmutex hstage (hpart ▸ hbytes)
        | send fd' | poll fd' | resend fd' =>
          obtain rfl : part = [] := by simpa only [Added, hstage] using hpart
          exact .lines (hbytes.trans (List.append_nil _))
    · obtain ⟨-, hreturned, c', hc', -, hgreeted⟩ := h.accepted fd haccept
      obtain rfl := Option.some.inj (hc.symm.trans hc')
      have hlines := linesOn_eq_nil _ _ hreturned
      cases hphase : s.accept with
      | preparing fd' | pinging fd' =>
        rw [hphase] at hgreeted
        have hnil : c.bytes = [] := hgreeted
        exact .greeting (hnil ▸ List.nil_prefix) hlines (.inl hnil)
      | awaiting fd' | publishing fd' =>
        rw [hphase] at hgreeted
        have hping : c.bytes = ping := hgreeted
        exact .greeting (hping ▸ List.prefix_rfl) hlines (.inr (.inl hping))
      | refusing fd' =>
        rw [hphase] at hgreeted haccept
        obtain rfl : fd' = fd := Option.some.inj haccept
        exact .greeting hgreeted hlines (.inr (.inr (.inr (.inr hphase))))
      | looping | loading | accepting | finished =>
        rw [hphase] at haccept
        cases haccept
  · have hclosed : c.isOpen = false := Bool.not_eq_true _ ▸ hopen
    obtain ⟨hbytes, hlines⟩ | ⟨part, hpart, hbytes⟩ := h.closed fd c hc hclosed
    · exact .greeting hbytes hlines (.inr (.inr (.inl hclosed)))
    · exact .incomplete part hpart hbytes (.inl hclosed)

def Frozen (fd : Nat) (bytes : Bytes) (s : State) : Prop :=
  ∃ c, s.sockets[fd]? = some c ∧ c.bytes = bytes ∧ Ended s fd c

theorem Frozen.frame (h : Frozen fd bytes s) (hsockets : s'.sockets[fd]? = s.sockets[fd]?)
    (hdrop : ∀ holder, s.mutex = some holder → holder.stage = .drop fd → s'.mutex = s.mutex :=
      by exact fun _ _ _ => rfl)
    (hrefuse : s.accept = .refusing fd → s'.accept = s.accept := by exact fun _ => rfl) :
    Frozen fd bytes s' := by
  obtain ⟨c, hc, hbytes, hend⟩ := h
  refine ⟨c, hsockets.trans hc, hbytes, ?_⟩
  obtain hclosed | ⟨holder, hmutex, hstage⟩ | haccept := hend
  · exact .inl hclosed
  · exact .inr (.inl ⟨holder, (hdrop holder hmutex hstage).trans hmutex, hstage⟩)
  · exact .inr (.inr ((hrefuse haccept).trans haccept))

theorem Inv.not_frozen_client (h : Inv s) (hfrozen : Frozen fd bytes s)
    (hclient : s.writeFd = some fd) :
    ∃ holder, s.mutex = some holder ∧ holder.stage = .drop fd := by
  obtain ⟨c, hc, -, hclosed | hdrop | haccept⟩ := hfrozen
  · obtain ⟨c', part, hc', hopen, -⟩ := h.client fd hclient
    obtain rfl := Option.some.inj (hc.symm.trans hc')
    cases hclosed.symm.trans hopen
  · exact hdrop
  · exact absurd hclient (h.accepted fd (by rw [haccept]; rfl)).1

theorem Inv.not_frozen_accepted (h : Inv s) (hfrozen : Frozen fd bytes s)
    (hconnection : s.accept.connection = some fd) : s.accept = .refusing fd := by
  obtain ⟨hne, -, c', hc', hopen, -⟩ := h.accepted fd hconnection
  obtain ⟨c, hc, -, hclosed | ⟨holder, hmutex, hstage⟩ | haccept⟩ := hfrozen
  · obtain rfl := Option.some.inj (hc.symm.trans hc')
    cases hclosed.symm.trans hopen
  · exact absurd hconnection ((h.holder holder hmutex).known fd (by rw [hstage]; rfl)).2
  · exact haccept

section

variable (h : Frozen fd bytes s)
include h

theorem Frozen.closeClient (hsockets : s'.sockets = s.closeClient.sockets)
    (hdrop : ∀ holder, s.mutex = some holder → holder.stage = .drop fd → s.writeFd = some fd)
    (hrefuse : s.accept = .refusing fd → s'.accept = s.accept) : Frozen fd bytes s' := by
  obtain ⟨c, hc, hbytes, hend⟩ := h
  obtain ⟨c', hc', hsame, hclosed'⟩ := sockets_closeClient hc
  refine ⟨c', hsockets ▸ hc', hsame.trans hbytes, ?_⟩
  obtain hclosed | ⟨holder, hmutex, hstage⟩ | haccept := hend
  · exact .inl (hclosed' (.inl hclosed))
  · exact .inl (hclosed' (.inr (hdrop holder hmutex hstage)))
  · exact .inr (.inr ((hrefuse haccept).trans haccept))

theorem Frozen.acceptStep (hinv : Inv s) {event : Event} (hstep : s.acceptStep event = some s') :
    Frozen fd bytes s' := by
  unfold State.acceptStep at hstep
  split at hstep
  case h_3 haccept =>
    cases hstep
    refine h.frame ?_ (fun _ _ _ => rfl) fun hrefuse => nomatch haccept.symm.trans hrefuse
    obtain ⟨c, hc, -⟩ := h
    exact List.getElem?_append_left (List.getElem?_eq_some_iff.mp hc).1
  case h_7 fd' count haccept =>
    split at hstep <;> cases hstep
    refine h.frame ?_ (fun _ _ _ => rfl) fun hrefuse => nomatch haccept.symm.trans hrefuse
    apply sockets_write_of_ne
    rintro rfl
    cases haccept.symm.trans (hinv.not_frozen_accepted h (by rw [haccept]; rfl))
  case h_11 fd' haccept =>
    cases hstep
    by_cases heq : fd = fd'
    · subst heq
      obtain ⟨c, hc, hbytes, -⟩ := h
      exact ⟨_, sockets_close_self hc, hbytes, .inl rfl⟩
    · refine h.frame (sockets_close_of_ne heq) (fun _ _ _ => rfl) fun hrefuse => absurd ?_ heq
      cases haccept.symm.trans hrefuse
      rfl
  case h_12 fd' haccept =>
    split at hstep <;> cases hstep
    rename_i hfree
    refine h.closeClient rfl ?_ fun hrefuse => nomatch haccept.symm.trans hrefuse
    intro holder hmutex
    cases (Option.not_isSome_iff_eq_none.mp hfree).symm.trans hmutex
  case h_13 => cases hstep
  all_goals
    rename_i haccept
    cases hstep
    exact h.frame rfl (fun _ _ _ => rfl) fun hrefuse => nomatch haccept.symm.trans hrefuse

theorem Frozen.controlStep (hjoined : Joined s) (hstep : s.controlStep = some s') :
    Frozen fd bytes s' := by
  unfold State.controlStep at hstep
  split at hstep
  case h_3 =>
    split at hstep <;> cases hstep
    rename_i hfree
    refine h.closeClient rfl ?_ fun _ => closeClient_accept s
    intro holder hmutex
    cases (Option.not_isSome_iff_eq_none.mp hfree).symm.trans hmutex
  case h_4 =>
    split at hstep <;> cases hstep
    exact h.frame rfl
  case h_7 hcontrol =>
    have hfinished := hjoined (by rw [hcontrol]; rfl)
    cases hstep
    exact h.frame rfl (fun _ _ _ => rfl) fun hrefuse => nomatch hfinished.symm.trans hrefuse
  all_goals
    cases hstep
    try exact h.frame rfl

theorem Frozen.restage {holder : Holder} (hmutex : s.mutex = some holder)
    (hstage : holder.stage ≠ .drop fd) (hsockets : s'.sockets[fd]? = s.sockets[fd]?)
    (haccept : s'.accept = s.accept) : Frozen fd bytes s' := by
  refine h.frame hsockets (fun holder' hmutex' hstage' => ?_) fun _ => haccept
  cases hmutex.symm.trans hmutex'
  exact absurd hstage' hstage

theorem Frozen.transmit {fd' : Nat} (hinv : Inv s) {holder : Holder}
    (hmutex : s.mutex = some holder) (hconnection : holder.stage.connection = some fd')
    (hlive : holder.stage.live = true) (hstage : holder.stage ≠ .drop fd) {outcome : Sent}
    {blocked : Stage} (hstep : s.transmit holder fd' outcome blocked = some s') :
    Frozen fd bytes s' := by
  cases outcome with
  | wrote count =>
    simp only [State.transmit] at hstep
    split at hstep <;> cases hstep
    refine h.restage hmutex hstage (sockets_write_of_ne ?_) rfl
    rintro rfl
    obtain ⟨fd', hfd', hclient⟩ := (hinv.holder holder hmutex).live hlive
    obtain rfl : fd = fd' := Option.some.inj (hconnection.symm.trans hfd')
    obtain ⟨holder', hmutex', hdrop⟩ := hinv.not_frozen_client h hclient
    cases hmutex.symm.trans hmutex'
    exact hstage hdrop
  | wouldBlock | failed =>
    cases hstep
    exact h.restage hmutex hstage rfl rfl

theorem Frozen.step (hinv : Inv s) (hjoined : Joined s) {a : Action} (hstep : s.step a = some s') :
    Frozen fd bytes s' := by
  cases a with
  | start | stop =>
    simp only [State.step, State.enter] at hstep
    split at hstep
    all_goals
      cases hstep
      try exact h.frame rfl
  | control => exact h.controlStep hjoined hstep
  | listen passed =>
    simp only [State.step] at hstep
    split at hstep <;> cases hstep
    exact h.frame rfl
  | accept event => exact h.acceptStep hinv hstep
  | call call =>
    simp only [State.step, State.callStep] at hstep
    split at hstep
    · cases hstep
      exact h.frame rfl
    · split at hstep <;> cases hstep
      rename_i hfree
      refine h.frame rfl (fun holder hmutex => ?_) fun _ => rfl
      cases (Option.not_isSome_iff_eq_none.mp hfree).symm.trans hmutex
  | send outcome =>
    simp only [State.step, State.sendStep] at hstep
    split at hstep
    · cases hstep
    · rename_i holder hmutex
      split at hstep
      case h_3 => cases hstep
      all_goals
        rename_i fd' hstage
        refine h.transmit hinv hmutex (by rw [hstage]; rfl) (by rw [hstage]; rfl) ?_ hstep
        simp [hstage]
  | poll outcome =>
    simp only [State.step, State.pollStep] at hstep
    split at hstep
    · cases hstep
    · rename_i holder hmutex
      split at hstep <;> cases hstep
      rename_i fd' hstage
      exact h.restage hmutex (by simp [hstage]) rfl rfl
  | drop =>
    simp only [State.step, State.dropStep] at hstep
    split at hstep
    · cases hstep
    · rename_i holder hmutex
      split at hstep <;> cases hstep
      rename_i fd' hstage
      refine h.closeClient rfl (fun holder' hmutex' hdrop => ?_) fun _ => closeClient_accept s
      cases hmutex.symm.trans hmutex'
      obtain ⟨fd'', hfd, hclient⟩ := (hinv.holder holder hmutex).live (by rw [hdrop]; rfl)
      rw [hdrop] at hfd
      exact hclient.trans hfd.symm
  | leave =>
    simp only [State.step, State.leaveStep] at hstep
    split at hstep
    · cases hstep
    · rename_i holder hmutex
      split at hstep <;> cases hstep
      rename_i connection result hstage
      exact h.restage hmutex (by simp [hstage]) rfl rfl

end

end Ends

theorem outgoing_done_true {call : Call} (h : call.outgoing = .done true) :
    ∃ displayId x y, call = .scroll displayId x y 0 0 := by
  have hfitting : ∀ size text flag, fitting size text flag ≠ .done true := by
    intro size text flag heq
    unfold fitting at heq
    split at heq <;> cases heq
  cases call with
  | scroll displayId x y hscrollMilli vscrollMilli =>
    rw [Call.outgoing] at h
    split at h
    · rename_i hzero
      exact ⟨displayId, x, y, by rw [hzero.1, hzero.2]⟩
    · exact absurd h (hfitting _ _ _)
  | touch kind displayId pointerId x y =>
    rw [Call.outgoing] at h
    cases kind with
    | mouseMove | mouseButton => cases h
    | touchBegin | touchUpdate | touchEnd => exact absurd h (hfitting _ _ _)
  | hoverExit => cases h
  | hover | mouseMove | mouseButton | keyboardReport => exact absurd h (hfitting _ _ _)

theorem isLine_of_mem_linesOn {returned : List Return} {fd : Nat} {line : Bytes}
    (h : line ∈ linesOn returned fd) : IsLine line := by
  obtain ⟨r, -, hr⟩ := List.mem_filterMap.mp h
  split at hr
  · unfold Call.line? at hr
    split at hr <;> cases hr
    rename_i hcall
    exact isLine_of_outgoing hcall
  · cases hr

theorem Framed.contains_line {s : State} {fd : Nat} {c : Socket} (h : Framed s fd c) {line : Bytes}
    (hline : line ∈ linesOn s.returned fd) : line <:+: c.bytes := by
  have hflat := List.infix_of_mem_flatten hline
  cases h with
  | greeting hbytes hlines hend =>
    rw [hlines] at hline
    cases hline
  | lines hbytes =>
    rw [hbytes]
    exact hflat.trans (List.suffix_append _ _).isInfix
  | returning holder hmutex hstage hbytes | incomplete part hpart hbytes hend =>
    rw [hbytes, List.append_assoc]
    exact (hflat.trans (List.prefix_append _ _).isInfix).trans (List.suffix_append _ _).isInfix

theorem sound_reachable {s t : State} (hinv : Inv s) (hjoined : Joined s)
    (h : Reachable State.step s t) : Inv t ∧ Joined t :=
  h.invariant (I := fun s => Inv s ∧ Joined s)
    (fun _ _ _ hs hstep => ⟨hs.1.step hs.2 hstep, hs.2.step hstep⟩) ⟨hinv, hjoined⟩

/-- On every connection are whole lines, of the calls that returned true, and at most one
incomplete line, which ends it. A call that returns true has written its line, unless it
is a scroll by nothing. -/
theorem guest_input_framing {s : State} (h : Reachable State.step State.initial s) :
    (∀ fd c, s.sockets[fd]? = some c →
      Framed s fd c ∧ ∀ line ∈ linesOn s.returned fd, IsLine line) ∧
    (∀ fd c, s.sockets[fd]? = some c → Ended s fd c → ∀ t, Reachable State.step s t →
      ∃ c', t.sockets[fd]? = some c' ∧ c'.bytes = c.bytes ∧ Ended t fd c') ∧
    ∀ r ∈ s.returned, r.result = true →
      (∃ displayId x y, r.call = .scroll displayId x y 0 0) ∨
      ∃ fd c line reliable, r.call.outgoing = .line line reliable ∧ r.connection = some fd ∧
        s.sockets[fd]? = some c ∧ line <:+: c.bytes := by
  obtain ⟨hinv, hjoined⟩ := sound_reachable inv_initial (fun _ => rfl) h
  refine ⟨fun fd c hc => ⟨hinv.framed hc, fun line => isLine_of_mem_linesOn⟩, ?_, ?_⟩
  · intro fd c hc hend t ht
    have hfrozen : Frozen fd c.bytes s := ⟨c, hc, rfl, hend⟩
    obtain ⟨-, -, hfrozen'⟩ := ht.invariant
      (I := fun s => Inv s ∧ Joined s ∧ Frozen fd c.bytes s)
      (fun _ _ _ hs hstep => ⟨hs.1.step hs.2.1 hstep, hs.2.1.step hstep,
        hs.2.2.step hs.1 hs.2.1 hstep⟩) ⟨hinv, hjoined, hfrozen⟩
    exact hfrozen'
  · intro r hr hresult
    obtain hdone | ⟨hline, hconnection⟩ := hinv.answered r hr hresult
    · exact .inl (outgoing_done_true hdone)
    · obtain ⟨fd, hfd⟩ := Option.ne_none_iff_exists'.mp hconnection
      obtain ⟨line, hsome⟩ := Option.ne_none_iff_exists'.mp hline
      have hc := List.getElem?_eq_getElem (hinv.known r hr fd hfd)
      have hmem : line ∈ linesOn s.returned fd := by
        refine List.mem_filterMap.mpr ⟨r, hr, ?_⟩
        rw [if_pos ⟨hresult, hfd⟩, hsome]
      unfold Call.line? at hsome
      split at hsome <;> cases hsome
      rename_i reliable hcall
      exact .inr ⟨fd, _, line, reliable, hcall, hfd, hc, (hinv.framed hc).contains_line hmem⟩

namespace Sample

def connect : List Action :=
  [.start, .control, .control, .control, .control, .listen true, .control, .control, .control,
    .accept .next, .accept .next, .accept .passed, .accept .passed, .accept (.wrote 2),
    .accept .passed, .accept .next]

end Sample

/-- The socket takes only a part of the second line. -/
theorem guest_input_framing_short : ∃ s,
    exec State.step State.initial (Sample.connect ++
      [.call .hoverExit, .send .wouldBlock, .poll .writable, .send (.wrote 2), .leave,
        .call (.hover 0 1 2), .send (.wrote 3), .drop, .leave]) = some s ∧
      s.sockets = [⟨ascii "v\ne\nh 0", false⟩] ∧ linesOn s.returned 0 = [ascii "e\n"] ∧
      Framed s 0 ⟨ascii "v\ne\nh 0", false⟩ := by
  obtain ⟨s, hrun, hsockets, hlines⟩ := exists_of_map_decide
    (o := exec State.step State.initial (Sample.connect ++
      [.call .hoverExit, .send .wouldBlock, .poll .writable, .send (.wrote 2), .leave,
        .call (.hover 0 1 2), .send (.wrote 3), .drop, .leave]))
    (p := fun s => s.sockets = [⟨ascii "v\ne\nh 0", false⟩] ∧ linesOn s.returned 0 = [ascii "e\n"])
    (by decide +kernel)
  refine ⟨s, hrun, hsockets, hlines, ?_⟩
  exact ((guest_input_framing ⟨_, hrun⟩).1 0 _ (by rw [hsockets]; rfl)).1

/-- A scroll by nothing returns true where nothing can be written. -/
theorem scroll_by_nothing : ∃ s,
    exec State.step State.initial [.call (.scroll 0 5 6 0 0)] = some s ∧
      s.returned = [⟨.scroll 0 5 6 0 0, none, true⟩] ∧ s.sockets = [] :=
  exists_of_map_decide (by decide +kernel)

end GuestInputSender
end MacMu
