import MacMu.Shell.RemovalRequests

/-!
A display id is not reused under a removal that is still on its way. The id
keeps its removal mark from the block that sends the request to the block that
handles the event, so no launch can take it meanwhile, and at most one removal
of an id is outstanding. The event then finds the application that the request
was sent for, or none.
-/

namespace MacMu
namespace DisplayReuse

open Std ControlProtocol ControlRoundTrip ControlReceiver TransitionSystem RemovalMarks
open RemovalTokens RemovalRequests

variable {w : World} {b : Block} {d : UInt32}

theorem tracked_reshell (h : Tracked w) {shell : AppDelegate} (hdrained : shell.outbox = [])
    (hmarks : ∀ d ∈ w.shell.displayRemovalPending, d ∈ shell.displayRemovalPending ∨ Settled w d)
    (hbound : ∀ d ∈ shell.displayAppBindings, d ∈ w.shell.displayAppBindings ∨ Settled w d) :
    Tracked { w with shell := shell } := by
  refine { h with drained := hdrained, marked := ?_, same_instance := ?_ }
  · intro t d bound ht hopen
    rcases hmarks d (h.marked t d bound ht hopen) with hmark | hsettled
    · exact hmark
    · exact absurd (hsettled t bound ht) hopen
  · intro t d bound ht hopen i hi
    simp only [boundTo] at hi
    split at hi
    · rename_i hd
      rcases hbound d hd with hold | hsettled
      · apply h.same_instance t d bound ht hopen i
        rw [boundTo, if_pos hold, hi]
      · exact absurd (hsettled t bound ht) hopen
    · cases hi

/-- A block that keeps the marks of `s`, where `s` is the shell's state with
settled marks dropped. -/
theorem tracked_runBlock (h : Tracked w) (env : Surroundings) (b : Block)
    (outcomes : List WriteOutcome) {s : AppDelegate} (hrun : Marks s (w.shell.run env b))
    (houtbox : s.outbox = []) (hbindings : s.displayAppBindings = w.shell.displayAppBindings)
    (hmarks : ∀ d, d ∉ s.displayRemovalPending → Settled w d) :
    Tracked (w.runBlock env b outcomes) := by
  obtain ⟨es, hes, hnone, hnodup, hfresh⟩ := hrun.effects
  rw [houtbox, List.nil_append] at hes
  unfold World.runBlock
  dsimp only
  rw [hes]
  apply tracked_requests
  · apply tracked_reshell h
    · rfl
    · intro d _
      by_cases hd : d ∈ s.displayRemovalPending
      · exact .inl (hrun.kept d hd)
      · exact .inr (hmarks d hd)
    · intro d hd
      exact .inl (hbindings ▸ hrun.bound d hd)
  · exact hnodup
  · intro d hd
    exact ⟨(hfresh d hd).2, hmarks d (hfresh d hd).1⟩
  · intro d hd
    rw [hnone] at hd
    exact absurd hd List.not_mem_nil

theorem tracked_launch (h : Tracked w) (env : Surroundings) (component : String)
    (profile : DisplayLaunchProfile) (screen : Bool) (outcomes : List WriteOutcome) :
    Tracked (w.runBlock env (.launch component profile screen) outcomes) := by
  rcases launch_moves_or_launched env w.shell component profile screen with hmoves | ⟨d, hl⟩
  · exact tracked_runBlock h env _ outcomes (marks_moves hmoves) h.drained rfl
      (fun d hd => h.settled_of_not_marked hd)
  · have hsettled : Settled w d := h.settled_of_not_marked hl.notRemoving
    have houtbox := hl.outbox
    rw [h.drained, List.nil_append] at houtbox
    unfold World.runBlock
    dsimp only [AppDelegate.run]
    rw [houtbox]
    apply tracked_requests
    · apply tracked_reshell h
      · rfl
      · intro e he
        exact .inl (hl.removing ▸ he)
      · intro e he
        rw [hl.bindings] at he
        rcases ExtTreeMap.mem_insert.mp he with heq | he
        · rw [← LawfulEqCmp.eq_of_compare heq]
          exact .inr hsettled
        · exact .inl he
    · exact List.nodup_nil
    · intro e he
      exact absurd he List.not_mem_nil
    · intro e he
      rw [List.mem_singleton.mp he]
      exact ⟨List.not_mem_nil, hsettled⟩

theorem tracked_noted (h : Tracked w) (event : ControlEventDisplay) :
    Tracked { w with
      lastFollowed := w.lastFollowed.insert event.displayId
        (w.issued.length, ⟨event.width, event.height, event.dpi⟩) } :=
  h.of_moved rfl rfl rfl (fun _ hx => .inl hx) (List.Subperm.refl _) (List.Subperm.refl _)

section RemovedEvent

variable {w : World} {tag : Nat} {b : Block} {d : UInt32} {rest : List (Nat × Block)}

theorem token_of_head (hqueue : w.mainQueue = (tag, b) :: rest)
    (hremoved : b.removedDisplay = some d) : (tag, d) ∈ tokens w := by
  apply List.mem_append_right
  apply List.mem_append_right
  rw [hqueue, List.mem_filterMap]
  refine ⟨(tag, b), List.mem_cons_self, ?_⟩
  rw [blockToken, hremoved, Option.map_some]

theorem outstanding_of_head (h : Tracked w) (hqueue : w.mainQueue = (tag, b) :: rest)
    (hremoved : b.removedDisplay = some d) :
    tag ∉ w.answered ∧ ∃ bound, w.issued[tag]? = some (.remove d bound) := by
  have htoken := token_of_head hqueue hremoved
  refine ⟨?_, h.issued_of_token _ htoken⟩
  intro hanswered
  have hmap : 0 < ((tokens w).map Prod.fst).count tag :=
    List.count_pos_iff.mpr (List.mem_map_of_mem htoken)
  have hold : 0 < w.answered.count tag := List.count_pos_iff.mpr hanswered
  have honce := h.once tag
  rw [List.count_append] at honce
  exact absurd honce (by omega)

theorem tracked_pop (h : Tracked w) (hqueue : w.mainQueue = (tag, b) :: rest) :
    Tracked { w with mainQueue := rest } := by
  refine h.of_moved rfl rfl rfl ?_ (subperm_of_count ?_) (List.Subperm.refl _)
  · intro x hx
    rw [hqueue]
    exact .inl (List.mem_cons_of_mem _ hx)
  · intro x
    simp only [tokens, requested, returning, hqueue, List.count_append, count_filterMap_cons]
    omega

/-- The event of a removal is taken from the queue: the removal is answered. -/
theorem tracked_answer (h : Tracked w) (hqueue : w.mainQueue = (tag, b) :: rest)
    (hremoved : b.removedDisplay = some d) :
    Tracked { w with mainQueue := rest, answered := w.answered ++ [tag] } := by
  have hpop := tracked_pop h hqueue
  have hopen : ∀ {t : Nat}, t ∉ w.answered ++ [tag] → t ∉ w.answered :=
    fun ht hmem => ht (List.mem_append_left _ hmem)
  refine ⟨hpop.drained, hpop.queued, ?_, hpop.emits, ?_, hpop.issued_of_emitted,
    hpop.issued_of_token, ?_, ?_, ?_, ?_⟩
  · intro t
    have honce := h.once t
    simp only [tokens, requested, returning, hqueue, List.map_append, List.count_append,
      List.filterMap_cons, blockToken, hremoved, Option.map_some, List.map_cons,
      List.count_cons, List.count_nil] at honce ⊢
    omega
  · intro t ht
    rcases List.mem_append.mp ht with ht | ht
    · exact h.answered_lt t ht
    · rw [List.mem_singleton.mp ht]
      exact h.token_lt (token_of_head hqueue hremoved)
  · intro t e bound ht hopen'
    exact h.marked t e bound ht (hopen hopen')
  · intro t e bound ht hopen'
    exact h.launched_before t e bound ht (hopen hopen')
  · intro t e bound ht hopen'
    exact h.same_instance t e bound ht (hopen hopen')
  · intro t u e bound bound' ht hu hopen' hopen''
    exact h.single t u e bound bound' ht hu (hopen hopen') (hopen hopen'')

theorem settled_answer (h : Tracked w) (hqueue : w.mainQueue = (tag, b) :: rest)
    (hremoved : b.removedDisplay = some d) :
    Settled { w with mainQueue := rest, answered := w.answered ++ [tag] } d := by
  obtain ⟨hopen, bound, hissued⟩ := outstanding_of_head h hqueue hremoved
  intro t bound' ht
  by_cases hanswered : t ∈ w.answered
  · exact List.mem_append_left _ hanswered
  · rw [h.single t tag d bound' bound ht hissued hanswered hopen]
    exact List.mem_append_right _ List.mem_cons_self

end RemovedEvent

theorem tracked_quiet (h : Tracked w) (env : Surroundings) (outcomes : List WriteOutcome)
    (hreset : b ≠ .qemuExited) (hquiet : w.shell.shuttingDown = true ∨ b.removedDisplay = none) :
    Tracked (w.runBlock env b outcomes) := by
  by_cases hlaunch : ∃ component profile screen, b = .launch component profile screen
  · obtain ⟨component, profile, screen, rfl⟩ := hlaunch
    exact tracked_launch h ..
  · refine tracked_runBlock h env b outcomes (marks_run env w.shell ?_ hreset hquiet)
      h.drained rfl (fun d hd => h.settled_of_not_marked hd)
    intro component profile screen heq
    exact hlaunch ⟨component, profile, screen, heq⟩

theorem noteBlock_removed {tag : Nat} (hrunning : w.shell.shuttingDown = false)
    (h : b.removedDisplay = some d) :
    w.noteBlock tag b = { w with answered := w.answered ++ [tag] } := by
  obtain ⟨payload, rfl, hsize, hstate, rfl⟩ := Block.removedDisplay_eq_some h
  have hadded : (Block.controlEvent ControlMessageType.kEventDisplay.code payload).addedEvent =
      none := by
    rw [Block.addedEvent, if_neg]
    intro hadded
    exact absurd (hstate.symm.trans hadded.2.2) (by decide)
  simp only [World.noteBlock, hrunning, hadded, h, Bool.false_eq_true, if_false,
    Option.isSome_some, if_true]

theorem tracked_mainBlock (h : Tracked w) {tag : Nat} {rest : List (Nat × Block)}
    (hqueue : w.mainQueue = (tag, b) :: rest) (env : Surroundings) (outcomes : List WriteOutcome) :
    Tracked (({ w with mainQueue := rest }.noteBlock tag b).runBlock env b outcomes) := by
  have hpop := tracked_pop h hqueue
  have hreset : b ≠ .qemuExited := h.queued (tag, b) (hqueue ▸ List.mem_cons_self)
  cases hdown : w.shell.shuttingDown with
  | true =>
    rw [World.noteBlock, if_pos hdown]
    exact tracked_quiet hpop env outcomes hreset (.inl hdown)
  | false =>
    cases hremoved : b.removedDisplay with
    | none =>
      have hnote : Tracked ({ w with mainQueue := rest }.noteBlock tag b) := by
        simp only [World.noteBlock, hdown, hremoved, Bool.false_eq_true, if_false,
          Option.isSome_none]
        split
        · exact hpop
        · exact tracked_noted hpop _
      exact tracked_quiet hnote env outcomes hreset (.inr hremoved)
    | some d =>
      have hanswer := tracked_answer h hqueue hremoved
      rw [noteBlock_removed (w := { w with mainQueue := rest }) hdown hremoved]
      rcases marks_run_removed env w.shell hremoved with hrun | hrun
      · exact tracked_runBlock hanswer env b outcomes hrun h.drained rfl
          (fun e he => hanswer.settled_of_not_marked he)
      · refine tracked_runBlock hanswer env b outcomes hrun h.drained rfl ?_
        intro e he
        by_cases heq : e = d
        · rw [heq]
          exact settled_answer h hqueue hremoved
        · apply hanswer.settled_of_not_marked
          intro hmem
          apply he
          apply ExtTreeSet.mem_erase.mpr
          exact ⟨fun hcmp => heq (LawfulEqCmp.eq_of_compare hcmp).symm, hmem⟩

theorem tracked_step {w' : World} (h : Tracked w) (step : PipelineStep)
    (hstep : w.step step = some w') : Tracked w' := by
  cases step with
  | localBlock env b outcomes =>
    simp only [World.step] at hstep
    split at hstep <;> cases hstep
    rename_i hlocal
    apply tracked_quiet h
    · rintro rfl
      cases hlocal
    · right
      cases b <;> first | rfl | cases hlocal
  | mainBlock env outcomes =>
    simp only [World.step] at hstep
    split at hstep <;> cases hstep
    rename_i tag b rest hqueue
    exact tracked_mainBlock h hqueue ..
  | timeout id =>
    simp only [World.step] at hstep
    split at hstep <;> cases hstep
    apply Tracked.complete
    exact h.of_moved rfl rfl rfl (fun x hx => .inl hx) (List.Subperm.refl _) (List.Subperm.refl _)
  | read =>
    cases hqueue : w.toShell with
    | nil =>
      simp only [World.step, hqueue] at hstep
      cases hstep
    | cons head rest => exact h.read hqueue hstep
  | receive now => exact h.receive hstep
  | looperStarts =>
    cases hstep
    exact h.of_moved rfl rfl rfl (fun x hx => .inl hx) (List.Subperm.refl _) (List.Subperm.refl _)
  | task around => exact h.task hstep
  | send => exact h.send hstep

theorem tracked_of_reachable {shell : AppDelegate} {displays : MultiDisplay.State}
    (h : Reachable World.step (World.start shell displays) w) : Tracked w :=
  h.invariant (fun _ step _ hw hstep => tracked_step hw step hstep) (tracked_start shell displays)

/-- The applications and the windows of all displays but `d` are the same. -/
def SameElsewhere (d : UInt32) (s t : AppDelegate) : Prop :=
  ∀ e, e ≠ d → t.displayAppBindings[e]? = s.displayAppBindings[e]? ∧
    (e ∈ t.displayWindows ↔ e ∈ s.displayWindows)

theorem SameElsewhere.refl (d : UInt32) (s : AppDelegate) : SameElsewhere d s s :=
  fun _ _ => ⟨rfl, Iff.rfl⟩

theorem SameElsewhere.trans {s t u : AppDelegate} (h : SameElsewhere d s t)
    (k : SameElsewhere d t u) : SameElsewhere d s u :=
  fun e he => ⟨(k e he).1.trans (h e he).1, (k e he).2.trans (h e he).2⟩

theorem sameElsewhere_unbind (s : AppDelegate) (d : UInt32) :
    SameElsewhere d s (s.unbindApplicationFromDisplay d) := by
  unfold AppDelegate.unbindApplicationFromDisplay
  split
  · exact SameElsewhere.refl d s
  · intro e he
    refine ⟨?_, Iff.rfl⟩
    simp only [ExtTreeMap.getElem?_erase, LawfulEqCmp.compare_eq_iff_eq]
    rw [if_neg (Ne.symm he)]

theorem sameElsewhere_release (s : AppDelegate) (d : UInt32) :
    SameElsewhere d s (s.releaseUserDisplayId d) := by
  unfold AppDelegate.releaseUserDisplayId
  split <;> exact SameElsewhere.refl d s

theorem setDisplayStreaming_eq (env : Surroundings) (s : AppDelegate) (d : UInt32)
    (enabled : Bool) :
    ∃ es, s.setDisplayStreaming env d enabled = { s with outbox := s.outbox ++ es } := by
  unfold AppDelegate.setDisplayStreaming
  split
  · exact ⟨_, rfl⟩
  · exact ⟨[], by rw [List.append_nil]⟩

theorem sameElsewhere_closeSuppressed (env : Surroundings) (s : AppDelegate) (d : UInt32) :
    SameElsewhere d s (s.closeSuppressed env d) := by
  unfold AppDelegate.closeSuppressed AppDelegate.windowWillClose
  dsimp only
  split
  · exact SameElsewhere.refl d s
  · split
    · exact SameElsewhere.refl d s
    · obtain ⟨es, hes⟩ := setDisplayStreaming_eq env
        { s with suppressRemoveOnClose := s.suppressRemoveOnClose.insert d } d false
      rw [hes, if_pos ExtTreeSet.mem_insert_self]
      -- the suppressed close unbinds the same display again
      have hclosed : SameElsewhere d s { s with
          outbox := s.outbox ++ es
          suppressRemoveOnClose := (s.suppressRemoveOnClose.insert d).erase d
          displayWindows := s.displayWindows.erase d } := by
        intro e he
        refine ⟨rfl, ExtTreeSet.mem_erase.trans ?_⟩
        rw [ne_eq, LawfulEqCmp.compare_eq_iff_eq]
        exact and_iff_right (Ne.symm he)
      refine hclosed.trans ((sameElsewhere_unbind _ d).trans ?_)
      split
      · exact SameElsewhere.refl d _
      · exact sameElsewhere_release _ d

theorem sameElsewhere_displayRemoved (env : Surroundings) (s : AppDelegate) (d : UInt32) :
    SameElsewhere d s (s.displayRemoved env d) := by
  unfold AppDelegate.displayRemoved
  dsimp only
  have hunbind := sameElsewhere_unbind
    { s with displayRemovalPending := s.displayRemovalPending.erase d } d
  split
  · exact hunbind.trans (sameElsewhere_closeSuppressed env _ d)
  · exact hunbind.trans (sameElsewhere_release _ d)

theorem sameElsewhere_run_removed (env : Surroundings) (s : AppDelegate)
    (h : b.removedDisplay = some d) : SameElsewhere d s (s.run env b) := by
  obtain ⟨payload, rfl, -, hremoved, rfl⟩ := Block.removedDisplay_eq_some h
  change SameElsewhere _ s (s.handleControlEvent env _ payload)
  rcases handleControlEvent_cases env s _ payload with
    heq | ⟨-, ⟨hadded, -⟩ | ⟨-, heq⟩⟩
  · rw [heq]
    exact SameElsewhere.refl _ s
  · exact absurd (hadded.symm.trans hremoved) (by decide)
  · rw [heq]
    exact sameElsewhere_displayRemoved env s _

/-- In every state of the composition: a DISPLAY_REMOVED event that the shell is
about to handle finds its id marked and answers the one DISPLAY_REMOVE for the
id that is outstanding; an application bound to the id now is the one that was
bound when that request was sent, no launch on the id was sent after the
request, and no other display is touched. No request is answered with two
events. -/
theorem display_removed_answers_its_request (shell : AppDelegate)
    (displays : MultiDisplay.State) (w : World)
    (h : Reachable World.step (World.start shell displays) w) :
    (∀ tag b rest d, w.mainQueue = (tag, b) :: rest → b.removedDisplay = some d →
      w.shell.shuttingDown = false →
      d ∈ w.shell.displayRemovalPending ∧
      (∃ bound, w.issued[tag]? = some (.remove d bound) ∧ tag ∉ w.answered ∧
        ∀ i, boundTo w.shell w.issued d = some i → bound = some i) ∧
      (∀ u bound, w.issued[u]? = some (.remove d bound) → u ∉ w.answered → u = tag) ∧
      (∀ i, w.issued[i]? = some (.launch d) → i < tag) ∧
      ∀ env, SameElsewhere d w.shell (w.shell.run env b)) ∧
    ∀ tag ∈ w.emitted, w.emitted.count tag = 1 ∧
      ∃ d bound, w.issued[tag]? = some (.remove d bound) := by
  have htracked := tracked_of_reachable h
  refine ⟨?_, ?_⟩
  · intro tag b rest d hqueue hremoved hrunning
    obtain ⟨hopen, bound, hissued⟩ := outstanding_of_head htracked hqueue hremoved
    refine ⟨htracked.marked tag d bound hissued hopen,
      ⟨bound, hissued, hopen, htracked.same_instance tag d bound hissued hopen⟩, ?_,
      htracked.launched_before tag d bound hissued hopen, ?_⟩
    · intro u bound' hu hopen'
      exact htracked.single u tag d bound' bound hu hissued hopen' hopen
    · intro env
      exact sameElsewhere_run_removed env w.shell hremoved
  · intro tag htag
    refine ⟨?_, htracked.issued_of_emitted tag htag⟩
    have hone := htracked.emits tag
    have hpos := List.count_pos_iff.mpr htag
    rw [List.count_append] at hone
    omega

/-- A launch whose answer is late: the shell takes the display back, and the
emulator's ADDED and REMOVED events come after. -/
def lateAnswer : List PipelineStep :=
  [.localBlock upSurroundings (.agentConnection true) [],
    .localBlock upSurroundings (.launch "org.example/.Main" ⟨"", 720, 1600, 320⟩ false) [],
    .timeout 2, .mainBlock upSurroundings [], .looperStarts, .receive 0, .receive 0, .receive 0,
    .task (plainSurroundings true), .send, .send, .task (plainSurroundings true), .send, .send,
    .read, .read, .read, .read, .read, .mainBlock upSurroundings []]

theorem display_removed_answers_its_request_late :
    ∃ w, Reachable World.step (World.start {} ⟨∅, false⟩) w ∧
      (∃ tag b rest, w.mainQueue = (tag, b) :: rest ∧ b.removedDisplay = some 1 ∧
        w.shell.shuttingDown = false) ∧ (1 : UInt32) ∈ w.shell.displayRemovalPending := by
  have hrun : ((exec World.step (World.start {} ⟨∅, false⟩) lateAnswer).bind fun w =>
      w.mainQueue.head?.map fun x => (x.2.removedDisplay, w.shell.shuttingDown)) =
        some (some 1, false) := by
    decide
  obtain ⟨w, hw, hhead⟩ := Option.bind_eq_some_iff.mp hrun
  obtain ⟨⟨tag, b⟩, hqueue, hevent⟩ := Option.map_eq_some_iff.mp hhead
  obtain ⟨rest, hqueue⟩ := List.head?_eq_some_iff.mp hqueue
  obtain ⟨hremoved, hrunning⟩ := Prod.mk.inj hevent
  have hreach : Reachable World.step (World.start {} ⟨∅, false⟩) w := ⟨lateAnswer, hw⟩
  exact ⟨w, hreach, ⟨tag, b, rest, hqueue, hremoved, hrunning⟩,
    ((display_removed_answers_its_request {} ⟨∅, false⟩ w hreach).1 tag b rest 1 hqueue hremoved
      hrunning).1⟩

end DisplayReuse
end MacMu
