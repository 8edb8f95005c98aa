import MacMu.Shell.FrameCoalescing

/-!
The presentation blocks, and what coalescing guarantees about them. A block that
clears its flag reads the slot once more, so a frame taken over while the flag
was still set is seen by it, or a publish that came in between is left for the
doorbell loop.
-/

namespace MacMu
namespace FramePresentation

open Function FrameConsumer TransitionSystem

variable {w w' : World} {d : Slot}

section Blocks

variable {stage : Stage}

section

variable (h : Inv w)
include h

theorem Inv.covered_of_block (hrun : w.running = some (d, stage)) (hslots : w'.slots = w.slots)
    (hcursors : w'.lastFrames = w.lastFrames)
    (hdoor : w'.doorbell = w.doorbell) (hdown : w'.shuttingDown = w.shuttingDown)
    (hqueue : ∀ e ∈ w.mainQueue, e ∈ w'.mainQueue)
    (hpresented : ∀ call ∈ w.presented, call ∈ w'.presented)
    (hserved : w.shuttingDown = false → w.lastFrames d ≠ 0 → stage.Serves (w.slots d) →
      Covered w' d) :
    w'.shuttingDown = false → ∀ e, e ≠ 0 → w'.lastFrames e ≠ 0 → Covered w' e := by
  intro hrunning e he hcursor
  rw [hdown] at hrunning
  rw [hcursors] at hcursor
  refine (h.covered hrunning e he hcursor).mono (congrFun hslots e) (congrFun hcursors e) ?_ ?_ ?_
    hpresented
  · intro hmem
    exact .queued (hqueue e hmem)
  · intro stage' hrun' hserves
    rw [hrun] at hrun'
    cases hrun'
    exact hserved hrunning hcursor hserves
  · intro hdoor'
    exact .enqueuing (by simpa only [Enqueuing, hdoor] using hdoor')

theorem Inv.blockMoves (hrun : w.running = some (d, stage)) {run : Option (Slot × Stage)}
    {presented : List (Slot × Nat)} (hcharge : runningCharge run = runningCharge w.running)
    (hcalled : ∀ e stage', run = some (e, stage') → stage'.Called presented e)
    (hpresented : ∀ call ∈ w.presented, call ∈ presented)
    (hcovered : w.shuttingDown = false → w.lastFrames d ≠ 0 → stage.Serves (w.slots d) →
      Covered { w with running := run, presented := presented } d) :
    Inv { w with running := run, presented := presented } where
  cursor_le := h.cursor_le
  confirming := h.confirming
  flags e := by
    rw [← h.flags e]
    simp only [charged, hcharge]
  called := hcalled
  covered := h.covered_of_block hrun rfl rfl rfl rfl (fun _ hmem => hmem) hpresented hcovered

theorem Inv.clearing {frame : Nat} (hrun : w.running = some (d, .clearing frame)) : Inv { w with
      framePresentationPending := update w.framePresentationPending d false
      running := some (d, .rechecking frame) } where
  cursor_le := h.cursor_le
  confirming := h.confirming
  flags e := by
    have hflags := h.flags e
    simp only [charged, hrun, runningCharge, Stage.holdsFlag, if_true, List.count_append]
      at hflags
    simp only [charged, runningCharge, Stage.holdsFlag, Bool.false_eq_true, if_false,
      List.count_append, List.count_nil]
    by_cases he : e = d
    · subst he
      have hle := (w.framePresentationPending e).toNat_le
      rw [List.count_singleton_self] at hflags
      rw [update_self, Bool.toNat_false]
      omega
    · rw [update_of_ne he]
      rw [List.count_singleton, if_neg (by simpa using Ne.symm he)] at hflags
      exact hflags
  called := by
    intro e stage hstage
    cases hstage
    exact h.called d (.clearing frame) hrun
  covered := by
    exact h.covered_of_block hrun rfl rfl rfl rfl (fun _ hmem => hmem) (fun _ hcall => hcall)
      (fun _ _ _ => .serving _ rfl trivial)

theorem Inv.blockExchanging (hrun : w.running = some (d, .exchanging))
    (hd : ¬ w.framePresentationPending d = true) :
    Inv { w with
      framePresentationPending := update w.framePresentationPending d true
      running := some (d, .dispatching) } where
  cursor_le := h.cursor_le
  confirming := h.confirming
  flags := by
    apply count_charge h.flags hd
    intro e
    simp only [charged, hrun, runningCharge, Stage.holdsFlag, Bool.false_eq_true, if_true,
      if_false, List.count_append, List.count_nil]
    omega
  called := by
    intro e stage hstage
    cases hstage
    trivial
  covered := by
    exact h.covered_of_block hrun rfl rfl rfl rfl (fun _ hmem => hmem) (fun _ hcall => hcall)
      (fun _ _ _ => .serving _ rfl trivial)

theorem Inv.blockDispatching (hrun : w.running = some (d, .dispatching)) :
    Inv { w with mainQueue := w.mainQueue ++ [d], running := none } where
  cursor_le := h.cursor_le
  confirming := h.confirming
  flags e := by
    rw [← h.flags e]
    simp only [charged, hrun, runningCharge, Stage.holdsFlag, if_true, List.count_append,
      List.count_nil]
    omega
  called := nofun
  covered := by
    refine h.covered_of_block hrun rfl rfl rfl rfl ?_ (fun _ hcall => hcall) ?_
    · intro e hmem
      exact List.mem_append_left _ hmem
    · intro _ _ _
      exact .queued (List.mem_append_right _ List.mem_cons_self)

theorem Inv.blockAdvances (hrun : w.running = some (d, stage)) {next : Stage}
    (hflag : next.holdsFlag = stage.holdsFlag) (hcalled : next.Called w.presented d)
    (hserves : next.Serves (w.slots d)) : Inv { w with running := some (d, next) } := by
  refine h.blockMoves hrun ?_ ?_ (fun _ hcall => hcall) (fun _ _ _ => .serving next rfl hserves)
  · simp only [hrun, runningCharge, hflag]
  · intro e stage' hstage
    cases hstage
    exact hcalled

theorem Inv.blockEnds (hrun : w.running = some (d, stage)) (hflag : stage.holdsFlag = false)
    (hcovered : w.shuttingDown = false → w.lastFrames d ≠ 0 → stage.Serves (w.slots d) →
      Covered { w with running := none } d) : Inv { w with running := none } := by
  refine h.blockMoves hrun ?_ nofun (fun _ hcall => hcall) hcovered
  simp only [hrun, runningCharge, hflag, Bool.false_eq_true, if_false]

theorem Inv.readAgain {frame : Nat} {reading : Reading}
    (hrun : w.running = some (d, .readingAgain frame reading)) {answer : Answer}
    (hanswer : reading.mayAnswer answer = true) (hsame : ∀ number, answer = .frame number →
      number = frame) : Inv { w with running := none } := by
  refine h.blockEnds hrun rfl ?_
  intro _ hcursor hserves
  cases hserves
  have hle := h.cursor_le d
  cases answer with
  | failed =>
    obtain hpublishing | hzero := mayAnswer_begin_failed hanswer
    · exact .behind (.inl hpublishing)
    · rw [hzero] at hle
      exact absurd (Nat.le_zero.mp hle) hcursor
  | frame number =>
    obtain ⟨hne, hframe⟩ := mayAnswer_begin_frame hanswer
    cases hsame number rfl
    exact .presented frame (hframe ▸ hle) ((h.called d _ hrun).resolve_left hne)

theorem Inv.blockStep (hrun : w.running = some (d, stage)) {answer : Answer}
    (hstep : w.blockStep d stage answer = some w') : Inv w' := by
  cases stage <;> simp only [World.blockStep] at hstep
  case starting =>
    split at hstep
    · cases hstep
      exact h.blockAdvances hrun rfl (.inl rfl) trivial
    · cases hstep
      exact h.blockAdvances hrun rfl trivial trivial
  case reading reading =>
    split at hstep
    · cases answer with
      | failed =>
        cases hstep
        exact h.blockAdvances hrun rfl (.inl rfl) trivial
      | frame number =>
        cases hstep
        exact h.blockAdvances hrun rfl trivial trivial
    · cases hstep
  case calling number =>
    cases hstep
    refine h.blockMoves hrun (by rw [hrun]; rfl) ?_ ?_ (fun _ _ _ => .serving _ rfl trivial)
    · intro e stage hstage
      cases hstage
      exact .inr (List.mem_append_right _ List.mem_cons_self)
    · intro call hcall
      exact List.mem_append_left _ hcall
  case clearing frame =>
    cases hstep
    exact h.clearing hrun
  case rechecking frame =>
    split at hstep
    · rename_i hdown
      cases hstep
      refine h.blockEnds hrun rfl ?_
      intro hrunning
      rw [hdown] at hrunning
      cases hrunning
    · cases hstep
      exact h.blockAdvances hrun rfl (h.called d (.rechecking frame) hrun) rfl
  case readingAgain frame reading =>
    split at hstep
    · rename_i hanswer
      cases answer with
      | failed =>
        cases hstep
        exact h.readAgain hrun hanswer nofun
      | frame number =>
        dsimp only at hstep
        split at hstep
        · cases hstep
          exact h.blockAdvances hrun rfl trivial trivial
        · rename_i hsame
          cases hstep
          refine h.readAgain hrun hanswer ?_
          intro number' heq
          cases heq
          exact not_not.mp hsame
    · cases hstep
  case exchanging =>
    split at hstep
    · rename_i hpending
      cases hstep
      refine h.blockEnds hrun rfl ?_
      intro _ _ _
      obtain hmem | ⟨stage, hrun', hflag⟩ | hdispatching := h.of_pending hpending
      · exact .queued hmem
      · rw [hrun] at hrun'
        cases hrun'
        cases hflag
      · exact .enqueuing (.inr hdispatching)
    · rename_i hpending
      cases hstep
      exact h.blockExchanging hrun hpending
  case dispatching =>
    cases hstep
    exact h.blockDispatching hrun

theorem Inv.takeBlock (hrun : w.running = none) {rest : List Slot}
    (hqueue : w.mainQueue = d :: rest) :
    Inv { w with mainQueue := rest, running := some (d, .starting) } where
  cursor_le := h.cursor_le
  confirming := h.confirming
  flags e := by
    rw [← h.flags e]
    simp only [charged, hrun, hqueue, runningCharge, Stage.holdsFlag, if_true, List.count_append,
      List.count_cons, List.count_nil]
    omega
  called := by
    intro e stage hstage
    cases hstage
    trivial
  covered := by
    intro hrunning e he hcursor
    refine (h.covered hrunning e he hcursor).mono rfl rfl ?_ ?_ ?_ (fun _ hcall => hcall)
    · intro hmem
      rw [hqueue] at hmem
      obtain rfl | hmem := List.mem_cons.mp hmem
      · exact .serving .starting rfl trivial
      · exact .queued hmem
    · intro stage hrun'
      rw [hrun] at hrun'
      cases hrun'
    · intro hdoor
      exact .enqueuing hdoor

end

end Blocks

theorem Inv.mainStep (h : Inv w) {answer : Answer} (hstep : w.mainStep answer = some w') :
    Inv w' := by
  unfold World.mainStep at hstep
  split at hstep
  · rename_i displayId stage hrun
    exact h.blockStep hrun hstep
  · rename_i hrun
    split at hstep <;> cases hstep
    rename_i displayId rest hqueue
    exact h.takeBlock hrun hqueue

theorem Inv.step (h : Inv w) {a : Step} (hstep : w.step a = some w') : Inv w' := by
  cases a with
  | publish displayId frame =>
    simp only [World.step] at hstep
    split at hstep <;> cases hstep
    refine h.publish (Nat.le_refl _) (fun _ hseen => hseen) (.inl ?_)
    exact Option.some_ne_none frame
  | published displayId =>
    simp only [World.step] at hstep
    split at hstep
    · cases hstep
    · rename_i frame hpublishing
      have hlater := (w.slots displayId).later frame hpublishing
      cases hstep
      refine h.publish (Nat.le_of_lt hlater) ?_
        (.inr (Nat.lt_of_le_of_lt (h.cursor_le displayId) hlater))
      intro reading hseen number hnumber
      obtain rfl | hnumber := List.mem_cons.mp hnumber
      · exact Nat.le_refl _
      · exact Nat.le_trans (hseen number hnumber) (Nat.le_of_lt hlater)
  | doorbell answer => exact h.doorbellStep hstep
  | main answer => exact h.mainStep hstep
  | shutDown =>
    cases hstep
    exact ⟨h.cursor_le, h.confirming, h.flags, h.called, nofun⟩

/-- In every state of a generation: once the doorbell loop has taken over the
last frame of a slot and has returned from queueing a block for it, no publish
of the slot is under way and no block for the display is queued or running, the
display was redrawn after a read of that frame or a later one. -/
theorem last_frame_presented {slots : Slot → SlotState} {mainQueue : List Slot}
    (hqueue : mainQueue.Nodup) (h : Reachable World.step (World.start slots mainQueue) w)
    (hrunning : w.shuttingDown = false) (hd : d ≠ 0) {k : Nat} (hk : k ≠ 0)
    (hframe : (w.slots d).frame = k) (hstable : (w.slots d).publishing = none)
    (hcursor : w.lastFrames d = k) (hdoor : ¬ Enqueuing w d) (hblock : NoBlock w d) :
    ∃ frame, k ≤ frame ∧ (d, frame) ∈ w.presented := by
  have hinv : Inv w := by
    refine Reachable.invariant ?_ (inv_start slots hqueue) h
    intro w a w' hw hstep
    exact hw.step hstep
  cases hinv.covered hrunning d hd (hcursor ▸ hk) with
  | queued mem => exact absurd mem hblock.1
  | serving stage run serves => exact absurd (congrArg (Option.map Prod.fst) run) hblock.2
  | enqueuing door => exact absurd door hdoor
  | presented frame le mem => exact ⟨frame, hcursor ▸ le, mem⟩
  | behind hbehind =>
    obtain hpublishing | hlt := hbehind
    · exact absurd hstable hpublishing
    · rw [hcursor, hframe] at hlt
      exact absurd hlt (Nat.lt_irrefl k)

/-- The first frame of display 1 is published and the doorbell loop takes it over. -/
def takesOver : List Step :=
  [.publish 1 1, .published 1, .doorbell .failed, .doorbell .failed, .doorbell (.frame 1),
    .doorbell (.frame 1)]

/-- Its block is queued, and runs up to the redraw. -/
def redraws : List Step :=
  takesOver ++ [.doorbell .failed, .doorbell .failed, .main .failed, .main .failed,
    .main (.frame 1), .main .failed]

theorem last_frame_presented_first :
    ∃ w, exec World.step (World.start (fun _ => .empty) [])
        (redraws ++ [.main .failed, .main .failed, .main (.frame 1)]) = some w ∧
      ∃ frame, 1 ≤ frame ∧ (1, frame) ∈ w.presented := by
  obtain ⟨w, hrun, hrunning, hframe, hstable, hcursor, hdoor, hblock⟩ := exists_of_map_decide
    (o := exec World.step (World.start (fun _ => .empty) [])
      (redraws ++ [.main .failed, .main .failed, .main (.frame 1)]))
    (p := fun w => w.shuttingDown = false ∧ (w.slots 1).frame = 1 ∧
      (w.slots 1).publishing = none ∧ w.lastFrames 1 = 1 ∧ ¬ Enqueuing w 1 ∧ NoBlock w 1)
    (by decide +kernel)
  exact ⟨w, hrun, last_frame_presented List.nodup_nil ⟨_, hrun⟩ hrunning (by decide)
    Nat.one_ne_zero hframe hstable hcursor hdoor hblock⟩

/-- The second frame is taken over while the block for the first one still holds
the flag, and a third publish is under way when that block looks again. -/
def looksAgainDuringPublish : List Step :=
  redraws ++ [.publish 1 2, .published 1] ++ List.replicate 16 (.doorbell .failed) ++
    [.doorbell (.frame 2), .doorbell (.frame 2), .doorbell .failed, .publish 1 3, .main .failed,
      .main .failed, .main .failed]

/-- Two moments at which the cursor has reached the last published frame, no
block is queued or running, and that frame has not been presented: before the
doorbell thread has queued its block, and during a later publish. -/
theorem last_frame_not_yet_presented :
    (∃ w, exec World.step (World.start (fun _ => .empty) []) takesOver = some w ∧
      (w.slots 1).frame = 1 ∧ (w.slots 1).publishing = none ∧ w.lastFrames 1 = 1 ∧
      NoBlock w 1 ∧ w.shuttingDown = false ∧ w.presented = []) ∧
    ∃ w, exec World.step (World.start (fun _ => .empty) []) looksAgainDuringPublish = some w ∧
      (w.slots 1).frame = 2 ∧ w.lastFrames 1 = 2 ∧ ¬ Enqueuing w 1 ∧
      NoBlock w 1 ∧ w.shuttingDown = false ∧ w.presented = [(1, 1)] :=
  ⟨exists_of_map_decide (by decide +kernel), exists_of_map_decide (by decide +kernel)⟩

/-- However often a display is published, at most one party answers for it: its flag is
set exactly while a block for it is queued, has yet to clear the flag, or is about to be
queued. -/
theorem presentations_coalesced {slots : Slot → SlotState} {mainQueue : List Slot}
    (hqueue : mainQueue.Nodup) (h : Reachable World.step (World.start slots mainQueue) w) :
    (charged w).Nodup ∧ ∀ d, d ∈ charged w ↔ w.framePresentationPending d = true := by
  have hinv : Inv w := h.invariant (fun _ _ _ hw hstep => hw.step hstep) (inv_start slots hqueue)
  refine ⟨List.nodup_iff_count_le_one.mpr fun d => ?_, fun d => ?_⟩
  · rw [hinv.flags]
    exact Bool.toNat_le _
  · rw [← List.count_pos_iff, hinv.flags]
    cases w.framePresentationPending d <;> simp

theorem presentations_coalesced_second : ∃ w,
    exec World.step (World.start (fun _ => .empty) []) (redraws ++ [.publish 1 2, .published 1]) =
      some w ∧ 1 ∈ charged w ∧ (charged w).Nodup := by
  obtain ⟨w, hrun, hmem⟩ : ∃ w, exec World.step (World.start (fun _ => .empty) [])
      (redraws ++ [.publish 1 2, .published 1]) = some w ∧ 1 ∈ charged w :=
    exists_of_map_decide (by decide +kernel)
  exact ⟨w, hrun, hmem, (presentations_coalesced List.nodup_nil ⟨_, hrun⟩).1⟩

end FramePresentation
end MacMu
