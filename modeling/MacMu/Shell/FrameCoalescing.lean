import MacMu.Shell.FramePresentation

/-!
Coalescing loses no frame for good. A pending flag that is set stands for
exactly one party that will still read the slot: a queued block, a block that
has not cleared its flag, or a thread about to queue a block. So a cursor that
has moved is answered for: by one of these, by a block that is about to look
again, by a redraw of that frame or a later one, or by a publish that the
doorbell loop has yet to see.
-/

namespace MacMu
namespace FramePresentation

open Function FrameConsumer TransitionSystem

def Stage.holdsFlag : Stage → Bool
  | .starting | .reading _ | .calling _ | .clearing _ | .dispatching => true
  | .rechecking _ | .readingAgain .. | .exchanging => false

def runningCharge : Option (Slot × Stage) → List Slot
  | some (displayId, stage) => if stage.holdsFlag then [displayId] else []
  | none => []

def doorbellCharge : Doorbell → List Slot
  | .dispatching displayId => [displayId]
  | _ => []

def charged (w : World) : List Slot :=
  w.mainQueue ++ (runningCharge w.running ++ doorbellCharge w.doorbell)

/-- A block in this stage has yet to see the slot as it is now. -/
def Stage.Serves (s : SlotState) : Stage → Prop
  | .readingAgain _ again => again = .begin s
  | _ => True

def Stage.Called (presented : List (Slot × Nat)) (displayId : Slot) : Stage → Prop
  | .clearing frame | .rechecking frame | .readingAgain frame _ =>
    frame = 0 ∨ (displayId, frame) ∈ presented
  | _ => True

inductive Covered (w : World) (displayId : Slot) : Prop where
  | queued (mem : displayId ∈ w.mainQueue)
  | serving (stage : Stage) (run : w.running = some (displayId, stage))
      (serves : stage.Serves (w.slots displayId))
  | enqueuing (door : Enqueuing w displayId)
  | presented (frame : Nat) (le : w.lastFrames displayId ≤ frame)
      (mem : (displayId, frame) ∈ w.presented)
  | behind (h : (w.slots displayId).publishing ≠ none ∨
      w.lastFrames displayId < (w.slots displayId).frame)

structure Inv (w : World) : Prop where
  cursor_le : ∀ d, w.lastFrames d ≤ (w.slots d).frame
  confirming : ∀ d reading, w.doorbell = .confirming d reading →
    ∀ frame ∈ reading.seen, frame ≤ (w.slots d).frame
  flags : ∀ d, (charged w).count d = (w.framePresentationPending d).toNat
  called : ∀ d stage, w.running = some (d, stage) → stage.Called w.presented d
  covered : w.shuttingDown = false → ∀ d, d ≠ 0 → w.lastFrames d ≠ 0 → Covered w d

theorem inv_start (slots : Slot → SlotState) {mainQueue : List Slot} (h : mainQueue.Nodup) :
    Inv (World.start slots mainQueue) where
  cursor_le _ := Nat.zero_le _
  confirming := nofun
  flags d := by
    have hcharged : charged (World.start slots mainQueue) = mainQueue := List.append_nil _
    rw [hcharged]
    by_cases hd : d ∈ mainQueue <;> simp [World.start, h.count, hd]
  called := nofun
  covered _ _ _ hcursor := absurd rfl hcursor

variable {w w' : World} {d e : Slot}

theorem seen_begin_le (s : SlotState) : ∀ frame ∈ (Reading.begin s).seen, frame ≤ s.frame := by
  intro frame hframe
  unfold Reading.begin at hframe
  split at hframe
  · exact Nat.le_of_eq (List.mem_singleton.mp hframe)
  · exact absurd hframe List.not_mem_nil

theorem mayAnswer_begin_frame {s : SlotState} {number : Nat}
    (h : (Reading.begin s).mayAnswer (.frame number) = true) :
    number ≠ 0 ∧ number = s.frame := by
  unfold Reading.begin at h
  split at h
  · simpa [Reading.mayAnswer] using h
  · simp [Reading.mayAnswer] at h

theorem mayAnswer_begin_failed {s : SlotState}
    (h : (Reading.begin s).mayAnswer .failed = true) : s.publishing ≠ none ∨ s.frame = 0 := by
  unfold Reading.begin at h
  split at h
  · right
    simpa [Reading.mayAnswer, eq_comm] using h
  · rename_i next hnext
    left
    simp [hnext]

theorem Stage.serves_of_holdsFlag {stage : Stage} (h : stage.holdsFlag = true) (s : SlotState) :
    stage.Serves s := by
  cases stage with
  | readingAgain frame reading => cases h
  | _ => trivial

theorem Covered.mono (h : Covered w d) (hslots : w'.slots d = w.slots d)
    (hcursor : w'.lastFrames d = w.lastFrames d) (hqueued : d ∈ w.mainQueue → Covered w' d)
    (hserving : ∀ stage, w.running = some (d, stage) → stage.Serves (w.slots d) → Covered w' d)
    (henqueuing : Enqueuing w d → Covered w' d)
    (hpresented : ∀ call ∈ w.presented, call ∈ w'.presented) : Covered w' d := by
  cases h with
  | queued mem => exact hqueued mem
  | serving stage run serves => exact hserving stage run serves
  | enqueuing door => exact henqueuing door
  | presented frame le mem => exact .presented frame (hcursor ▸ le) (hpresented _ mem)
  | behind h =>
    apply Covered.behind
    rw [hslots, hcursor]
    exact h

theorem Covered.sameBlocks (h : Covered w d) (hslots : w'.slots = w.slots)
    (hcursor : w'.lastFrames d = w.lastFrames d) (hqueue : w'.mainQueue = w.mainQueue)
    (hrunning : w'.running = w.running) (hpresented : w'.presented = w.presented)
    (henqueuing : Enqueuing w d → Covered w' d) : Covered w' d := by
  refine h.mono (congrFun hslots d) hcursor ?_ ?_ henqueuing (fun _ hcall => hpresented ▸ hcall)
  · intro hmem
    exact .queued (hqueue ▸ hmem)
  · intro stage hrun hserves
    exact .serving stage (hrunning.trans hrun) (hslots ▸ hserves)

theorem Inv.of_pending (h : Inv w) (hd : w.framePresentationPending d = true) :
    d ∈ w.mainQueue ∨ (∃ stage, w.running = some (d, stage) ∧ stage.holdsFlag = true) ∨
      w.doorbell = .dispatching d := by
  have hcount := h.flags d
  rw [hd] at hcount
  have hmem : d ∈ charged w := List.one_le_count_iff.mp (Nat.le_of_eq hcount.symm)
  obtain hmem | hmem := List.mem_append.mp hmem
  · exact .inl hmem
  · obtain hmem | hmem := List.mem_append.mp hmem
    · refine .inr (.inl ?_)
      unfold runningCharge at hmem
      split at hmem
      · rename_i e stage hrunning
        split at hmem
        · rename_i hflag
          cases List.mem_singleton.mp hmem
          exact ⟨stage, hrunning, hflag⟩
        · exact absurd hmem List.not_mem_nil
      · exact absurd hmem List.not_mem_nil
    · refine .inr (.inr ?_)
      unfold doorbellCharge at hmem
      split at hmem
      · rename_i e hdoor
        cases List.mem_singleton.mp hmem
        exact hdoor
      · exact absurd hmem List.not_mem_nil

theorem noteReads_charged (w : World) (d : Slot) (note : Reading → Reading) :
    charged (w.noteReads d note) = charged w := by
  unfold charged World.noteReads
  dsimp only
  congr 2
  · cases w.running with
    | none => rfl
    | some run =>
      obtain ⟨e, stage⟩ := run
      simp only [Option.map_some]
      split
      · cases stage <;> rfl
      · rfl
  · cases w.doorbell <;> rfl

theorem noteReads_running {note : Reading → Reading} {stage' : Stage}
    (h : (w.noteReads d note).running = some (e, stage')) :
    ∃ stage, w.running = some (e, stage) ∧
      (stage.Called w.presented e → stage'.Called w.presented e) := by
  obtain ⟨⟨e', stage⟩, hrun, hnoted⟩ := Option.map_eq_some_iff.mp h
  dsimp only at hnoted
  split at hnoted
  · cases stage <;> cases hnoted <;> exact ⟨_, hrun, id⟩
  · cases hnoted
    exact ⟨_, hrun, id⟩

theorem noteReads_running_of_ne {note : Reading → Reading} {stage : Stage}
    (h : w.running = some (e, stage)) (hne : e ≠ d) :
    (w.noteReads d note).running = some (e, stage) := by
  simp only [World.noteReads, h, Option.map_some, hne, if_false]

theorem noteReads_confirming {note : Reading → Reading} {reading' : Reading}
    (h : (w.noteReads d note).doorbell = .confirming e reading') :
    ∃ reading, w.doorbell = .confirming e reading ∧
      reading' = if e = d then note reading else reading := by
  simp only [World.noteReads] at h
  split at h
  · cases h
  · rename_i hdoor
    cases h
    exact ⟨_, hdoor, rfl⟩
  · rename_i hother
    exact absurd h (hother e reading')

theorem noteReads_enqueuing {note : Reading → Reading} (h : Enqueuing w e) :
    Enqueuing (w.noteReads d note) e := by
  obtain h | h := h
  · left
    simp only [World.noteReads, h]
  · right
    simp only [World.noteReads, h]

/-- A publish that begins or ends: the doorbell loop has something to see in its
slot, and nothing changes for the other displays. -/
theorem Inv.publish (h : Inv w) {note : Reading → Reading} {s : SlotState}
    (hframe : (w.slots d).frame ≤ s.frame)
    (hnote : ∀ reading : Reading, (∀ frame ∈ reading.seen, frame ≤ (w.slots d).frame) →
      ∀ frame ∈ (note reading).seen, frame ≤ s.frame)
    (hbehind : s.publishing ≠ none ∨ w.lastFrames d < s.frame) :
    Inv ((w.noteReads d note).setSlot d s) where
  cursor_le e := by
    change w.lastFrames e ≤ (update w.slots d s e).frame
    by_cases he : e = d
    · subst he
      rw [update_self]
      exact Nat.le_trans (h.cursor_le e) hframe
    · rw [update_of_ne he]
      exact h.cursor_le e
  confirming := by
    intro e reading' hdoor frame hframe'
    obtain ⟨reading, hreading, rfl⟩ := noteReads_confirming hdoor
    have hbound := h.confirming e reading hreading
    change frame ≤ (update w.slots d s e).frame
    split at hframe'
    · rename_i hed
      subst hed
      rw [update_self]
      exact hnote reading hbound frame hframe'
    · rename_i hed
      rw [update_of_ne hed]
      exact hbound frame hframe'
  flags e := by
    change (charged (w.noteReads d note)).count e = _
    rw [noteReads_charged]
    exact h.flags e
  called := by
    intro e stage' hrun
    obtain ⟨stage, hstage, hcalled⟩ := noteReads_running hrun
    exact hcalled (h.called e stage hstage)
  covered := by
    intro hrunning e he hcursor
    by_cases hed : e = d
    · subst hed
      apply Covered.behind
      simp only [World.setSlot, update_self]
      exact hbehind
    · have hslots : ((w.noteReads d note).setSlot d s).slots e = w.slots e := by
        change update w.slots d s e = w.slots e
        exact update_of_ne hed ..
      refine (h.covered hrunning e he hcursor).mono hslots rfl ?_ ?_ ?_ (fun _ hcall => hcall)
      · intro hmem
        exact .queued hmem
      · intro stage hrun hserves
        exact .serving stage (noteReads_running_of_ne hrun hed) (hslots ▸ hserves)
      · intro hdoor
        exact .enqueuing (noteReads_enqueuing hdoor)

theorem Inv.doorbellMoves (h : Inv w) {door : Doorbell} {scanStart : Slot}
    (hcharge : doorbellCharge door = doorbellCharge w.doorbell)
    (hconfirming : ∀ e reading, door = .confirming e reading →
      ∀ frame ∈ reading.seen, frame ≤ (w.slots e).frame)
    (henqueuing : ∀ e, Enqueuing w e →
      Covered { w with nextScanStart := scanStart, doorbell := door } e) :
    Inv { w with nextScanStart := scanStart, doorbell := door } where
  cursor_le := h.cursor_le
  confirming := hconfirming
  flags e := by
    have hcharged : charged { w with nextScanStart := scanStart, doorbell := door } =
        charged w := by
      simp only [charged, hcharge]
    rw [hcharged]
    exact h.flags e
  called := h.called
  covered := by
    intro hrunning e he hcursor
    exact (h.covered hrunning e he hcursor).sameBlocks rfl rfl rfl rfl rfl (henqueuing e)

theorem Inv.scanNext (h : Inv w) (hcharge : doorbellCharge w.doorbell = [])
    (hnone : ∀ e, ¬ Enqueuing w e) (offset : Nat) : Inv (w.scanNext offset) := by
  unfold World.scanNext
  split
  · exact h.doorbellMoves hcharge.symm nofun fun e hdoor => absurd hdoor (hnone e)
  · exact h.doorbellMoves hcharge.symm nofun fun e hdoor => absurd hdoor (hnone e)

theorem Inv.scanAnswered (h : Inv w) (hcharge : doorbellCharge w.doorbell = [])
    (hnone : ∀ e, ¬ Enqueuing w e) (offset : Nat) (answer : Answer) :
    Inv (w.scanAnswered offset answer) := by
  cases answer with
  | failed => exact h.scanNext hcharge hnone (offset + 1)
  | frame number =>
    unfold World.scanAnswered
    dsimp only
    split
    · refine h.doorbellMoves hcharge.symm ?_ fun e hdoor => absurd hdoor (hnone e)
      intro e reading hdoor
      cases hdoor
      exact seen_begin_le _
    · exact h.scanNext hcharge hnone (offset + 1)

/-- The loop takes over the frame it has read, and goes on to queue a block. -/
theorem Inv.confirmAnswered (h : Inv w) {reading : Reading}
    (hdoor : w.doorbell = .confirming d reading) {answer : Answer}
    (hanswer : reading.mayAnswer answer = true) : Inv (w.confirmAnswered d answer) := by
  have hnone : ∀ e, ¬ Enqueuing w e := by
    intro e hdoor'
    simp [Enqueuing, hdoor] at hdoor'
  have hcharge : doorbellCharge w.doorbell = [] := by rw [hdoor]; rfl
  cases answer with
  | failed => exact h.doorbellMoves hcharge.symm nofun fun e hdoor => absurd hdoor (hnone e)
  | frame number =>
    have hle : number ≤ (w.slots d).frame := by
      apply h.confirming d reading hdoor
      simp [Reading.mayAnswer] at hanswer
      exact hanswer.2
    refine ⟨?_, ?_, ?_, h.called, ?_⟩
    · intro e
      change update w.lastFrames d number e ≤ (w.slots e).frame
      by_cases he : e = d
      · subst he
        rw [update_self]
        exact hle
      · rw [update_of_ne he]
        exact h.cursor_le e
    · intro e reading' hdoor'
      simp only [World.confirmAnswered] at hdoor'
      split at hdoor' <;> cases hdoor'
    · intro e
      have hcharged : charged (w.confirmAnswered d (.frame number)) = charged w := by
        simp only [charged, World.confirmAnswered, hcharge]
        split <;> rfl
      rw [hcharged]
      exact h.flags e
    · intro hrunning e he hcursor
      by_cases hed : e = d
      · subst hed
        apply Covered.enqueuing
        left
        simp only [World.confirmAnswered, he, if_false]
      · have hsame : update w.lastFrames d number e = w.lastFrames e := update_of_ne hed _ _
        change update w.lastFrames d number e ≠ 0 at hcursor
        rw [hsame] at hcursor
        exact (h.covered hrunning e he hcursor).sameBlocks rfl hsame rfl rfl rfl
          (fun hdoor' => absurd hdoor' (hnone e))

theorem count_charge {charges charges' : List Slot} {pending : Slot → Bool}
    (h : ∀ e, charges.count e = (pending e).toNat) (hd : ¬ pending d = true)
    (hcharges : ∀ e, charges'.count e = charges.count e + [d].count e) (e : Slot) :
    charges'.count e = (update pending d true e).toNat := by
  rw [hcharges, h]
  by_cases he : e = d
  · subst he
    simp [hd]
  · simp [he, Ne.symm he]

theorem Inv.exchanging (h : Inv w) (hdoor : w.doorbell = .exchanging d)
    (hd : ¬ w.framePresentationPending d = true) :
    Inv { w with
      framePresentationPending := update w.framePresentationPending d true
      doorbell := .dispatching d } where
  cursor_le := h.cursor_le
  confirming := nofun
  flags := by
    apply count_charge h.flags hd
    intro e
    simp only [charged, hdoor, doorbellCharge, List.count_append, List.count_nil]
    omega
  called := h.called
  covered := by
    intro hrunning e he hcursor
    refine (h.covered hrunning e he hcursor).sameBlocks rfl rfl rfl rfl rfl ?_
    intro hdoor'
    obtain heq | heq := hdoor'
    · rw [hdoor] at heq
      cases heq
      exact .enqueuing (.inr rfl)
    · rw [hdoor] at heq
      cases heq

theorem Inv.dispatching (h : Inv w) (hdoor : w.doorbell = .dispatching d) :
    Inv { w with mainQueue := w.mainQueue ++ [d], doorbell := .idle } where
  cursor_le := h.cursor_le
  confirming := nofun
  flags e := by
    rw [← h.flags e]
    simp only [charged, hdoor, doorbellCharge, List.count_append, List.count_nil]
    omega
  called := h.called
  covered := by
    intro hrunning e he hcursor
    refine (h.covered hrunning e he hcursor).mono rfl rfl ?_ ?_ ?_ (fun _ hcall => hcall)
    · intro hmem
      exact .queued (List.mem_append_left _ hmem)
    · intro stage hrun hserves
      exact .serving stage hrun hserves
    · intro hdoor'
      obtain heq | heq := hdoor'
      · rw [hdoor] at heq
        cases heq
      · rw [hdoor] at heq
        cases heq
        exact .queued (List.mem_append_right _ List.mem_cons_self)

theorem Inv.doorbellStep (h : Inv w) {answer : Answer} (hstep : w.doorbellStep answer = some w') :
    Inv w' := by
  unfold World.doorbellStep at hstep
  split at hstep
  · rename_i hdoor
    cases hstep
    exact h.scanNext (by rw [hdoor]; rfl) (by simp [Enqueuing, hdoor]) 0
  · rename_i offset reading hdoor
    split at hstep <;> cases hstep
    exact h.scanAnswered (by rw [hdoor]; rfl) (by simp [Enqueuing, hdoor]) offset answer
  · rename_i displayId reading hdoor
    split at hstep <;> cases hstep
    rename_i hanswer
    exact h.confirmAnswered hdoor hanswer
  · rename_i displayId hdoor
    split at hstep
    · rename_i hpending
      cases hstep
      refine h.doorbellMoves (by rw [hdoor]; rfl) nofun ?_
      intro e hdoor'
      have he : e = displayId := by simpa [Enqueuing, hdoor, eq_comm] using hdoor'
      subst he
      -- the flag is set, so the block that is under way looks at the slot later
      obtain hmem | ⟨stage, hrun, hflag⟩ | hdispatching := h.of_pending hpending
      · exact .queued hmem
      · exact .serving stage hrun (Stage.serves_of_holdsFlag hflag _)
      · rw [hdoor] at hdispatching
        cases hdispatching
    · rename_i hpending
      cases hstep
      exact h.exchanging hdoor hpending
  · rename_i displayId hdoor
    cases hstep
    exact h.dispatching hdoor

end FramePresentation
end MacMu
