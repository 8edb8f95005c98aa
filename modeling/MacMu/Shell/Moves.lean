import MacMu.Shell.MainQueue

/-!
What a block can do to the display bookkeeping, said once. Every method is a
chain of small moves: forget a binding, give an id back, mark a removal, and
changes that leave the bookkeeping alone. Binding a display, dropping a removal
mark and changing a profile are not such moves; the blocks that do one of these
are described exactly. Invariants of the main queue are proved against the
moves, not against the methods.
-/

namespace MacMu

open Std ControlProtocol ControlRoundTrip Relation

/-- Effects that say nothing about which displays exist or how large they are. -/
def Effect.Incidental : Effect → Prop
  | .launchDisplayAdd .. | .resizeDisplayAdd .. | .displayRemove _ => False
  | _ => True

structure SameDisplays (s t : AppDelegate) : Prop where
  bindings : t.displayAppBindings = s.displayAppBindings
  apps : t.appDisplayBindings = s.appDisplayBindings
  active : t.activeUserDisplayIds = s.activeUserDisplayIds
  removing : t.displayRemovalPending = s.displayRemovalPending
  profiles : t.displayLaunchProfiles = s.displayLaunchProfiles
  resizing : t.displayResizePending = s.displayResizePending

def UserRange (displayId : UInt32) : Prop := displayId ≠ 0 ∧ displayId ≤ kMaxUserDisplayId

inductive Move : AppDelegate → AppDelegate → Prop where
  | tidy {s t : AppDelegate} (same : SameDisplays s t) (effects : List Effect)
      (outbox : t.outbox = s.outbox ++ effects)
      (incidental : ∀ e ∈ effects, e.Incidental) : Move s t
  | unbind (s : AppDelegate) (displayId : UInt32) :
      Move s (s.unbindApplicationFromDisplay displayId)
  | release (s : AppDelegate) (displayId : UInt32)
      (unbound : displayId ∉ s.displayAppBindings) : Move s (s.releaseUserDisplayId displayId)
  | activate (s : AppDelegate) (displayId : UInt32) (bound : displayId ∈ s.displayAppBindings) :
      Move s { s with activeUserDisplayIds := s.activeUserDisplayIds.insert displayId }
  | markRemoval (s : AppDelegate) (displayId : UInt32) (range : UserRange displayId)
      (fresh : displayId ∉ s.displayRemovalPending) :
      Move s { s with displayRemovalPending := s.displayRemovalPending.insert displayId }
  | sendRemoval (s : AppDelegate) (displayId : UInt32) (range : UserRange displayId)
      (fresh : displayId ∉ s.displayRemovalPending) :
      Move s ({ s with
        displayRemovalPending := s.displayRemovalPending.insert displayId }.send
          (.displayRemove displayId))

def Moves : AppDelegate → AppDelegate → Prop := ReflTransGen Move

namespace Moves

@[refl]
theorem refl (s : AppDelegate) : Moves s s := ReflTransGen.refl

theorem trans {s t u : AppDelegate} (h : Moves s t) (k : Moves t u) : Moves s u :=
  ReflTransGen.trans h k

theorem of_move {s t : AppDelegate} (h : Move s t) : Moves s t := ReflTransGen.single h

theorem of_same {s t : AppDelegate} (same : SameDisplays s t := by constructor <;> rfl)
    (outbox : t.outbox = s.outbox := by rfl) : Moves s t :=
  of_move (.tidy same [] (by rw [outbox, List.append_nil]) (fun _ h => absurd h List.not_mem_nil))

theorem after_same {s t u : AppDelegate} (h : Moves t u)
    (same : SameDisplays s t := by constructor <;> rfl)
    (outbox : t.outbox = s.outbox := by rfl) : Moves s u :=
  (of_same same outbox).trans h

theorem send {s : AppDelegate} {e : Effect} (h : e.Incidental) : Moves s (s.send e) :=
  of_move (.tidy ⟨rfl, rfl, rfl, rfl, rfl, rfl⟩ [e] rfl (fun _ he => List.mem_singleton.mp he ▸ h))

theorem foldl {α : Type} {f : AppDelegate → α → AppDelegate}
    (h : ∀ s a, Moves s (f s a)) (as : List α) (s : AppDelegate) : Moves s (as.foldl f s) := by
  induction as generalizing s with
  | nil => exact refl s
  | cons a as ih => exact (h s a).trans (ih (f s a))

end Moves

theorem not_mem_unbind (s : AppDelegate) (d : UInt32) :
    d ∉ (s.unbindApplicationFromDisplay d).displayAppBindings := by
  unfold AppDelegate.unbindApplicationFromDisplay
  split
  · rename_i h
    grind
  · grind

section Methods

variable (env : Surroundings) (s : AppDelegate)

section

variable (d : UInt32)

theorem moves_setDisplayStreaming (enabled : Bool) :
    Moves s (s.setDisplayStreaming env d enabled) := by
  unfold AppDelegate.setDisplayStreaming
  split
  · exact Moves.send trivial
  · rfl

theorem moves_unbind_release :
    Moves s ((s.unbindApplicationFromDisplay d).releaseUserDisplayId d) :=
  (Moves.of_move (.unbind s d)).trans (Moves.of_move (.release _ d (not_mem_unbind s d)))

/-- A removal request is dropped, or it marks the display, or it settles the
removal on the spot. -/
theorem requestDisplayRemove_cases :
    s.requestDisplayRemove env d = s ∧ (¬ UserRange d ∨ d ∈ s.displayRemovalPending) ∨
      UserRange d ∧ d ∉ s.displayRemovalPending ∧
        (s.requestDisplayRemove env d =
            { s with displayRemovalPending := s.displayRemovalPending.insert d }.send
              (.displayRemove d) ∨
          s.requestDisplayRemove env d =
            { s with displayRemovalPending := s.displayRemovalPending.insert d } ∨
          s.requestDisplayRemove env d =
            (s.unbindApplicationFromDisplay d).releaseUserDisplayId d) := by
  unfold AppDelegate.requestDisplayRemove
  split
  · rename_i hguard
    obtain hzero | hmax | hremoving := hguard
    · exact .inl ⟨rfl, .inl fun hrange => hrange.1 hzero⟩
    · exact .inl ⟨rfl, .inl fun hrange => absurd hmax (UInt32.not_lt.mpr hrange.2)⟩
    · exact .inl ⟨rfl, .inr hremoving⟩
  · rename_i hguard
    obtain ⟨hzero, hrest⟩ := not_or.mp hguard
    obtain ⟨hmax, hfresh⟩ := not_or.mp hrest
    refine .inr ⟨⟨hzero, UInt32.not_lt.mp hmax⟩, hfresh, ?_⟩
    dsimp only
    split
    · exact .inl rfl
    · split
      · exact .inr (.inl rfl)
      · -- the mark is taken back in the same block
        have hsame : (s.displayRemovalPending.insert d).erase d = s.displayRemovalPending := by
          apply ExtTreeSet.ext_mem
          intro k
          grind
        rw [hsame]
        exact .inr (.inr rfl)

theorem moves_requestDisplayRemove : Moves s (s.requestDisplayRemove env d) := by
  obtain ⟨heq, -⟩ | ⟨hrange, hfresh, heq | heq | heq⟩ := requestDisplayRemove_cases env s d
  · rw [heq]
  · rw [heq]
    exact Moves.of_move (.sendRemoval s d hrange hfresh)
  · rw [heq]
    exact Moves.of_move (.markRemoval s d hrange hfresh)
  · rw [heq]
    exact moves_unbind_release s d

theorem moves_openDisplayWindowForDisplay : Moves s (s.openDisplayWindowForDisplay env d) := by
  unfold AppDelegate.openDisplayWindowForDisplay
  split
  · rfl
  · split
    · rfl
    · rename_i component hbound
      split
      · rfl
      · split
        · rfl
        · split
          · exact moves_setDisplayStreaming ..
          · have hmem : d ∈ s.displayAppBindings := by grind
            refine Moves.trans ?_ (moves_setDisplayStreaming env _ d true)
            exact (Moves.of_move (.activate s d hmem)).trans (Moves.of_same)

theorem moves_closeBoundAppAndRemoveDisplay : Moves s (s.closeBoundAppAndRemoveDisplay env d) := by
  unfold AppDelegate.closeBoundAppAndRemoveDisplay
  split
  · rfl
  · split
    · exact moves_requestDisplayRemove env s d
    · rename_i component hbound
      dsimp only
      split
      · exact Moves.after_same (moves_requestDisplayRemove env _ d)
      · split
        · exact Moves.after_same (moves_openDisplayWindowForDisplay env _ d)
        · exact Moves.after_same (Moves.send trivial)

theorem moves_windowWillClose : Moves s (s.windowWillClose env d) := by
  unfold AppDelegate.windowWillClose
  split
  · rfl
  · split
    · rfl
    · refine (moves_setDisplayStreaming env s d false).trans ?_
      dsimp only
      split
      · split
        · exact Moves.after_same (Moves.of_move (.unbind _ d))
        · exact Moves.after_same (moves_unbind_release _ d)
      · exact Moves.after_same (moves_closeBoundAppAndRemoveDisplay env _ d)

theorem moves_closeSuppressed : Moves s (s.closeSuppressed env d) :=
  Moves.after_same (moves_windowWillClose env _ d)

theorem moves_rollback_of_unbound :
    Moves (s.unbindApplicationFromDisplay d) (s.rollbackApplicationDisplay env d) := by
  unfold AppDelegate.rollbackApplicationDisplay
  refine (moves_requestDisplayRemove env _ d).trans ?_
  dsimp only
  split
  · exact moves_closeSuppressed env _ d
  · rfl

theorem moves_rollbackApplicationDisplay : Moves s (s.rollbackApplicationDisplay env d) :=
  (Moves.of_move (.unbind s d)).trans (moves_rollback_of_unbound env s d)

theorem moves_cleanupFailedLaunchForDisplay (component : String) :
    Moves s (s.cleanupFailedLaunchForDisplay env d component) := by
  unfold AppDelegate.cleanupFailedLaunchForDisplay
  split
  · rfl
  · split
    · rfl
    · dsimp only
      split
      · exact Moves.after_same (Moves.send trivial)
      · exact Moves.of_same

end

theorem moves_launchComponent (component : String) (d : UInt32) :
    Moves s (s.launchComponent env component d) := by
  unfold AppDelegate.launchComponent
  split
  · rfl
  · split
    · exact Moves.send trivial
    · exact moves_cleanupFailedLaunchForDisplay ..

/-- A launch took the free id `d` for its application. -/
structure Launched (d : UInt32) (component : String) (profile : DisplayLaunchProfile)
    (s t : AppDelegate) : Prop where
  range : UserRange d
  inactive : d ∉ s.activeUserDisplayIds
  notRemoving : d ∉ s.displayRemovalPending
  unmapped : s.appDisplayBindings[packageFromComponent component]? = none
  bindings : t.displayAppBindings = s.displayAppBindings.insert d component
  apps : t.appDisplayBindings = s.appDisplayBindings.insert (packageFromComponent component) d
  active : t.activeUserDisplayIds = s.activeUserDisplayIds.insert d
  removing : t.displayRemovalPending = s.displayRemovalPending
  profiles : t.displayLaunchProfiles = s.displayLaunchProfiles.insert d profile
  resizing : t.displayResizePending = s.displayResizePending
  outbox : t.outbox = s.outbox ++ [.launchDisplayAdd
    ⟨d, profile.width, profile.height, profile.dpi, kNewDisplayFlags⟩ component
    (packageFromComponent component)]

/-- A resize of `d` was sent, with the profile set ahead of the answer. -/
structure Resized (d width height dpi : UInt32) (previous : DisplayLaunchProfile)
    (s t : AppDelegate) : Prop where
  range : UserRange d
  bound : d ∈ s.displayAppBindings
  idle : d ∉ s.displayResizePending
  notRemoving : d ∉ s.displayRemovalPending
  profile : s.displayLaunchProfiles[d]? = some previous
  positive : width ≠ 0 ∧ height ≠ 0 ∧ dpi ≠ 0
  bindings : t.displayAppBindings = s.displayAppBindings
  apps : t.appDisplayBindings = s.appDisplayBindings
  active : t.activeUserDisplayIds = s.activeUserDisplayIds
  removing : t.displayRemovalPending = s.displayRemovalPending
  profiles : t.displayLaunchProfiles =
    s.displayLaunchProfiles.insert d ⟨previous.title, width, height, dpi⟩
  resizing : t.displayResizePending = s.displayResizePending.insert d
  outbox : t.outbox = s.outbox ++
    [.resizeDisplayAdd ⟨d, width, height, dpi, kNewDisplayFlags⟩ previous]

theorem freeUserDisplayId_some {d : UInt32} (h : s.freeUserDisplayId = some d) :
    UserRange d ∧ d ∉ s.activeUserDisplayIds ∧ d ∉ s.displayRemovalPending := by
  have hmem := List.mem_of_find?_eq_some h
  have hfree := List.find?_some h
  simp only [Bool.and_eq_true, Bool.not_eq_true', Bool.eq_false_iff, ne_eq,
    ExtTreeSet.contains_iff_mem] at hfree
  refine ⟨?_, hfree⟩
  simp only [List.mem_cons, List.not_mem_nil, or_false] at hmem
  rcases hmem with rfl | rfl | rfl | rfl | rfl <;> exact ⟨by decide, by decide⟩

theorem launch_moves_or_launched (component : String) (profile : DisplayLaunchProfile)
    (matchesScreen : Bool) :
    Moves s (s.launchApplicationComponent env component profile matchesScreen) ∨
      ∃ d, Launched d component profile s
        (s.launchApplicationComponent env component profile matchesScreen) := by
  unfold AppDelegate.launchApplicationComponent
  split
  · exact .inl (Moves.refl s)
  · dsimp only
    split
    · exact .inl (Moves.refl s)
    · split
      · rename_i existing _
        split
        · exact .inl (Moves.refl s)
        · split
          · exact .inl (moves_setDisplayStreaming env s existing true)
          · exact .inl (Moves.refl s)
      · rename_i hunmapped
        split
        · exact .inl (Moves.refl s)
        · unfold AppDelegate.allocateUserDisplayId
          cases hfree : s.freeUserDisplayId with
          | none => exact .inl (Moves.refl s)
          | some d =>
            obtain ⟨hrange, hinactive, hkept⟩ := freeUserDisplayId_some s hfree
            simp only [hrange.1, if_false]
            exact .inr ⟨d, hrange, hinactive, hkept, hunmapped, rfl, rfl, rfl, rfl, rfl, rfl, rfl⟩

theorem resize_same_or_resized (d width height dpi : UInt32) :
    s.resizeDisplay env d width height dpi = s ∨
      ∃ previous, Resized d width height dpi previous s
        (s.resizeDisplay env d width height dpi) := by
  unfold AppDelegate.resizeDisplay
  split
  · exact .inl rfl
  · rename_i hguard
    simp only [not_or, not_not] at hguard
    obtain ⟨-, hzero, hmax, hw, hh, hdpi, hidle, hkept, hbound⟩ := hguard
    split
    · exact .inl rfl
    · rename_i previous hprofile
      split
      · exact .inl rfl
      · split
        · exact .inl rfl
        · exact .inr ⟨previous, ⟨hzero, UInt32.not_lt.mp hmax⟩, hbound, hidle, hkept, hprofile,
            ⟨hw, hh, hdpi⟩, rfl, rfl, rfl, rfl, rfl, rfl, rfl⟩

theorem moves_launchAddResponse (component packageName : String) (d : UInt32)
    (response : Response) : Moves s (s.launchAddResponse env component packageName d response) := by
  unfold AppDelegate.launchAddResponse
  split
  · split
    · exact moves_unbind_release s d
    · exact moves_rollbackApplicationDisplay env s d
  · split
    · exact moves_rollbackApplicationDisplay env s d
    · dsimp only
      split
      · exact moves_requestDisplayRemove env s _
      · split
        · exact (moves_rollbackApplicationDisplay env s d).trans
            (moves_requestDisplayRemove env _ _)
        · refine (moves_openDisplayWindowForDisplay env s (displayIdOfBytes response.payload)).trans ?_
          split
          · exact moves_rollbackApplicationDisplay env _ _
          · exact Moves.send trivial

theorem moves_failedLaunch (component packageName : String) (d : UInt32) {response : Response}
    (hok : response.ok = false) :
    Moves (s.unbindApplicationFromDisplay d)
      (s.launchAddResponse env component packageName d response) := by
  rw [AppDelegate.launchAddResponse, if_pos hok]
  split
  · exact Moves.of_move (.release _ d (not_mem_unbind s d))
  · exact moves_rollback_of_unbound env s d

theorem moves_launchHandoff (component packageName : String) (d : UInt32) :
    Moves s (s.launchHandoff env component packageName d) := by
  unfold AppDelegate.launchHandoff
  split
  · exact Moves.after_same (moves_launchComponent env _ component d)
  · rfl

theorem moves_launchResponse (component : String) (d : UInt32) (ok : Bool) (payload : String) :
    Moves s (s.launchResponse env component d ok payload) := by
  unfold AppDelegate.launchResponse
  dsimp only
  split
  · exact Moves.of_same
  · split
    · split <;> exact Moves.of_same
    · split
      · exact Moves.after_same (moves_cleanupFailedLaunchForDisplay env _ d component)
      · exact Moves.of_same

theorem moves_closeResponse (component packageName : String) (d : UInt32) (ok : Bool) :
    Moves s (s.closeResponse env component packageName d ok) := by
  unfold AppDelegate.closeResponse
  split
  · rfl
  · split
    · exact moves_requestDisplayRemove env s d
    · split
      · exact moves_requestDisplayRemove env s d
      · exact Moves.after_same (moves_openDisplayWindowForDisplay env _ d)

theorem moves_cleanupResponse (component : String) (d : UInt32) (ok : Bool) :
    Moves s (s.cleanupResponse env component d ok) := by
  unfold AppDelegate.cleanupResponse
  split
  · rfl
  · exact Moves.after_same (moves_rollbackApplicationDisplay env _ d)

theorem moves_agentConnection (connected : Bool) : Moves s (s.agentConnection env connected) := by
  unfold AppDelegate.agentConnection
  split
  · rfl
  · dsimp only
    split
    · refine Moves.after_same (Moves.foldl ?_ _ _)
      intro t cleanup
      exact moves_cleanupFailedLaunchForDisplay ..
    · exact Moves.of_same

theorem moves_setDisplayStreamingForWindow (d : UInt32) (enabled : Bool) :
    Moves s (s.setDisplayStreamingForWindow env d enabled) := by
  unfold AppDelegate.setDisplayStreamingForWindow
  split
  · rfl
  · split
    · exact moves_setDisplayStreaming ..
    · rfl

theorem moves_presentFrameForDisplay (d : UInt32) : Moves s (s.presentFrameForDisplay env d) := by
  unfold AppDelegate.presentFrameForDisplay
  split
  · rfl
  · split
    · rfl
    · exact moves_openDisplayWindowForDisplay env s d

theorem moves_restoreDisplaySubscriptions : Moves s (s.restoreDisplaySubscriptions env) := by
  apply Moves.foldl
  intro t d
  split
  · exact moves_setDisplayStreaming ..
  · rfl

theorem moves_pollFocusedApplicationOrientation :
    Moves s (s.pollFocusedApplicationOrientation env) := by
  unfold AppDelegate.pollFocusedApplicationOrientation
  dsimp only
  split
  · rfl
  · split
    · exact Moves.after_same (Moves.send trivial)
    · split
      · rfl
      · exact Moves.after_same (Moves.send trivial)

end Methods

def Block.Resizing : Block → Prop
  | .rotateFocused | .changedScreen .. | .orientationResponse .. => True
  | _ => False

def MovesOrResize (s t : AppDelegate) : Prop :=
  Moves s t ∨ ∃ d width height dpi previous u v, Moves s u ∧
    Resized d width height dpi previous u v ∧ Moves v t

theorem movesOrResize_resizeDisplay (env : Surroundings) (s : AppDelegate)
    (d width height dpi : UInt32) :
    MovesOrResize s (s.resizeDisplay env d width height dpi) := by
  rcases resize_same_or_resized env s d width height dpi with h | ⟨previous, h⟩
  · rw [h]
    exact .inl (Moves.refl s)
  · exact .inr ⟨d, width, height, dpi, previous, s, _, Moves.refl s, h, Moves.refl _⟩

theorem MovesOrResize.trans_moves {s t u : AppDelegate} (h : MovesOrResize s t)
    (k : Moves t u) : MovesOrResize s u := by
  rcases h with h | ⟨d, width, height, dpi, previous, v, w, hbefore, hresize, hafter⟩
  · exact .inl (h.trans k)
  · exact .inr ⟨d, width, height, dpi, previous, v, w, hbefore, hresize, hafter.trans k⟩

theorem MovesOrResize.after {s t u : AppDelegate} (k : MovesOrResize t u) (h : Moves s t) :
    MovesOrResize s u := by
  rcases k with k | ⟨d, width, height, dpi, previous, v, w, hbefore, hresize, hafter⟩
  · exact .inl (h.trans k)
  · exact .inr ⟨d, width, height, dpi, previous, v, w, h.trans hbefore, hresize, hafter⟩

section

variable (env : Surroundings)

section

variable (s : AppDelegate)

theorem movesOrResize_run {b : Block} (h : b.Resizing) : MovesOrResize s (s.run env b) := by
  cases b with
  | rotateFocused =>
    change MovesOrResize s (s.rotateFocusedApplication env)
    unfold AppDelegate.rotateFocusedApplication
    dsimp only
    split
    · exact .inl (Moves.refl s)
    · split
      · exact .inl (Moves.refl s)
      · exact movesOrResize_resizeDisplay env s _ _ _ _
  | changedScreen d target =>
    change MovesOrResize s (s.windowDidChangeScreen env d target)
    unfold AppDelegate.windowDidChangeScreen
    refine MovesOrResize.trans_moves ?_ (moves_setDisplayStreamingForWindow env _ d _)
    unfold AppDelegate.followScreen
    split
    · exact .inl (Moves.refl s)
    · split
      · exact .inl (Moves.refl s)
      · extract_lets width height
        split
        · exact movesOrResize_resizeDisplay env s d width height target.dpi
        · exact .inl (Moves.refl s)
  | orientationResponse d logical =>
    change MovesOrResize s (s.orientationResponse env d logical)
    unfold AppDelegate.orientationResponse
    apply MovesOrResize.after (t :=
      { s with orientationPollInFlight := s.orientationPollInFlight.erase d })
    · dsimp only
      split
      · exact .inl (Moves.refl _)
      · split
        · exact .inl (Moves.refl _)
        · split
          · exact .inl (Moves.refl _)
          · split
            · exact .inl (Moves.refl _)
            · exact movesOrResize_resizeDisplay env _ _ _ _ _
    · exact Moves.of_same
  | _ => exact h.elim

theorem moves_displayAdded_unbound {event : ControlEventDisplay}
    (h : event.displayId ∉ s.displayAppBindings) :
    Moves s (s.displayAdded env event) := by
  rw [AppDelegate.displayAdded, if_pos h]
  exact moves_requestDisplayRemove ..

theorem moves_displayAdded_bound {event : ControlEventDisplay}
    (h : event.displayId ∈ s.displayAppBindings) :
    Moves (s.followEvent event) (s.displayAdded env event) := by
  rw [AppDelegate.displayAdded, if_neg (not_not.mpr h)]
  exact moves_openDisplayWindowForDisplay ..

theorem moves_displayRemoved_of_unbound (d : UInt32) : Moves ({ s with
      displayRemovalPending := s.displayRemovalPending.erase d }.unbindApplicationFromDisplay d)
      (s.displayRemoved env d) := by
  unfold AppDelegate.displayRemoved
  dsimp only
  split
  · exact moves_closeSuppressed env _ d
  · exact Moves.of_move (.release _ d (not_mem_unbind _ d))

theorem moves_displayRemoved (d : UInt32) :
    Moves { s with displayRemovalPending := s.displayRemovalPending.erase d }
      (s.displayRemoved env d) :=
  (Moves.of_move (.unbind _ d)).trans (moves_displayRemoved_of_unbound env s d)

end

end

/-- The frame is a display event and the shell still handles events. -/
structure EventHandled (s : AppDelegate) (type : UInt16) (payload : List UInt8) : Prop where
  running : s.shuttingDown = false
  type_eq : type = ControlMessageType.kEventDisplay.code
  size_le : ControlEventDisplay.size ≤ payload.length
  range : UserRange (ControlEventDisplay.ofBytes payload).displayId

/-- A control event is dropped, or it is DISPLAY_ADDED or DISPLAY_REMOVED for a
user display. -/
theorem handleControlEvent_cases (env : Surroundings) (s : AppDelegate) (type : UInt16)
    (payload : List UInt8) :
    s.handleControlEvent env type payload = s ∨
      (EventHandled s type payload ∧
        ((ControlEventDisplay.ofBytes payload).state = kControlDisplayAdded ∧
            s.handleControlEvent env type payload =
              s.displayAdded env (ControlEventDisplay.ofBytes payload) ∨
          (ControlEventDisplay.ofBytes payload).state = kControlDisplayRemoved ∧
            s.handleControlEvent env type payload =
              s.displayRemoved env (ControlEventDisplay.ofBytes payload).displayId)) := by
  unfold AppDelegate.handleControlEvent
  split
  · exact .inl rfl
  · rename_i hrunning
    split
    · exact .inl rfl
    · rename_i hframe
      dsimp only
      split
      · exact .inl rfl
      · rename_i hrange
        have handled : EventHandled s type payload := by
          obtain ⟨htype, hsize⟩ := not_or.mp hframe
          obtain ⟨hzero, hmax⟩ := not_or.mp hrange
          exact ⟨Bool.eq_false_iff.mpr hrunning, not_not.mp htype, Nat.not_lt.mp hsize,
            hzero, UInt32.not_lt.mp hmax⟩
        split
        · rename_i hadded
          exact .inr ⟨handled, .inl ⟨hadded, rfl⟩⟩
        · split
          · rename_i hremoved
            exact .inr ⟨handled, .inr ⟨hremoved, rfl⟩⟩
          · exact .inl rfl

def Block.Plain : Block → Prop
  | .launch .. | .controlEvent .. | .resizeResponse .. | .rotateFocused | .changedScreen ..
  | .orientationResponse .. | .qemuExited => False
  | _ => True

theorem moves_run (env : Surroundings) (s : AppDelegate) {b : Block} (h : b.Plain) :
    Moves s (s.run env b) := by
  cases b with
  | launch | controlEvent | resizeResponse | rotateFocused | changedScreen
  | orientationResponse | qemuExited => exact h.elim
  | windowClosed d => exact moves_windowWillClose env s d
  | launchAddResponse component packageName d response =>
    exact moves_launchAddResponse env s component packageName d response
  | launchHandoff component packageName d =>
    exact moves_launchHandoff env s component packageName d
  | launchResponse component d ok payload =>
    exact moves_launchResponse env s component d ok payload
  | closeResponse component packageName d ok =>
    exact moves_closeResponse env s component packageName d ok
  | cleanupResponse component d ok => exact moves_cleanupResponse env s component d ok
  | agentConnection connected => exact moves_agentConnection env s connected
  | streamWindow d enabled => exact moves_setDisplayStreamingForWindow env s d enabled
  | pollOrientation => exact moves_pollFocusedApplicationOrientation env s
  | presentFrame d => exact moves_presentFrameForDisplay env s d
  | restoreSubscriptions => exact moves_restoreDisplaySubscriptions env s
  | uninstallAccepted packageName =>
    change Moves s (s.uninstallAccepted env packageName)
    unfold AppDelegate.uninstallAccepted
    split
    · rfl
    · exact Moves.after_same (Moves.send trivial)
  | uninstallResponse packageName =>
    change Moves s (s.uninstallResponse packageName)
    unfold AppDelegate.uninstallResponse
    split
    · rfl
    · exact Moves.of_same
  | installApks count =>
    change Moves s (s.installApkURLs env count)
    unfold AppDelegate.installApkURLs
    split
    · rfl
    · exact Moves.of_same
  | apkInstallFinished =>
    change Moves s s.apkInstallFinished
    unfold AppDelegate.apkInstallFinished
    split
    · rfl
    · exact Moves.of_same
  | beginTermination | shutdownRuntime =>
    exact Moves.of_same

end MacMu
