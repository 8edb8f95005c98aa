import MacMu.Shell.ClosingOwners

/-!
Every block of the main queue leaves each closing package with an owner, and so
does every run. The completions and events that use an owner up come first;
most other blocks neither close an application nor take an owner away.
-/

namespace MacMu
namespace ClosingOwners

open Std ControlProtocol TransitionSystem DisplayBijection

section Blocks

variable {closes : List CloseRequest} {excused : Option String} {s t : AppDelegate}
variable (env : Surroundings)

theorem Inv.launchAddResponse (h : Inv closes none s) (component packageName : String)
    (d : UInt32) (response : ControlRoundTrip.Response) :
    Inv closes none (s.launchAddResponse env component packageName d response) := by
  unfold AppDelegate.launchAddResponse
  split
  · split
    · exact h.unbindRelease (excusedAt_none s d)
    · exact h.rollbackApplicationDisplay env (excusedAt_none s d)
  · split
    · exact h.rollbackApplicationDisplay env (excusedAt_none s d)
    · dsimp only
      split
      · exact h.requestDisplayRemove env (excusedAt_none s _)
      · split
        · exact (h.rollbackApplicationDisplay env (excusedAt_none s d)).requestDisplayRemove env
            (excusedAt_none _ _)
        · have hopened := h.openDisplayWindowForDisplay env (displayIdOfBytes response.payload)
          split
          · exact hopened.rollbackApplicationDisplay env (excusedAt_none _ _)
          · exact hopened.keepMoves (Keeps.send rfl) (Moves.send trivial)

theorem Inv.launchHandoff (h : Inv closes none s) (component packageName : String)
    (d : UInt32) : Inv closes none (s.launchHandoff env component packageName d) := by
  unfold AppDelegate.launchHandoff
  split
  · apply Inv.launchComponent
    exact h.tidy
  · exact h

theorem Inv.launchResponse (h : Inv closes none s) (component : String) (d : UInt32)
    (ok : Bool) (payload : String) :
    Inv closes none (s.launchResponse env component d ok payload) := by
  have hanswered : Inv closes none { s with
      launchRequestsInFlight :=
        s.launchRequestsInFlight.erase (packageFromComponent component) } :=
    h.tidy
  unfold AppDelegate.launchResponse
  dsimp only
  split
  · exact hanswered
  · split
    · split
      · exact hanswered.tidy
      · exact hanswered
    · split
      · exact hanswered.cleanupFailedLaunchForDisplay ..
      · exact hanswered.tidy

theorem Owner.complete {p : String} {d : UInt32} {c : String} (h : Owner closes s p d c)
    {r : CloseRequest} (hne : ⟨c, p, d⟩ ≠ r) : Owner (closes.erase r) s p d c := by
  refine ⟨h.bound, h.package, h.awaited.imp_left fun hsent => ?_⟩
  obtain hsent | hsent := List.mem_append.mp hsent
  · exact List.mem_append_left _ ((List.mem_erase_of_ne hne).mpr hsent)
  · exact List.mem_append_right _ hsent

theorem Inv.complete (h : Inv closes none s) (r : CloseRequest) :
    Inv (closes.erase r) (some r.packageName) s where
  bijective := h.bijective
  named := by
    intro q hq
    apply h.named q
    obtain hq | hq := List.mem_append.mp hq
    · exact List.mem_append_left _ (List.mem_of_mem_erase hq)
    · exact List.mem_append_right _ hq
  owned := by
    intro p hp hne
    obtain ⟨d, c, howner⟩ := h.owned p hp (nomatch ·)
    refine ⟨d, c, howner.complete ?_⟩
    intro heq
    exact hne (congrArg (some ∘ CloseRequest.packageName) heq)

theorem Inv.completeUnbound (h : Inv closes none s) (r : CloseRequest)
    (hunbound : s.displayAppBindings[r.displayId]? ≠ some r.component) :
    Inv (closes.erase r) none s := by
  refine ⟨h.bijective, (h.complete r).named, ?_⟩
  intro p hp _
  obtain ⟨d, c, howner⟩ := h.owned p hp (nomatch ·)
  refine ⟨d, c, howner.complete ?_⟩
  intro heq
  subst heq
  exact hunbound howner.bound

theorem Inv.leave {p : String} (h : Inv closes (some p) s) :
    Inv closes none { s with closingAppPackages := s.closingAppPackages.erase p } := by
  have hkept : Inv closes (some p)
      { s with closingAppPackages := s.closingAppPackages.erase p } := by
    refine h.tidy ⟨?_, fun _ _ hc => hc, fun _ hd => hd, rfl, rfl⟩
    intro q hq
    exact ExtTreeSet.mem_of_mem_erase hq
  refine ⟨hkept.bijective, hkept.named, ?_⟩
  intro q hq _
  apply hkept.owned q hq
  intro heq
  cases heq
  grind

theorem Inv.closeResponse (h : Inv closes none s) {component packageName : String}
    {d : UInt32} (hr : ⟨component, packageName, d⟩ ∈ closes) (ok : Bool) :
    Inv (closes.erase ⟨component, packageName, d⟩) none
      (s.closeResponse env component packageName d ok) := by
  have hname := h.named _ (List.mem_append_left _ hr)
  have hcomplete := h.complete ⟨component, packageName, d⟩
  unfold AppDelegate.closeResponse
  split
  · rename_i hunbound
    exact h.completeUnbound _ hunbound
  · rename_i hbound
    have hexcused : ExcusedAt (some packageName) s d := by
      intro p hp
      exact ⟨component, not_not.mp hbound, hname.symm.trans (Option.some.inj hp)⟩
    split
    · exact hcomplete.requestDisplayRemove env hexcused
    · split
      · exact hcomplete.requestDisplayRemove env hexcused
      · apply Inv.openDisplayWindowForDisplay
        exact hcomplete.leave

/-- The removal mark or the cleanup of the display `d` is dropped. -/
structure DropsAt (d : UInt32) (s t : AppDelegate) : Prop where
  closing : t.closingAppPackages = s.closingAppPackages
  bindings : t.displayAppBindings = s.displayAppBindings
  removing : ∀ e ∈ s.displayRemovalPending, e ≠ d → e ∈ t.displayRemovalPending
  deferred : ∀ e : UInt32, e ≠ d → t.deferredLaunchCleanup[e]? = s.deferredLaunchCleanup[e]?
  outbox : t.outbox = s.outbox

theorem Inv.drop (h : Inv closes none s) {d : UInt32} (k : DropsAt d s t) (hb : Bijective t) :
    Inv closes (s.displayAppBindings[d]?.map packageFromComponent) t where
  bijective := hb
  named := by
    intro r hr
    apply h.named r
    simpa only [requested, k.outbox] using hr
  owned := by
    intro p hp hne
    obtain ⟨e, c, hbound, hpackage, hawaited⟩ := h.owned p (k.closing ▸ hp) (by rintro ⟨⟩)
    have hother : e ≠ d := by
      intro heq
      rw [← heq, hbound, Option.map_some, hpackage] at hne
      exact hne rfl
    refine ⟨e, c, k.bindings ▸ hbound, hpackage, ?_⟩
    obtain hsent | hremoving | hdeferred := hawaited
    · apply Or.inl
      simpa only [requested, k.outbox] using hsent
    · exact .inr (.inl (k.removing e hremoving hother))
    · exact .inr (.inr ((k.deferred e hother).trans hdeferred))

theorem DropsAt.excusedAt {d : UInt32} (k : DropsAt d s t) :
    ExcusedAt (s.displayAppBindings[d]?.map packageFromComponent) t d := by
  intro p hp
  obtain ⟨c, hbound, hpackage⟩ := Option.map_eq_some_iff.mp hp
  exact ⟨c, k.bindings ▸ hbound, hpackage⟩

theorem Inv.cleanupResponse (h : Inv closes none s) (component : String) (d : UInt32)
    (ok : Bool) : Inv closes none (s.cleanupResponse env component d ok) := by
  unfold AppDelegate.cleanupResponse
  split
  · exact h
  · have hdrop : DropsAt d s
        { s with deferredLaunchCleanup := s.deferredLaunchCleanup.erase d } := by
      refine ⟨rfl, rfl, fun _ he _ => he, ?_, rfl⟩
      intro e hne
      grind
    have hdropped : Bijective
        { s with deferredLaunchCleanup := s.deferredLaunchCleanup.erase d } := by
      refine bijective_of_same ?_ h.bijective
      exact ⟨rfl, rfl, rfl, rfl, rfl, rfl⟩
    exact (h.drop hdrop hdropped).rollbackApplicationDisplay env hdrop.excusedAt

theorem Inv.displayRemoved (h : Inv closes none s) (d : UInt32) :
    Inv closes none (s.displayRemoved env d) := by
  have hdrop : DropsAt d s { s with displayRemovalPending := s.displayRemovalPending.erase d } := by
    refine ⟨rfl, rfl, ?_, fun _ _ => rfl, rfl⟩
    intro e he hne
    grind
  have hdropped : Bijective
      { s with displayRemovalPending := s.displayRemovalPending.erase d } := by
    refine ⟨h.bijective.mapped_iff, h.bijective.bound_active, h.bijective.bound_range, ?_⟩
    intro e he
    exact h.bijective.removing_range e (ExtTreeSet.mem_of_mem_erase he)
  have hunbound := (h.drop hdrop hdropped).unbind hdrop.excusedAt
  unfold AppDelegate.displayRemoved
  dsimp only
  split
  · exact hunbound.closeSuppressed env d
  · exact hunbound.keepMoves (keeps_release _ d) (Moves.of_move (.release _ d (not_mem_unbind _ d)))

theorem keeps_followEvent (s : AppDelegate) (event : ControlEventDisplay) :
    Keeps s (s.followEvent event) := by
  unfold AppDelegate.followEvent
  split
  · rfl
  · split
    · exact .of_same
    · rfl

section

variable (h : Inv closes none s)
include h

theorem Inv.displayAdded (event : ControlEventDisplay) :
    Inv closes none (s.displayAdded env event) := by
  unfold AppDelegate.displayAdded
  split
  · exact h.requestDisplayRemove env (excusedAt_none s _)
  · apply Inv.openDisplayWindowForDisplay
    exact h.keep (keeps_followEvent s event) (bijective_followEvent h.bijective event)

theorem Inv.handleControlEvent (type : UInt16) (payload : List UInt8) :
    Inv closes none (s.handleControlEvent env type payload) := by
  obtain heq | ⟨-, ⟨-, heq⟩ | ⟨-, heq⟩⟩ := handleControlEvent_cases ..
  · rw [heq]
    exact h
  · rw [heq]
    exact h.displayAdded env _
  · rw [heq]
    exact h.displayRemoved env _

theorem Inv.agentConnection (connected : Bool) :
    Inv closes none (s.agentConnection env connected) := by
  unfold AppDelegate.agentConnection
  split
  · exact h
  · have hconnected : Inv closes none { s with agentConnected := connected } :=
      h.tidy
    dsimp only
    split
    · exact hconnected.cleanups env _
    · exact hconnected

theorem Inv.launchApplicationComponent (component : String) (profile : DisplayLaunchProfile)
    (matchesScreen : Bool) :
    Inv closes none (s.launchApplicationComponent env component profile matchesScreen) := by
  refine h.keep ?_ (bijective_run env h.bijective (.launch component profile matchesScreen))
  unfold AppDelegate.launchApplicationComponent
  split
  · rfl
  · dsimp only
    split
    · rfl
    · split
      · split
        · rfl
        · split
          · exact keeps_setDisplayStreaming ..
          · rfl
      · split
        · rfl
        · unfold AppDelegate.allocateUserDisplayId
          cases hfree : s.freeUserDisplayId with
          | none => rfl
          | some d =>
            obtain ⟨hrange, hinactive, -⟩ := freeUserDisplayId_some s hfree
            simp only [hrange.1, if_false]
            refine Keeps.trans ?_ (Keeps.send rfl)
            refine ⟨fun _ hp => hp, ?_, fun _ he => he, rfl, rfl⟩
            intro e c hc
            have hother : e ≠ d := by
              intro heq
              exact hinactive (heq ▸ h.bijective.bound_active e c hc)
            grind

end

end Blocks

section Bystanders

variable (env : Surroundings) (s : AppDelegate)

theorem keeps_resizeDisplay (d width height dpi : UInt32) :
    Keeps s (s.resizeDisplay env d width height dpi) := by
  unfold AppDelegate.resizeDisplay
  split
  · rfl
  · split
    · rfl
    · split
      · rfl
      · split
        · rfl
        · exact (Keeps.of_same).trans (Keeps.send rfl)

theorem keeps_rotateFocusedApplication : Keeps s (s.rotateFocusedApplication env) := by
  unfold AppDelegate.rotateFocusedApplication
  dsimp only
  split
  · rfl
  · split
    · rfl
    · exact keeps_resizeDisplay ..

theorem keeps_setDisplayStreamingForWindow (d : UInt32) (enabled : Bool) :
    Keeps s (s.setDisplayStreamingForWindow env d enabled) := by
  unfold AppDelegate.setDisplayStreamingForWindow
  split
  · rfl
  · split
    · exact keeps_setDisplayStreaming ..
    · rfl

theorem keeps_followScreen (d : UInt32) (target : DisplayLaunchProfile) :
    Keeps s (s.followScreen env d target) := by
  unfold AppDelegate.followScreen
  split
  · rfl
  · split
    · rfl
    · extract_lets width height
      split
      · exact keeps_resizeDisplay ..
      · rfl

theorem keeps_pollFocusedApplicationOrientation :
    Keeps s (s.pollFocusedApplicationOrientation env) := by
  unfold AppDelegate.pollFocusedApplicationOrientation
  dsimp only
  split
  · rfl
  · split
    · exact (Keeps.of_same).trans (Keeps.send rfl)
    · split
      · rfl
      · exact (Keeps.of_same).trans (Keeps.send rfl)

theorem keeps_orientationResponse (d : UInt32) (logical : Option (UInt32 × UInt32)) :
    Keeps s (s.orientationResponse env d logical) := by
  have hpolled : Keeps s { s with orientationPollInFlight := s.orientationPollInFlight.erase d } :=
    .of_same
  unfold AppDelegate.orientationResponse
  dsimp only
  split
  · exact hpolled
  · split
    · exact hpolled
    · split
      · exact hpolled
      · split
        · exact hpolled
        · exact hpolled.trans (keeps_resizeDisplay env _ _ _ _ _)

theorem keeps_presentFrameForDisplay (d : UInt32) : Keeps s (s.presentFrameForDisplay env d) := by
  unfold AppDelegate.presentFrameForDisplay
  split
  · rfl
  · split
    · rfl
    · exact keeps_openDisplayWindowForDisplay env s d

theorem keeps_restoreDisplaySubscriptions : Keeps s (s.restoreDisplaySubscriptions env) := by
  apply Keeps.foldl
  intro t d
  split
  · exact keeps_setDisplayStreaming ..
  · rfl

theorem keeps_resizeResponse (d : UInt32) (previous : DisplayLaunchProfile)
    (response : ControlRoundTrip.Response) :
    Keeps s (s.resizeResponse d previous response) := by
  unfold AppDelegate.resizeResponse
  dsimp only
  split
  · exact .of_same
  · split <;> exact .of_same

end Bystanders

/-- The blocks that may close an application or take an owner away. -/
def Closing : Block → Prop
  | .windowClosed _ | .controlEvent .. | .launchAddResponse .. | .launchHandoff ..
  | .launchResponse .. | .closeResponse .. | .cleanupResponse .. | .agentConnection _
  | .launch .. | .qemuExited => True
  | _ => False

theorem keeps_run (env : Surroundings) (s : AppDelegate) {b : Block} (h : ¬ Closing b) :
    Keeps s (s.run env b) := by
  cases b with
  | windowClosed | controlEvent | launchAddResponse | launchHandoff | launchResponse
  | closeResponse | cleanupResponse | agentConnection | launch | qemuExited =>
    exact absurd trivial h
  | resizeResponse d previous response => exact keeps_resizeResponse ..
  | rotateFocused => exact keeps_rotateFocusedApplication env s
  | changedScreen d target =>
    exact (keeps_followScreen env s d target).trans (keeps_setDisplayStreamingForWindow env _ d _)
  | streamWindow d enabled => exact keeps_setDisplayStreamingForWindow ..
  | pollOrientation => exact keeps_pollFocusedApplicationOrientation env s
  | orientationResponse d logical => exact keeps_orientationResponse ..
  | presentFrame d => exact keeps_presentFrameForDisplay env s d
  | restoreSubscriptions => exact keeps_restoreDisplaySubscriptions env s
  | uninstallAccepted packageName =>
    change Keeps s (s.uninstallAccepted env packageName)
    unfold AppDelegate.uninstallAccepted
    split
    · rfl
    · exact (Keeps.of_same).trans (Keeps.send rfl)
  | uninstallResponse packageName =>
    change Keeps s (s.uninstallResponse packageName)
    unfold AppDelegate.uninstallResponse
    split
    · rfl
    · exact .of_same
  | installApks count =>
    change Keeps s (s.installApkURLs env count)
    unfold AppDelegate.installApkURLs
    split
    · rfl
    · exact .of_same
  | apkInstallFinished =>
    change Keeps s s.apkInstallFinished
    unfold AppDelegate.apkInstallFinished
    split
    · rfl
    · exact .of_same
  | beginTermination | shutdownRuntime => exact .of_same

variable {closes left : List CloseRequest}

theorem takeRequest_closeResponse {component packageName : String} {d : UInt32} {ok : Bool}
    (h : takeRequest closes (.closeResponse component packageName d ok) = some left) :
    ⟨component, packageName, d⟩ ∈ closes ∧
      left = closes.erase ⟨component, packageName, d⟩ := by
  simp only [takeRequest, completes] at h
  split at h
  · rename_i hmem
    exact ⟨hmem, (Option.some.inj h).symm⟩
  · cases h

theorem takeRequest_other {b : Block} (hb : completes b = none)
    (h : takeRequest closes b = some left) : left = closes := by
  simp only [takeRequest, hb] at h
  exact (Option.some.inj h).symm

theorem Inv.run_other (env : Surroundings) {s : AppDelegate} (h : Inv closes none s) {b : Block}
    (hb : completes b = none) : Inv closes none (s.run env b) := by
  by_cases hclosing : Closing b
  · cases b with
    | closeResponse => cases hb
    | windowClosed d => exact h.windowWillClose env d
    | controlEvent type payload => exact h.handleControlEvent ..
    | launchAddResponse component packageName d response =>
      exact h.launchAddResponse ..
    | launchHandoff component packageName d => exact h.launchHandoff ..
    | launchResponse component d ok payload => exact h.launchResponse ..
    | cleanupResponse component d ok => exact h.cleanupResponse ..
    | agentConnection connected => exact h.agentConnection ..
    | launch component profile matchesScreen =>
      exact h.launchApplicationComponent ..
    | qemuExited =>
      exact ⟨bijective_run env h.bijective .qemuExited, h.named,
        fun p hp _ => absurd hp ExtTreeSet.not_mem_empty⟩
    | _ => exact hclosing.elim
  · exact h.keep (keeps_run env s hclosing) (bijective_run env h.bijective b)

/-- Every block keeps the invariant, with the request it completes gone. -/
theorem Inv.run (env : Surroundings) {s : AppDelegate} (h : Inv closes none s) {b : Block}
    (htake : takeRequest closes b = some left) : Inv left none (s.run env b) := by
  cases b with
  | closeResponse component packageName d ok =>
    obtain ⟨hmem, rfl⟩ := takeRequest_closeResponse htake
    exact h.closeResponse env hmem ok
  | _ =>
    cases takeRequest_other rfl htake
    exact h.run_other env rfl

theorem Inv.finish {s : AppDelegate} (h : Inv closes none s) :
    Inv (closes ++ s.outbox.filterMap closeRequest) none { s with outbox := [] } := by
  have hrequested : requested (closes ++ s.outbox.filterMap closeRequest)
      { s with outbox := [] } = requested closes s := List.append_nil _
  refine ⟨?_, ?_, ?_⟩
  · refine bijective_of_same ?_ h.bijective
    exact ⟨rfl, rfl, rfl, rfl, rfl, rfl⟩
  · intro r hr
    exact h.named r (hrequested ▸ hr)
  · intro p hp hne
    obtain ⟨d, c, howner⟩ := h.owned p hp hne
    exact ⟨d, c, howner.bound, howner.package, hrequested ▸ howner.awaited⟩

theorem inv_of_reachable {q : MainQueue} (h : Reachable MainQueue.step {} q) :
    Inv q.closes none q.shell ∧ q.shell.outbox = [] := by
  refine Reachable.invariant (I := fun q => Inv q.closes none q.shell ∧ q.shell.outbox = []) ?_ ?_ h
  · intro q step q' hq hstep
    obtain ⟨left, htake, rfl⟩ := Option.map_eq_some_iff.mp hstep
    exact ⟨(hq.1.run step.1 htake).finish, rfl⟩
  · refine ⟨⟨bijective_initial, ?_, ?_⟩, rfl⟩
    · intro r hr
      exact absurd hr List.not_mem_nil
    · intro p hp _
      exact absurd hp ExtTreeSet.not_mem_empty

/-- Whatever blocks have run, a package that is closing is bound to a display,
and a `close` request for it there waits for its completion, or the display
awaits its removal, or a cleanup for its component is left for the agent. -/
theorem closing_package_owned {q : MainQueue} (h : Reachable MainQueue.step {} q) {p : String}
    (hp : p ∈ q.shell.closingAppPackages) :
    ∃ d c, q.shell.appDisplayBindings[p]? = some d ∧
      q.shell.displayAppBindings[d]? = some c ∧ packageFromComponent c = p ∧
      (⟨c, p, d⟩ ∈ q.closes ∨ d ∈ q.shell.displayRemovalPending ∨
        q.shell.deferredLaunchCleanup[d]? = some c) := by
  obtain ⟨hinv, houtbox⟩ := inv_of_reachable h
  obtain ⟨d, c, hbound, hpackage, hawaited⟩ := hinv.owned p hp (nomatch ·)
  refine ⟨d, c, (hinv.bijective.mapped_iff p d).mpr ⟨c, hbound, hpackage⟩, hbound, hpackage, ?_⟩
  simpa only [requested, houtbox, List.filterMap_nil, List.append_nil] using hawaited

/-- An application is opened and its window is closed again. -/
def openedAndClosed : List (Surroundings × Block) :=
  [(upSurroundings, .agentConnection true),
    (upSurroundings, .launch "org.example/.Main" ⟨"", 720, 1600, 320⟩ false),
    (upSurroundings, .launchAddResponse "org.example/.Main" "org.example" 1
      ⟨true, ControlMessageType.kDisplayAddOk.code, 0, [], displayIdBytes 1⟩),
    (upSurroundings, .launchHandoff "org.example/.Main" "org.example" 1),
    (upSurroundings, .launchResponse "org.example/.Main" 1 true ""),
    (upSurroundings, .windowClosed 1)]

theorem closing_package_owned_window_closed :
    ∃ q, exec MainQueue.step {} openedAndClosed = some q ∧
      q.closes = [⟨"org.example/.Main", "org.example", 1⟩] ∧
      ∃ d c, q.shell.appDisplayBindings["org.example"]? = some d ∧
        q.shell.displayAppBindings[d]? = some c := by
  have hfields : (exec MainQueue.step {} openedAndClosed).map (fun q =>
      (q.shell.closingAppPackages.contains "org.example", q.closes)) =
        some (true, [⟨"org.example/.Main", "org.example", 1⟩]) := by
    decide +kernel
  obtain ⟨q, hrun, hq⟩ := Option.map_eq_some_iff.mp hfields
  obtain ⟨hclosing, hcloses⟩ := Prod.mk.inj hq
  have hp : "org.example" ∈ q.shell.closingAppPackages :=
    ExtTreeSet.contains_iff_mem.mp hclosing
  obtain ⟨d, c, hmapped, hbound, -⟩ := closing_package_owned ⟨openedAndClosed, hrun⟩ hp
  exact ⟨q, hrun, hcloses, d, c, hmapped, hbound⟩

end ClosingOwners
end MacMu
