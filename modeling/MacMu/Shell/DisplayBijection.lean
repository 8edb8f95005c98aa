import MacMu.Shell.Moves

/-!
One application package owns at most one display, and one display at most one
application. The two maps of the delegate are inverse to each other up to the
package of a component, every bound id is active, and removal marks stay in the
user range, whatever blocks run in whatever order. An id that is handed out is
therefore never bound and never awaiting its removal.
-/

namespace MacMu
namespace DisplayBijection

open Std ControlProtocol TransitionSystem

variable {s t : AppDelegate} {d : UInt32}

structure Bijective (s : AppDelegate) : Prop where
  mapped_iff : ∀ (p : String) (d : UInt32), s.appDisplayBindings[p]? = some d ↔
    ∃ c, s.displayAppBindings[d]? = some c ∧ packageFromComponent c = p
  bound_active : ∀ (d : UInt32) (c : String), s.displayAppBindings[d]? = some c →
    d ∈ s.activeUserDisplayIds
  bound_range : ∀ (d : UInt32) (c : String), s.displayAppBindings[d]? = some c → UserRange d
  removing_range : ∀ d : UInt32, d ∈ s.displayRemovalPending → UserRange d

theorem bijective_initial : Bijective {} where
  mapped_iff := by simp
  bound_active := by simp
  bound_range := by simp
  removing_range := by simp

theorem bijective_of_same (same : SameDisplays s t) (h : Bijective s) : Bijective t := by
  obtain ⟨hb, ha, hact, hrem, -, -⟩ := same
  refine ⟨?_, ?_, ?_, ?_⟩
  · rw [ha, hb]
    exact h.mapped_iff
  · rw [hb, hact]
    exact h.bound_active
  · rw [hb]
    exact h.bound_range
  · rw [hrem]
    exact h.removing_range

theorem bijective_unbind (h : Bijective s) (d : UInt32) :
    Bijective (s.unbindApplicationFromDisplay d) := by
  unfold AppDelegate.unbindApplicationFromDisplay
  split
  · exact h
  · rename_i component hbound
    -- the reverse entry of a bound display is its own, so it goes too
    have hmapped : s.appDisplayBindings[packageFromComponent component]? = some d :=
      (h.mapped_iff _ d).mpr ⟨component, hbound, rfl⟩
    have hiff := h.mapped_iff
    refine ⟨?_, ?_, ?_, h.removing_range⟩
    · intro p e
      simp only [hmapped, if_true]
      grind
    · intro e c he
      have := h.bound_active e c
      grind
    · intro e c he
      have := h.bound_range e c
      grind

theorem bijective_release (h : Bijective s) (hd : d ∉ s.displayAppBindings) :
    Bijective (s.releaseUserDisplayId d) := by
  unfold AppDelegate.releaseUserDisplayId
  split
  · refine ⟨h.mapped_iff, ?_, h.bound_range, h.removing_range⟩
    intro e c he
    have := h.bound_active e c he
    grind
  · exact h

theorem bijective_mark (h : Bijective s) (hd : UserRange d) :
    Bijective { s with displayRemovalPending := s.displayRemovalPending.insert d } := by
  refine ⟨h.mapped_iff, h.bound_active, h.bound_range, ?_⟩
  intro e he
  have := h.removing_range e
  grind

theorem bijective_move (hmove : Move s t) (h : Bijective s) : Bijective t := by
  cases hmove with
  | tidy same effects outbox incidental => exact bijective_of_same same h
  | unbind d => exact bijective_unbind h d
  | release d unbound => exact bijective_release h unbound
  | activate d bound =>
    refine ⟨h.mapped_iff, ?_, h.bound_range, h.removing_range⟩
    intro e c he
    have := h.bound_active e c he
    grind
  | markRemoval d range fresh => exact bijective_mark h range
  | sendRemoval d range fresh =>
    have hm := bijective_mark h range
    exact ⟨hm.mapped_iff, hm.bound_active, hm.bound_range, hm.removing_range⟩

theorem bijective_moves (hmoves : Moves s t) (h : Bijective s) : Bijective t := by
  induction hmoves with
  | refl => exact h
  | tail _ hmove ih => exact bijective_move hmove ih

theorem bijective_launched {component : String} {profile : DisplayLaunchProfile}
    (hl : Launched d component profile s t) (h : Bijective s) : Bijective t := by
  have hfree : ∀ c, s.displayAppBindings[d]? ≠ some c := by
    intro c hc
    exact hl.inactive (h.bound_active d c hc)
  have hunmapped := hl.unmapped
  have hiff := h.mapped_iff
  refine ⟨?_, ?_, ?_, ?_⟩
  · intro p e
    rw [hl.apps, hl.bindings]
    grind
  · intro e c he
    rw [hl.bindings] at he
    rw [hl.active]
    have := h.bound_active e c
    grind
  · intro e c he
    rw [hl.bindings] at he
    have := h.bound_range e c
    have := hl.range
    grind
  · rw [hl.removing]
    exact h.removing_range

theorem bijective_movesOrResize (hr : MovesOrResize s t) (h : Bijective s) : Bijective t := by
  rcases hr with hr | ⟨d, width, height, dpi, previous, u, v, hbefore, hresize, hafter⟩
  · exact bijective_moves hr h
  · apply bijective_moves hafter
    have hu := bijective_moves hbefore h
    refine ⟨?_, ?_, ?_, ?_⟩
    · rw [hresize.apps, hresize.bindings]
      exact hu.mapped_iff
    · rw [hresize.bindings, hresize.active]
      exact hu.bound_active
    · rw [hresize.bindings]
      exact hu.bound_range
    · rw [hresize.removing]
      exact hu.removing_range

theorem bijective_followEvent (h : Bijective s) (event : ControlEventDisplay) :
    Bijective (s.followEvent event) := by
  unfold AppDelegate.followEvent
  split
  · exact h
  · split
    · exact ⟨h.mapped_iff, h.bound_active, h.bound_range, h.removing_range⟩
    · exact h

theorem bijective_handleControlEvent (env : Surroundings) (h : Bijective s) (type : UInt16)
    (payload : List UInt8) : Bijective (s.handleControlEvent env type payload) := by
  rcases handleControlEvent_cases env s type payload with
    heq | ⟨-, ⟨-, heq⟩ | ⟨-, heq⟩⟩
  · rw [heq]
    exact h
  · rw [heq]
    by_cases hbound : (ControlEventDisplay.ofBytes payload).displayId ∈ s.displayAppBindings
    · exact bijective_moves (moves_displayAdded_bound env s hbound) (bijective_followEvent h _)
    · exact bijective_moves (moves_displayAdded_unbound env s hbound) h
  · rw [heq]
    apply bijective_moves (moves_displayRemoved env s _)
    refine ⟨h.mapped_iff, h.bound_active, h.bound_range, ?_⟩
    intro e he
    have := h.removing_range e
    grind

theorem bijective_resizeResponse (h : Bijective s) (d : UInt32) (previous : DisplayLaunchProfile)
    (response : ControlRoundTrip.Response) : Bijective (s.resizeResponse d previous response) := by
  unfold AppDelegate.resizeResponse
  dsimp only
  split
  · exact ⟨h.mapped_iff, h.bound_active, h.bound_range, h.removing_range⟩
  · split
    · exact ⟨h.mapped_iff, h.bound_active, h.bound_range, h.removing_range⟩
    · exact ⟨h.mapped_iff, h.bound_active, h.bound_range, h.removing_range⟩

theorem bijective_run (env : Surroundings) (h : Bijective s) (b : Block) :
    Bijective (s.run env b) := by
  by_cases hplain : b.Plain
  · exact bijective_moves (moves_run env s hplain) h
  · cases b with
    | launch component profile matchesScreen =>
      rcases launch_moves_or_launched env s component profile matchesScreen with hm | ⟨d, hl⟩
      · exact bijective_moves hm h
      · exact bijective_launched hl h
    | controlEvent type payload => exact bijective_handleControlEvent env h ..
    | resizeResponse d previous response => exact bijective_resizeResponse h ..
    | rotateFocused | changedScreen d target | orientationResponse d logical =>
      exact bijective_movesOrResize (movesOrResize_run env s trivial) h
    | qemuExited =>
      exact ⟨bijective_initial.mapped_iff, bijective_initial.bound_active,
        bijective_initial.bound_range, bijective_initial.removing_range⟩
    | _ => exact absurd trivial hplain

theorem bijective_of_reachable (h : Reachable mainQueueStep {} s) : Bijective s := by
  apply Reachable.invariant _ bijective_initial h
  intro t step t' ht hstep
  cases hstep
  exact bijective_run step.1 ht step.2

theorem not_mem_of_not_range (h : Bijective s) (hd : ¬ UserRange d) :
    d ∉ s.displayAppBindings ∧ d ∉ s.displayRemovalPending := by
  refine ⟨?_, fun hmem => hd (h.removing_range d hmem)⟩
  intro hmem
  exact hd (h.bound_range d _ (ExtTreeMap.getElem?_eq_some_getElem hmem))

theorem allocate_free (h : Bijective s) :
    s.allocateUserDisplayId.1 ∉ s.displayAppBindings ∧
      s.allocateUserDisplayId.1 ∉ s.displayRemovalPending := by
  unfold AppDelegate.allocateUserDisplayId
  cases hfree : s.freeUserDisplayId with
  | none => exact not_mem_of_not_range h (fun hrange => hrange.1 rfl)
  | some d =>
    obtain ⟨-, hinactive, hkept⟩ := freeUserDisplayId_some s hfree
    refine ⟨?_, hkept⟩
    intro hmem
    exact hinactive (h.bound_active d _ (ExtTreeMap.getElem?_eq_some_getElem hmem))

/-- In every reachable state of the main queue, packages and displays are
mapped to each other one to one, bound ids are active user ids, and no id that
is bound or awaits its removal is handed out. -/
theorem application_display_bijection (s : AppDelegate) (h : Reachable mainQueueStep {} s) :
    (∀ (p : String) (d : UInt32), s.appDisplayBindings[p]? = some d ↔
      ∃ c, s.displayAppBindings[d]? = some c ∧ packageFromComponent c = p) ∧
    (∀ (d : UInt32) (c : String), s.displayAppBindings[d]? = some c →
      d ∈ s.activeUserDisplayIds ∧ 1 ≤ d ∧ d ≤ 5) ∧
    s.allocateUserDisplayId.1 ∉ s.displayAppBindings ∧
    s.allocateUserDisplayId.1 ∉ s.displayRemovalPending := by
  have hb := bijective_of_reachable h
  refine ⟨hb.mapped_iff, ?_, allocate_free hb⟩
  intro d c hbound
  obtain ⟨hzero, hmax⟩ := hb.bound_range d c hbound
  have hpos : 1 ≤ d := by
    rw [UInt32.le_iff_toNat_le]
    have hne : d.toNat ≠ 0 := fun h0 => hzero (UInt32.toNat_inj.mp h0)
    exact Nat.one_le_iff_ne_zero.mpr hne
  exact ⟨hb.bound_active d c hbound, hpos, hmax⟩

/-- The state after the agent has connected and one application was opened. -/
def oneApplication : AppDelegate :=
  (({} : AppDelegate).run upSurroundings (.agentConnection true)).run upSurroundings
    (.launch "org.example/.Main" ⟨"", 720, 1600, 320⟩ false)

theorem application_display_bijection_one :
    oneApplication.displayAppBindings[(1 : UInt32)]? = some "org.example/.Main" ∧
      oneApplication.appDisplayBindings["org.example"]? = some 1 := by
  have hreach : Reachable mainQueueStep {} oneApplication :=
    ⟨[(upSurroundings, .agentConnection true),
      (upSurroundings, .launch "org.example/.Main" ⟨"", 720, 1600, 320⟩ false)], rfl⟩
  have hbound : oneApplication.displayAppBindings[(1 : UInt32)]? = some "org.example/.Main" := by
    decide
  exact ⟨hbound, ((application_display_bijection oneApplication hreach).1 _ 1).mpr
    ⟨_, hbound, by decide⟩⟩

end DisplayBijection
end MacMu
