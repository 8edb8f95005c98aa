import MacMu.Shell.Moves
import MacMu.Shell.ControlPipeline

/-!
What a block does to the removal marks and to the removals it sends. A chain of
moves only adds marks and sends a removal only for an id that it marks; the
blocks that are not such chains are the launch, which takes an unmarked id, and
DISPLAY_REMOVED, which drops one mark first.
-/

namespace MacMu
namespace RemovalMarks

open Std ControlProtocol ControlRoundTrip ControlReceiver TransitionSystem Relation

variable {s t : AppDelegate}

def removals (es : List Effect) : List UInt32 :=
  es.filterMap fun e => match e with
    | .displayRemove d => some d
    | _ => none

def launches (es : List Effect) : List UInt32 :=
  es.filterMap fun e => match e with
    | .launchDisplayAdd request .. => some request.displayId
    | _ => none

/-- What a chain of moves does to the removal marks: it only adds marks, and
sends a removal only for an id it marks. -/
structure Marks (s t : AppDelegate) : Prop where
  effects : ∃ es, t.outbox = s.outbox ++ es ∧ launches es = [] ∧ (removals es).Nodup ∧
    ∀ d ∈ removals es, d ∉ s.displayRemovalPending ∧ d ∈ t.displayRemovalPending
  kept : ∀ d ∈ s.displayRemovalPending, d ∈ t.displayRemovalPending
  bound : ∀ d ∈ t.displayAppBindings, d ∈ s.displayAppBindings

theorem Marks.refl (s : AppDelegate) : Marks s s where
  effects := ⟨[], (List.append_nil _).symm, rfl, List.nodup_nil, fun _ h => absurd h List.not_mem_nil⟩
  kept := fun _ h => h
  bound := fun _ h => h

theorem Marks.trans {u : AppDelegate} (h : Marks s t) (k : Marks t u) : Marks s u := by
  obtain ⟨es, hes, hnone, hnodup, hfresh⟩ := h.effects
  obtain ⟨fs, hfs, knone, knodup, kfresh⟩ := k.effects
  refine ⟨⟨es ++ fs, ?_, ?_, ?_, ?_⟩, fun d hd => k.kept d (h.kept d hd),
    fun d hd => h.bound d (k.bound d hd)⟩
  · rw [hfs, hes, List.append_assoc]
  · rw [launches, List.filterMap_append]
    exact List.append_eq_nil_iff.mpr ⟨hnone, knone⟩
  · rw [removals, List.filterMap_append]
    apply List.Nodup.append hnodup knodup
    intro d hd hd'
    exact (kfresh d hd').1 (hfresh d hd).2
  · intro d hd
    rw [removals, List.filterMap_append, List.mem_append] at hd
    rcases hd with hd | hd
    · exact ⟨(hfresh d hd).1, k.kept d (hfresh d hd).2⟩
    · exact ⟨fun hs => (kfresh d hd).1 (h.kept d hs), (kfresh d hd).2⟩

theorem Marks.of_quiet {es : List Effect} (outbox : t.outbox = s.outbox ++ es)
    (hl : launches es = [] := by rfl) (hr : removals es = [] := by rfl)
    (kept : ∀ d ∈ s.displayRemovalPending, d ∈ t.displayRemovalPending := by exact fun _ h => h)
    (bound : ∀ d ∈ t.displayAppBindings, d ∈ s.displayAppBindings := by exact fun _ h => h) :
    Marks s t where
  effects := ⟨es, outbox, hl, hr ▸ List.nodup_nil, by
    intro d hd
    rw [hr] at hd
    exact absurd hd List.not_mem_nil⟩
  kept := kept
  bound := bound

theorem marks_move (h : Move s t) : Marks s t := by
  cases h with
  | tidy same effects outbox incidental =>
    have hl : launches effects = [] := by
      apply List.filterMap_eq_nil_iff.mpr
      intro e he
      cases e <;> first | rfl | exact (incidental _ he).elim
    have hr : removals effects = [] := by
      apply List.filterMap_eq_nil_iff.mpr
      intro e he
      cases e <;> first | rfl | exact (incidental _ he).elim
    exact Marks.of_quiet outbox hl hr (by rw [same.removing]; exact fun _ h => h)
      (by rw [same.bindings]; exact fun _ h => h)
  | unbind d =>
    unfold AppDelegate.unbindApplicationFromDisplay
    split
    · exact Marks.refl s
    · refine Marks.of_quiet (List.append_nil _).symm rfl rfl (fun _ h => h) ?_
      intro e he
      exact (ExtTreeMap.mem_erase.mp he).2
  | release d unbound =>
    unfold AppDelegate.releaseUserDisplayId
    split
    · exact Marks.of_quiet (List.append_nil _).symm
    · exact Marks.refl s
  | activate d bound =>
    exact Marks.of_quiet (List.append_nil _).symm
  | markRemoval d range fresh =>
    refine Marks.of_quiet (List.append_nil _).symm rfl rfl ?_ (fun _ h => h)
    intro e he
    exact ExtTreeSet.mem_insert.mpr (.inr he)
  | sendRemoval d range fresh =>
    refine ⟨⟨[.displayRemove d], rfl, rfl, List.nodup_singleton d, ?_⟩, ?_, fun _ h => h⟩
    · intro e he
      rw [List.mem_singleton.mp he]
      exact ⟨fresh, ExtTreeSet.mem_insert_self⟩
    · intro e he
      exact ExtTreeSet.mem_insert.mpr (.inr he)

theorem marks_moves (h : Moves s t) : Marks s t := by
  induction h with
  | refl => exact Marks.refl s
  | tail _ hmove ih => exact ih.trans (marks_move hmove)

theorem marks_resized {d width height dpi : UInt32} {previous : DisplayLaunchProfile}
    (h : Resized d width height dpi previous s t) : Marks s t :=
  Marks.of_quiet h.outbox rfl rfl (by rw [h.removing]; exact fun _ h => h)
    (by rw [h.bindings]; exact fun _ h => h)

theorem marks_movesOrResize (h : MovesOrResize s t) : Marks s t := by
  rcases h with h | ⟨d, width, height, dpi, previous, u, v, hbefore, hresize, hafter⟩
  · exact marks_moves h
  · exact (marks_moves hbefore).trans ((marks_resized hresize).trans (marks_moves hafter))

theorem marks_followEvent (s : AppDelegate) (event : ControlEventDisplay) :
    Marks s (s.followEvent event) := by
  unfold AppDelegate.followEvent
  split
  · exact Marks.refl s
  · split
    · exact Marks.of_quiet (List.append_nil _).symm
    · exact Marks.refl s

theorem marks_run (env : Surroundings) (s : AppDelegate) {b : Block}
    (hlaunch : ∀ component profile screen, b ≠ .launch component profile screen)
    (hreset : b ≠ .qemuExited)
    (hquiet : s.shuttingDown = true ∨ b.removedDisplay = none) : Marks s (s.run env b) := by
  cases b with
  | launch component profile screen => exact absurd rfl (hlaunch component profile screen)
  | qemuExited => exact absurd rfl hreset
  | rotateFocused | changedScreen | orientationResponse =>
    exact marks_movesOrResize (movesOrResize_run env s trivial)
  | resizeResponse d previous response =>
    change Marks s (s.resizeResponse d previous response)
    unfold AppDelegate.resizeResponse
    dsimp only
    split
    · exact Marks.of_quiet (List.append_nil _).symm
    · split <;> exact Marks.of_quiet (List.append_nil _).symm
  | controlEvent type payload =>
    change Marks s (s.handleControlEvent env type payload)
    rcases handleControlEvent_cases env s type payload with
      heq | ⟨handled, ⟨-, heq⟩ | ⟨hstate, -⟩⟩
    · rw [heq]
      exact Marks.refl s
    · rw [heq]
      by_cases hbound : (ControlEventDisplay.ofBytes payload).displayId ∈ s.displayAppBindings
      · exact (marks_followEvent s _).trans (marks_moves (moves_displayAdded_bound env s hbound))
      · exact marks_moves (moves_displayAdded_unbound env s hbound)
    · rcases hquiet with hquiet | hquiet
      · rw [handled.running] at hquiet
        exact absurd hquiet Bool.false_ne_true
      · rw [Block.removedDisplay, if_pos ⟨handled.type_eq, handled.size_le, hstate⟩] at hquiet
        cases hquiet
  | _ => exact marks_moves (moves_run env s trivial)

theorem marks_run_removed (env : Surroundings) (s : AppDelegate) {b : Block} {d : UInt32}
    (h : b.removedDisplay = some d) :
    Marks s (s.run env b) ∨
      Marks { s with displayRemovalPending := s.displayRemovalPending.erase d }
        (s.run env b) := by
  obtain ⟨payload, rfl, -, hremoved, rfl⟩ := Block.removedDisplay_eq_some h
  change Marks s (s.handleControlEvent env _ payload) ∨ Marks _ (s.handleControlEvent env _ payload)
  rcases handleControlEvent_cases env s _ payload with
    heq | ⟨-, ⟨hadded, -⟩ | ⟨-, heq⟩⟩
  · rw [heq]
    exact .inl (Marks.refl s)
  · exact absurd (hadded.symm.trans hremoved) (by decide)
  · rw [heq]
    exact .inr (marks_moves (moves_displayRemoved env s _))

end RemovalMarks
end MacMu
