import MacMu.Shell.DisplayHandling

/-!
The events of the emulator as the shell handles them. DISPLAY_REMOVED finds the
display marked and forgets it; DISPLAY_ADDED sets the profile, and the history
notes the geometry and the number of requests issued so far. An event the shell
ignores must not have been DISPLAY_ADDED of a user display: a shell that is
shutting down ignores those too, and no longer follows the table.
-/

namespace MacMu
namespace DisplayGeometry

open Std ControlProtocol ControlRoundTrip ControlReceiver DisplayTable

variable {type : UInt16} {payload : List UInt8} {d : UInt32} {s : AppDelegate}

section Events

variable {w : World} {tag : Nat} {type : UInt16} {payload : List UInt8}
  {rest : List (Nat × Block)} (hqueue : w.mainQueue = (tag, .controlEvent type payload) :: rest)

theorem block_ne_event (c : Completion) (response : Response) :
    c.block response ≠ some (.controlEvent type payload) := by
  intro hb
  cases c <;> cases hb

include hqueue

theorem view_event (t : AppDelegate) (lastFollowed : ExtTreeMap UInt32 (Nat × Geometry))
    (d : UInt32) :
    view { w with mainQueue := rest, shell := t, lastFollowed := lastFollowed } [] d =
      { view w [] d with
        signals := signals { w with mainQueue := rest } d
        bound := d ∈ t.displayAppBindings
        removing := d ∈ t.displayRemovalPending
        profile := t.displayLaunchProfiles[d]?.map DisplayLaunchProfile.geometry
        resizing := d ∈ t.displayResizePending
        followed := lastFollowed[d]? } := by
  have hout : ∀ n c, Outstanding
      { w with mainQueue := rest, shell := t, lastFollowed := lastFollowed } n c =
        Outstanding w n c := by
    intro n c
    refine propext ((outstanding_pop hqueue n c).trans (or_iff_left ?_)).symm
    rintro ⟨-, response, hb⟩
    exact block_ne_event c response hb
  simp only [view, hout]
  rfl

theorem Inv.dropped (h : Inv w []) {lastFollowed : ExtTreeMap UInt32 (Nat × Geometry)}
    (hsilent : ∀ k, UserRange k → blockSignal k (tag, .controlEvent type payload) = none ∨
      blockSignal k (tag, .controlEvent type payload) = some .removed)
    (hfollowed : ∀ k, UserRange k → lastFollowed[k]? = w.lastFollowed[k]?) :
    Inv { w with mainQueue := rest, lastFollowed := lastFollowed } [] := by
  refine ⟨traffic_pop hqueue h.traffic lastFollowed, ?_⟩
  intro k hk
  refine (h.consistent k hk).carry
    (carry_pop hqueue ?_ (fun c r hb => absurd hb (block_ne_event c r)) (hfollowed k hk))
  rcases hsilent k hk with hnone | hremoved
  · exact .inr hnone
  · refine .inl ((h.consistent k hk).removedEnds ?_).2
    change .removed ∈ signals w k
    rw [signals_pop hqueue k, hremoved]
    exact List.mem_cons_self

/-- The emulator has removed `d`, which the shell has unbound. -/
theorem Inv.removedUnbound (h : Inv w []) {d : UInt32}
    (hsignal : blockSignal d (tag, .controlEvent type payload) = some .removed)
    (hsilent : ∀ k, k ≠ d → blockSignal k (tag, .controlEvent type payload) = none)
    (hunbound : d ∉ w.shell.displayAppBindings) :
    Inv { w with
      mainQueue := rest
      shell := { w.shell with
        displayRemovalPending := w.shell.displayRemovalPending.erase d } } [] := by
  refine ⟨(traffic_pop hqueue h.traffic w.lastFollowed).rebound fun _ hk => hk, ?_⟩
  intro k hk
  by_cases heq : k = d
  · subst heq
    have hsignals := signals_pop hqueue k
    rw [hsignal] at hsignals
    have hremoving : ¬ k ∈ w.shell.displayRemovalPending.erase k :=
      fun hmem => (ExtTreeSet.mem_erase.mp hmem).1 compare_self
    rw [view_event hqueue, eq_false hunbound, eq_false hremoving]
    exact (h.consistent k hk).handleRemoved hsignals
  · have hpop : View.Carry (view w [] k) (view { w with mainQueue := rest } [] k) :=
      carry_pop hqueue (.inr (hsilent k heq)) (fun c r hb => absurd hb (block_ne_event c r)) rfl
    refine ((h.consistent k hk).carry hpop).carry (carry_reshell
      (w := { w with mainQueue := rest }) ?_ Iff.rfl id rfl)
    intro hmem
    refine ExtTreeSet.mem_erase.mpr ⟨?_, hmem⟩
    exact fun hcmp => heq (LawfulEqCmp.eq_of_compare hcmp).symm

end Events

theorem unbind_erase_mark (s : AppDelegate) (d : UInt32) :
    { s with
      displayRemovalPending := s.displayRemovalPending.erase d }.unbindApplicationFromDisplay d =
      { s.unbindApplicationFromDisplay d with
        displayRemovalPending :=
          (s.unbindApplicationFromDisplay d).displayRemovalPending.erase d } := by
  unfold AppDelegate.unbindApplicationFromDisplay
  dsimp only
  split <;> rfl

theorem Inv.displayRemoved {w : World} (h : Inv w []) (hdrained : w.shell.outbox = []) {tag : Nat}
    {rest : List (Nat × Block)} (hqueue : w.mainQueue = (tag, .controlEvent type payload) :: rest)
    (hsignal : blockSignal d (tag, .controlEvent type payload) = some .removed)
    (hsilent : ∀ k, k ≠ d → blockSignal k (tag, .controlEvent type payload) = none)
    (env : Surroundings) : Inv { w with mainQueue := rest, shell := w.shell.displayRemoved env d }
      (w.shell.displayRemoved env d).outbox := by
  have houtbox := (outbox_unbind w.shell d).trans hdrained
  have hunbound := (h.withShell hdrained).unbind d
  rw [houtbox] at hunbound
  have hpop := (Inv.removedUnbound (w := { w with shell := w.shell.unbindApplicationFromDisplay d })
    hqueue hunbound hsignal hsilent (not_mem_unbind w.shell d)).withShell houtbox
  refine Inv.moves (w := { w with mainQueue := rest }) ?_
    (moves_displayRemoved_of_unbound env w.shell d)
  rw [unbind_erase_mark]
  exact hpop

structure Followed (s t : AppDelegate) (event : ControlEventDisplay) : Prop where
  outbox : t.outbox = s.outbox
  bindings : t.displayAppBindings = s.displayAppBindings
  removing : t.displayRemovalPending = s.displayRemovalPending
  resizing : t.displayResizePending = s.displayResizePending
  others : ∀ k, k ≠ event.displayId → t.displayLaunchProfiles[k]? = s.displayLaunchProfiles[k]?
  kept : event.displayId ∈ s.displayAppBindings →
    s.displayLaunchProfiles[event.displayId]?.isSome →
    t.displayLaunchProfiles[event.displayId]?.isSome
  followed : event.displayId ∈ s.displayAppBindings →
    s.displayLaunchProfiles[event.displayId]?.isSome →
    Positive ⟨event.width, event.height, event.dpi⟩ →
    t.displayLaunchProfiles[event.displayId]?.map DisplayLaunchProfile.geometry =
      some ⟨event.width, event.height, event.dpi⟩

theorem followed_followEvent (s : AppDelegate) (event : ControlEventDisplay) :
    Followed s (s.followEvent event) event := by
  unfold AppDelegate.followEvent
  split
  · rename_i hnone
    refine ⟨rfl, rfl, rfl, rfl, fun _ _ => rfl, fun _ hsome => hsome, ?_⟩
    intro _ hsome
    rw [hnone] at hsome
    cases hsome
  · split
    · refine ⟨rfl, rfl, rfl, rfl, ?_, ?_, ?_⟩
      · intro k hk
        rw [ExtTreeMap.getElem?_insert, if_neg]
        exact fun hcmp => hk (LawfulEqCmp.eq_of_compare hcmp).symm
      · intro _ _
        rw [ExtTreeMap.getElem?_insert_self]
        rfl
      · intro _ _ _
        rw [ExtTreeMap.getElem?_insert_self]
        rfl
    · rename_i hzero
      exact ⟨rfl, rfl, rfl, rfl, fun _ _ => rfl, fun _ hsome => hsome,
        fun _ _ hpositive => absurd hpositive hzero⟩

theorem followed_of_unbound {event : ControlEventDisplay}
    (hunbound : event.displayId ∉ s.displayAppBindings) : Followed s s event :=
  ⟨rfl, rfl, rfl, rfl, fun _ _ => rfl, fun hbound => absurd hbound hunbound,
    fun hbound => absurd hbound hunbound⟩

section Added

variable {w : World} (h : Inv w []) (hdrained : w.shell.outbox = []) {tag : Nat} {type : UInt16}
  {payload : List UInt8} {rest : List (Nat × Block)}
  (hqueue : w.mainQueue = (tag, .controlEvent type payload) :: rest) {event : ControlEventDisplay}
  (hsignal : blockSignal event.displayId (tag, .controlEvent type payload) =
    some (.added ⟨event.width, event.height, event.dpi⟩))
  (hsilent : ∀ k, k ≠ event.displayId → blockSignal k (tag, .controlEvent type payload) = none)
include h hdrained hqueue hsignal hsilent

theorem Inv.followed {t : AppDelegate} (hshell : Followed w.shell t event) :
    Inv { w with
      mainQueue := rest
      shell := t
      lastFollowed := w.lastFollowed.insert event.displayId
        (w.issued.length, ⟨event.width, event.height, event.dpi⟩) } t.outbox := by
  rw [hshell.outbox, hdrained]
  refine ⟨(traffic_pop hqueue h.traffic _).rebound fun k hk => hshell.bindings ▸ hk, ?_⟩
  intro k hk
  by_cases heq : k = event.displayId
  · subst heq
    have hbefore := h.consistent event.displayId hk
    have hsignals := signals_pop hqueue event.displayId
    rw [hsignal] at hsignals
    have hprofiled : event.displayId ∈ w.shell.displayAppBindings →
        w.shell.displayLaunchProfiles[event.displayId]?.isSome := by
      intro hbound
      have hsome := hbefore.profiled hbound
      rwa [view, Option.isSome_map] at hsome
    rw [view_event hqueue, hshell.bindings, hshell.removing, hshell.resizing,
      ExtTreeMap.getElem?_insert_self]
    refine hbefore.handleAdded hsignals ?_ ?_ ?_
    · rintro x ⟨-, -, e, he, -⟩
      exact List.not_mem_nil he
    · intro hbound
      exact hshell.followed hbound (hprofiled hbound)
    · intro hbound
      rw [Option.isSome_map]
      exact hshell.kept hbound (hprofiled hbound)
  · have hfollowed : (w.lastFollowed.insert event.displayId
        (w.issued.length, ⟨event.width, event.height, event.dpi⟩))[k]? = w.lastFollowed[k]? := by
      rw [ExtTreeMap.getElem?_insert, if_neg]
      exact fun hcmp => heq (LawfulEqCmp.eq_of_compare hcmp).symm
    have hpop := carry_pop hqueue (.inr (hsilent k heq))
      (fun c r hb => absurd hb (block_ne_event c r)) hfollowed
    have hresizing : k ∈ t.displayResizePending ↔ k ∈ w.shell.displayResizePending := by
      rw [hshell.resizing]
    exact ((h.consistent k hk).carry hpop).carry (carry_reshell
      (fun hmem => hshell.removing ▸ hmem) hresizing (fun hmem => hshell.bindings ▸ hmem)
      (hshell.others k heq))

theorem Inv.displayAdded (env : Surroundings) :
    Inv { w with
      mainQueue := rest
      shell := w.shell.displayAdded env event
      lastFollowed := w.lastFollowed.insert event.displayId
        (w.issued.length, ⟨event.width, event.height, event.dpi⟩) }
      (w.shell.displayAdded env event).outbox := by
  by_cases hbound : event.displayId ∈ w.shell.displayAppBindings
  · have hfollowed := h.followed hdrained hqueue hsignal hsilent
      (followed_followEvent w.shell event)
    exact Inv.moves (w := { w with mainQueue := rest, lastFollowed := _ }) hfollowed
      (moves_displayAdded_bound env w.shell hbound)
  · have hfollowed := h.followed hdrained hqueue hsignal hsilent (followed_of_unbound hbound)
    exact Inv.moves (w := { w with mainQueue := rest, lastFollowed := _ }) hfollowed
      (moves_displayAdded_unbound env w.shell hbound)

end Added

section Dispatch

variable {w : World} (tag : Nat) {type : UInt16} {payload : List UInt8}

theorem blockSignal_added {event : ControlEventDisplay}
    (h : (Block.controlEvent type payload).addedEvent = some event) (k : UInt32) :
    blockSignal k (tag, .controlEvent type payload) =
      if event.displayId = k then some (.added ⟨event.width, event.height, event.dpi⟩)
      else none := by
  dsimp only [Block.addedEvent] at h
  split at h <;> cases h
  rename_i hevent
  obtain ⟨htype, hsize, hstate⟩ := hevent
  rw [blockSignal, if_pos ⟨htype, hsize⟩, eventSignal, if_pos hstate]

theorem blockSignal_removed {d : UInt32}
    (h : (Block.controlEvent type payload).removedDisplay = some d) (k : UInt32) :
    blockSignal k (tag, .controlEvent type payload) =
      if d = k then some .removed else none := by
  dsimp only [Block.removedDisplay] at h
  split at h <;> cases h
  rename_i hevent
  obtain ⟨htype, hsize, hstate⟩ := hevent
  have hremoved : kControlDisplayRemoved ≠ kControlDisplayAdded := by decide
  rw [blockSignal, if_pos ⟨htype, hsize⟩, eventSignal, if_pos hstate, hstate, if_neg hremoved]

theorem blockSignal_neither (hadded : (Block.controlEvent type payload).addedEvent = none)
    (hremoved : (Block.controlEvent type payload).removedDisplay = none) (k : UInt32) :
    blockSignal k (tag, .controlEvent type payload) = none := by
  rw [blockSignal]
  split
  · rename_i hevent
    obtain ⟨htype, hsize⟩ := hevent
    rw [eventSignal]
    split
    · split
      · rename_i hstate
        rw [Block.addedEvent, if_pos ⟨htype, hsize, hstate⟩] at hadded
        cases hadded
      · split
        · rename_i hstate
          rw [Block.removedDisplay, if_pos ⟨htype, hsize, hstate⟩] at hremoved
          cases hremoved
        · rfl
    · rfl
  · rfl

theorem noteBlock_added {b : Block} {event : ControlEventDisplay}
    (hrunning : w.shell.shuttingDown = false) (h : b.addedEvent = some event) :
    ∃ answered, w.noteBlock tag b =
      { w with
        answered := answered
        lastFollowed := w.lastFollowed.insert event.displayId
          (w.issued.length, ⟨event.width, event.height, event.dpi⟩) } := by
  simp only [World.noteBlock, hrunning, h, Bool.false_eq_true, if_false]
  split
  · exact ⟨_, rfl⟩
  · exact ⟨w.answered, rfl⟩

theorem noteBlock_other {b : Block} (h : b.addedEvent = none) :
    ∃ answered, w.noteBlock tag b = { w with answered := answered } := by
  simp only [World.noteBlock, h]
  split
  · exact ⟨w.answered, rfl⟩
  · split
    · exact ⟨_, rfl⟩
    · exact ⟨w.answered, rfl⟩

end Dispatch

theorem handle_added (env : Surroundings) (hrunning : s.shuttingDown = false)
    {event : ControlEventDisplay} (h : (Block.controlEvent type payload).addedEvent = some event) :
    s.handleControlEvent env type payload =
      if event.displayId = 0 ∨ kMaxUserDisplayId < event.displayId then s
      else s.displayAdded env event := by
  dsimp only [Block.addedEvent] at h
  split at h <;> cases h
  rename_i hevent
  obtain ⟨htype, hsize, hstate⟩ := hevent
  have hframe : ¬ (type ≠ ControlMessageType.kEventDisplay.code ∨
      payload.length < ControlEventDisplay.size) := by
    rintro (hne | hlt)
    · exact hne htype
    · exact Nat.not_lt.mpr hsize hlt
  simp only [AppDelegate.handleControlEvent, hrunning, hframe, hstate, Bool.false_eq_true,
    if_false, if_true]

theorem handle_removed (env : Surroundings) (hrunning : s.shuttingDown = false)
    (h : (Block.controlEvent type payload).removedDisplay = some d) :
    s.handleControlEvent env type payload =
      if d = 0 ∨ kMaxUserDisplayId < d then s else s.displayRemoved env d := by
  obtain ⟨payload, hblock, hsize, hstate, rfl⟩ := Block.removedDisplay_eq_some h
  cases hblock
  have hframe : ¬ (ControlMessageType.kEventDisplay.code ≠ ControlMessageType.kEventDisplay.code ∨
      payload.length < ControlEventDisplay.size) := by
    rintro (hne | hlt)
    · exact hne rfl
    · exact Nat.not_lt.mpr hsize hlt
  have hremoved : kControlDisplayRemoved ≠ kControlDisplayAdded := by decide
  simp only [AppDelegate.handleControlEvent, hrunning, hframe, hstate, hremoved,
    Bool.false_eq_true, if_false, if_true]

theorem handle_neither (env : Surroundings)
    (hadded : (Block.controlEvent type payload).addedEvent = none)
    (hremoved : (Block.controlEvent type payload).removedDisplay = none) :
    s.handleControlEvent env type payload = s := by
  rcases handleControlEvent_cases env s type payload with
    heq | ⟨handled, ⟨hstate, -⟩ | ⟨hstate, -⟩⟩
  · exact heq
  · rw [Block.addedEvent, if_pos ⟨handled.type_eq, handled.size_le, hstate⟩] at hadded
    cases hadded
  · rw [Block.removedDisplay, if_pos ⟨handled.type_eq, handled.size_le, hstate⟩] at hremoved
    cases hremoved

theorem ne_of_guard {k : UInt32} (h : d = 0 ∨ kMaxUserDisplayId < d) (hk : UserRange k) :
    d ≠ k := by
  rintro rfl
  rcases h with hzero | hlt
  · exact hk.1 hzero
  · exact UInt32.not_lt.mpr hk.2 hlt

theorem Inv.controlEvent {w : World} (h : Inv w []) (hdrained : w.shell.outbox = []) {tag : Nat}
    {rest : List (Nat × Block)} (hqueue : w.mainQueue = (tag, .controlEvent type payload) :: rest)
    (hup : (Block.controlEvent type payload).addedEvent.isSome → w.shell.shuttingDown = false)
    (env : Surroundings) :
    Inv { { w with mainQueue := rest }.noteBlock tag (.controlEvent type payload) with
      shell := w.shell.handleControlEvent env type payload }
      (w.shell.handleControlEvent env type payload).outbox := by
  cases hadded : (Block.controlEvent type payload).addedEvent with
  | some event =>
    have hrunning := hup (Option.isSome_of_eq_some hadded)
    have hsignal := blockSignal_added tag hadded
    obtain ⟨answered, hnote⟩ :=
      noteBlock_added (w := { w with mainQueue := rest }) tag hrunning hadded
    rw [hnote, handle_added env hrunning hadded]
    split
    · rename_i hguard
      rw [hdrained]
      refine Inv.history (h.dropped hqueue ?_ ?_) answered
      · intro k hk
        exact .inl ((hsignal k).trans (if_neg (ne_of_guard hguard hk)))
      · intro k hk
        rw [ExtTreeMap.getElem?_insert, if_neg]
        exact fun hcmp => ne_of_guard hguard hk (LawfulEqCmp.eq_of_compare hcmp)
    · exact (h.displayAdded hdrained hqueue ((hsignal _).trans (if_pos rfl))
        (fun k hk => (hsignal k).trans (if_neg (Ne.symm hk))) env).history answered
  | none =>
    obtain ⟨answered, hnote⟩ :=
      noteBlock_other (w := { w with mainQueue := rest }) tag hadded
    rw [hnote]
    cases hremoved : (Block.controlEvent type payload).removedDisplay with
    | none =>
      rw [handle_neither env hadded hremoved, hdrained]
      exact (h.dropped hqueue (fun k _ => .inl (blockSignal_neither tag hadded hremoved k))
        (fun _ _ => rfl)).history ..
    | some d =>
      have hsignal := blockSignal_removed tag hremoved
      have hdropped : Inv { w with mainQueue := rest, answered := answered } [] := by
        refine Inv.history (h.dropped hqueue ?_ fun _ _ => rfl) ..
        intro k _
        rw [hsignal k]
        split
        · exact .inr rfl
        · exact .inl rfl
      cases hdown : w.shell.shuttingDown with
      | true =>
        rw [AppDelegate.handleControlEvent, if_pos hdown, hdrained]
        exact hdropped
      | false =>
        rw [handle_removed env hdown hremoved]
        split
        · rw [hdrained]
          exact hdropped
        · exact (h.displayRemoved hdrained hqueue ((hsignal d).trans (if_pos rfl))
            (fun k hk => (hsignal k).trans (if_neg (Ne.symm hk))) env).history answered

end DisplayGeometry
end MacMu
