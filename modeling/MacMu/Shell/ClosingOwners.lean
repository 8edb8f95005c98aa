import MacMu.Shell.DisplayBijection

/-!
Who finishes the closing of an application. A package enters the closing set
when its window is closed or its launch has failed, and while it is there it
cannot be launched again. Something must therefore still be under way that
takes it out: a `close` request whose completion has not run, a removal of its
display, or a cleanup that waits for the agent.

The main queue runs here with the `close` requests it has sent. A completion
runs only for one of these, once, and with any result; requests and completions
may overtake each other, and every other block runs at any moment with any
captured values.
-/

namespace MacMu
namespace ClosingOwners

open Std ControlProtocol TransitionSystem DisplayBijection

/-- A `close` request for a closed window, with what its completion captures. -/
structure CloseRequest where
  component : String
  packageName : String
  displayId : UInt32
  deriving DecidableEq, Repr

def closeRequest : Effect → Option CloseRequest
  | .guestClose component packageName displayId => some ⟨component, packageName, displayId⟩
  | _ => none

/-- The delegate, and the `close` requests whose completions have not run:
unanswered, or answered with the block still in the queue. -/
structure MainQueue where
  shell : AppDelegate := {}
  closes : List CloseRequest := []

def completes : Block → Option CloseRequest
  | .closeResponse component packageName displayId _ => some ⟨component, packageName, displayId⟩
  | _ => none

/-- The requests that are left, `none` when the block completes one that was not
sent. -/
def takeRequest (closes : List CloseRequest) (b : Block) : Option (List CloseRequest) :=
  match completes b with
  | none => some closes
  | some request => if request ∈ closes then some (closes.erase request) else none

def MainQueue.step (q : MainQueue) (step : Surroundings × Block) : Option MainQueue :=
  (takeRequest q.closes step.2).map fun closes =>
    let shell := q.shell.run step.1 step.2
    ⟨{ shell with outbox := [] }, closes ++ shell.outbox.filterMap closeRequest⟩

/-- The requests that were sent before the running block and by it. -/
def requested (closes : List CloseRequest) (s : AppDelegate) : List CloseRequest :=
  closes ++ s.outbox.filterMap closeRequest

/-- The display `d`, with component `c`, will take `p` out of the closing set. -/
structure Owner (closes : List CloseRequest) (s : AppDelegate) (p : String) (d : UInt32)
    (c : String) : Prop where
  bound : s.displayAppBindings[d]? = some c
  package : packageFromComponent c = p
  awaited : ⟨c, p, d⟩ ∈ requested closes s ∨ d ∈ s.displayRemovalPending ∨
    s.deferredLaunchCleanup[d]? = some c

/-- Every closing package has an owner. In the middle of a block one package may
be `excused`: its owner has just been used up. -/
structure Inv (closes : List CloseRequest) (excused : Option String) (s : AppDelegate) :
    Prop where
  bijective : Bijective s
  named : ∀ r ∈ requested closes s, r.packageName = packageFromComponent r.component
  owned : ∀ p ∈ s.closingAppPackages, some p ≠ excused → ∃ d c, Owner closes s p d c

/-- The excused package, if there is one, is the one bound to `d`. -/
def ExcusedAt (excused : Option String) (s : AppDelegate) (d : UInt32) : Prop :=
  ∀ p, excused = some p → ∃ c, s.displayAppBindings[d]? = some c ∧ packageFromComponent c = p

theorem excusedAt_none (s : AppDelegate) (d : UInt32) : ExcusedAt none s d :=
  fun _ h => nomatch h

/-- Changes that take no owner away and put no package into the closing set. -/
structure Keeps (s t : AppDelegate) : Prop where
  closing : ∀ p ∈ t.closingAppPackages, p ∈ s.closingAppPackages
  bindings : ∀ (d : UInt32) (c : String), s.displayAppBindings[d]? = some c →
    t.displayAppBindings[d]? = some c
  removing : ∀ d ∈ s.displayRemovalPending, d ∈ t.displayRemovalPending
  deferred : t.deferredLaunchCleanup = s.deferredLaunchCleanup
  requests : t.outbox.filterMap closeRequest = s.outbox.filterMap closeRequest

namespace Keeps

variable {s : AppDelegate}

theorem of_same {t : AppDelegate} (closing : t.closingAppPackages = s.closingAppPackages := by rfl)
    (bindings : t.displayAppBindings = s.displayAppBindings := by rfl)
    (removing : t.displayRemovalPending = s.displayRemovalPending := by rfl)
    (deferred : t.deferredLaunchCleanup = s.deferredLaunchCleanup := by rfl)
    (outbox : t.outbox = s.outbox := by rfl) : Keeps s t where
  closing p hp := closing ▸ hp
  bindings d c hc := bindings ▸ hc
  removing d hd := removing ▸ hd
  deferred := deferred
  requests := by rw [outbox]

@[refl]
theorem refl (s : AppDelegate) : Keeps s s := of_same

theorem trans {t u : AppDelegate} (h : Keeps s t) (k : Keeps t u) : Keeps s u where
  closing p hp := h.closing p (k.closing p hp)
  bindings d c hc := k.bindings d c (h.bindings d c hc)
  removing d hd := k.removing d (h.removing d hd)
  deferred := k.deferred.trans h.deferred
  requests := k.requests.trans h.requests

theorem send {e : Effect} (h : closeRequest e = none) : Keeps s (s.send e) := by
  refine ⟨fun _ hp => hp, fun _ _ hc => hc, fun _ hd => hd, rfl, ?_⟩
  simp only [AppDelegate.send, List.filterMap_append, List.filterMap_cons, h,
    List.filterMap_nil, List.append_nil]

theorem foldl {α : Type} {f : AppDelegate → α → AppDelegate} (h : ∀ s a, Keeps s (f s a))
    (as : List α) (s : AppDelegate) : Keeps s (as.foldl f s) := by
  induction as generalizing s with
  | nil => exact refl s
  | cons a as ih => exact (h s a).trans (ih (f s a))

end Keeps

theorem Owner.keep {closes : List CloseRequest} {s t : AppDelegate} {p : String} {d : UInt32}
    {c : String} (h : Owner closes s p d c) (k : Keeps s t) : Owner closes t p d c := by
  refine ⟨k.bindings d c h.bound, h.package, ?_⟩
  obtain hsent | hremoving | hdeferred := h.awaited
  · apply Or.inl
    simpa only [requested, k.requests] using hsent
  · exact .inr (.inl (k.removing d hremoving))
  · exact .inr (.inr (k.deferred ▸ hdeferred))

section Methods

variable {closes : List CloseRequest} {excused : Option String} {s t : AppDelegate}
variable (env : Surroundings)
variable {p : String} {d : UInt32}

theorem Inv.keep (h : Inv closes excused s) (k : Keeps s t) (hb : Bijective t) :
    Inv closes excused t where
  bijective := hb
  named := by
    intro r hr
    apply h.named r
    simpa only [requested, k.requests] using hr
  owned := by
    intro p hp hne
    obtain ⟨d, c, howner⟩ := h.owned p (k.closing p hp) hne
    exact ⟨d, c, howner.keep k⟩

theorem Inv.keepMoves (h : Inv closes excused s) (k : Keeps s t) (m : Moves s t) :
    Inv closes excused t :=
  h.keep k (bijective_moves m h.bijective)

theorem Inv.tidy (h : Inv closes excused s) (k : Keeps s t := by exact .of_same)
    (same : SameDisplays s t := by constructor <;> rfl) : Inv closes excused t :=
  h.keep k (bijective_of_same same h.bijective)

theorem Owner.unbind {e : UInt32} {c : String} (h : Owner closes s p e c) (hne : e ≠ d) :
    Owner closes (s.unbindApplicationFromDisplay d) p e c := by
  obtain ⟨hbound, hpackage, hawaited⟩ := h
  unfold AppDelegate.unbindApplicationFromDisplay
  split
  · exact ⟨hbound, hpackage, hawaited⟩
  · refine ⟨?_, hpackage, ?_⟩
    · grind
    · obtain hsent | hremoving | hdeferred := hawaited
      · exact .inl hsent
      · exact .inr (.inl hremoving)
      · refine .inr (.inr ?_)
        grind

theorem Inv.unbind (h : Inv closes excused s) (hex : ExcusedAt excused s d) :
    Inv closes none (s.unbindApplicationFromDisplay d) := by
  refine ⟨bijective_unbind h.bijective d, ?_, ?_⟩
  · intro r hr
    apply h.named r
    unfold AppDelegate.unbindApplicationFromDisplay at hr
    split at hr <;> exact hr
  · intro p hp _
    -- what is still closing is not the package that was bound to the display
    have hother : p ∈ s.closingAppPackages ∧
        ∀ c, s.displayAppBindings[d]? = some c → packageFromComponent c ≠ p := by
      unfold AppDelegate.unbindApplicationFromDisplay at hp
      split at hp
      · rename_i hnone
        refine ⟨hp, fun c hc => ?_⟩
        rw [hnone] at hc
        cases hc
      · rename_i component hbound
        grind
    have hnot : some p ≠ excused := by
      intro heq
      obtain ⟨c, hc, hcp⟩ := hex p heq.symm
      exact hother.2 c hc hcp
    obtain ⟨e, c, howner⟩ := h.owned p hother.1 hnot
    refine ⟨e, c, howner.unbind ?_⟩
    intro heq
    exact hother.2 c (heq ▸ howner.bound) howner.package

theorem keeps_release (s : AppDelegate) (d : UInt32) : Keeps s (s.releaseUserDisplayId d) := by
  unfold AppDelegate.releaseUserDisplayId
  split
  · exact Keeps.of_same
  · rfl

theorem Inv.unbindRelease (h : Inv closes excused s) (hex : ExcusedAt excused s d) :
    Inv closes none ((s.unbindApplicationFromDisplay d).releaseUserDisplayId d) :=
  (h.unbind hex).keepMoves (keeps_release _ d) (Moves.of_move (.release _ d (not_mem_unbind s d)))

theorem Inv.settle (h : Inv closes excused s) (hex : ExcusedAt excused s d)
    (hd : d ∈ s.displayRemovalPending) : Inv closes none s := by
  refine ⟨h.bijective, h.named, ?_⟩
  intro p hp _
  by_cases hexcused : some p = excused
  · obtain ⟨c, hbound, hpackage⟩ := hex p hexcused.symm
    exact ⟨d, c, hbound, hpackage, .inr (.inl hd)⟩
  · exact h.owned p hp hexcused

theorem keeps_mark (s : AppDelegate) (d : UInt32) :
    Keeps s { s with displayRemovalPending := s.displayRemovalPending.insert d } :=
  ⟨fun _ hp => hp, fun _ _ hc => hc, fun _ hd => ExtTreeSet.mem_insert.mpr (.inr hd), rfl, rfl⟩

theorem Inv.outside (h : Inv closes excused s) (hex : ExcusedAt excused s d) (hd : ¬ UserRange d) :
    Inv closes none s := by
  refine ⟨h.bijective, h.named, ?_⟩
  intro p hp _
  apply h.owned p hp
  intro heq
  obtain ⟨c, hbound, -⟩ := hex p heq.symm
  exact hd (h.bijective.bound_range d c hbound)

theorem Inv.requestDisplayRemove (h : Inv closes excused s) (hex : ExcusedAt excused s d) :
    Inv closes none (s.requestDisplayRemove env d) := by
  have hb := bijective_moves (moves_requestDisplayRemove env s d) h.bijective
  have hmark : d ∈ s.displayRemovalPending.insert d := ExtTreeSet.mem_insert_self
  obtain ⟨heq, houtside | hremoving⟩ | ⟨-, -, heq | heq | heq⟩ :=
    requestDisplayRemove_cases env s d
  · rw [heq]
    exact h.outside hex houtside
  · rw [heq]
    exact h.settle hex hremoving
  · rw [heq] at hb ⊢
    exact (h.keep ((keeps_mark s d).trans (Keeps.send rfl)) hb).settle hex hmark
  · rw [heq] at hb ⊢
    exact (h.keep (keeps_mark s d) hb).settle hex hmark
  · rw [heq]
    exact h.unbindRelease hex

theorem keeps_setDisplayStreaming (s : AppDelegate) (d : UInt32) (enabled : Bool) :
    Keeps s (s.setDisplayStreaming env d enabled) := by
  unfold AppDelegate.setDisplayStreaming
  split
  · exact Keeps.send rfl
  · rfl

theorem keeps_openDisplayWindowForDisplay (s : AppDelegate) (d : UInt32) :
    Keeps s (s.openDisplayWindowForDisplay env d) := by
  unfold AppDelegate.openDisplayWindowForDisplay
  split
  · rfl
  · split
    · rfl
    · split
      · rfl
      · split
        · rfl
        · split
          · exact keeps_setDisplayStreaming ..
          · exact (Keeps.of_same).trans (keeps_setDisplayStreaming env _ d true)

theorem Inv.openDisplayWindowForDisplay (h : Inv closes excused s) (d : UInt32) :
    Inv closes excused (s.openDisplayWindowForDisplay env d) :=
  h.keepMoves (keeps_openDisplayWindowForDisplay env s d)
    (moves_openDisplayWindowForDisplay env s d)

/-- A package that enters the closing set is excused until it has its owner. -/
theorem Inv.enter (h : Inv closes none s) (same : SameDisplays s t)
    (hclosing : ∀ q ∈ t.closingAppPackages, q ∈ s.closingAppPackages ∨ q = p)
    (hdeferred : ∀ (d : UInt32) (c : String), s.deferredLaunchCleanup[d]? = some c →
      t.displayAppBindings[d]? = some c → t.deferredLaunchCleanup[d]? = some c)
    (houtbox : t.outbox = s.outbox) : Inv closes (some p) t where
  bijective := bijective_of_same same h.bijective
  named := by
    intro r hr
    apply h.named r
    simpa only [requested, houtbox] using hr
  owned := by
    intro q hq hne
    have hother : q ≠ p := fun heq => hne (congrArg some heq)
    obtain ⟨d, c, hbound, hpackage, hawaited⟩ :=
      h.owned q ((hclosing q hq).resolve_right hother) (nomatch ·)
    have hbound : t.displayAppBindings[d]? = some c := same.bindings ▸ hbound
    refine ⟨d, c, hbound, hpackage, ?_⟩
    obtain hsent | hremoving | hwaits := hawaited
    · apply Or.inl
      simpa only [requested, houtbox] using hsent
    · exact .inr (.inl (same.removing ▸ hremoving))
    · exact .inr (.inr (hdeferred d c hwaits hbound))

/-- The `close` request takes charge of the package it is sent for. -/
theorem Inv.sendClose {c : String} (h : Inv closes (some p) s)
    (hbound : s.displayAppBindings[d]? = some c) (hpackage : packageFromComponent c = p) :
    Inv closes none (s.send (.guestClose c p d)) := by
  have hrequested : requested closes (s.send (.guestClose c p d)) =
      requested closes s ++ [⟨c, p, d⟩] := by
    simp only [requested, AppDelegate.send, List.filterMap_append, List.filterMap_cons,
      closeRequest, List.filterMap_nil, List.append_assoc]
  refine ⟨bijective_moves (Moves.send trivial) h.bijective, ?_, ?_⟩
  · intro r hr
    rw [hrequested] at hr
    obtain hr | hr := List.mem_append.mp hr
    · exact h.named r hr
    · cases List.mem_singleton.mp hr
      exact hpackage.symm
  · intro q hq _
    by_cases hqp : q = p
    · subst hqp
      refine ⟨d, c, hbound, hpackage, .inl ?_⟩
      rw [hrequested]
      exact List.mem_append_right _ List.mem_cons_self
    · obtain ⟨e, c', hbound', hpackage', hawaited⟩ :=
        h.owned q hq (fun heq => hqp (Option.some.inj heq))
      refine ⟨e, c', hbound', hpackage', hawaited.imp_left fun hsent => ?_⟩
      rw [hrequested]
      exact List.mem_append_left _ hsent

theorem Inv.closeBoundAppAndRemoveDisplay (h : Inv closes none s) (d : UInt32) :
    Inv closes none (s.closeBoundAppAndRemoveDisplay env d) := by
  unfold AppDelegate.closeBoundAppAndRemoveDisplay
  split
  · exact h
  · split
    · exact h.requestDisplayRemove env (excusedAt_none s d)
    · rename_i component hbound
      have hentered : ∀ pending inFlight failures, Inv closes (some (packageFromComponent component))
          { s with
            pendingAppPackages := pending
            launchRequestsInFlight := inFlight
            closingLaunchFailures := failures
            closingAppPackages := s.closingAppPackages.insert (packageFromComponent component) } := by
        intro pending inFlight failures
        refine h.enter ⟨rfl, rfl, rfl, rfl, rfl, rfl⟩ ?_ (fun _ _ hc _ => hc) rfl
        intro q hq
        grind
      dsimp only
      split
      · apply Inv.requestDisplayRemove env (hentered _ _ _)
        intro p hp
        exact ⟨component, hbound, Option.some.inj hp⟩
      · split
        · apply Inv.openDisplayWindowForDisplay
          refine h.tidy ⟨?_, fun _ _ hc => hc, fun _ hd => hd, rfl, rfl⟩
          intro q hq
          grind
        · exact (hentered _ _ _).sendClose hbound rfl

theorem Inv.windowWillClose (h : Inv closes none s) (d : UInt32) :
    Inv closes none (s.windowWillClose env d) := by
  unfold AppDelegate.windowWillClose
  split
  · exact h
  · split
    · exact h
    · have hstreaming := h.keepMoves (keeps_setDisplayStreaming env s d false)
        (moves_setDisplayStreaming env s d false)
      dsimp only
      split
      · have hunbound := Inv.unbind (d := d) (hstreaming.tidy (t :=
          { s.setDisplayStreaming env d false with
            displayWindows := (s.setDisplayStreaming env d false).displayWindows.erase d
            suppressRemoveOnClose :=
              (s.setDisplayStreaming env d false).suppressRemoveOnClose.erase d })
          )
          (excusedAt_none _ d)
        split
        · exact hunbound
        · exact hunbound.keepMoves (keeps_release _ d)
            (Moves.of_move (.release _ d (not_mem_unbind _ d)))
      · apply Inv.closeBoundAppAndRemoveDisplay
        exact hstreaming.tidy

theorem Inv.closeSuppressed (h : Inv closes none s) (d : UInt32) :
    Inv closes none (s.closeSuppressed env d) := by
  apply Inv.windowWillClose
  exact h.tidy

theorem Inv.rollbackApplicationDisplay (h : Inv closes excused s) (hex : ExcusedAt excused s d) :
    Inv closes none (s.rollbackApplicationDisplay env d) := by
  have hremoved := (h.unbind hex).requestDisplayRemove env (excusedAt_none _ d)
  unfold AppDelegate.rollbackApplicationDisplay
  dsimp only
  split
  · exact hremoved.closeSuppressed env d
  · exact hremoved

/-- The cleanup takes charge of the package whose launch has failed. -/
theorem Inv.cleanupFailedLaunchForDisplay (h : Inv closes none s) (d : UInt32)
    (component : String) :
    Inv closes none (s.cleanupFailedLaunchForDisplay env d component) := by
  unfold AppDelegate.cleanupFailedLaunchForDisplay
  split
  · exact h
  · split
    · exact h
    · rename_i hbound
      have hbound := not_not.mp hbound
      have hcleanup : ∀ pending inFlight, Inv closes none { s with
          pendingAppPackages := pending
          launchRequestsInFlight := inFlight
          closingAppPackages := s.closingAppPackages.insert (packageFromComponent component)
          deferredLaunchCleanup := s.deferredLaunchCleanup.insert d component } := by
        intro pending inFlight
        have hentered : Inv closes (some (packageFromComponent component)) { s with
            pendingAppPackages := pending
            launchRequestsInFlight := inFlight
            closingAppPackages := s.closingAppPackages.insert (packageFromComponent component)
            deferredLaunchCleanup := s.deferredLaunchCleanup.insert d component } := by
          refine h.enter ⟨rfl, rfl, rfl, rfl, rfl, rfl⟩ ?_ ?_ rfl
          · intro q hq
            grind
          · intro e c hc hbound'
            grind
        refine ⟨hentered.bijective, hentered.named, ?_⟩
        intro q hq _
        by_cases hqp : q = packageFromComponent component
        · exact ⟨d, component, hbound, hqp.symm, .inr (.inr ExtTreeMap.getElem?_insert_self)⟩
        · exact hentered.owned q hq (fun heq => hqp (Option.some.inj heq))
      dsimp only
      split
      · exact (hcleanup _ _).keepMoves (Keeps.send rfl) (Moves.send trivial)
      · exact hcleanup _ _

theorem Inv.cleanups (h : Inv closes none s) (cleanups : List (UInt32 × String)) :
    Inv closes none (cleanups.foldl
      (fun s cleanup => s.cleanupFailedLaunchForDisplay env cleanup.1 cleanup.2) s) := by
  induction cleanups generalizing s with
  | nil => exact h
  | cons cleanup rest ih => exact ih (h.cleanupFailedLaunchForDisplay env cleanup.1 cleanup.2)

theorem Inv.launchComponent (h : Inv closes none s) (component : String) (d : UInt32) :
    Inv closes none (s.launchComponent env component d) := by
  unfold AppDelegate.launchComponent
  split
  · exact h
  · split
    · exact h.keepMoves (Keeps.send rfl) (Moves.send trivial)
    · exact h.cleanupFailedLaunchForDisplay ..

end Methods
end ClosingOwners
end MacMu
