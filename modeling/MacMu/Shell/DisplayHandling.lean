import MacMu.Shell.DisplayRequests

/-!
The main queue handles the completion of a DISPLAY_ADD. The block leaves the
queue and its effect on the shell comes in one step: a display may be out of
touch in between. A failed resize restores the geometry it captured; that this
is the table's is an assumption on the state the block meets, and the one place
where the shell can go wrong.
-/

namespace MacMu
namespace DisplayGeometry

open Std ControlProtocol ControlRoundTrip ControlReceiver DisplayTable

variable {w : World} {response : Response} {d : UInt32}

theorem Inv.history {es : List Effect} (h : Inv w es) (answered : List Nat) :
    Inv { w with answered := answered } es :=
  ⟨{ h.traffic with }, h.consistent⟩

section Pop

variable {w : World} {tag : Nat} {b : Block} {rest : List (Nat × Block)}
  (hqueue : w.mainQueue = (tag, b) :: rest)
include hqueue

theorem signals_pop (d : UInt32) :
    signals w d = (blockSignal d (tag, b)).toList ++ signals { w with mainQueue := rest } d := by
  rw [signals, signals, hqueue, filterMap_cons_toList, List.append_assoc, List.append_assoc,
    List.append_assoc]

theorem outstanding_pop (t : Nat) (c : Completion) :
    Outstanding w t c ↔ Outstanding { w with mainQueue := rest } t c ∨
      t = tag ∧ ∃ response, c.block response = some b := by
  rw [Outstanding, Outstanding, hqueue]
  constructor
  · rintro (hpending | ⟨response, b', hb, hmem⟩)
    · exact .inl (.inl hpending)
    · rcases List.mem_cons.mp hmem with heq | hmem
      · cases heq
        exact .inr ⟨rfl, response, hb⟩
      · exact .inl (.inr ⟨response, b', hb, hmem⟩)
  · rintro ((hpending | ⟨response, b', hb, hmem⟩) | ⟨rfl, response, hb⟩)
    · exact .inl hpending
    · exact .inr ⟨response, b', hb, List.mem_cons_of_mem _ hmem⟩
    · exact .inr ⟨response, b, hb, List.mem_cons_self⟩

theorem traffic_pop (h : Traffic w []) (lastFollowed : ExtTreeMap UInt32 (Nat × Geometry)) :
    Traffic { w with mainQueue := rest, lastFollowed := lastFollowed } [] :=
  h.of_moved rfl rfl rfl (fun _ _ hx => hx) (fun x hx => .inr ⟨x, hx, rfl, fun _ hd => hd⟩)
    (fun _ => List.Sublist.refl _) (fun x hx => .inl (hqueue ▸ List.mem_cons_of_mem _ hx))
    h.upright

theorem carry_pop {d : UInt32} {lastFollowed : ExtTreeMap UInt32 (Nat × Geometry)}
    (hsilent : d ∈ w.shell.displayRemovalPending ∨ blockSignal d (tag, b) = none)
    (hother : ∀ c response, c.block response = some b → displayOf c ≠ some d)
    (hfollowed : lastFollowed[d]? = w.lastFollowed[d]?) :
    View.Carry (view w [] d)
      (view { w with mainQueue := rest, lastFollowed := lastFollowed } [] d) := by
  have hsignals := signals_pop hqueue d
  refine carry_of rfl rfl hfollowed (fun _ => rfl) ?_ ?_ (List.Sublist.refl _) ?_
  · rw [hsignals]
    exact List.sublist_append_right _ _
  · intro hkept
    rw [hsignals, hsilent.resolve_left hkept]
    rfl
  · intro t c hc
    rw [outstanding_pop hqueue]
    refine (or_iff_left ?_).symm
    rintro ⟨-, response, hb⟩
    exact hother c response hb hc

end Pop

theorem eq_of_launchBlock {c : Completion} {r : Response} {component packageName : String}
    (h : c.block r = some (.launchAddResponse component packageName d response)) :
    c = .launchAdd component packageName d := by
  cases c <;> cases h
  rfl

theorem eq_of_resizeBlock {c : Completion} {r : Response} {previous : DisplayLaunchProfile}
    (h : c.block r = some (.resizeResponse d previous response)) : c = .resizeAdd d previous := by
  cases c <;> cases h
  rfl

section Launches

variable {w : World} (h : Inv w []) {tag : Nat} {component packageName : String} {d : UInt32}
  {response : Response} {rest : List (Nat × Block)}
  (hqueue : w.mainQueue = (tag, .launchAddResponse component packageName d response) :: rest)
include h hqueue

theorem Inv.popLaunch (hd : UserRange d → (view { w with mainQueue := rest } [] d).Consistent) :
    Inv { w with mainQueue := rest } [] := by
  refine ⟨traffic_pop hqueue h.traffic w.lastFollowed, ?_⟩
  intro k hk
  by_cases heq : k = d
  · exact heq ▸ hd (heq ▸ hk)
  · refine (h.consistent k hk).carry
      (carry_pop hqueue (.inr (if_neg fun hsame => heq hsame.1.symm)) ?_ rfl)
    intro c r hb hc
    rw [eq_of_launchBlock hb] at hc
    exact heq (Option.some.inj hc).symm

theorem outstanding_resize_popLaunch (t : Nat) (k : UInt32) (previous : DisplayLaunchProfile) :
    Outstanding w t (.resizeAdd k previous) ↔
      Outstanding { w with mainQueue := rest } t (.resizeAdd k previous) := by
  rw [outstanding_pop hqueue]
  refine or_iff_left ?_
  rintro ⟨-, r, hb⟩
  cases hb

theorem Inv.launchAccepted (hok : response.ok = true) : Inv { w with mainQueue := rest } [] := by
  refine h.popLaunch hqueue ?_
  intro hd
  have hsignals := signals_pop hqueue d
  have hsignal : blockSignal d (tag, .launchAddResponse component packageName d response) =
      some .accepted := if_pos ⟨rfl, hok⟩
  rw [hsignal] at hsignals
  refine (h.consistent d hd).handleAccepted hsignals (h.consistent d hd).profiled ?_ ?_
  · rintro t g ⟨previous, hg, ht⟩
    exact ⟨previous, hg, (outstanding_resize_popLaunch h hqueue t d previous).mpr ht⟩
  · intro hresizing
    refine ((h.consistent d hd).resizing hresizing).imp ?_ id
    rintro ⟨t, g, previous, hg, ht⟩
    exact ⟨t, g, previous, hg, (outstanding_resize_popLaunch h hqueue t d previous).mp ht⟩

theorem Inv.launchFailed (hok : response.ok = false) (hunbound : d ∉ w.shell.displayAppBindings) :
    Inv { w with mainQueue := rest } [] := by
  refine h.popLaunch hqueue ?_
  intro hd
  have hsignals := signals_pop hqueue d
  have hsignal : blockSignal d (tag, .launchAddResponse component packageName d response) =
      none := if_neg fun hsame => by
        rw [hok] at hsame
        exact absurd hsame.2 Bool.false_ne_true
  rw [hsignal] at hsignals
  refine ((h.consistent d hd).unbind (view { w with mainQueue := rest } [] d).launching).carry
    { View.Carry.refl { view w [] d with
        bound := False, launching := (view { w with mainQueue := rest } [] d).launching } with
      signals := ?_, last := ?_, resizes := ?_, awaited := ?_
      bound := fun hbound => absurd hbound hunbound }
  · change (signals _ d).Sublist (signals w d)
    rw [hsignals]
    exact List.Sublist.refl _
  · intro _
    change (signals _ d).getLast? = (signals w d).getLast?
    rw [hsignals]
    rfl
  · rintro t g ⟨previous, hg, ht⟩
    exact .inl ⟨previous, hg, (outstanding_resize_popLaunch h hqueue t d previous).mpr ht⟩
  · refine Or.imp ?_ id
    rintro ⟨t, g, previous, hg, ht⟩
    exact ⟨t, g, previous, hg, (outstanding_resize_popLaunch h hqueue t d previous).mp ht⟩

end Launches

theorem Inv.withShell (h : Inv w []) (hdrained : w.shell.outbox = []) :
    Inv { w with shell := w.shell } w.shell.outbox := by
  rw [hdrained]
  exact h

theorem outbox_unbind (s : AppDelegate) (d : UInt32) :
    (s.unbindApplicationFromDisplay d).outbox = s.outbox := by
  unfold AppDelegate.unbindApplicationFromDisplay
  split <;> rfl

theorem Inv.launchAddResponse (h : Inv w []) (hdrained : w.shell.outbox = []) {tag : Nat}
    {component packageName : String} {rest : List (Nat × Block)}
    (hqueue : w.mainQueue = (tag, .launchAddResponse component packageName d response) :: rest)
    (env : Surroundings) :
    Inv { w with
      mainQueue := rest
      shell := w.shell.launchAddResponse env component packageName d response }
      (w.shell.launchAddResponse env component packageName d response).outbox := by
  cases hok : response.ok with
  | true =>
    have hpop := (h.launchAccepted hqueue hok).withShell hdrained
    exact Inv.moves (w := { w with mainQueue := rest }) hpop
      (moves_launchAddResponse env w.shell component packageName d response)
  | false =>
    have hunbound := (h.withShell hdrained).unbind d
    rw [outbox_unbind, hdrained] at hunbound
    have hpop := (hunbound.launchFailed hqueue hok (not_mem_unbind w.shell d)).withShell
      ((outbox_unbind w.shell d).trans hdrained)
    exact Inv.moves (w := { w with mainQueue := rest }) hpop
      (moves_failedLaunch env w.shell component packageName d hok)

structure ResizeHandled (s t : AppDelegate) (d : UInt32) (previous : DisplayLaunchProfile)
    (response : Response) : Prop where
  outbox : t.outbox = s.outbox
  bindings : t.displayAppBindings = s.displayAppBindings
  removing : t.displayRemovalPending = s.displayRemovalPending
  resizing : t.displayResizePending = s.displayResizePending.erase d
  others : ∀ k, k ≠ d → t.displayLaunchProfiles[k]? = s.displayLaunchProfiles[k]?
  profile : t.displayLaunchProfiles[d]? = some previous ∨
    t.displayLaunchProfiles[d]? = s.displayLaunchProfiles[d]?
  restored : d ∈ s.displayAppBindings → response.ok = false →
    t.displayLaunchProfiles[d]? = some previous

theorem resizeHandled (s : AppDelegate) (d : UInt32) (previous : DisplayLaunchProfile)
    (response : Response) :
    ResizeHandled s (s.resizeResponse d previous response) d previous response := by
  unfold AppDelegate.resizeResponse
  dsimp only
  split
  · rename_i hunbound
    exact ⟨rfl, rfl, rfl, rfl, fun _ _ => rfl, .inr rfl, fun hbound => absurd hbound hunbound⟩
  · split
    · rename_i haccepted
      refine ⟨rfl, rfl, rfl, rfl, fun _ _ => rfl, .inr rfl, ?_⟩
      intro _ hok
      rw [hok] at haccepted
      exact absurd haccepted Bool.false_ne_true
    · refine ⟨rfl, rfl, rfl, rfl, ?_, .inl ExtTreeMap.getElem?_insert_self,
        fun _ _ => ExtTreeMap.getElem?_insert_self⟩
      intro k hk
      rw [ExtTreeMap.getElem?_insert, if_neg]
      exact fun hcmp => hk (LawfulEqCmp.eq_of_compare hcmp).symm

section Resizes

variable {w : World} (h : Inv w []) (hdrained : w.shell.outbox = []) {tag : Nat} {d : UInt32}
  {previous : DisplayLaunchProfile} {response : Response} {rest : List (Nat × Block)}
  (hqueue : w.mainQueue = (tag, .resizeResponse d previous response) :: rest)
include h hdrained hqueue

theorem Inv.resizeResponse
    (hovertaken : response.ok = false → ∀ n g, w.lastFollowed[d]? = some (n, g) → tag < n →
      g = previous.geometry) :
    Inv { w with mainQueue := rest, shell := w.shell.resizeResponse d previous response }
      (w.shell.resizeResponse d previous response).outbox := by
  have hshell := resizeHandled w.shell d previous response
  generalize w.shell.resizeResponse d previous response = t at hshell ⊢
  rw [hshell.outbox, hdrained]
  have hdone : d ∉ t.displayResizePending := by
    rw [hshell.resizing]
    exact fun hmem => (ExtTreeSet.mem_erase.mp hmem).1 compare_self
  refine ⟨(traffic_pop hqueue h.traffic w.lastFollowed).rebound fun k hk => hshell.bindings ▸ hk, ?_⟩
  intro k hk
  by_cases heq : k = d
  · subst heq
    have hbefore := h.consistent k hk
    have hpopped : ∀ t g, (view { w with mainQueue := rest } [] k).resizes t g →
        (view w [] k).resizes t g := by
      rintro t g ⟨captured, hg, ht⟩
      exact ⟨captured, hg, (outstanding_pop hqueue t _).mpr (.inl ht)⟩
    have hprofiled : k ∈ w.shell.displayAppBindings →
        (t.displayLaunchProfiles[k]?.map DisplayLaunchProfile.geometry).isSome := by
      intro hbound
      rcases hshell.profile with hprofile | hprofile
      · rw [hprofile]
        rfl
      · rw [hprofile]
        exact hbefore.profiled hbound
    have hsignals := signals_pop hqueue k
    cases hok : response.ok with
    | true =>
      have hsignal : blockSignal k (tag, .resizeResponse k previous response) =
          some .accepted := if_pos ⟨rfl, hok⟩
      rw [hsignal] at hsignals
      rw [view, hshell.bindings, hshell.removing]
      exact hbefore.handleAccepted hsignals hprofiled hpopped fun hr => absurd hr hdone
    | false =>
      have hsignal : blockSignal k (tag, .resizeResponse k previous response) = none := by
        refine if_neg fun hsame => ?_
        rw [hok] at hsame
        exact absurd hsame.2 Bool.false_ne_true
      rw [hsignal] at hsignals
      have hpending : (view w [] k).resizes tag previous.geometry :=
        ⟨previous, rfl, (outstanding_pop hqueue tag _).mpr (.inr ⟨rfl, response, rfl⟩)⟩
      have hrestored : k ∈ w.shell.displayAppBindings →
          t.displayLaunchProfiles[k]?.map DisplayLaunchProfile.geometry =
            some previous.geometry := by
        intro hbound
        rw [hshell.restored hbound hok]
        rfl
      rw [view, hshell.bindings, hshell.removing]
      refine (hbefore.handleFailed hpending (hovertaken hok) hrestored hpopped hdone).carry
        { View.Carry.refl { view w [] k with
            profile := t.displayLaunchProfiles[k]?.map DisplayLaunchProfile.geometry
            resizes := (view { w with mainQueue := rest } [] k).resizes
            resizing := k ∈ t.displayResizePending } with
          signals := ?_, last := ?_, launching := ?_ }
      · change List.Sublist (signals { w with mainQueue := rest } k) (signals w k)
        rw [hsignals]
        exact List.Sublist.refl _
      · intro _
        exact (congrArg List.getLast? hsignals).symm
      · rintro ⟨component, packageName, ⟨n, hn⟩ | ⟨e, he, -⟩⟩
        · refine ⟨component, packageName, .inl ⟨n, ?_⟩⟩
          refine ((outstanding_pop hqueue n _).mp hn).resolve_right ?_
          rintro ⟨-, r, hb⟩
          cases hb
        · exact absurd he List.not_mem_nil
  · have hpop : View.Carry (view w [] k) (view { w with mainQueue := rest } [] k) := by
      refine carry_pop hqueue (.inr (if_neg fun hsame => heq hsame.1.symm)) ?_ rfl
      intro c r hb hc
      rw [eq_of_resizeBlock hb] at hc
      exact heq (Option.some.inj hc).symm
    have hresizing : k ∈ t.displayResizePending ↔ k ∈ w.shell.displayResizePending := by
      rw [hshell.resizing, ExtTreeSet.mem_erase, ne_eq, LawfulEqCmp.compare_eq_iff_eq]
      exact and_iff_right (Ne.symm heq)
    exact ((h.consistent k hk).carry hpop).carry (carry_reshell
      (w := { w with mainQueue := rest }) (fun hmem => hshell.removing ▸ hmem) hresizing
      (fun hmem => hshell.bindings ▸ hmem) (hshell.others k heq))

end Resizes

end DisplayGeometry
end MacMu
