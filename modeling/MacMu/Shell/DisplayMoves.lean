import MacMu.Shell.DisplayTraffic

/-!
What the moves of a block, a resize and a launch do to the view of a display.
While a block runs its effects are not issued yet; they count as the last of the
orders, and a resize among them as not completed.
-/

namespace MacMu
namespace DisplayGeometry

open Std ControlProtocol ControlRoundTrip ControlReceiver DisplayTable

variable {d : UInt32} {w : World} {s t : AppDelegate} {es new : List Effect}

theorem order_of_completion {e : Effect} {c : Completion} (he : completion e = some c)
    (hc : displayOf c = some d) : effectOrder d e = some .add := by
  cases e with
  | launchDisplayAdd | resizeDisplayAdd =>
    cases he
    cases hc
    exact if_pos rfl
  | displayRemove | displayStream =>
    cases he
    cases hc
  | _ => cases he

/-- The shell changes and adds effects, none of them a DISPLAY_ADD for `d`. -/
theorem carry_shell {es' : List Effect} {before : List Order} {removing : Prop}
    (hsub : ∀ e ∈ es, e ∈ es') (hold : ∀ e ∈ es', effectOrder d e = some .add → e ∈ es)
    (horders : orders w es' d = before) (hremoving : removing → d ∈ t.displayRemovalPending)
    (hresizing : d ∈ t.displayResizePending → d ∈ s.displayResizePending)
    (hbound : d ∈ t.displayAppBindings → d ∈ s.displayAppBindings ∧
      t.displayLaunchProfiles[d]? = s.displayLaunchProfiles[d]? ∧
      (d ∈ s.displayResizePending → d ∈ t.displayResizePending)) :
    View.Carry { view { w with shell := s } es d with orders := before, removing := removing }
      (view { w with shell := t } es' d) := by
  refine { View.Carry.refl { view { w with shell := s } es d with
      orders := before, removing := removing } with
    orders := ?_, launching := ?_, unsent := ?_, awaited := ?_, removing := hremoving
    resizing := hresizing, bound := ?_ }
  · rw [← horders]
    exact List.Sublist.refl _
  · rintro ⟨component, packageName, hout | ⟨e, he, hc⟩⟩
    · exact ⟨component, packageName, .inl hout⟩
    · exact ⟨component, packageName, .inr ⟨e, hsub e he, hc⟩⟩
  · rintro g ⟨previous, hg, e, he, hc⟩
    exact ⟨previous, hg, e, hold e he (order_of_completion hc rfl), hc⟩
  · refine Or.imp id ?_
    rintro ⟨g, previous, hg, e, he, hc⟩
    exact ⟨g, previous, hg, e, hsub e he, hc⟩
  · intro hmem
    obtain ⟨hmem, hprofile, hpending⟩ := hbound hmem
    refine ⟨hmem, ?_, hpending⟩
    change Option.map _ t.displayLaunchProfiles[d]? = Option.map _ s.displayLaunchProfiles[d]?
    rw [hprofile]

theorem carry_reshell (hremoving : d ∈ w.shell.displayRemovalPending → d ∈ t.displayRemovalPending)
    (hresizing : d ∈ t.displayResizePending ↔ d ∈ w.shell.displayResizePending)
    (hbound : d ∈ t.displayAppBindings → d ∈ w.shell.displayAppBindings)
    (hprofile : t.displayLaunchProfiles[d]? = w.shell.displayLaunchProfiles[d]?) :
    View.Carry (view w es d) (view { w with shell := t } es d) :=
  carry_shell (s := w.shell) (fun _ he => he) (fun _ he _ => he) rfl hremoving hresizing.mp
    fun hmem => ⟨hbound hmem, hprofile, hresizing.mpr⟩

theorem orders_append_silent (hsilent : ∀ e ∈ new, effectOrder d e = none) :
    orders w (es ++ new) d = orders w es d := by
  rw [orders, orders, List.filterMap_append, List.filterMap_eq_nil_iff.mpr hsilent, List.append_nil]

theorem mem_of_silent (hsilent : ∀ e ∈ new, effectOrder d e = none) (e : Effect)
    (he : e ∈ es ++ new) (hadd : effectOrder d e = some .add) : e ∈ es :=
  (List.mem_append.mp he).resolve_right fun he => nomatch (hsilent e he).symm.trans hadd

theorem add_range {e : Effect} (hrange : UserRange d)
    (hother : ∀ k, k ≠ d → effectOrder k e = none) (k : UInt32)
    (hmem : .add ∈ [e].filterMap (effectOrder k)) : UserRange k := by
  by_cases hk : k = d
  · exact hk ▸ hrange
  · rw [filterMap_cons_toList, hother k hk] at hmem
    exact absurd hmem List.not_mem_nil

theorem orders_concat {e : Effect} {o : Order} (he : effectOrder d e = some o) :
    orders w (es ++ [e]) d = orders w es d ++ [o] := by
  rw [orders, orders, List.filterMap_append, filterMap_cons_toList, he, ← List.append_assoc]
  rfl

theorem Traffic.reshell (h : Traffic { w with shell := s } es)
    (hadd : ∀ d, .add ∈ new.filterMap (effectOrder d) → UserRange d)
    (hbound : ∀ d ∈ t.displayAppBindings, d ∈ s.displayAppBindings ∨ UserRange d) :
    Traffic { w with shell := t } (es ++ new) := by
  refine { h with ordered := ?_, ranged := ?_ }
  · intro d hmem
    rw [orders, List.filterMap_append, ← List.append_assoc] at hmem
    exact (List.mem_append.mp hmem).elim (h.ordered d) (hadd d)
  · intro d hd
    exact (hbound d hd).elim (h.ranged d) id

theorem Traffic.rebound (h : Traffic w es)
    (hbound : ∀ d ∈ t.displayAppBindings, d ∈ w.shell.displayAppBindings) :
    Traffic { w with shell := t } es :=
  { h with ranged := fun d hd => h.ranged d (hbound d hd) }

section Moves

variable {w : World} {s t : AppDelegate} (h : Inv { w with shell := s } s.outbox)
variable {d : UInt32}
include h

theorem Inv.quiet {new : List Effect} (houtbox : t.outbox = s.outbox ++ new)
    (hsilent : ∀ d, ∀ e ∈ new, effectOrder d e = none)
    (hremoving : ∀ d ∈ s.displayRemovalPending, d ∈ t.displayRemovalPending)
    (hresizing : ∀ d ∈ t.displayResizePending, d ∈ s.displayResizePending)
    (hbound : ∀ d ∈ t.displayAppBindings, d ∈ s.displayAppBindings ∧
      t.displayLaunchProfiles[d]? = s.displayLaunchProfiles[d]? ∧
      (d ∈ s.displayResizePending → d ∈ t.displayResizePending)) :
    Inv { w with shell := t } t.outbox := by
  rw [houtbox]
  refine ⟨h.traffic.reshell ?_ fun d hd => .inl (hbound d hd).1, ?_⟩
  · intro d hmem
    rw [List.filterMap_eq_nil_iff.mpr (hsilent d)] at hmem
    exact absurd hmem List.not_mem_nil
  · intro d hd
    exact (h.consistent d hd).carry (carry_shell (fun _ he => List.mem_append_left _ he)
      (mem_of_silent (hsilent d)) (orders_append_silent (hsilent d)) (hremoving d) (hresizing d)
      (hbound d))

theorem Inv.sendRemoval (hfresh : d ∉ s.displayRemovalPending) : Inv { w with shell := { s with
        displayRemovalPending := s.displayRemovalPending.insert d
        outbox := s.outbox ++ [.displayRemove d] } } (s.outbox ++ [.displayRemove d]) := by
  refine ⟨h.traffic.reshell ?_ fun _ hk => .inl hk, ?_⟩
  · intro k hmem
    rw [filterMap_cons_toList, effectOrder] at hmem
    split at hmem
    · cases List.mem_singleton.mp hmem
    · exact absurd hmem List.not_mem_nil
  · intro k hk
    by_cases heq : k = d
    · subst heq
      have horder : effectOrder k (.displayRemove k) = some .remove := if_pos rfl
      refine ((h.consistent k hk).sendRemoval hfresh).carry (carry_shell
        (fun _ he => List.mem_append_left _ he) ?_ (orders_concat horder)
        (fun _ => ExtTreeSet.mem_insert_self) id fun hmem => ⟨hmem, rfl, id⟩)
      intro e he hadd
      refine (List.mem_append.mp he).resolve_right fun he => ?_
      cases List.mem_singleton.mp he
      cases horder.symm.trans hadd
    · have hsilent : ∀ e ∈ [Effect.displayRemove d], effectOrder k e = none := by
        intro e he
        cases List.mem_singleton.mp he
        exact if_neg (Ne.symm heq)
      exact (h.consistent k hk).carry (carry_shell (fun _ he => List.mem_append_left _ he)
        (mem_of_silent hsilent) (orders_append_silent hsilent)
        (fun hmem => ExtTreeSet.mem_insert.mpr (.inr hmem)) id fun hmem => ⟨hmem, rfl, id⟩)

theorem Inv.unbind (d : UInt32) : Inv { w with shell := s.unbindApplicationFromDisplay d }
      (s.unbindApplicationFromDisplay d).outbox := by
  unfold AppDelegate.unbindApplicationFromDisplay
  split
  · exact h
  · refine h.quiet (List.append_nil _).symm (fun _ _ he => absurd he List.not_mem_nil)
      (fun _ hk => hk) (fun k hk => (ExtTreeSet.mem_erase.mp hk).2) ?_
    intro k hk
    obtain ⟨hne, hmem⟩ := ExtTreeMap.mem_erase.mp hk
    refine ⟨hmem, ?_, fun hpending => ExtTreeSet.mem_erase.mpr ⟨hne, hpending⟩⟩
    change (s.displayLaunchProfiles.erase d)[k]? = _
    rw [ExtTreeMap.getElem?_erase, if_neg hne]

theorem Inv.move (hmove : Move s t) : Inv { w with shell := t } t.outbox := by
  cases hmove with
  | tidy same effects outbox incidental =>
    refine h.quiet outbox ?_ ?_ ?_ ?_
    · intro d e he
      have hincidental := incidental e he
      cases e <;> first | rfl | exact hincidental.elim
    · intro d hd
      rw [same.removing]
      exact hd
    · intro d hd
      rw [← same.resizing]
      exact hd
    · intro d hd
      rw [same.bindings] at hd
      rw [same.profiles, same.resizing]
      exact ⟨hd, rfl, id⟩
  | unbind d => exact h.unbind d
  | release d unbound =>
    unfold AppDelegate.releaseUserDisplayId
    split
    · exact h.quiet (List.append_nil _).symm (fun _ _ he => absurd he List.not_mem_nil)
        (fun _ hk => hk) (fun _ hk => hk) fun _ hk => ⟨hk, rfl, id⟩
    · exact h
  | activate d bound =>
    exact h.quiet (List.append_nil _).symm (fun _ _ he => absurd he List.not_mem_nil)
      (fun _ hk => hk) (fun _ hk => hk) fun _ hk => ⟨hk, rfl, id⟩
  | markRemoval d range fresh =>
    exact h.quiet (List.append_nil _).symm (fun _ _ he => absurd he List.not_mem_nil)
      (fun _ hk => ExtTreeSet.mem_insert.mpr (.inr hk)) (fun _ hk => hk) fun _ hk => ⟨hk, rfl, id⟩
  | sendRemoval d range fresh => exact h.sendRemoval fresh

theorem Inv.others {k : UInt32} (hk : UserRange k) {e : Effect}
    (he : effectOrder k e = none) (houtbox : t.outbox = s.outbox ++ [e])
    (hremoving : t.displayRemovalPending = s.displayRemovalPending)
    (hresizing : k ∈ t.displayResizePending ↔ k ∈ s.displayResizePending)
    (hbound : k ∈ t.displayAppBindings → k ∈ s.displayAppBindings)
    (hprofile : t.displayLaunchProfiles[k]? = s.displayLaunchProfiles[k]?) :
    (view { w with shell := t } t.outbox k).Consistent := by
  have hsilent : ∀ e' ∈ [e], effectOrder k e' = none := by
    intro e' he'
    cases List.mem_singleton.mp he'
    exact he
  rw [houtbox]
  exact (h.consistent k hk).carry (carry_shell (fun _ he => List.mem_append_left _ he)
    (mem_of_silent hsilent) (orders_append_silent hsilent) (fun hmem => hremoving ▸ hmem)
    hresizing.mp fun hmem => ⟨hbound hmem, hprofile, hresizing.mpr⟩)

theorem Inv.resized {width height dpi : UInt32} {previous : DisplayLaunchProfile}
    (hr : Resized d width height dpi previous s t) : Inv { w with shell := t } t.outbox := by
  have horder : effectOrder d (.resizeDisplayAdd ⟨d, width, height, dpi, kNewDisplayFlags⟩
      previous) = some .add := if_pos rfl
  have hother : ∀ k, k ≠ d → effectOrder k (.resizeDisplayAdd
      ⟨d, width, height, dpi, kNewDisplayFlags⟩ previous) = none :=
    fun k hk => if_neg (Ne.symm hk)
  refine ⟨?_, ?_⟩
  · rw [hr.outbox]
    exact h.traffic.reshell (add_range hr.range hother) fun k hk => .inl (hr.bindings ▸ hk)
  · intro k hk
    by_cases heq : k = d
    · subst heq
      have hprofile : (view { w with shell := s } s.outbox k).profile = some previous.geometry := by
        rw [view, hr.profile]
        rfl
      have hremoving : k ∈ t.displayRemovalPending ↔ k ∈ s.displayRemovalPending := by
        rw [hr.removing]
      have hbound : k ∈ t.displayAppBindings ↔ k ∈ s.displayAppBindings := by
        rw [hr.bindings]
      have hresizing : k ∈ t.displayResizePending := by
        rw [hr.resizing]
        exact ExtTreeSet.mem_insert_self
      rw [hr.outbox]
      refine ((h.consistent k hk).resize hr.notRemoving hr.idle hprofile
        ⟨width, height, dpi⟩).carry { View.Carry.refl { view { w with shell := s } s.outbox k with
          orders := orders { w with shell := s } s.outbox k ++ [.add]
          profile := some ⟨width, height, dpi⟩, resizing := True
          unsent := fun x => (view { w with shell := s } s.outbox k).unsent x ∨
            x = previous.geometry } with
          orders := ?_, launching := ?_, unsent := ?_, awaited := ?_, removing := ?_
          resizing := fun _ => trivial, bound := ?_ }
      · exact (orders_concat (w := { w with shell := t }) horder) ▸ List.Sublist.refl _
      · rintro ⟨component, packageName, hout | ⟨e, he, hc⟩⟩
        · exact ⟨component, packageName, .inl hout⟩
        · exact ⟨component, packageName, .inr ⟨e, List.mem_append_left _ he, hc⟩⟩
      · rintro g ⟨captured, rfl, e, he, hc⟩
        rcases List.mem_append.mp he with he | he
        · exact .inl ⟨captured, rfl, e, he, hc⟩
        · cases List.mem_singleton.mp he
          cases hc
          exact .inr rfl
      · intro _
        exact .inr ⟨previous.geometry, previous, rfl, _, List.mem_append_right _
          List.mem_cons_self, rfl⟩
      · exact hremoving.mpr
      · intro hmem
        refine ⟨hbound.mp hmem, ?_, fun _ => hresizing⟩
        change Option.map _ t.displayLaunchProfiles[k]? = _
        rw [hr.profiles, ExtTreeMap.getElem?_insert_self]
        rfl
    · refine h.others hk (hother k heq) hr.outbox hr.removing ?_ (fun hmem => hr.bindings ▸ hmem) ?_
      · rw [hr.resizing, ExtTreeSet.mem_insert, LawfulEqCmp.compare_eq_iff_eq]
        exact or_iff_right (Ne.symm heq)
      · rw [hr.profiles, ExtTreeMap.getElem?_insert, if_neg]
        exact fun hcmp => heq (LawfulEqCmp.eq_of_compare hcmp).symm

theorem Inv.launched {component : String} {profile : DisplayLaunchProfile}
    (hl : Launched d component profile s t) : Inv { w with shell := t } t.outbox := by
  have horder : effectOrder d (.launchDisplayAdd
      ⟨d, profile.width, profile.height, profile.dpi, kNewDisplayFlags⟩ component
      (packageFromComponent component)) = some .add := if_pos rfl
  have hother : ∀ k, k ≠ d → effectOrder k (.launchDisplayAdd
      ⟨d, profile.width, profile.height, profile.dpi, kNewDisplayFlags⟩ component
      (packageFromComponent component)) = none := fun k hk => if_neg (Ne.symm hk)
  refine ⟨?_, ?_⟩
  · rw [hl.outbox]
    refine h.traffic.reshell (add_range hl.range hother) fun k hk => ?_
    rw [hl.bindings] at hk
    rcases ExtTreeMap.mem_insert.mp hk with heq | hk
    · exact .inr (LawfulEqCmp.eq_of_compare heq ▸ hl.range)
    · exact .inl hk
  · intro k hk
    by_cases heq : k = d
    · subst heq
      have hremoving : k ∈ t.displayRemovalPending ↔ k ∈ s.displayRemovalPending := by
        rw [hl.removing]
      have hresizing : k ∈ t.displayResizePending ↔ k ∈ s.displayResizePending := by
        rw [hl.resizing]
      rw [hl.outbox]
      refine ((h.consistent k hk).launch hl.notRemoving profile.geometry).carry
        { View.Carry.refl { view { w with shell := s } s.outbox k with
          orders := orders { w with shell := s } s.outbox k ++ [.add], bound := True
          profile := some profile.geometry, launching := True } with
          orders := ?_, launching := ?_, unsent := ?_, awaited := ?_, removing := ?_
          resizing := ?_, bound := ?_ }
      · exact (orders_concat (w := { w with shell := t }) horder) ▸ List.Sublist.refl _
      · intro _
        exact ⟨_, _, .inr ⟨_, List.mem_append_right _ List.mem_cons_self, rfl⟩⟩
      · rintro g ⟨captured, hg, e, he, hc⟩
        rcases List.mem_append.mp he with he | he
        · exact ⟨captured, hg, e, he, hc⟩
        · cases List.mem_singleton.mp he
          cases hc
      · refine Or.imp id ?_
        rintro ⟨g, captured, hg, e, he, hc⟩
        exact ⟨g, captured, hg, e, List.mem_append_left _ he, hc⟩
      · exact hremoving.mpr
      · exact hresizing.mp
      · intro _
        refine ⟨trivial, ?_, hresizing.mpr⟩
        change Option.map _ t.displayLaunchProfiles[k]? = _
        rw [hl.profiles, ExtTreeMap.getElem?_insert_self]
        rfl
    · refine h.others hk (hother k heq) hl.outbox hl.removing (by rw [hl.resizing]) ?_ ?_
      · intro hmem
        rw [hl.bindings] at hmem
        exact (ExtTreeMap.mem_insert.mp hmem).resolve_left
          fun hcmp => heq (LawfulEqCmp.eq_of_compare hcmp).symm
      · rw [hl.profiles, ExtTreeMap.getElem?_insert, if_neg]
        exact fun hcmp => heq (LawfulEqCmp.eq_of_compare hcmp).symm

end Moves

theorem Inv.moves (h : Inv { w with shell := s } s.outbox) (hmoves : Moves s t) :
    Inv { w with shell := t } t.outbox := by
  induction hmoves with
  | refl => exact h
  | tail _ hmove ih => exact ih.move hmove

end DisplayGeometry
end MacMu
