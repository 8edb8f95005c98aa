import MacMu.Shell.DisplayMoves

/-!
A block issues its effects as requests. Whatever comes of the write, the
completion of a DISPLAY_ADD is outstanding from then on; an order whose frame
was not written is dropped. The ids that the requests draw are new as long as
fewer than `2 ^ 32 - 1` requests were issued.
-/

namespace MacMu
namespace DisplayGeometry

open Std ControlProtocol ControlRoundTrip ControlReceiver DisplayTable

theorem frameOrder_request {e : Effect} {r : ControlRequest} (hr : e.controlRequest = some r)
    (d : UInt32) (tag : Nat) (id : UInt32) :
    frameOrder d ⟨tag, r.type.code, id, r.payload⟩ = effectOrder d e := by
  cases e with
  | launchDisplayAdd | resizeDisplayAdd =>
    cases hr
    rw [frameOrder, if_pos rfl]
    simp only [ControlDisplayAdd.ofBytes_bytes, effectOrder]
  | displayRemove displayId =>
    cases hr
    rw [frameOrder, if_neg (show ControlMessageType.kDisplayRemove.code ≠
      ControlMessageType.kDisplayAdd.code by decide), if_pos rfl]
    simp only [displayIdOfBytes_bytes, effectOrder]
  | displayStream =>
    cases hr
    rw [frameOrder, if_neg (show ControlMessageType.kDisplayStream.code ≠
      ControlMessageType.kDisplayAdd.code by decide),
      if_neg (show ControlMessageType.kDisplayStream.code ≠
        ControlMessageType.kDisplayRemove.code by decide)]
    rfl
  | _ => cases hr

theorem effectOrder_of_no_request {e : Effect} (hr : e.controlRequest = none) (d : UInt32) :
    effectOrder d e = none := by
  cases e <;> first | rfl | cases hr

section Requests

variable {w : World} {e : Effect} {es : List Effect}
variable {r : ControlRequest}

theorem Traffic.fresh (h : Traffic w es) : w.pending[w.nextRequestId]? = none := by
  cases hget : w.pending[w.nextRequestId]? with
  | none => rfl
  | some x => exact absurd (h.keys _ _ hget).2 (Nat.lt_irrefl _)

theorem Traffic.erase_fresh (h : Traffic w es) (key : UInt32) :
    (w.pending.erase w.nextRequestId)[key]? = w.pending[key]? := by
  rw [ExtTreeMap.getElem?_erase]
  split
  · rename_i hcmp
    rw [← LawfulEqCmp.eq_of_compare hcmp, h.fresh]
  · rfl

theorem outstanding_unsent {w w' : World} {tag : Nat} {c₀ : Completion} {response : Response}
    (hp : ∀ key : UInt32, w'.pending[key]? = w.pending[key]?)
    (hq : w'.mainQueue = w.mainQueue ++ (c₀.block response).toList.map (tag, ·)) (t : Nat)
    {c : Completion} (hc : displayOf c ≠ none) :
    Outstanding w' t c ↔ Outstanding w t c ∨ t = tag ∧ c = c₀ := by
  simp only [Outstanding, hp, hq]
  constructor
  · rintro (hpending | ⟨r, b, hb, hmem⟩)
    · exact .inl (.inl hpending)
    · rcases List.mem_append.mp hmem with hmem | hmem
      · exact .inl (.inr ⟨r, b, hb, hmem⟩)
      · obtain ⟨b', hb', heq⟩ := List.mem_map.mp hmem
        cases heq
        exact .inr ⟨rfl, block_injective hb (Option.mem_toList.mp hb')⟩
  · rintro ((hpending | ⟨r, b, hb, hmem⟩) | ⟨rfl, rfl⟩)
    · exact .inl hpending
    · exact .inr ⟨r, b, hb, List.mem_append_left _ hmem⟩
    · obtain ⟨b, hb⟩ := exists_block hc ..
      refine .inr ⟨response, b, hb, ?_⟩
      rw [hb]
      exact List.mem_append_right _ List.mem_cons_self

/-- The completion of the request is outstanding, whatever comes of its write. -/
theorem outstanding_request (h : Traffic w es) (hr : e.controlRequest = some r)
    (outcome : WriteOutcome) (t : Nat) {c : Completion} (hc : displayOf c ≠ none) :
    Outstanding (w.request e outcome) t c ↔
      Outstanding w t c ∨ t = w.issued.length ∧ c = r.completion := by
  unfold World.request
  simp only [hr]
  cases outcome with
  | refused =>
    simp only [World.complete_eq]
    refine outstanding_unsent ?_ rfl t hc
    exact fun _ => rfl
  | failed =>
    simp only [World.complete_eq]
    refine outstanding_unsent ?_ rfl t hc
    exact h.erase_fresh
  | written =>
    simp only [Outstanding, ExtTreeMap.getElem?_insert]
    constructor
    · rintro (⟨key, hkey⟩ | hqueued)
      · split at hkey
        · cases hkey
          exact .inr ⟨rfl, rfl⟩
        · exact .inl (.inl ⟨key, hkey⟩)
      · exact .inl (.inr hqueued)
    · rintro ((⟨key, hkey⟩ | hqueued) | ⟨rfl, rfl⟩)
      · refine .inl ⟨key, ?_⟩
        rw [if_neg]
        · exact hkey
        · intro hcmp
          rw [← LawfulEqCmp.eq_of_compare hcmp, h.fresh] at hkey
          cases hkey
      · exact .inr hqueued
      · refine .inl ⟨w.nextRequestId, ?_⟩
        rw [if_pos compare_self]

theorem orders_cons (w : World) (e : Effect) (es : List Effect) (d : UInt32) :
    orders w (e :: es) d = w.looper.filterMap (taskOrder d) ++ (w.toQemu.filterMap (frameOrder d) ++
      ((effectOrder d e).toList ++ es.filterMap (effectOrder d))) := by
  rw [orders, filterMap_cons_toList, List.append_assoc]

structure RequestIssued (w w' : World) (e : Effect) (es : List Effect) : Prop where
  shell : w'.shell = w.shell
  displays : w'.displays = w.displays
  followed : w'.lastFollowed = w.lastFollowed
  issued : w'.issued.length = w.issued.length + 1
  signals : ∀ d, signals w' d = signals w d
  orders : ∀ d, (orders w' es d).Sublist (orders w (e :: es) d)

theorem requestIssued (hr : e.controlRequest = some r) (outcome : WriteOutcome) (es : List Effect) :
    RequestIssued w (w.request e outcome) e es := by
  have hdropped : ∀ d, (orders w es d).Sublist (orders w (e :: es) d) := by
    intro d
    rw [orders_cons, orders, List.append_assoc]
    exact (List.Sublist.refl _).append ((List.Sublist.refl _).append
      (List.sublist_append_right _ _))
  unfold World.request
  simp only [hr]
  cases outcome with
  | refused | failed =>
    simp only [World.complete_eq]
    refine ⟨rfl, rfl, rfl, List.length_append, ?_, hdropped⟩
    intro d
    rw [signals, List.filterMap_append, signals_failure, List.append_nil]
    rfl
  | written =>
    refine ⟨rfl, rfl, rfl, List.length_append, fun _ => rfl, ?_⟩
    intro d
    rw [orders_cons, orders, List.filterMap_append, filterMap_cons_toList,
      frameOrder_request hr, List.filterMap_nil, List.append_nil, List.append_assoc,
      List.append_assoc]

theorem carry_request (h : Traffic w (e :: es)) (hr : e.controlRequest = some r)
    (outcome : WriteOutcome) (d : UInt32) :
    View.Carry (view w (e :: es) d) (view (w.request e outcome) es d) := by
  have hissued := requestIssued (w := w) hr outcome es
  have hout := fun t (c : Completion) (hc : displayOf c ≠ none) =>
    outstanding_request h hr outcome t hc
  have hcompletion : completion e = some r.completion := by rw [completion, hr, Option.map_some]
  refine ⟨?_, ?_, hissued.orders d, ?_, ?_, ?_, ?_, ?_, ?_, ?_, ?_, ?_, ?_⟩
  · change (signals _ d).Sublist (signals _ d)
    rw [hissued.signals]
  · intro _
    change (signals _ d).getLast? = (signals _ d).getLast?
    rw [hissued.signals]
  · intro _
    change tableGeometry _ d = tableGeometry _ d
    rw [hissued.displays]
  · change (World.lastFollowed _)[d]? = (World.lastFollowed _)[d]?
    rw [hissued.followed]
  · change w.issued.length ≤ (World.issued _).length
    rw [hissued.issued]
    exact Nat.le_succ _
  · rintro ⟨component, packageName, ⟨t, ht⟩ | ⟨e', he, hc⟩⟩
    · exact ⟨component, packageName, .inl ⟨t, (hout t (.launchAdd component packageName d)
        (Option.some_ne_none d)).mpr (.inl ht)⟩⟩
    · rcases List.mem_cons.mp he with rfl | he
      · refine ⟨component, packageName, .inl ⟨w.issued.length,
          (hout _ (.launchAdd component packageName d) (Option.some_ne_none d)).mpr (.inr ?_)⟩⟩
        exact ⟨rfl, Option.some.inj (hc.symm.trans hcompletion)⟩
      · exact ⟨component, packageName, .inr ⟨e', he, hc⟩⟩
  · rintro t g ⟨previous, hg, ht⟩
    rcases (hout t (.resizeAdd d previous) (Option.some_ne_none d)).mp ht with ht | ⟨rfl, hc⟩
    · exact .inl ⟨previous, hg, ht⟩
    · refine .inr ⟨⟨previous, hg, e, List.mem_cons_self, hcompletion.trans (congrArg some hc.symm)⟩,
        ?_⟩
      change w.issued.length < (World.issued _).length
      rw [hissued.issued]
      exact Nat.lt_succ_self _
  · rintro g ⟨previous, hg, e', he, hc⟩
    exact ⟨previous, hg, e', List.mem_cons_of_mem _ he, hc⟩
  · rintro (⟨t, g, previous, hg, ht⟩ | ⟨g, previous, hg, e', he, hc⟩)
    · exact .inl ⟨t, g, previous, hg,
        (hout t (.resizeAdd d previous) (Option.some_ne_none d)).mpr (.inl ht)⟩
    · rcases List.mem_cons.mp he with rfl | he
      · exact .inl ⟨w.issued.length, g, previous, hg,
          (hout _ (.resizeAdd d previous) (Option.some_ne_none d)).mpr
            (.inr ⟨rfl, Option.some.inj (hc.symm.trans hcompletion)⟩)⟩
      · exact .inr ⟨g, previous, hg, e', he, hc⟩
  · change d ∈ w.shell.displayRemovalPending → d ∈ (World.shell _).displayRemovalPending
    rw [hissued.shell]
    exact id
  · change d ∈ (World.shell _).displayResizePending → d ∈ w.shell.displayResizePending
    rw [hissued.shell]
    exact id
  · rw [view, view, hissued.shell]
    exact fun hmem => ⟨hmem, rfl, id⟩

theorem queued_unsent (h : Traffic w es) (tag : Nat) (c : Completion) (response : Response)
    (x : Nat × Block) (hx : x ∈ w.mainQueue ++ (c.block response).toList.map (tag, ·)) :
    FromChannel x.2 := by
  rcases List.mem_append.mp hx with hx | hx
  · exact h.queued x hx
  · obtain ⟨b, hb, rfl⟩ := List.mem_map.mp hx
    exact fromChannel_block (Option.mem_toList.mp hb)

theorem Traffic.next_succ (h : Traffic w es) (hids : w.issued.length + 1 < 2 ^ 32 - 1) :
    (w.nextRequestId + 1).toNat = w.nextRequestId.toNat + 1 := by
  have hnext := h.next.2
  rw [UInt32.toNat_add, UInt32.toNat_one, Nat.mod_eq_of_lt]
  omega

theorem mem_carried_written {tag : Nat} {type : UInt16} {id : UInt32} {payload : List UInt8}
    {x : UInt32 × (UInt32 → Prop)}
    (hx : x ∈ carried { w with toQemu := w.toQemu ++ [⟨tag, type, id, payload⟩] }) :
    x ∈ carried w ∨ x = (id, fun d => frameOrder d ⟨tag, type, id, payload⟩ = some .add) := by
  rcases List.mem_append.mp hx with hx | hx
  · rcases List.mem_append.mp hx with hx | hx
    · obtain ⟨f, hf, rfl⟩ := List.mem_map.mp hx
      rcases List.mem_append.mp hf with hf | hf
      · exact .inl (mem_carried_frame hf)
      · cases List.mem_singleton.mp hf
        exact .inr rfl
    · exact .inl (List.mem_append_left _ (List.mem_append_right _ hx))
  · exact .inl (List.mem_append_right _ hx)

theorem traffic_request (h : Traffic w (e :: es)) (hr : e.controlRequest = some r)
    (outcome : WriteOutcome) (hids : w.issued.length + 1 < 2 ^ 32 - 1) :
    Traffic (w.request e outcome) es := by
  have hordered : ∀ d, .add ∈ orders (w.request e outcome) es d → UserRange d :=
    fun d hmem => h.ordered d (((requestIssued hr outcome es).orders d).subset hmem)
  have hsucc := h.next_succ hids
  obtain ⟨hpositive, hbound⟩ := h.next
  unfold World.request at hordered ⊢
  simp only [hr] at hordered ⊢
  cases outcome with
  | refused =>
    simp only [World.complete_eq] at hordered ⊢
    refine ⟨⟨hpositive, ?_⟩, h.keys, h.ids, h.serves, hordered, queued_unsent h _ _ _, h.upright,
      h.ranged⟩
    simp only [List.length_append, List.length_cons, List.length_nil]
    omega
  | failed =>
    simp only [World.complete_eq] at hordered ⊢
    refine ⟨?_, ?_, ?_, ?_, hordered, queued_unsent h _ _ _, h.upright, h.ranged⟩
    · simp only [hsucc, List.length_append, List.length_cons, List.length_nil]
      omega
    · intro id x hx
      rw [h.erase_fresh] at hx
      rw [hsucc]
      exact ⟨(h.keys id x hx).1, Nat.lt_succ_of_lt (h.keys id x hx).2⟩
    · intro x hx
      rw [hsucc]
      exact Nat.lt_succ_of_lt (h.ids x hx)
    · intro x hx t c d ht hc
      rw [h.erase_fresh] at ht
      exact h.serves x hx t c d ht hc
  | written =>
    refine ⟨?_, ?_, ?_, ?_, hordered, h.queued, h.upright, h.ranged⟩
    · simp only [hsucc, List.length_append, List.length_cons, List.length_nil]
      omega
    · intro id x hx
      rw [hsucc]
      rw [ExtTreeMap.getElem?_insert] at hx
      split at hx
      · rename_i hcmp
        rw [← LawfulEqCmp.eq_of_compare hcmp]
        refine ⟨?_, Nat.lt_succ_self _⟩
        intro hzero
        rw [hzero] at hpositive
        exact absurd hpositive (Nat.lt_irrefl 0)
      · exact ⟨(h.keys id x hx).1, Nat.lt_succ_of_lt (h.keys id x hx).2⟩
    · intro x hx
      rw [hsucc]
      rcases mem_carried_written hx with hx | rfl
      · exact Nat.lt_succ_of_lt (h.ids x hx)
      · exact Nat.lt_succ_self _
    · intro x hx t c d ht hc
      rw [ExtTreeMap.getElem?_insert] at ht
      rcases mem_carried_written hx with hx | rfl
      · rw [if_neg] at ht
        · exact h.serves x hx t c d ht hc
        · intro hcmp
          have hlt := h.ids x hx
          rw [← LawfulEqCmp.eq_of_compare hcmp] at hlt
          exact Nat.lt_irrefl _ hlt
      · rw [if_pos compare_self] at ht
        cases ht
        exact (frameOrder_request hr d _ _).trans
          (order_of_completion (by rw [completion, hr, Option.map_some]) hc)

theorem Inv.request (h : Inv w (e :: es)) (outcome : WriteOutcome)
    (hids : (w.request e outcome).issued.length < 2 ^ 32 - 1) : Inv (w.request e outcome) es := by
  cases hr : e.controlRequest with
  | none =>
    have hsame : w.request e outcome = w := by simp only [World.request, hr]
    have hsilent := effectOrder_of_no_request hr
    have horders : ∀ d, orders w (e :: es) d = orders w es d := by
      intro d
      rw [orders_cons, hsilent, orders, List.append_assoc]
      rfl
    rw [hsame]
    refine ⟨{ h.traffic with ordered := fun d hmem => h.traffic.ordered d (horders d ▸ hmem) }, ?_⟩
    have hrest : ∀ e' ∈ e :: es, ∀ c, completion e' = some c → e' ∈ es := by
      intro e' he c hc
      rcases List.mem_cons.mp he with rfl | he
      · rw [completion, hr] at hc
        cases hc
      · exact he
    intro d hd
    refine (h.consistent d hd).carry { View.Carry.refl (view w (e :: es) d) with
      orders := ?_, launching := ?_, unsent := ?_, awaited := ?_ }
    · change (orders w es d).Sublist (orders w (e :: es) d)
      rw [horders]
    · rintro ⟨component, packageName, hout | ⟨e', he, hc⟩⟩
      · exact ⟨component, packageName, .inl hout⟩
      · exact ⟨component, packageName, .inr ⟨e', hrest e' he _ hc, hc⟩⟩
    · rintro g ⟨previous, hg, e', he, hc⟩
      exact ⟨previous, hg, e', List.mem_cons_of_mem _ he, hc⟩
    · refine Or.imp id ?_
      rintro ⟨g, previous, hg, e', he, hc⟩
      exact ⟨g, previous, hg, e', hrest e' he _ hc, hc⟩
  | some r =>
    rw [(requestIssued hr outcome es).issued] at hids
    exact ⟨traffic_request h.traffic hr outcome hids,
      fun d hd => (h.consistent d hd).carry (carry_request h.traffic hr outcome d)⟩

theorem request_issued_le (w : World) (e : Effect) (outcome : WriteOutcome) :
    w.issued.length ≤ (w.request e outcome).issued.length := by
  cases hr : e.controlRequest with
  | none => simp only [World.request, hr, Nat.le_refl]
  | some r =>
    rw [(requestIssued hr outcome []).issued]
    exact Nat.le_succ _

theorem requests_issued_le (w : World) (es : List Effect) (outcomes : List WriteOutcome) :
    w.issued.length ≤ (w.requests es outcomes).issued.length := by
  induction es generalizing w outcomes with
  | nil => exact Nat.le_refl _
  | cons e es ih => exact Nat.le_trans (request_issued_le w e _) (ih _ _)

theorem Inv.requests (h : Inv w es) (outcomes : List WriteOutcome)
    (hids : (w.requests es outcomes).issued.length < 2 ^ 32 - 1) :
    Inv (w.requests es outcomes) [] := by
  induction es generalizing w outcomes with
  | nil => exact h
  | cons e es ih =>
    have hle := requests_issued_le (w.request e (outcomes.headD .written)) es outcomes.tail
    exact ih (h.request _ (Nat.lt_of_le_of_lt hle hids)) outcomes.tail hids

end Requests

end DisplayGeometry
end MacMu
