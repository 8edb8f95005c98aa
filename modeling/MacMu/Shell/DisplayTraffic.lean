import MacMu.Shell.DisplayView
import MacMu.Qemu.DisplayTable

/-!
The view of a display in a state of the composition, and the steps of the
queues. Each queue keeps the order of what it holds, so a step outside the main
queue carries the signals and orders of a display on, or drops an order that the
emulator refuses. An answer finds the request it belongs to because request ids
are not used twice; the results below assume that they do not come round.
-/

namespace MacMu
namespace DisplayGeometry

open Std ControlProtocol ControlRoundTrip ControlReceiver DisplayTable

variable {c : Completion} {w w' : World}

def eventSignal (d : UInt32) (event : ControlEventDisplay) : Option Signal :=
  if event.displayId = d then
    if event.state = kControlDisplayAdded then
      some (.added ⟨event.width, event.height, event.dpi⟩)
    else if event.state = kControlDisplayRemoved then some .removed
    else none
  else none

def replySignal (d : UInt32) : Nat × Reply → Option Signal
  | (_, .displayAddOk _ displayId) => if displayId = d then some .accepted else none
  | (_, .eventDisplay event) => eventSignal d event
  | _ => none

def blockSignal (d : UInt32) : Nat × Block → Option Signal
  | (_, .controlEvent type payload) =>
    if type = ControlMessageType.kEventDisplay.code ∧ ControlEventDisplay.size ≤ payload.length
    then eventSignal d (.ofBytes payload) else none
  | (_, .launchAddResponse _ _ displayId response) | (_, .resizeResponse displayId _ response) =>
    if displayId = d ∧ response.ok then some .accepted else none
  | _ => none

def effectOrder (d : UInt32) : Effect → Option Order
  | .launchDisplayAdd request _ _ | .resizeDisplayAdd request _ =>
    if request.displayId = d then some .add else none
  | .displayRemove displayId => if displayId = d then some .remove else none
  | _ => none

def frameOrder (d : UInt32) (f : RequestFrame) : Option Order :=
  if f.type = ControlMessageType.kDisplayAdd.code then
    if (ControlDisplayAdd.ofBytes f.payload).displayId = d then some .add else none
  else if f.type = ControlMessageType.kDisplayRemove.code then
    if displayIdOfBytes f.payload = d then some .remove else none
  else none

def taskOrder (d : UInt32) : Nat × Task → Option Order
  | (_, .displayAdd _ request) => if request.displayId = d then some .add else none
  | (_, .displayRemove _ displayId) => if displayId = d then some .remove else none
  | (_, .displayList _) => none

def signals (w : World) (d : UInt32) : List Signal :=
  w.mainQueue.filterMap (blockSignal d) ++ w.toShell.filterMap (replySignal d) ++
    w.outgoing.filterMap (replySignal d)

/-- `es` are the effects the running block is still to issue. -/
def orders (w : World) (es : List Effect) (d : UInt32) : List Order :=
  w.looper.filterMap (taskOrder d) ++ w.toQemu.filterMap (frameOrder d) ++
    es.filterMap (effectOrder d)

def completion (e : Effect) : Option Completion := e.controlRequest.map (·.completion)

/-- The completion of request `t` has not been handled. -/
def Outstanding (w : World) (t : Nat) (c : Completion) : Prop :=
  (∃ id : UInt32, w.pending[id]? = some (t, c)) ∨
    ∃ response b, c.block response = some b ∧ (t, b) ∈ w.mainQueue

def view (w : World) (es : List Effect) (d : UInt32) : View where
  signals := signals w d
  orders := orders w es d
  table := tableGeometry w.displays d
  bound := d ∈ w.shell.displayAppBindings
  removing := d ∈ w.shell.displayRemovalPending
  profile := w.shell.displayLaunchProfiles[d]?.map DisplayLaunchProfile.geometry
  resizing := d ∈ w.shell.displayResizePending
  launching := ∃ component packageName,
    (∃ t, Outstanding w t (.launchAdd component packageName d)) ∨
      ∃ e ∈ es, completion e = some (.launchAdd component packageName d)
  resizes := fun t g => ∃ previous : DisplayLaunchProfile, previous.geometry = g ∧
    Outstanding w t (.resizeAdd d previous)
  unsent := fun g => ∃ previous : DisplayLaunchProfile, previous.geometry = g ∧
    ∃ e ∈ es, completion e = some (.resizeAdd d previous)
  followed := w.lastFollowed[d]?
  issued := w.issued.length

def displayOf : Completion → Option UInt32
  | .launchAdd _ _ displayId | .resizeAdd displayId _ => some displayId
  | .logOnly => none

def taskId : Task → UInt32
  | .displayAdd requestId _ | .displayRemove requestId _ | .displayList requestId => requestId

/-- A frame that answers a DISPLAY_ADD for `d`. -/
def AnswersAdd (d : UInt32) (r : Reply) : Prop :=
  (∃ id, r = .displayAddOk id d) ∨ ∃ id code message, r = .error id code message

/-- The request ids on their way, and whether what carries one belongs to a
DISPLAY_ADD for a display. -/
def carried (w : World) : List (UInt32 × (UInt32 → Prop)) :=
  w.toQemu.map (fun f => (f.requestId, fun d => frameOrder d f = some .add)) ++
    w.looper.map (fun x => (taskId x.2, fun d => taskOrder d x = some .add)) ++
    (w.outgoing ++ w.toShell).map (fun x => (x.2.requestId, fun d => AnswersAdd d x.2))

def FromChannel : Block → Prop
  | .controlEvent .. | .launchAddResponse .. | .resizeResponse .. => True
  | _ => False

structure Traffic (w : World) (es : List Effect) : Prop where
  next : 0 < w.nextRequestId.toNat ∧ w.nextRequestId.toNat ≤ w.issued.length + 1
  keys : ∀ (id : UInt32) x, w.pending[id]? = some x → id ≠ 0 ∧ id.toNat < w.nextRequestId.toNat
  ids : ∀ x ∈ carried w, x.1.toNat < w.nextRequestId.toNat
  serves : ∀ x ∈ carried w, ∀ t c d, w.pending[x.1]? = some (t, c) →
    displayOf c = some d → x.2 d
  ordered : ∀ d, .add ∈ orders w es d → UserRange d
  queued : ∀ x ∈ w.mainQueue, FromChannel x.2
  upright : Upright w.displays
  ranged : ∀ d ∈ w.shell.displayAppBindings, UserRange d

structure Inv (w : World) (es : List Effect) : Prop where
  traffic : Traffic w es
  consistent : ∀ d, UserRange d → (view w es d).Consistent

theorem block_injective {c' : Completion} {r r' : Response} {b : Block} (h : c.block r = some b)
    (h' : c'.block r' = some b) : c = c' := by
  cases c <;> cases h <;> cases c' <;> cases h' <;> rfl

theorem exists_block (h : displayOf c ≠ none) (r : Response) : ∃ b, c.block r = some b := by
  cases c with
  | launchAdd | resizeAdd => exact ⟨_, rfl⟩
  | logOnly => exact absurd rfl h

/-- A completion moves from the table of pending requests to the main queue. -/
theorem outstanding_complete {id : UInt32} {tag : Nat} {response : Response}
    (hpending : w.pending[id]? = some (tag, c)) (hp : w'.pending = w.pending.erase id)
    (hq : w'.mainQueue = w.mainQueue ++ (c.block response).toList.map (tag, ·)) (t : Nat)
    {c' : Completion} (hc : displayOf c' ≠ none) : Outstanding w' t c' ↔ Outstanding w t c' := by
  constructor
  · rintro (⟨key, hkey⟩ | ⟨r, b, hb, hmem⟩)
    · rw [hp, ExtTreeMap.getElem?_erase] at hkey
      split at hkey
      · cases hkey
      · exact .inl ⟨key, hkey⟩
    · rw [hq] at hmem
      rcases List.mem_append.mp hmem with hmem | hmem
      · exact .inr ⟨r, b, hb, hmem⟩
      · obtain ⟨b', hb', heq⟩ := List.mem_map.mp hmem
        cases heq
        cases block_injective hb (Option.mem_toList.mp hb')
        exact .inl ⟨id, hpending⟩
  · rintro (⟨key, hkey⟩ | ⟨r, b, hb, hmem⟩)
    · by_cases heq : key = id
      · subst heq
        rw [hpending] at hkey
        cases hkey
        obtain ⟨b, hb⟩ := exists_block hc ..
        refine .inr ⟨response, b, hb, ?_⟩
        rw [hq, hb]
        exact List.mem_append_right _ List.mem_cons_self
      · refine .inl ⟨key, ?_⟩
        rw [hp, ExtTreeMap.getElem?_erase, if_neg]
        · exact hkey
        · exact fun hcmp => heq (LawfulEqCmp.eq_of_compare hcmp).symm
    · refine .inr ⟨r, b, hb, ?_⟩
      rw [hq]
      exact List.mem_append_left _ hmem

theorem outstanding_congr (hp : w'.pending = w.pending) (hq : w'.mainQueue = w.mainQueue) (t : Nat)
    (c : Completion) : Outstanding w' t c ↔ Outstanding w t c := by
  rw [Outstanding, Outstanding, hp, hq]

theorem carry_of {es : List Effect} {d : UInt32} (hshell : w'.shell = w.shell)
    (hissued : w'.issued = w.issued) (hfollowed : w'.lastFollowed[d]? = w.lastFollowed[d]?)
    (htable : d ∉ w.shell.displayRemovalPending →
      tableGeometry w'.displays d = tableGeometry w.displays d)
    (hsignals : (signals w' d).Sublist (signals w d))
    (hlast : d ∉ w.shell.displayRemovalPending → (signals w' d).getLast? = (signals w d).getLast?)
    (horders : (orders w' es d).Sublist (orders w es d))
    (hout : ∀ t c, displayOf c = some d → (Outstanding w' t c ↔ Outstanding w t c)) :
    View.Carry (view w es d) (view w' es d) where
  signals := hsignals
  last := hlast
  orders := horders
  table := htable
  followed := by rw [view, view, hfollowed]
  issued := by
    rw [view, view, hissued]
  launching := by
    rintro ⟨component, packageName, ⟨t, ht⟩ | he⟩
    · exact ⟨component, packageName, .inl ⟨t, (hout t (.launchAdd component packageName d)
        rfl).mpr ht⟩⟩
    · exact ⟨component, packageName, .inr he⟩
  resizes := by
    rintro t g ⟨previous, hg, ht⟩
    exact .inl ⟨previous, hg, (hout t (.resizeAdd d previous) rfl).mp ht⟩
  unsent := fun _ => id
  awaited := by
    refine Or.imp ?_ id
    rintro ⟨t, g, previous, hg, ht⟩
    exact ⟨t, g, previous, hg, (hout t (.resizeAdd d previous) rfl).mpr ht⟩
  removing := by
    rw [view, view, hshell]
    exact id
  resizing := by
    rw [view, view, hshell]
    exact id
  bound := by
    rw [view, view, hshell]
    exact fun h => ⟨h, rfl, id⟩

theorem Traffic.of_moved {es : List Effect} (h : Traffic w es)
    (hnext : w'.nextRequestId = w.nextRequestId) (hissued : w'.issued = w.issued)
    (hshell : w'.shell = w.shell)
    (hpending : ∀ (id : UInt32) x, w'.pending[id]? = some x → w.pending[id]? = some x)
    (hcarried : ∀ x ∈ carried w', x.1 = 0 ∨ ∃ y ∈ carried w, x.1 = y.1 ∧ ∀ d, y.2 d → x.2 d)
    (horders : ∀ d, (orders w' es d).Sublist (orders w es d))
    (hqueued : ∀ x ∈ w'.mainQueue, x ∈ w.mainQueue ∨ FromChannel x.2)
    (hupright : Upright w'.displays) : Traffic w' es where
  next := by
    rw [hnext, hissued]
    exact h.next
  keys := by
    intro id x hx
    rw [hnext]
    exact h.keys id x (hpending id x hx)
  ids := by
    intro x hx
    rw [hnext]
    rcases hcarried x hx with hzero | ⟨y, hy, heq, -⟩
    · rw [hzero]
      exact h.next.1
    · rw [heq]
      exact h.ids y hy
  serves := by
    intro x hx t c d ht hc
    have ht := hpending _ _ ht
    rcases hcarried x hx with hzero | ⟨y, hy, heq, hserves⟩
    · exact absurd hzero (h.keys _ _ ht).1
    · rw [heq] at ht
      exact hserves d (h.serves y hy t c d ht hc)
  ordered := fun d hmem => h.ordered d ((horders d).subset hmem)
  queued := fun x hx => (hqueued x hx).elim (h.queued x) id
  upright := hupright
  ranged := hshell ▸ h.ranged

theorem erase_pending (id : UInt32) (key : UInt32) {x : Nat × Completion}
    (h : (w.pending.erase id)[key]? = some x) : w.pending[key]? = some x := by
  rw [ExtTreeMap.getElem?_erase] at h
  split at h
  · cases h
  · exact h

theorem fromChannel_block {response : Response} {b : Block} (h : c.block response = some b) :
    FromChannel b := by
  cases c <;> cases h <;> trivial

theorem mem_carried_frame {f : RequestFrame} (h : f ∈ w.toQemu) :
    (f.requestId, fun d => frameOrder d f = some .add) ∈ carried w :=
  List.mem_append_left _ (List.mem_append_left _ (List.mem_map.mpr ⟨f, h, rfl⟩))

theorem mem_carried_task {x : Nat × Task} (h : x ∈ w.looper) :
    (taskId x.2, fun d => taskOrder d x = some .add) ∈ carried w :=
  List.mem_append_left _ (List.mem_append_right _ (List.mem_map.mpr ⟨x, h, rfl⟩))

theorem mem_carried_reply {x : Nat × Reply} (h : x ∈ w.outgoing ++ w.toShell) :
    (x.2.requestId, fun d => AnswersAdd d x.2) ∈ carried w :=
  List.mem_append_right _ (List.mem_map.mpr ⟨x, h, rfl⟩)

theorem mem_carried_toShell {rest : List (Nat × Reply)} (hrest : rest.Sublist w.toShell)
    {x : UInt32 × (UInt32 → Prop)} (hx : x ∈ carried { w with toShell := rest }) :
    x ∈ carried w := by
  rcases List.mem_append.mp hx with hx | hx
  · exact List.mem_append_left _ hx
  · exact List.mem_append_right _ (((List.Sublist.refl _).append hrest).map _ |>.subset hx)

theorem filterMap_cons_toList {α β : Type} (f : α → Option β) (a : α) (l : List α) :
    (a :: l).filterMap f = (f a).toList ++ l.filterMap f := by
  rw [List.filterMap_cons]
  cases f a <;> rfl

theorem signals_cons {head : Nat × Reply} {rest : List (Nat × Reply)}
    (hqueue : w.toShell = head :: rest) (d : UInt32) :
    signals w d = w.mainQueue.filterMap (blockSignal d) ++ ((replySignal d head).toList ++
      (rest.filterMap (replySignal d) ++ w.outgoing.filterMap (replySignal d))) := by
  rw [signals, hqueue, filterMap_cons_toList, List.append_assoc, List.append_assoc]

theorem last_of_drop {v : View} (h : v.Consistent) (hkept : ¬ v.removing)
    {before after : List Signal} {o : Option Signal}
    (hsignals : v.signals = before ++ (o.toList ++ after))
    (ho : o = none ∨ o = some .accepted) : (before ++ after).getLast? = v.signals.getLast? := by
  rw [hsignals]
  rcases ho with rfl | rfl
  · rfl
  · cases after with
    | nil =>
      have htold := h.told hkept
      rw [hsignals, List.append_nil] at htold
      change v.Told (before ++ [_]).getLast? at htold
      rw [List.getLast?_concat] at htold
      exact htold.elim
    | cons signal after =>
      change _ = (before ++ ([_] ++ signal :: after)).getLast?
      rw [← List.append_assoc, List.getLast?_append_of_ne_nil _ (List.cons_ne_nil _ _),
        List.getLast?_append_of_ne_nil _ (List.cons_ne_nil _ _)]

theorem blockSignal_reply (d : UInt32) (tag : Nat) (r : Reply) :
    blockSignal d (tag, .controlEvent r.type.code r.payload) = replySignal d (tag, r) ∨
      blockSignal d (tag, .controlEvent r.type.code r.payload) = none ∧
        (replySignal d (tag, r) = none ∨ replySignal d (tag, r) = some .accepted) := by
  cases r with
  | eventDisplay event =>
    left
    simp only [blockSignal, replySignal, Reply.type, Reply.payload,
      ControlEventDisplay.ofBytes_bytes, ControlEventDisplay.length_bytes, Nat.le_refl, and_self,
      if_true]
  | displayAddOk requestId displayId =>
    refine .inr ⟨rfl, ?_⟩
    simp only [replySignal]
    split
    · exact .inr rfl
    · exact .inl rfl
  | _ => exact .inl rfl

theorem outstanding_event (tag : Nat) (type : UInt16) (payload : List UInt8)
    (hp : w'.pending = w.pending)
    (hq : w'.mainQueue = w.mainQueue ++ [(tag, .controlEvent type payload)]) (t : Nat)
    (c : Completion) : Outstanding w' t c ↔ Outstanding w t c := by
  rw [Outstanding, Outstanding, hp, hq]
  refine or_congr Iff.rfl ⟨?_, ?_⟩
  · rintro ⟨response, b, hb, hmem⟩
    rcases List.mem_append.mp hmem with hmem | hmem
    · exact ⟨response, b, hb, hmem⟩
    · cases List.mem_singleton.mp hmem
      cases c <;> cases hb
  · rintro ⟨response, b, hb, hmem⟩
    exact ⟨response, b, hb, List.mem_append_left _ hmem⟩

/-- An answer to a DISPLAY_ADD keeps its signal in the completion. -/
theorem blockSignal_completion {d : UInt32} (hc : displayOf c = some d) {r : Reply}
    (hr : AnswersAdd d r) (tag tag' : Nat) (k : UInt32) :
    ((c.block (responseOf r.type.code r.payload)).toList.map (tag, ·)).filterMap (blockSignal k) =
      (replySignal k (tag', r)).toList := by
  rcases hr with ⟨id, rfl⟩ | ⟨id, code, message, rfl⟩
  · have hok : (responseOf (Reply.displayAddOk id d).type.code
        (Reply.displayAddOk id d).payload).ok = true := rfl
    cases c with
    | launchAdd | resizeAdd =>
      cases hc
      simp only [Completion.block, Option.toList_some, List.map_cons, List.map_nil,
        filterMap_cons_toList, blockSignal, replySignal, hok, and_true, List.filterMap_nil,
        List.append_nil]
    | logOnly => cases hc
  · have hok : (responseOf (Reply.error id code message).type.code
        (Reply.error id code message).payload).ok = false := by
      simp only [responseOf, Reply.type, if_true]
      split <;> rfl
    cases c with
    | launchAdd | resizeAdd =>
      simp only [Completion.block, Option.toList_some, List.map_cons, List.map_nil,
        filterMap_cons_toList, blockSignal, replySignal, hok, Bool.false_eq_true, and_false,
        if_false, Option.toList_none, List.filterMap_nil, List.append_nil]
    | logOnly => cases hc

theorem signals_failure (tag : Nat) (c : Completion) (message : String) (d : UInt32) :
    ((c.block (channelFailure message)).toList.map (tag, ·)).filterMap (blockSignal d) = [] := by
  cases c with
  | launchAdd | resizeAdd => exact List.filterMap_cons_none (if_neg fun hok => nomatch hok.2)
  | logOnly => rfl

section Queues

variable {w : World} (h : Inv w [])
variable {rest : List (Nat × Reply)} {w' : World}
include h

theorem Inv.delivered (hrest : rest.Sublist w.toShell) (blocks : List (Nat × Block))
    (pending : ExtTreeMap UInt32 (Nat × Completion))
    (hw' : w' = { w with
      toShell := rest, mainQueue := w.mainQueue ++ blocks, pending := pending })
    (hpending : ∀ (id : UInt32) x, pending[id]? = some x → w.pending[id]? = some x)
    (hblocks : ∀ x ∈ blocks, FromChannel x.2)
    (hout : ∀ t c d, displayOf c = some d → (Outstanding w' t c ↔ Outstanding w t c))
    (hsignals : ∀ d, UserRange d → (signals w' d).Sublist (signals w d) ∧
      (d ∉ w.shell.displayRemovalPending →
        (signals w' d).getLast? = (signals w d).getLast?)) : Inv w' [] := by
  subst hw'
  refine ⟨h.traffic.of_moved rfl rfl rfl hpending ?_ (fun _ => List.Sublist.refl _) ?_
    h.traffic.upright, fun d hd => (h.consistent d hd).carry ?_⟩
  · intro x hx
    exact .inr ⟨x, mem_carried_toShell hrest hx, rfl, fun _ hd => hd⟩
  · intro x hx
    exact (List.mem_append.mp hx).imp id (hblocks x)
  · exact carry_of rfl rfl rfl (fun _ => rfl) (hsignals d hd).1 (hsignals d hd).2
      (List.Sublist.refl _) (fun t c hc => hout t c d hc)

theorem Inv.completed {id : UInt32} {tag : Nat} {c : Completion}
    (hpending : w.pending[id]? = some (tag, c)) (response : Response)
    (hrest : rest.Sublist w.toShell)
    (hsignals : ∀ d, UserRange d →
      let after := signals { w with
        toShell := rest
        mainQueue := w.mainQueue ++ (c.block response).toList.map (tag, ·) } d
      after.Sublist (signals w d) ∧
        (d ∉ w.shell.displayRemovalPending → after.getLast? = (signals w d).getLast?)) :
    Inv ({ w with toShell := rest, pending := w.pending.erase id }.complete tag c response) [] := by
  rw [World.complete_eq]
  refine h.delivered hrest _ _ rfl (fun key x hx => erase_pending id key hx) ?_ ?_ hsignals
  · intro x hx
    obtain ⟨b, hb, rfl⟩ := List.mem_map.mp hx
    exact fromChannel_block (Option.mem_toList.mp hb)
  · intro t c' d hc
    exact outstanding_complete hpending rfl rfl t (hc ▸ Option.some_ne_none d)

theorem Inv.timeout {id : UInt32} (hstep : w.step (.timeout id) = some w') : Inv w' [] := by
  simp only [World.step] at hstep
  split at hstep <;> cases hstep
  rename_i tag c hpending
  refine h.completed hpending _ (List.Sublist.refl _) ?_
  intro d _ after
  have hafter : after = signals w d := by
    dsimp only [after]
    rw [signals, List.filterMap_append, signals_failure, List.append_nil]
    rfl
  rw [hafter]
  exact ⟨List.Sublist.refl _, fun _ => rfl⟩

/-- The signal of a frame goes to the main queue, or it is an acceptance that
nobody waits for. -/
theorem Inv.relayed {tag : Nat} {reply : Reply} (hqueue : w.toShell = (tag, reply) :: rest)
    {d : UInt32} (hd : UserRange d) (blocks : List (Nat × Block))
    (hcases : blocks.filterMap (blockSignal d) = (replySignal d (tag, reply)).toList ∨
      blocks.filterMap (blockSignal d) = [] ∧
        (replySignal d (tag, reply) = none ∨ replySignal d (tag, reply) = some .accepted)) :
    let after := signals { w with toShell := rest, mainQueue := w.mainQueue ++ blocks } d
    after.Sublist (signals w d) ∧
      (d ∉ w.shell.displayRemovalPending → after.getLast? = (signals w d).getLast?) := by
  intro after
  have hafter : after = w.mainQueue.filterMap (blockSignal d) ++
      (blocks.filterMap (blockSignal d) ++
        (rest.filterMap (replySignal d) ++ w.outgoing.filterMap (replySignal d))) := by
    dsimp only [after]
    rw [signals, List.filterMap_append, List.append_assoc, List.append_assoc]
  have hbefore := signals_cons hqueue d
  rcases hcases with hsame | ⟨hnone, hsilent⟩
  · rw [hafter, hsame, ← hbefore]
    exact ⟨List.Sublist.refl _, fun _ => rfl⟩
  · rw [hafter, hnone, List.nil_append]
    refine ⟨?_, fun hkept => last_of_drop (h.consistent d hd) hkept hbefore hsilent⟩
    rw [hbefore]
    exact (List.Sublist.refl _).append (List.sublist_append_right _ _)

theorem Inv.read (hstep : w.step .read = some w') : Inv w' [] := by
  simp only [World.step] at hstep
  split at hstep
  · cases hstep
  · rename_i tag reply rest hqueue
    have hrest : rest.Sublist w.toShell := hqueue ▸ List.sublist_cons_self _ _
    split at hstep
    · -- an event
      cases hstep
      refine h.delivered hrest _ w.pending rfl (fun _ _ hx => hx) ?_ ?_ ?_
      · intro x hx
        cases List.mem_singleton.mp hx
        trivial
      · intro t c _ _
        refine outstanding_event tag reply.type.code reply.payload ?_ ?_ t c
        · rfl
        · rfl
      · intro d hd
        refine h.relayed hqueue hd _ ?_
        rcases blockSignal_reply d tag reply with hsame | ⟨hnone, hsilent⟩
        · left
          rw [filterMap_cons_toList, hsame]
          exact List.append_nil _
        · right
          rw [filterMap_cons_toList, hnone]
          exact ⟨rfl, hsilent⟩
    · rename_i hid
      have hsilent : ∀ d, replySignal d (tag, reply) = none ∨
          replySignal d (tag, reply) = some .accepted := by
        intro d
        cases reply with
        | eventDisplay event => exact absurd rfl hid
        | displayAddOk requestId displayId =>
          simp only [replySignal]
          split
          · exact .inr rfl
          · exact .inl rfl
        | _ => exact .inl rfl
      split at hstep
      · -- nobody waits for the answer
        cases hstep
        refine h.delivered hrest [] w.pending (by rw [List.append_nil]) (fun _ _ hx => hx)
          (fun _ hx => absurd hx List.not_mem_nil) (fun t c _ _ => outstanding_congr rfl rfl t c) ?_
        intro d hd
        have hrelayed := h.relayed hqueue hd [] (.inr ⟨rfl, hsilent d⟩)
        rw [List.append_nil] at hrelayed
        exact hrelayed
      · rename_i pendingTag c hpending
        cases hstep
        refine h.completed hpending _ hrest ?_
        intro d hd
        refine h.relayed hqueue hd _ ?_
        cases hc : displayOf c with
        | none =>
          right
          refine ⟨?_, hsilent d⟩
          cases c with
          | launchAdd | resizeAdd => cases hc
          | logOnly => rfl
        | some displayId =>
          left
          have hcarried : (reply.requestId, fun d => AnswersAdd d reply) ∈ carried w := by
            refine mem_carried_reply (x := (tag, reply)) (List.mem_append_right _ ?_)
            rw [hqueue]
            exact List.mem_cons_self
          exact blockSignal_completion hc (h.traffic.serves _ hcarried _ _ _ hpending hc) _ _ d

theorem Inv.send (hstep : w.step .send = some w') : Inv w' [] := by
  simp only [World.step] at hstep
  split at hstep <;> cases hstep
  rename_i reply rest hqueue
  have hsignals : ∀ d, signals { w with outgoing := rest, toShell := w.toShell ++ [reply] } d =
      signals w d := by
    intro d
    rw [signals, signals, hqueue, List.filterMap_append, filterMap_cons_toList,
      filterMap_cons_toList, List.filterMap_nil, List.append_nil, List.append_assoc,
      List.append_assoc, List.append_assoc]
  refine ⟨h.traffic.of_moved rfl rfl rfl (fun _ _ hx => hx) ?_ (fun _ => List.Sublist.refl _)
    (fun _ hx => .inl hx) h.traffic.upright, fun d hd => (h.consistent d hd).carry ?_⟩
  · intro x hx
    refine .inr ⟨x, ?_, rfl, fun _ hd => hd⟩
    have hperm : (rest ++ (w.toShell ++ [reply])).Perm (w.outgoing ++ w.toShell) := by
      rw [hqueue, ← List.append_assoc]
      exact List.perm_append_singleton _ _
    rcases List.mem_append.mp hx with hx | hx
    · exact List.mem_append_left _ hx
    · exact List.mem_append_right _ ((hperm.map _).mem_iff.mp hx)
  · refine carry_of rfl rfl rfl (fun _ => rfl) ?_ ?_ (List.Sublist.refl _)
      (fun t c _ => outstanding_congr rfl rfl t c)
    · rw [hsignals]
    · intro _
      rw [hsignals]

end Queues

end DisplayGeometry
end MacMu
