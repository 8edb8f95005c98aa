import MacMu.Shell.DisplayTraffic

/-!
The emulator's side of the stream: its reader thread takes a frame, its main
looper runs a task. A task for a display replaces the oldest order for it by the
signals it sends, or drops the order. What the emulator is assumed to do is
`Assumed`: it answers an ERROR to DISPLAY_ADD only with the table as it was.
-/

namespace MacMu
namespace DisplayGeometry

open Std ControlProtocol ControlRoundTrip ControlReceiver DisplayTable DisplayErrors

structure FrameHandled (f : RequestFrame) (handled : Handled) : Prop where
  silent : ∀ d, (handled.sends.map (f.tag, ·)).filterMap (replySignal d) = []
  orders : ∀ d, ((handled.task.toList.map (f.tag, ·)).filterMap (taskOrder d)).Sublist
    (frameOrder d f).toList
  replies : ∀ r ∈ handled.sends, r.requestId = f.requestId ∧
    ∀ d, frameOrder d f = some .add → AnswersAdd d r
  tasks : ∀ task ∈ handled.task.toList, taskId task = f.requestId ∧
    ∀ d, frameOrder d f = some .add → taskOrder d (f.tag, task) = some .add

theorem FrameHandled.refused (f : RequestFrame) (code : Int32) (message : String) :
    FrameHandled f (.answer (.error f.requestId code message)) where
  silent := fun _ => rfl
  orders := fun _ => List.nil_sublist _
  replies := by
    intro r hr
    cases List.mem_singleton.mp hr
    exact ⟨rfl, fun _ _ => .inr ⟨_, _, _, rfl⟩⟩
  tasks := fun _ ht => absurd ht List.not_mem_nil

theorem FrameHandled.answered {f : RequestFrame} {r : Reply} {streaming : Option StreamCall}
    (hid : r.requestId = f.requestId) (hsilent : ∀ d, replySignal d (f.tag, r) = none)
    (htype : f.type ≠ ControlMessageType.kDisplayAdd.code) :
    FrameHandled f ⟨[r], none, streaming⟩ where
  silent := fun d => List.filterMap_cons_none (hsilent d)
  orders := fun _ => List.nil_sublist _
  replies := by
    intro r' hr
    cases List.mem_singleton.mp hr
    refine ⟨hid, ?_⟩
    intro d hadd
    rw [frameOrder, if_neg htype] at hadd
    split at hadd
    · split at hadd <;> cases hadd
    · cases hadd
  tasks := fun _ ht => absurd ht List.not_mem_nil

theorem FrameHandled.queued {f : RequestFrame} {task : Task} (looper : Bool)
    (hid : taskId task = f.requestId) (horder : ∀ d, taskOrder d (f.tag, task) = frameOrder d f) :
    FrameHandled f (runOnMainLooper looper f.requestId task) := by
  cases looper with
  | false => exact .refused f _ _
  | true =>
    refine ⟨fun _ => rfl, ?_, fun _ hr => absurd hr List.not_mem_nil, ?_⟩
    · intro d
      change (List.filterMap (taskOrder d) [(f.tag, task)]).Sublist _
      rw [filterMap_cons_toList, horder, List.filterMap_nil, List.append_nil]
    · intro task' ht
      cases List.mem_singleton.mp ht
      exact ⟨hid, fun d hadd => (horder d).trans hadd⟩

theorem frameHandled (looper : Bool) (now : UInt64) (f : RequestFrame) :
    FrameHandled f (handleFrame looper now f.type f.requestId f.payload) := by
  unfold handleFrame
  split
  · rename_i htype
    exact .answered rfl (fun _ => rfl) (htype ▸ by decide)
  split
  · rename_i htype
    exact .answered rfl (fun _ => rfl) (htype ▸ by decide)
  split
  · rename_i htype
    split
    · exact .refused f _ _
    · refine .queued looper rfl ?_
      intro d
      rw [frameOrder, if_pos htype]
      rfl
  split
  · rename_i htype
    split
    · exact .refused f _ _
    · refine .queued looper rfl ?_
      intro d
      rw [frameOrder, if_neg (htype ▸ by decide), if_pos htype]
      rfl
  split
  · rename_i htype
    unfold handleDisplayStream
    dsimp only
    split
    · exact .refused f _ _
    · split
      · exact .refused f _ _
      · exact .answered rfl (fun _ => rfl) (htype ▸ by decide)
  split
  · rename_i hadd hremove _ _
    refine .queued looper rfl ?_
    intro d
    rw [frameOrder, if_neg hadd, if_neg hremove]
    rfl
  · exact .refused f _ _

/-- The assumptions on a task: it does not take the path that keeps no table, the
header's invalid id is no user display, and an ERROR means that the table is as
it was. -/
structure Assumed (around : ControlReceiver.Surroundings) (s : MultiDisplay.State)
    (requestId : UInt32) (request : ControlDisplayAdd) : Prop where
  cold : around.env.hotPlugDisplayEnabled = false
  invalid : ControlReceiver.kMaxUserDisplayId < around.header.invalidIdMultiDisplay
  authoritative : Authoritative s (handleDisplayAdd around s requestId request)

structure TaskRan (s : MultiDisplay.State) (tag : Nat) (task : Task) (ran : Ran) : Prop where
  upright : Upright ran.displays
  replies : ∀ r ∈ ran.sends, r.requestId = 0 ∨ r.requestId = taskId task ∧
    ∀ d, taskOrder d (tag, task) = some .add → AnswersAdd d r
  effect : ∀ d, UserRange d →
    ((ran.sends.map (tag, ·)).filterMap (replySignal d) = [] ∧
      (tableGeometry ran.displays d = tableGeometry s d ∨
        taskOrder d (tag, task) = some .remove)) ∨
    (taskOrder d (tag, task) = some .add ∧ ∃ g, Positive g ∧
      (ran.sends.map (tag, ·)).filterMap (replySignal d) = [.accepted, .added g] ∧
      tableGeometry ran.displays d = some g) ∨
    (taskOrder d (tag, task) = some .remove ∧
      (ran.sends.map (tag, ·)).filterMap (replySignal d) = [.removed])

section

variable (around : ControlReceiver.Surroundings)

theorem taskRan_displayAdd {s : MultiDisplay.State} (hup : Upright s) (tag : Nat)
    {requestId : UInt32} {request : ControlDisplayAdd}
    (hd : UserRange request.displayId) (hassumed : Assumed around s requestId request) :
    TaskRan s tag (.displayAdd requestId request)
      (handleDisplayAdd around s requestId request) := by
  rcases handleDisplayAdd_cases around hup requestId hd hassumed.invalid hassumed.cold with
    ⟨⟨code, message, hsends⟩, hup'⟩ | ⟨hsends, hposed⟩
  · have hsame := hassumed.authoritative
      ⟨.error requestId code message, by rw [hsends]; exact List.mem_cons_self, rfl⟩
    refine ⟨hup', ?_, ?_⟩
    · intro r hr
      rw [hsends] at hr
      cases List.mem_singleton.mp hr
      exact .inr ⟨rfl, fun _ _ => .inr ⟨_, _, _, rfl⟩⟩
    · intro d _
      rw [hsends]
      exact .inl ⟨rfl, .inl (tableGeometry_of_sameTable hsame d)⟩
  · refine ⟨hposed.upright, ?_, ?_⟩
    · intro r hr
      rw [hsends] at hr
      rcases List.mem_cons.mp hr with rfl | hr
      · refine .inr ⟨rfl, ?_⟩
        intro d hadd
        have heq : request.displayId = d := by
          by_contra hne
          rw [taskOrder, if_neg hne] at hadd
          cases hadd
        exact .inl ⟨requestId, by rw [heq]⟩
      · cases List.mem_singleton.mp hr
        exact .inl rfl
    · intro d hd'
      rw [hsends]
      by_cases heq : request.displayId = d
      · subst heq
        refine .inr (.inl ⟨if_pos rfl, ⟨request.width, request.height, request.dpi⟩,
          hposed.positive, ?_, hposed.shown⟩)
        simp [replySignal, sendDisplayEvent, eventSignal]
      · refine .inl ⟨?_, .inl (hposed.others d hd' (Ne.symm heq))⟩
        simp [replySignal, sendDisplayEvent, eventSignal, heq]

theorem taskRan_displayRemove {s : MultiDisplay.State} (hup : Upright s) (tag : Nat)
    (requestId k : UInt32) :
    TaskRan s tag (.displayRemove requestId k) (handleDisplayRemove around s requestId k) := by
  have hnever : ∀ d, taskOrder d (tag, .displayRemove requestId k) ≠ some .add := by
    intro d
    rw [taskOrder]
    split
    · exact fun hadd => nomatch hadd
    · exact fun hadd => nomatch hadd
  obtain ⟨hup', hothers, hsends⟩ := handleDisplayRemove_cases around hup ..
  refine ⟨hup', ?_, ?_⟩
  · intro r hr
    rcases hsends with ⟨code, message, hsends⟩ | hsends
    · rw [hsends] at hr
      cases List.mem_singleton.mp hr
      exact .inr ⟨rfl, fun d hadd => absurd hadd (hnever d)⟩
    · rw [hsends] at hr
      rcases List.mem_cons.mp hr with rfl | hr
      · exact .inr ⟨rfl, fun d hadd => absurd hadd (hnever d)⟩
      · cases List.mem_singleton.mp hr
        exact .inl rfl
  · intro d hd
    by_cases heq : k = d
    · subst heq
      rcases hsends with ⟨code, message, hsends⟩ | hsends
      · rw [hsends]
        exact .inl ⟨rfl, .inr (if_pos rfl)⟩
      · rw [hsends]
        refine .inr (.inr ⟨if_pos rfl, ?_⟩)
        have hevent : replySignal k (tag, sendDisplayEvent k kControlDisplayRemoved 0 0 0 0) =
            some .removed := by
          rw [sendDisplayEvent, replySignal, eventSignal, if_pos rfl,
            if_neg (show kControlDisplayRemoved ≠ kControlDisplayAdded by decide), if_pos rfl]
        rw [List.map_cons, List.map_cons, filterMap_cons_toList, filterMap_cons_toList, hevent]
        rfl
    · refine .inl ⟨?_, .inl (hothers d hd (Ne.symm heq))⟩
      rcases hsends with ⟨code, message, hsends⟩ | hsends
      · rw [hsends]
        rfl
      · rw [hsends]
        simp [replySignal, sendDisplayEvent, eventSignal, heq]

theorem taskRan_displayList {s : MultiDisplay.State} (hup : Upright s) (tag : Nat)
    (requestId : UInt32) :
    TaskRan s tag (.displayList requestId) (handleDisplayList around s requestId) := by
  rw [handleDisplayList]
  split
  · refine ⟨hup, ?_, fun _ _ => .inl ⟨rfl, .inl rfl⟩⟩
    intro r hr
    cases List.mem_singleton.mp hr
    exact .inr ⟨rfl, fun d hadd => nomatch hadd⟩
  · split
    · refine ⟨hup, ?_, fun _ _ => .inl ⟨rfl, .inl rfl⟩⟩
      intro r hr
      cases List.mem_singleton.mp hr
      exact .inr ⟨rfl, fun d hadd => nomatch hadd⟩
    · exact ⟨hup, fun r hr => absurd hr List.not_mem_nil, fun _ _ => .inl ⟨rfl, .inl rfl⟩⟩

end

section Emulator

variable {w : World} (h : Inv w [])
include h

theorem Inv.receive {now : UInt64} {w' : World} (hstep : w.step (.receive now) = some w') :
    Inv w' [] := by
  simp only [World.step] at hstep
  split at hstep
  · cases hstep
  rename_i frame rest hqueue
  have hframe := frameHandled w.mainLooper now frame
  generalize handleFrame w.mainLooper now frame.type frame.requestId frame.payload = handled
    at hframe hstep
  have hw' := (Option.some.inj hstep).symm
  have hsignals : ∀ d, signals w' d = signals w d := by
    intro d
    rw [hw', signals, List.filterMap_append, hframe.silent d, List.append_nil]
    rfl
  have horders : ∀ d, (orders w' [] d).Sublist (orders w [] d) := by
    intro d
    rw [hw', orders, orders, hqueue, filterMap_cons_toList, List.filterMap_append, List.append_assoc,
      List.append_assoc, List.append_assoc, List.append_assoc]
    exact (List.Sublist.refl _).append ((hframe.orders d).append (List.Sublist.refl _))
  have hcarrier := mem_carried_frame (w := w) (f := frame) (hqueue ▸ List.mem_cons_self)
  subst hw'
  refine ⟨h.traffic.of_moved rfl rfl rfl (fun _ _ hx => hx) ?_ horders (fun _ hx => .inl hx)
    h.traffic.upright, fun d hd => (h.consistent d hd).carry ?_⟩
  · intro x hx
    right
    rcases List.mem_append.mp hx with hx | hx
    · rcases List.mem_append.mp hx with hx | hx
      · obtain ⟨f, hf, rfl⟩ := List.mem_map.mp hx
        refine ⟨_, mem_carried_frame (f := f) ?_, rfl, fun _ hd => hd⟩
        rw [hqueue]
        exact List.mem_cons_of_mem _ hf
      · obtain ⟨y, hy, rfl⟩ := List.mem_map.mp hx
        rcases List.mem_append.mp hy with hy | hy
        · exact ⟨_, mem_carried_task hy, rfl, fun _ hd => hd⟩
        · obtain ⟨task, htask, rfl⟩ := List.mem_map.mp hy
          exact ⟨_, hcarrier, hframe.tasks task htask⟩
    · obtain ⟨y, hy, rfl⟩ := List.mem_map.mp hx
      rw [← List.append_assoc] at hy
      rcases List.mem_append.mp hy with hy | hy
      · exact ⟨_, mem_carried_reply hy, rfl, fun _ hd => hd⟩
      · obtain ⟨r, hr, rfl⟩ := List.mem_map.mp hy
        exact ⟨_, hcarrier, hframe.replies r hr⟩
  · refine carry_of rfl rfl rfl (fun _ => rfl) ?_ ?_ (horders d)
      (fun t c _ => outstanding_congr rfl rfl t c)
    · rw [hsignals]
    · intro _
      rw [hsignals]

theorem Inv.ranTask {tag : Nat} {task : Task} {rest : List (Nat × Task)}
    (hlooper : w.looper = (tag, task) :: rest) (houtgoing : w.outgoing = []) {ran : Ran}
    (hran : TaskRan w.displays tag task ran) {emitted : List Nat} {w' : World}
    (hw' : w' = { w with
      looper := rest, displays := ran.displays, outgoing := ran.sends.map (tag, ·)
      emitted := emitted }) : Inv w' [] := by
  have hsignals : ∀ d, signals w' d =
      signals w d ++ (ran.sends.map (tag, ·)).filterMap (replySignal d) := by
    intro d
    rw [hw', signals, signals, houtgoing, List.filterMap_nil, List.append_nil]
  have horders : ∀ d, orders w [] d = (taskOrder d (tag, task)).toList ++ orders w' [] d := by
    intro d
    rw [hw', orders, orders, hlooper, filterMap_cons_toList, List.append_assoc, List.append_assoc,
      List.append_assoc]
  have hfewer : ∀ d, (orders w' [] d).Sublist (orders w [] d) := by
    intro d
    rw [horders d]
    exact List.sublist_append_right _ _
  subst hw'
  have hcarrier := mem_carried_task (w := w) (x := (tag, task)) (hlooper ▸ List.mem_cons_self)
  refine ⟨h.traffic.of_moved rfl rfl rfl (fun _ _ hx => hx) ?_ hfewer (fun _ hx => .inl hx)
    hran.upright, ?_⟩
  · intro x hx
    rcases List.mem_append.mp hx with hx | hx
    · rcases List.mem_append.mp hx with hx | hx
      · obtain ⟨f, hf, rfl⟩ := List.mem_map.mp hx
        exact .inr ⟨_, mem_carried_frame hf, rfl, fun _ hd => hd⟩
      · obtain ⟨y, hy, rfl⟩ := List.mem_map.mp hx
        refine .inr ⟨_, mem_carried_task (x := y) ?_, rfl, fun _ hd => hd⟩
        rw [hlooper]
        exact List.mem_cons_of_mem _ hy
    · obtain ⟨y, hy, rfl⟩ := List.mem_map.mp hx
      rcases List.mem_append.mp hy with hy | hy
      · obtain ⟨r, hr, rfl⟩ := List.mem_map.mp hy
        exact (hran.replies r hr).imp id fun hserves => ⟨_, hcarrier, hserves⟩
      · exact .inr ⟨_, mem_carried_reply (List.mem_append_right _ hy), rfl, fun _ hd => hd⟩
  · intro d hd
    have hbefore := h.consistent d hd
    rcases hran.effect d hd with ⟨hnone, htable⟩ | ⟨hadd, g, hpositive, hsent, htable⟩ |
      ⟨hremove, hsent⟩
    · -- refused, or a task for another display
      have hsame := hsignals d
      rw [hnone, List.append_nil] at hsame
      refine hbefore.carry (carry_of rfl rfl rfl ?_ ?_ ?_ (hfewer d)
        (fun t c _ => outstanding_congr rfl rfl t c))
      · intro hkept
        refine htable.resolve_right ?_
        intro hremove
        apply hkept (hbefore.removeMarked _)
        change .remove ∈ orders w [] d
        rw [horders d, hremove]
        exact List.mem_cons_self
      · rw [hsame]
      · intro _
        rw [hsame]
    · have hafter := hsignals d
      rw [hsent] at hafter
      have horder := horders d
      rw [hadd] at horder
      rw [view, hafter, htable]
      exact hbefore.accept horder hpositive
    · have hafter := hsignals d
      rw [hsent] at hafter
      have horder := horders d
      rw [hremove] at horder
      rw [view, hafter]
      exact hbefore.remove horder (tableGeometry ran.displays d)

theorem Inv.task {around : ControlReceiver.Surroundings} {w' : World}
    (hassumed : ∀ tag requestId request rest,
      w.looper = (tag, .displayAdd requestId request) :: rest →
        Assumed around w.displays requestId request)
    (hstep : w.step (.task around) = some w') : Inv w' [] := by
  simp only [World.step] at hstep
  split at hstep <;> cases hstep
  rename_i tag task rest hlooper houtgoing
  have hran : TaskRan w.displays tag task (runTask around w.displays task) := by
    cases task with
    | displayAdd requestId request =>
      refine taskRan_displayAdd around h.traffic.upright tag
        (h.traffic.ordered request.displayId ?_) (hassumed tag requestId request rest hlooper)
      rw [orders, hlooper, filterMap_cons_toList, taskOrder, if_pos rfl]
      exact List.mem_cons_self
    | displayRemove requestId k => exact taskRan_displayRemove around h.traffic.upright tag _ k
    | displayList requestId => exact taskRan_displayList around h.traffic.upright ..
  generalize runTask around w.displays task = ran at hran ⊢
  exact h.ranTask hlooper houtgoing hran rfl

end Emulator

end DisplayGeometry
end MacMu
