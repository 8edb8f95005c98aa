import MacMu.Shell.RemovalMarks
import Mathlib.Data.List.Perm.Subperm

/-!
A removal is followed through the queues as a token: the DISPLAY_REMOVE frame,
the looper task, the DISPLAY_REMOVED event, the event block. The steps of the
channel and of the emulator only move tokens along or drop them, so what holds
of the tokens is decided where the shell issues requests and handles events.
-/

namespace MacMu
namespace RemovalTokens

open Std ControlProtocol ControlRoundTrip ControlReceiver TransitionSystem RemovalMarks

variable {w w' : World}

def frameToken (f : RequestFrame) : Option (Nat × UInt32) :=
  if f.type = ControlMessageType.kDisplayRemove.code then
    some (f.tag, displayIdOfBytes f.payload)
  else none

def taskToken : Nat × Task → Option (Nat × UInt32)
  | (tag, .displayRemove _ displayId) => some (tag, displayId)
  | _ => none

def replyToken (r : Nat × Reply) : Option (Nat × UInt32) := r.2.removedDisplay.map (r.1, ·)

def blockToken (b : Nat × Block) : Option (Nat × UInt32) := b.2.removedDisplay.map (b.1, ·)

def requested (w : World) : List (Nat × UInt32) :=
  w.toQemu.filterMap frameToken ++ w.looper.filterMap taskToken

def returning (w : World) : List (Nat × UInt32) :=
  w.outgoing.filterMap replyToken ++ w.toShell.filterMap replyToken ++
    w.mainQueue.filterMap blockToken

def tokens (w : World) : List (Nat × UInt32) := requested w ++ returning w

def Settled (w : World) (d : UInt32) : Prop :=
  ∀ t bound, w.issued[t]? = some (.remove d bound) → t ∈ w.answered

/-- The invariant that follows the removals. `once` and `emits` count a tag over
every place where its token may be. -/
structure Tracked (w : World) : Prop where
  drained : w.shell.outbox = []
  queued : ∀ x ∈ w.mainQueue, x.2 ≠ .qemuExited
  once : ∀ t, ((tokens w).map Prod.fst ++ w.answered).count t ≤ 1
  emits : ∀ t, ((requested w).map Prod.fst ++ w.emitted).count t ≤ 1
  answered_lt : ∀ t ∈ w.answered, t < w.issued.length
  issued_of_emitted : ∀ t ∈ w.emitted, ∃ d bound, w.issued[t]? = some (.remove d bound)
  issued_of_token : ∀ x ∈ tokens w, ∃ bound, w.issued[x.1]? = some (.remove x.2 bound)
  marked : ∀ t d bound, w.issued[t]? = some (.remove d bound) → t ∉ w.answered →
    d ∈ w.shell.displayRemovalPending
  launched_before : ∀ t d bound, w.issued[t]? = some (.remove d bound) → t ∉ w.answered →
    ∀ i, w.issued[i]? = some (.launch d) → i < t
  same_instance : ∀ t d bound, w.issued[t]? = some (.remove d bound) → t ∉ w.answered →
    ∀ i, boundTo w.shell w.issued d = some i → bound = some i
  single : ∀ t u d bound bound', w.issued[t]? = some (.remove d bound) →
    w.issued[u]? = some (.remove d bound') → t ∉ w.answered → u ∉ w.answered → t = u

theorem Tracked.settled_of_not_marked (h : Tracked w) {d : UInt32}
    (hd : d ∉ w.shell.displayRemovalPending) : Settled w d := by
  intro t bound ht
  by_contra hanswered
  exact hd (h.marked t d bound ht hanswered)

theorem Tracked.token_lt (h : Tracked w) {x : Nat × UInt32} (hx : x ∈ tokens w) :
    x.1 < w.issued.length := by
  obtain ⟨bound, hissued⟩ := h.issued_of_token x hx
  exact (List.getElem?_eq_some_iff.mp hissued).1

theorem tracked_start (shell : AppDelegate) (displays : MultiDisplay.State) :
    Tracked (World.start shell displays) := by
  have hissued : ∀ {t : Nat} {d : UInt32} {bound : Option Nat},
      (World.start shell displays).issued[t]? ≠ some (.remove d bound) := by
    intro t d bound h
    rcases t with - | t
    · cases h
    · cases h
  refine ⟨rfl, fun x hx => absurd hx List.not_mem_nil, fun t => ?_, fun t => ?_,
    fun t ht => absurd ht List.not_mem_nil, fun t ht => absurd ht List.not_mem_nil,
    fun x hx => absurd hx List.not_mem_nil, ?_, ?_, ?_, ?_⟩
  · exact Nat.zero_le 1
  · exact Nat.zero_le 1
  · intro t d bound ht
    exact absurd ht hissued
  · intro t d bound ht
    exact absurd ht hissued
  · intro t d bound ht
    exact absurd ht hissued
  · intro t u d bound bound' ht
    exact absurd ht hissued

/-- A step of the queues that moves tokens along and issues nothing. -/
theorem Tracked.of_moved (h : Tracked w) (shell : w'.shell = w.shell)
    (issued : w'.issued = w.issued) (answered : w'.answered = w.answered)
    (queued : ∀ x ∈ w'.mainQueue, x ∈ w.mainQueue ∨ x.2 ≠ .qemuExited)
    (hsub : (tokens w').Subperm (tokens w))
    (hemits : ((requested w').map Prod.fst ++ w'.emitted).Subperm
      ((requested w).map Prod.fst ++ w.emitted)) : Tracked w' where
  drained := shell ▸ h.drained
  queued := fun x hx => (queued x hx).elim (h.queued x) id
  once := by
    intro t
    refine Nat.le_trans ?_ (h.once t)
    rw [answered, List.count_append, List.count_append]
    obtain ⟨l, hperm, hl⟩ := hsub
    rw [← (hperm.map Prod.fst).count_eq t]
    exact Nat.add_le_add_right ((hl.map Prod.fst).count_le t) _
  emits := fun t => Nat.le_trans (hemits.count_le t) (h.emits t)
  answered_lt := by
    rw [answered, issued]
    exact h.answered_lt
  issued_of_emitted := by
    intro t ht
    rw [issued]
    rcases List.mem_append.mp (hemits.subset (List.mem_append_right _ ht)) with hold | hold
    · obtain ⟨x, hx, rfl⟩ := List.mem_map.mp hold
      exact ⟨x.2, h.issued_of_token x (List.mem_append_left _ hx)⟩
    · exact h.issued_of_emitted t hold
  issued_of_token := by
    intro x hx
    rw [issued]
    exact h.issued_of_token x (hsub.subset hx)
  marked := by
    rw [shell, issued, answered]
    exact h.marked
  launched_before := by
    rw [issued, answered]
    exact h.launched_before
  same_instance := by
    rw [shell, issued, answered]
    exact h.same_instance
  single := by
    rw [issued, answered]
    exact h.single

theorem subperm_of_count {l l' : List (Nat × UInt32)} (h : ∀ x, l'.count x ≤ l.count x) :
    l'.Subperm l :=
  List.subperm_ext_iff.mpr fun x _ => h x

theorem count_filterMap_cons {α : Type} (f : α → Option (Nat × UInt32)) (a : α) (l : List α)
    (x : Nat × UInt32) :
    ((a :: l).filterMap f).count x = (f a).toList.count x + (l.filterMap f).count x := by
  rw [← List.count_append, List.filterMap_cons]
  cases f a <;> rfl

theorem completion_no_token (tag : Nat) (c : Completion) (response : Response) {b : Block}
    (h : c.block response = some b) : blockToken (tag, b) = none ∧ b ≠ .qemuExited := by
  cases c with
  | launchAdd | resizeAdd =>
    cases h
    exact ⟨rfl, Block.noConfusion⟩
  | logOnly => cases h

theorem tokens_complete (w : World) (tag : Nat) (c : Completion) (response : Response) :
    tokens (w.complete tag c response) = tokens w := by
  unfold World.complete
  split
  · rfl
  · rename_i b hb
    have hnone := (completion_no_token tag c response hb).1
    simp only [tokens, requested, returning, List.filterMap_append, List.filterMap_cons, hnone,
      List.filterMap_nil, List.append_nil]

theorem Tracked.complete (h : Tracked w) (tag : Nat) (c : Completion) (response : Response) :
    Tracked (w.complete tag c response) := by
  have hsub : (tokens (w.complete tag c response)).Subperm (tokens w) := by
    rw [tokens_complete]
  unfold World.complete at hsub ⊢
  split
  · exact h
  · rename_i b hb
    rw [hb] at hsub
    refine h.of_moved rfl rfl rfl ?_ hsub (List.Subperm.refl _)
    intro x hx
    rcases List.mem_append.mp hx with hx | hx
    · exact .inl hx
    · rw [List.mem_singleton.mp hx]
      exact .inr (completion_no_token tag c response hb).2

theorem blockToken_of_reply (tag : Nat) (r : Reply) :
    blockToken (tag, .controlEvent r.type.code r.payload) = replyToken (tag, r) := by
  cases r with
  | eventDisplay event =>
    simp only [blockToken, replyToken, Block.removedDisplay, Reply.removedDisplay, Reply.type,
      Reply.payload, ControlEventDisplay.ofBytes_bytes, ControlEventDisplay.length_bytes,
      Nat.le_refl, true_and]
  | _ => rfl

theorem replyToken_of_requestId {r : Reply} (h : r.requestId ≠ 0) (tag : Nat) :
    replyToken (tag, r) = none := by
  cases r with
  | eventDisplay event => exact absurd rfl h
  | _ => rfl

theorem Tracked.read (h : Tracked w) {tag : Nat} {reply : Reply} {rest : List (Nat × Reply)}
    (hqueue : w.toShell = (tag, reply) :: rest) (hstep : w.step .read = some w') : Tracked w' := by
  simp only [World.step, hqueue] at hstep
  split at hstep
  · -- an event
    cases hstep
    refine h.of_moved rfl rfl rfl ?_ (subperm_of_count ?_) (List.Subperm.refl _)
    · intro x hx
      rcases List.mem_append.mp hx with hx | hx
      · exact .inl hx
      · rw [List.mem_singleton.mp hx]
        exact .inr Block.noConfusion
    · intro x
      simp only [tokens, requested, returning, hqueue, List.filterMap_append, List.count_append,
        count_filterMap_cons, List.filterMap_nil, List.count_nil, blockToken_of_reply]
      omega
  · rename_i hid
    have hpop : Tracked { w with toShell := rest } := by
      refine h.of_moved rfl rfl rfl (fun x hx => .inl hx) (subperm_of_count ?_)
        (List.Subperm.refl _)
      intro x
      simp only [tokens, requested, returning, hqueue, List.filterMap_cons,
        replyToken_of_requestId hid, Nat.le_refl]
    split at hstep
    · cases hstep
      exact hpop
    · rename_i pendingTag c _
      cases hstep
      have hgone : Tracked { w with toShell := rest, pending := w.pending.erase reply.requestId } :=
        hpop.of_moved rfl rfl rfl (fun x hx => .inl hx) (List.Subperm.refl _) (List.Subperm.refl _)
      exact hgone.complete ..

theorem replyTokens_eq (tag : Nat) (sends : List Reply) :
    (sends.map (tag, ·)).filterMap replyToken =
      (sends.filterMap Reply.removedDisplay).map (tag, ·) := by
  rw [List.filterMap_map, List.map_filterMap]
  rfl

/-- A frame for the looper carries its token there; no other frame has one. -/
theorem handleFrame_tokens (looper : Bool) (now : UInt64) (f : RequestFrame) :
    (handleFrame looper now f.type f.requestId f.payload).sends.filterMap
        Reply.removedDisplay = [] ∧
      (((handleFrame looper now f.type f.requestId f.payload).task.toList.map
        (f.tag, ·)).filterMap taskToken).Sublist (frameToken f).toList := by
  unfold handleFrame
  split
  · exact ⟨rfl, List.nil_sublist _⟩
  split
  · exact ⟨rfl, List.nil_sublist _⟩
  split
  · split
    · exact ⟨rfl, List.nil_sublist _⟩
    · cases looper <;> exact ⟨rfl, List.nil_sublist _⟩
  split
  · rename_i hremove
    split
    · exact ⟨rfl, List.nil_sublist _⟩
    · rw [frameToken, if_pos hremove]
      cases looper
      · exact ⟨rfl, List.nil_sublist _⟩
      · exact ⟨rfl, List.Sublist.refl _⟩
  split
  · unfold handleDisplayStream
    dsimp only
    split
    · exact ⟨rfl, List.nil_sublist _⟩
    · split <;> exact ⟨rfl, List.nil_sublist _⟩
  split
  · cases looper <;> exact ⟨rfl, List.nil_sublist _⟩
  · exact ⟨rfl, List.nil_sublist _⟩

theorem Tracked.receive (h : Tracked w) {now : UInt64} (hstep : w.step (.receive now) = some w') :
    Tracked w' := by
  simp only [World.step] at hstep
  split at hstep <;> cases hstep
  rename_i frame rest hqueue
  obtain ⟨hsends, htask⟩ := handleFrame_tokens w.mainLooper now frame
  have hcount : ∀ x, (requested { w with
      toQemu := rest
      toShell := w.toShell ++ (handleFrame w.mainLooper now frame.type frame.requestId
        frame.payload).sends.map (frame.tag, ·)
      looper := w.looper ++ (handleFrame w.mainLooper now frame.type frame.requestId
        frame.payload).task.toList.map (frame.tag, ·) }).count x ≤ (requested w).count x := by
    intro x
    have := htask.count_le x
    simp only [requested, hqueue, List.filterMap_append, List.count_append, count_filterMap_cons]
    omega
  refine h.of_moved rfl rfl rfl (fun x hx => .inl hx) (subperm_of_count ?_) ?_
  · intro x
    have := hcount x
    simp only [tokens, returning, List.filterMap_append, List.count_append, replyTokens_eq,
      hsends, List.map_nil, List.count_nil]
    omega
  · obtain ⟨l, hperm, hl⟩ := subperm_of_count hcount
    exact ⟨l.map Prod.fst ++ w.emitted, (hperm.map Prod.fst).append_right _,
      (hl.map Prod.fst).append_right _⟩

/-- Only a removal answers with DISPLAY_REMOVED, once and for its own id. -/
theorem runTask_removed (around : ControlReceiver.Surroundings) (s : MultiDisplay.State)
    (tag : Nat) (task : Task) :
    (((runTask around s task).sends.filterMap Reply.removedDisplay).map (tag, ·)).Sublist
      (taskToken (tag, task)).toList := by
  cases task with
  | displayAdd requestId request =>
    simp only [runTask, handleDisplayAdd]
    have hadd : ∀ d, (addDisplay around s requestId request d).sends.filterMap
        Reply.removedDisplay = [] := by
      intro d
      unfold addDisplay
      split
      · rfl
      · dsimp only
        split <;> rfl
    split
    · exact List.nil_sublist _
    · split
      · split
        · exact List.nil_sublist _
        · rw [hadd]
          exact List.nil_sublist _
      · rw [hadd]
        exact List.nil_sublist _
  | displayRemove requestId d =>
    simp only [runTask, handleDisplayRemove]
    split
    · exact List.nil_sublist _
    · split
      · exact List.nil_sublist _
      · split
        · exact List.nil_sublist _
        · exact List.Sublist.refl _
  | displayList requestId =>
    simp only [runTask, handleDisplayList]
    split
    · exact List.nil_sublist _
    · split <;> exact List.nil_sublist _

theorem Tracked.task (h : Tracked w) {around : ControlReceiver.Surroundings}
    (hstep : w.step (.task around) = some w') : Tracked w' := by
  simp only [World.step] at hstep
  split at hstep <;> cases hstep
  rename_i tag task rest hlooper houtgoing
  have hran := runTask_removed around w.displays tag task
  refine h.of_moved rfl rfl rfl (fun x hx => .inl hx) (subperm_of_count ?_)
    (List.subperm_ext_iff.mpr ?_)
  · intro x
    have := hran.count_le x
    simp only [tokens, requested, returning, hlooper, houtgoing, List.count_append,
      count_filterMap_cons, replyTokens_eq, List.filterMap_nil, List.count_nil]
    omega
  · intro t _
    have := (hran.map Prod.fst).count_le t
    have hcons : ((w.looper.filterMap taskToken).map Prod.fst).count t =
        ((taskToken (tag, task)).toList.map Prod.fst).count t +
          ((rest.filterMap taskToken).map Prod.fst).count t := by
      rw [hlooper, List.filterMap_cons, ← List.count_append]
      cases taskToken (tag, task) <;> rfl
    simp only [requested, List.map_append, List.count_append, hcons]
    rw [List.map_map] at this
    change List.count t (List.map (fun _ => tag) _) ≤ _ at this
    omega

theorem Tracked.send (h : Tracked w) (hstep : w.step .send = some w') : Tracked w' := by
  simp only [World.step] at hstep
  split at hstep <;> cases hstep
  rename_i reply rest hqueue
  refine h.of_moved rfl rfl rfl (fun x hx => .inl hx) (subperm_of_count ?_) (List.Subperm.refl _)
  intro x
  simp only [tokens, requested, returning, hqueue, List.filterMap_append, List.count_append,
    count_filterMap_cons, List.filterMap_nil, List.count_nil]
  omega

end RemovalTokens
end MacMu
