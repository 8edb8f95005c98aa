import MacMu.Lib.TransitionSystem
import MacMu.Qemu.DisplayList
import Mathlib

/-!
The control receiver over whole runs. The reader thread handles frames as they
come and answers some of them itself; the others it posts to the main looper,
which runs them in order, each against the display table as it is then. A frame
is written whole, so the two threads interleave at frames. Every answer is kept
with the number of the request it is for; `posted` lists the requests that went
to the looper.
-/

namespace MacMu
namespace ReceiverAnswers

open Std ControlProtocol ControlFraming ControlReceiver DisplayList TransitionSystem

variable {type : UInt16} {requestId : UInt32}

def requestIdOf : Task → UInt32
  | .displayAdd requestId _ | .displayRemove requestId _ | .displayList requestId => requestId

def requestTypeOf : Task → ControlMessageType
  | .displayAdd .. => .kDisplayAdd
  | .displayRemove .. => .kDisplayRemove
  | .displayList _ => .kDisplayList

def Answers (type : UInt16) (requestId : UInt32) (r : Reply) : Prop :=
  r.requestId = requestId ∧ (r.type.code = type ||| 0x100 ∨ r.type = .kError)

theorem answers_error (type : UInt16) (requestId : UInt32) (code : Int32) (message : String) :
    Answers type requestId (.error requestId code message) := ⟨rfl, .inr rfl⟩

/-- A frame is answered at once, or leaves a task that will answer it. -/
inductive Disposed (type : UInt16) (requestId : UInt32) (h : Handled) : Prop where
  | answered (r : Reply) (hsends : h.sends = [r]) (htask : h.task = none)
      (hanswers : Answers type requestId r)
  | posted (t : Task) (hsends : h.sends = []) (htask : h.task = some t)
      (hid : requestIdOf t = requestId) (htype : (requestTypeOf t).code = type)

theorem Disposed.error {code : Int32} {message : String} :
    Disposed type requestId (.answer (.error requestId code message)) :=
  .answered _ rfl rfl (answers_error ..)

theorem disposed_runOnMainLooper (looper : Bool) {t : Task} (hid : requestIdOf t = requestId)
    (htype : (requestTypeOf t).code = type) :
    Disposed type requestId (runOnMainLooper looper requestId t) := by
  unfold runOnMainLooper
  split
  · exact .posted t rfl rfl hid htype
  · exact .error

theorem disposed_handleFrame (looper : Bool) (steadyNowNs : UInt64) (type : UInt16)
    (requestId : UInt32) (payload : List UInt8) :
    Disposed type requestId (handleFrame looper steadyNowNs type requestId payload) := by
  unfold handleFrame
  split
  · rename_i htype
    exact .answered _ rfl rfl ⟨rfl, .inl (by rw [htype]; rfl)⟩
  split
  · rename_i htype
    exact .answered _ rfl rfl ⟨rfl, .inl (by rw [htype]; rfl)⟩
  split
  · rename_i htype
    split
    · exact .error
    · exact disposed_runOnMainLooper looper rfl htype.symm
  split
  · rename_i htype
    split
    · exact .error
    · exact disposed_runOnMainLooper looper rfl htype.symm
  split
  · rename_i htype
    unfold handleDisplayStream
    split
    · exact .error
    · dsimp only
      split
      · exact .error
      · exact .answered _ rfl rfl ⟨rfl, .inl (by rw [htype]; rfl)⟩
  split
  · rename_i htype
    exact disposed_runOnMainLooper looper rfl htype.symm
  · exact .error

def Replies (type : UInt16) (requestId : UInt32) (sends : List Reply) : Prop :=
  ∃ r events, sends = r :: events ∧ Answers type requestId r ∧ ∀ e ∈ events, e.requestId = 0

theorem replies_single {r : Reply} (h : Answers type requestId r) : Replies type requestId [r] :=
  ⟨r, [], rfl, h, nofun⟩

theorem replies_addDisplay (around : Surroundings) (s : MultiDisplay.State) (requestId : UInt32)
    (request : ControlDisplayAdd) (displayId : UInt32) :
    Replies ControlMessageType.kDisplayAdd.code requestId
      (addDisplay around s requestId request displayId).sends := by
  unfold addDisplay
  split
  · exact replies_single (answers_error ..)
  · split
    split
    · exact replies_single (answers_error ..)
    · refine ⟨_, _, rfl, ⟨rfl, .inl rfl⟩, ?_⟩
      intro e he
      rw [List.mem_singleton.mp he]
      rfl

/-- A task answers its request once, DISPLAY_LIST provided that its walk ends. -/
theorem replies_runTask (around : Surroundings) {s : MultiDisplay.State} (t : Task)
    (hsmall : ∀ requestId, t = .displayList requestId → SmallIds s) :
    Replies (requestTypeOf t).code (requestIdOf t) (runTask around s t).sends := by
  cases t with
  | displayAdd requestId request =>
    change Replies ControlMessageType.kDisplayAdd.code requestId
      (handleDisplayAdd around s requestId request).sends
    unfold handleDisplayAdd
    split
    · exact replies_single (answers_error ..)
    split
    · split
      · exact replies_single (answers_error ..)
      · exact replies_addDisplay ..
    · exact replies_addDisplay ..
  | displayRemove requestId displayId =>
    change Replies ControlMessageType.kDisplayRemove.code requestId
      (handleDisplayRemove around s requestId displayId).sends
    unfold handleDisplayRemove
    split
    · exact replies_single (answers_error ..)
    split
    · exact replies_single (answers_error ..)
    · split
      split
      · exact replies_single (answers_error ..)
      · refine ⟨_, _, rfl, ⟨rfl, .inl rfl⟩, ?_⟩
        intro e he
        rw [List.mem_singleton.mp he]
        rfl
  | displayList requestId =>
    change Replies ControlMessageType.kDisplayList.code requestId
      (handleDisplayList around s requestId).sends
    rw [handleDisplayList, displayInfos_eq (hsmall requestId rfl) (Nat.lt_succ_self _)]
    split
    · exact replies_single (answers_error ..)
    · exact replies_single ⟨rfl, .inl rfl⟩

structure Receiver where
  looper : Bool
  tasks : List (Nat × Task)
  outgoing : List (Nat × Reply)
  received : List Frame
  posted : List Nat
  sent : List (Nat × Reply)

inductive Step where
  | receive (steadyNowNs : UInt64) (frame : Frame)
  | looperStarts
  | task (around : Surroundings) (displays : MultiDisplay.State)
  | send

namespace Receiver

variable {tag : Nat} {frame : Frame}

def start : Receiver := ⟨false, [], [], [], [], []⟩

def step (r : Receiver) : Step → Option Receiver
  | .receive steadyNowNs frame =>
    let handled := handleFrame r.looper steadyNowNs frame.type frame.requestId frame.payload
    let tag := r.received.length
    some { r with
      tasks := r.tasks ++ handled.task.toList.map (tag, ·)
      received := r.received ++ [frame]
      posted := r.posted ++ handled.task.toList.map fun _ => tag
      sent := r.sent ++ handled.sends.map (tag, ·) }
  | .looperStarts => some { r with looper := true }
  | .task around displays =>
    match r.tasks, r.outgoing with
    | (tag, t) :: rest, [] =>
      some { r with tasks := rest, outgoing := (runTask around displays t).sends.map (tag, ·) }
    | _, _ => none
  | .send =>
    match r.outgoing with
    | [] => none
    | reply :: rest => some { r with outgoing := rest, sent := r.sent ++ [reply] }

/-- The frames with a request id, each with the number of the request. -/
def answers (r : Receiver) : List (Nat × Reply) := r.sent.filter fun a => a.2.requestId ≠ 0

/-- Requests have ids, and DISPLAY_LIST meets tables that its walk gets through. -/
def Orderly (r : Receiver) : Step → Prop
  | .receive _ frame => frame.requestId ≠ 0
  | .task _ displays =>
    ∀ tag requestId rest, r.tasks = (tag, .displayList requestId) :: rest → SmallIds displays
  | _ => True

def tagsOf (replies : List (Nat × Reply)) : List Nat :=
  (replies.filter fun a => a.2.requestId ≠ 0).map Prod.fst

theorem tagsOf_append (as bs : List (Nat × Reply)) : tagsOf (as ++ bs) = tagsOf as ++ tagsOf bs := by
  rw [tagsOf, List.filter_append, List.map_append]
  rfl

theorem tagsOf_answer {r : Reply} (h : r.requestId ≠ 0) (tag : Nat) : tagsOf [(tag, r)] = [tag] := by
  simp [tagsOf, h]

theorem tagsOf_events {events : List Reply} (h : ∀ e ∈ events, e.requestId = 0) (tag : Nat) :
    tagsOf (events.map (tag, ·)) = [] := by
  rw [tagsOf, List.map_eq_nil_iff, List.filter_eq_nil_iff]
  intro a ha
  obtain ⟨e, he, rfl⟩ := List.mem_map.mp ha
  simpa using h e he

/-- What has been answered or is about to be, in this order. -/
def settled (r : Receiver) : List Nat := tagsOf (r.sent ++ r.outgoing)

structure Inv (r : Receiver) : Prop where
  /-- Every request has been settled once or waits in the looper. -/
  once : (r.settled ++ r.tasks.map Prod.fst).Perm (List.range r.received.length)
  sent : ∀ a ∈ r.sent ++ r.outgoing, a.2.requestId = 0 ∨
    ∃ f, r.received[a.1]? = some f ∧ Answers f.type f.requestId a.2
  tasks : ∀ a ∈ r.tasks, ∃ f, r.received[a.1]? = some f ∧ f.requestId ≠ 0 ∧
    requestIdOf a.2 = f.requestId ∧ (requestTypeOf a.2).code = f.type
  posted : ∀ tag ∈ r.posted, tag < r.received.length
  /-- Requests that were posted are settled in the order they came in. -/
  order : r.settled.filter (· ∈ r.posted) ++ r.tasks.map Prod.fst = r.posted
  sorted : r.posted.Pairwise (· < ·)

theorem inv_start : Inv start where
  once := List.Perm.refl _
  sent := nofun
  tasks := nofun
  posted := nofun
  order := rfl
  sorted := .nil

variable {r : Receiver}

theorem Inv.lt_of_settled (h : Inv r) (htag : tag ∈ r.settled) : tag < r.received.length :=
  List.mem_range.mp (h.once.mem_iff.mp (List.mem_append_left _ htag))

theorem received_concat {frames : List Frame} {f : Frame} (h : frames[tag]? = some f) :
    (frames ++ [frame])[tag]? = some f := by
  rw [List.getElem?_append_left (List.getElem?_eq_some_iff.mp h).1, h]

theorem received_last (frames : List Frame) (frame : Frame) :
    (frames ++ [frame])[frames.length]? = some frame := List.getElem?_concat_length

theorem Inv.answer (h : Inv r) {reply : Reply} (hid : frame.requestId ≠ 0)
    (hanswers : Answers frame.type frame.requestId reply) :
    Inv { r with
      received := r.received ++ [frame]
      sent := r.sent ++ [(r.received.length, reply)] } := by
  have hreply : reply.requestId ≠ 0 := hanswers.1 ▸ hid
  have hsettled : tagsOf (r.sent ++ [(r.received.length, reply)] ++ r.outgoing) =
      tagsOf r.sent ++ [r.received.length] ++ tagsOf r.outgoing := by
    rw [tagsOf_append, tagsOf_append, tagsOf_answer hreply]
  have hbefore : r.settled = tagsOf r.sent ++ tagsOf r.outgoing := tagsOf_append ..
  refine ⟨?_, ?_, ?_, ?_, ?_, h.sorted⟩
  · have honce := h.once
    rw [List.perm_iff_count] at honce ⊢
    intro tag
    have hcount := honce tag
    simp only [settled, hsettled, tagsOf_append, List.count_append, List.length_append,
      List.length_singleton, List.range_succ] at hcount ⊢
    omega
  · intro a ha
    simp only [List.mem_append, List.mem_singleton] at ha
    obtain (hold | rfl) | hout := ha
    · exact (h.sent a (List.mem_append_left _ hold)).imp_right
        fun ⟨f, hf, hans⟩ => ⟨f, received_concat hf, hans⟩
    · exact .inr ⟨frame, received_last .., hanswers⟩
    · exact (h.sent a (List.mem_append_right _ hout)).imp_right
        fun ⟨f, hf, hans⟩ => ⟨f, received_concat hf, hans⟩
  · intro a ha
    obtain ⟨f, hf, hrest⟩ := h.tasks a ha
    exact ⟨f, received_concat hf, hrest⟩
  · intro tag htag
    have hlt := h.posted tag htag
    rw [List.length_append]
    omega
  · have hnew : r.received.length ∉ r.posted := fun hmem => Nat.lt_irrefl _ (h.posted _ hmem)
    have horder := h.order
    rw [hbefore, List.filter_append] at horder
    simp only [settled, hsettled, List.filter_append]
    rw [List.filter_cons_of_neg (by simpa using hnew), List.filter_nil, List.append_nil]
    exact horder

theorem Inv.post (h : Inv r) {t : Task} (hid : frame.requestId ≠ 0)
    (htaskId : requestIdOf t = frame.requestId) (htype : (requestTypeOf t).code = frame.type) :
    Inv { r with
      tasks := r.tasks ++ [(r.received.length, t)]
      received := r.received ++ [frame]
      posted := r.posted ++ [r.received.length] } := by
  refine ⟨?_, ?_, ?_, ?_, ?_, ?_⟩
  · simp only [List.map_append, List.map_cons, List.map_nil, List.length_append,
      List.length_singleton, List.range_succ]
    rw [← List.append_assoc]
    exact h.once.append_right _
  · intro a ha
    exact (h.sent a ha).imp_right fun ⟨f, hf, hans⟩ => ⟨f, received_concat hf, hans⟩
  · intro a ha
    obtain hold | hnew := List.mem_append.mp ha
    · obtain ⟨f, hf, hrest⟩ := h.tasks a hold
      exact ⟨f, received_concat hf, hrest⟩
    · rw [List.mem_singleton.mp hnew]
      exact ⟨frame, received_last .., hid, htaskId, htype⟩
  · intro tag htag
    rw [List.length_append]
    obtain hold | hnew := List.mem_append.mp htag
    · exact Nat.lt_succ_of_lt (h.posted tag hold)
    · rw [List.mem_singleton.mp hnew]
      exact Nat.lt_succ_self _
  · have hkept : r.settled.filter (· ∈ r.posted ++ [r.received.length]) =
        r.settled.filter (· ∈ r.posted) := by
      apply List.filter_congr
      intro tag htag
      have hne : tag ≠ r.received.length := Nat.ne_of_lt (h.lt_of_settled htag)
      simp [hne]
    change r.settled.filter (· ∈ r.posted ++ [r.received.length]) ++ _ = _
    rw [hkept, List.map_append, ← List.append_assoc, h.order]
    rfl
  · rw [List.pairwise_append]
    refine ⟨h.sorted, List.pairwise_singleton _ _, ?_⟩
    intro tag htag last hlast
    rw [List.mem_singleton.mp hlast]
    exact h.posted tag htag

theorem Inv.run (h : Inv r) {t : Task} {rest : List (Nat × Task)} {sends : List Reply}
    (htasks : r.tasks = (tag, t) :: rest) (hout : r.outgoing = [])
    (hsends : Replies (requestTypeOf t).code (requestIdOf t) sends) :
    Inv { r with tasks := rest, outgoing := sends.map (tag, ·) } := by
  obtain ⟨f, hf, hid, htaskId, htype⟩ := h.tasks (tag, t) (htasks ▸ List.mem_cons_self)
  obtain ⟨answer, events, rfl, hanswers, hevents⟩ := hsends
  rw [htaskId, htype] at hanswers
  have hanswer : answer.requestId ≠ 0 := hanswers.1 ▸ hid
  have hbefore : r.settled = tagsOf r.sent := by rw [settled, hout, List.append_nil]
  have hsettled : tagsOf (r.sent ++ (answer :: events).map (tag, ·)) = r.settled ++ [tag] := by
    have hcons : (answer :: events).map (tag, ·) = [(tag, answer)] ++ events.map (tag, ·) := rfl
    rw [hcons, tagsOf_append, tagsOf_append, tagsOf_answer hanswer, tagsOf_events hevents,
      List.append_nil, hbefore]
  have horder := h.order
  have honce := h.once
  rw [htasks, List.map_cons] at horder honce
  refine ⟨?_, ?_, ?_, h.posted, ?_, h.sorted⟩
  · simp only [settled, hsettled, List.append_assoc, List.singleton_append]
    exact honce
  · intro a ha
    obtain hold | hnew := List.mem_append.mp ha
    · exact h.sent a (List.mem_append_left _ hold)
    · obtain ⟨reply, hreply, rfl⟩ := List.mem_map.mp hnew
      obtain rfl | hevent := List.mem_cons.mp hreply
      · exact .inr ⟨f, hf, hanswers⟩
      · exact .inl (hevents reply hevent)
  · exact fun a ha => h.tasks a (htasks ▸ List.mem_cons_of_mem _ ha)
  · have hposted : tag ∈ r.posted := by
      rw [← horder]
      exact List.mem_append_right _ List.mem_cons_self
    simp only [settled, hsettled, List.filter_append]
    rw [List.filter_cons_of_pos (by simpa using hposted), List.filter_nil, List.append_assoc,
      List.singleton_append]
    exact horder

theorem Inv.step (h : Inv r) {a : Step} {r' : Receiver} (hok : Orderly r a)
    (hstep : r.step a = some r') : Inv r' := by
  cases a with
  | receive steadyNowNs frame =>
    cases hstep
    cases disposed_handleFrame r.looper steadyNowNs frame.type frame.requestId frame.payload with
    | answered reply hsends htask hanswers =>
      rw [hsends, htask]
      simp only [Option.toList_none, List.map_nil, List.append_nil, List.map_cons]
      exact h.answer hok hanswers
    | posted t hsends htask hid htype =>
      rw [hsends, htask]
      simp only [Option.toList_some, List.map_nil, List.append_nil, List.map_cons]
      exact h.post hok hid htype
  | looperStarts =>
    cases hstep
    exact ⟨h.once, h.sent, h.tasks, h.posted, h.order, h.sorted⟩
  | task around displays =>
    rw [Receiver.step] at hstep
    split at hstep <;> cases hstep
    rename_i tag t rest htasks hout
    apply h.run htasks hout (replies_runTask around t ?_)
    rintro requestId rfl
    exact hok tag requestId rest htasks
  | send =>
    rw [Receiver.step] at hstep
    split at hstep <;> cases hstep
    rename_i reply rest hout
    have hsame : r.sent ++ [reply] ++ rest = r.sent ++ r.outgoing := by
      rw [hout, List.append_assoc, List.singleton_append]
    have hsettled : ({ r with outgoing := rest, sent := r.sent ++ [reply] } :
        Receiver).settled = r.settled := by
      rw [settled, settled, hsame]
    refine ⟨?_, ?_, h.tasks, h.posted, ?_, h.sorted⟩
    · rw [hsettled]
      exact h.once
    · simp only [hsame]
      exact h.sent
    · rw [hsettled]
      exact h.order

theorem Inv.ids (h : Inv r) (hrest : r.tasks = []) (hout : r.outgoing = []) :
    (r.answers.map fun a => a.2.requestId).Perm (r.received.map Frame.requestId) := by
  have hid : ∀ a ∈ r.answers,
      a.2.requestId = ((fun tag => (r.received[tag]?.map Frame.requestId).getD 0) ∘ Prod.fst) a := by
    intro a ha
    obtain ⟨hmem, hne⟩ := List.mem_filter.mp ha
    obtain ⟨f, hf, hanswers⟩ := (h.sent a (List.mem_append_left _ hmem)).resolve_left
      (by simpa using hne)
    simp only [Function.comp_apply, hf, Option.map_some, Option.getD_some, hanswers.1]
  have honce := h.once
  rw [hrest, settled, hout, List.append_nil, List.map_nil, List.append_nil] at honce
  rw [List.map_congr_left hid, ← List.map_map]
  refine (honce.map _).trans (List.Perm.of_eq ?_)
  apply List.ext_getElem?
  intro tag
  rw [List.getElem?_map, List.getElem?_map]
  by_cases htag : tag < r.received.length
  · simp [List.getElem?_range htag, List.getElem?_eq_getElem htag]
  · simp [htag]

end Receiver

/-- Every request is answered once. When the looper has run everything that was
posted, the frames with a request id are one for each request, with its id and
a type that answers it; the other frames have id 0. The requests that went to
the looper are answered in the order they came in. A DISPLAY_LIST walk over a
table of small ids ends and lists every display once, in order. -/
theorem control_receiver_answers_once (steps : List Step)
    (hok : Meets Receiver.step Receiver.Orderly Receiver.start steps) {r : Receiver}
    (hrun : exec Receiver.step Receiver.start steps = some r) (htasks : r.tasks = [])
    (hout : r.outgoing = []) :
    (r.answers.map Prod.fst).Perm (List.range r.received.length) ∧
    (r.answers.map fun a => a.2.requestId).Perm (r.received.map Frame.requestId) ∧
    (∀ a ∈ r.answers, ∃ f, r.received[a.1]? = some f ∧ Answers f.type f.requestId a.2) ∧
    (r.answers.map Prod.fst).filter (· ∈ r.posted) = r.posted ∧ r.posted.Pairwise (· < ·) ∧
    ∀ s, SmallIds s → ∃ entries : List ControlDisplayInfo,
      (∀ fuel, s.mMultiDisplay.size < fuel → displayInfos s fuel (-1) = some entries) ∧
      (∀ around requestId, around.agent = true →
        (handleDisplayList around s requestId).sends = [.displayListOk requestId entries]) ∧
      (entries.map ControlDisplayInfo.displayId).Pairwise (· < ·) ∧
      ∀ id, id ∈ entries.map ControlDisplayInfo.displayId ↔ id ∈ s.mMultiDisplay := by
  have h := exec_guarded_invariant (I := Receiver.Inv) (fun _ _ _ h hok hs => h.step hok hs) steps
    Receiver.inv_start hok hrun
  have hsettled : r.settled = r.answers.map Prod.fst := by
    rw [Receiver.settled, hout, List.append_nil]
    rfl
  have honce := h.once
  have horder := h.order
  rw [htasks, List.map_nil, List.append_nil, hsettled] at honce horder
  refine ⟨honce, h.ids htasks hout, ?_, horder, h.sorted, ?_⟩
  · intro a ha
    obtain ⟨hmem, hne⟩ := List.mem_filter.mp ha
    exact (h.sent a (List.mem_append_left _ hmem)).resolve_left (by simpa using hne)
  · intro s hsmall
    refine ⟨_, fun fuel hfuel => displayInfos_eq hsmall hfuel, ?_, ?_, ?_⟩
    · intro around requestId hagent
      rw [handleDisplayList, hagent, displayInfos_eq hsmall (Nat.lt_succ_self _)]
      rfl
    · rw [List.map_map]
      exact List.pairwise_map.mpr (pairwise_toList s)
    · intro id
      rw [displayIds_eq, ExtTreeMap.mem_keys]

def twoDisplays : MultiDisplay.State :=
  ⟨(∅ : ExtTreeMap UInt32 MultiDisplay.MultiDisplayInfo).insert 0 ⟨1, 1, 1, 1, 120, 0, 1, true⟩
    |>.insert 2 ⟨1, 1, 1, 1, 120, 0, 1, true⟩, false⟩

/-- A request of an unknown type overtakes a DISPLAY_LIST. -/
def overtaken : List Step :=
  [.looperStarts, .receive 0 ⟨ControlMessageType.kDisplayList.code, 7, [], Frame.nil_le⟩,
    .receive 0 ⟨0x55, 8, [], Frame.nil_le⟩, .task (plainSurroundings true) twoDisplays, .send]

theorem control_receiver_answers_once_overtaken :
    ∃ r, exec Receiver.step Receiver.start overtaken = some r ∧
      r.answers.map Prod.fst = [1, 0] ∧
      (r.answers.map Prod.fst).Perm (List.range r.received.length) := by
  have hsmall : SmallIds twoDisplays := by
    intro id hid
    simp only [twoDisplays, ExtTreeMap.mem_insert, Std.compare_eq_iff_eq] at hid
    obtain rfl | rfl | hid := hid
    · decide
    · decide
    · exact absurd hid ExtTreeMap.not_mem_empty
  have hok : Meets Receiver.step Receiver.Orderly Receiver.start overtaken := by
    apply meets_of_forall
    intro a ha r
    simp only [overtaken, List.mem_cons, List.not_mem_nil, or_false] at ha
    obtain rfl | rfl | rfl | rfl | rfl := ha
    · trivial
    · exact (by decide : (7 : UInt32) ≠ 0)
    · exact (by decide : (8 : UInt32) ≠ 0)
    · exact fun _ _ _ _ => hsmall
    · trivial
  have hfields : (exec Receiver.step Receiver.start overtaken).map (fun r =>
      (r.tasks, r.outgoing, r.answers.map Prod.fst)) = some ([], [], [1, 0]) := by
    decide +kernel
  obtain ⟨r, hrun, hr⟩ := Option.map_eq_some_iff.mp hfields
  obtain ⟨htasks, hrest⟩ := Prod.mk.inj hr
  obtain ⟨hout, hanswers⟩ := Prod.mk.inj hrest
  exact ⟨r, hrun, hanswers, (control_receiver_answers_once overtaken hok hrun htasks hout).1⟩

end ReceiverAnswers
end MacMu
