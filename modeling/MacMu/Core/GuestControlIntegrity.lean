import MacMu.Core.GuestControlMutex
import MacMu.Core.GuestControlProgress

/-!
The log of an agent connection. The write mutex lets one call send at a time,
and the connection is neither replaced nor shut down meanwhile, so a message
goes out in one stretch. What is left to each call is to make sure that nothing
follows a message it could not finish: `install_apk` shuts the connection down,
`request` does not.
-/

namespace MacMu
namespace GuestControlWire

open GuestControlClient TransitionSystem

variable {front log : List Entry} {i : Nat} {w w' : World} {operation : Operation} {m : Message}
  {s' : State} {requestId : UInt64} {input : CallerInput}

def stretch (i : Nat) (m : Message) (put : List UInt8) : List Entry :=
  if put = [] then [] else [⟨i, m, put⟩]

theorem append_stretch (hfront : ∀ e ∈ front, e.call ≠ i) (m : Message) (put more : List UInt8) :
    append (front ++ stretch i m put) i m more = front ++ stretch i m (put ++ more) := by
  by_cases hmore : more = []
  · rw [append, if_pos hmore, hmore, List.append_nil]
  · rw [append, if_neg hmore]
    by_cases hput : put = []
    · rw [hput, stretch, if_pos rfl, List.append_nil, List.nil_append, stretch, if_neg hmore]
      split
      · rename_i e hlast
        rw [if_neg (hfront e (List.mem_of_getLast? hlast))]
      · rename_i hlast
        rw [List.getLast?_eq_none_iff.mp hlast]
        rfl
    · have happend : put ++ more ≠ [] := List.append_ne_nil_of_left_ne_nil hput more
      rw [stretch, if_neg hput, stretch, if_neg happend, List.getLast?_concat]
      dsimp only
      rw [if_pos rfl, List.dropLast_concat]

def Settled (shut : Bool) (log : List Entry) : Prop :=
  (∀ e ∈ log, e.message.Whole e.put) ∨ (shut = true ∧ Intact log)

theorem intact_of_whole (h : ∀ e ∈ log, e.message.Whole e.put) : Intact log :=
  ⟨fun e he => h e (List.mem_of_mem_dropLast he), fun e he => .inl (h e (List.mem_of_getLast? he))⟩

theorem Settled.intact {shut : Bool} (h : Settled shut log) : Intact log :=
  h.elim intact_of_whole And.right

theorem Settled.mono {shut shut' : Bool} (h : Settled shut log) (hshut : shut = true → shut' = true) :
    Settled shut' log :=
  h.imp_right fun hintact => ⟨hshut hintact.1, hintact.2⟩

theorem intact_concat {e : Entry} (h : ∀ e ∈ front, e.message.Whole e.put)
    (he : e.message.Whole e.put ∨ e.message.Incomplete e.put) : Intact (front ++ [e]) := by
  refine ⟨?_, ?_⟩
  · rwa [List.dropLast_concat]
  · rw [List.getLast?_concat]
    rintro e' ⟨rfl⟩
    exact he

/-- Call `i` sends: what it has put so far ends the log. -/
structure Writing (w : World) (i : Nat) (operation : Operation) (m : Message) (phase : WritePhase)
    (put : List UInt8) (front : List Entry) : Prop where
  writer : w.writers i = some (m, phase)
  operation_eq : m.operation = operation
  reached : m.Reached put phase
  log_eq : w.log = front ++ stretch i m put
  settled : Settled w.shut front
  fresh : ∀ e ∈ front, e.call ≠ i
  shut_of_put : put ≠ [] → w.shut = false

theorem Writing.intact {phase : WritePhase} {put : List UInt8}
    (h : Writing w i operation m phase put front) : Intact w.log := by
  rw [h.log_eq, stretch]
  split
  · rw [List.append_nil]
    exact h.settled.intact
  · rename_i hput
    have hwhole := h.settled.resolve_right fun hshut =>
      absurd hshut.1 (by rw [h.shut_of_put hput]; decide)
    exact intact_concat hwhole (h.reached.whole_or_incomplete hput)

theorem Writing.whole_of_finished {put : List UInt8}
    (h : Writing w i operation m (.finished true) put front) : Settled w.shut w.log := by
  have hwhole : m.Whole put := by cases m <;> exact h.reached
  have hput := hwhole.ne_nil
  have hfront := h.settled.resolve_right fun hshut =>
    absurd hshut.1 (by rw [h.shut_of_put hput]; decide)
  refine .inl ?_
  rw [h.log_eq, stretch, if_neg hput]
  intro e he
  obtain hmem | hlast := List.mem_append.mp he
  · exact hfront e hmem
  · rw [List.mem_singleton.mp hlast]
    exact hwhole

def Calm (s : State) : Prop := ∀ i operation requestId, s.callers i ≠ .sending operation requestId

structure Inv (w : World) : Prop where
  exclusive : Exclusive w.client
  writing : ∀ i operation requestId, w.client.callers i = .sending operation requestId →
    ∃ m phase put front, Writing w i operation m phase put front
  calm : Calm w.client → Settled w.shut w.log
  written : ∀ e ∈ w.log, hasWritten (w.client.callers e.call) = true
  past : ∀ log ∈ w.past, Intact log

theorem inv_start : Inv World.start where
  exclusive := nofun
  writing := nofun
  calm := fun _ => .inl nofun
  written := nofun
  past := nofun

theorem Inv.intact (h : Inv w) : ∀ log ∈ w.logs, Intact log := by
  intro log hlog
  obtain hpast | hlast := List.mem_append.mp hlog
  · exact h.past log hpast
  · rw [List.mem_singleton.mp hlast]
    by_cases hcalm : Calm w.client
    · exact (h.calm hcalm).intact
    · simp only [Calm, not_forall, not_not] at hcalm
      obtain ⟨i, operation, requestId, hphase⟩ := hcalm
      obtain ⟨m, phase, put, front, hwriting⟩ := h.writing i operation requestId hphase
      exact hwriting.intact

theorem calm_of_free {s : State} (h : Exclusive s) (hfree : s.writeMutex = none) : Calm s := by
  intro i operation requestId hphase
  have hheld := h i (by rw [hphase]; rfl)
  rw [hfree] at hheld
  cases hheld

section

variable (h : Inv w)
include h

theorem Inv.frame (hexclusive : Exclusive w'.client)
    (hsending : ∀ i operation requestId, w'.client.callers i = .sending operation requestId ↔
      w.client.callers i = .sending operation requestId)
    (hwritten : ∀ i, hasWritten (w.client.callers i) = true →
      hasWritten (w'.client.callers i) = true) (hwriters : w'.writers = w.writers)
    (hlog : w'.log = w.log) (hshut : w'.shut = w.shut) (hpast : w'.past = w.past) : Inv w' where
  exclusive := hexclusive
  writing := by
    intro i operation requestId hphase
    obtain ⟨m, phase, put, front, hw⟩ :=
      h.writing i operation requestId ((hsending i operation requestId).mp hphase)
    refine ⟨m, phase, put, front, ?_, hw.operation_eq, hw.reached, ?_, ?_, hw.fresh, ?_⟩
    · rw [hwriters]; exact hw.writer
    · rw [hlog]; exact hw.log_eq
    · rw [hshut]; exact hw.settled
    · rw [hshut]; exact hw.shut_of_put
  calm := by
    intro hcalm
    rw [hlog, hshut]
    exact h.calm fun i operation requestId hphase =>
      hcalm i operation requestId ((hsending i operation requestId).mpr hphase)
  written := by
    rw [hlog]
    exact fun e he => hwritten e.call (h.written e he)
  past := by
    rw [hpast]
    exact h.past

section

variable (hmove : CallerMove w.client s' i)
include hmove

theorem Inv.callerMove
    (hloading : ∀ operation requestId, w.client.callers i ≠ .loading operation requestId)
    (hsending : ∀ operation requestId, w.client.callers i ≠ .sending operation requestId)
    (commands : Nat → List UInt8) (apkSizes : Nat → Nat) :
    Inv { w with client := s', commands := commands, apkSizes := apkSizes } := by
  refine h.frame (h.exclusive.callerMove hmove) ?_ ?_ rfl rfl rfl rfl
  · intro j operation requestId
    by_cases hj : j = i
    · subst hj
      exact ⟨fun hphase => absurd (hmove.begins _ _ hphase) (hloading _ _),
        fun hphase => absurd hphase (hsending _ _)⟩
    · rw [hmove.others j hj]
  · intro j hj
    by_cases hji : j = i
    · subst hji
      exact hmove.written hj
    · rw [hmove.others j hji]
      exact hj

theorem calm_of_callerMove (hholds : holds (w.client.callers i) = true)
    (hdone : ∀ operation requestId, s'.callers i ≠ .sending operation requestId) : Calm s' := by
  intro j operation requestId hphase
  by_cases hj : j = i
  · subst hj
    exact hdone operation requestId hphase
  · rw [hmove.others j hj] at hphase
    exact hj (h.exclusive.eq (by rw [hphase]; rfl) hholds)

theorem written_of_callerMove : ∀ e ∈ w.log, hasWritten (s'.callers e.call) = true := by
  intro e he
  by_cases hcall : e.call = i
  · rw [hcall]
    exact hmove.written (hcall ▸ h.written e he)
  · rw [hmove.others _ hcall]
    exact h.written e he

end

/-- The call loads the descriptor and begins to write, or finds none. -/
theorem Inv.load (hphase : w.client.callers i = .loading operation requestId)
    (hstep : w.client.callerStep i input = some s') : let message := w.message i requestId operation
    Inv { w with
      client := s'
      writers := Function.update w.writers i
        (if w.client.clientFd.isSome then some (message, message.start) else none) } := by
  intro message
  have hmove := callerStep_move hstep
  have hholds : holds (w.client.callers i) = true := by rw [hphase]; rfl
  have hsettled : Settled w.shut w.log := by
    apply h.calm
    intro j operation' requestId' hj
    rw [← h.exclusive.eq (by rw [hj]; rfl) hholds, hj] at hphase
    cases hphase
  have hwritten := written_of_callerMove h hmove
  refine ⟨h.exclusive.callerMove hmove, ?_, fun _ => hsettled, hwritten, h.past⟩
  intro j operation' requestId' hj
  by_cases hji : j = i
  · subst hji
    have hbegins := hmove.begins _ _ hj
    rw [hphase] at hbegins
    cases hbegins
    have hconnected : w.client.clientFd.isSome = true := by
      unfold State.callerStep at hstep
      rw [hphase] at hstep
      dsimp only at hstep
      split at hstep
      · assumption
      · cases hstep
        have hphase' : ∀ phase : CallerPhase,
            (({ w.client with writeMutex := none } : State).setCaller j phase).callers j = phase :=
          fun phase => Function.update_self ..
        rw [hphase'] at hj
        cases operation <;> cases hj
    refine ⟨message, message.start, [], w.log, ?_, Message.operation_message .., message.reached_start,
      ?_, hsettled, ?_, fun hne => absurd rfl hne⟩
    · rw [if_pos hconnected]
      exact Function.update_self ..
    · rw [stretch, if_pos rfl, List.append_nil]
    · intro e he heq
      have hwritten := h.written e he
      rw [heq, hphase] at hwritten
      cases hwritten
  · rw [hmove.others j hji] at hj
    exact absurd (h.exclusive.eq (by rw [hj]; rfl) hholds) hji

theorem Inv.unlock {sent : Bool} (hphase : w.client.callers i = .sending operation requestId)
    (hwriter : w.writers i = some (m, .finished sent))
    (hstep : w.client.callerStep i input = some s') :
    Inv { w with
      client := s'
      writers := Function.update w.writers i none
      shut := w.shut || (decide (operation = .installApk) && !sent) } := by
  have hmove := callerStep_move hstep
  have hholds : holds (w.client.callers i) = true := by rw [hphase]; rfl
  have hdone : ∀ operation requestId, s'.callers i ≠ .sending operation requestId := by
    intro operation' requestId' hsending
    have hbegins := hmove.begins _ _ hsending
    rw [hphase] at hbegins
    cases hbegins
  have hcalm := calm_of_callerMove h hmove hholds hdone
  have hwritten := written_of_callerMove h hmove
  refine ⟨h.exclusive.callerMove hmove, fun j op id hj => absurd hj (hcalm j op id), fun _ => ?_,
    hwritten, h.past⟩
  obtain ⟨m', phase, put, front, hw⟩ := h.writing i operation requestId hphase
  obtain ⟨rfl, rfl⟩ := Prod.mk.inj (Option.some.inj (hwriter.symm.trans hw.writer))
  cases sent with
  | true =>
    exact (hw.whole_of_finished).mono fun hshut => by rw [hshut]; rfl
  | false =>
    cases m with
    | request id command =>
      have hnil : put = [] := hw.reached
      have hlog : w.log = front := by rw [hw.log_eq, hnil, stretch, if_pos rfl, List.append_nil]
      have hoperation : operation = .request := hw.operation_eq.symm
      dsimp only
      rw [hlog, hoperation]
      exact hw.settled.mono fun hshut => by rw [hshut]; rfl
    | install id apkSize =>
      have hoperation : operation = .installApk := hw.operation_eq.symm
      refine .inr ⟨?_, hw.intact⟩
      dsimp only
      rw [hoperation]
      simp

theorem Inv.write {input : WriteInput} {phase next : WritePhase} {more : List UInt8}
    (hphase : w.client.callers i = .sending operation requestId)
    (hwriter : w.writers i = some (m, phase)) (hclean : m.SendsClean phase input)
    (hstep : phase.step w.client.stopRequested w.shut input = some (more, next)) :
    Inv { w with
      writers := Function.update w.writers i (some (m, next))
      log := append w.log i m more } := by
  have hholds : holds (w.client.callers i) = true := by rw [hphase]; rfl
  obtain ⟨m', phase', put, front, hw⟩ := h.writing i operation requestId hphase
  obtain ⟨rfl, rfl⟩ := Prod.mk.inj (Option.some.inj (hwriter.symm.trans hw.writer))
  have hlog : append w.log i m more = front ++ stretch i m (put ++ more) := by
    rw [hw.log_eq, append_stretch hw.fresh]
  refine ⟨h.exclusive, ?_, fun hcalm => absurd hphase (hcalm i operation requestId), ?_, h.past⟩
  · intro j operation' requestId' hj
    obtain rfl := h.exclusive.eq (by rw [hj]; rfl) hholds
    rw [hphase] at hj
    cases hj
    refine ⟨m, next, put ++ more, front, Function.update_self .., hw.operation_eq,
      hw.reached.step hclean hstep, hlog, hw.settled, hw.fresh, ?_⟩
    intro hne
    by_cases hmore : more = []
    · rw [hmore, List.append_nil] at hne
      exact hw.shut_of_put hne
    · exact Message.put_of_step hstep hmore
  · dsimp only
    intro e he
    rw [hlog] at he
    obtain hfront | hnew := List.mem_append.mp he
    · exact h.written e (by rw [hw.log_eq]; exact List.mem_append_left _ hfront)
    · unfold stretch at hnew
      split at hnew
      · cases hnew
      · rw [List.mem_singleton.mp hnew, hphase]
        rfl

end

/-- The condition under which a step keeps the connection intact: when a send of
a request line fails, none of the line has been sent yet. -/
def Clean (w : World) : Step → Prop
  | .write i input =>
    match w.writers i with
    | some (m, phase) => m.SendsClean phase input
    | none => True
  | _ => True

instance (w : World) (a : Step) : Decidable (Clean w a) :=
  match a with
  | .write i input =>
    match h : w.writers i with
    | some (m, phase) => decidable_of_iff (m.SendsClean phase input) (by simp only [Clean, h])
    | none => .isTrue (by simp only [Clean, h])
  | .call .. | .caller .. | .accept .. | .stop => .isTrue trivial

theorem Inv.callerStep (h : Inv w) (hstep : w.callerStep i input = some w') : Inv w' := by
  unfold World.callerStep at hstep
  split at hstep
  · rename_i hphase
    obtain ⟨s', hs', rfl⟩ := Option.map_eq_some_iff.mp hstep
    exact h.callerMove (callerStep_move hs') (by rw [hphase]; nofun) (by rw [hphase]; nofun) _ _
  · rename_i hphase
    obtain ⟨s', hs', rfl⟩ := Option.map_eq_some_iff.mp hstep
    exact h.load hphase hs'
  · rename_i hphase
    split at hstep
    · rename_i hwriter
      split at hstep
      · obtain ⟨s', hs', rfl⟩ := Option.map_eq_some_iff.mp hstep
        exact h.unlock hphase hwriter hs'
      · cases hstep
    · cases hstep
  · rename_i hloading hsending
    obtain ⟨s', hs', rfl⟩ := Option.map_eq_some_iff.mp hstep
    exact h.callerMove (callerStep_move hs') (fun _ _ => hloading _ _) (fun _ _ => hsending _ _) _ _

theorem Inv.accept {nowMs : UInt64} {arrival : GuestControlClient.Arrival} (h : Inv w)
    (hstep : w.step (.accept nowMs arrival) = some w') : Inv w' := by
  obtain ⟨s', hs', rfl⟩ := Option.map_eq_some_iff.mp hstep
  obtain ⟨hcallers, hmutex⟩ := acceptStep_frame hs'
  have hexclusive : Exclusive s' := by
    rw [Exclusive, hcallers, hmutex]
    exact h.exclusive
  split
  · rename_i hphase _
    -- a connection is published under the mutex, so the log before it is settled
    have hfree := publish_free hphase hs'
    have hcalm : Calm s' := calm_of_free hexclusive (hmutex.trans hfree)
    refine ⟨hexclusive, fun j op id hj => absurd hj (hcalm j op id), fun _ => .inl nofun, nofun, ?_⟩
    intro log hlog
    obtain hpast | hlast := List.mem_append.mp hlog
    · exact h.past log hpast
    · rw [List.mem_singleton.mp hlast]
      exact (h.calm (calm_of_free h.exclusive hfree)).intact
  · exact h.frame hexclusive (fun i operation requestId => by rw [hcallers])
      (fun i => by rw [hcallers]; exact id) rfl rfl rfl rfl

theorem Inv.stop (h : Inv w) (hstep : w.step .stop = some w') : Inv w' := by
  obtain ⟨s', hs', rfl⟩ := Option.map_eq_some_iff.mp hstep
  obtain ⟨hcallers, hmutex, hwaking⟩ := stopStep_frame hs'
  have hexclusive : Exclusive s' := by
    rw [Exclusive, hcallers, hmutex]
    exact h.exclusive
  split
  · rename_i hphase
    have hfree := hwaking hphase
    have hcalm : Calm s' := calm_of_free hexclusive (hmutex.trans hfree)
    refine ⟨hexclusive, fun j op id hj => absurd hj (hcalm j op id), fun _ => ?_, ?_, h.past⟩
    · exact (h.calm (calm_of_free h.exclusive hfree)).mono fun hshut => by rw [hshut]; rfl
    · intro e he
      rw [hcallers]
      exact h.written e he
  · exact h.frame hexclusive (fun i operation requestId => by rw [hcallers])
      (fun i => by rw [hcallers]; exact id) rfl rfl rfl rfl

theorem Inv.step {a : Step} (h : Inv w) (hclean : Clean w a) (hstep : w.step a = some w') :
    Inv w' := by
  cases a with
  | call i operation callback timeoutMs command =>
    obtain ⟨s', hs', rfl⟩ := Option.map_eq_some_iff.mp hstep
    rw [State.step] at hs'
    split at hs'
    · rename_i hidle
      cases hs'
      refine h.callerMove ?_ (by rw [hidle]; nofun) (by rw [hidle]; nofun) _ _
      refine .early hidle rfl rfl rfl ?_ nofun
      cases operation <;> rfl
    · cases hs'
  | caller i input => exact h.callerStep hstep
  | write i input =>
    rw [World.step, World.writeStep] at hstep
    split at hstep
    · rename_i hphase hwriter
      obtain ⟨⟨more, next⟩, hnext, rfl⟩ := Option.map_eq_some_iff.mp hstep
      rw [Clean, hwriter] at hclean
      exact h.write hphase hwriter hclean hnext
    · cases hstep
  | accept nowMs arrival => exact h.accept hstep
  | stop => exact h.stop hstep

/-- In every run in which a send of a request line fails only before any of the
line is out, every connection carries whole messages and at most one incomplete
one at its end, at any time. -/
theorem guest_control_stream_intact (steps : List Step)
    (hclean : Meets World.step Clean World.start steps) {w : World}
    (hrun : exec World.step World.start steps = some w) : ∀ log ∈ w.logs, Intact log :=
  (exec_guarded_invariant (I := Inv) (fun _ _ _ h hc hs => h.step hc hs) steps inv_start hclean
    hrun).intact

def connect : List Step :=
  [.accept 0 .nothing, .accept 0 (.connection 3), .accept 0 .nothing]

/-- What the steps of a call are told when nothing is in its way. -/
def freely (size : Int) (sent : Bool) : CallerInput := ⟨0, false, .opened true size, sent⟩

/-- A call of `request` up to its first send. -/
def beginRequest (i : Nat) (command : List UInt8) : List Step :=
  .call i .request false 0 command :: List.replicate 6 (.caller i (freely 0 true))

/-- A call of `install_apk` up to its first send. -/
def beginInstall (i : Nat) (size : Int) : List Step :=
  .call i .installApk false 0 [] :: List.replicate 7 (.caller i (freely size true))

/-- A request that cannot be sent at all, and then an installation that stops
after two of three bytes. -/
def brokenInstall : List Step :=
  connect ++ beginRequest 0 (ascii "apps") ++
    [.write 0 (.send .failed), .caller 0 (freely 0 false)] ++ beginInstall 1 3 ++
    [.write 1 (.send (.wrote 12)), .write 1 .go, .write 1 .go, .write 1 (.read [7, 8]),
      .write 1 (.send (.wrote 2)), .write 1 .go, .write 1 .go, .write 1 (.read []),
      .caller 1 (freely 3 false)]

theorem guest_control_stream_intact_broken_install :
    ∃ w, exec World.step World.start brokenInstall = some w ∧
      w.logs = [[], [⟨1, .install 2 3, ascii "2 install 3\n" ++ [7, 8]⟩]] ∧ w.shut = true ∧
      ∀ log ∈ w.logs, Intact log := by
  have hlogs : (exec World.step World.start brokenInstall).map (fun w => (w.logs, w.shut)) =
      some ([[], [⟨1, .install 2 3, ascii "2 install 3\n" ++ [7, 8]⟩]], true) := by
    decide +kernel
  obtain ⟨w, hrun, hfields⟩ := Option.map_eq_some_iff.mp hlogs
  obtain ⟨hw, hshut⟩ := Prod.mk.inj hfields
  exact ⟨w, hrun, hw, hshut,
    guest_control_stream_intact brokenInstall (by decide +kernel) hrun⟩

/-- A request line breaks off after three bytes, and the next request is written
behind it on the same connection. -/
def brokenRequest : List Step :=
  connect ++ beginRequest 0 (ascii "apps") ++
    [.write 0 (.send (.wrote 3)), .write 0 (.send .failed), .caller 0 (freely 0 false)] ++
    beginRequest 1 (ascii "apps") ++
    [.write 1 (.send (.wrote 7)), .write 1 .go, .caller 1 (freely 0 true)]

theorem request_follows_broken_request :
    ∃ w, exec World.step World.start brokenRequest = some w ∧
      w.logs = [[], [⟨0, .request 1 (ascii "apps"), ascii "1 a"⟩,
        ⟨1, .request 2 (ascii "apps"), ascii "2 apps\n"⟩]] ∧
      ¬ ∀ log ∈ w.logs, Intact log := by
  have hlogs : (exec World.step World.start brokenRequest).map World.logs =
      some [[], [⟨0, .request 1 (ascii "apps"), ascii "1 a"⟩,
        ⟨1, .request 2 (ascii "apps"), ascii "2 apps\n"⟩]] := by
    decide +kernel
  obtain ⟨w, hrun, hw⟩ := Option.map_eq_some_iff.mp hlogs
  refine ⟨w, hrun, hw, ?_⟩
  intro hintact
  rw [hw] at hintact
  have hwhole : ascii "1 a" = requestLine 1 (ascii "apps") :=
    (hintact _ (List.mem_cons_of_mem _ List.mem_cons_self)).1 _ List.mem_cons_self
  exact absurd hwhole (by decide)

end GuestControlWire
end MacMu
