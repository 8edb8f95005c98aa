import MacMu.Core.GuestControlClient

/-!
The connection callback of `GuestControlClient`. The accept thread runs it: with true when
it has published a connection, with false when it has taken it back and failed what was
pending. A run of the callback is a step of its own, before which the accept thread does
nothing else. Connections are numbered as their handshakes finish; the numbers are kept
for the statements only. `start` was given a callback.
-/

namespace MacMu
namespace GuestControlNotices

open GuestControlClient TransitionSystem

structure World where
  client : State
  /-- The number of the last connection whose handshake has finished. -/
  handshakes : Nat
  /-- The connections whose handshake finished after `stopRequested_` was set. -/
  late : List Nat
  published : List Nat
  disconnected : Bool
  due : Option Bool
  /-- The calls of the callback, each with the connection it is about. -/
  notices : List (Nat × Bool)

namespace World

variable (w : World)

def ready : Bool := w.client.clientFd.isSome

/-- What the accept thread has done with its connection in a step. -/
def observe (client : State) : World :=
  match w.client.accept, client.accept with
  | .accepting, .publishing _ =>
    { w with
      client := client
      handshakes := w.handshakes + 1
      late := if w.client.stopRequested then w.late ++ [w.handshakes + 1] else w.late }
  | .publishing _, .serving _ =>
    { w with client := client, published := w.published ++ [w.handshakes], due := some true }
  | .disconnecting fd, _ =>
    { w with client := client, disconnected := decide (w.client.clientFd = some fd) }
  | .failing [], _ =>
    { w with client := client, due := if w.disconnected then some false else none }
  | _, _ => { w with client := client }

def acceptStep (nowMs : UInt64) (arrival : Arrival) : Option World :=
  match w.due with
  | some value => some { w with due := none, notices := w.notices ++ [(w.handshakes, value)] }
  | none => (w.client.acceptStep nowMs arrival).map w.observe

def step : Step → Option World
  | .accept nowMs arrival => w.acceptStep nowMs arrival
  | other => (w.client.step other).map fun client => { w with client := client }

def start : World := ⟨GuestControlClient.start, 0, [], [], false, none, []⟩

end World

/-- Whether the accept thread has a published connection, or has one to take back. -/
inductive Standing where
  | apart
  | connected (fd : Nat)
  | cleared
  deriving DecidableEq, Repr

def standing : AcceptPhase → Standing
  | .looping | .accepting | .publishing _ | .finished => .apart
  | .serving fd | .polling fd | .handling fd .. | .answering fd .. | .sweeping fd
  | .expiring fd _ | .disconnecting fd => .connected fd
  | .clearing | .failing _ => .cleared

inductive Course (w : World) : Prop where
  | apart (hstanding : standing w.client.accept = .apart) (hclient : w.client.clientFd = none)
      (hdue : w.due = none) (heven : w.notices.length % 2 = 0)
  | announcing (fd : Nat) (haccept : w.client.accept = .serving fd)
      (hclient : w.client.clientFd = some fd) (hdue : w.due = some true)
      (heven : w.notices.length % 2 = 0) (hpublished : w.handshakes ∈ w.published)
  | connected (fd : Nat) (hstanding : standing w.client.accept = .connected fd)
      (hclient : w.client.clientFd = some fd) (hdue : w.due = none)
      (hodd : w.notices.length % 2 = 1) (hpublished : w.handshakes ∈ w.published)
  | cleared (hstanding : standing w.client.accept = .cleared) (hclient : w.client.clientFd = none)
      (hdisconnected : w.disconnected = true) (hdue : w.due = none)
      (hodd : w.notices.length % 2 = 1) (hpublished : w.handshakes ∈ w.published)
  | retracting (haccept : w.client.accept = .looping) (hclient : w.client.clientFd = none)
      (hdue : w.due = some false) (hodd : w.notices.length % 2 = 1)
      (hpublished : w.handshakes ∈ w.published)

/-- The first notice is true, and each one after it differs from the one before. -/
def Alternates (values : List Bool) : Prop :=
  values = (List.range values.length).map fun i => i % 2 == 0

theorem Alternates.append {values : List Bool} (h : Alternates values) :
    Alternates (values ++ [values.length % 2 == 0]) := by
  rw [Alternates, List.length_append, List.length_singleton, List.range_succ, List.map_append, ← h]
  rfl

structure Inv (w : World) : Prop where
  course : Course w
  alternates : Alternates (w.notices.map Prod.snd)
  announced : ∀ notice ∈ w.notices, notice.1 ∈ w.published
  numbered : ∀ n ∈ w.published, n ≤ w.handshakes
  lateNumbered : ∀ n ∈ w.late, n ≤ w.handshakes ∧ n ∉ w.published
  lateStopped : w.late ≠ [] → w.client.stopRequested = true
  joined : w.client.stop = .joined ∨ (∃ callbacks, w.client.stop = .failing callbacks) ∨
    w.client.stop = .returned → w.client.accept = .finished

theorem Course.of_apart {w : World} (h : Course w) (hapart : standing w.client.accept = .apart)
    (hleft : w.client.accept ≠ .looping) :
    w.client.clientFd = none ∧ w.due = none ∧ w.notices.length % 2 = 0 := by
  cases h with
  | apart _ hclient hdue heven => exact ⟨hclient, hdue, heven⟩
  | announcing fd haccept => rw [haccept] at hapart; cases hapart
  | connected fd hstanding | cleared hstanding => cases hapart.symm.trans hstanding
  | retracting haccept => exact absurd haccept hleft

theorem inv_start : Inv World.start where
  course := .apart rfl rfl rfl rfl
  alternates := rfl
  announced := nofun
  numbered := nofun
  lateNumbered := nofun
  lateStopped := fun h => absurd rfl h
  joined := nofun

section Steps

variable {w w' : World}
variable {client : State}

theorem Inv.frame (h : Inv w) (haccept : client.accept = w.client.accept)
    (hclient : client.clientFd = w.client.clientFd)
    (hstop : w.client.stopRequested = true → client.stopRequested = true)
    (hjoined : client.stop = .joined ∨ (∃ callbacks, client.stop = .failing callbacks) ∨
      client.stop = .returned → client.accept = .finished) : Inv { w with client := client } where
  course := by
    cases h.course with
    | apart hstanding hfd hdue heven =>
      exact .apart (haccept ▸ hstanding) (hclient.trans hfd) hdue heven
    | announcing fd hphase hfd hdue heven hpublished =>
      exact .announcing fd (haccept.trans hphase) (hclient.trans hfd) hdue heven hpublished
    | connected fd hstanding hfd hdue hodd hpublished =>
      exact .connected fd (haccept ▸ hstanding) (hclient.trans hfd) hdue hodd hpublished
    | cleared hstanding hfd hdisconnected hdue hodd hpublished =>
      exact .cleared (haccept ▸ hstanding) (hclient.trans hfd) hdisconnected hdue hodd hpublished
    | retracting hphase hfd hdue hodd hpublished =>
      exact .retracting (haccept.trans hphase) (hclient.trans hfd) hdue hodd hpublished
  alternates := h.alternates
  announced := h.announced
  numbered := h.numbered
  lateNumbered := h.lateNumbered
  lateStopped := fun hlate => hstop (h.lateStopped hlate)
  joined := hjoined

theorem callerStep_frame {s s' : State} {i : Nat} {input : CallerInput}
    (h : s.callerStep i input = some s') :
    s'.accept = s.accept ∧ s'.clientFd = s.clientFd ∧ s'.stopRequested = s.stopRequested ∧
      s'.stop = s.stop := by
  unfold State.callerStep at h
  split at h
  case h_10 operation callback timeoutMs requestId hphase =>
    cases h
    cases callback <;> exact ⟨rfl, rfl, rfl, rfl⟩
  all_goals
    repeat' split at h
    all_goals cases h <;> exact ⟨rfl, rfl, rfl, rfl⟩

theorem Inv.stopStep (h : Inv w) (hstep : w.client.stopStep = some client) :
    Inv { w with client := client } := by
  unfold State.stopStep at hstep
  split at hstep
  case h_1 | h_2 =>
    cases hstep
    exact h.frame rfl rfl (fun hrequested => by first | rfl | exact hrequested) nofun
  case h_3 =>
    split at hstep <;> cases hstep
    exact h.frame rfl rfl id nofun
  case h_4 =>
    split at hstep <;> cases hstep
    rename_i hfinished
    exact h.frame rfl rfl id fun _ => hfinished
  case h_5 hphase =>
    cases hstep
    exact h.frame rfl rfl id fun _ => h.joined (.inl hphase)
  case h_6 callback rest hphase | h_7 hphase =>
    cases hstep
    exact h.frame rfl rfl id fun _ => h.joined (.inr (.inl ⟨_, hphase⟩))
  case h_8 => cases hstep

theorem Inv.notice (h : Inv w) {value : Bool} (hdue : w.due = some value) :
    Inv { w with due := none, notices := w.notices ++ [(w.handshakes, value)] } := by
  have hlength : (w.notices ++ [(w.handshakes, value)]).length = w.notices.length + 1 :=
    List.length_append
  have halternates : value = (w.notices.length % 2 == 0) →
      Alternates ((w.notices ++ [(w.handshakes, value)]).map Prod.snd) := by
    intro hvalue
    have happend := h.alternates.append
    rw [List.length_map, ← hvalue] at happend
    rw [List.map_append]
    exact happend
  have hpublish : w.handshakes ∈ w.published →
      ∀ notice ∈ w.notices ++ [(w.handshakes, value)], notice.1 ∈ w.published := by
    intro hpublished notice hnotice
    obtain hold | hnew := List.mem_append.mp hnotice
    · exact h.announced notice hold
    · rw [List.mem_singleton.mp hnew]
      exact hpublished
  cases h.course with
  | announcing fd haccept hclient hdue' heven hpublished =>
    obtain rfl : value = true := Option.some.inj (hdue.symm.trans hdue')
    refine ⟨.connected fd ?_ hclient rfl ?_ hpublished, halternates ?_, hpublish hpublished,
      h.numbered, h.lateNumbered, h.lateStopped, h.joined⟩
    · exact congrArg standing haccept
    · rw [hlength]
      omega
    · rw [heven]
      rfl
  | retracting haccept hclient hdue' hodd hpublished =>
    obtain rfl : value = false := Option.some.inj (hdue.symm.trans hdue')
    refine ⟨.apart ?_ hclient rfl ?_, halternates ?_, hpublish hpublished,
      h.numbered, h.lateNumbered, h.lateStopped, h.joined⟩
    · exact congrArg standing haccept
    · rw [hlength]
      omega
    · rw [hodd]
      rfl
  | apart _ _ hdue' | connected _ _ _ hdue' | cleared _ _ _ hdue' => cases hdue.symm.trans hdue'

theorem acceptStep_frame {s s' : State} {nowMs : UInt64} {arrival : Arrival}
    (h : s.acceptStep nowMs arrival = some s') :
    s.accept ≠ .finished ∧ s'.stop = s.stop ∧ s'.stopRequested = s.stopRequested := by
  refine ⟨fun hfinished => ?_, ?_⟩
  · simp only [State.acceptStep, hfinished] at h
    cases h
  · unfold State.acceptStep at h
    repeat' split at h
    all_goals cases h <;> exact ⟨rfl, rfl⟩

theorem Inv.not_joined (h : Inv w) (hrunning : w.client.accept ≠ .finished)
    (hstop : client.stop = w.client.stop) : ¬(client.stop = .joined ∨
      (∃ callbacks, client.stop = .failing callbacks) ∨ client.stop = .returned) := by
  rw [hstop]
  exact fun hjoined => hrunning (h.joined hjoined)

theorem Inv.advance (h : Inv w) (hframe : w.client.accept ≠ .finished ∧
      client.stop = w.client.stop ∧ client.stopRequested = w.client.stopRequested)
    {disconnected : Bool} {due : Option Bool}
    (hcourse : Course { w with client := client, disconnected := disconnected, due := due }) :
    Inv { w with client := client, disconnected := disconnected, due := due } := by
  refine ⟨hcourse, h.alternates, h.announced, h.numbered, h.lateNumbered, fun hlate => ?_, ?_⟩
  · exact hframe.2.2.trans (h.lateStopped hlate)
  · exact fun hjoined => absurd hjoined (h.not_joined hframe.1 hframe.2.1)

theorem Inv.handshake (h : Inv w) {fd : Nat} (haccept : w.client.accept = .accepting)
    (hpublishing : client.accept = .publishing fd) (hclient : client.clientFd = w.client.clientFd)
    (hstop : client.stop = w.client.stop)
    (hrequested : client.stopRequested = w.client.stopRequested) :
    Inv { w with
      client := client
      handshakes := w.handshakes + 1
      late := if w.client.stopRequested then w.late ++ [w.handshakes + 1] else w.late } := by
  have hcourse := h.course.of_apart (by rw [haccept]; rfl) (by rw [haccept]; nofun)
  refine ⟨.apart ?_ (hclient.trans hcourse.1) hcourse.2.1 hcourse.2.2, h.alternates, h.announced,
    fun n hn => Nat.le_succ_of_le (h.numbered n hn), fun n hn => ?_, fun hlate => ?_, fun hjoined => ?_⟩
  · exact congrArg standing hpublishing
  · have hold : n ∈ w.late → n ≤ w.handshakes + 1 ∧ n ∉ w.published := fun hn =>
      (h.lateNumbered n hn).imp_left Nat.le_succ_of_le
    change n ∈ (if _ then _ else _) at hn
    split at hn
    · obtain hmem | hnew := List.mem_append.mp hn
      · exact hold hmem
      · obtain rfl := List.mem_singleton.mp hnew
        exact ⟨Nat.le_refl _, fun hmem => absurd (h.numbered _ hmem) (Nat.not_succ_le_self _)⟩
    · exact hold hn
  · change client.stopRequested = true
    rw [hrequested]
    by_contra hnot
    change (if _ then _ else _) ≠ [] at hlate
    rw [if_neg hnot] at hlate
    exact hnot (h.lateStopped hlate)
  · exact absurd hjoined (h.not_joined (by rw [haccept]; nofun) hstop)

/-- A connection is published, before `stop` has set its flag. -/
theorem Inv.publish (h : Inv w) {fd fd' : Nat} (haccept : w.client.accept = .publishing fd')
    (hserving : client.accept = .serving fd) (hclient : client.clientFd = some fd)
    (hstop : client.stop = w.client.stop) (hrequested : w.client.stopRequested = false) :
    Inv { w with
      client := client, published := w.published ++ [w.handshakes], due := some true } := by
  obtain ⟨-, -, heven⟩ := h.course.of_apart (by rw [haccept]; rfl) (by rw [haccept]; nofun)
  have hnone : w.late = [] := by
    by_contra hlate
    cases hrequested.symm.trans (h.lateStopped hlate)
  refine ⟨.announcing fd hserving hclient rfl heven ?_, h.alternates, fun notice hnotice => ?_,
    fun n hn => ?_, fun n hn => ?_, fun hlate => absurd hnone hlate, fun hjoined => ?_⟩
  · exact List.mem_append_right _ (List.mem_singleton.mpr rfl)
  · exact List.mem_append_left _ (h.announced notice hnotice)
  · obtain hold | hnew := List.mem_append.mp hn
    · exact h.numbered n hold
    · exact Nat.le_of_eq (List.mem_singleton.mp hnew)
  · change n ∈ w.late at hn
    rw [hnone] at hn
    cases hn
  · exact absurd hjoined (h.not_joined (by rw [haccept]; nofun) hstop)

theorem Inv.observe (h : Inv w) (hdue : w.due = none) {nowMs : UInt64} {arrival : Arrival}
    (hstep : w.client.acceptStep nowMs arrival = some client) : Inv (w.observe client) := by
  have hframe := acceptStep_frame hstep
  unfold State.acceptStep at hstep
  unfold World.observe
  cases h.course with
  | announcing fd hphase hclient hdue' | retracting hphase hclient hdue' =>
    cases hdue.symm.trans hdue'
  | apart hstanding hclient hdue heven =>
    cases hphase : w.client.accept with
    | looping =>
      simp only [hphase, Option.some.injEq] at hstep ⊢
      subst hstep
      refine h.advance hframe (.apart ?_ hclient hdue heven)
      cases w.client.stopRequested <;> rfl
    | accepting =>
      simp only [hphase] at hstep ⊢
      split at hstep
      · cases hstep
        exact h.handshake hphase rfl rfl rfl rfl
      · cases hlisten : w.client.listenFd with
        | true | false =>
          rw [hlisten] at hstep
          cases hstep
          exact h.advance hframe (.apart rfl hclient hdue heven)
    | publishing fd =>
      simp only [hphase] at hstep ⊢
      split at hstep
      · cases hstep
      · split at hstep
        · cases hstep
          exact h.advance hframe (.apart rfl hclient hdue heven)
        · rename_i hflag
          cases hstep
          exact h.publish hphase rfl rfl rfl (Bool.not_eq_true _ ▸ hflag)
    | finished => exact absurd hphase hframe.1
    | _ => rw [hphase] at hstanding; cases hstanding
  | connected fd hstanding hclient hdue hodd hpublished =>
    -- All but the last of these phases go on with the connection.
    have hkept : standing client.accept = .connected fd → client.clientFd = some fd →
        Inv { w with client := client } := fun hstanding hclient =>
      h.advance hframe (.connected fd hstanding hclient hdue hodd hpublished)
    have hfd : ∀ {fd'}, standing w.client.accept = .connected fd' → fd' = fd := fun hstanding' =>
      Standing.connected.inj (hstanding'.symm.trans hstanding)
    cases hphase : w.client.accept with
    | serving fd' =>
      obtain rfl := hfd (congrArg standing hphase)
      simp only [hphase, Option.some.injEq] at hstep ⊢
      subst hstep
      refine hkept ?_ hclient
      cases w.client.stopRequested <;> rfl
    | polling fd' =>
      obtain rfl := hfd (congrArg standing hphase)
      simp only [hphase] at hstep ⊢
      split at hstep
      all_goals
        cases hstep
        exact hkept rfl hclient
    | disconnecting fd' =>
      obtain rfl := hfd (congrArg standing hphase)
      simp only [hphase] at hstep ⊢
      split at hstep <;> cases hstep
      refine h.advance hframe (.cleared rfl rfl ?_ hdue hodd hpublished)
      exact decide_eq_true hclient
    | handling fd' answers oversized =>
      obtain rfl := hfd (congrArg standing hphase)
      cases answers with
      | nil =>
        simp only [hphase, Option.some.injEq] at hstep ⊢
        subst hstep
        refine hkept ?_ hclient
        cases oversized <;> rfl
      | cons answer rest =>
        simp only [hphase] at hstep ⊢
        split at hstep
        all_goals
          cases hstep
          exact hkept rfl hclient
    | answering fd' callback answer rest oversized | sweeping fd' =>
      obtain rfl := hfd (congrArg standing hphase)
      simp only [hphase] at hstep ⊢
      cases hstep
      exact hkept rfl hclient
    | expiring fd' callbacks =>
      obtain rfl := hfd (congrArg standing hphase)
      cases callbacks with
      | nil | cons callback rest =>
        simp only [hphase] at hstep ⊢
        cases hstep
        exact hkept rfl hclient
    | _ => rw [hphase] at hstanding; cases hstanding
  | cleared hstanding hclient hdisconnected hdue hodd hpublished =>
    cases hphase : w.client.accept with
    | clearing =>
      simp only [hphase] at hstep ⊢
      cases hstep
      exact h.advance hframe (.cleared rfl hclient hdisconnected hdue hodd hpublished)
    | failing callbacks =>
      cases callbacks with
      | nil =>
        simp only [hphase] at hstep ⊢
        cases hstep
        refine h.advance hframe (.retracting rfl hclient ?_ hodd hpublished)
        exact if_pos hdisconnected
      | cons callback rest =>
        simp only [hphase] at hstep ⊢
        cases hstep
        exact h.advance hframe (.cleared rfl hclient hdisconnected hdue hodd hpublished)
    | _ => rw [hphase] at hstanding; cases hstanding

theorem Inv.step (h : Inv w) {step : Step} (hstep : w.step step = some w') : Inv w' := by
  cases step with
  | call i operation callback timeoutMs =>
    obtain ⟨client, hclient, rfl⟩ := Option.map_eq_some_iff.mp hstep
    simp only [State.step] at hclient
    split at hclient <;> cases hclient
    exact h.frame rfl rfl id h.joined
  | caller i input =>
    obtain ⟨client, hclient, rfl⟩ := Option.map_eq_some_iff.mp hstep
    obtain ⟨haccept, hfd, hrequested, hstop⟩ := callerStep_frame hclient
    refine h.frame haccept hfd (fun hflag => hrequested.trans hflag) ?_
    rw [hstop, haccept]
    exact h.joined
  | accept nowMs arrival =>
    simp only [World.step, World.acceptStep] at hstep
    split at hstep
    · rename_i value hdue
      cases hstep
      exact h.notice hdue
    · rename_i hdue
      obtain ⟨client, hclient, rfl⟩ := Option.map_eq_some_iff.mp hstep
      exact h.observe hdue hclient
  | stop =>
    obtain ⟨client, hclient, rfl⟩ := Option.map_eq_some_iff.mp hstep
    exact h.stopStep hclient

end Steps

theorem Alternates.getLast {values : List Bool} (h : Alternates values)
    (heven : values.length % 2 = 0) {last : Bool} (hlast : values.getLast? = some last) :
    last = false := by
  rw [h, List.getLast?_map, List.getLast?_range] at hlast
  split at hlast
  · cases hlast
  · rename_i hne
    obtain rfl : _ = last := Option.some.inj hlast
    rw [beq_eq_false_iff_ne]
    omega

/-- The callback is called with true and false in turn. After `stop` the last call was false,
no connection is published, and none whose handshake finished after the flag was set ever
was. -/
theorem guest_control_notices_alternate {w : World} (h : Reachable World.step World.start w) :
    Alternates (w.notices.map Prod.snd) ∧
      (w.client.stop = .returned → w.ready = false ∧
        ∀ last, w.notices.getLast? = some last → last.2 = false) ∧
      ∀ n ∈ w.late, n ∉ w.published ∧ ∀ value, (n, value) ∉ w.notices := by
  have hinv : Inv w := h.invariant (fun _ _ _ hs hstep => hs.step hstep) inv_start
  refine ⟨hinv.alternates, fun hreturned => ?_, fun n hn => ?_⟩
  · have hfinished := hinv.joined (.inr (.inr hreturned))
    obtain ⟨hclient, -, heven⟩ :=
      hinv.course.of_apart (by rw [hfinished]; rfl) (by rw [hfinished]; nofun)
    refine ⟨by rw [World.ready, hclient]; rfl, fun last hlast => ?_⟩
    refine hinv.alternates.getLast ?_ ?_
    · rw [List.length_map]
      exact heven
    · rw [List.getLast?_map, hlast]
      rfl
  · have hnot := (hinv.lateNumbered n hn).2
    exact ⟨hnot, fun value hmem => hnot (hinv.announced _ hmem)⟩

namespace Sample

def next : Step := .accept 0 .nothing

/-- An agent connects and leaves; the handshake of the next one outlasts the listener. -/
def lateHandshake : List Step :=
  [next, .accept 0 (.connection 5), next, next, next, .accept 0 .broken, next, next, next, next, next,
    .stop, .stop, .accept 0 (.connection 5), next, .stop, .stop, .stop, .stop]

end Sample

theorem guest_control_notices_alternate_late : ∃ w,
    exec World.step World.start Sample.lateHandshake = some w ∧
      w.client.stop = .returned ∧ w.notices = [(1, true), (1, false)] ∧ w.late = [2] ∧
      w.ready = false ∧ 2 ∉ w.published := by
  obtain ⟨w, hrun, hreturned, hnotices, hlate⟩ := exists_of_map_decide
    (o := exec World.step World.start Sample.lateHandshake)
    (p := fun w => w.client.stop = .returned ∧ w.notices = [(1, true), (1, false)] ∧ w.late = [2])
    (by decide +kernel)
  have hall := guest_control_notices_alternate ⟨_, hrun⟩
  have hmem : 2 ∈ w.late := by
    rw [hlate]
    exact List.mem_singleton.mpr rfl
  exact ⟨w, hrun, hreturned, hnotices, hlate, (hall.2.1 hreturned).1, (hall.2.2 2 hmem).1⟩

end GuestControlNotices
end MacMu
