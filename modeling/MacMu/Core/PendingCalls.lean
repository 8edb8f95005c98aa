import MacMu.Core.PendingRequestTable
import MacMu.Lib.Custody

/-!
The completion argument that both clients of `PendingRequestTable` share. A call
draws a request id, puts its callback into the table, tries to write and, if
that fails, takes its entry back. What the argument reads off the phase of a
call is a `PhaseKind`; callbacks in the hands of other threads, and those that
have run, are listed in `others`. `Inv` says where every callback is, and that
while no thread has a sweep of the table before it (`quiet`), the entries left
belong to calls that will take them back.
-/

namespace MacMu

open Std Custody PendingRequestTable

/-- What the phase of a call says about its callback and its id. -/
structure PhaseKind (φ κ : Type) where
  Idle : φ → Prop
  holds : φ → Nat
  /-- The callback that `take` handed to the call. -/
  carried : φ → Option Nat
  Undrawn : φ → Prop
  requestId : φ → Option κ
  /-- The call does not rely on an answer: it will take its entry back. -/
  Retracting : φ → Prop

/-- A step of a call that touches neither the table nor a callback. -/
structure PhaseKind.Passes {φ κ : Type} (K : PhaseKind φ κ) (old new : φ) : Prop where
  holds : K.holds new = K.holds old
  started : ¬ K.Idle new
  carried : K.carried new = none
  undrawn : K.Undrawn new → K.Undrawn old
  requestId : ∀ id, K.requestId new = some id → K.requestId old = some id

structure Calls (φ κ : Type) [Ord κ] where
  pending : PendingRequestTable κ Nat
  phases : Nat → φ
  others : List Nat
  given : List Nat
  drawn : List Nat

namespace Calls

variable {φ κ : Type} [Ord κ]
variable {phase old : φ} {quiet' : Prop} {others : List Nat} {id : κ}

def setPhase (c : Calls φ κ) (i : Nat) (phase : φ) : Calls φ κ :=
  { c with phases := Function.update c.phases i phase }

theorem phases_setPhase_self (c : Calls φ κ) (i : Nat) (phase : φ) :
    (c.setPhase i phase).phases i = phase := Function.update_self ..

theorem phases_setPhase_of_ne (c : Calls φ κ) {i j : Nat} (h : j ≠ i) (phase : φ) :
    (c.setPhase i phase).phases j = c.phases j := Function.update_of_ne h ..

theorem holds_setPhase (K : PhaseKind φ κ) (c : Calls φ κ) (i : Nat) (phase : φ) :
    K.holds ((c.setPhase i phase).phases i) = K.holds phase ∧
      ∀ j, j ≠ i → K.holds ((c.setPhase i phase).phases j) = K.holds (c.phases j) := by
  refine ⟨?_, ?_⟩
  · rw [phases_setPhase_self]
  · intro j hj
    rw [phases_setPhase_of_ne c hj]

theorem conserved_setPhase {K : PhaseKind φ κ} {c : Calls φ κ} {i : Nat} {places given : List Nat}
    (h : Conserved (fun j => K.holds (c.phases j)) places given)
    (holds : K.holds phase = K.holds (c.phases i)) :
    Conserved (fun j => K.holds ((c.setPhase i phase).phases j)) places given := by
  obtain ⟨hself, hother⟩ := holds_setPhase K c i phase
  refine h.congr fun j => ?_
  by_cases hji : j = i
  · rw [hji, hself, holds]
  · exact hother j hji

variable [TransOrd κ] (K : PhaseKind φ κ) (number : Nat → κ) (quiet : Prop)

def places (c : Calls φ κ) : List Nat := c.pending.callbacks ++ c.others

structure Inv (c : Calls φ κ) : Prop where
  conserved : Conserved (fun i => K.holds (c.phases i)) c.places c.given
  fresh : ∀ i, K.Idle (c.phases i) → i ∉ c.given
  own : ∀ i j, K.carried (c.phases i) = some j → j = i
  nodup : c.drawn.Nodup
  undrawn : ∀ i, K.Undrawn (c.phases i) → i ∉ c.drawn
  ids : ∀ i id, K.requestId (c.phases i) = some id → Drew number c.drawn i id
  keyed : c.pending.Keyed fun id i => Drew number c.drawn i id
  swept : quiet → ∀ i ∈ c.pending.callbacks, K.Retracting (c.phases i)

variable {K number quiet} {c c' : Calls φ κ} {i : Nat}

section

variable (h : c.Inv K number quiet)
include h

/-- A step of call `i`. -/
theorem Inv.caller
    (conserved : Conserved (fun j => K.holds ((c.setPhase i phase).phases j)) c'.places c'.given)
    (started : ¬ K.Idle phase) (own : ∀ j, K.carried phase = some j → j = i)
    (undrawn : K.Undrawn phase → i ∉ c'.drawn)
    (ids : ∀ id, K.requestId phase = some id → Drew number c'.drawn i id)
    (keyed : c'.pending.Keyed fun id j => Drew number c'.drawn j id)
    (retracting : quiet → i ∈ c'.pending.callbacks → K.Retracting phase)
    (rest : ∀ j, j ≠ i → j ∈ c'.pending.callbacks → j ∈ c.pending.callbacks := by
      exact fun _ _ hj => hj)
    (given : ∀ j, j ≠ i → j ∈ c'.given → j ∈ c.given := by exact fun _ _ hj => hj)
    (nodup : c.drawn.Nodup → c'.drawn.Nodup := by exact fun hnodup => hnodup)
    (drawn : ∃ more, c'.drawn = c.drawn ++ more ∧ ∀ j ∈ more, j = i := by
      exact ⟨[], (List.append_nil _).symm, fun _ hj => absurd hj List.not_mem_nil⟩)
    (phases : c'.phases = (c.setPhase i phase).phases := by rfl) : c'.Inv K number quiet := by
  obtain ⟨more, hmore, hself⟩ := drawn
  have hupdate : c'.phases i = phase := by
    rw [phases, phases_setPhase_self]
  have hother : ∀ j, j ≠ i → c'.phases j = c.phases j := by
    intro j hji
    rw [phases, phases_setPhase_of_ne c hji]
  refine ⟨?_, ?_, ?_, nodup h.nodup, ?_, ?_, keyed, ?_⟩
  · rw [phases]
    exact conserved
  · intro j hidle hj
    by_cases hji : j = i
    · rw [hji, hupdate] at hidle
      exact started hidle
    · rw [hother j hji] at hidle
      exact h.fresh j hidle (given j hji hj)
  · intro j k hphase
    by_cases hji : j = i
    · rw [hji, hupdate] at hphase
      rw [hji]
      exact own k hphase
    · rw [hother j hji] at hphase
      exact h.own j k hphase
  · intro j hphase hj
    by_cases hji : j = i
    · rw [hji, hupdate] at hphase
      rw [hji] at hj
      exact undrawn hphase hj
    · rw [hother j hji] at hphase
      rw [hmore] at hj
      rcases List.mem_append.mp hj with hj | hj
      · exact h.undrawn j hphase hj
      · exact hji (hself j hj)
  · intro j id hphase
    by_cases hji : j = i
    · rw [hji, hupdate] at hphase
      rw [hji]
      exact ids id hphase
    · rw [hother j hji] at hphase
      rw [hmore]
      exact (h.ids j id hphase).append more
  · intro hquiet j hj
    by_cases hji : j = i
    · rw [hji, hupdate]
      exact retracting hquiet (hji ▸ hj)
    · rw [hother j hji]
      exact h.swept hquiet j (rest j hji hj)

/-- A step of another thread: the calls do not move, and callbacks are handed on
among the shared places. -/
theorem Inv.shared (phases : c'.phases = c.phases) (given : c'.given = c.given)
    (drawn : c'.drawn = c.drawn) (places : c'.places.Perm c.places)
    (keyed : c'.pending.Keyed fun id i => Drew number c.drawn i id)
    (swept : quiet' → c'.pending.callbacks = [] ∨
      quiet ∧ c'.pending.callbacks ⊆ c.pending.callbacks) : c'.Inv K number quiet' := by
  refine ⟨?_, ?_, ?_, ?_, ?_, ?_, ?_, ?_⟩
  · rw [phases, given]
    exact h.conserved.perm places
  · rw [phases, given]
    exact h.fresh
  · rw [phases]
    exact h.own
  · rw [drawn]
    exact h.nodup
  · rw [phases, drawn]
    exact h.undrawn
  · rw [phases, drawn]
    exact h.ids
  · rw [drawn]
    exact keyed
  · intro hquiet i hi
    rw [phases]
    rcases swept hquiet with hnil | ⟨hold, hsub⟩
    · rw [hnil] at hi
      exact absurd hi List.not_mem_nil
    · exact h.swept hold i (hsub hi)

theorem Inv.handOn (hothers : others.Perm c.others) (hquiet : quiet' → quiet) :
    { c with others := others }.Inv K number quiet' :=
  h.shared rfl rfl rfl (hothers.append_left _) h.keyed fun hq => .inr ⟨hquiet hq, fun _ hi => hi⟩

theorem Inv.remove {pending : PendingRequestTable κ Nat} (taken : List Nat)
    (hpending : c.pending.callbacks.Perm (taken ++ pending.callbacks))
    (hothers : others.Perm (taken ++ c.others))
    (keyed : pending.Keyed fun id i => Drew number c.drawn i id)
    (hquiet : quiet' → pending.callbacks = [] ∨ quiet) :
    { c with pending := pending, others := others }.Inv K number quiet' := by
  refine h.shared rfl rfl rfl ?_ keyed ?_
  · calc
      pending.callbacks ++ others
      _ |>.Perm (pending.callbacks ++ (taken ++ c.others)) := hothers.append_left _
      _ |>.Perm (taken ++ pending.callbacks ++ c.others) := by
        rw [← List.append_assoc]
        exact List.perm_append_comm.append_right _
      _ |>.Perm (c.pending.callbacks ++ c.others) := hpending.symm.append_right _
  · intro hq
    rcases hquiet hq with hnil | hold
    · exact .inl hnil
    · refine .inr ⟨hold, ?_⟩
      intro i hi
      exact hpending.mem_iff.mpr (List.mem_append_right _ hi)

theorem Inv.call (hphase : c.phases i = old) (hidle : K.Idle old) (hundrawn : K.Undrawn old)
    (hzero : K.holds old = 0) (hwaiting : ¬ K.Retracting old)
    (callback : Bool) (holds : K.holds phase = callback.toNat) (started : ¬ K.Idle phase)
    (carried : K.carried phase = none) (requestId : K.requestId phase = none) :
    ({ c with given := if callback then c.given ++ [i] else c.given }.setPhase i phase).Inv K
      number quiet := by
  subst hphase
  refine h.caller ?_ started (by simp [carried]) (fun _ => h.undrawn i hundrawn)
    (by simp [requestId]) h.keyed (fun hquiet hi => absurd (h.swept hquiet i hi) hwaiting)
    (fun _ _ hj => hj) ?_
  · cases callback with
    | true =>
      obtain ⟨hself, hother⟩ := holds_setPhase K c i phase
      exact h.conserved.give (h.fresh i hidle) (hself.trans holds) hother
    | false => exact conserved_setPhase h.conserved (holds.trans hzero.symm)
  · intro j hji hj
    cases callback with
    | true =>
      rcases List.mem_append.mp hj with hj | hj
      · exact hj
      · exact absurd (List.mem_singleton.mp hj) hji
    | false => exact hj

theorem Inv.count_others (hquiet : quiet) (hphase : c.phases i = old) (hzero : K.holds old = 0)
    (hwaiting : ¬ K.Retracting old) (hgiven : i ∈ c.given) :
    c.others.count i = 1 := by
  subst hphase
  have hpending : i ∉ c.pending.callbacks := fun hi => hwaiting (h.swept hquiet i hi)
  have hone := h.conserved.count_eq_one hzero hgiven
  rw [places, List.count_append, List.count_eq_zero.mpr hpending, Nat.zero_add] at hone
  exact hone

theorem Inv.pass (hphase : c.phases i = old) (hpass : K.Passes old phase)
    (retracting : quiet → K.Retracting old → K.Retracting phase) :
    (c.setPhase i phase).Inv K number quiet := by
  subst hphase
  exact h.caller (conserved_setPhase h.conserved hpass.holds) hpass.started
    (by simp [hpass.carried]) (fun hphase => h.undrawn i (hpass.undrawn hphase))
    (fun id hid => h.ids i id (hpass.requestId id hid)) h.keyed
    (fun hquiet hi => retracting hquiet (h.swept hquiet i hi))

end

structure Done (K : PhaseKind φ κ) (phase : φ) : Prop where
  started : ¬ K.Idle phase
  holds : K.holds phase = 0
  carried : K.carried phase = none
  drawn : ¬ K.Undrawn phase
  requestId : K.requestId phase = none

theorem not_mem_pending (h : c.Inv K number quiet) (holds : K.holds (c.phases i) = 1) :
    i ∉ c.pending.callbacks :=
  fun hi => h.conserved.not_mem holds (List.mem_append_left _ hi)

theorem Inv.finish (h : c.Inv K number quiet) (hphase : c.phases i = old) (holds : K.holds old = 1)
    (hdone : Done K phase) (hothers : others.Perm (i :: c.others)) :
    ({ c with others := others }.setPhase i phase).Inv K number quiet := by
  subst hphase
  have hfree : i ∉ c.pending.callbacks := not_mem_pending h holds
  obtain ⟨hself, hother⟩ := holds_setPhase K c i phase
  refine h.caller ?_ hdone.started (by simp [hdone.carried]) (fun hn => absurd hn hdone.drawn)
    (by simp [hdone.requestId]) h.keyed (fun _ hi => absurd hi hfree)
  refine (h.conserved.put holds (hself.trans hdone.holds) hother).perm ?_
  exact (hothers.append_left _).trans List.perm_middle

/-- Call `i` draws its id. -/
theorem Inv.draw (h : c.Inv K number quiet) (hphase : c.phases i = old) (hundrawn : K.Undrawn old)
    (hwaiting : ¬ K.Retracting old) (holds : K.holds phase = K.holds old) (started : ¬ K.Idle phase)
    (carried : K.carried phase = none) (hdrawn : ¬ K.Undrawn phase)
    (hid : K.requestId phase = some (number c.drawn.length)) :
    ({ c with drawn := c.drawn ++ [i] }.setPhase i phase).Inv K number quiet := by
  subst hphase
  have hfresh : i ∉ c.drawn := h.undrawn i hundrawn
  refine h.caller (conserved_setPhase h.conserved holds) started (by simp [carried])
    (fun hn => absurd hn hdrawn) (fun id hid' => ?_)
    (h.keyed.imp fun id j hdrew => hdrew.append [i])
    (fun hquiet hi => absurd (h.swept hquiet i hi) hwaiting) (fun _ _ hj => hj)
    (fun _ _ hj => hj) (fun hnodup => ?_) ⟨[i], rfl, fun _ => List.mem_singleton.mp⟩
  · cases hid.symm.trans hid'
    exact drew_last ..
  · refine List.nodup_append.mpr ⟨hnodup, List.nodup_singleton i, ?_⟩
    intro j hj k hk
    rw [List.mem_singleton.mp hk]
    rintro rfl
    exact hfresh hj

variable [LawfulEqOrd κ]

theorem key_fresh (h : c.Inv K number quiet)
    (hnumber : ∀ n m, n < c.drawn.length → m < c.drawn.length → number n = number m → n = m)
    (holds : K.holds (c.phases i) = 1) (hid : K.requestId (c.phases i) = some id) :
    id ∉ c.pending.pending := by
  intro hmem
  have hentry := ExtTreeMap.getElem?_eq_some_getElem hmem
  have howner := (h.keyed id _ hentry).owner_unique hnumber (h.ids i id hid)
  exact not_mem_pending h holds (mem_callbacks.mpr ⟨id, _, hentry, howner⟩)

/-- Call `i` puts its callback into the table. -/
theorem Inv.register (h : c.Inv K number quiet)
    (hnumber : ∀ n m, n < c.drawn.length → m < c.drawn.length → number n = number m → n = m)
    (hphase : c.phases i = old) (holds : K.holds old = 1) (hid : K.requestId old = some id)
    (hzero : K.holds phase = 0) (started : ¬ K.Idle phase) (carried : K.carried phase = none)
    (hdrawn : ¬ K.Undrawn phase) (hid' : K.requestId phase = some id)
    (hretracting : K.Retracting phase) (nowMs timeoutMs : UInt64) :
    ({ c with pending := c.pending.add id i nowMs timeoutMs }.setPhase i phase).Inv K number
      quiet := by
  subst hphase
  have hadd := callbacks_add (key_fresh h hnumber holds hid) i nowMs timeoutMs
  obtain ⟨hself, hother⟩ := holds_setPhase K c i phase
  refine h.caller ?_ started (by simp [carried]) (fun hn => absurd hn hdrawn) (fun id'' hid'' => ?_)
    (h.keyed.add (h.ids i id hid) nowMs timeoutMs) (fun _ _ => hretracting) ?_
  · refine (h.conserved.put holds (hself.trans hzero) hother).perm ?_
    exact hadd.append_right _
  · cases hid'.symm.trans hid''
    exact h.ids i id hid
  · intro j hji hj
    rcases List.mem_cons.mp (hadd.mem_iff.mp hj) with heq | hj
    · exact absurd heq hji
    · exact hj

/-- Call `i` takes its entry back after a failed write, if it is still there.
`carrying` is the phase in which it has the callback, `final` the phase in which
there was none. -/
theorem Inv.retract (h : c.Inv K number quiet)
    (hnumber : ∀ n m, n < c.drawn.length → m < c.drawn.length → number n = number m → n = m)
    (hphase : c.phases i = old) (hzero : K.holds old = 0) (hid : K.requestId old = some id)
    {carrying : Nat → φ} {final : φ} (hdone : Done K final) (started : ∀ j, ¬ K.Idle (carrying j))
    (holds : ∀ j, K.holds (carrying j) = 1) (carried : ∀ j, K.carried (carrying j) = some j)
    (drawn : ∀ j, ¬ K.Undrawn (carrying j)) (requestId : ∀ j, K.requestId (carrying j) = none) :
    ({ c with pending := (c.pending.take id).2 }.setPhase i
      (((c.pending.take id).1.map carrying).getD final)).Inv K number quiet := by
  subst hphase
  have hdrew : Drew number c.drawn i id := h.ids i id hid
  have hgone : i ∉ (c.pending.take id).2.callbacks := by
    intro hi
    obtain ⟨k, hk, hdrew'⟩ := h.keyed.take_other hi
    exact hk (hdrew'.id_unique h.nodup hdrew)
  have htake := callbacks_take c.pending id
  -- what does not depend on the result of `take`
  have hcaller : ∀ phase : φ, Conserved (fun j => K.holds ((c.setPhase i phase).phases j))
        ((c.pending.take id).2.callbacks ++ c.others) c.given →
      ¬ K.Idle phase → (∀ j, K.carried phase = some j → j = i) → ¬ K.Undrawn phase →
      K.requestId phase = none →
      ({ c with pending := (c.pending.take id).2 }.setPhase i phase).Inv K number quiet := by
    intro phase hconserved started own hdrawn hnone
    exact h.caller hconserved started own (fun hn => absurd hn hdrawn) (by simp [hnone])
      (h.keyed.take id) (fun _ hi => absurd hi hgone) fun j _ hj => callbacks_take_subset _ _ hj
  cases hresult : (c.pending.take id).1 with
  | none =>
    rw [hresult] at htake
    exact hcaller final (conserved_setPhase (h.conserved.perm (htake.symm.append_right _))
      (hdone.holds.trans hzero.symm)) hdone.started (by simp [hdone.carried]) hdone.drawn
      hdone.requestId
  | some j =>
    have hown : j = i := (h.keyed.of_take hresult).owner_unique hnumber hdrew
    subst hown
    obtain ⟨hself, hother⟩ := holds_setPhase K c j (carrying j)
    rw [hresult] at htake
    refine hcaller (carrying j) ?_ (started j) ?_ (drawn j) (requestId j)
    · exact h.conserved.pick (htake.append_right _) hzero (hself.trans (holds j)) hother
    · intro k hk
      rw [carried] at hk
      exact (Option.some.inj hk).symm

end Calls
end MacMu
