import MacMu.Agent.PointerFaults

/-!
What `handleHost` leaves of the pointers. The reset at its end makes up to three
injections, one after the other, and clears what belongs to each after the call: one
that throws leaves its pointer held, and those that come after it as they were.
-/

namespace MacMu
namespace Agent

variable {F : Type}

structure PointerState.Clean (s : PointerState F) : Prop where
  touch : s.touchActive = false
  mouse : s.mouseButtonState = 0
  hover : s.hoverActive = false

def PointerState.releases (s : PointerState F) : Nat :=
  s.touchActive.toNat + (decide (s.mouseButtonState ≠ 0)).toNat + s.hoverActive.toNat

def ResetReturns (throws : Nat → Bool) (calls : Calls F) : Prop :=
  ∀ k < calls.pointers.releases, throws (calls.made + k) = false

section Returns

variable {throws : Nat → Bool} {s t : PointerState F} {made : Nat}

theorem resetReturns_of_clean (h : s.Clean) : ResetReturns throws ⟨s, made⟩ := by
  intro k hk
  change k < s.releases at hk
  rw [PointerState.releases, h.touch, h.mouse, h.hover] at hk
  exact absurd hk (Nat.not_lt_zero k)

theorem resetReturns_succ (h : s.releases = t.releases + 1) :
    ResetReturns throws ⟨s, made⟩ ↔ throws made = false ∧ ResetReturns throws ⟨t, made + 1⟩ := by
  change (∀ k < s.releases, throws (made + k) = false) ↔
    throws made = false ∧ ∀ k < t.releases, throws (made + 1 + k) = false
  rw [h, Nat.forall_lt_succ_left]
  refine and_congr Iff.rfl (forall₂_congr fun k _ => ?_)
  rw [Nat.add_assoc, Nat.add_comm 1 k]

end Returns

namespace Attempt

variable {throws : Nat → Bool}

/-- What a call leaves is clean exactly if the injections of a reset return. -/
def Cleans (throws : Nat → Bool) (x : Attempt F Unit) (s : PointerState F) : Prop :=
  ∀ made, (leaves x ⟨s, made⟩).pointers.Clean ↔ ResetReturns throws ⟨s, made⟩

theorem cleans_release {held : PointerState F → Bool} {event : PointerState F → InputEvent F}
    {clear : PointerState F → PointerState F} {rest : Attempt F Unit} {s : PointerState F}
    (hfree : held s = false → Cleans throws rest s)
    (hheld : held s = true → ¬s.Clean ∧
      s.releases = (clear (s.inject (event s))).releases + 1 ∧
      Cleans throws rest (clear (s.inject (event s)))) :
    Cleans throws (release throws held event clear >>= fun _ => rest) s := by
  intro made
  cases h : held s with
  | false =>
    rw [leaves, run_seq_ok (run_release_free h)]
    exact hfree h made
  | true =>
    obtain ⟨hdirty, hless, hrest⟩ := hheld h
    rw [resetReturns_succ hless]
    have hrun : (release throws held event clear).run.run ⟨s, made⟩ = _ := run_release_held h
    cases hthrows : throws made with
    | true =>
      rw [hthrows] at hrun
      rw [leaves, run_seq_error hrun]
      exact ⟨fun hclean => absurd hclean hdirty, nofun⟩
    | false =>
      rw [hthrows] at hrun
      rw [leaves, run_seq_ok hrun, eq_self_iff_true, true_and]
      exact hrest (made + 1)

theorem Cleans.of_seq {x : Attempt F Unit} {s : PointerState F}
    (h : Cleans throws (x >>= fun _ => pure ()) s) : Cleans throws x s := by
  intro made
  have hleaves : leaves (x >>= fun _ => pure ()) ⟨s, made⟩ = leaves x ⟨s, made⟩ := by
    obtain ⟨result, after, hrun⟩ : ∃ result after, x.run.run ⟨s, made⟩ = (result, after) :=
      ⟨_, _, rfl⟩
    cases result with
    | ok => rw [leaves, leaves, run_seq_ok hrun, hrun]; rfl
    | error => rw [leaves, leaves, run_seq_error hrun, hrun]
  rw [← hleaves]
  exact h made

section Parts

variable {s : PointerState F} {now : Int}

theorem cleans_injectHoverExitLocked (htouch : s.touchActive = false)
    (hmouse : s.mouseButtonState = 0) :
    Cleans throws (injectHoverExitLocked throws now) s := by
  have hdone : ∀ t : PointerState F, t.Clean → Cleans throws (pure ()) t :=
    fun t hclean made => iff_of_true hclean (resetReturns_of_clean hclean)
  refine Cleans.of_seq (cleans_release (fun hfree => hdone s ⟨htouch, hmouse, hfree⟩) ?_)
  intro hheld
  refine ⟨fun hclean => ?_, ?_, hdone _ ⟨htouch, hmouse, rfl⟩⟩
  · exact absurd (hclean.hover.symm.trans hheld) nofun
  · simp [PointerState.releases, PointerState.inject, show s.hoverActive = true from hheld]

theorem cleans_resetMouse (htouch : s.touchActive = false) :
    Cleans throws (resetMouse throws >>= fun _ => injectHoverExitLocked throws now) s := by
  refine cleans_release (fun hfree => cleans_injectHoverExitLocked htouch ?_) fun hheld => ?_
  · simpa using hfree
  · have hpressed : s.mouseButtonState ≠ 0 := by simpa using hheld
    refine ⟨fun hclean => hpressed hclean.mouse, ?_, cleans_injectHoverExitLocked htouch rfl⟩
    simp [PointerState.releases, PointerState.inject, hpressed]
    omega

theorem cleans_resetPointerState (now : Int) (s : PointerState F) :
    Cleans throws (resetPointerState throws now) s := by
  refine cleans_release (fun hfree => cleans_resetMouse hfree) fun hheld => ?_
  refine ⟨fun hclean => absurd (hclean.touch.symm.trans hheld) nofun, ?_, cleans_resetMouse rfl⟩
  simp [PointerState.releases, PointerState.inject, endTouch, show s.touchActive = true from hheld]
  omega

end Parts

end Attempt

namespace Attempt

theorem leaves_readHost (floats : Floats F) (throws : Nat → Bool) (lines : List InputLine)
    (readFails : Bool) (start : Calls F) :
    leaves (readHost floats throws lines readFails) start =
      leaves (handleLines floats throws lines) start := by
  obtain ⟨result, after, hrun⟩ : ∃ result after,
      (handleLines floats throws lines).run.run start = (result, after) := ⟨_, _, rfl⟩
  cases result with
  | ok =>
    rw [leaves, leaves, readHost, run_seq_ok hrun, hrun]
    cases readFails <;> rfl
  | error => rw [leaves, leaves, readHost, run_seq_error hrun, hrun]

theorem leaves_handleHost (floats : Floats F) (throws : Nat → Bool) (lines : List InputLine)
    (readFails : Bool) (now : Int) (start : Calls F) :
    leaves (handleHost floats throws lines readFails now) start =
      leaves (resetPointerState throws now)
        (leaves (readHost floats throws lines readFails) start) := by
  obtain ⟨result, after, hrun⟩ : ∃ result after,
      (readHost floats throws lines readFails).run.run start = (result, after) := ⟨_, _, rfl⟩
  obtain ⟨ended, last, hreset⟩ : ∃ ended last,
      (resetPointerState throws now).run.run after = (ended, last) := ⟨_, _, rfl⟩
  rw [leaves, leaves, leaves, handleHost, run_finally hrun, hrun, hreset]
  cases ended <;> rfl

end Attempt

/-- What is there when the reset of `handleHost` begins. -/
def beforeReset (floats : Floats F) (throws : Nat → Bool) (lines : List InputLine)
    (start : Calls F) : Calls F :=
  Attempt.leaves (Attempt.handleLines floats throws lines) start

/-- After a connection no pointer is held exactly if the injections that the reset
makes return. -/
theorem handleHost_clean_iff (floats : Floats F) (throws : Nat → Bool) (lines : List InputLine)
    (readFails : Bool) (now : Int) (start : Calls F) :
    (Attempt.leaves (Attempt.handleHost floats throws lines readFails now) start).pointers.Clean ↔
      ResetReturns throws (beforeReset floats throws lines start) := by
  rw [Attempt.leaves_handleHost, Attempt.leaves_readHost]
  exact Attempt.cleans_resetPointerState now _ _

namespace Sample

def inputLine (text : String) : InputLine := ⟨text.toList, display, 5⟩

/-- A touch, a button and a hover that are left open. -/
def openPointers : List InputLine :=
  [inputLine "t 1 0 b 10 20", inputLine "b 0 3 3 1", inputLine "h 0 4 4"]

/-- The host goes away, and the first injection of the reset throws. -/
def leftByReset : PointerState Int :=
  (Attempt.leaves (Attempt.handleHost floats (fun call => call == 4) openPointers false 9)
    ⟨.initial floats, 0⟩).pointers

end Sample

theorem pointers_left_by_reset : Sample.leftByReset.touchActive = true ∧
    Sample.leftByReset.mouseButtonState = 1 ∧ Sample.leftByReset.hoverActive = true := by
  decide +kernel

end Agent
end MacMu
