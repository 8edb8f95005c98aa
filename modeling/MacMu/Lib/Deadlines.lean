import MacMu.Lib.TransitionSystem

/-!
A loop that waits for work for a bounded time, and removes what has expired on some of its
branches only. Time passes while it waits and while it does not run; its own work takes
none. Other threads add and remove entries at any time. An iteration that ends without a
sweep does no harm as long as it ends soon enough after one that left nothing expired.
-/

namespace MacMu
namespace Deadlines

open TransitionSystem

structure Loop (σ ι : Type) where
  step : Nat → σ → ι → Option σ
  deadlines : σ → List Nat
  patience : Nat
  horizon : Nat
  begins : σ → Bool
  polls : σ → Bool
  idles : σ → Bool
  sweeps : σ → ι → Bool
  /-- The wait ends, or the loop is entered, and there is no sweep before the next
  iteration. -/
  returns : σ → ι → Bool
  fits : Nat → σ → ι → Bool

structure World (σ : Type) where
  state : σ
  now : Nat
  since : Nat
  mark : Nat
  deriving DecidableEq, Repr

inductive Action (ι : Type) where
  | act (a : ι)
  | pass (duration : Nat)
  deriving DecidableEq, Repr

namespace Loop

variable {σ ι : Type} (L : Loop σ ι)

def fresh (now : Nat) (s : σ) : Bool := (L.deadlines s).all (now < ·)

def run (w : World σ) : Action ι → Option (World σ)
  | .act a =>
    (L.step w.now w.state a).map fun s =>
      { state := s
        now := w.now
        since := if L.polls w.state && L.polls s then w.since else w.now
        mark := if (L.sweeps w.state a || L.returns w.state a) && L.fresh w.now s then w.now
          else w.mark }
  | .pass duration =>
    if (L.idles w.state ∨ (L.polls w.state ∧ w.now + duration ≤ w.since + L.patience)) ∧
        w.now + duration < L.horizon then
      some { w with now := w.now + duration }
    else none

def start (s : σ) : World σ := ⟨s, 0, 0, 0⟩

/-- An iteration that ends without a sweep, although something has expired, ends soon
enough. -/
def Timely (w : World σ) : Action ι → Prop
  | .act a =>
    (L.returns w.state a = true →
      L.fresh w.now w.state = true ∨ w.now ≤ w.mark + L.patience) ∧
    L.fits w.now w.state a = true
  | .pass _ => True

instance (w : World σ) : ∀ action, Decidable (L.Timely w action)
  | .act _ => inferInstanceAs (Decidable (_ ∧ _))
  | .pass _ => inferInstanceAs (Decidable True)

/-- Nothing has been left for longer than one wait after its deadline. -/
def Punctual (w : World σ) : Prop := ∀ d ∈ L.deadlines w.state, w.now < d + L.patience

structure Lawful (clean : σ → Bool) : Prop where
  kept : ∀ {now s a s'}, now < L.horizon → L.step now s a = some s' → L.fits now s a = true →
    ∀ d ∈ L.deadlines s', now < d ∨ (d ∈ L.deadlines s ∧ L.sweeps s a = false)
  settles : ∀ {now s a s'}, L.step now s a = some s' → clean s' = true →
    clean s = true ∨ L.sweeps s a = true ∨ L.returns s a = true
  waits : ∀ s, clean s = true → L.polls s = false ∧ L.idles s = false
  begins : ∀ s, L.begins s = true → clean s = true

structure Inv (clean : σ → Bool) (w : World σ) : Prop where
  clock : w.mark ≤ w.now ∧ w.now < L.horizon
  ahead : ∀ d ∈ L.deadlines w.state, w.mark < d
  punctual : clean w.state = true → L.Punctual w

variable {L} {clean : σ → Bool}

theorem fresh_iff {now : Nat} {s : σ} : L.fresh now s = true ↔ ∀ d ∈ L.deadlines s, now < d := by
  simp only [fresh, List.all_eq_true, decide_eq_true_eq]

theorem Inv.act (hL : L.Lawful clean) {w : World σ} (h : L.Inv clean w) {a : ι}
    (htimely : L.Timely w (.act a)) {s : σ} (hstep : L.step w.now w.state a = some s)
    (since : Nat) :
    L.Inv clean
      { state := s, now := w.now, since := since
        mark := if (L.sweeps w.state a || L.returns w.state a) && L.fresh w.now s then w.now
          else w.mark } := by
  obtain ⟨hreturns, hfits⟩ := htimely
  have hkept := hL.kept h.clock.2 hstep hfits
  have hmark : ∀ d ∈ L.deadlines s, w.mark < d := by
    intro d hd
    obtain hlater | ⟨hold, -⟩ := hkept d hd
    · exact Nat.lt_of_le_of_lt h.clock.1 hlater
    · exact h.ahead d hold
  refine ⟨⟨?_, h.clock.2⟩, fun d hd => ?_, fun hclean d hd => ?_⟩
  · dsimp only
    split
    · exact Nat.le_refl _
    · exact h.clock.1
  · dsimp only
    split
    · rename_i hfresh
      exact fresh_iff.mp (Bool.and_eq_true_iff.mp hfresh).2 d hd
    · exact hmark d hd
  · change w.now < d + L.patience
    obtain hlater | ⟨hold, hswept⟩ := hkept d hd
    · omega
    · obtain hbefore | hsweeps | hback := hL.settles hstep hclean
      · exact h.punctual hbefore d hold
      · cases hswept.symm.trans hsweeps
      · obtain hfresh | hsoon := hreturns hback
        · have := fresh_iff.mp hfresh d hold
          omega
        · have := h.ahead d hold
          omega

theorem Inv.run (hL : L.Lawful clean) {w w' : World σ} (h : L.Inv clean w) {action : Action ι}
    (htimely : L.Timely w action) (hstep : L.run w action = some w') : L.Inv clean w' := by
  cases action with
  | act a =>
    obtain ⟨s, hs, rfl⟩ := Option.map_eq_some_iff.mp hstep
    exact h.act hL htimely hs _
  | pass duration =>
    simp only [Loop.run] at hstep
    split at hstep <;> cases hstep
    rename_i hpass
    refine ⟨⟨Nat.le_add_right_of_le h.clock.1, hpass.2⟩, h.ahead, fun hclean => ?_⟩
    -- The loop waits, so it is not at work.
    obtain ⟨hpolls, hidles⟩ := hL.waits w.state hclean
    obtain hidle | ⟨hpoll, -⟩ := hpass.1
    · cases hidles.symm.trans hidle
    · cases hpolls.symm.trans hpoll

theorem punctual_of_timely (hL : L.Lawful clean) {s : σ} (hstart : L.deadlines s = [])
    (hhorizon : 0 < L.horizon) {actions : List (Action ι)} {w : World σ}
    (hmeets : Meets L.run L.Timely (start s) actions)
    (hrun : exec L.run (start s) actions = some w) (hbegins : L.begins w.state = true) :
    L.Punctual w := by
  have hnone : ∀ d, d ∉ L.deadlines (start s).state := by
    intro d hd
    rw [start, hstart] at hd
    cases hd
  have hinv : L.Inv clean (start s) :=
    ⟨⟨Nat.le_refl _, hhorizon⟩, fun d hd => absurd hd (hnone d), fun _ d hd => absurd hd (hnone d)⟩
  have hlast := exec_guarded_invariant (fun _ _ _ hI hok hstep => Inv.run hL hI hok hstep) actions
    hinv hmeets hrun
  exact hlast.punctual (hL.begins w.state hbegins)

end Loop

end Deadlines
end MacMu
