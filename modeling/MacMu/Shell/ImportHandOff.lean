import MacMu.Shell.ImportExclusion

/-!
Imports that hand over to one another. A chain begins when an import sets the
in-progress flag and ends when an import finishes without a pending source, or
with one that is not taken up. Beside the model it is recorded whether a chain is
going on, and whether it was when the supervisor last began its guard. The guard
loads the two flags one after the other; a hand-off keeps one of them set at every
moment, but not the one that is loaded first and then the other.
-/

namespace MacMu
namespace ImportExclusion

open TransitionSystem

structure Watched where
  world : World := {}
  chain : Bool := false
  guarded : Bool := false
  deriving DecidableEq, Repr

namespace Watched

def begins (w : World) : Step → Bool
  | .mainGo => w.main = .progressClear
  | _ => false

def ends (w : World) : Step → Bool
  | .takeFinished => !w.pendingSource
  | .mainGo => w.main = .handedOff ∧ (w.shuttingDown ∨ w.qemuPid)
  | _ => false

def guards (w : World) : Step → Bool
  | .supervise _ => w.supervisor = .guarding
  | _ => false

def step (x : Watched) (a : Step) : Option Watched :=
  (x.world.step a).map fun w =>
    { world := w
      chain := (x.chain || begins x.world a) && !ends x.world a
      guarded := (if guards x.world a then x.chain else x.guarded) && !ends x.world a }

/-- The failed flag is not cleared while a guard of the chain is between its loads. -/
def Ok (x : Watched) : Step → Prop
  | .mainGo => x.world.main = .flagSet → x.guarded = true → x.world.supervisor ≠ .progressClear
  | _ => True

instance (x : Watched) : (a : Step) → Decidable (Ok x a)
  | .mainGo => inferInstanceAs (Decidable (_ → _))
  | .supervise _ | .qemuExits | .importSource | .takeFinished | .jobGo _ | .shutDown =>
    isTrue trivial

/-- Between the two stores of the in-progress flag at a hand-off. -/
def gap : Main → Bool
  | .handedOff | .pidClear | .progressClear => true
  | _ => false

structure Inv (x : Watched) : Prop where
  set : x.world.main = .flagSet → x.world.imageImportInProgress = true
  handing : x.world.main = .handingOff → x.world.imageImportFailed = true
  completing : x.world.main = .completing → x.chain = false
  covered : x.chain = true → x.world.imageImportInProgress = false →
    x.world.imageImportFailed = true ∧ gap x.world.main = true
  inside : x.guarded = true → x.world.supervisor = .progressClear →
    x.world.imageImportFailed = true
  passed : x.world.supervisor = .passed → x.guarded = false

variable {x x' : Watched}

theorem inv_start : Inv {} := ⟨nofun, nofun, nofun, nofun, nofun, nofun⟩

/-- The supervisor writes neither flag; its guard begins while a chain has one of
them set. -/
theorem Inv.supervise (h : Inv x) {launches : Bool}
    (hstep : x.step (.supervise launches) = some x') : Inv x' := by
  obtain ⟨w, hw, rfl⟩ := Option.map_eq_some_iff.mp hstep
  obtain ⟨hset, hhanding, hcompleting, hcovered, hinside, hpassed⟩ := h
  simp only [World.step, World.supervise] at hw
  cases hsupervisor : x.world.supervisor with
  | guarding =>
    simp only [hsupervisor] at hw
    cases hw
    cases hprogress : x.world.imageImportInProgress <;> cases hchain : x.chain <;>
      constructor <;> simp_all [guards, begins, ends]
  | progressClear =>
    simp only [hsupervisor] at hw
    cases hw
    cases hguarded : x.guarded <;> cases hfailed : x.world.imageImportFailed <;>
      constructor <;> simp_all [guards, begins, ends]
  | top | passed | launched | waiting | reaped | ended =>
    simp only [hsupervisor] at hw
    repeat' split at hw
    all_goals cases hw
    all_goals constructor <;> simp_all [guards, begins, ends]

theorem Inv.mainGo (h : Inv x) (hok : Ok x .mainGo) (hstep : x.step .mainGo = some x') :
    Inv x' := by
  obtain ⟨w, hw, rfl⟩ := Option.map_eq_some_iff.mp hstep
  obtain ⟨hset, hhanding, hcompleting, hcovered, hinside, hpassed⟩ := h
  simp only [World.step, World.mainGo] at hw
  cases hmain : x.world.main with
  | handedOff =>
    simp only [hmain, World.checkPid] at hw
    split at hw
    all_goals
      rename_i hguard
      cases hw
      constructor <;> simp_all [guards, begins, ends, gap]
  | flagSet =>
    -- The failed flag is cleared.
    simp only [hmain] at hw
    cases hw
    constructor <;> simp_all [guards, begins, ends, gap, Ok]
  | idle | pidClear | progressClear | handingOff | completing =>
    simp only [hmain] at hw
    repeat' split at hw
    all_goals cases hw
    all_goals constructor <;> simp_all [guards, begins, ends, gap]

theorem Inv.step (h : Inv x) {a : Step} (hok : Ok x a) (hstep : x.step a = some x') : Inv x' := by
  cases a with
  | supervise launches => exact h.supervise hstep
  | mainGo => exact h.mainGo hok hstep
  | takeFinished | importSource | qemuExits | jobGo _ | shutDown =>
    obtain ⟨w, hw, rfl⟩ := Option.map_eq_some_iff.mp hstep
    obtain ⟨hset, hhanding, hcompleting, hcovered, hinside, hpassed⟩ := h
    simp only [World.step, World.takeFinished, World.checkPid, World.jobGo] at hw
    repeat' split at hw
    all_goals cases hw
    all_goals constructor <;> simp_all [guards, begins, ends, gap]

/-- In such runs no guard that was begun inside a chain is passed while the chain
goes on. -/
theorem hand_off_keeps_supervisor_blocked (steps : List Step)
    (hok : Meets Watched.step Ok {} steps) (hrun : exec Watched.step {} steps = some x) :
    ¬(x.world.supervisor = .passed ∧ x.guarded = true) := by
  have hinv : Inv x := by
    refine exec_guarded_invariant ?_ steps inv_start hok hrun
    intro x a x' hx hstepOk hstep
    exact hx.step hstepOk hstep
  rintro ⟨hpassed, hguarded⟩
  cases (hinv.passed hpassed).symm.trans hguarded

/-- An import is replaced by another one, and the guard is taken in between. -/
def guardInsideHandOff : List Step :=
  [.importSource, .mainGo, .mainGo, .mainGo, .importSource, .mainGo, .jobGo false, .takeFinished,
    .mainGo, .supervise true, .supervise true, .supervise true, .mainGo, .mainGo, .mainGo, .mainGo]

theorem hand_off_keeps_supervisor_blocked_inside : ∃ x, exec Watched.step {} guardInsideHandOff =
    some x ∧ x.chain = true ∧ x.guarded = true ∧
      ¬(x.world.supervisor = .passed ∧ x.guarded = true) := by
  obtain ⟨x, hrun, hchain, hguarded⟩ : ∃ x, exec Watched.step {} guardInsideHandOff = some x ∧
      x.chain = true ∧ x.guarded = true := exists_of_map_decide (by decide)
  exact ⟨x, hrun, hchain, hguarded, hand_off_keeps_supervisor_blocked _ (by decide) hrun⟩

/-- The first load finds the flag that the next import has not set yet, the second
one the flag that it has cleared. -/
theorem guard_passes_hand_off : ∃ x, exec Watched.step {} (guardDuringHandOff.take 16) = some x ∧
    x.chain = true ∧ x.world.job = .working ∧ x.world.supervisor = .passed ∧ x.guarded = true :=
  exists_of_map_decide (by decide)

end Watched
end ImportExclusion
end MacMu
