import MacMu.Lib.TransitionSystem

/-!
The end of the shell and the emulators that `qemuMonitorLoop` spawns. The loop
publishes a pid and then looks at the shutdown flag; the shutdown sets the flag and
then looks at the pid, so one of the two sees the other. Every load and store of
the flag and of the pid is one step, and so is a signal. The checks before a launch
are one step of any outcome, a child is waited for until it has exited, and a process
may exit at any time. What the shutdown stops before it looks at the pid is left out.
-/

namespace MacMu
namespace QemuShutdown

open TransitionSystem

/-- Where `qemuMonitorLoop` is; a process is known by its number. -/
inductive Loop where
  | top
  | checking
  | spawned (process : Nat)
  | published (process : Nat)
  | waiting (process : Nat)
  | reaped (process : Nat)
  | withdrawn
  | ended
  deriving DecidableEq, Repr

/-- Where `performRuntimeShutdown` is. -/
inductive Shutdown where
  | idle
  | stopping
  | looked (pid : Option Nat)
  | awaiting (process : Nat)
  | overdue (process : Nat)
  | joining
  | complete
  deriving DecidableEq, Repr

structure World where
  shuttingDown : Bool := false
  qemuPid : Option Nat := none
  processes : Nat := 0
  exited : List Nat := []
  terminated : List Nat := []
  killed : List Nat := []
  loop : Loop := .top
  shutdown : Shutdown := .idle
  deriving DecidableEq, Repr

inductive Step where
  /-- `launches` is the outcome of the checks and the launch. -/
  | monitor (launches : Bool)
  /-- `beginAsyncTermination` -/
  | terminate
  /-- `timeout` says how the wait for the exit ends. -/
  | shutdown (timeout : Bool)
  | exit (process : Nat)
  deriving DecidableEq, Repr

namespace World

def requestQemuTermination (w : World) (process : Nat) : World :=
  { w with terminated := process :: w.terminated }

def forceKillQemu (w : World) (process : Nat) : World :=
  { w with killed := process :: w.killed }

def monitor (w : World) (launches : Bool) : Option World :=
  match w.loop with
  | .top => some { w with loop := if w.shuttingDown then .ended else .checking }
  | .checking =>
    if launches then
      some { w with processes := w.processes + 1, loop := .spawned w.processes }
    else some { w with loop := .top }
  | .spawned process => some { w with qemuPid := some process, loop := .published process }
  | .published process =>
    if w.shuttingDown then
      some { w.requestQemuTermination process with loop := .waiting process }
    else some { w with loop := .waiting process }
  | .waiting process => if process ∈ w.exited then some { w with loop := .reaped process } else none
  | .reaped process =>
    if w.qemuPid = some process then some { w with qemuPid := none, loop := .withdrawn }
    else some { w with loop := .withdrawn }
  | .withdrawn => some { w with loop := if w.shuttingDown then .ended else .top }
  | .ended => none

def performShutdown (w : World) (timeout : Bool) : Option World :=
  match w.shutdown with
  | .idle | .complete => none
  | .stopping => some { w with shutdown := .looked w.qemuPid }
  | .looked none => some { w with shutdown := .joining }
  | .looked (some process) =>
    some { w.requestQemuTermination process with shutdown := .awaiting process }
  | .awaiting process =>
    if timeout then some { w with shutdown := .overdue process }
    else if w.qemuPid = some process then none
    else some { w with shutdown := .joining }
  | .overdue process =>
    if w.qemuPid = some process then
      some { w.forceKillQemu process with shutdown := .joining }
    else some { w with shutdown := .joining }
  | .joining => if w.loop = .ended then some { w with shutdown := .complete } else none

def step (w : World) : Step → Option World
  | .monitor launches => w.monitor launches
  | .terminate =>
    -- A second call finds the flag set.
    if w.shuttingDown then some w
    else some { w with shuttingDown := true, shutdown := .stopping }
  | .shutdown timeout => w.performShutdown timeout
  | .exit process =>
    if process < w.processes ∧ process ∉ w.exited then
      some { w with exited := process :: w.exited }
    else none

/-- Neither thread can go on. -/
def Blocked (w : World) : Prop :=
  (∀ launches, w.monitor launches = none) ∧ ∀ timeout, w.performShutdown timeout = none

end World

/-- The loop finds the flag set. -/
def Observes (w : World) : Step → Prop
  | .monitor _ => w.shuttingDown = true ∧
      (w.loop = .top ∨ w.loop = .withdrawn ∨ ∃ process, w.loop = .published process)
  | _ => False

def Step.ofThread : Step → Bool
  | .monitor _ | .shutdown _ => true
  | _ => false

def Loop.process : Loop → Option Nat
  | spawned process | published process | waiting process => some process
  | _ => none

structure Inv (w : World) : Prop where
  /-- Of the processes only the one of the loop need not have exited. -/
  current : ∀ process < w.processes, process ∈ w.exited ∨ w.loop.process = some process
  announced : ∀ process, w.loop = .published process ∨ w.loop = .waiting process →
    w.qemuPid = some process
  signalled : ∀ process, w.loop = .waiting process → w.shuttingDown = true →
    process ∈ w.terminated ∨ w.shutdown = .stopping ∨ w.shutdown = .looked (some process)
  flagged : w.shuttingDown = true ↔ w.shutdown ≠ .idle

theorem inv_start : Inv {} := ⟨nofun, by simp, nofun, by decide⟩

variable {w w' : World}

theorem Inv.monitor (h : Inv w) {launches : Bool} (hstep : w.monitor launches = some w') : Inv w' := by
  obtain ⟨hcurrent, hannounced, hsignalled, hflagged⟩ := h
  cases hloop : w.loop with
  | checking =>
    simp only [World.monitor, hloop] at hstep
    split at hstep
    · cases hstep
      refine ⟨fun process hlt => ?_, by simp, nofun, hflagged⟩
      rcases Nat.lt_succ_iff_lt_or_eq.mp hlt with hlt | rfl
      · have hold := hcurrent process hlt
        rw [hloop] at hold
        exact .inl (hold.resolve_right nofun)
      · exact .inr rfl
    · cases hstep
      constructor <;> simp_all [Loop.process]
  | waiting process =>
    simp only [World.monitor, hloop] at hstep
    split at hstep <;> cases hstep
    rename_i hexited
    refine ⟨fun other hlt => ?_, by simp, nofun, hflagged⟩
    rcases hcurrent other hlt with hold | hold
    · exact .inl hold
    · rw [hloop] at hold
      cases hold
      exact .inl hexited
  | top | spawned process | published process | reaped process | withdrawn | ended =>
    simp only [World.monitor, hloop] at hstep
    repeat' split at hstep
    all_goals cases hstep
    all_goals constructor <;> simp_all [Loop.process, World.requestQemuTermination]

theorem Inv.shutdownMoves (h : Inv w) {shutdown : Shutdown} {terminated killed : List Nat}
    (hrunning : w.shutdown ≠ .idle) (hphase : shutdown ≠ .idle)
    (hsignalled : ∀ process, w.loop = .waiting process →
      process ∈ terminated ∨ shutdown = .stopping ∨ shutdown = .looked (some process)) :
    Inv { w with shutdown := shutdown, terminated := terminated, killed := killed } :=
  ⟨h.current, h.announced, fun process hloop _ => hsignalled process hloop,
    iff_of_true (h.flagged.mpr hrunning) hphase⟩

theorem Inv.performShutdown (h : Inv w) {timeout : Bool}
    (hstep : w.performShutdown timeout = some w') : Inv w' := by
  cases hphase : w.shutdown with
  | idle | complete =>
    simp only [World.performShutdown, hphase] at hstep
    cases hstep
  | stopping =>
    simp only [World.performShutdown, hphase] at hstep
    cases hstep
    refine h.shutdownMoves (by simp [hphase]) nofun fun process hloop => ?_
    rw [h.announced process (.inr hloop)]
    exact .inr (.inr rfl)
  | looked _ | awaiting _ | overdue _ | joining =>
    have hflag := h.flagged.mpr (by simp [hphase])
    have hsignalled := fun process hloop => h.signalled process hloop hflag
    simp only [World.performShutdown, hphase] at hstep
    repeat' split at hstep
    all_goals cases hstep
    all_goals
      refine h.shutdownMoves (by simp [hphase]) nofun fun process hloop => .inl ?_
      have hdone := hsignalled process hloop
      grind [World.requestQemuTermination, World.forceKillQemu]

theorem Inv.step (h : Inv w) {a : Step} (hstep : w.step a = some w') : Inv w' := by
  cases a with
  | monitor launches => exact h.monitor hstep
  | shutdown timeout => exact h.performShutdown hstep
  | terminate =>
    simp only [World.step] at hstep
    split at hstep
    · cases hstep
      exact h
    · cases hstep
      exact ⟨h.current, h.announced, fun _ _ _ => .inr (.inl rfl), iff_of_true rfl nofun⟩
  | exit process =>
    simp only [World.step] at hstep
    split at hstep <;> cases hstep
    refine ⟨fun other hlt => ?_, h.announced, h.signalled, h.flagged⟩
    exact (h.current other hlt).imp_left (List.mem_cons_of_mem process)

theorem Inv.settled (h : Inv w) (hflag : w.shuttingDown = true) (hblocked : w.Blocked) :
    ∀ process < w.processes, process ∈ w.exited ∨ process ∈ w.terminated := by
  intro process hlt
  refine (h.current process hlt).imp_right fun hcurrent => ?_
  obtain ⟨hloop, hshutdown⟩ := hblocked
  have hwaiting : w.loop = .waiting process := by
    cases heq : w.loop <;> simp_all [World.monitor, Loop.process]
  rcases h.signalled process hwaiting hflag with hdone | hphase | hphase
  · exact hdone
  all_goals simp [World.performShutdown, hphase] at hshutdown

/-- How many processes the loop can still spawn once the flag is set. -/
def Loop.due : Loop → Nat
  | checking => 1
  | _ => 0

/-- How many steps the loop can still take once the flag is set. -/
def Loop.rank : Loop → Nat
  | ended => 0
  | top | withdrawn => 1
  | reaped _ => 2
  | waiting _ => 3
  | published _ => 4
  | spawned _ => 5
  | checking => 6

def Shutdown.rank : Shutdown → Nat
  | idle | complete => 0
  | joining => 1
  | overdue _ => 2
  | awaiting _ => 3
  | looked _ => 4
  | stopping => 5

theorem late_step (hflag : w.shuttingDown = true) {a : Step} (hstep : w.step a = some w') :
    w'.shuttingDown = true ∧ w'.processes + w'.loop.due ≤ w.processes + w.loop.due ∧
      w'.loop.rank + w'.shutdown.rank + (if a.ofThread then 1 else 0) ≤
        w.loop.rank + w.shutdown.rank := by
  cases a with
  | monitor launches =>
    simp only [World.step, World.monitor] at hstep
    repeat' split at hstep
    all_goals cases hstep
    all_goals simp_all [World.requestQemuTermination, Loop.due, Loop.rank, Step.ofThread]
    all_goals omega
  | shutdown timeout =>
    simp only [World.step, World.performShutdown] at hstep
    repeat' split at hstep
    all_goals cases hstep
    all_goals simp_all [World.requestQemuTermination, World.forceKillQemu, Shutdown.rank,
      Step.ofThread]
  | terminate =>
    rw [World.step, if_pos hflag] at hstep
    cases hstep
    exact ⟨hflag, Nat.le_refl _, Nat.le_refl _⟩
  | exit process =>
    simp only [World.step] at hstep
    split at hstep <;> cases hstep
    exact ⟨hflag, Nat.le_refl _, Nat.le_refl _⟩

theorem late_run (hflag : w.shuttingDown = true) {as : List Step}
    (hrun : exec World.step w as = some w') :
    w'.processes ≤ w.processes + w.loop.due ∧
      as.countP Step.ofThread ≤ w.loop.rank + w.shutdown.rank := by
  induction as generalizing w with
  | nil =>
    cases hrun
    exact ⟨Nat.le_add_right _ _, Nat.zero_le _⟩
  | cons a as ih =>
    obtain ⟨t, hstep, hrest⟩ := Option.bind_eq_some_iff.mp hrun
    obtain ⟨hflag', hprocesses, hrank⟩ := late_step hflag hstep
    obtain ⟨hbound, hsteps⟩ := ih hflag' hrest
    rw [List.countP_cons]
    exact ⟨Nat.le_trans hbound hprocesses, by omega⟩

/-- In every reachable state in which the flag is set: if neither thread can go on,
every process has exited or was sent SIGTERM; that is so after at most eleven steps of
the two threads, and one more process is spawned at most. None is spawned after the
loop has found the flag set. -/
theorem no_orphaned_qemu (hw : Reachable World.step {} w) (hflag : w.shuttingDown = true) :
    (w.Blocked → ∀ process < w.processes, process ∈ w.exited ∨ process ∈ w.terminated) ∧
    (∀ as w', exec World.step w as = some w' →
      w'.processes ≤ w.processes + 1 ∧ as.countP Step.ofThread ≤ 11) ∧
    ∀ a t as w', Observes w a → w.step a = some t → exec World.step t as = some w' →
      w'.processes ≤ w.processes := by
  have hinv := hw.invariant (fun _ _ _ h hstep => h.step hstep) inv_start
  refine ⟨hinv.settled hflag, fun as w' hrun => ?_, fun a t as w' hobserves hstep hrun => ?_⟩
  · obtain ⟨hprocesses, hsteps⟩ := late_run hflag hrun
    have hdue : w.loop.due ≤ 1 := by cases w.loop <;> simp [Loop.due]
    have hloop : w.loop.rank ≤ 6 := by cases w.loop <;> simp [Loop.rank]
    have hshutdown : w.shutdown.rank ≤ 5 := by cases w.shutdown <;> simp [Shutdown.rank]
    exact ⟨by omega, by omega⟩
  · have hdue : w.loop.due = 0 := by
      cases a with
      | monitor launches =>
        obtain ⟨-, hloop | hloop | ⟨process, hloop⟩⟩ := hobserves <;> rw [hloop] <;> rfl
      | terminate | shutdown _ | exit _ => cases hobserves
    have hbound := (late_run hflag ((exec_cons_of_step hstep as).trans hrun)).1
    rwa [hdue] at hbound

/-- The flag is set between the look of the loop and the spawn. -/
def spawnedLate : List Step :=
  [.monitor true, .terminate, .monitor true, .shutdown false, .shutdown false, .monitor true,
    .monitor true]

theorem no_orphaned_qemu_late : ∃ w, exec World.step {} spawnedLate = some w ∧
    w.Blocked ∧ w.terminated = [0] ∧
    ∀ process < w.processes, process ∈ w.exited ∨ process ∈ w.terminated := by
  obtain ⟨w, hrun, hflag, hloop, hshutdown, hexited, hterminated⟩ : ∃ w,
      exec World.step {} spawnedLate = some w ∧ w.shuttingDown = true ∧ w.loop = .waiting 0 ∧
        w.shutdown = .joining ∧ w.exited = [] ∧ w.terminated = [0] :=
    exists_of_map_decide (by decide)
  have hblocked : w.Blocked := by
    constructor <;> intro _ <;> simp [World.monitor, World.performShutdown, hloop, hshutdown, hexited]
  exact ⟨w, hrun, hblocked, hterminated, (no_orphaned_qemu ⟨_, hrun⟩ hflag).1 hblocked⟩

/-- An emulator is only spawned when all before it have exited. -/
theorem one_qemu_at_a_time (hw : Reachable World.step {} w) {p q : Nat} (hp : p < w.processes)
    (hq : q < w.processes) (hpalive : p ∉ w.exited) (hqalive : q ∉ w.exited) : p = q := by
  have hinv := hw.invariant (fun _ _ _ h hstep => h.step hstep) inv_start
  have hloop := (hinv.current p hp).resolve_left hpalive
  exact Option.some.inj (hloop.symm.trans ((hinv.current q hq).resolve_left hqalive))

theorem one_qemu_at_a_time_late : ∃ w, exec World.step {} spawnedLate = some w ∧
    w.processes = 1 ∧ w.exited = [] ∧ ∀ p < w.processes, p = 0 := by
  obtain ⟨w, hrun, hone, hnone⟩ : ∃ w, exec World.step {} spawnedLate = some w ∧
      w.processes = 1 ∧ w.exited = [] := exists_of_map_decide (by decide)
  refine ⟨w, hrun, hone, hnone, fun p hp => one_qemu_at_a_time ⟨_, hrun⟩ hp ?_ ?_ ?_⟩ <;>
    simp [hone, hnone]

end QemuShutdown
end MacMu
