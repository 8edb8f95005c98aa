import MacMu.Lib.TransitionSystem

/-!
Cancelling an image import. The import is started on the main queue and works on
a background queue, where any number of threads call `run_task`; the process of
a task ends at any moment. `macmu_cancel_system_image_import` sets the flag that
`run_task` looks at and signals the processes that are registered. Each access to
a flag and each section under the mutex is one step, and the steps interleave in
any order. What the tasks are for is left out: a call of `run_task` may come at
any moment while the job runs, and the job may end at any moment.

The job clears the flag when it begins. A cancel that was made before that has
no effect, although the import counts as in progress since it was started.
-/

namespace MacMu
namespace ImportCancellation

open Function TransitionSystem

/-- Where a call of `run_task` is. -/
inductive Phase where
  | absent
  | refused
  | launching
  | launched
  | waiting
  | returned
  deriving DecidableEq, Repr

structure Task where
  phase : Phase := .absent
  exited : Bool := false
  signalled : Bool := false
  deriving DecidableEq, Repr

inductive Job where
  | idle
  | queued
  | running
  | done
  deriving DecidableEq, Repr

/-- Where the call of `macmu_cancel_system_image_import` is. -/
inductive Cancel where
  | notCalled
  | stored
  | killing (taskPids : List Nat)
  | returned
  deriving DecidableEq, Repr

structure World where
  imageImportInProgress : Bool
  gImportCancelled : Bool
  job : Job
  tasks : Nat → Task
  gTaskPids : List Nat
  cancel : Cancel

inductive Step where
  /-- `importSystemImageSource:` with no import in progress. -/
  | importSource
  /-- `macmu_extract_system_image_source` begins. -/
  | extract
  /-- A thread of the job calls `run_task` and looks at the flag. -/
  | runTask (pid : Nat)
  | launch (pid : Nat) (succeeds : Bool)
  | register (pid : Nat)
  | exit (pid : Nat)
  /-- `waitUntilExit` is over, and the pid is erased under the mutex. -/
  | reap (pid : Nat)
  | finish
  | complete
  /-- `macmu_cancel_system_image_import` is called and sets the flag. -/
  | cancel
  | copyPids
  | kill
  deriving DecidableEq, Repr

namespace World

variable (w : World)

def setTask (pid : Nat) (task : Task) : World := { w with tasks := update w.tasks pid task }

/-- One step, `none` where it is not enabled. -/
def step : Step → Option World
  | .importSource =>
    if w.imageImportInProgress = false ∧ w.job = .idle then
      some { w with imageImportInProgress := true, job := .queued }
    else none
  | .extract =>
    if w.job = .queued then some { w with gImportCancelled := false, job := .running } else none
  | .runTask pid =>
    if w.job = .running ∧ (w.tasks pid).phase = .absent then
      some (w.setTask pid
        { phase := if w.gImportCancelled then .refused else .launching })
    else none
  | .launch pid succeeds =>
    if (w.tasks pid).phase = .launching then
      some (w.setTask pid { phase := if succeeds then .launched else .refused })
    else none
  | .register pid =>
    if (w.tasks pid).phase = .launched then
      if w.gImportCancelled then
        some (w.setTask pid { w.tasks pid with phase := .waiting, signalled := true })
      else
        some { w.setTask pid { w.tasks pid with phase := .waiting } with
          gTaskPids := pid :: w.gTaskPids }
    else none
  | .exit pid =>
    if (w.tasks pid).phase = .launched ∨ (w.tasks pid).phase = .waiting then
      some (w.setTask pid { w.tasks pid with exited := true })
    else none
  | .reap pid =>
    if (w.tasks pid).phase = .waiting ∧ (w.tasks pid).exited then
      some { w.setTask pid { w.tasks pid with phase := .returned } with
        gTaskPids := w.gTaskPids.filter (· ≠ pid) }
    else none
  | .finish => if w.job = .running then some { w with job := .done } else none
  | .complete =>
    if w.job = .done then some { w with imageImportInProgress := false } else none
  | .cancel =>
    if w.imageImportInProgress ∧ w.cancel = .notCalled then
      some { w with gImportCancelled := true, cancel := .stored }
    else none
  | .copyPids =>
    if w.cancel = .stored then some { w with cancel := .killing w.gTaskPids } else none
  | .kill =>
    match w.cancel with
    | .killing (pid :: rest) =>
      some { w.setTask pid { w.tasks pid with signalled := true } with
        cancel := .killing rest }
    | .killing [] => some { w with cancel := .returned }
    | _ => none

/-- Nothing has been imported; the flag is as the last import left it. -/
def start (cancelled : Bool) : World where
  imageImportInProgress := false
  gImportCancelled := cancelled
  job := .idle
  tasks := fun _ => {}
  gTaskPids := []
  cancel := .notCalled

end World

/-- The process of a task was launched, has not ended and was not signalled. -/
def Task.Unharmed (t : Task) : Prop :=
  (t.phase = .launched ∨ t.phase = .waiting) ∧ t.exited = false ∧ t.signalled = false

/-- The next thing the thread of the task does is to signal its process. -/
def Doomed (w : World) (pid : Nat) : Prop :=
  ∃ w', w.step (.register pid) = some w' ∧ (w'.tasks pid).signalled = true

/-- Every task was never launched, or has ended, or was sent SIGTERM, or is sent
SIGTERM in the section that follows its launch. -/
def Stopped (w : World) : Prop := ∀ pid, (w.tasks pid).Unharmed → Doomed w pid

def AfterBegin (w : World) (a : Step) : Prop := a = .cancel → w.job ≠ .queued

instance (w : World) (a : Step) : Decidable (AfterBegin w a) :=
  inferInstanceAs (Decidable (_ → _))

/-- The pids whose processes the cancel call has yet to signal. -/
def Cancel.Remaining (gTaskPids : List Nat) : Cancel → List Nat
  | .notCalled | .stored => gTaskPids
  | .killing rest => rest
  | .returned => []

structure Inv (w : World) : Prop where
  idle : w.imageImportInProgress = true → w.job ≠ .idle
  flagged : w.cancel ≠ .notCalled → w.gImportCancelled = true ∧ w.job ≠ .queued ∧ w.job ≠ .idle
  remaining : ∀ pid, (w.tasks pid).phase = .waiting → (w.tasks pid).exited = false →
    (w.tasks pid).signalled = false → pid ∈ w.cancel.Remaining w.gTaskPids

theorem inv_start (cancelled : Bool) : Inv (World.start cancelled) :=
  ⟨nofun, fun h => absurd rfl h, nofun⟩

variable {w w' : World}

section

variable (h : Inv w)
include h

theorem Inv.notCalled (hclear : w.gImportCancelled = false) : w.cancel = .notCalled := by
  by_contra hcalled
  rw [(h.flagged hcalled).1] at hclear
  cases hclear

theorem Inv.setTask {pid : Nat} {task : Task} {pids : List Nat} {cancel : Cancel}
    (htask : task.phase = .waiting → task.exited = false → task.signalled = false →
      pid ∈ cancel.Remaining pids)
    (hothers : ∀ other, other ≠ pid → other ∈ w.cancel.Remaining w.gTaskPids →
      other ∈ cancel.Remaining pids := by exact fun _ _ hmem => hmem)
    (hcancel : cancel ≠ .notCalled → w.cancel ≠ .notCalled := by exact id) :
    Inv { w.setTask pid task with gTaskPids := pids, cancel := cancel } where
  idle := h.idle
  flagged hcalled := h.flagged (hcancel hcalled)
  remaining other := by
    change (update w.tasks pid task other).phase = .waiting →
      (update w.tasks pid task other).exited = false →
      (update w.tasks pid task other).signalled = false → other ∈ cancel.Remaining pids
    by_cases hother : other = pid
    · subst hother
      rw [update_self]
      exact htask
    · rw [update_of_ne hother]
      intro hphase hexited hsignalled
      exact hothers other hother (h.remaining other hphase hexited hsignalled)

theorem Inv.register {pid : Nat} (hstep : w.step (.register pid) = some w') : Inv w' := by
  simp only [World.step] at hstep
  split at hstep
  · split at hstep
    · cases hstep
      exact h.setTask nofun
    · rename_i hclear
      have hnotCalled := h.notCalled (Bool.not_eq_true _ ▸ hclear)
      have hremaining : w.cancel.Remaining (pid :: w.gTaskPids) =
          pid :: w.cancel.Remaining w.gTaskPids := by
        rw [hnotCalled]
        rfl
      cases hstep
      refine h.setTask ?_ ?_
      · intro _ _ _
        exact hremaining ▸ List.mem_cons_self
      · intro other _ hmem
        exact hremaining ▸ List.mem_cons_of_mem pid hmem
  · cases hstep

theorem Inv.reap {pid : Nat} (hstep : w.step (.reap pid) = some w') : Inv w' := by
  simp only [World.step] at hstep
  split at hstep <;> cases hstep
  refine h.setTask nofun ?_
  intro other hother hmem
  have hkept : other ∈ w.gTaskPids → other ∈ w.gTaskPids.filter (· ≠ pid) := by
    simp [hother]
  change other ∈ w.cancel.Remaining (w.gTaskPids.filter (· ≠ pid))
  cases hcancel : w.cancel <;> rw [hcancel] at hmem
  case notCalled | stored => exact hkept hmem
  case killing | returned => exact hmem

theorem Inv.cancelMoves {old cancel : Cancel} (hcancel : w.cancel = old) {cancelled : Bool}
    (hflagged : (old ≠ .notCalled → w.gImportCancelled = true ∧
      w.job ≠ .queued ∧ w.job ≠ .idle) → cancelled = true ∧ w.job ≠ .queued ∧ w.job ≠ .idle)
    (hsame : old.Remaining w.gTaskPids = cancel.Remaining w.gTaskPids := by rfl) :
    Inv { w with gImportCancelled := cancelled, cancel := cancel } := by
  subst hcancel
  exact ⟨h.idle, fun _ => hflagged h.flagged, fun pid hphase hexited hsignalled =>
    hsame ▸ h.remaining pid hphase hexited hsignalled⟩

theorem Inv.kill (hstep : w.step .kill = some w') : Inv w' := by
  simp only [World.step] at hstep
  split at hstep
  · rename_i pid rest hcancel
    cases hstep
    refine h.setTask nofun ?_ fun _ => by rw [hcancel]; exact Cancel.noConfusion
    intro other hother hmem
    rw [hcancel] at hmem
    exact (List.mem_cons.mp hmem).resolve_left hother
  · rename_i hcancel
    cases hstep
    exact h.cancelMoves hcancel fun hflagged => hflagged Cancel.noConfusion
  · cases hstep

theorem Inv.jobMoves {inProgress cancelled : Bool} {job : Job}
    (hidle : inProgress = true → job ≠ .idle)
    (hflagged : w.cancel ≠ .notCalled → cancelled = true ∧ job ≠ .queued ∧ job ≠ .idle) :
    Inv { w with
      imageImportInProgress := inProgress, gImportCancelled := cancelled, job := job } :=
  ⟨hidle, hflagged, h.remaining⟩

theorem Inv.step {a : Step} (hok : AfterBegin w a) (hstep : w.step a = some w') : Inv w' := by
  cases a <;> simp only [World.step] at hstep
  case importSource =>
    split at hstep <;> cases hstep
    rename_i hidle
    refine h.jobMoves (fun _ => Job.noConfusion) ?_
    intro hcalled
    exact absurd hidle.2 (h.flagged hcalled).2.2
  case extract =>
    split at hstep <;> cases hstep
    rename_i hqueued
    refine h.jobMoves (fun _ => Job.noConfusion) ?_
    intro hcalled
    exact absurd hqueued (h.flagged hcalled).2.1
  case runTask pid | launch pid succeeds =>
    split at hstep <;> cases hstep
    refine h.setTask ?_
    split <;> exact nofun
  case register pid => exact h.register hstep
  case exit pid =>
    split at hstep <;> cases hstep
    exact h.setTask nofun
  case reap pid => exact h.reap hstep
  case finish =>
    split at hstep <;> cases hstep
    exact h.jobMoves (fun _ => Job.noConfusion) fun hcalled =>
      ⟨(h.flagged hcalled).1, Job.noConfusion, Job.noConfusion⟩
  case complete =>
    split at hstep <;> cases hstep
    exact h.jobMoves nofun h.flagged
  case cancel =>
    split at hstep <;> cases hstep
    rename_i hcall
    exact h.cancelMoves hcall.2 fun _ => ⟨rfl, hok rfl, h.idle hcall.1⟩
  case copyPids =>
    split at hstep <;> cases hstep
    rename_i hstored
    exact h.cancelMoves hstored fun hflagged => hflagged Cancel.noConfusion
  case kill => exact h.kill hstep

theorem Inv.stopped (hreturned : w.cancel = .returned) : Stopped w := by
  intro pid hunharmed
  obtain ⟨hphase, hexited, hsignalled⟩ := hunharmed
  have hflag : w.gImportCancelled = true :=
    (h.flagged (by rw [hreturned]; exact Cancel.noConfusion)).1
  obtain hlaunched | hwaiting := hphase
  · simp [Doomed, World.step, World.setTask, hlaunched, hflag]
  · have hmem := h.remaining pid hwaiting hexited hsignalled
    rw [hreturned] at hmem
    exact absurd hmem List.not_mem_nil

end

end ImportCancellation
end MacMu
