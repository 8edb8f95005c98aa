import MacMu.Lib.TransitionSystem

/-!
The supervisor of the emulator and the import of a system image. The supervisor
looks at the import flags, later launches the emulator and then publishes its
pid; an import looks at the pid, later sets the flags and then replaces the
image on a background queue. Every load and store of a shared flag is one step
of its thread, and the steps interleave in any order. The image and machine
checks and the launch are one step of any outcome; the boot texts, the control
channel and the blocks the supervisor waits for after an exit are left out.

Neither side holds anything between its check and its act, so the image can be
replaced under a running emulator. The results below say for which runs it is
not.
-/

namespace MacMu
namespace ImportExclusion

open TransitionSystem

/-- Where `qemuMonitorLoop` is. -/
inductive Supervisor where
  | top
  | guarding
  /-- The in-progress flag was clear; about to load the failed flag. -/
  | progressClear
  /-- The guard is passed; the image and machine checks and the launch follow. -/
  | passed
  | launched
  | waiting
  | reaped
  | ended
  deriving DecidableEq, Repr

/-- Where the main queue is in `importSystemImageSource:` or in the block that
ends an import. -/
inductive Main where
  | idle
  /-- The pid check is passed; about to load the in-progress flag. -/
  | pidClear
  | progressClear
  /-- The flag is set; the failed flag is to be cleared and the job dispatched. -/
  | flagSet
  /-- Another source waits; the failed flag is set, the in-progress flag is next. -/
  | handingOff
  /-- Both flags are stored; `importSystemImageSource:` is called again. -/
  | handedOff
  | completing
  deriving DecidableEq, Repr

inductive Job where
  | none
  /-- Extracting, and looking for the image in what was extracted. -/
  | working
  /-- In `macmu_replace_system_image_from_directory`. -/
  | replacing
  | finished (ok : Bool)
  deriving DecidableEq, Repr

structure World where
  imageImportInProgress : Bool := false
  imageImportFailed : Bool := false
  qemuPid : Bool := false
  qemuAlive : Bool := false
  supervisor : Supervisor := .top
  main : Main := .idle
  job : Job := .none
  pendingSource : Bool := false
  shuttingDown : Bool := false
  deriving DecidableEq, Repr

inductive Step where
  /-- The supervisor goes on; `launches` is the outcome of the checks and the
  launch. -/
  | supervise (launches : Bool)
  | qemuExits
  /-- The main queue runs `importSystemImageSource:` for the user. -/
  | importSource
  | mainGo
  | takeFinished
  | jobGo (ok : Bool)
  | shutDown
  deriving DecidableEq, Repr

namespace World

variable (w : World)

def supervise (launches : Bool) : Option World :=
  match w.supervisor with
  | .top => some { w with supervisor := if w.shuttingDown then .ended else .guarding }
  | .guarding =>
    some { w with supervisor := if w.imageImportInProgress then .top else .progressClear }
  | .progressClear =>
    some { w with supervisor := if w.imageImportFailed then .top else .passed }
  | .passed =>
    if launches then some { w with qemuAlive := true, supervisor := .launched }
    else some { w with supervisor := .top }
  | .launched => some { w with qemuPid := true, supervisor := .waiting }
  | .waiting => if w.qemuAlive then none else some { w with supervisor := .reaped }
  | .reaped => some { w with qemuPid := false, supervisor := .top }
  | .ended => none

/-- The start of `importSystemImageSource:`. -/
def checkPid : World :=
  if w.shuttingDown ∨ w.qemuPid then { w with main := .idle } else { w with main := .pidClear }

def mainGo : Option World :=
  match w.main with
  | .idle => none
  | .pidClear =>
    if w.imageImportInProgress then some { w with pendingSource := true, main := .idle }
    else some { w with main := .progressClear }
  | .progressClear => some { w with imageImportInProgress := true, main := .flagSet }
  | .flagSet => some { w with imageImportFailed := false, job := .working, main := .idle }
  | .handingOff => some { w with imageImportInProgress := false, main := .handedOff }
  | .handedOff => some w.checkPid
  | .completing => some { w with imageImportInProgress := false, main := .idle }

def takeFinished : Option World :=
  match w.main, w.job with
  | .idle, .finished ok =>
    if w.pendingSource then
      some { w with
        pendingSource := false, imageImportFailed := true, job := .none, main := .handingOff }
    else some { w with imageImportFailed := !ok, job := .none, main := .completing }
  | _, _ => none

def jobGo (ok : Bool) : Option World :=
  match w.job with
  | .working => some { w with job := if ok then .replacing else .finished false }
  | .replacing => some { w with job := .finished ok }
  | _ => none

/-- One step, `none` where it is not enabled. -/
def step : Step → Option World
  | .supervise launches => w.supervise launches
  | .qemuExits => if w.qemuAlive then some { w with qemuAlive := false } else none
  | .importSource => if w.main = .idle then some w.checkPid else none
  | .mainGo => w.mainGo
  | .takeFinished => w.takeFinished
  | .jobGo ok => w.jobGo ok
  | .shutDown => some { w with shuttingDown := true }

end World

def ReplacedUnderQemu (w : World) : Prop := w.qemuAlive = true ∧ w.job = .replacing

instance (w : World) : Decidable (ReplacedUnderQemu w) := inferInstanceAs (Decidable (_ ∧ _))

def Supervisor.launching : Supervisor → Bool
  | .progressClear | .passed | .launched => true
  | _ => false

def Main.starting : Main → Bool
  | .pidClear | .progressClear | .flagSet => true
  | _ => false

/-- The two check-then-act sections do not overlap: the guard does not begin
while an import is starting, and an import does not look at the pid while the
emulator is being launched. -/
def Apart (w : World) : Step → Prop
  | .supervise _ => w.supervisor = .guarding → w.main.starting = false
  | .importSource => w.supervisor.launching = false
  | .mainGo => w.main = .handedOff → w.supervisor.launching = false
  | _ => True

instance (w : World) : (a : Step) → Decidable (Apart w a)
  | .supervise _ => inferInstanceAs (Decidable (_ → _))
  | .importSource => inferInstanceAs (Decidable (_ = _))
  | .mainGo => inferInstanceAs (Decidable (_ → _))
  | .qemuExits | .takeFinished | .jobGo _ | .shutDown => isTrue trivial

structure Clear (w : World) : Prop where
  inProgress : w.imageImportInProgress = false
  job : w.job = .none
  main : w.main.starting = false

def Supervisor.busy : Supervisor → Bool
  | .progressClear | .passed | .launched | .waiting | .reaped => true
  | _ => false

/-- The stages of the main queue at which no job can be under way. -/
def Main.between : Main → Bool
  | .idle | .pidClear => false
  | _ => true

structure Inv (w : World) : Prop where
  flag : w.job ≠ .none → w.imageImportInProgress = true
  between : w.main.between = true → w.job = .none
  set : w.main = .flagSet → w.imageImportInProgress = true
  clear : w.supervisor.busy = true → Clear w
  alive : w.qemuAlive = true → w.supervisor = .launched ∨ w.supervisor = .waiting
  published : w.qemuPid = false → w.supervisor ≠ .waiting ∧ w.supervisor ≠ .reaped

theorem inv_start : Inv {} :=
  ⟨fun h => absurd rfl h, nofun, nofun, nofun, nofun, fun _ => ⟨nofun, nofun⟩⟩

variable {w w' : World}

section

variable (h : Inv w)
include h

theorem Inv.supervisorMoves {supervisor : Supervisor} {pid alive : Bool}
    (hclear : supervisor.busy = true → Clear w)
    (halive : alive = true → supervisor = .launched ∨ supervisor = .waiting)
    (hpublished : pid = false → supervisor ≠ .waiting ∧ supervisor ≠ .reaped) :
    Inv { w with qemuPid := pid, qemuAlive := alive, supervisor := supervisor } := by
  refine ⟨h.flag, h.between, h.set, ?_, halive, hpublished⟩
  intro hbusy
  obtain ⟨hprogress, hjob, hmain⟩ := hclear hbusy
  exact ⟨hprogress, hjob, hmain⟩

theorem Inv.dead (hlaunched : w.supervisor ≠ .launched) (hwaiting : w.supervisor ≠ .waiting) :
    w.qemuAlive ≠ true := by
  intro halive
  obtain heq | heq := h.alive halive
  · exact hlaunched heq
  · exact hwaiting heq

/-- The supervisor goes on while no emulator runs. -/
theorem Inv.supervisorGoes {old supervisor : Supervisor} (hsup : w.supervisor = old) {pid : Bool}
    (hclear : supervisor.busy = true → Clear w)
    (hnew : supervisor ≠ .waiting ∧ supervisor ≠ .reaped := by decide)
    (hold : old ≠ .launched ∧ old ≠ .waiting := by decide) :
    Inv { w with qemuPid := pid, supervisor := supervisor } := by
  subst hsup
  exact h.supervisorMoves hclear (fun halive => absurd halive (h.dead hold.1 hold.2)) fun _ => hnew

theorem Inv.supervise {launches : Bool} (hok : w.supervisor = .guarding → w.main.starting = false)
    (hstep : w.supervise launches = some w') : Inv w' := by
  have hclear := h.clear
  cases hsup : w.supervisor <;> simp only [World.supervise, hsup] at hstep hclear
  case top =>
    cases hstep
    split <;> exact h.supervisorGoes hsup nofun
  case guarding =>
    cases hstep
    split
    · exact h.supervisorGoes hsup nofun
    · rename_i hprogress
      refine h.supervisorGoes hsup fun _ => ?_
      have hprogress : w.imageImportInProgress = false := Bool.not_eq_true _ ▸ hprogress
      refine ⟨hprogress, ?_, hok hsup⟩
      by_contra hjob
      rw [h.flag hjob] at hprogress
      cases hprogress
  case progressClear =>
    cases hstep
    split <;> exact h.supervisorGoes hsup fun _ => hclear rfl
  case passed =>
    split at hstep
    · cases hstep
      exact h.supervisorMoves (fun _ => hclear rfl) (fun _ => .inl rfl) (fun _ => ⟨nofun, nofun⟩)
    · cases hstep
      exact h.supervisorGoes hsup nofun
  case launched =>
    cases hstep
    exact h.supervisorMoves (fun _ => hclear rfl) (fun _ => .inr rfl) nofun
  case waiting =>
    split at hstep <;> cases hstep
    rename_i hdead
    exact h.supervisorMoves (fun _ => hclear rfl) (fun halive => absurd halive hdead)
      fun hpid => absurd hsup (h.published hpid).1
  case reaped =>
    cases hstep
    exact h.supervisorGoes hsup nofun
  case ended =>
    cases hstep

theorem Inv.importMoves {inProgress failed pending : Bool} {main : Main} {job : Job}
    (hclear : w.supervisor.busy = true → inProgress = false ∧ job = .none ∧ main.starting = false)
    (hflag : job ≠ .none → inProgress = true) (hbetween : main.between = true → job = .none)
    (hset : main = .flagSet → inProgress = true) :
    Inv { w with
      imageImportInProgress := inProgress, imageImportFailed := failed, main := main
      job := job, pendingSource := pending } := by
  refine ⟨hflag, hbetween, hset, ?_, h.alive, h.published⟩
  intro hbusy
  obtain ⟨hprogress, hjob, hmain⟩ := hclear hbusy
  exact ⟨hprogress, hjob, hmain⟩

theorem Inv.not_busy_of_starting (hmain : w.main.starting = true) : w.supervisor.busy ≠ true := by
  intro hbusy
  rw [(h.clear hbusy).main] at hmain
  cases hmain

theorem Inv.not_busy_of_job (hjob : w.job ≠ .none) : w.supervisor.busy ≠ true :=
  fun hbusy => hjob (h.clear hbusy).job

theorem Inv.checkPid (hlaunching : w.supervisor.launching = false) : Inv w.checkPid := by
  unfold World.checkPid
  split
  · refine h.importMoves ?_ h.flag nofun nofun
    intro hbusy
    exact ⟨(h.clear hbusy).inProgress, (h.clear hbusy).job, rfl⟩
  · rename_i hguard
    obtain ⟨-, hpid⟩ := not_or.mp hguard
    obtain ⟨hwaiting, hreaped⟩ := h.published (Bool.not_eq_true _ ▸ hpid)
    refine h.importMoves ?_ h.flag nofun nofun
    intro hbusy
    cases hsup : w.supervisor <;>
      simp_all only [Supervisor.busy, Supervisor.launching, ne_eq, not_true_eq_false,
        Bool.false_eq_true, Bool.true_eq_false]

theorem Inv.mainGo (hok : w.main = .handedOff → w.supervisor.launching = false)
    (hstep : w.mainGo = some w') : Inv w' := by
  unfold World.mainGo at hstep
  cases hmain : w.main with
  | idle =>
    simp only [hmain] at hstep
    cases hstep
  | pidClear =>
    have hidle := h.not_busy_of_starting (by rw [hmain]; rfl)
    simp only [hmain] at hstep
    split at hstep
    · cases hstep
      exact h.importMoves (absurd · hidle) h.flag nofun nofun
    · rename_i hprogress
      cases hstep
      refine h.importMoves (absurd · hidle) h.flag ?_ nofun
      intro _
      by_contra hjob
      exact hprogress (h.flag hjob)
  | progressClear =>
    have hidle := h.not_busy_of_starting (by rw [hmain]; rfl)
    have hjob := h.between (by rw [hmain]; rfl)
    simp only [hmain] at hstep
    cases hstep
    exact h.importMoves (absurd · hidle) (fun _ => rfl) (fun _ => hjob) (fun _ => rfl)
  | flagSet =>
    have hidle := h.not_busy_of_starting (by rw [hmain]; rfl)
    simp only [hmain] at hstep
    cases hstep
    exact h.importMoves (absurd · hidle) (fun _ => h.set hmain) nofun nofun
  | handingOff | completing =>
    have hjob := h.between (by rw [hmain]; rfl)
    simp only [hmain] at hstep
    cases hstep
    exact h.importMoves (fun _ => ⟨rfl, hjob, rfl⟩) (absurd hjob ·) (fun _ => hjob) nofun
  | handedOff =>
    simp only [hmain] at hstep
    cases hstep
    exact h.checkPid (hok hmain)

theorem Inv.takeFinished (hstep : w.takeFinished = some w') : Inv w' := by
  unfold World.takeFinished at hstep
  split at hstep
  · rename_i ok hmain hjob
    have hidle := h.not_busy_of_job (by rw [hjob]; exact Job.noConfusion)
    split at hstep <;> cases hstep <;>
      exact h.importMoves (absurd · hidle) (absurd rfl ·) (fun _ => rfl) nofun
  · cases hstep

theorem Inv.jobGo {ok : Bool} (hstep : w.jobGo ok = some w') : Inv w' := by
  have hrunning : w.job ≠ .none → ∀ job, Inv { w with job := job } := by
    intro hjob job
    have hidle := h.not_busy_of_job hjob
    refine h.importMoves (absurd · hidle) (fun _ => h.flag hjob) ?_ h.set
    intro hbetween
    exact absurd (h.between hbetween) hjob
  unfold World.jobGo at hstep
  split at hstep <;> cases hstep
  all_goals
    rename_i hjob
    exact hrunning (by rw [hjob]; exact Job.noConfusion) _

theorem Inv.step {a : Step} (hok : Apart w a) (hstep : w.step a = some w') : Inv w' := by
  cases a with
  | supervise launches => exact h.supervise hok hstep
  | qemuExits =>
    simp only [World.step] at hstep
    split at hstep <;> cases hstep
    exact h.supervisorMoves h.clear nofun h.published
  | importSource =>
    simp only [World.step] at hstep
    split at hstep <;> cases hstep
    exact h.checkPid hok
  | mainGo => exact h.mainGo hok hstep
  | takeFinished => exact h.takeFinished hstep
  | jobGo ok => exact h.jobGo hstep
  | shutDown =>
    cases hstep
    refine ⟨h.flag, h.between, h.set, ?_, h.alive, h.published⟩
    intro hbusy
    obtain ⟨hprogress, hjob, hmain⟩ := h.clear hbusy
    exact ⟨hprogress, hjob, hmain⟩

end

/-- In every run whose steps keep the two sections apart, no image is replaced
under a running emulator. -/
theorem image_replacement_excludes_qemu (steps : List Step) (hok : Meets World.step Apart {} steps)
    (hrun : exec World.step {} steps = some w) : ¬ ReplacedUnderQemu w := by
  have hinv : Inv w := by
    refine exec_guarded_invariant ?_ steps inv_start hok hrun
    intro w a w' hw hstepOk hstep
    exact hw.step hstepOk hstep
  rintro ⟨halive, hjob⟩
  have hbusy : w.supervisor.busy = true := by
    obtain heq | heq := hinv.alive halive <;> rw [heq] <;> rfl
  exact hinv.not_busy_of_job (by rw [hjob]; exact Job.noConfusion) hbusy

/-- The emulator runs, exits, and an import replaces the image. -/
def oneAfterTheOther : List Step :=
  [.supervise true, .supervise true, .supervise true, .supervise true, .supervise true,
    .importSource, .qemuExits, .supervise true, .supervise true, .importSource, .mainGo, .mainGo,
    .mainGo, .supervise true, .jobGo true]

theorem image_replacement_excludes_qemu_in_turn :
    ∃ w, exec World.step {} oneAfterTheOther = some w ∧ w.job = .replacing ∧
      ¬ ReplacedUnderQemu w := by
  obtain ⟨w, hrun, hjob⟩ := exists_of_map_decide
    (o := exec World.step {} oneAfterTheOther) (p := fun w => w.job = .replacing) (by decide)
  exact ⟨w, hrun, hjob, image_replacement_excludes_qemu oneAfterTheOther (by decide) hrun⟩

/-- The import looks at the pid after the guard and before the launch. -/
def importDuringLaunch : List Step :=
  [.supervise true, .supervise true, .supervise true, .importSource, .mainGo, .mainGo, .mainGo,
    .supervise true, .supervise true, .jobGo true]

/-- The supervisor loads the two flags on either side of a hand-off, and finds
each of them clear. -/
def guardDuringHandOff : List Step :=
  [.importSource, .mainGo, .mainGo, .mainGo, .importSource, .mainGo, .jobGo false, .takeFinished,
    .mainGo, .supervise true, .supervise true, .mainGo, .mainGo, .mainGo, .mainGo,
    .supervise true, .supervise true, .jobGo true]

/-- Two ways to replace the image under a running emulator. -/
theorem image_replaced_under_qemu :
    (∃ w, exec World.step {} importDuringLaunch = some w ∧ ReplacedUnderQemu w) ∧
      ∃ w, exec World.step {} guardDuringHandOff = some w ∧ ReplacedUnderQemu w :=
  ⟨exists_of_map_decide (by decide), exists_of_map_decide (by decide)⟩

end ImportExclusion
end MacMu
