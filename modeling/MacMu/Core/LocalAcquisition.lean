import MacMu.Core.ObjectAcquisition

/-!
Acquiring objects that all lie in local files. If every file passes the check of its
object, no worker fails, in whatever order they go on; and from every state they have
reached they can go on until all are joined.
-/

namespace MacMu
namespace ObjectAcquisition

open Function Std TransitionSystem ImageManifest ImportTools

def Honest (env : Setting) (contents : String → Option (List UInt8)) (w : World) : Step → Prop
  | .checkSource i content reading =>
    ∀ job, w.workers i = .starting job →
      content = contents (env.source job.index) ∧ reading = .complete
  | _ => True

section Local

variable (env : Setting) (contents : String → Option (List UInt8))

/-- Every source is a file that passes the check of its object. -/
structure Available : Prop where
  isLocal : ∀ index, startsWith (env.source index) "https://" = false
  verified : ∀ index object, env.objects[index]? = some object → ∃ bytes,
    verifyFile env.sha256 (env.source index) (contents (env.source index)) .complete object.size
      object.sha256 = .ok bytes

def Phase.Fine : Phase → Prop
  | .idle | .taking | .ended => True
  | .starting job => env.objects[job.index]? = some job.object
  | .delivering job localPath _ => localPath = env.source job.index
  | _ => False

structure World.Fine (w : World) : Prop where
  failed : w.failed = false
  workers : ∀ i, (w.workers i).Fine env
  given : ∀ g ∈ w.given, g.localPath = env.source g.index

variable {env contents} {w w' : World}

theorem World.Fine.setWorker (h : w.Fine env) {i : Nat} {phase : Phase} (hphase : phase.Fine env) :
    (w.setWorker i phase).Fine env := by
  refine ⟨h.failed, fun j => ?_, h.given⟩
  dsimp only [World.setWorker]
  by_cases heq : j = i
  · rw [heq, update_self]
    exact hphase
  · rw [update_of_ne heq]
    exact h.workers j

theorem World.Fine.start (env : Setting) (cached partials : ExtTreeMap String Entry) :
    (World.start env cached partials).Fine env := by
  refine ⟨rfl, fun i => ?_, nofun⟩
  dsimp only [World.start]
  split <;> trivial

theorem World.Fine.step (h : w.Fine env) (havailable : Available env contents) {a : Step}
    (hhonest : Honest env contents w a) (hstep : w.step env a = some w') : w'.Fine env := by
  cases a with
  | loop i =>
    dsimp only [World.step] at hstep
    split at hstep <;> cases hstep
    refine h.setWorker ?_
    rw [h.failed]
    trivial
  | take i =>
    dsimp only [World.step] at hstep
    split at hstep
    · have hnext : World.Fine env { w with next := w.next + 1 } := ⟨h.failed, h.workers, h.given⟩
      split at hstep
      · cases hstep
        exact hnext.setWorker trivial
      · rename_i object hobject
        cases hstep
        exact hnext.setWorker hobject
    · cases hstep
  | checkSource i content reading =>
    dsimp only [World.step] at hstep
    split at hstep
    · rename_i job hphase
      obtain ⟨rfl, rfl⟩ := hhonest job hphase
      have hjob := h.workers i
      rw [hphase] at hjob
      obtain ⟨bytes, hverify⟩ := havailable.verified job.index job.object hjob
      rw [if_neg (by rw [Setting.remote, havailable.isLocal]; exact Bool.false_ne_true),
        hverify] at hstep
      cases hstep
      exact h.setWorker rfl
    · cases hstep
  | deliver i =>
    dsimp only [World.step] at hstep
    split at hstep <;> cases hstep
    rename_i job localPath bytes hphase
    have hpath := h.workers i
    rw [hphase] at hpath
    have hgiven : World.Fine env { w with given := w.given ++ [⟨job.index, localPath, bytes⟩] } := by
      refine ⟨h.failed, h.workers, fun g hg => ?_⟩
      rcases List.mem_append.mp hg with hg | hg
      · exact h.given g hg
      · rw [List.mem_singleton.mp hg]
        exact hpath
    exact hgiven.setWorker trivial
  | createCache i error =>
    dsimp only [World.step] at hstep
    split at hstep
    · rename_i job hphase
      rw [if_neg (by rw [Setting.remote, havailable.isLocal]; exact Bool.false_ne_true)] at hstep
      cases hstep
    · cases hstep
  | probeCached i | removeCached i | probePartial i | write i | downloaded i | removePartial i
  | checkPartial i | commit i | recheckCached i | report i | stop i =>
    have hphase := h.workers i
    dsimp only [World.step] at hstep
    split at hstep <;> first
      | (rename_i hworker; rw [hworker] at hphase; exact hphase.elim)
      | cases hstep

theorem World.Fine.result (h : w.Fine env) : w.result = .ok () := by
  rw [World.result, h.failed]
  rfl

end Local

section Ends

/-- The steps that a worker still has to take for the object it has. -/
def Phase.weight : Phase → Nat
  | .starting _ => 5
  | .delivering .. => 4
  | .idle => 2
  | .taking => 1
  | _ => 0

variable (env : Setting)

def World.remaining (w : World) : Nat :=
  6 * (env.objects.length - w.next) + ∑ i ∈ Finset.range (World.workerCount env), (w.workers i).weight

variable {env} {contents : String → Option (List UInt8)} {w w' : World}

theorem remaining_setWorker (w : World) {i : Nat} (hi : i < World.workerCount env) (phase : Phase) :
    (w.setWorker i phase).remaining env + (w.workers i).weight =
      w.remaining env + phase.weight := by
  have hmem : i ∈ Finset.range (World.workerCount env) := Finset.mem_range.mpr hi
  have hrest : ∑ j ∈ (Finset.range (World.workerCount env)).erase i,
        ((w.setWorker i phase).workers j).weight =
      ∑ j ∈ (Finset.range (World.workerCount env)).erase i, (w.workers j).weight := by
    refine Finset.sum_congr rfl fun j hj => ?_
    dsimp only [World.setWorker]
    rw [update_of_ne (Finset.ne_of_mem_erase hj)]
  have hself : (w.setWorker i phase).workers i = phase := update_self ..
  rw [World.remaining, World.remaining, ← Finset.add_sum_erase _ _ hmem,
    ← Finset.add_sum_erase _ (fun j => (w.workers j).weight) hmem, hrest, hself]
  change 6 * (env.objects.length - w.next) + _ + _ = _
  omega

theorem World.Fine.progress (h : w.Fine env) (havailable : Available env contents) {i : Nat}
    (hi : i < World.workerCount env) (hphase : w.workers i ≠ .ended) : ∃ a w',
    Honest env contents w a ∧ w.step env a = some w' ∧ w'.remaining env < w.remaining env := by
  have hfine := h.workers i
  have hless : ∀ phase : Phase, phase.weight < (w.workers i).weight →
      (w.setWorker i phase).remaining env < w.remaining env := by
    intro phase hweight
    have hsum := remaining_setWorker w hi phase
    omega
  cases hworker : w.workers i with
  | idle =>
    rw [hworker] at hless
    refine ⟨.loop i, w.setWorker i .taking, trivial, ?_, hless _ (by decide)⟩
    simp only [World.step, hworker, h.failed]
    rfl
  | taking =>
    let taken : World := { w with next := w.next + 1 }
    have hsum : ∀ phase, (taken.setWorker i phase).remaining env + 1 =
        taken.remaining env + phase.weight := by
      intro phase
      have hsum := remaining_setWorker taken hi phase
      rw [show taken.workers i = .taking from hworker] at hsum
      exact hsum
    cases hobject : env.objects[w.next]? with
    | none =>
      refine ⟨.take i, taken.setWorker i .ended, trivial, ?_, ?_⟩
      · simp only [World.step, hworker, hobject]
        rfl
      · have htaken : taken.remaining env ≤ w.remaining env := by
          refine Nat.add_le_add_right (Nat.mul_le_mul_left 6 ?_) _
          exact Nat.sub_le_sub_left (Nat.le_succ _) _
        have hended := hsum .ended
        simp only [Phase.weight] at hended
        omega
    | some object =>
      refine ⟨.take i, taken.setWorker i (.starting ⟨w.next, object⟩), trivial, ?_, ?_⟩
      · simp only [World.step, hworker, hobject]
        rfl
      · obtain ⟨hlt, -⟩ := List.getElem?_eq_some_iff.mp hobject
        have htaken : taken.remaining env + 6 = w.remaining env := by
          have hcount : 6 * (env.objects.length - (w.next + 1)) + 6 =
              6 * (env.objects.length - w.next) := by omega
          rw [World.remaining, World.remaining, ← hcount, Nat.add_right_comm]
        have hstarting := hsum (.starting ⟨w.next, object⟩)
        simp only [Phase.weight] at hstarting
        omega
  | starting job =>
    rw [hworker] at hless hfine
    obtain ⟨bytes, hverify⟩ := havailable.verified job.index job.object hfine
    refine ⟨.checkSource i (contents (env.source job.index)) .complete,
      w.setWorker i (.delivering job (env.source job.index) bytes), ?_, ?_, hless _ (Nat.lt_succ_self 4)⟩
    · intro other hother
      cases hworker.symm.trans hother
      exact ⟨rfl, rfl⟩
    · have hremote : env.remote job = false := havailable.isLocal ..
      simp only [World.step, hworker, hremote, hverify]
      rfl
  | delivering job localPath bytes =>
    rw [hworker] at hless
    let delivered : World := { w with given := w.given ++ [⟨job.index, localPath, bytes⟩] }
    refine ⟨.deliver i, delivered.setWorker i .idle, trivial, ?_, hless .idle (by simp [Phase.weight])⟩
    simp only [World.step, hworker]
    rfl
  | ended => exact absurd hworker hphase
  | _ =>
    rw [hworker] at hfine
    exact hfine.elim

theorem World.Fine.joins (h : w.Fine env) (havailable : Available env contents) : ∃ steps w',
    Meets (World.step env) (Honest env contents) w steps ∧
      exec (World.step env) w steps = some w' ∧ w'.Joined env := by
  induction hbound : w.remaining env using Nat.strongRecOn generalizing w with
  | ind bound ih =>
    by_cases hjoined : w.Joined env
    · exact ⟨[], w, trivial, rfl, hjoined⟩
    · obtain ⟨i, hi⟩ := not_forall.mp hjoined
      obtain ⟨hi, hphase⟩ := Classical.not_imp.mp hi
      obtain ⟨a, next, hhonest, hstep, hless⟩ := h.progress havailable hi hphase
      obtain ⟨steps, w', hmeets, hrun, hjoined'⟩ :=
        ih _ (hbound ▸ hless) (h.step havailable hhonest hstep) rfl
      refine ⟨a :: steps, w', ⟨hhonest, fun other hother => ?_⟩, ?_, hjoined'⟩
      · cases hstep.symm.trans hother
        exact hmeets
      · rw [exec_cons_of_step hstep]
        exact hrun

end Ends

end ObjectAcquisition
end MacMu
