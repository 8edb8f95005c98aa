import MacMu.Core.ManifestSoundness
import MacMu.Core.ObjectAcquisition

/-!
Who has which object while the workers run. An object is in the hands of one
worker from the moment its index is taken until it has a path or the acquisition
has failed, and the objects are told apart by their hashes. So no other worker
touches a partial file between its check and its rename. The lemmas say what each
kind of move of a worker keeps.
-/

namespace MacMu
namespace ObjectAcquisition

open Function Std TransitionSystem ImageManifest ImportTools

variable {job : Job} {phase : Phase} {worker : Nat}

def Phase.job? : Phase → Option Job
  | .idle | .taking | .ended => none
  | .starting job | .probing job | .clearing job | .resuming job | .downloading job _
  | .restarting job | .checking job | .discarding job _ | .committing job _ | .rechecking job
  | .dropping job _ | .delivering job _ _ | .failing job _ | .stopping job => some job

variable (env : Setting)

def Verified (object : ObjectSpec) (bytes : List UInt8) : Prop :=
  bytes.length = object.size ∧ env.sha256 bytes = object.sha256

def PathOf (index : Nat) (object : ObjectSpec) (localPath : String) : Prop :=
  localPath = env.source index ∨ localPath = cachedPath env object

def Phase.Sound (partials : ExtTreeMap String Entry) : Phase → Prop
  | .committing job bytes =>
    Verified env job.object bytes ∧ partials[job.object.sha256]? = some (.file bytes)
  | .dropping job bytes => Verified env job.object bytes
  | .delivering job localPath bytes =>
    Verified env job.object bytes ∧ PathOf env job.index job.object localPath
  | _ => True

def Named (sha256 : String) (entry : Entry) : Prop :=
  ∃ bytes, entry = .file bytes ∧ env.sha256 bytes = sha256

structure Inv (initial : ExtTreeMap String Entry) (w : World) : Prop where
  jobs : ∀ i job, (w.workers i).job? = some job →
    env.objects[job.index]? = some job.object ∧ job.index < w.next
  apart : ∀ i j job job', (w.workers i).job? = some job → (w.workers j).job? = some job' →
    job.index = job'.index → i = j
  sound : ∀ i, (w.workers i).Sound env w.partials
  given : ∀ g ∈ w.given, g.index < w.next ∧ ∃ object, env.objects[g.index]? = some object ∧
    PathOf env g.index object g.localPath ∧ Verified env object g.bytes
  once : (w.given.map (·.index)).Nodup
  fresh : ∀ i job, (w.workers i).job? = some job → job.index ∉ w.given.map (·.index)
  covered : w.failed = false → ∀ k, k < w.next → k < env.objects.length →
    (∃ i job, (w.workers i).job? = some job ∧ job.index = k) ∨ k ∈ w.given.map (·.index)
  hired : ∀ i, w.workers i ≠ .ended → i < World.workerCount env
  exhausted : ∀ i, i < World.workerCount env → w.workers i = .ended →
    w.failed = true ∨ env.objects.length ≤ w.next
  placed : ∀ p ∈ w.placed, Named env p.sha256 p.entry
  cached : ∀ hash entry, w.cached[hash]? = some entry →
    initial[hash]? = some entry ∨ Named env hash entry

variable {env} {initial : ExtTreeMap String Entry} {w w' : World}

theorem inv_start (cached partials : ExtTreeMap String Entry) :
    Inv env cached (World.start env cached partials) := by
  have hnone : ∀ i, ((World.start env cached partials).workers i).job? = none := by
    intro i
    dsimp only [World.start]
    split <;> rfl
  refine ⟨?_, ?_, ?_, nofun, List.nodup_nil, ?_, nofun, ?_, ?_, nofun, fun _ _ h => .inl h⟩
  · intro i job h
    rw [hnone i] at h
    cases h
  · intro i j job job' h
    rw [hnone i] at h
    cases h
  · intro i
    dsimp only [World.start]
    split <;> trivial
  · intro i job h
    rw [hnone i] at h
    cases h
  · intro i h
    by_contra hi
    exact h (if_neg hi)
  · intro i hi h
    dsimp only [World.start] at h
    rw [if_pos hi] at h
    cases h

theorem Inv.sha256_ne (h : Inv env initial w) (hdistinct : Distinct env.objects) {i j : Nat}
    {job' : Job} (hi : (w.workers i).job? = some job) (hj : (w.workers j).job? = some job')
    (hne : j ≠ i) : job'.object.sha256 ≠ job.object.sha256 := by
  intro heq
  obtain ⟨hobject, -⟩ := h.jobs i job hi
  obtain ⟨hobject', -⟩ := h.jobs j job' hj
  obtain ⟨hlt', -⟩ := List.getElem?_eq_some_iff.mp hobject'
  refine hne (h.apart j i job' job hj hi ?_)
  have hlength : job'.index < (env.objects.map (·.sha256)).length := by rwa [List.length_map]
  refine (List.getElem?_inj hlength hdistinct).mp ?_
  rw [List.getElem?_map, List.getElem?_map, hobject, hobject', Option.map_some, Option.map_some,
    heq]

theorem Phase.Sound.congr {partials partials' : ExtTreeMap String Entry}
    (h : phase.Sound env partials)
    (hsame : ∀ job, phase.job? = some job →
      partials'[job.object.sha256]? = partials[job.object.sha256]?) :
    phase.Sound env partials' := by
  cases phase with
  | committing job bytes => exact ⟨h.1, (hsame job rfl).trans h.2⟩
  | _ => exact h

theorem job?_update (hsame : phase.job? = (w.workers worker).job?) (i : Nat) :
    (update w.workers worker phase i).job? = (w.workers i).job? := by
  by_cases hi : i = worker
  · rw [hi, update_self, hsame]
  · rw [update_of_ne hi]

theorem Inv.hired_update (h : Inv env initial w) (hbusy : w.workers worker ≠ .ended) :
    ∀ i, update w.workers worker phase i ≠ .ended → i < World.workerCount env :=
  (forall_update_iff w.workers (p := fun i phase => phase ≠ .ended → i < World.workerCount env)).mpr
    ⟨fun _ => h.hired worker hbusy, fun i _ => h.hired i⟩

theorem sound_update {partials : ExtTreeMap String Entry} (hsound : phase.Sound env partials)
    (hothers : ∀ i, i ≠ worker → (w.workers i).Sound env partials) :
    ∀ i, (update w.workers worker phase i).Sound env partials :=
  (forall_update_iff w.workers (p := fun _ phase => phase.Sound env partials)).mpr ⟨hsound, hothers⟩

theorem ended_of_update {i : Nat} (h : update w.workers worker phase i = .ended) :
    phase = .ended ∨ w.workers i = .ended := by
  by_cases hi : i = worker
  · rw [hi, update_self] at h
    exact .inl h
  · rw [update_of_ne hi] at h
    exact .inr h

theorem ne_ended_of_job? (hold : (w.workers worker).job? = some job) :
    w.workers worker ≠ .ended := by
  intro hended
  rw [hended] at hold
  cases hold

section

variable (h : Inv env initial w)
include h

section

variable (hdistinct : Distinct env.objects)
include hdistinct

/-- A worker goes on with its object. It may change what the cache holds of that
object, and leaves a file at the cached name only if it has the hash. -/
theorem Inv.advance {old : Phase} (hworker : w.workers worker = old)
    {cached partials : ExtTreeMap String Entry} {placed : List Placed} {firstError : String}
    (hpartials : ∀ hash, hash ≠ job.object.sha256 → partials[hash]? = w.partials[hash]?)
    (hsound : phase.Sound env partials := by trivial)
    (hcached : ∀ hash entry, cached[hash]? = some entry →
      w.cached[hash]? = some entry ∨ Named env hash entry := by exact fun _ _ hentry => .inl hentry)
    (hplaced : ∀ p ∈ placed, p ∈ w.placed ∨ Named env p.sha256 p.entry := by
      exact fun _ hp => .inl hp)
    (hold : old.job? = some job := by first | assumption | rfl)
    (hphase : phase.job? = some job := by first | assumption | rfl) :
    Inv env initial { w with
      cached := cached, partials := partials, placed := placed, firstError := firstError,
      workers := update w.workers worker phase } := by
  subst hworker
  have hjob := job?_update (hphase.trans hold.symm)
  refine ⟨?_, ?_, ?_, h.given, h.once, ?_, ?_, h.hired_update (ne_ended_of_job? hold), ?_, ?_, ?_⟩
  · intro i job' hi
    exact h.jobs i job' (hjob i ▸ hi)
  · intro i j job' job'' hi hj heq
    exact h.apart i j job' job'' (hjob i ▸ hi) (hjob j ▸ hj) heq
  · exact sound_update hsound fun i hi => (h.sound i).congr fun job' hjob' =>
      hpartials _ (h.sha256_ne hdistinct hold hjob' hi)
  · intro i job' hi
    exact h.fresh i job' (hjob i ▸ hi)
  · intro hclear k hnext hlength
    obtain ⟨i, job', hi, hk⟩ | hgiven := h.covered hclear k hnext hlength
    · exact .inl ⟨i, job', (hjob i).trans hi, hk⟩
    · exact .inr hgiven
  · intro i hi hended
    obtain rfl | hended := ended_of_update hended
    · cases hphase
    · exact h.exhausted i hi hended
  · intro p hp
    exact (hplaced p hp).elim (h.placed p) id
  · intro hash entry hentry
    exact (hcached hash entry hentry).elim (h.cached hash entry) .inr

theorem Inv.goOn {old : Phase} (hworker : w.workers worker = old)
    (hsound : phase.Sound env w.partials := by trivial)
    (hold : old.job? = some job := by rfl) (hphase : phase.job? = some job := by rfl) :
    Inv env initial (w.setWorker worker phase) :=
  h.advance hdistinct hworker (fun _ _ => rfl) hsound

theorem Inv.clearPartial {old : Phase} (hworker : w.workers worker = old) (removed : Bool)
    (hsound : ∀ partials, phase.Sound env partials)
    (hold : old.job? = some job := by rfl) (hphase : phase.job? = some job := by rfl) :
    Inv env initial ((w.clearPartial job.object removed).setWorker worker phase) := by
  cases removed with
  | false => exact h.goOn hdistinct hworker (hsound _) hold hphase
  | true =>
    refine h.advance hdistinct hworker (fun hash hne => ?_) (hsound _)
    change (w.partials.erase job.object.sha256)[hash]? = _
    rw [ExtTreeMap.getElem?_erase, if_neg fun hcmp => hne (Std.compare_eq_iff_eq.mp hcmp).symm]

end

/-- A worker without an object stays so; the counter may have moved past the end. -/
theorem Inv.rest {next : Nat} (hbusy : w.workers worker ≠ .ended)
    (hold : (w.workers worker).job? = none) (hphase : phase.job? = none) (hnext : w.next ≤ next)
    (hpast : ∀ k, w.next ≤ k → k < next → env.objects.length ≤ k)
    (hended : phase = .ended → w.failed = true ∨ env.objects.length ≤ next) :
    Inv env initial { w with next := next, workers := update w.workers worker phase } := by
  have hjob := job?_update (hphase.trans hold.symm)
  refine ⟨?_, ?_, ?_, ?_, h.once, ?_, ?_, h.hired_update hbusy, ?_, h.placed, h.cached⟩
  · intro i job hi
    obtain ⟨hobject, hlt⟩ := h.jobs i job (hjob i ▸ hi)
    exact ⟨hobject, Nat.lt_of_lt_of_le hlt hnext⟩
  · intro i j job job' hi hj heq
    exact h.apart i j job job' (hjob i ▸ hi) (hjob j ▸ hj) heq
  · refine sound_update ?_ fun i _ => h.sound i
    cases phase with
    | idle | taking | ended => trivial
    | _ => cases hphase
  · intro g hg
    obtain ⟨hlt, hobject⟩ := h.given g hg
    exact ⟨Nat.lt_of_lt_of_le hlt hnext, hobject⟩
  · intro i job hi
    exact h.fresh i job (hjob i ▸ hi)
  · intro hclear k hk hlength
    by_cases hlt : k < w.next
    · obtain ⟨i, job, hi, heq⟩ | hgiven := h.covered hclear k hlt hlength
      · exact .inl ⟨i, job, (hjob i).trans hi, heq⟩
      · exact .inr hgiven
    · exact absurd hlength (Nat.not_lt.mpr (hpast k (Nat.not_lt.mp hlt) hk))
  · intro i hi hend
    obtain hend | hend := ended_of_update hend
    · exact hended hend
    · exact (h.exhausted i hi hend).imp_right fun hle => Nat.le_trans hle hnext

theorem Inv.take {object : ObjectSpec} (hbusy : w.workers worker ≠ .ended)
    (hold : (w.workers worker).job? = none) (hobject : env.objects[w.next]? = some object) :
    Inv env initial { w with
      next := w.next + 1
      workers := update w.workers worker (.starting ⟨w.next, object⟩) } := by
  have hcases : ∀ i job, (update w.workers worker (.starting ⟨w.next, object⟩) i).job? = some job →
      (i = worker ∧ job = ⟨w.next, object⟩) ∨ (w.workers i).job? = some job := by
    intro i job hi
    by_cases hworker : i = worker
    · rw [hworker, update_self] at hi
      exact .inl ⟨hworker, (Option.some.inj hi).symm⟩
    · rw [update_of_ne hworker] at hi
      exact .inr hi
  have hother : ∀ i job, (w.workers i).job? = some job →
      (update w.workers worker (.starting ⟨w.next, object⟩) i).job? = some job := by
    intro i job hi
    rw [update_of_ne, hi]
    rintro rfl
    rw [hold] at hi
    cases hi
  refine ⟨?_, ?_, ?_, ?_, h.once, ?_, ?_, h.hired_update hbusy, ?_, h.placed, h.cached⟩
  · intro i job hi
    obtain ⟨-, rfl⟩ | hi := hcases i job hi
    · exact ⟨hobject, Nat.lt_succ_self _⟩
    · obtain ⟨hget, hlt⟩ := h.jobs i job hi
      exact ⟨hget, Nat.lt_succ_of_lt hlt⟩
  · intro i j job job' hi hj heq
    obtain ⟨rfl, rfl⟩ | hi := hcases i job hi
    · obtain ⟨rfl, -⟩ | hj := hcases j job' hj
      · rfl
      · exact absurd heq.symm (Nat.ne_of_lt (h.jobs j job' hj).2)
    · obtain ⟨-, rfl⟩ | hj := hcases j job' hj
      · exact absurd heq (Nat.ne_of_lt (h.jobs i job hi).2)
      · exact h.apart i j job job' hi hj heq
  · exact sound_update trivial fun i _ => h.sound i
  · intro g hg
    obtain ⟨hlt, hget⟩ := h.given g hg
    exact ⟨Nat.lt_succ_of_lt hlt, hget⟩
  · intro i job hi hgiven
    obtain ⟨-, rfl⟩ | hi := hcases i job hi
    · obtain ⟨g, hg, heq⟩ := List.mem_map.mp hgiven
      exact absurd heq (Nat.ne_of_lt (h.given g hg).1)
    · exact h.fresh i job hi hgiven
  · intro hclear k hk hlength
    obtain hlt | rfl := Nat.lt_succ_iff_lt_or_eq.mp hk
    · obtain ⟨i, job, hi, heq⟩ | hgiven := h.covered hclear k hlt hlength
      · exact .inl ⟨i, job, hother i job hi, heq⟩
      · exact .inr hgiven
    · refine .inl ⟨worker, ⟨w.next, object⟩, ?_, rfl⟩
      dsimp only
      rw [update_self]
      rfl
  · intro i hi hended
    obtain hended | hended := ended_of_update hended
    · cases hended
    · exact (h.exhausted i hi hended).imp_right fun hle => Nat.le_succ_of_le hle

/-- A worker is done with its object, which was given a path or made the
acquisition fail. -/
theorem Inv.release {given : List Given} {failed : Bool} (hold : (w.workers worker).job? = some job)
    (hphase : phase = .idle ∨ phase = .ended ∧ failed = true)
    (hfailed : failed = false → w.failed = false ∧ job.index ∈ given.map (·.index))
    (hgrows : w.given.map (·.index) ⊆ given.map (·.index))
    (hsub : ∀ g ∈ given, g ∈ w.given ∨ g.index = job.index ∧
      PathOf env job.index job.object g.localPath ∧ Verified env job.object g.bytes)
    (honce : (given.map (·.index)).Nodup) :
    Inv env initial { w with
      failed := failed, given := given, workers := update w.workers worker phase } := by
  have hnone : phase.job? = none := by
    obtain rfl | ⟨rfl, -⟩ := hphase <;> rfl
  have hcases : ∀ i job', (update w.workers worker phase i).job? = some job' →
      i ≠ worker ∧ (w.workers i).job? = some job' := by
    intro i job' hi
    by_cases hworker : i = worker
    · rw [hworker, update_self, hnone] at hi
      cases hi
    · rw [update_of_ne hworker] at hi
      exact ⟨hworker, hi⟩
  refine ⟨?_, ?_, ?_, ?_, honce, ?_, ?_, h.hired_update (ne_ended_of_job? hold), ?_, h.placed,
    h.cached⟩
  · intro i job' hi
    exact h.jobs i job' (hcases i job' hi).2
  · intro i j job' job'' hi hj heq
    exact h.apart i j job' job'' (hcases i job' hi).2 (hcases j job'' hj).2 heq
  · refine sound_update ?_ fun i _ => h.sound i
    obtain rfl | ⟨rfl, -⟩ := hphase <;> trivial
  · intro g hg
    obtain hg | ⟨heq, hpath, hverified⟩ := hsub g hg
    · exact h.given g hg
    · obtain ⟨hobject, hlt⟩ := h.jobs worker job hold
      rw [heq]
      exact ⟨hlt, job.object, hobject, hpath, hverified⟩
  · intro i job' hi hgiven
    obtain ⟨hworker, hi⟩ := hcases i job' hi
    obtain ⟨g, hg, heq⟩ := List.mem_map.mp hgiven
    obtain hg | ⟨hindex, -⟩ := hsub g hg
    · exact h.fresh i job' hi (List.mem_map.mpr ⟨g, hg, heq⟩)
    · exact hworker (h.apart i worker job' job hi hold (heq.symm.trans hindex))
  · intro hclear k hk hlength
    obtain ⟨hclear, hjob⟩ := hfailed hclear
    obtain ⟨i, job', hi, rfl⟩ | hgiven := h.covered hclear k hk hlength
    · by_cases hworker : i = worker
      · rw [hworker, hold] at hi
        cases hi
        exact .inr hjob
      · refine .inl ⟨i, job', ?_, rfl⟩
        dsimp only
        rw [update_of_ne hworker, hi]
    · exact .inr (hgrows hgiven)
  · intro i hi hended
    obtain rfl | hother := ended_of_update hended
    · exact .inl (hphase.resolve_left Phase.noConfusion).2
    · cases failed with
      | true => exact .inl rfl
      | false =>
        refine .inr ((h.exhausted i hi hother).resolve_left ?_)
        rw [(hfailed rfl).1]
        exact Bool.false_ne_true

theorem Inv.deliver {localPath : String} {bytes : List UInt8}
    (hphase : w.workers worker = .delivering job localPath bytes) :
    Inv env initial ({ w with
      given := w.given ++ [Given.mk job.index localPath bytes] }.setWorker worker .idle) := by
  have hold : (w.workers worker).job? = some job := by rw [hphase]; rfl
  have hsound := h.sound worker
  rw [hphase] at hsound
  refine h.release hold (.inl rfl) (fun hclear => ⟨hclear, ?_⟩) ?_ ?_ ?_
  · rw [List.map_append, List.mem_append]
    exact .inr (List.mem_singleton.mpr rfl)
  · rw [List.map_append]
    exact List.subset_append_left _ _
  · intro g hg
    obtain hg | hg := List.mem_append.mp hg
    · exact .inl hg
    · rw [List.mem_singleton.mp hg]
      exact .inr ⟨rfl, hsound.2, hsound.1⟩
  · rw [List.map_append]
    refine List.nodup_append.mpr ⟨h.once, List.nodup_singleton _, ?_⟩
    intro k hk k' hk' heq
    rw [List.mem_singleton.mp hk'] at heq
    change k = job.index at heq
    refine h.fresh worker job hold ?_
    rwa [← heq]

theorem Inv.commit (hdistinct : Distinct env.objects) {bytes : List UInt8} {entry : Entry}
    (hphase : w.workers worker = .committing job bytes)
    (hentry : w.partials[job.object.sha256]? = some entry) :
    Inv env initial ({ w with
      cached := w.cached.insert job.object.sha256 entry
      partials := w.partials.erase job.object.sha256
      placed := w.placed ++ [Placed.mk job.object.sha256 entry] }.setWorker worker
        (.delivering job (cachedPath env job.object) bytes)) := by
  have hsound := h.sound worker
  rw [hphase] at hsound
  obtain ⟨hverified, hfile⟩ := hsound
  have hnamed : Named env job.object.sha256 entry :=
    ⟨bytes, Option.some.inj (hentry.symm.trans hfile), hverified.2⟩
  refine h.advance hdistinct hphase (fun hash hne => ?_) ⟨hverified, .inr rfl⟩ ?_ fun p hp => ?_
  · dsimp only
    rw [ExtTreeMap.getElem?_erase, if_neg fun hcmp => hne (Std.compare_eq_iff_eq.mp hcmp).symm]
  · intro hash found hfound
    dsimp only at hfound
    rw [ExtTreeMap.getElem?_insert] at hfound
    split at hfound
    · rename_i hcmp
      rw [← Std.compare_eq_iff_eq.mp hcmp, ← Option.some.inj hfound]
      exact .inr hnamed
    · exact .inl hfound
  · obtain hp | hp := List.mem_append.mp hp
    · exact .inl hp
    · rw [List.mem_singleton.mp hp]
      exact .inr hnamed

end

end ObjectAcquisition
end MacMu
