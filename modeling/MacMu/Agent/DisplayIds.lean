import MacMu.Agent.PointerInput
import MacMu.Lib.TransitionSystem

/-!
The translation of display ids in `MacMuAgent`. The host names a display by its
emulator index, Android by a logical id that each new `VirtualDisplay` gets anew. The
agent keeps a cache of the ids, which it fills from `dumpsys`; its input thread and
its control thread share the cache and the monitor of the agent. `dumpsys` runs with
the monitor held, but displays come and go meanwhile: it lists those of one moment of
the call, in any order and any number of times, or fails. What the pattern finds in
its text is taken as pairs of numbers. A keyboard line holds the monitor for longer
than it does here.
-/

namespace MacMu
namespace Agent

def lineDisplay (line : JavaString) : Option Int :=
  match split line with
  | [['h'], displayId, _, _] => parseInt displayId
  | [['s'], displayId, _, _, _, _] => parseInt displayId
  | [['t'], displayId, _, _, _, _] => parseInt displayId
  | [['m'], displayId, _, _, _] => parseInt displayId
  | [['b'], displayId, _, _, _] => parseInt displayId
  | [['k'], displayId, _] => parseInt displayId
  | _ => none

/-- The Android display that a command is injected on; the end of a hover names none. -/
def PointerCommand.target {F : Type} : PointerCommand F → Option Int
  | .hover displayId _ _ | .scroll displayId _ _ _ _ | .touch displayId _ _ _ _
  | .mouseMove displayId _ _ _ | .mouseButton displayId _ _ _ => some displayId
  | .hoverExit => none

namespace DisplayIds

inductive Thread where
  | input
  | control
  deriving DecidableEq, Repr

/-- What a thread does with the cache: `handleLine`, and the commands `launchComponent`,
`displayState` and `closeComponent`. -/
inductive Job where
  | line (text : JavaString)
  | launch (displayId : Int)
  | displayState (displayId : Int)
  | close (displayId : Int)
  deriving DecidableEq, Repr

def Job.thread : Job → Thread
  | .line _ => .input
  | _ => .control

def Job.displayId : Job → Int
  | .line text => (lineDisplay text).getD 0
  | .launch displayId | .displayState displayId | .close displayId => displayId

/-- Where a thread is: before `invalidateDisplayId`, before `resolveAndroidDisplayId`,
in `refreshDisplayIdCache` before and after the moment that `dumpsys` lists, or back
with an Android display. -/
inductive Phase where
  | idle
  | invalidating (job : Job)
  | resolving (job : Job)
  | dumping (job : Job)
  | listed (job : Job) (found : List (Int × Int))
  | resolved (job : Job) (displayId : Int)
  deriving DecidableEq, Repr

/-- The thread is in `refreshDisplayIdCache`, with the monitor. -/
def Phase.inside : Phase → Bool
  | .dumping _ | .listed _ _ => true
  | _ => false

/-- A line without a display, and a launch on the default display, use no cache. -/
def Job.first : Job → Phase
  | .line text => if (lineDisplay text).isSome then .resolving (.line text) else .idle
  | .launch displayId => if displayId > 0 then .invalidating (.launch displayId) else .idle
  | .displayState displayId => .resolving (.displayState displayId)
  | .close displayId => if displayId > 0 then .invalidating (.close displayId) else .idle

def Job.afterInvalidate : Job → Phase
  | .launch displayId => .resolving (.launch displayId)
  | _ => .idle

/-- `waitForAndroidDisplayId` tries again until its time is over; a display that is
not available any more is dropped from the cache. `again` says which. -/
def Job.afterResolve (job : Job) (displayId : Int) (again : Bool) : Phase :=
  match job with
  | .launch _ => if displayId < 0 ∧ again then .resolving job else .idle
  | .close _ => .idle
  | .line _ | .displayState _ => if again then .invalidating job else .idle

def multiDisplayUniqueIdBase : Int := 1234561

abbrev Cache := Int → Option Int

/-- The entries are put one after the other: the Android display, and the number at the
end of its unique id. -/
def fill (found : List (Int × Int)) : Cache :=
  found.foldl
    (fun cache entry =>
      Function.update cache (entry.2 - multiDisplayUniqueIdBase) (some entry.1))
    fun _ => none

structure State where
  /-- The virtual displays, in the order of their creation: the index and the logical id. -/
  created : List (Int × Int)
  gone : List Int
  displayIdCache : Cache
  phase : Thread → Phase

def State.initial : State := ⟨[], [], fun _ => none, fun _ => .idle⟩

inductive Action where
  | create (index id : Int)
  | remove (id : Int)
  | start (job : Job)
  | invalidate (thread : Thread)
  | resolve (thread : Thread)
  | list (thread : Thread) (found : Option (List (Int × Int)))
  | store (thread : Thread)
  | finish (thread : Thread) (again : Bool)

namespace State

variable (s : State)

def live : List (Int × Int) := s.created.filter fun display => display.2 ∉ s.gone

/-- The logical ids of the displays that have been at an index, the last one last. -/
def idsAt (index : Int) : List Int := (s.created.filter (·.1 = index)).map Prod.snd

def free : Bool := !(s.phase .input).inside && !(s.phase .control).inside

/-- `dumpsys` lists the displays of this moment. -/
def Lists (found : List (Int × Int)) : Prop :=
  (∀ entry ∈ found, ∃ display ∈ s.live,
    entry = (display.2, multiDisplayUniqueIdBase + display.1)) ∧
  ∀ display ∈ s.live, (display.2, multiDisplayUniqueIdBase + display.1) ∈ found

instance (found : List (Int × Int)) : Decidable (s.Lists found) :=
  inferInstanceAs (Decidable (_ ∧ _))

def goTo (thread : Thread) (phase : Phase) : State :=
  { s with phase := Function.update s.phase thread phase }

theorem phase_goTo_self (thread : Thread) (phase : Phase) :
    (s.goTo thread phase).phase thread = phase := by
  simp only [goTo, Function.update_self]

theorem phase_goTo_of_ne {thread other : Thread} (h : other ≠ thread) (phase : Phase) :
    (s.goTo thread phase).phase other = s.phase other := by
  simp only [goTo, Function.update_of_ne h]

/-- `resolveAndroidDisplayId` up to its return or to `dumpsys`. -/
def resolveAndroidDisplayId (thread : Thread) (job : Job) : State :=
  if job.displayId ≤ 0 then s.goTo thread (.resolved job 0)
  else
    match s.displayIdCache job.displayId with
    | some cached => s.goTo thread (.resolved job cached)
    | none => { s.goTo thread (.dumping job) with displayIdCache := fun _ => none }

def step : Action → Option State
  | .create index id =>
    if 0 ≤ id ∧ (∀ display ∈ s.created, display.2 ≠ id) ∧
        (∀ display ∈ s.live, display.1 ≠ index) then
      some { s with created := s.created ++ [(index, id)] }
    else none
  | .remove id =>
    if ∃ display ∈ s.live, display.2 = id then some { s with gone := id :: s.gone } else none
  | .start job =>
    if s.phase job.thread = .idle then some (s.goTo job.thread job.first) else none
  | .invalidate thread =>
    match s.phase thread with
    | .invalidating job =>
      if s.free then
        some { s.goTo thread job.afterInvalidate with
          displayIdCache := Function.update s.displayIdCache job.displayId none }
      else none
    | _ => none
  | .resolve thread =>
    match s.phase thread with
    | .resolving job => if s.free then some (s.resolveAndroidDisplayId thread job) else none
    | _ => none
  | .list thread found =>
    match s.phase thread, found with
    | .dumping job, some found =>
      if s.Lists found then some (s.goTo thread (.listed job found)) else none
    | .dumping job, none => some (s.goTo thread (.listed job []))
    | _, _ => none
  | .store thread =>
    match s.phase thread with
    | .listed job found =>
      some { s.goTo thread (.resolved job ((fill found job.displayId).getD (-1))) with
        displayIdCache := fill found }
    | _ => none
  | .finish thread again =>
    match s.phase thread with
    | .resolved job displayId => some (s.goTo thread (job.afterResolve displayId again))
    | _ => none

end State

end DisplayIds
end Agent
end MacMu
