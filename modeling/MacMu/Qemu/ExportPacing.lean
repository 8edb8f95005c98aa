import MacMu.Qemu.DisplayStreaming
import Mathlib

/-!
The pacing of the exports: what `set_display_streaming` does to `mStreamingDisplays`, and the
passes of `stream_loop`. Each section under `mStreamMutex` is a step with a reading of the
steady clock, which does not go back, and the sections come in any order. Times are
nanoseconds and have no bound; `time_point::max()` is `none`. The threads, the hooks of the
renderer and the export at once of a display that was not streamed are left out.

`passes` is history that no step reads.
-/

namespace MacMu
namespace ExportPacing

open Std TransitionSystem DisplayStreaming

def streamInterval (framesPerSecond : UInt32) : Int :=
  (1000000000 / (normalizeStreamFps framesPerSecond).toNat : Nat)

structure DisplayStreamState where
  maximumFramesPerSecond : UInt32
  nextExport : Int
  deriving DecidableEq, Repr

abbrev Streams := ExtTreeMap UInt32 DisplayStreamState

def setDisplayStreaming (now : Int) (streams : Streams) (displayId : UInt32) (enabled : Bool)
    (requestedFramesPerSecond : UInt32) : Streams :=
  if displayId = 0 then streams
  else if enabled then
    let maximumFramesPerSecond := normalizeStreamFps requestedFramesPerSecond
    let nextExport := now + streamInterval maximumFramesPerSecond
    match streams[displayId]? with
    | none => streams.insert displayId ⟨maximumFramesPerSecond, nextExport⟩
    | some stream =>
      if stream.maximumFramesPerSecond ≠ maximumFramesPerSecond then
        streams.insert displayId ⟨maximumFramesPerSecond, nextExport⟩
      else streams
  else streams.erase displayId

/-- A missed deadline is skipped: the next one is counted from the pass. -/
def DisplayStreamState.visit (now : Int) (state : DisplayStreamState) : DisplayStreamState :=
  if state.nextExport ≤ now then
    { state with nextExport := now + streamInterval state.maximumFramesPerSecond }
  else state

/-- The loop over the streams that are left, with `nextWake` and `displaysToExport` so far. -/
def scan (now : Int) : List (UInt32 × DisplayStreamState) → Option Int → List UInt32 →
    Option Int × List UInt32
  | [], nextWake, displaysToExport => (nextWake, displaysToExport)
  | (displayId, state) :: rest, nextWake, displaysToExport =>
    let displaysToExport :=
      if state.nextExport ≤ now then displaysToExport ++ [displayId] else displaysToExport
    let state := state.visit now
    let nextWake :=
      if nextWake.all (state.nextExport < ·) then some state.nextExport else nextWake
    scan now rest nextWake displaysToExport

inductive Outcome where
  | exports (displaysToExport : List UInt32)
  | waits (nextWake : Option Int)
  deriving DecidableEq, Repr

structure Pass where
  now : Int
  outcome : Outcome
  deriving DecidableEq, Repr

def Pass.exported (pass : Pass) : List UInt32 :=
  match pass.outcome with
  | .exports displaysToExport => displaysToExport
  | .waits _ => []

def streamPass (now : Int) (streams : Streams) : Pass :=
  let (nextWake, displaysToExport) := scan now streams.toList none []
  ⟨now, if displaysToExport = [] then .waits nextWake else .exports displaysToExport⟩

structure World where
  now : Int
  running : Bool
  streamingDisplays : Streams
  passes : List Pass

inductive Action where
  | setDisplayStreaming (displayId : UInt32) (enabled : Bool) (requestedFramesPerSecond : UInt32)
  | pass
  | stop
  | stopStreamThread
  deriving DecidableEq, Repr

namespace World

variable (w : World)

def act : Action → Option World
  | .setDisplayStreaming displayId enabled requestedFramesPerSecond =>
    some { w with
      streamingDisplays := setDisplayStreaming w.now w.streamingDisplays displayId enabled
        requestedFramesPerSecond }
  | .pass =>
    if w.running = true ∧ w.streamingDisplays ≠ ∅ then
      some { w with
        streamingDisplays := w.streamingDisplays.map fun _ state => state.visit w.now
        passes := w.passes ++ [streamPass w.now w.streamingDisplays] }
    else none
  | .stop => some { w with running := false }
  | .stopStreamThread => some { w with streamingDisplays := ∅ }

def step (s : Int × Action) : Option World :=
  if s.1 < w.now then none else { w with now := s.1 }.act s.2

end World

section Passes

variable (now : Int) (streams : Streams)

theorem scan_eq (entries : List (UInt32 × DisplayStreamState)) (nextWake : Option Int)
    (displaysToExport : List UInt32) :
    scan now entries nextWake displaysToExport =
      ((nextWake.toList ++ entries.map fun e => (e.2.visit now).nextExport).min?,
        displaysToExport ++ (entries.filter fun e => e.2.nextExport ≤ now).map Prod.fst) := by
  induction entries generalizing nextWake displaysToExport with
  | nil => cases nextWake <;> simp [scan]
  | cons entry rest ih =>
    rw [scan, ih]
    congr 1
    · cases nextWake with
      | none => rfl
      | some wake =>
        -- the first two deadlines give way to the earlier one
        change _ = some (rest.map _ |>.foldl min (min wake (entry.2.visit now).nextExport))
        by_cases hless : (entry.2.visit now).nextExport < wake
        · simp [hless, min_eq_right hless.le, List.min?]
        · simp [hless, min_eq_left (Int.not_lt.mp hless), List.min?]
    · by_cases hdue : entry.2.nextExport ≤ now <;> simp [hdue]

theorem streamPass_exported : (streamPass now streams).exported =
    (streams.toList.filter fun e => e.2.nextExport ≤ now).map Prod.fst := by
  rw [streamPass, scan_eq, List.nil_append]
  generalize (streams.toList.filter _).map Prod.fst = due
  by_cases hdue : due = [] <;> simp [hdue, Pass.exported]

variable {now streams}

theorem mem_exported {d : UInt32} : d ∈ (streamPass now streams).exported ↔
    ∃ state, streams[d]? = some state ∧ state.nextExport ≤ now := by
  simp [streamPass_exported, ExtTreeMap.mem_toList_iff_getElem?_eq_some]

theorem streamPass_outcome (hsome : streams ≠ ∅) (hnone : (streamPass now streams).exported = []) :
    ∃ t, (streamPass now streams).outcome = .waits (some t) ∧
      IsLeast {t | ∃ e ∈ streams.toList, e.2.nextExport = t} t := by
  rw [streamPass_exported] at hnone
  have hlater : ∀ e ∈ streams.toList, ¬e.2.nextExport ≤ now := by simpa using hnone
  have hkept : (streams.toList.map fun e => (e.2.visit now).nextExport) =
      streams.toList.map fun e => e.2.nextExport :=
    List.map_congr_left fun e he => by rw [DisplayStreamState.visit, if_neg (hlater e he)]
  rw [streamPass, scan_eq, hkept, hnone]
  cases hmin : (streams.toList.map fun e => e.2.nextExport).min? with
  | none => simp_all
  | some t =>
    obtain ⟨hmem, hle⟩ := List.min?_eq_some_iff.mp hmin
    refine ⟨t, ?_, List.mem_map.mp hmem, fun t' ht' => hle t' (List.mem_map.mpr ht')⟩
    simp [hmin]

end Passes

section Normalized

variable (requested : UInt32)

theorem normalizeStreamFps_bounds :
    1 ≤ (normalizeStreamFps requested).toNat ∧ (normalizeStreamFps requested).toNat ≤ 1000 := by
  unfold normalizeStreamFps kDefaultDisplayStreamFps kMaximumDisplayStreamFps
  split
  · decide
  · split
    · decide
    · rename_i hzero hmost
      have hmost : requested.toNat ≤ 1000 := UInt32.le_iff_toNat_le.mp (UInt32.not_lt.mp hmost)
      exact ⟨Nat.pos_of_ne_zero fun h => hzero (UInt32.toNat_inj.mp h), hmost⟩

theorem streamInterval_normalize :
    streamInterval (normalizeStreamFps requested) = streamInterval requested := by
  have hidem : normalizeStreamFps (normalizeStreamFps requested) = normalizeStreamFps requested := by
    unfold normalizeStreamFps
    split
    · rfl
    · split
      · rfl
      · simp [*]
  rw [streamInterval, hidem, streamInterval]

end Normalized

/-- When a display was exported. -/
def exportTimes (d : UInt32) (passes : List Pass) : List Int :=
  (passes.filter fun pass => d ∈ pass.exported).map Pass.now

theorem exportTimes_streamPass (d : UInt32) (now : Int) (streams : Streams) :
    exportTimes d [streamPass now streams] =
      if d ∈ (streamPass now streams).exported then [now] else [] := by
  simp only [exportTimes, List.filter_cons, decide_eq_true_iff]
  split <;> rfl

def Apart (requested : UInt32) (t t' : Int) : Prop := t + streamInterval requested ≤ t'

/-- The action asks for no other rate of the display. -/
def Action.Keeps (d requested : UInt32) : Action → Prop
  | .setDisplayStreaming displayId enabled requested' =>
    displayId = d → enabled = true → normalizeStreamFps requested' = normalizeStreamFps requested
  | .pass | .stop | .stopStreamThread => True

instance (d requested : UInt32) : DecidablePred (Action.Keeps d requested)
  | .setDisplayStreaming .. => inferInstanceAs (Decidable (_ → _ → _))
  | .pass | .stop | .stopStreamThread => isTrue trivial

/-- The display is not due before an interval has passed since `last`. -/
structure Paced (d requested : UInt32) (last : Int) (w : World) : Prop where
  last_le : last ≤ w.now
  stream : ∀ state, w.streamingDisplays[d]? = some state →
    state.maximumFramesPerSecond = normalizeStreamFps requested ∧
      Apart requested last state.nextExport

namespace Paced

variable {d requested : UInt32} {last : Int} {w w' : World}

theorem set (h : Paced d requested last w) {displayId requested' : UInt32} {enabled : Bool}
    (hkeeps : (Action.setDisplayStreaming displayId enabled requested').Keeps d requested) :
    Paced d requested last { w with
      streamingDisplays :=
        setDisplayStreaming w.now w.streamingDisplays displayId enabled requested' } := by
  refine ⟨h.last_le, fun state hstate => ?_⟩
  have hinsert : enabled = true → (w.streamingDisplays.insert displayId
      ⟨normalizeStreamFps requested',
        w.now + streamInterval (normalizeStreamFps requested')⟩)[d]? = some state →
      state.maximumFramesPerSecond = normalizeStreamFps requested ∧
        Apart requested last state.nextExport := by
    intro henabled hinserted
    rw [ExtTreeMap.getElem?_insert] at hinserted
    split at hinserted
    · rename_i heq
      cases hinserted
      have hrate := hkeeps (Std.compare_eq_iff_eq.mp heq) henabled
      rw [hrate, streamInterval_normalize]
      exact ⟨rfl, Int.add_le_add_right h.last_le _⟩
    · exact h.stream state hinserted
  dsimp only [setDisplayStreaming] at hstate
  split at hstate
  · exact h.stream state hstate
  · split at hstate
    · rename_i henabled
      split at hstate
      · exact hinsert henabled hstate
      · split at hstate
        · exact hinsert henabled hstate
        · exact h.stream state hstate
    · rw [ExtTreeMap.getElem?_erase] at hstate
      split at hstate
      · cases hstate
      · exact h.stream state hstate

/-- A pass exports the display, an interval after `last`, or leaves its deadline as it is. -/
theorem pass (h : Paced d requested last w) {passes : List Pass} :
    ∃ last', Paced d requested last' { w with
        streamingDisplays := w.streamingDisplays.map fun _ state => state.visit w.now
        passes := passes } ∧
      (d ∉ (streamPass w.now w.streamingDisplays).exported ∧ last' = last ∨
        d ∈ (streamPass w.now w.streamingDisplays).exported ∧ last' = w.now ∧
          Apart requested last w.now) := by
  by_cases hmem : d ∈ (streamPass w.now w.streamingDisplays).exported
  · obtain ⟨old, hold, hreached⟩ := mem_exported.mp hmem
    obtain ⟨hrate, hlast⟩ := h.stream old hold
    refine ⟨w.now, ⟨Int.le_refl _, fun state hstate => ?_⟩, .inr ⟨hmem, rfl, hlast.trans hreached⟩⟩
    rw [ExtTreeMap.getElem?_map, hold] at hstate
    cases hstate
    simp [DisplayStreamState.visit, hreached, hrate, streamInterval_normalize, Apart]
  · refine ⟨last, ⟨h.last_le, fun state hstate => ?_⟩, .inl ⟨hmem, rfl⟩⟩
    rw [ExtTreeMap.getElem?_map] at hstate
    obtain ⟨old, hold, rfl⟩ := Option.map_eq_some_iff.mp hstate
    have hlater : ¬old.nextExport ≤ w.now := fun hle => hmem (mem_exported.mpr ⟨old, hold, hle⟩)
    rw [DisplayStreamState.visit, if_neg hlater]
    exact h.stream old hold

theorem step {s : Int × Action} (hkeeps : s.2.Keeps d requested) (hstep : w.step s = some w') :
    ∃ passes, w'.passes = w.passes ++ passes ∧ ∀ last, Paced d requested last w →
      ∃ last', Paced d requested last' w' ∧ ∀ more, (last' :: more).IsChain (Apart requested) →
        (last :: (exportTimes d passes ++ more)).IsChain (Apart requested) := by
  obtain ⟨now, action⟩ := s
  dsimp only [World.step] at hstep
  split at hstep
  · cases hstep
  · rename_i hback
    have hlater : ∀ last, Paced d requested last w → Paced d requested last { w with now := now } :=
      fun last h => ⟨h.last_le.trans (Int.not_lt.mp hback), h.stream⟩
    cases action with
    | setDisplayStreaming displayId enabled requested' =>
      cases hstep
      exact ⟨[], (List.append_nil _).symm, fun last h =>
        ⟨last, (hlater last h).set hkeeps, fun _ hmore => hmore⟩⟩
    | pass =>
      dsimp only [World.act] at hstep
      split at hstep <;> cases hstep
      refine ⟨[streamPass now w.streamingDisplays], rfl, fun last h => ?_⟩
      obtain ⟨last', hpaced, hcases⟩ := (hlater last h).pass
      refine ⟨last', hpaced, fun more hmore => ?_⟩
      rw [exportTimes_streamPass]
      rcases hcases with ⟨hmem, rfl⟩ | ⟨hmem, rfl, hapart⟩
      · rw [if_neg hmem]
        exact hmore
      · rw [if_pos hmem]
        exact List.isChain_cons_cons.mpr ⟨hapart, hmore⟩
    | stop =>
      cases hstep
      exact ⟨[], (List.append_nil _).symm, fun last h =>
        ⟨last, ⟨(hlater last h).last_le, h.stream⟩, fun _ hmore => hmore⟩⟩
    | stopStreamThread =>
      cases hstep
      exact ⟨[], (List.append_nil _).symm, fun last h =>
        ⟨last, ⟨(hlater last h).last_le, by simp⟩, fun _ hmore => hmore⟩⟩

theorem run {steps : List (Int × Action)} (hkeeps : ∀ s ∈ steps, s.2.Keeps d requested)
    (hrun : exec World.step w steps = some w') :
    ∃ passes, w'.passes = w.passes ++ passes ∧ ∀ last, Paced d requested last w →
      (last :: exportTimes d passes).IsChain (Apart requested) := by
  induction steps generalizing w with
  | nil =>
    cases hrun
    exact ⟨[], (List.append_nil _).symm, fun last _ => List.isChain_singleton _⟩
  | cons s steps ih =>
    obtain ⟨u, hstep, hrest⟩ := Option.bind_eq_some_iff.mp hrun
    obtain ⟨passes, hpasses, hpaced⟩ := step (hkeeps s List.mem_cons_self) hstep
    obtain ⟨more, hmore, hchain⟩ := ih (fun s hs => hkeeps s (List.mem_cons_of_mem _ hs)) hrest
    refine ⟨passes ++ more, by rw [hmore, hpasses, List.append_assoc], fun last h => ?_⟩
    obtain ⟨last', h', hextend⟩ := hpaced last h
    rw [exportTimes, List.filter_append, List.map_append]
    exact hextend _ (hchain last' h')

/-- A deadline is as if the display had been exported an interval before it. -/
theorem of_rate (hrate : ∀ state ∈ w.streamingDisplays[d]?,
    state.maximumFramesPerSecond = normalizeStreamFps requested) :
    ∃ last, Paced d requested last w := by
  cases hstream : w.streamingDisplays[d]? with
  | none => exact ⟨w.now, Int.le_refl _, by simp [hstream]⟩
  | some state =>
    refine ⟨min w.now (state.nextExport - streamInterval requested), min_le_left _ _, ?_⟩
    intro state' hstate'
    cases hstream.symm.trans hstate'
    have hle := min_le_right w.now (state.nextExport - streamInterval requested)
    exact ⟨hrate state hstream, Int.add_le_of_le_sub_right hle⟩

theorem of_enabled {w₀ : World} {now : Int} (hnew : d ∉ w₀.streamingDisplays)
    (hstep : w₀.step (now, .setDisplayStreaming d true requested) = some w) :
    Paced d requested now w := by
  dsimp only [World.step, World.act] at hstep
  split at hstep <;> cases hstep
  have hpaced : Paced d requested now { w₀ with now := now } := by
    refine ⟨Int.le_refl _, fun state hstate => ?_⟩
    exact absurd (ExtTreeMap.mem_iff_isSome_getElem?.mpr (by simp_all)) hnew
  exact hpaced.set fun _ _ => rfl

end Paced

/-- Two passes that export a display are an interval of its rate apart, and the first is that
long after the display was enabled, whatever is asked for other displays. A pass exports the
displays that are due, or waits for the earliest deadline. -/
theorem export_pacing (w : World) :
    (∀ requested, 1 ≤ (normalizeStreamFps requested).toNat ∧
      (normalizeStreamFps requested).toNat ≤ 1000) ∧
    (∀ d requested steps w', exec World.step w steps = some w' →
      (∀ s ∈ steps, s.2.Keeps d requested) → ∃ passes, w'.passes = w.passes ++ passes ∧
        ((∀ state ∈ w.streamingDisplays[d]?,
            state.maximumFramesPerSecond = normalizeStreamFps requested) →
          (exportTimes d passes).IsChain (Apart requested)) ∧
        ∀ (w₀ : World) now, d ∉ w₀.streamingDisplays →
          w₀.step (now, .setDisplayStreaming d true requested) = some w →
            ∀ t ∈ (exportTimes d passes).head?, Apart requested now t) ∧
    ∀ now w', w.step (now, .pass) = some w' → ∃ pass, w'.passes = w.passes ++ [pass] ∧
      pass.now = now ∧
      pass.exported =
        (w.streamingDisplays.toList.filter fun e => e.2.nextExport ≤ now).map Prod.fst ∧
      (pass.exported = [] → ∃ t, pass.outcome = .waits (some t) ∧
        IsLeast {t | ∃ e ∈ w.streamingDisplays.toList, e.2.nextExport = t} t) := by
  refine ⟨normalizeStreamFps_bounds, ?_, ?_⟩
  · intro d requested steps w' hrun hkeeps
    obtain ⟨passes, hpasses, hchain⟩ := Paced.run hkeeps hrun
    refine ⟨passes, hpasses, fun hrate => ?_, fun w₀ now hnew hstep => ?_⟩
    · obtain ⟨last, hpaced⟩ := Paced.of_rate hrate
      exact (List.isChain_cons.mp (hchain last hpaced)).2
    · exact (List.isChain_cons.mp (hchain now (Paced.of_enabled hnew hstep))).1
  · intro now w' hstep
    dsimp only [World.step, World.act] at hstep
    split at hstep
    · cases hstep
    · split at hstep <;> cases hstep
      rename_i hsome
      exact ⟨_, rfl, rfl, streamPass_exported .., streamPass_outcome hsome.2⟩

namespace Sample

def start : World := ⟨0, true, ∅, []⟩

/-- The rate of display 1 is asked for again, and display 2 comes and goes. -/
def steps : List (Int × Action) :=
  [(0, .pass), (10, .setDisplayStreaming 2 true 0), (600000, .setDisplayStreaming 1 true 5000),
    (1000000, .pass), (1000000, .pass), (2500000, .setDisplayStreaming 2 false 0), (2500000, .pass)]

end Sample

theorem export_pacing_sent_again : ∃ w w',
    Sample.start.step (0, .setDisplayStreaming 1 true 1000) = some w ∧
      exec World.step w Sample.steps = some w' ∧ exportTimes 1 w'.passes = [1000000, 2500000] ∧
      (exportTimes 1 w'.passes).IsChain (Apart 1000) := by
  obtain ⟨w, hstep, hpasses, hrate⟩ : ∃ w,
      Sample.start.step (0, .setDisplayStreaming 1 true 1000) = some w ∧ w.passes = [] ∧
        w.streamingDisplays[(1 : UInt32)]? = some ⟨1000, 1000000⟩ :=
    exists_of_map_decide (by decide +kernel)
  obtain ⟨w', hrun, htimes⟩ : ∃ w', (Sample.start.step (0, .setDisplayStreaming 1 true 1000)).bind
      (exec World.step · Sample.steps) = some w' ∧ exportTimes 1 w'.passes = [1000000, 2500000] :=
    exists_of_map_decide (by decide +kernel)
  rw [hstep, Option.bind_some] at hrun
  obtain ⟨passes, hpasses', hchain, -⟩ :=
    (export_pacing w).2.1 1 1000 Sample.steps w' hrun (by decide)
  rw [hpasses, List.nil_append] at hpasses'
  refine ⟨w, w', hstep, hrun, htimes, hpasses' ▸ hchain fun state hstate => ?_⟩
  cases hrate.symm.trans hstate
  rfl

end ExportPacing
end MacMu
