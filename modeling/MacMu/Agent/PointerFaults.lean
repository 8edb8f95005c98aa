import MacMu.Agent.PointerStreams
import MacMu.Lib.TransitionSystem

/-!
The pointer input of `MacMuAgent` when an injection may throw. The calls of
`injectInputEvent` are counted, and `throws` says which of them do. What a function
has changed before the throwing call stays changed, and what comes after it is not
done. `handleHost` drops what a line throws and resets the pointers at the end, also
when reading fails; the reset may throw as well. If no call throws, this is the input
of `PointerInput`.
-/

namespace MacMu
namespace Agent

open TransitionSystem

variable {F : Type}

structure Calls (F : Type) where
  pointers : PointerState F
  made : Nat
  deriving DecidableEq, Repr

abbrev Attempt (F : Type) := ExceptT Unit (StateM (Calls F))

namespace Attempt

def pointers : Attempt F (PointerState F) := Calls.pointers <$> get

def update (f : PointerState F → PointerState F) : Attempt F Unit :=
  modify fun calls => { calls with pointers := f calls.pointers }

variable (throws : Nat → Bool)

def inject (event : InputEvent F) : Attempt F Unit := do
  let calls ← get
  set { calls with made := calls.made + 1 }
  if throws calls.made then throw () else update (·.inject event)

/-- A pointer that is held is released: first the event, then the state. -/
def release (held : PointerState F → Bool) (event : PointerState F → InputEvent F)
    (clear : PointerState F → PointerState F) : Attempt F Unit := do
  let s ← pointers
  if held s then
    inject throws (event s)
    update clear

def injectHoverExitLocked (now : Int) : Attempt F Unit :=
  release throws (·.hoverActive)
    (fun s => .motion s.hoverDisplayId .hoverExit s.hoverX s.hoverY 0 now)
    fun s => { s with hoverActive := false, hoverDisplayId := -1 }

def leaveHover (now displayId : Int) : Attempt F Unit := do
  let s ← pointers
  if s.hoverActive ∧ displayId ≠ s.hoverDisplayId then injectHoverExitLocked throws now

def startHover (now displayId : Int) (x y : F) : Attempt F Unit := do
  let s ← pointers
  if s.hoverActive then pure ()
  else
    inject throws (.motion displayId .hoverEnter x y 0 now)
    update fun s => { s with hoverActive := true }

def injectHover (now displayId : Int) (x y : F) : Attempt F Unit :=
  if displayId < 0 then pure ()
  else do
    leaveHover throws now displayId
    startHover throws now displayId x y
    update fun s => { s with hoverDisplayId := displayId, hoverX := x, hoverY := y }
    inject throws (.motion displayId .hoverMove x y 0 now)

def touchCancel (s : PointerState F) : InputEvent F :=
  .touch s.touchDisplayId s.touchPointerId s.touchDownTime .cancel s.touchX s.touchY

def replaceTouch : Attempt F Unit := do
  let s ← pointers
  if s.touchActive then inject throws (touchCancel s)

def beginTouch (now displayId pointerId : Int) (x y : F) : Attempt F Unit := do
  injectHoverExitLocked throws now
  replaceTouch throws
  update fun s => { s with
    touchActive := true, touchDisplayId := displayId, touchPointerId := pointerId, touchX := x,
    touchY := y, touchDownTime := now }
  inject throws (.touch displayId pointerId now .down x y)

def endTouch (s : PointerState F) : PointerState F :=
  { s with touchActive := false, touchDisplayId := -1 }

def continueTouch (displayId pointerId : Int) (command : Char) (x y : F) : Attempt F Unit := do
  update fun s => { s with
    touchDisplayId := displayId, touchPointerId := pointerId, touchX := x, touchY := y }
  let s ← pointers
  if command = 'm' then
    inject throws (.touch displayId pointerId s.touchDownTime .move x y)
  else if command = 'e' then
    inject throws (.touch displayId pointerId s.touchDownTime .up x y)
    update endTouch
  else if command = 'c' then
    inject throws (.touch displayId pointerId s.touchDownTime .cancel x y)
    update endTouch

def injectTouch (now displayId pointerId : Int) (phase : JavaString) (x y : F) :
    Attempt F Unit :=
  match phase with
  | [] => pure ()
  | command :: _ =>
    if displayId < 0 then pure ()
    else if command = 'b' then beginTouch throws now displayId pointerId x y
    else do
      let s ← pointers
      if s.touchActive then continueTouch throws displayId pointerId command x y

def injectMouseMove (now displayId : Int) (x y : F) (buttonState : Int) : Attempt F Unit :=
  if buttonState = 0 then injectHover throws now displayId x y
  else do
    update fun s => { s with
      mouseDisplayId := displayId, mouseX := x, mouseY := y, mouseButtonState := buttonState }
    let s ← pointers
    inject throws (.motion displayId .move x y buttonState s.mouseDownTime)

def injectMouseButton (now displayId : Int) (x y : F) (buttonState : Int) : Attempt F Unit := do
  let previous ← pointers
  update fun s => { s with
    mouseDisplayId := displayId, mouseX := x, mouseY := y, mouseButtonState := buttonState }
  if previous.mouseButtonState = 0 ∧ buttonState ≠ 0 then
    injectHoverExitLocked throws now
    update fun s => { s with mouseDownTime := now }
    inject throws (.motion displayId .down x y buttonState now)
  else if previous.mouseButtonState ≠ 0 ∧ buttonState = 0 then
    inject throws (.motion displayId .up x y 0 previous.mouseDownTime)
    update fun s => { s with mouseDownTime := 0 }
  else if previous.mouseButtonState ≠ buttonState then
    inject throws (.motion displayId .move x y buttonState previous.mouseDownTime)

def resetTouch : Attempt F Unit := release throws (·.touchActive) touchCancel endTouch

def resetMouse : Attempt F Unit :=
  release throws (·.mouseButtonState ≠ 0)
    (fun s => .motion s.mouseDisplayId .up s.mouseX s.mouseY 0 s.mouseDownTime)
    fun s => { s with mouseButtonState := 0, mouseDisplayId := -1, mouseDownTime := 0 }

def resetPointerState (now : Int) : Attempt F Unit := do
  resetTouch throws
  resetMouse throws
  injectHoverExitLocked throws now

def perform (now : Int) : PointerCommand F → Attempt F Unit
  | .hover displayId x y => injectHover throws now displayId x y
  | .hoverExit => injectHoverExitLocked throws now
  | .scroll displayId x y hscroll vscroll => inject throws (.scroll displayId x y hscroll vscroll)
  | .touch displayId pointerId phase x y => injectTouch throws now displayId pointerId phase x y
  | .mouseMove displayId x y buttonState => injectMouseMove throws now displayId x y buttonState
  | .mouseButton displayId x y buttonState =>
    injectMouseButton throws now displayId x y buttonState

end Attempt

structure InputLine where
  text : JavaString
  display : Int → Int
  now : Int

def InputLine.step (line : InputLine) : HostStep := .line line.text line.display line.now

namespace Attempt

variable (floats : Floats F) (throws : Nat → Bool)

def handleLine (line : InputLine) : Attempt F Unit :=
  match parseLine floats line.display line.text with
  | some command => perform throws line.now command
  | none => pure ()

/-- The loop of `handleHost`. -/
def handleLines : List InputLine → Attempt F Unit
  | [] => pure ()
  | line :: lines => do
    try handleLine floats throws line
    catch _ => pure ()
    handleLines lines

def readHost (lines : List InputLine) (readFails : Bool) : Attempt F Unit := do
  handleLines floats throws lines
  if readFails then throw ()

def handleHost (lines : List InputLine) (readFails : Bool) (now : Int) : Attempt F Unit := do
  try readHost floats throws lines readFails
  finally resetPointerState throws now

def leaves (x : Attempt F Unit) (calls : Calls F) : Calls F := (x.run.run calls).2

section Runs

variable {x y : Attempt F Unit} {calls after : Calls F} {result : Except Unit Unit}

theorem run_seq_ok (h : x.run.run calls = (.ok (), after)) :
    (x >>= fun _ => y).run.run calls = y.run.run after := by
  simp only [ExceptT.run_bind, StateT.run_bind, h]
  rfl

theorem run_seq_error (h : x.run.run calls = (.error (), after)) :
    (x >>= fun _ => y).run.run calls = (.error (), after) := by
  simp only [ExceptT.run_bind, StateT.run_bind, h]
  rfl

theorem run_catch_ok (h : x.run.run calls = (.ok (), after)) :
    (tryCatch x fun _ => pure () : Attempt F Unit).run.run calls = (.ok (), after) := by
  have hx : x calls = (.ok (), after) := h
  simp only [tryCatch, tryCatchThe, MonadExceptOf.tryCatch, ExceptT.tryCatch, ExceptT.run,
    ExceptT.mk, StateT.run, bind, StateT.bind, hx]
  rfl

theorem run_finally (h : x.run.run calls = (result, after)) :
    (do try x finally y : Attempt F Unit).run.run calls =
      match y.run.run after with
      | (.ok (), last) => (result, last)
      | (.error (), last) => (.error (), last) := by
  have hx : x calls = (result, after) := h
  change (tryFinally x y) calls =
    match y after with
    | (.ok (), last) => (result, last)
    | (.error (), last) => (.error (), last)
  simp only [tryFinally, tryFinally', Functor.map, ExceptT.map, ExceptT.mk, bind, StateT.bind, hx]
  cases result with
  | ok | error =>
    dsimp only
    generalize y after = ended
    obtain ⟨_ | _, last⟩ := ended <;> rfl

end Runs

section Release

variable {throws : Nat → Bool} {held : PointerState F → Bool}
  {event : PointerState F → InputEvent F} {clear : PointerState F → PointerState F} {calls : Calls F}

theorem run_release : (release throws held event clear).run.run calls =
    (if held calls.pointers then do inject throws (event calls.pointers); update clear
      else pure () : Attempt F Unit).run.run calls := rfl

theorem run_release_free (h : held calls.pointers = false) :
    (release throws held event clear).run.run calls = (.ok (), calls) := by
  rw [run_release, h]
  rfl

theorem run_release_held (h : held calls.pointers = true) :
    (release throws held event clear).run.run calls =
      if throws calls.made then (.error (), ⟨calls.pointers, calls.made + 1⟩)
      else (.ok (), ⟨clear (calls.pointers.inject (event calls.pointers)), calls.made + 1⟩) := by
  rw [run_release, if_pos h]
  have hinject : (inject throws (event calls.pointers)).run.run calls =
      (if throws calls.made then throw () else
        update (·.inject (event calls.pointers)) : Attempt F Unit).run.run
          ⟨calls.pointers, calls.made + 1⟩ := rfl
  cases hthrows : throws calls.made with
  | true =>
    rw [hthrows] at hinject
    exact run_seq_error hinject
  | false =>
    rw [hthrows] at hinject
    exact (run_seq_ok hinject).trans rfl

end Release

def Returns (x : Attempt F Unit) (s t : PointerState F) : Prop :=
  ∀ made, ∃ more, x.run.run ⟨s, made⟩ = (.ok (), ⟨t, more⟩)

section Never

variable {first second : Attempt F Unit} {s t u : PointerState F}

theorem returns_pure : Returns (pure ()) s s := fun made => ⟨made, rfl⟩

theorem returns_update {f : PointerState F → PointerState F} : Returns (update f) s (f s) :=
  fun made => ⟨made, rfl⟩

theorem returns_pointers {k : PointerState F → Attempt F Unit} (h : Returns (k s) s t) :
    Returns (pointers >>= k) s t :=
  h

theorem Returns.seq (h : Returns first s t) (h' : Returns second t u) :
    Returns (first >>= fun _ => second) s u := by
  intro made
  obtain ⟨more, hrun⟩ := h made
  obtain ⟨last, hlast⟩ := h' more
  exact ⟨last, (run_seq_ok hrun).trans hlast⟩

variable {throws : Nat → Bool} {now displayId pointerId buttonState : Int} {x y : F}
  (hnever : ∀ call, throws call = false)
include hnever

theorem returns_inject {event : InputEvent F} : Returns (inject throws event) s (s.inject event) := by
  intro made
  refine ⟨made + 1, ?_⟩
  have hrun : (inject throws event).run.run ⟨s, made⟩ =
      (if throws made then throw () else update (·.inject event) : Attempt F Unit).run.run
        ⟨s, made + 1⟩ := rfl
  rw [hrun, hnever made]
  rfl

theorem returns_release {held : PointerState F → Bool} {event : PointerState F → InputEvent F}
    {clear : PointerState F → PointerState F} :
    Returns (release throws held event clear) s
      (if held s then clear (s.inject (event s)) else s) := by
  refine returns_pointers ?_
  split
  · exact (returns_inject hnever).seq returns_update
  · exact returns_pure

theorem returns_injectHoverExitLocked :
    Returns (injectHoverExitLocked throws now) s (s.injectHoverExitLocked now) :=
  returns_release hnever

theorem returns_injectHover :
    Returns (injectHover throws now displayId x y) s (s.injectHover now displayId x y) := by
  have hleave : Returns (leaveHover throws now displayId) s
      (if s.hoverActive ∧ displayId ≠ s.hoverDisplayId then s.injectHoverExitLocked now
        else s) := by
    refine returns_pointers ?_
    split
    · exact returns_injectHoverExitLocked hnever
    · exact returns_pure
  have hstart : ∀ s : PointerState F, Returns (startHover throws now displayId x y) s
      (if s.hoverActive then s
        else { s.inject (.motion displayId .hoverEnter x y 0 now) with hoverActive := true }) := by
    intro s
    refine returns_pointers ?_
    split
    · exact returns_pure
    · exact (returns_inject hnever).seq returns_update
  unfold injectHover PointerState.injectHover
  split
  · exact returns_pure
  · exact hleave.seq ((hstart _).seq (returns_update.seq (returns_inject hnever)))

theorem returns_beginTouch : Returns (beginTouch throws now displayId pointerId x y) s
      (s.beginTouch now displayId pointerId x y) := by
  have hreplace : ∀ s : PointerState F, Returns (replaceTouch throws) s
      (if s.touchActive then s.cancelTouch else s) := by
    intro s
    refine returns_pointers ?_
    split
    · exact returns_inject hnever
    · exact returns_pure
  exact (returns_injectHoverExitLocked hnever).seq
    ((hreplace _).seq (returns_update.seq (returns_inject hnever)))

theorem returns_continueTouch {command : Char} :
    Returns (continueTouch throws displayId pointerId command x y) s
      (s.continueTouch displayId pointerId command x y) := by
  refine returns_update.seq (returns_pointers ?_)
  unfold PointerState.continueTouch
  dsimp only
  split
  · exact returns_inject hnever
  · split
    · exact (returns_inject hnever).seq returns_update
    · split
      · exact (returns_inject hnever).seq returns_update
      · exact returns_pure

theorem returns_injectTouch {phase : JavaString} :
    Returns (injectTouch throws now displayId pointerId phase x y) s
      (s.injectTouch now displayId pointerId phase x y) := by
  unfold injectTouch PointerState.injectTouch
  cases phase with
  | nil => exact returns_pure
  | cons command rest =>
    dsimp only
    split
    · exact returns_pure
    · split
      · exact returns_beginTouch hnever
      · refine returns_pointers ?_
        split
        · exact returns_continueTouch hnever
        · exact returns_pure

theorem returns_injectMouseMove : Returns (injectMouseMove throws now displayId x y buttonState) s
      (s.injectMouseMove now displayId x y buttonState) := by
  unfold injectMouseMove PointerState.injectMouseMove
  split
  · exact returns_injectHover hnever
  · exact returns_update.seq (returns_pointers (returns_inject hnever))

theorem returns_injectMouseButton :
    Returns (injectMouseButton throws now displayId x y buttonState) s
      (s.injectMouseButton now displayId x y buttonState) := by
  refine returns_pointers (returns_update.seq ?_)
  unfold PointerState.injectMouseButton
  dsimp only
  split
  · exact (returns_injectHoverExitLocked hnever).seq (returns_update.seq (returns_inject hnever))
  · split
    · exact (returns_inject hnever).seq returns_update
    · split
      · exact returns_inject hnever
      · exact returns_pure

theorem returns_perform {command : PointerCommand F} :
    Returns (perform throws now command) s (s.perform now command) := by
  cases command with
  | hover displayId x y => exact returns_injectHover hnever
  | hoverExit => exact returns_injectHoverExitLocked hnever
  | scroll displayId x y hscroll vscroll => exact returns_inject hnever
  | touch displayId pointerId phase x y => exact returns_injectTouch hnever
  | mouseMove displayId x y buttonState => exact returns_injectMouseMove hnever
  | mouseButton displayId x y buttonState => exact returns_injectMouseButton hnever

theorem returns_resetPointerState :
    Returns (resetPointerState throws now) s (s.resetPointerState now) := by
  have hmouse : ∀ s : PointerState F, Returns (resetMouse throws) s s.resetMouse := by
    intro s
    unfold PointerState.resetMouse
    by_cases hreleased : s.mouseButtonState = 0
    · rw [if_pos hreleased]
      exact fun made => ⟨made, run_release_free (by simp [hreleased])⟩
    · rw [if_neg hreleased]
      refine fun made => ⟨made + 1, ?_⟩
      refine (run_release_held (by simp [hreleased])).trans ?_
      rw [hnever made]
      rfl
  exact Returns.seq (returns_release hnever) ((hmouse _).seq (returns_injectHoverExitLocked hnever))

theorem returns_handleLines (floats : Floats F) {lines : List InputLine}
    (hrun : exec (PointerState.step floats) s (lines.map InputLine.step) = some t) :
    Returns (handleLines floats throws lines) s t := by
  induction lines generalizing s with
  | nil =>
    cases hrun
    exact returns_pure
  | cons line lines ih =>
    rw [List.map_cons, exec_cons] at hrun
    obtain ⟨u, hstep, hrest⟩ := Option.bind_eq_some_iff.mp hrun
    have hline : Returns (handleLine floats throws line) s u := by
      unfold handleLine
      obtain ⟨-, ⟨hnone, rfl⟩ | ⟨command, hcommand, rfl⟩⟩ := PointerState.step_line hstep
      · rw [hnone]
        exact returns_pure
      · rw [hcommand]
        exact returns_perform hnever
    intro made
    obtain ⟨more, hmore⟩ := hline made
    obtain ⟨last, hlast⟩ := ih hrest more
    exact ⟨last, (run_seq_ok (run_catch_ok hmore)).trans hlast⟩

/-- If no injection throws, a connection is a run of the steps of `PointerInput`. -/
theorem returns_handleHost (floats : Floats F) (lines : List InputLine)
    (hrun : exec (PointerState.step floats) s (lines.map InputLine.step ++ [.disconnect now]) =
      some t) :
    ∃ u, t = { u with connected := false } ∧
      Returns (handleHost floats throws lines false now) s u := by
  rw [exec_append] at hrun
  obtain ⟨read, hread, hrest⟩ := Option.bind_eq_some_iff.mp hrun
  refine ⟨read.resetPointerState now, ?_, fun made => ?_⟩
  · rw [exec_cons] at hrest
    obtain ⟨last, hstep, hend⟩ := Option.bind_eq_some_iff.mp hrest
    cases hend
    exact PointerState.step_disconnect hstep
  · obtain ⟨more, hmore⟩ := returns_handleLines hnever floats hread made
    obtain ⟨last, hlast⟩ := returns_resetPointerState hnever ..
    have hend : (readHost floats throws lines false).run.run ⟨s, made⟩ = (.ok (), ⟨read, more⟩) :=
      (run_seq_ok hmore).trans rfl
    refine ⟨last, (run_finally hend).trans ?_⟩
    rw [hlast]

end Never

theorem returns_handleHost_hover :
    ∃ u, u.injected.length = 3 ∧ Returns (handleHost Sample.floats (fun _ => false)
      [⟨"h 1 3 4".toList, Sample.display, 5⟩] false 9)
        { PointerState.initial Sample.floats with connected := true } u := by
  obtain ⟨t, hrun, hlength⟩ := exists_of_map_decide (o := exec (PointerState.step Sample.floats)
    { PointerState.initial Sample.floats with connected := true }
    [Sample.line "h 1 3 4", .disconnect 9]) (p := (·.injected.length = 3)) (by decide +kernel)
  obtain ⟨u, rfl, hreturns⟩ := returns_handleHost (fun _ => rfl) Sample.floats
    [⟨"h 1 3 4".toList, Sample.display, 5⟩] hrun
  exact ⟨u, hlength, hreturns⟩

end Attempt

end Agent
end MacMu
