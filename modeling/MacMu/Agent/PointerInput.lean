import MacMu.Agent.ControlLoop

/-!
The pointer input of `MacMuAgent`: the lines a host sends, the state of the
pointers, and the events that are injected. A float is whatever `parseFloat` makes
of a text. The Android display of an emulator display is looked up anew for each
line; the answer comes from outside, as another thread may change it. The clock
shows one time during a line. Injection does not throw. Keyboard reports and the
answer to `v` are left out.
-/

namespace MacMu
namespace Agent

inductive TouchAction where
  | down
  | move
  | up
  | cancel
  deriving DecidableEq, Repr

inductive MotionAction where
  | down
  | move
  | up
  | hoverEnter
  | hoverMove
  | hoverExit
  deriving DecidableEq, Repr

inductive InputEvent (F : Type) where
  | touch (displayId pointerId downTime : Int) (action : TouchAction) (x y : F)
  | motion (displayId : Int) (action : MotionAction) (x y : F) (buttonState downTime : Int)
  | scroll (displayId : Int) (x y : F) (hscroll vscroll : Int)
  deriving DecidableEq, Repr

structure PointerState (F : Type) where
  hoverActive : Bool
  hoverDisplayId : Int
  hoverX : F
  hoverY : F
  touchActive : Bool
  touchDisplayId : Int
  touchPointerId : Int
  touchX : F
  touchY : F
  touchDownTime : Int
  mouseButtonState : Int
  mouseDisplayId : Int
  mouseX : F
  mouseY : F
  mouseDownTime : Int
  connected : Bool
  injected : List (InputEvent F)
  deriving DecidableEq, Repr

structure Floats (F : Type) where
  zero : F
  parseFloat : JavaString → Option F

variable {F : Type}

def PointerState.initial (floats : Floats F) : PointerState F where
  hoverActive := false
  hoverDisplayId := -1
  hoverX := floats.zero
  hoverY := floats.zero
  touchActive := false
  touchDisplayId := -1
  touchPointerId := 0
  touchX := floats.zero
  touchY := floats.zero
  touchDownTime := 0
  mouseButtonState := 0
  mouseDisplayId := -1
  mouseX := floats.zero
  mouseY := floats.zero
  mouseDownTime := 0
  connected := false
  injected := []

namespace PointerState

variable (s : PointerState F)

def inject (event : InputEvent F) : PointerState F := { s with injected := s.injected ++ [event] }

def injectHoverExitLocked (now : Int) : PointerState F :=
  if s.hoverActive then
    { s.inject (.motion s.hoverDisplayId .hoverExit s.hoverX s.hoverY 0 now) with
      hoverActive := false, hoverDisplayId := -1 }
  else s

def enterHover (now displayId : Int) (x y : F) : PointerState F :=
  let s := if s.hoverActive ∧ displayId ≠ s.hoverDisplayId then s.injectHoverExitLocked now else s
  if s.hoverActive then s
  else { s.inject (.motion displayId .hoverEnter x y 0 now) with hoverActive := true }

def injectHover (now displayId : Int) (x y : F) : PointerState F :=
  if displayId < 0 then s
  else
    { s.enterHover now displayId x y with
      hoverDisplayId := displayId, hoverX := x, hoverY := y }.inject
      (.motion displayId .hoverMove x y 0 now)

def cancelTouch : PointerState F :=
  s.inject (.touch s.touchDisplayId s.touchPointerId s.touchDownTime .cancel s.touchX s.touchY)

/-- The phase `b`. -/
def beginTouch (now displayId pointerId : Int) (x y : F) : PointerState F :=
  let s := s.injectHoverExitLocked now
  let s := if s.touchActive then s.cancelTouch else s
  { s with
    touchActive := true, touchDisplayId := displayId, touchPointerId := pointerId, touchX := x,
    touchY := y, touchDownTime := now }.inject (.touch displayId pointerId now .down x y)

/-- The phases `m`, `e` and `c` of an open touch; another one leaves no event. -/
def continueTouch (displayId pointerId : Int) (command : Char) (x y : F) : PointerState F :=
  let s := { s with
    touchDisplayId := displayId, touchPointerId := pointerId, touchX := x, touchY := y }
  if command = 'm' then s.inject (.touch displayId pointerId s.touchDownTime .move x y)
  else if command = 'e' then
    { s.inject (.touch displayId pointerId s.touchDownTime .up x y) with
      touchActive := false, touchDisplayId := -1 }
  else if command = 'c' then
    { s.inject (.touch displayId pointerId s.touchDownTime .cancel x y) with
      touchActive := false, touchDisplayId := -1 }
  else s

def injectTouch (now displayId pointerId : Int) (phase : JavaString) (x y : F) : PointerState F :=
  match phase with
  | [] => s
  | command :: _ =>
    if displayId < 0 then s
    else if command = 'b' then s.beginTouch now displayId pointerId x y
    else if s.touchActive then s.continueTouch displayId pointerId command x y
    else s

def injectMouseMove (now displayId : Int) (x y : F) (buttonState : Int) : PointerState F :=
  if buttonState = 0 then s.injectHover now displayId x y
  else
    { s with
      mouseDisplayId := displayId, mouseX := x, mouseY := y,
      mouseButtonState := buttonState }.inject
      (.motion displayId .move x y buttonState s.mouseDownTime)

def injectMouseButton (now displayId : Int) (x y : F) (buttonState : Int) : PointerState F :=
  let previousButtonState := s.mouseButtonState
  let s := { s with
    mouseDisplayId := displayId, mouseX := x, mouseY := y, mouseButtonState := buttonState }
  if previousButtonState = 0 ∧ buttonState ≠ 0 then
    { s.injectHoverExitLocked now with mouseDownTime := now }.inject
      (.motion displayId .down x y buttonState now)
  else if previousButtonState ≠ 0 ∧ buttonState = 0 then
    { s.inject (.motion displayId .up x y 0 s.mouseDownTime) with mouseDownTime := 0 }
  else if previousButtonState ≠ buttonState then
    s.inject (.motion displayId .move x y buttonState s.mouseDownTime)
  else s

def resetTouch : PointerState F :=
  if s.touchActive then { s.cancelTouch with touchActive := false, touchDisplayId := -1 } else s

def resetMouse : PointerState F :=
  if s.mouseButtonState = 0 then s
  else
    { s.inject (.motion s.mouseDisplayId .up s.mouseX s.mouseY 0 s.mouseDownTime) with
      mouseButtonState := 0, mouseDisplayId := -1, mouseDownTime := 0 }

def resetPointerState (now : Int) : PointerState F :=
  s.resetTouch.resetMouse.injectHoverExitLocked now

end PointerState

/-- `display` is what the cache or `dumpsys` says, and `-1` for none. -/
def resolveAndroidDisplayId (display : Int → Int) (emulatorDisplayId : Int) : Int :=
  if emulatorDisplayId ≤ 0 then 0 else display emulatorDisplayId

inductive PointerCommand (F : Type) where
  | hover (displayId : Int) (x y : F)
  | hoverExit
  | scroll (displayId : Int) (x y : F) (hscroll vscroll : Int)
  | touch (displayId pointerId : Int) (phase : JavaString) (x y : F)
  | mouseMove (displayId : Int) (x y : F) (buttonState : Int)
  | mouseButton (displayId : Int) (x y : F) (buttonState : Int)
  deriving DecidableEq, Repr

/-- The pointer command of a line. A line that is none, or has a number that
cannot be read, does nothing. -/
def parseLine (floats : Floats F) (display : Int → Int) (line : JavaString) :
    Option (PointerCommand F) :=
  match split line with
  | [['h'], displayId, x, y] => do
    let displayId ← parseInt displayId
    let x ← floats.parseFloat x
    let y ← floats.parseFloat y
    some (.hover (resolveAndroidDisplayId display displayId) x y)
  | [['e']] => some .hoverExit
  | [['s'], displayId, x, y, hscroll, vscroll] => do
    let displayId ← parseInt displayId
    let x ← floats.parseFloat x
    let y ← floats.parseFloat y
    let hscroll ← parseInt hscroll
    let vscroll ← parseInt vscroll
    some (.scroll (resolveAndroidDisplayId display displayId) x y hscroll vscroll)
  | [['t'], displayId, pointerId, phase, x, y] => do
    let displayId ← parseInt displayId
    let pointerId ← parseInt pointerId
    let x ← floats.parseFloat x
    let y ← floats.parseFloat y
    some (.touch (resolveAndroidDisplayId display displayId) pointerId phase x y)
  | [['m'], displayId, x, y, buttons] => do
    let displayId ← parseInt displayId
    let x ← floats.parseFloat x
    let y ← floats.parseFloat y
    let buttons ← parseInt buttons
    some (.mouseMove (resolveAndroidDisplayId display displayId) x y buttons)
  | [['b'], displayId, x, y, buttons] => do
    let displayId ← parseInt displayId
    let x ← floats.parseFloat x
    let y ← floats.parseFloat y
    let buttons ← parseInt buttons
    some (.mouseButton (resolveAndroidDisplayId display displayId) x y buttons)
  | _ => none

def PointerState.perform (s : PointerState F) (now : Int) : PointerCommand F → PointerState F
  | .hover displayId x y => s.injectHover now displayId x y
  | .hoverExit => s.injectHoverExitLocked now
  | .scroll displayId x y hscroll vscroll => s.inject (.scroll displayId x y hscroll vscroll)
  | .touch displayId pointerId phase x y => s.injectTouch now displayId pointerId phase x y
  | .mouseMove displayId x y buttonState => s.injectMouseMove now displayId x y buttonState
  | .mouseButton displayId x y buttonState => s.injectMouseButton now displayId x y buttonState

/-- A host connects, sends a line, or is gone: `handleHost` then resets the
pointers. -/
inductive HostStep where
  | connect
  | line (text : JavaString) (display : Int → Int) (now : Int)
  | disconnect (now : Int)

def PointerState.step (floats : Floats F) (s : PointerState F) : HostStep → Option (PointerState F)
  | .connect => if s.connected then none else some { s with connected := true }
  | .line text display now =>
    if s.connected then
      match parseLine floats display text with
      | some command => some (s.perform now command)
      | none => some s
    else none
  | .disconnect now =>
    if s.connected then some { s.resetPointerState now with connected := false } else none

namespace PointerState

variable {floats : Floats F} {s t : PointerState F}

theorem step_connect (h : s.step floats .connect = some t) : t = { s with connected := true } := by
  dsimp only [step] at h
  split at h <;> cases h
  rfl

theorem step_line {text : JavaString} {display : Int → Int} {now : Int}
    (h : s.step floats (.line text display now) = some t) :
    s.connected = true ∧ (parseLine floats display text = none ∧ t = s ∨
      ∃ command, parseLine floats display text = some command ∧ t = s.perform now command) := by
  dsimp only [step] at h
  split at h
  · rename_i hconnected
    cases hcommand : parseLine floats display text with
    | none =>
      rw [hcommand] at h
      cases h
      exact ⟨hconnected, .inl ⟨rfl, rfl⟩⟩
    | some command =>
      rw [hcommand] at h
      cases h
      exact ⟨hconnected, .inr ⟨command, rfl, rfl⟩⟩
  · cases h

theorem step_disconnect {now : Int} (h : s.step floats (.disconnect now) = some t) :
    t = { s.resetPointerState now with connected := false } := by
  dsimp only [step] at h
  split at h <;> cases h
  rfl

end PointerState

end Agent
end MacMu
