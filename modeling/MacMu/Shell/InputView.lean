import MacMu.Core.InputSender

/-!
The pointer part of `MacMuInputView`: the left button is a touch, the other
buttons are a mouse, and both stay with the transport on which they began. A point
is what the renderer makes of an event, if it makes anything of it; the renderer
of a view names one display. What is sent may fail on either transport. Hovering,
scrolling and the keyboard are left out: they do not look at the gestures.
-/

namespace MacMu
namespace InputView

open InputSender

inductive InputTransport where
  | none
  | guestAgent
  | directQemu
  deriving DecidableEq, Repr

structure Buttons where
  left : Bool
  right : Bool
  middle : Bool
  deriving DecidableEq, Repr

def Buttons.released : Buttons := ⟨false, false, false⟩

inductive ButtonEvent where
  | rightDown
  | rightUp
  | rightDragged
  | otherDown (buttonNumber : Nat)
  | otherUp (buttonNumber : Nat)
  | otherDragged (buttonNumber : Nat)
  deriving DecidableEq, Repr

/-- `pressed` is what AppKit says of the first three buttons. -/
def buttonsForEvent (pressed : Buttons) : ButtonEvent → Buttons
  | .rightDown | .rightDragged => { pressed with right := true }
  | .rightUp => { pressed with right := false }
  | .otherDown number | .otherDragged number =>
    if number = 2 then { pressed with middle := true } else pressed
  | .otherUp number => if number = 2 then { pressed with middle := false } else pressed

def ButtonEvent.isDown : ButtonEvent → Bool
  | .rightDown | .otherDown _ => true
  | _ => false

def ButtonEvent.isDragged : ButtonEvent → Bool
  | .rightDragged | .otherDragged _ => true
  | _ => false

inductive Attempt where
  | touch (kind : InputEventKind) (transport : InputTransport) (displayId : Nat) (x y : Int)
      (sent : Bool)
  | mouseMove (transport : InputTransport) (displayId : Nat) (x y : Int) (buttons : Buttons)
  | mouseButton (transport : InputTransport) (displayId : Nat) (x y : Int) (buttons : Buttons)
      (sent : Bool)
  deriving DecidableEq, Repr

/-- Whether a packet goes out on each transport, and whether the agent is there. -/
structure Senders where
  ready : Bool
  guest : Bool
  direct : Bool
  deriving DecidableEq, Repr

def Senders.preferred (senders : Senders) : InputTransport :=
  if senders.ready then .guestAgent else .directQemu

def Senders.sends (senders : Senders) : InputTransport → Bool
  | .none => false
  | .guestAgent => senders.guest
  | .directQemu => senders.direct

structure View where
  displayId : Nat
  hasRenderer : Bool
  leftTouchActive : Bool
  leftTouchTransport : InputTransport
  leftTouchDisplayId : Nat
  mouseTransport : InputTransport
  mouseDisplayId : Nat
  lastMouseX : Int
  lastMouseY : Int
  lastTouchX : Int
  lastTouchY : Int
  deriving DecidableEq, Repr

def View.create (displayId : Nat) (hasRenderer : Bool) : View :=
  ⟨displayId, hasRenderer, false, .none, 0, .none, 0, 0, 0, 0, 0⟩

abbrev Point := Option (Int × Int)

inductive ViewEvent where
  | mouseDown (point : Point) (senders : Senders)
  | mouseDragged (point : Point) (senders : Senders)
  | mouseUp (point : Point) (senders : Senders)
  | button (event : ButtonEvent) (pressed : Buttons) (point : Point) (senders : Senders)
  /-- The window is no longer the key window, or QEMU has exited. -/
  | reset
  | teardown
  | leaveWindow (senders : Senders)
  deriving DecidableEq, Repr

namespace View

variable (v : View)

def mapEvent (point : Point) : Point := if v.hasRenderer then point else Option.none

def touchAttempt (kind : InputEventKind) (transport : InputTransport) (displayId : Nat) (x y : Int)
    (senders : Senders) : List Attempt :=
  if transport = .none then []
  else [.touch kind transport displayId x y (senders.sends transport)]

def buttonAttempt (transport : InputTransport) (displayId : Nat) (x y : Int) (buttons : Buttons)
    (senders : Senders) : List Attempt :=
  if transport = .none then []
  else [.mouseButton transport displayId x y buttons (senders.sends transport)]

/-- The transports on which a gesture is tried to begin. -/
def tried (senders : Senders) : List InputTransport :=
  if senders.preferred = .guestAgent ∧ senders.guest = false then [.guestAgent, .directQemu]
  else [senders.preferred]

def beginsOn (senders : Senders) : InputTransport := ((tried senders).find? senders.sends).getD .none

def resetInputState : View :=
  { v with leftTouchActive := false, leftTouchTransport := .none, mouseTransport := .none }

def mouseDown (point : Point) (senders : Senders) : View × List Attempt :=
  match v.mapEvent point with
  | Option.none => (v, [])
  | some (x, y) =>
    let transport := beginsOn senders
    ({ v with
        lastTouchX := x, lastTouchY := y, leftTouchDisplayId := v.displayId,
        leftTouchTransport := transport, leftTouchActive := decide (transport ≠ .none) },
      (tried senders).flatMap fun transport =>
        touchAttempt .touchBegin transport v.displayId x y senders)

def mouseDragged (point : Point) (senders : Senders) : View × List Attempt :=
  if v.leftTouchActive then
    match v.mapEvent point with
    | Option.none => (v, [])
    | some (x, y) =>
      ({ v with lastTouchX := x, lastTouchY := y },
        touchAttempt .touchUpdate v.leftTouchTransport v.leftTouchDisplayId x y senders)
  else (v, [])

def mouseUp (point : Point) (senders : Senders) : View × List Attempt :=
  if v.leftTouchActive then
    let (x, y) := (v.mapEvent point).getD (v.lastTouchX, v.lastTouchY)
    ({ v with leftTouchActive := false, leftTouchTransport := .none },
      touchAttempt .touchEnd v.leftTouchTransport v.leftTouchDisplayId x y senders)
  else (v, [])

/-- `sendMouseMoveEvent:` at a point. -/
def dragMouse (x y : Int) (buttons : Buttons) (senders : Senders) : View × List Attempt :=
  let transport := if v.mouseTransport = .none then senders.preferred else v.mouseTransport
  ({ v with mouseDisplayId := v.displayId, lastMouseX := x, lastMouseY := y },
    [.mouseMove transport v.displayId x y buttons])

/-- `sendMouseButtonEvent:` at a point. -/
def pressMouse (isDown : Bool) (x y : Int) (buttons : Buttons) (senders : Senders) :
    View × List Attempt :=
  let v := { v with mouseDisplayId := v.displayId, lastMouseX := x, lastMouseY := y }
  let (transport, attempts) :=
    if isDown ∧ v.mouseTransport = .none then
      (beginsOn senders, (tried senders).flatMap fun transport =>
        buttonAttempt transport v.displayId x y buttons senders)
    else (v.mouseTransport, buttonAttempt v.mouseTransport v.displayId x y buttons senders)
  ({ v with mouseTransport := if buttons = .released then .none else transport }, attempts)

def buttonEvent (event : ButtonEvent) (pressed : Buttons) (point : Point) (senders : Senders) :
    View × List Attempt :=
  match v.mapEvent point with
  | Option.none => (v, [])
  | some (x, y) =>
    let buttons := buttonsForEvent pressed event
    if event.isDragged then v.dragMouse x y buttons senders
    else v.pressMouse event.isDown x y buttons senders

/-- `viewWillMoveToWindow:` without a window. -/
def leaveWindow (senders : Senders) : View × List Attempt :=
  let touches :=
    if v.leftTouchActive then
      touchAttempt .touchEnd v.leftTouchTransport v.leftTouchDisplayId v.lastTouchX v.lastTouchY
        senders
    else []
  let buttons :=
    buttonAttempt v.mouseTransport v.mouseDisplayId v.lastMouseX v.lastMouseY .released senders
  ({ v with
      leftTouchActive := false,
      leftTouchTransport := if v.leftTouchActive then .none else v.leftTouchTransport,
      mouseTransport := .none },
    touches ++ buttons)

def handle : ViewEvent → View × List Attempt
  | .mouseDown point senders => v.mouseDown point senders
  | .mouseDragged point senders => v.mouseDragged point senders
  | .mouseUp point senders => v.mouseUp point senders
  | .button event pressed point senders => v.buttonEvent event pressed point senders
  | .reset => (v.resetInputState, [])
  | .teardown => ({ v.resetInputState with hasRenderer := false }, [])
  | .leaveWindow senders => v.leaveWindow senders

end View

end InputView
end MacMu
