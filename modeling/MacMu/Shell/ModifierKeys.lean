import MacMu.Core.HidKeyboard
import MacMu.Lib.TransitionSystem

/-!
The keyboard part of `MacMuInputView` and the keyboard before it. Of each group of
modifier keys AppKit tells whether one of its two keys is held, and which key has changed
if one has. The modifier keys and Caps Lock are reported by `flagsChanged`, all other keys
by `keyDown` and `keyUp`, and only to the view that has the focus; key repeats are left
out. The reports are returned in the order in which they are sent. A window that stops
being the key window resets its view.
-/

namespace MacMu
namespace ModifierKeys

open HidKeyboard TransitionSystem

inductive Group where
  | control
  | shift
  | option
  | command
  deriving DecidableEq, Repr

inductive Side where
  | left
  | right
  deriving DecidableEq, Repr

def Side.other : Side → Side
  | .left => .right
  | .right => .left

/-- The usages in the rows of `kGroups`. -/
def Group.usage : Group → Side → UInt8
  | .control, .left => 0xe0
  | .control, .right => 0xe4
  | .shift, .left => 0xe1
  | .shift, .right => 0xe5
  | .option, .left => 0xe2
  | .option, .right => 0xe6
  | .command, .left => 0xe3
  | .command, .right => 0xe7

def kGroups : List Group := [.control, .shift, .option, .command]

instance : Fintype Group where
  elems := kGroups.toFinset
  complete group := by cases group <;> decide

def modifierFlagForHidUsage (usage : UInt8) : Option Group :=
  if usage = 0xe0 ∨ usage = 0xe4 then some .control
  else if usage = 0xe1 ∨ usage = 0xe5 then some .shift
  else if usage = 0xe2 ∨ usage = 0xe6 then some .option
  else if usage = 0xe3 ∨ usage = 0xe7 then some .command
  else none

/-- `modifierFlags` of an event. -/
abbrev Flags := Group → Bool

section View

variable (s : HidKeyboard.State) (flags : Flags)

/-- The body of the loop in `synchronizeKeyboardModifiers:`. -/
def synchronizeGroup (group : Group) : Bool × HidKeyboard.State :=
  let leftPressed := s.isPressed (group.usage .left)
  let rightPressed := s.isPressed (group.usage .right)
  if flags group = false then
    let (changed, s) := s.setKey (group.usage .left) false
    let (changed', s) := s.setKey (group.usage .right) false
    (changed || changed', s)
  else if !leftPressed && !rightPressed then s.setKey (group.usage .left) true
  else (false, s)

/-- `synchronizeKeyboardModifiers:` -/
def synchronizeGroups (s : HidKeyboard.State) : List Group → Bool × HidKeyboard.State
  | [] => (false, s)
  | group :: groups =>
    let (changed, s) := synchronizeGroup s flags group
    let (changed', s) := synchronizeGroups s groups
    (changed || changed', s)

/-- `keyDown:` and `keyUp:`, with the reports that are sent. -/
def keyEvent (keyCode : UInt16) (down : Bool) : List Report × HidKeyboard.State :=
  let usage := macVirtualKeyToHidUsage keyCode
  if usage = 0 then ([], s)
  else
    let (changed, s) := synchronizeGroups flags s kGroups
    let (changed', s) := s.setKey usage down
    (if changed || changed' then [s.report] else [], s)

def flagsChanged (keyCode : UInt16) : List Report × HidKeyboard.State :=
  let usage := macVirtualKeyToHidUsage keyCode
  if usage = 0x39 then
    let pulsed := (s.setKey usage true).2
    let released := (pulsed.setKey usage false).2
    ([pulsed.report, released.report], released)
  else
    match modifierFlagForHidUsage usage with
    | none => ([], s)
    | some group =>
      let wasPressed := s.isPressed usage
      let pressed := !wasPressed && flags group
      let (changed, s) := s.setKey usage pressed
      (if changed then [s.report] else [], s)

/-- `resetInputState` -/
def resetKeyboard : List Report × HidKeyboard.State :=
  let (changed, s) := s.releaseAll
  (if changed then [s.report] else [], s)

end View

def Group.keyCode : Group → Side → UInt16
  | .control, .left => 0x3b
  | .control, .right => 0x3e
  | .shift, .left => 0x38
  | .shift, .right => 0x3c
  | .option, .left => 0x3a
  | .option, .right => 0x3d
  | .command, .left => 0x37
  | .command, .right => 0x36

def kCapsLockKeyCode : UInt16 := 0x39

structure Desk where
  held : Group → Side → Bool
  focused : Bool
  hid : HidKeyboard.State
  handled : Bool

inductive Action where
  | modifier (group : Group) (side : Side)
  | capsLock
  | key (keyCode : UInt16) (down : Bool)
  | gainFocus
  | loseFocus
  deriving DecidableEq, Repr

namespace Desk

variable (d : Desk)

/-- A view is there, without the focus; any modifier keys may be held. -/
def start (held : Group → Side → Bool) : Desk := ⟨held, false, .empty, false⟩

def flags : Flags := fun group => d.held group .left || d.held group .right

def toggle (group : Group) (side : Side) : Desk :=
  { d with held := fun g s => if g = group ∧ s = side then !d.held g s else d.held g s }

def deliver (event : HidKeyboard.State → Flags → List Report × HidKeyboard.State) : Desk :=
  if d.focused then { d with hid := (event d.hid d.flags).2, handled := true }
  else { d with handled := false }

def step (d : Desk) : Action → Option Desk
  | .modifier group side =>
    some ((d.toggle group side).deliver fun s flags =>
      ModifierKeys.flagsChanged s flags (group.keyCode side))
  | .capsLock =>
    some (d.deliver fun s flags => ModifierKeys.flagsChanged s flags kCapsLockKeyCode)
  | .key keyCode down =>
    if isModifier (macVirtualKeyToHidUsage keyCode) then none
    else if macVirtualKeyToHidUsage keyCode = 0 then some { d with handled := false }
    else some (d.deliver fun s flags => keyEvent s flags keyCode down)
  | .gainFocus => some { d with focused := true, handled := false }
  | .loseFocus =>
    some { d with focused := false, hid := (resetKeyboard d.hid).2, handled := false }

end Desk

end ModifierKeys
end MacMu
