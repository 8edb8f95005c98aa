import MacMu.Agent.PointerInput
import MacMu.Lib.Gestures

/-!
The touch events and the mouse events of the agent as signals on their displays.
Hovering injects neither and leaves both pointers as they are.
-/

namespace MacMu
namespace Agent

open Gestures

variable {F : Type}

def TouchAction.phase : TouchAction → Phase
  | .down => .start
  | .move => .within
  | .up | .cancel => .stop

def touchSignal : InputEvent F → Option (Signal Int Int)
  | .touch displayId pointerId _ action _ _ => some ⟨displayId, pointerId, action.phase⟩
  | _ => none

/-- Mouse events with a button: a press, a move while a button is pressed, a
release. -/
def mouseSignal : InputEvent F → Option (Signal Int Unit)
  | .motion displayId .down _ _ _ _ => some ⟨displayId, (), .start⟩
  | .motion displayId .move _ _ buttonState _ =>
    if buttonState = 0 then none else some ⟨displayId, (), .within⟩
  | .motion displayId .up _ _ _ _ => some ⟨displayId, (), .stop⟩
  | _ => none

namespace PointerState

variable (s t : PointerState F)

def touchLog : List (Signal Int Int) := s.injected.filterMap touchSignal

def mouseLog : List (Signal Int Unit) := s.injected.filterMap mouseSignal

/-- Only the hover has changed, and its events have been injected. -/
def Hovered : Prop :=
  ∃ active displayId x y events,
    t = { s with
      hoverActive := active, hoverDisplayId := displayId, hoverX := x, hoverY := y,
      injected := s.injected ++ events } ∧
    ∀ event ∈ events, touchSignal event = none ∧ mouseSignal event = none

theorem touchLog_inject (event : InputEvent F) :
    (s.inject event).touchLog = s.touchLog ++ (touchSignal event).toList := by
  rw [touchLog, inject, List.filterMap_append, touchLog]
  cases h : touchSignal event <;> simp [h]

theorem mouseLog_inject (event : InputEvent F) :
    (s.inject event).mouseLog = s.mouseLog ++ (mouseSignal event).toList := by
  rw [mouseLog, inject, List.filterMap_append, mouseLog]
  cases h : mouseSignal event <;> simp [h]

variable {s t}

theorem Hovered.refl (s : PointerState F) : Hovered s s :=
  ⟨_, _, _, _, [], by rw [List.append_nil], nofun⟩

section

variable (h : Hovered s t)
include h

theorem Hovered.touchLog : t.touchLog = s.touchLog := by
  obtain ⟨_, _, _, _, events, rfl, hevents⟩ := h
  have hsilent : events.filterMap touchSignal = [] :=
    List.filterMap_eq_nil_iff.mpr fun event hevent => (hevents event hevent).1
  rw [PointerState.touchLog, List.filterMap_append, hsilent, List.append_nil]
  rfl

theorem Hovered.mouseLog : t.mouseLog = s.mouseLog := by
  obtain ⟨_, _, _, _, events, rfl, hevents⟩ := h
  have hsilent : events.filterMap mouseSignal = [] :=
    List.filterMap_eq_nil_iff.mpr fun event hevent => (hevents event hevent).2
  rw [PointerState.mouseLog, List.filterMap_append, hsilent, List.append_nil]
  rfl

theorem Hovered.inject {event : InputEvent F} (htouch : touchSignal event = none)
    (hmouse : mouseSignal event = none) : Hovered s (t.inject event) := by
  obtain ⟨active, displayId, x, y, events, rfl, hevents⟩ := h
  refine ⟨active, displayId, x, y, events ++ [event], ?_, ?_⟩
  · rw [PointerState.inject, List.append_assoc]
  · intro other hother
    obtain hother | hother := List.mem_append.mp hother
    · exact hevents other hother
    · rw [List.mem_singleton.mp hother]
      exact ⟨htouch, hmouse⟩

theorem Hovered.place (active : Bool) (displayId : Int) (x y : F) : Hovered s { t with
      hoverActive := active, hoverDisplayId := displayId, hoverX := x, hoverY := y } := by
  obtain ⟨_, _, _, _, events, rfl, hevents⟩ := h
  exact ⟨active, displayId, x, y, events, rfl, hevents⟩

theorem Hovered.injectHoverExitLocked (now : Int) : Hovered s (t.injectHoverExitLocked now) := by
  unfold PointerState.injectHoverExitLocked
  split
  · exact (h.inject rfl rfl).place false (-1) t.hoverX t.hoverY
  · exact h

end

theorem hovered_enterHover (s : PointerState F) (now displayId : Int) (x y : F) :
    Hovered s (s.enterHover now displayId x y) := by
  have hexit : Hovered s (if s.hoverActive ∧ displayId ≠ s.hoverDisplayId then
      s.injectHoverExitLocked now else s) := by
    split
    · exact (Hovered.refl s).injectHoverExitLocked now
    · exact Hovered.refl s
  unfold enterHover
  dsimp only
  generalize (if s.hoverActive ∧ displayId ≠ s.hoverDisplayId then
    s.injectHoverExitLocked now else s) = exited at hexit ⊢
  split
  · exact hexit
  · exact (hexit.inject rfl rfl).place true exited.hoverDisplayId exited.hoverX exited.hoverY

theorem hovered_injectHover (s : PointerState F) (now displayId : Int) (x y : F) :
    Hovered s (s.injectHover now displayId x y) := by
  unfold injectHover
  split
  · exact Hovered.refl s
  · have henter := hovered_enterHover s now displayId x y
    exact (henter.place (s.enterHover now displayId x y).hoverActive displayId x y).inject rfl rfl

end PointerState

namespace Sample

def floats : Floats Int := ⟨0, parseInt⟩

/-- The emulator display 1 is the Android display 2. -/
def display (emulatorDisplayId : Int) : Int := if emulatorDisplayId = 1 then 2 else -1

def line (text : String) : HostStep := .line text.toList display 5

end Sample

end Agent
end MacMu
