import MacMu.Agent.PointerStreams
import MacMu.Lib.TransitionSystem

/-!
The hover of the agent. All hover events make one stream, whatever the display: the
key of a hover is its display, so a stream of gestures is one in which enters and
exits alternate, each exit is on the display of its enter, and each move is between
the two. A press of the mouse or of a touch comes while no hover is open.
-/

namespace MacMu
namespace Agent

open Gestures TransitionSystem

variable {F : Type}

def hoverSignal : InputEvent F → Option (Phase × Int)
  | .motion displayId .hoverEnter _ _ _ _ => some (.start, displayId)
  | .motion displayId .hoverMove _ _ _ _ => some (.within, displayId)
  | .motion displayId .hoverExit _ _ _ _ => some (.stop, displayId)
  | _ => none

def InputEvent.isDown : InputEvent F → Bool
  | .touch _ _ _ .down _ _ => true
  | .motion _ .down _ _ _ _ => true
  | _ => false

def hoverStream (events : List (InputEvent F)) : List (Phase × Int) :=
  events.filterMap hoverSignal

def PressedApart (events : List (InputEvent F)) : Prop :=
  ∀ front event back, events = front ++ event :: back → event.isDown = true →
    Stream none (hoverStream front)

structure Hovering (events : List (InputEvent F)) (key : Option Int) : Prop where
  stream : Stream key (hoverStream events)
  apart : PressedApart events

theorem hoverStream_concat (events : List (InputEvent F)) (event : InputEvent F) :
    hoverStream (events ++ [event]) = hoverStream events ++ (hoverSignal event).toList := by
  rw [hoverStream, List.filterMap_append, hoverStream]
  cases h : hoverSignal event <;> simp [h]

theorem PressedApart.concat {events : List (InputEvent F)} (h : PressedApart events)
    {event : InputEvent F} (hevent : event.isDown = true → Stream none (hoverStream events)) :
    PressedApart (events ++ [event]) := by
  intro front pressed back hsplit hpressed
  obtain ⟨rfl, rfl, rfl⟩ | ⟨rest, rfl, hfront⟩ :
      (front = events ∧ pressed = event ∧ back = []) ∨
        ∃ rest, back = rest ++ [event] ∧ events = front ++ pressed :: rest := by
    cases back using List.reverseRecOn with
    | nil =>
      obtain ⟨hevents, hsingle⟩ := List.append_inj' hsplit rfl
      cases hsingle
      exact .inl ⟨hevents.symm, rfl, rfl⟩
    | append_singleton rest last =>
      rw [← List.cons_append, ← List.append_assoc] at hsplit
      obtain ⟨hevents, hsingle⟩ := List.append_inj' hsplit rfl
      cases hsingle
      exact .inr ⟨rest, rfl, hevents⟩
  · exact hevent hpressed
  · exact h front pressed rest hfront hpressed

namespace Hovering

variable {events : List (InputEvent F)} {key : Option Int} {event : InputEvent F}

theorem signal (h : Hovering events key) {after : Option Int} {signal : Phase × Int}
    (hsignal : hoverSignal event = some signal) (hnext : next key signal = some after) :
    Hovering (events ++ [event]) after := by
  refine ⟨?_, h.apart.concat fun hpressed => ?_⟩
  · rw [hoverStream_concat, hsignal]
    exact h.stream.concat hnext
  · -- a press is no hover event
    cases event with
    | touch | scroll => cases hsignal
    | motion displayId action =>
      cases action with
      | down => cases hsignal
      | _ => cases hpressed

theorem other (h : Hovering events key) (hsignal : hoverSignal event = none)
    (hdown : event.isDown = true → key = none) : Hovering (events ++ [event]) key := by
  refine ⟨?_, h.apart.concat fun hpressed => ?_⟩
  · rw [hoverStream_concat, hsignal, Option.toList_none, List.append_nil]
    exact h.stream
  · rw [← hdown hpressed]
    exact h.stream

theorem enter (h : Hovering events none) (now displayId : Int) (x y : F) :
    Hovering (events ++ [.motion displayId .hoverEnter x y 0 now]) (some displayId) :=
  h.signal rfl rfl

theorem move {displayId : Int} (h : Hovering events (some displayId)) (now : Int) (x y : F) :
    Hovering (events ++ [.motion displayId .hoverMove x y 0 now]) (some displayId) :=
  h.signal rfl (if_pos rfl)

theorem exit {displayId : Int} (h : Hovering events (some displayId)) (now : Int) (x y : F) :
    Hovering (events ++ [.motion displayId .hoverExit x y 0 now]) none :=
  h.signal rfl (if_pos rfl)

end Hovering

namespace PointerState

def hover (s : PointerState F) : Option Int := if s.hoverActive then some s.hoverDisplayId else none

/-- The hover that is open is the one that the events leave open. -/
def HoverInv (s : PointerState F) : Prop := Hovering s.injected s.hover

variable {s : PointerState F}

theorem HoverInv.idle (h : HoverInv s) (hidle : s.hoverActive = false) :
    Hovering s.injected none := by
  rwa [HoverInv, hover, hidle] at h

theorem HoverInv.active (h : HoverInv s) (hactive : s.hoverActive = true) :
    Hovering s.injected (some s.hoverDisplayId) := by
  rwa [HoverInv, hover, hactive] at h

theorem hoverInv_of_idle (h : Hovering s.injected none) (hidle : s.hoverActive = false) :
    HoverInv s := by
  rwa [HoverInv, hover, hidle]

theorem hoverInv_of_active (h : Hovering s.injected (some s.hoverDisplayId))
    (hactive : s.hoverActive = true) : HoverInv s := by
  rwa [HoverInv, hover, hactive]

theorem HoverInv.inject (h : HoverInv s) {event : InputEvent F} (hsignal : hoverSignal event = none)
    (hdown : event.isDown = false) : HoverInv (s.inject event) :=
  h.other hsignal fun hpressed => absurd (hdown.symm.trans hpressed) nofun

theorem HoverInv.press (h : HoverInv s) (hidle : s.hoverActive = false) {event : InputEvent F}
    (hsignal : hoverSignal event = none) : HoverInv (s.inject event) :=
  hoverInv_of_idle ((h.idle hidle).other hsignal fun _ => rfl) hidle

theorem hoverActive_injectHoverExitLocked (s : PointerState F) (now : Int) :
    (s.injectHoverExitLocked now).hoverActive = false := by
  unfold injectHoverExitLocked
  split
  · rfl
  · rename_i hidle
    exact Bool.eq_false_iff.mpr hidle

section

variable (h : HoverInv s)
include h

theorem HoverInv.injectHoverExitLocked (now : Int) : HoverInv (s.injectHoverExitLocked now) := by
  unfold PointerState.injectHoverExitLocked
  split
  · rename_i hactive
    exact hoverInv_of_idle ((h.active hactive).exit now s.hoverX s.hoverY) rfl
  · exact h

/-- The hover is on the display afterwards, though the state need not say so yet. -/
theorem HoverInv.enterHover (now displayId : Int) (x y : F) :
    Hovering (s.enterHover now displayId x y).injected (some displayId) ∧
      (s.enterHover now displayId x y).hoverActive = true := by
  have henter : ∀ u : PointerState F, HoverInv u →
      (u.hoverActive = true → displayId = u.hoverDisplayId) →
      Hovering (if u.hoverActive then u else
        { u.inject (.motion displayId .hoverEnter x y 0 now) with hoverActive := true }).injected
          (some displayId) ∧
      (if u.hoverActive then u else
        { u.inject (.motion displayId .hoverEnter x y 0 now) with
          hoverActive := true }).hoverActive = true := by
    intro u hu hsame
    split
    · rename_i hactive
      rw [hsame hactive]
      exact ⟨hu.active hactive, hactive⟩
    · rename_i hidle
      exact ⟨(hu.idle (Bool.eq_false_iff.mpr hidle)).enter now displayId x y, rfl⟩
  unfold PointerState.enterHover
  by_cases hother : s.hoverActive = true ∧ displayId ≠ s.hoverDisplayId
  · rw [if_pos hother]
    refine henter _ (h.injectHoverExitLocked now) fun hactive => ?_
    rw [hoverActive_injectHoverExitLocked] at hactive
    cases hactive
  · rw [if_neg hother]
    exact henter s h fun hactive => Classical.not_not.mp fun hne => hother ⟨hactive, hne⟩

theorem HoverInv.injectHover (now displayId : Int) (x y : F) :
    HoverInv (s.injectHover now displayId x y) := by
  unfold PointerState.injectHover
  split
  · exact h
  · obtain ⟨henter, hactive⟩ := h.enterHover ..
    exact hoverInv_of_active (henter.move now x y) hactive

theorem HoverInv.beginTouch (now displayId pointerId : Int) (x y : F) :
    HoverInv (s.beginTouch now displayId pointerId x y) := by
  have hidle := hoverActive_injectHoverExitLocked s now
  have hexit := h.injectHoverExitLocked now
  unfold PointerState.beginTouch
  dsimp only
  split
  · have hcancel : HoverInv (s.injectHoverExitLocked now).cancelTouch := hexit.inject rfl rfl
    exact HoverInv.press (s := { (s.injectHoverExitLocked now).cancelTouch with .. })
      hcancel hidle rfl
  · exact HoverInv.press (s := { s.injectHoverExitLocked now with .. }) hexit hidle rfl

theorem HoverInv.continueTouch (displayId pointerId : Int) (command : Char) (x y : F) :
    HoverInv (s.continueTouch displayId pointerId command x y) := by
  have hmoved : ∀ action, action ≠ TouchAction.down → Hovering (s.injected ++
      [.touch displayId pointerId s.touchDownTime action x y]) s.hover := by
    intro action haction
    refine h.other rfl fun hpressed => ?_
    cases action with
    | down => exact absurd rfl haction
    | move | up | cancel => cases hpressed
  unfold PointerState.continueTouch
  dsimp only
  split
  · exact hmoved .move nofun
  · split
    · exact hmoved .up nofun
    · split
      · exact hmoved .cancel nofun
      · exact h

theorem HoverInv.injectTouch (now displayId pointerId : Int) (phase : JavaString) (x y : F) :
    HoverInv (s.injectTouch now displayId pointerId phase x y) := by
  unfold PointerState.injectTouch
  split
  · exact h
  · split
    · exact h
    · split
      · exact h.beginTouch ..
      · split
        · exact h.continueTouch ..
        · exact h

theorem HoverInv.injectMouseMove (now displayId : Int) (x y : F) (buttonState : Int) :
    HoverInv (s.injectMouseMove now displayId x y buttonState) := by
  unfold PointerState.injectMouseMove
  split
  · exact h.injectHover ..
  · exact h.other rfl nofun

theorem HoverInv.injectMouseButton (now displayId : Int) (x y : F) (buttonState : Int) :
    HoverInv (s.injectMouseButton now displayId x y buttonState) := by
  have hpointed : HoverInv { s with
      mouseDisplayId := displayId, mouseX := x, mouseY := y, mouseButtonState := buttonState } := h
  unfold PointerState.injectMouseButton
  dsimp only
  split
  · have hexit := hpointed.injectHoverExitLocked now
    exact HoverInv.press (s := { PointerState.injectHoverExitLocked _ now with .. }) hexit
      (hoverActive_injectHoverExitLocked _ now) rfl
  · split
    · exact h.other rfl nofun
    · split
      · exact h.other rfl nofun
      · exact h

theorem HoverInv.perform (now : Int) (command : PointerCommand F) :
    HoverInv (s.perform now command) := by
  cases command with
  | hover displayId x y => exact h.injectHover ..
  | hoverExit => exact h.injectHoverExitLocked now
  | scroll => exact h.inject rfl rfl
  | touch displayId pointerId phase x y => exact h.injectTouch ..
  | mouseMove displayId x y buttonState => exact h.injectMouseMove ..
  | mouseButton displayId x y buttonState => exact h.injectMouseButton ..

theorem HoverInv.resetPointerState (now : Int) : HoverInv (s.resetPointerState now) := by
  have htouch : HoverInv s.resetTouch := by
    unfold resetTouch
    split
    · exact h.other rfl nofun
    · exact h
  have hmouse : HoverInv s.resetTouch.resetMouse := by
    unfold resetMouse
    split
    · exact htouch
    · exact htouch.other rfl nofun
  exact hmouse.injectHoverExitLocked now

theorem HoverInv.step {floats : Floats F} {a : HostStep} {t : PointerState F}
    (hstep : s.step floats a = some t) : HoverInv t := by
  cases a with
  | connect =>
    obtain rfl := step_connect hstep
    exact h
  | line text display now =>
    obtain ⟨-, ⟨-, rfl⟩ | ⟨command, -, rfl⟩⟩ := step_line hstep
    · exact h
    · exact h.perform ..
  | disconnect now =>
    obtain rfl := step_disconnect hstep
    exact h.resetPointerState now

end

theorem hoverInv_initial (floats : Floats F) : HoverInv (PointerState.initial floats) :=
  ⟨⟨[], rfl⟩, fun front _ _ hsplit => by cases front <;> cases hsplit⟩

end PointerState

/-- The hover events of every run make one stream of hovers, and no press falls into
one of them. -/
theorem hover_streams (floats : Floats F) {s : PointerState F}
    (h : Reachable (PointerState.step floats) (.initial floats) s) :
    (∃ key, Stream key (hoverStream s.injected)) ∧ PressedApart s.injected := by
  have hinv : s.HoverInv := h.invariant (I := PointerState.HoverInv)
    (fun _ _ _ hs hstep => hs.step hstep) (PointerState.hoverInv_initial floats)
  exact ⟨⟨s.hover, hinv.stream⟩, hinv.apart⟩

namespace Sample

/-- A hover that changes the display and is closed by a press, and one that is left
open when the host goes away. -/
def hovers : List HostStep :=
  [.connect, line "h 0 1 1", line "h 1 2 2", line "m 1 3 3 0", line "b 1 3 3 1", line "b 1 3 3 0",
    line "h 0 4 4", .disconnect 9]

end Sample

theorem hover_streams_on_two_displays : ∃ s,
    exec (PointerState.step Sample.floats) (.initial Sample.floats) Sample.hovers = some s ∧
      hoverStream s.injected =
        [(.start, 0), (.within, 0), (.stop, 0), (.start, 2), (.within, 2), (.within, 2), (.stop, 2),
          (.start, 0), (.within, 0), (.stop, 0)] ∧
      PressedApart s.injected := by
  obtain ⟨s, hrun, hstream⟩ : ∃ s,
      exec (PointerState.step Sample.floats) (.initial Sample.floats) Sample.hovers = some s ∧
        hoverStream s.injected =
          [(.start, 0), (.within, 0), (.stop, 0), (.start, 2), (.within, 2), (.within, 2),
            (.stop, 2), (.start, 0), (.within, 0), (.stop, 0)] :=
    exists_of_map_decide (by decide +kernel)
  exact ⟨s, hrun, hstream, (hover_streams Sample.floats ⟨_, hrun⟩).2⟩

end Agent
end MacMu
