import MacMu.Agent.PointerStreams
import MacMu.Lib.TransitionSystem

/-!
The button events of the mouse as streams of presses, one for each Android display.
The agent keeps the buttons and the display of the last line. A move with pressed
buttons is injected whether or not a press has been, and a release goes to the
display of its own line, so the streams are well formed exactly in the runs in
which the lines agree with the press that is open.
-/

namespace MacMu
namespace Agent

open Gestures PointerState TransitionSystem

variable {F : Type}
variable {displayId buttonState : Int}

/-- On each display a press is followed by moves and its release, and only then by
the next press. -/
def MouseStreams (s : PointerState F) : Prop :=
  ∀ displayId, ∃ key, Stream key (streamAt displayId s.mouseLog)

def MouseOpen (s : PointerState F) (displayId : Int) : Prop :=
  held displayId s.mouseLog = some (some ())

/-- A move with buttons, and a change of the pressed buttons, is on the display of
the press. -/
def MouseAgrees (s : PointerState F) : PointerCommand F → Prop
  | .mouseMove displayId _ _ buttonState => buttonState ≠ 0 → MouseOpen s displayId
  | .mouseButton displayId _ _ buttonState =>
    s.mouseButtonState ≠ 0 → buttonState ≠ s.mouseButtonState → MouseOpen s displayId
  | _ => True

def MouseOk (floats : Floats F) (s : PointerState F) : HostStep → Prop
  | .connect => True
  | .line text display _ => (parseLine floats display text).elim True (MouseAgrees s)
  | .disconnect _ => s.mouseButtonState ≠ 0 → MouseOpen s s.mouseDisplayId

instance (s : PointerState F) (displayId : Int) : Decidable (MouseOpen s displayId) :=
  inferInstanceAs (Decidable (_ = _))

instance (s : PointerState F) : DecidablePred (MouseAgrees s)
  | .mouseMove .. => inferInstanceAs (Decidable (_ → _))
  | .mouseButton .. => inferInstanceAs (Decidable (_ → _ → _))
  | .touch .. | .hover .. | .hoverExit | .scroll .. => isTrue trivial

instance (floats : Floats F) (s : PointerState F) : DecidablePred (MouseOk floats s)
  | .connect => isTrue trivial
  | .line text display _ =>
    match h : parseLine floats display text with
    | none => isTrue (by rw [MouseOk, h]; trivial)
    | some command => decidable_of_iff (MouseAgrees s command) (by rw [MouseOk, h]; rfl)
  | .disconnect _ => inferInstanceAs (Decidable (_ → _))

def MouseInv (s : PointerState F) : Prop :=
  ∃ gesture, Single s.mouseLog gesture ∧ (gesture = none ↔ s.mouseButtonState = 0)

structure MouseKept (s t : PointerState F) : Prop where
  log : t.mouseLog = s.mouseLog
  buttonState : t.mouseButtonState = s.mouseButtonState
  displayId : t.mouseDisplayId = s.mouseDisplayId

variable {s t : PointerState F}

theorem mouseStreams_held (h : MouseStreams s) (displayId : Int) :
    held displayId s.mouseLog ≠ none := by
  obtain ⟨key, hkey⟩ := h ..
  rw [held_eq_some.mpr hkey]
  nofun

theorem MouseInv.streams (h : MouseInv s) : MouseStreams s := by
  obtain ⟨gesture, hsingle, -⟩ := h
  exact fun displayId => ⟨_, held_eq_some.mp (hsingle displayId)⟩

theorem MouseInv.kept (h : MouseInv s) (hkept : MouseKept s t) : MouseInv t := by
  rw [MouseInv, hkept.log, hkept.buttonState]
  exact h

theorem MouseInv.single_of_open (h : MouseInv s) (hopen : MouseOpen s displayId) :
    Single s.mouseLog (some (displayId, ())) := by
  obtain ⟨gesture, hsingle, -⟩ := h
  exact hsingle.eq_of_held hopen ▸ hsingle

theorem MouseInv.single_of_idle (h : MouseInv s) (hidle : s.mouseButtonState = 0) :
    Single s.mouseLog none := by
  obtain ⟨gesture, hsingle, hpressed⟩ := h
  exact hpressed.mpr hidle ▸ hsingle

namespace MouseKept

theorem of_hovered (h : Hovered s t) : MouseKept s t := by
  have hlog := h.mouseLog
  obtain ⟨_, _, _, _, _, rfl, _⟩ := h
  exact ⟨hlog, rfl, rfl⟩

theorem inject (h : MouseKept s t) (event : InputEvent F) (hevent : mouseSignal event = none) :
    MouseKept s (t.inject event) := by
  refine ⟨?_, h.buttonState, h.displayId⟩
  rw [mouseLog_inject, hevent, h.log]
  exact List.append_nil _

theorem touch (h : MouseKept s t) (active : Bool) (displayId pointerId : Int) (x y : F)
    (downTime : Int) :
    MouseKept s { t with
      touchActive := active, touchDisplayId := displayId, touchPointerId := pointerId, touchX := x,
      touchY := y, touchDownTime := downTime } :=
  ⟨h.log, h.buttonState, h.displayId⟩

end MouseKept

section

variable (s : PointerState F)

theorem mouseKept_refl : MouseKept s s := ⟨rfl, rfl, rfl⟩

theorem mouseKept_injectHoverExitLocked (now : Int) : MouseKept s (s.injectHoverExitLocked now) :=
  .of_hovered ((Hovered.refl s).injectHoverExitLocked now)

theorem mouseKept_beginTouch (now displayId pointerId : Int) (x y : F) :
    MouseKept s (s.beginTouch now displayId pointerId x y) := by
  have hexit := mouseKept_injectHoverExitLocked s now
  unfold beginTouch
  dsimp only
  refine MouseKept.inject (MouseKept.touch ?_ true displayId pointerId x y now) _ rfl
  split
  · exact hexit.inject _ rfl
  · exact hexit

theorem mouseKept_continueTouch (displayId pointerId : Int) (command : Char) (x y : F) :
    MouseKept s (s.continueTouch displayId pointerId command x y) := by
  have hplaced := (mouseKept_refl s).touch s.touchActive displayId pointerId x y s.touchDownTime
  have hended : ∀ action, MouseKept s
      { PointerState.inject { s with
          touchDisplayId := displayId, touchPointerId := pointerId, touchX := x, touchY := y }
          (.touch displayId pointerId s.touchDownTime action x y) with
        touchActive := false, touchDisplayId := -1 } := fun action =>
    (hplaced.inject (.touch displayId pointerId s.touchDownTime action x y) rfl).touch false (-1)
      pointerId x y s.touchDownTime
  unfold continueTouch
  dsimp only
  split
  · exact hplaced.inject _ rfl
  · split
    · exact hended .up
    · split
      · exact hended .cancel
      · exact hplaced

theorem mouseKept_injectTouch (now displayId pointerId : Int) (phase : JavaString) (x y : F) :
    MouseKept s (s.injectTouch now displayId pointerId phase x y) := by
  cases phase with
  | nil => exact mouseKept_refl s
  | cons command rest =>
    dsimp only [injectTouch]
    split
    · exact mouseKept_refl s
    · split
      · exact mouseKept_beginTouch ..
      · split
        · exact mouseKept_continueTouch ..
        · exact mouseKept_refl s

theorem mouseKept_resetTouch : MouseKept s s.resetTouch := by
  unfold resetTouch
  split
  · exact ((mouseKept_refl s).inject _ rfl).touch false (-1) s.touchPointerId s.touchX s.touchY
      s.touchDownTime
  · exact mouseKept_refl s

theorem mouseKept_perform (now : Int) {command : PointerCommand F}
    (hmove : ∀ displayId x y buttonState, command = .mouseMove displayId x y buttonState →
      buttonState = 0)
    (hbutton : ∀ displayId x y buttonState,
      command ≠ .mouseButton displayId x y buttonState) : MouseKept s (s.perform now command) := by
  cases command with
  | hover displayId x y => exact .of_hovered (hovered_injectHover s now displayId x y)
  | hoverExit => exact mouseKept_injectHoverExitLocked s now
  | scroll => exact (mouseKept_refl s).inject _ rfl
  | touch => exact mouseKept_injectTouch ..
  | mouseMove displayId x y buttonState =>
    dsimp only [perform, injectMouseMove]
    rw [if_pos (hmove displayId x y buttonState rfl)]
    exact .of_hovered (hovered_injectHover s now displayId x y)
  | mouseButton displayId x y buttonState => exact absurd rfl (hbutton displayId x y buttonState)

theorem mouseLog_injectMouseMove (now displayId : Int) (x y : F) (hpressed : buttonState ≠ 0) :
    (s.injectMouseMove now displayId x y buttonState).mouseLog =
      s.mouseLog ++ [⟨displayId, (), .within⟩] := by
  rw [injectMouseMove, if_neg hpressed, mouseLog_inject, mouseSignal, if_neg hpressed]
  rfl

theorem mouseButtonState_injectMouseMove (now displayId : Int) (x y : F)
    (hpressed : buttonState ≠ 0) :
    (s.injectMouseMove now displayId x y buttonState).mouseButtonState = buttonState := by
  rw [injectMouseMove, if_neg hpressed]
  rfl

theorem mouseLog_injectMouseButton (now displayId : Int) (x y : F) (buttonState : Int) :
    (s.injectMouseButton now displayId x y buttonState).mouseLog = s.mouseLog ++
      if s.mouseButtonState = 0 ∧ buttonState ≠ 0 then [⟨displayId, (), .start⟩]
      else if s.mouseButtonState ≠ 0 ∧ buttonState = 0 then [⟨displayId, (), .stop⟩]
      else if s.mouseButtonState ≠ buttonState then [⟨displayId, (), .within⟩] else [] := by
  unfold injectMouseButton
  dsimp only
  split
  · rw [mouseLog_inject]
    have hexit := mouseKept_injectHoverExitLocked { s with
      mouseDisplayId := displayId, mouseX := x, mouseY := y, mouseButtonState := buttonState } now
    exact congrArg (· ++ [_]) hexit.log
  · rename_i hpress
    split
    · exact mouseLog_inject _ _
    · rename_i hrelease
      split
      · rename_i hchange
        have hpressed : buttonState ≠ 0 := by
          rintro rfl
          exact hrelease ⟨hchange, rfl⟩
        rw [mouseLog_inject, mouseSignal, if_neg hpressed]
        rfl
      · exact (List.append_nil _).symm

theorem mouseButtonState_injectMouseButton (now displayId : Int) (x y : F) (buttonState : Int) :
    (s.injectMouseButton now displayId x y buttonState).mouseButtonState = buttonState := by
  unfold injectMouseButton
  dsimp only
  split
  · exact (mouseKept_injectHoverExitLocked _ now).buttonState
  · split
    · rfl
    · split <;> rfl

end

theorem MouseInv.injectMouseMove (h : MouseInv s) (hpressed : buttonState ≠ 0)
    (hopen : MouseOpen s displayId) (now : Int) (x y : F) :
    MouseInv (s.injectMouseMove now displayId x y buttonState) := by
  refine ⟨some (displayId, ()), ?_, ?_⟩
  · rw [mouseLog_injectMouseMove s now displayId x y hpressed]
    exact (h.single_of_open hopen).within
  · rw [mouseButtonState_injectMouseMove s now displayId x y hpressed]
    exact ⟨nofun, fun hzero => absurd hzero hpressed⟩

theorem MouseInv.injectMouseButton (h : MouseInv s)
    (hopen : s.mouseButtonState ≠ 0 → buttonState ≠ s.mouseButtonState → MouseOpen s displayId)
    (now : Int) (x y : F) : MouseInv (s.injectMouseButton now displayId x y buttonState) := by
  rw [MouseInv, mouseLog_injectMouseButton, mouseButtonState_injectMouseButton]
  by_cases hpressed : s.mouseButtonState = 0
  · have hidle := h.single_of_idle hpressed
    by_cases hzero : buttonState = 0
    · refine ⟨none, ?_, iff_of_true rfl hzero⟩
      simpa [hpressed, hzero] using hidle
    · refine ⟨some (displayId, ()), ?_, ⟨nofun, fun h => absurd h hzero⟩⟩
      rw [if_pos ⟨hpressed, hzero⟩]
      exact hidle.start displayId ()
  · have hstart : ¬(s.mouseButtonState = 0 ∧ buttonState ≠ 0) := fun hand => hpressed hand.1
    rw [if_neg hstart]
    by_cases hzero : buttonState = 0
    · have hsingle := h.single_of_open (hopen hpressed (hzero ▸ Ne.symm hpressed))
      refine ⟨none, ?_, iff_of_true rfl hzero⟩
      rw [if_pos ⟨hpressed, hzero⟩]
      exact hsingle.stop
    · rw [if_neg fun hand => hzero hand.2]
      by_cases hsame : s.mouseButtonState = buttonState
      · obtain ⟨gesture, hsingle, hgesture⟩ := h
        refine ⟨gesture, ?_, hsame ▸ hgesture⟩
        rwa [if_neg (not_not_intro hsame), List.append_nil]
      · have hsingle := h.single_of_open (hopen hpressed (Ne.symm hsame))
        refine ⟨some (displayId, ()), ?_, ⟨nofun, fun h => absurd h hzero⟩⟩
        rw [if_pos hsame]
        exact hsingle.within

theorem open_of_injectMouseButton {now : Int} {x y : F}
    (h : MouseStreams (s.injectMouseButton now displayId x y buttonState))
    (hpressed : s.mouseButtonState ≠ 0) (hchange : buttonState ≠ s.mouseButtonState) :
    MouseOpen s displayId := by
  have hheld := mouseStreams_held h displayId
  rw [mouseLog_injectMouseButton, if_neg fun hand => hpressed hand.1] at hheld
  by_cases hzero : buttonState = 0
  · rw [if_pos ⟨hpressed, hzero⟩] at hheld
    exact held_of_concat (by decide) hheld
  · rw [if_neg fun hand => hzero hand.2, if_pos (Ne.symm hchange)] at hheld
    exact held_of_concat (by decide) hheld

theorem mouseLog_resetMouse (s : PointerState F) : s.resetMouse.mouseLog = s.mouseLog ++
      if s.mouseButtonState = 0 then [] else [⟨s.mouseDisplayId, (), .stop⟩] := by
  unfold resetMouse
  split
  · exact (List.append_nil _).symm
  · exact mouseLog_inject _ _

theorem mouseButtonState_resetMouse (s : PointerState F) : s.resetMouse.mouseButtonState = 0 := by
  unfold resetMouse
  split
  · assumption
  · rfl

theorem MouseInv.resetPointerState (h : MouseInv s)
    (hopen : s.mouseButtonState ≠ 0 → MouseOpen s s.mouseDisplayId) (now : Int) :
    MouseInv (s.resetPointerState now) := by
  refine MouseInv.kept ?_ (mouseKept_injectHoverExitLocked _ now)
  have htouch := mouseKept_resetTouch s
  have hinv := h.kept htouch
  rw [MouseInv, mouseLog_resetMouse, mouseButtonState_resetMouse]
  refine ⟨none, ?_, iff_of_true rfl rfl⟩
  split
  · rename_i hidle
    rw [List.append_nil]
    exact hinv.single_of_idle hidle
  · rename_i hpressed
    refine (hinv.single_of_open ?_).stop
    rw [MouseOpen, htouch.log, htouch.displayId]
    exact hopen (htouch.buttonState ▸ hpressed)

theorem open_of_resetPointerState {now : Int}
    (h : held s.mouseDisplayId (s.resetPointerState now).mouseLog ≠ none)
    (hpressed : s.mouseButtonState ≠ 0) : MouseOpen s s.mouseDisplayId := by
  have htouch := mouseKept_resetTouch s
  rw [PointerState.resetPointerState, (mouseKept_injectHoverExitLocked _ now).log,
    mouseLog_resetMouse, if_neg (htouch.buttonState ▸ hpressed), htouch.log,
    htouch.displayId] at h
  exact held_of_concat (by decide) h

section Steps

variable {floats : Floats F}

theorem MouseInv.step (h : MouseInv s) {a : HostStep} (hok : MouseOk floats s a)
    (hstep : s.step floats a = some t) : MouseInv t := by
  cases a with
  | connect =>
    obtain rfl := step_connect hstep
    exact h
  | line text display now =>
    obtain ⟨-, ⟨-, rfl⟩ | ⟨command, hcommand, rfl⟩⟩ := step_line hstep
    · exact h
    · rw [MouseOk, hcommand] at hok
      cases command with
      | mouseMove displayId x y buttonState =>
        by_cases hpressed : buttonState = 0
        · exact h.kept (mouseKept_perform s now (fun _ _ _ _ heq => by cases heq; exact hpressed)
            nofun)
        · exact h.injectMouseMove hpressed (hok hpressed) now x y
      | mouseButton displayId x y buttonState => exact h.injectMouseButton hok now x y
      | _ => exact h.kept (mouseKept_perform s now nofun nofun)
  | disconnect now =>
    obtain rfl := step_disconnect hstep
    exact h.resetPointerState hok now

/-- A step after which the streams are well formed was one that agrees. -/
theorem mouseOk_of_streams {a : HostStep} (hstep : s.step floats a = some t)
    (h : MouseStreams t) : MouseOk floats s a := by
  cases a with
  | connect => trivial
  | line text display now =>
    obtain ⟨-, ⟨hnone, -⟩ | ⟨command, hcommand, rfl⟩⟩ := step_line hstep
    · rw [MouseOk, hnone]
      trivial
    · rw [MouseOk, hcommand]
      cases command with
      | mouseMove displayId x y buttonState =>
        intro hpressed
        have hheld := mouseStreams_held h displayId
        rw [PointerState.perform, mouseLog_injectMouseMove s now displayId x y hpressed] at hheld
        exact held_of_concat (by decide) hheld
      | mouseButton displayId x y buttonState => exact open_of_injectMouseButton h
      | _ => trivial
  | disconnect now =>
    intro hpressed
    obtain rfl := step_disconnect hstep
    exact open_of_resetPointerState (mouseStreams_held h s.mouseDisplayId) hpressed

end Steps

theorem mouseInv_initial (floats : Floats F) : MouseInv (PointerState.initial floats) :=
  ⟨none, single_nil, iff_of_true rfl rfl⟩

/-- In a run the streams are well formed after every step exactly if every step
agrees with the press that is open. -/
theorem mouse_streams_iff (floats : Floats F) {steps : List HostStep} {last : PointerState F}
    (hrun : exec (PointerState.step floats) (.initial floats) steps = some last) :
    Meets (PointerState.step floats) (MouseOk floats) (.initial floats) steps ↔
      ∀ k t, exec (PointerState.step floats) (.initial floats) (steps.take k) = some t →
        MouseStreams t :=
  meets_iff_forall_take (fun _ h => h.streams) (fun _ _ _ h hok hstep => h.step hok hstep)
    (fun _ _ _ _ hstep h => mouseOk_of_streams hstep h) (mouseInv_initial floats) hrun

namespace Sample

/-- A drag, and a press that is left when the host goes away. -/
def drags : List HostStep :=
  [.connect, line "m 1 3 4 0", line "b 1 3 4 1", line "m 1 5 4 1", line "b 1 5 4 3",
    line "b 1 5 4 0", line "b 0 1 1 2", .disconnect 9]

def joined : List HostStep := [.connect, line "m 0 3 4 1", line "b 0 3 4 0"]

end Sample

theorem mouse_streams_dragged : ∃ last,
    exec (PointerState.step Sample.floats) (.initial Sample.floats) Sample.drags = some last ∧
      last.mouseLog.length = 6 ∧ MouseStreams last := by
  obtain ⟨last, hrun, hlength⟩ : ∃ last, exec (PointerState.step Sample.floats)
      (.initial Sample.floats) Sample.drags = some last ∧ last.mouseLog.length = 6 :=
    exists_of_map_decide (by decide +kernel)
  have hmeets : Meets (PointerState.step Sample.floats) (MouseOk Sample.floats)
      (.initial Sample.floats) Sample.drags := by
    decide +kernel
  exact ⟨last, hrun, hlength, (mouse_streams_iff Sample.floats hrun).mp hmeets 8 last hrun⟩

/-- A move with a pressed button and a release, without a press. -/
theorem mouse_released_without_press : ∃ last,
    exec (PointerState.step Sample.floats) (.initial Sample.floats) Sample.joined = some last ∧
      last.injected = [.motion 0 .move 3 4 1 0, .motion 0 .up 3 4 0 0] ∧ ¬MouseStreams last := by
  obtain ⟨last, hrun, hinjected, hheld⟩ : ∃ last, exec (PointerState.step Sample.floats)
      (.initial Sample.floats) Sample.joined = some last ∧
      last.injected = [.motion 0 .move 3 4 1 0, .motion 0 .up 3 4 0 0] ∧
      held 0 last.mouseLog = none :=
    exists_of_map_decide (by decide +kernel)
  exact ⟨last, hrun, hinjected, fun h => mouseStreams_held h 0 hheld⟩

end Agent
end MacMu
