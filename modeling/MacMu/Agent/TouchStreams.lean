import MacMu.Agent.PointerStreams
import MacMu.Lib.TransitionSystem

/-!
The touch events of the agent as streams of gestures, one for each Android
display. The agent knows one touch. A line that continues it takes over the
display and the pointer it carries, whatever those of the first event were, so the
streams are well formed exactly in the runs in which these agree.
-/

namespace MacMu
namespace Agent

open Gestures PointerState TransitionSystem

variable {F : Type}
variable {displayId pointerId now : Int} {x y : F}

/-- The touch events on each display are complete gestures, with one that goes on
at most while a host is connected. -/
def TouchStreams (s : PointerState F) : Prop :=
  ∀ displayId, ∃ key, Stream key (streamAt displayId s.touchLog) ∧
    (s.connected = false → key = none)

/-- The touch that goes on has started on the display with the pointer. -/
def TouchOpen (s : PointerState F) (displayId pointerId : Int) : Prop :=
  held displayId s.touchLog = some (some pointerId)

/-- A phase that continues a touch carries its display and pointer; a touch that is
cancelled has been left with them. -/
def TouchAgrees (s : PointerState F) : PointerCommand F → Prop
  | .touch displayId pointerId (command :: _) _ _ =>
    0 ≤ displayId → s.touchActive = true →
      (command = 'b' → TouchOpen s s.touchDisplayId s.touchPointerId) ∧
      (command = 'm' ∨ command = 'e' ∨ command = 'c' → TouchOpen s displayId pointerId)
  | _ => True

def TouchOk (floats : Floats F) (s : PointerState F) : HostStep → Prop
  | .connect => True
  | .line text display _ => (parseLine floats display text).elim True (TouchAgrees s)
  | .disconnect _ => s.touchActive = true → TouchOpen s s.touchDisplayId s.touchPointerId

instance (s : PointerState F) (displayId pointerId : Int) :
    Decidable (TouchOpen s displayId pointerId) :=
  inferInstanceAs (Decidable (_ = _))

instance (s : PointerState F) : DecidablePred (TouchAgrees s)
  | .touch _ _ (_ :: _) _ _ => inferInstanceAs (Decidable (_ → _ → _ ∧ _))
  | .touch _ _ [] _ _ | .hover .. | .hoverExit | .scroll .. | .mouseMove .. | .mouseButton .. =>
    isTrue trivial

instance (floats : Floats F) (s : PointerState F) : DecidablePred (TouchOk floats s)
  | .connect => isTrue trivial
  | .line text display _ =>
    match h : parseLine floats display text with
    | none => isTrue (by rw [TouchOk, h]; trivial)
    | some command => decidable_of_iff (TouchAgrees s command) (by rw [TouchOk, h]; rfl)
  | .disconnect _ =>
    (inferInstance :
      Decidable (s.touchActive = true → TouchOpen s s.touchDisplayId s.touchPointerId))

structure TouchInv (s : PointerState F) : Prop where
  single : ∃ gesture, Single s.touchLog gesture ∧ gesture.isSome = s.touchActive
  idle : s.connected = false → s.touchActive = false

structure TouchKept (s t : PointerState F) : Prop where
  log : t.touchLog = s.touchLog
  active : t.touchActive = s.touchActive
  displayId : t.touchDisplayId = s.touchDisplayId
  pointerId : t.touchPointerId = s.touchPointerId
  connected : t.connected = s.connected

variable {s t : PointerState F}

theorem touchStreams_held (h : TouchStreams s) (displayId : Int) :
    held displayId s.touchLog ≠ none := by
  obtain ⟨key, hkey, -⟩ := h ..
  rw [held_eq_some.mpr hkey]
  nofun

theorem TouchInv.streams (h : TouchInv s) : TouchStreams s := by
  obtain ⟨gesture, hsingle, hactive⟩ := h.single
  refine fun displayId => ⟨_, held_eq_some.mp (hsingle displayId), fun hconnected => ?_⟩
  rw [h.idle hconnected] at hactive
  rw [Option.isSome_eq_false_iff.mp hactive |> Option.isNone_iff_eq_none.mp]
  rfl

theorem TouchInv.kept (h : TouchInv s) (hkept : TouchKept s t) : TouchInv t := by
  refine ⟨?_, ?_⟩
  · rw [hkept.log, hkept.active]
    exact h.single
  · rw [hkept.connected, hkept.active]
    exact h.idle

theorem TouchInv.single_of_open (h : TouchInv s) (hopen : TouchOpen s displayId pointerId) :
    Single s.touchLog (some (displayId, pointerId)) := by
  obtain ⟨gesture, hsingle, -⟩ := h.single
  exact hsingle.eq_of_held hopen ▸ hsingle

theorem TouchInv.single_of_idle (h : TouchInv s) (hidle : s.touchActive = false) :
    Single s.touchLog none := by
  obtain ⟨gesture, hsingle, hactive⟩ := h.single
  rw [hidle] at hactive
  rwa [Option.isNone_iff_eq_none.mp (Option.isSome_eq_false_iff.mp hactive)] at hsingle

namespace TouchKept

theorem of_hovered (h : Hovered s t) : TouchKept s t := by
  have hlog := h.touchLog
  obtain ⟨_, _, _, _, _, rfl, _⟩ := h
  exact ⟨hlog, rfl, rfl, rfl, rfl⟩

theorem inject (h : TouchKept s t) (event : InputEvent F) (hevent : touchSignal event = none) :
    TouchKept s (t.inject event) := by
  refine ⟨?_, h.active, h.displayId, h.pointerId, h.connected⟩
  rw [touchLog_inject, hevent, h.log]
  exact List.append_nil _

theorem mouse (h : TouchKept s t) (displayId : Int) (x y : F) (buttonState downTime : Int) :
    TouchKept s { t with
      mouseDisplayId := displayId, mouseX := x, mouseY := y, mouseButtonState := buttonState,
      mouseDownTime := downTime } :=
  ⟨h.log, h.active, h.displayId, h.pointerId, h.connected⟩

theorem trans {u : PointerState F} (h : TouchKept s t) (h' : TouchKept t u) : TouchKept s u :=
  ⟨h'.log.trans h.log, h'.active.trans h.active, h'.displayId.trans h.displayId,
    h'.pointerId.trans h.pointerId, h'.connected.trans h.connected⟩

theorem isOpen (h : TouchKept s t) :
    TouchOpen t t.touchDisplayId t.touchPointerId ↔
      TouchOpen s s.touchDisplayId s.touchPointerId := by
  rw [TouchOpen, h.log, h.displayId, h.pointerId, TouchOpen]

end TouchKept

section

variable (s : PointerState F)

theorem touchKept_refl : TouchKept s s := ⟨rfl, rfl, rfl, rfl, rfl⟩

theorem touchKept_injectHoverExitLocked (now : Int) : TouchKept s (s.injectHoverExitLocked now) :=
  .of_hovered ((Hovered.refl s).injectHoverExitLocked now)

theorem touchKept_injectMouseMove (now displayId : Int) (x y : F) (buttonState : Int) :
    TouchKept s (s.injectMouseMove now displayId x y buttonState) := by
  unfold injectMouseMove
  split
  · exact .of_hovered (hovered_injectHover s now displayId x y)
  · exact ((touchKept_refl s).mouse displayId x y buttonState s.mouseDownTime).inject _ rfl

theorem touchKept_injectMouseButton (now displayId : Int) (x y : F) (buttonState : Int) :
    TouchKept s (s.injectMouseButton now displayId x y buttonState) := by
  have hplaced := (touchKept_refl s).mouse displayId x y buttonState s.mouseDownTime
  unfold injectMouseButton
  dsimp only
  split
  · have hleft := hplaced.trans (touchKept_injectHoverExitLocked _ now)
    refine TouchKept.inject ?_ _ rfl
    exact ⟨hleft.log, hleft.active, hleft.displayId, hleft.pointerId, hleft.connected⟩
  · split
    · have hup := hplaced.inject (.motion displayId .up x y 0 s.mouseDownTime) rfl
      exact ⟨hup.log, hup.active, hup.displayId, hup.pointerId, hup.connected⟩
    · split
      · exact hplaced.inject _ rfl
      · exact hplaced

theorem touchKept_resetMouse : TouchKept s s.resetMouse := by
  unfold resetMouse
  split
  · exact touchKept_refl s
  · have hup := (touchKept_refl s).inject
      (.motion s.mouseDisplayId .up s.mouseX s.mouseY 0 s.mouseDownTime) rfl
    exact ⟨hup.log, hup.active, hup.displayId, hup.pointerId, hup.connected⟩

theorem touchLog_cancelTouch :
    s.cancelTouch.touchLog = s.touchLog ++ [⟨s.touchDisplayId, s.touchPointerId, .stop⟩] :=
  touchLog_inject s _

end

theorem TouchInv.cancel (h : TouchInv s)
    (hok : s.touchActive = true → TouchOpen s s.touchDisplayId s.touchPointerId) :
    Single (if s.touchActive then s.cancelTouch else s).touchLog none := by
  split
  · rename_i hactive
    rw [touchLog_cancelTouch]
    exact (h.single_of_open (hok hactive)).stop
  · rename_i hidle
    exact h.single_of_idle (Bool.eq_false_iff.mpr hidle)

theorem open_of_cancelTouch (h : held s.touchDisplayId s.cancelTouch.touchLog ≠ none) :
    TouchOpen s s.touchDisplayId s.touchPointerId := by
  rw [touchLog_cancelTouch] at h
  exact held_of_concat (by decide) h

theorem TouchInv.beginTouch (h : TouchInv s) (hconnected : s.connected = true)
    (hok : s.touchActive = true → TouchOpen s s.touchDisplayId s.touchPointerId)
    (now displayId pointerId : Int) (x y : F) :
    TouchInv (s.beginTouch now displayId pointerId x y) := by
  have hkept := touchKept_injectHoverExitLocked s now
  have hsingle := (h.kept hkept).cancel fun hactive =>
    hkept.isOpen.mpr (hok (hkept.active ▸ hactive))
  refine ⟨⟨some (displayId, pointerId), ?_, rfl⟩, fun hidle => ?_⟩
  · rw [PointerState.beginTouch, touchLog_inject]
    exact hsingle.start displayId pointerId
  · have hstays : (s.beginTouch now displayId pointerId x y).connected = s.connected := by
      rw [← hkept.connected]
      dsimp only [PointerState.beginTouch, PointerState.inject]
      split <;> rfl
    rw [hstays, hconnected] at hidle
    cases hidle

theorem open_of_beginTouch (h : TouchStreams (s.beginTouch now displayId pointerId x y))
    (hactive : s.touchActive = true) : TouchOpen s s.touchDisplayId s.touchPointerId := by
  have hkept := touchKept_injectHoverExitLocked s now
  have hheld := touchStreams_held h (s.injectHoverExitLocked now).touchDisplayId
  rw [PointerState.beginTouch, touchLog_inject] at hheld
  have hbefore := held_of_concat_ne_none hheld
  rw [if_pos (hkept.active.trans hactive)] at hbefore
  exact hkept.isOpen.mp (open_of_cancelTouch hbefore)

theorem touchLog_continueTouch (s : PointerState F) (displayId pointerId : Int) (command : Char)
    (x y : F) : (s.continueTouch displayId pointerId command x y).touchLog = s.touchLog ++
      if command = 'm' then [⟨displayId, pointerId, .within⟩]
      else if command = 'e' ∨ command = 'c' then [⟨displayId, pointerId, .stop⟩] else [] := by
  unfold PointerState.continueTouch
  dsimp only
  split
  · exact touchLog_inject _ _
  · split
    · rename_i he
      rw [if_pos (.inl he)]
      exact touchLog_inject _ _
    · rename_i he
      split
      · rename_i hc
        rw [if_pos (.inr hc)]
        exact touchLog_inject _ _
      · rename_i hc
        rw [if_neg (not_or.mpr ⟨he, hc⟩), List.append_nil]
        rfl

theorem touchActive_continueTouch (s : PointerState F) (displayId pointerId : Int) (command : Char)
    (x y : F) :
    (s.continueTouch displayId pointerId command x y).touchActive =
      (s.touchActive && !(command = 'e' ∨ command = 'c')) := by
  unfold PointerState.continueTouch
  dsimp only
  split
  · rename_i hm
    subst hm
    exact (Bool.and_true _).symm
  · split
    · rename_i he
      simp [he]
    · split
      · rename_i hc
        simp [hc]
      · rename_i he hc
        simp [he, hc]

theorem connected_continueTouch (s : PointerState F) (displayId pointerId : Int) (command : Char)
    (x y : F) : (s.continueTouch displayId pointerId command x y).connected = s.connected := by
  unfold PointerState.continueTouch
  dsimp only
  split
  · rfl
  · split
    · rfl
    · split <;> rfl

theorem TouchInv.continueTouch (h : TouchInv s) (hconnected : s.connected = true)
    (hactive : s.touchActive = true) {command : Char}
    (hok : command = 'm' ∨ command = 'e' ∨ command = 'c' → TouchOpen s displayId pointerId)
    (x y : F) : TouchInv (s.continueTouch displayId pointerId command x y) := by
  refine ⟨?_, fun hidle => ?_⟩
  · rw [touchLog_continueTouch, touchActive_continueTouch, hactive, Bool.true_and]
    by_cases hm : command = 'm'
    · have hsingle := h.single_of_open (hok (.inl hm))
      refine ⟨some (displayId, pointerId), ?_, ?_⟩
      · rw [if_pos hm]
        exact hsingle.within
      · rw [hm]
        rfl
    · by_cases hstop : command = 'e' ∨ command = 'c'
      · have hsingle := h.single_of_open (hok (.inr hstop))
        refine ⟨none, ?_, ?_⟩
        · rw [if_neg hm, if_pos hstop]
          exact hsingle.stop
        · simp [hstop]
      · obtain ⟨gesture, hsingle, hopen⟩ := h.single
        refine ⟨gesture, ?_, ?_⟩
        · rw [if_neg hm, if_neg hstop, List.append_nil]
          exact hsingle
        · rw [hopen, hactive]
          simp [hstop]
  · rw [connected_continueTouch, hconnected] at hidle
    cases hidle

theorem open_of_continueTouch {command : Char}
    (h : TouchStreams (s.continueTouch displayId pointerId command x y))
    (hcommand : command = 'm' ∨ command = 'e' ∨ command = 'c') :
    TouchOpen s displayId pointerId := by
  have hheld := touchStreams_held h displayId
  rw [touchLog_continueTouch] at hheld
  by_cases hm : command = 'm'
  · rw [if_pos hm] at hheld
    exact held_of_concat (by decide) hheld
  · rw [if_neg hm, if_pos (hcommand.resolve_left hm)] at hheld
    exact held_of_concat (by decide) hheld

theorem TouchInv.injectTouch (h : TouchInv s) (hconnected : s.connected = true) {phase : JavaString}
    (hok : TouchAgrees s (.touch displayId pointerId phase x y)) :
    TouchInv (s.injectTouch now displayId pointerId phase x y) := by
  cases phase with
  | nil => exact h
  | cons command rest =>
    dsimp only [PointerState.injectTouch]
    split
    · exact h
    · rename_i hdisplay
      have hagrees := hok (Int.not_lt.mp hdisplay)
      split
      · rename_i hbegin
        exact h.beginTouch hconnected (fun hactive => (hagrees hactive).1 hbegin) ..
      · split
        · rename_i hactive
          exact h.continueTouch hconnected hactive (hagrees hactive).2 x y
        · exact h

theorem agrees_of_injectTouch {phase : JavaString}
    (h : TouchStreams (s.injectTouch now displayId pointerId phase x y)) :
    TouchAgrees s (.touch displayId pointerId phase x y) := by
  cases phase with
  | nil => trivial
  | cons command rest =>
    intro hdisplay hactive
    dsimp only [PointerState.injectTouch] at h
    rw [if_neg (Int.not_lt.mpr hdisplay)] at h
    refine ⟨fun hbegin => ?_, fun hcommand => ?_⟩
    · rw [if_pos hbegin] at h
      exact open_of_beginTouch h hactive
    · have hother : command ≠ 'b' := by
        rintro rfl
        revert hcommand
        decide
      rw [if_neg hother, if_pos hactive] at h
      exact open_of_continueTouch h hcommand

theorem touchKept_perform (s : PointerState F) (now : Int) {command : PointerCommand F}
    (hother : ∀ displayId pointerId phase x y,
      command ≠ .touch displayId pointerId phase x y) : TouchKept s (s.perform now command) := by
  cases command with
  | hover displayId x y => exact .of_hovered (hovered_injectHover s now displayId x y)
  | hoverExit => exact touchKept_injectHoverExitLocked s now
  | scroll => exact (touchKept_refl s).inject _ rfl
  | touch displayId pointerId phase x y => exact absurd rfl (hother displayId pointerId phase x y)
  | mouseMove => exact touchKept_injectMouseMove ..
  | mouseButton => exact touchKept_injectMouseButton ..

theorem touchKept_resetPointerState (s : PointerState F) (now : Int) :
    TouchKept s.resetTouch (s.resetPointerState now) :=
  (touchKept_resetMouse _).trans (touchKept_injectHoverExitLocked _ now)

theorem touchLog_resetTouch (s : PointerState F) :
    s.resetTouch.touchLog = (if s.touchActive then s.cancelTouch else s).touchLog := by
  unfold resetTouch
  split <;> rfl

theorem touchActive_resetTouch (s : PointerState F) : s.resetTouch.touchActive = false := by
  unfold resetTouch
  split
  · rfl
  · rename_i hidle
    exact Bool.eq_false_iff.mpr hidle

section Steps

variable {floats : Floats F}

theorem TouchInv.step (h : TouchInv s) {a : HostStep} (hok : TouchOk floats s a)
    (hstep : s.step floats a = some t) : TouchInv t := by
  cases a with
  | connect =>
    obtain rfl := step_connect hstep
    exact ⟨h.single, nofun⟩
  | line text display now =>
    obtain ⟨hconnected, ⟨-, rfl⟩ | ⟨command, hcommand, rfl⟩⟩ := step_line hstep
    · exact h
    · rw [TouchOk, hcommand] at hok
      cases command with
      | touch => exact h.injectTouch hconnected hok
      | _ => exact h.kept (touchKept_perform s now nofun)
  | disconnect now =>
    obtain rfl := step_disconnect hstep
    have hkept := touchKept_resetPointerState s now
    refine ⟨⟨none, ?_, ?_⟩, fun _ => ?_⟩
    · change Single (s.resetPointerState now).touchLog none
      rw [hkept.log, touchLog_resetTouch]
      exact h.cancel hok
    · exact ((hkept.active).trans (touchActive_resetTouch s)).symm
    · exact (hkept.active).trans (touchActive_resetTouch s)

/-- A step after which the streams are well formed was one that agrees. -/
theorem touchOk_of_streams {a : HostStep} (hstep : s.step floats a = some t)
    (h : TouchStreams t) : TouchOk floats s a := by
  cases a with
  | connect => trivial
  | line text display now =>
    obtain ⟨-, ⟨hnone, -⟩ | ⟨command, hcommand, rfl⟩⟩ := step_line hstep
    · rw [TouchOk, hnone]
      trivial
    · rw [TouchOk, hcommand]
      cases command with
      | touch => exact agrees_of_injectTouch h
      | _ => trivial
  | disconnect now =>
    intro hactive
    obtain rfl := step_disconnect hstep
    have hheld : held s.touchDisplayId (s.resetPointerState now).touchLog ≠ none :=
      touchStreams_held h s.touchDisplayId
    rw [(touchKept_resetPointerState s now).log, touchLog_resetTouch, if_pos hactive] at hheld
    exact open_of_cancelTouch hheld

end Steps

theorem touchInv_initial (floats : Floats F) : TouchInv (PointerState.initial floats) :=
  ⟨⟨none, single_nil, rfl⟩, fun _ => rfl⟩

/-- In a run the streams are well formed after every step exactly if every step
agrees with the touch that is open. -/
theorem touch_streams_iff (floats : Floats F) {steps : List HostStep} {last : PointerState F}
    (hrun : exec (PointerState.step floats) (.initial floats) steps = some last) :
    Meets (PointerState.step floats) (TouchOk floats) (.initial floats) steps ↔
      ∀ k t, exec (PointerState.step floats) (.initial floats) (steps.take k) = some t →
        TouchStreams t :=
  meets_iff_forall_take (fun _ h => h.streams) (fun _ _ _ h hok hstep => h.step hok hstep)
    (fun _ _ _ _ hstep h => touchOk_of_streams hstep h) (touchInv_initial floats) hrun

namespace Sample

/-- A touch, and one that is left open when the host goes away. -/
def touches : List HostStep :=
  [.connect, line "t 1 3 b 10 20", line "t 1 3 m 11 20", line "t 1 3 e 11 20",
    line "t 0 0 b 1 1", line "t 0 0 x 1 1", .disconnect 9]

def strayMove : List HostStep := [.connect, line "t 0 0 b 10 20", line "t 1 0 m 10 20"]

end Sample

theorem touch_streams_left_open : ∃ last,
    exec (PointerState.step Sample.floats) (.initial Sample.floats) Sample.touches = some last ∧
      last.touchLog.length = 5 ∧ TouchStreams last := by
  obtain ⟨last, hrun, hlength⟩ : ∃ last, exec (PointerState.step Sample.floats)
      (.initial Sample.floats) Sample.touches = some last ∧ last.touchLog.length = 5 :=
    exists_of_map_decide (by decide +kernel)
  have hmeets : Meets (PointerState.step Sample.floats) (TouchOk Sample.floats)
      (.initial Sample.floats) Sample.touches := by
    decide +kernel
  refine ⟨last, hrun, hlength, (touch_streams_iff Sample.floats hrun).mp hmeets 7 last hrun⟩

/-- A move on a display on which no touch has begun. -/
theorem touch_moves_elsewhere : ∃ last,
    exec (PointerState.step Sample.floats) (.initial Sample.floats) Sample.strayMove = some last ∧
      last.injected = [.touch 0 0 5 .down 10 20, .touch 2 0 5 .move 10 20] ∧
      ¬TouchStreams last := by
  obtain ⟨last, hrun, hinjected, hheld⟩ : ∃ last, exec (PointerState.step Sample.floats)
      (.initial Sample.floats) Sample.strayMove = some last ∧
      last.injected = [.touch 0 0 5 .down 10 20, .touch 2 0 5 .move 10 20] ∧
      held 2 last.touchLog = none :=
    exists_of_map_decide (by decide +kernel)
  exact ⟨last, hrun, hinjected, fun h => touchStreams_held h 2 hheld⟩

end Agent
end MacMu
