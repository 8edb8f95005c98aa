import MacMu.Shell.InputView

/-!
What becomes of the gestures of an input view. A touch is there from a BEGIN that
was sent until the view stops tracking it or begins another one; a press of the
mouse is there from a button event that was sent until the view stops tracking it.
A gesture that is gone although its end was not even tried on its transport and
display is missed. The events come in any order, and every packet may fail.
-/

namespace MacMu
namespace InputView

open TransitionSystem InputSender

structure Gesture where
  transport : InputTransport
  displayId : Nat
  deriving DecidableEq, Repr

namespace Attempt

def touchBegun : Attempt → Option Gesture
  | .touch .touchBegin transport displayId _ _ true => some ⟨transport, displayId⟩
  | _ => none

def pressBegun : Attempt → Option Gesture
  | .mouseButton transport displayId _ _ _ true => some ⟨transport, displayId⟩
  | _ => none

def endsTouch (g : Gesture) : Attempt → Bool
  | .touch .touchEnd transport displayId _ _ _ => decide (g = ⟨transport, displayId⟩)
  | _ => false

def endsPress (g : Gesture) : Attempt → Bool
  | .mouseButton transport displayId _ _ buttons _ =>
    decide (g = ⟨transport, displayId⟩ ∧ buttons = .released)
  | _ => false

end Attempt

def View.touch (v : View) : Option Gesture :=
  if v.leftTouchActive then some ⟨v.leftTouchTransport, v.leftTouchDisplayId⟩ else none

def View.press (v : View) : Option Gesture :=
  if v.mouseTransport = .none then none else some ⟨v.mouseTransport, v.mouseDisplayId⟩

structure Gestures where
  view : View
  touch : Option Gesture
  press : Option Gesture
  missed : List Gesture
  deriving DecidableEq, Repr

namespace Gestures

def create (displayId : Nat) (hasRenderer : Bool) : Gestures :=
  ⟨.create displayId hasRenderer, none, none, []⟩

def lost (gesture : Option Gesture) (tracked : Bool) (ends : Gesture → Attempt → Bool)
    (attempts : List Attempt) : List Gesture :=
  gesture.toList.filter fun g => !tracked && !attempts.any (ends g)

def nextTouch (touch : Option Gesture) (view : View) (attempts : List Attempt) : Option Gesture :=
  if view.leftTouchActive then (attempts.findSome? Attempt.touchBegun).or touch else none

def lostTouch (touch : Option Gesture) (view : View) (attempts : List Attempt) : List Gesture :=
  lost touch (view.leftTouchActive && (attempts.findSome? Attempt.touchBegun).isNone)
    Attempt.endsTouch attempts

/-- More buttons of the mouse belong to the press that is there. -/
def nextPress (press : Option Gesture) (view : View) (attempts : List Attempt) : Option Gesture :=
  if view.mouseTransport = .none then none
  else press.or (attempts.findSome? Attempt.pressBegun)

def lostPress (press : Option Gesture) (view : View) (attempts : List Attempt) : List Gesture :=
  lost press (decide (view.mouseTransport ≠ .none)) Attempt.endsPress attempts

def step (w : Gestures) (event : ViewEvent) : Option Gestures :=
  let (view, attempts) := w.view.handle event
  some {
    view := view,
    touch := nextTouch w.touch view attempts,
    press := nextPress w.press view attempts,
    missed := w.missed ++ (lostTouch w.touch view attempts ++ lostPress w.press view attempts) }

structure Inv (w : Gestures) : Prop where
  touch : w.touch = w.view.touch
  touching : w.view.leftTouchActive = true → w.view.leftTouchTransport ≠ .none
  press : w.press = w.view.press
  pressing : w.view.mouseTransport ≠ .none → w.view.mouseDisplayId = w.view.displayId

def droppedTouch (w : Gestures) : ViewEvent → Option Gesture
  | .mouseDown point _ => if w.view.mapEvent point = none then none else w.touch
  | .reset | .teardown => w.touch
  | _ => none

def droppedPress (w : Gestures) : ViewEvent → Option Gesture
  | .reset | .teardown => w.press
  | _ => none

@[simp] theorem lost_none (tracked : Bool) (ends : Gesture → Attempt → Bool)
    (attempts : List Attempt) : lost none tracked ends attempts = [] := rfl

@[simp] theorem lost_tracked (gesture : Option Gesture) (ends : Gesture → Attempt → Bool)
    (attempts : List Attempt) : lost gesture true ends attempts = [] := by
  cases gesture <;> rfl

theorem lost_of_any {gesture : Gesture} {ends : Gesture → Attempt → Bool}
    {attempts : List Attempt} (h : attempts.any (ends gesture) = true) (tracked : Bool) :
    lost (some gesture) tracked ends attempts = [] := by
  simp only [lost, Option.toList_some, List.filter_cons, h, Bool.not_true, Bool.and_false,
    Bool.false_eq_true, if_false, List.filter_nil]

theorem lost_of_forall (gesture : Option Gesture) {ends : Gesture → Attempt → Bool}
    {attempts : List Attempt} (h : ∀ g, attempts.any (ends g) = false) :
    lost gesture false ends attempts = gesture.toList := by
  cases gesture with
  | none => rfl
  | some g =>
    simp only [lost, Option.toList_some, List.filter_cons, h, Bool.not_false, Bool.and_true,
      if_true, List.filter_nil]

structure TouchStep (v : View) (view : View) (attempts : List Attempt)
    (dropped : Option Gesture) : Prop where
  next : nextTouch v.touch view attempts = view.touch
  touching : view.leftTouchActive = true → view.leftTouchTransport ≠ .none
  lost : lostTouch v.touch view attempts = dropped.toList

structure PressStep (v : View) (view : View) (attempts : List Attempt)
    (dropped : Option Gesture) : Prop where
  next : nextPress v.press view attempts = view.press
  pressing : view.mouseTransport ≠ .none → view.mouseDisplayId = view.displayId
  lost : lostPress v.press view attempts = dropped.toList

section Kept

variable {v view : View} {attempts : List Attempt}

theorem touchStep_kept (htouching : v.leftTouchActive = true → v.leftTouchTransport ≠ .none)
    (hactive : view.leftTouchActive = v.leftTouchActive)
    (htransport : view.leftTouchTransport = v.leftTouchTransport)
    (hdisplay : view.leftTouchDisplayId = v.leftTouchDisplayId)
    (hnone : attempts.findSome? Attempt.touchBegun = none) : TouchStep v view attempts none := by
  have htouch : view.touch = v.touch := by
    unfold View.touch
    rw [hactive, htransport, hdisplay]
  refine ⟨?_, ?_, ?_⟩
  · rw [htouch, nextTouch, hnone, Option.none_or, hactive, View.touch]
    split <;> rfl
  · rw [hactive, htransport]
    exact htouching
  · rw [lostTouch, hnone, Option.isNone_none, Bool.and_true, hactive, View.touch]
    split <;> rename_i h <;> simp [h]

theorem pressStep_kept (hpressing : v.mouseTransport ≠ .none → v.mouseDisplayId = v.displayId)
    (htransport : view.mouseTransport = v.mouseTransport)
    (hmouse : view.mouseDisplayId = v.mouseDisplayId ∨ view.mouseDisplayId = view.displayId)
    (hdisplay : view.displayId = v.displayId) : PressStep v view attempts none := by
  have hright : view.mouseTransport ≠ .none → view.mouseDisplayId = view.displayId := by
    intro hpressed
    rcases hmouse with hmouse | hmouse
    · rw [hmouse, hdisplay]
      exact hpressing (htransport ▸ hpressed)
    · exact hmouse
  have hpress : view.press = v.press := by
    unfold View.press
    rw [htransport]
    split
    · rfl
    · rename_i hpressed
      rw [hright (htransport ▸ hpressed), hpressing hpressed, hdisplay]
  refine ⟨?_, hright, ?_⟩
  · rw [hpress, nextPress, htransport, View.press]
    split <;> rfl
  · rw [lostPress, htransport, View.press]
    split <;> rename_i h <;> simp [h]

end Kept

section Attempts

variable (displayId : Nat) (x y : Int) (buttons : Buttons) (senders : Senders)

theorem touchBegun_touchAttempt (kind : InputEventKind) (transport : InputTransport)
    (hkind : kind ≠ .touchBegin) :
    (View.touchAttempt kind transport displayId x y senders).findSome? Attempt.touchBegun
      = none := by
  unfold View.touchAttempt
  split
  · rfl
  · cases kind <;> first | exact absurd rfl hkind | rfl

theorem touchBegun_buttonAttempt (transport : InputTransport) :
    (View.buttonAttempt transport displayId x y buttons senders).findSome? Attempt.touchBegun
      = none := by
  unfold View.buttonAttempt
  split <;> rfl

theorem touchBegun_tried : ((View.tried senders).flatMap fun transport =>
        View.touchAttempt .touchBegin transport displayId x y senders).findSome?
          Attempt.touchBegun =
      if View.beginsOn senders = .none then none
      else some ⟨View.beginsOn senders, displayId⟩ := by
  rcases senders with ⟨_ | _, _ | _, _ | _⟩ <;> rfl

theorem not_endsTouch_tried (g : Gesture) : ((View.tried senders).flatMap fun transport =>
        View.touchAttempt .touchBegin transport displayId x y senders).any
          (Attempt.endsTouch g) = false := by
  rcases senders with ⟨_ | _, _ | _, _ | _⟩ <;> rfl

theorem touchBegun_tried_buttons : ((View.tried senders).flatMap fun transport =>
        View.buttonAttempt transport displayId x y buttons senders).findSome?
          Attempt.touchBegun = none := by
  rcases senders with ⟨_ | _, _ | _, _ | _⟩ <;> rfl

theorem pressBegun_tried : ((View.tried senders).flatMap fun transport =>
        View.buttonAttempt transport displayId x y buttons senders).findSome?
          Attempt.pressBegun =
      if View.beginsOn senders = .none then none
      else some ⟨View.beginsOn senders, displayId⟩ := by
  rcases senders with ⟨_ | _, _ | _, _ | _⟩ <;> rfl

theorem endsTouch_touchAttempt {transport : InputTransport} (h : transport ≠ .none) :
    (View.touchAttempt .touchEnd transport displayId x y senders).any
      (Attempt.endsTouch ⟨transport, displayId⟩) = true := by
  simp only [View.touchAttempt, if_neg h, List.any_cons, Attempt.endsTouch, decide_true,
    Bool.true_or]

theorem endsPress_buttonAttempt {transport : InputTransport} (h : transport ≠ .none) :
    (View.buttonAttempt transport displayId x y .released senders).any
      (Attempt.endsPress ⟨transport, displayId⟩) = true := by
  simp only [View.buttonAttempt, if_neg h, List.any_cons, Attempt.endsPress, and_self,
    decide_true, Bool.true_or]

end Attempts

section Steps

variable {v view : View} {attempts : List Attempt}

theorem touchStep_over (hactive : view.leftTouchActive = false)
    (hends : v.leftTouchActive = true →
      attempts.any (Attempt.endsTouch ⟨v.leftTouchTransport, v.leftTouchDisplayId⟩) = true) :
    TouchStep v view attempts none := by
  refine ⟨?_, fun h => absurd h (by simp [hactive]), ?_⟩
  · simp [nextTouch, View.touch, hactive]
  · rw [lostTouch, View.touch]
    split
    · rename_i h
      exact lost_of_any (hends h) _
    · rfl

theorem pressStep_over (htransport : view.mouseTransport = .none)
    (hends : v.mouseTransport ≠ .none →
      attempts.any (Attempt.endsPress ⟨v.mouseTransport, v.mouseDisplayId⟩) = true) :
    PressStep v view attempts none := by
  refine ⟨?_, fun h => absurd htransport h, ?_⟩
  · simp [nextPress, View.press, htransport]
  · rw [lostPress, View.press]
    split
    · rfl
    · rename_i h
      exact lost_of_any (hends h) _

theorem pressStep_begun (hnone : v.mouseTransport = .none)
    (hmouse : view.mouseDisplayId = view.displayId)
    (hbegun : view.mouseTransport ≠ .none →
      attempts.findSome? Attempt.pressBegun = some ⟨view.mouseTransport, view.mouseDisplayId⟩) :
    PressStep v view attempts none := by
  have hpress : v.press = none := if_pos hnone
  refine ⟨?_, fun _ => hmouse, ?_⟩
  · rw [hpress, nextPress, View.press, Option.none_or]
    split
    · rfl
    · rename_i h
      exact hbegun h
  · rw [hpress]
    rfl

theorem touchStep_reset (hactive : view.leftTouchActive = false) : TouchStep v view [] v.touch := by
  refine ⟨?_, fun h => absurd h (by simp [hactive]), ?_⟩
  · simp [nextTouch, View.touch, hactive]
  · rw [lostTouch, hactive, Bool.false_and]
    exact lost_of_forall _ fun _ => rfl

theorem pressStep_reset (htransport : view.mouseTransport = .none) :
    PressStep v view [] v.press := by
  refine ⟨?_, fun h => absurd htransport h, ?_⟩
  · simp [nextPress, View.press, htransport]
  · rw [lostPress, htransport]
    exact lost_of_forall _ fun _ => rfl

end Steps

section Events

variable {v : View} (htouching : v.leftTouchActive = true → v.leftTouchTransport ≠ .none)
  (hpressing : v.mouseTransport ≠ .none → v.mouseDisplayId = v.displayId)

include hpressing in
theorem mouseDown_press (point : Point) (senders : Senders) :
    PressStep v (v.mouseDown point senders).1 (v.mouseDown point senders).2 none := by
  unfold View.mouseDown
  split <;> exact pressStep_kept hpressing rfl (.inl rfl) rfl

include htouching in
theorem mouseDown_touch (point : Point) (senders : Senders) :
    TouchStep v (v.mouseDown point senders).1 (v.mouseDown point senders).2
      (if v.mapEvent point = none then none else v.touch) := by
  unfold View.mouseDown
  split
  · rename_i hpoint
    rw [if_pos hpoint]
    exact touchStep_kept htouching rfl rfl rfl rfl
  · rename_i x y hpoint
    rw [if_neg (by rw [hpoint]; exact Option.some_ne_none _)]
    have hbegun := touchBegun_tried v.displayId x y senders
    refine ⟨?_, fun h => of_decide_eq_true h, ?_⟩
    · rw [nextTouch, hbegun]
      by_cases htransport : View.beginsOn senders = .none <;> simp [View.touch, htransport]
    · rw [lostTouch, hbegun]
      have htracked : (decide (View.beginsOn senders ≠ .none) &&
          (if View.beginsOn senders = .none then none
            else some (Gesture.mk (View.beginsOn senders) v.displayId)).isNone) = false := by
        by_cases htransport : View.beginsOn senders = .none <;> simp [htransport]
      rw [htracked]
      exact lost_of_forall _ (not_endsTouch_tried v.displayId x y senders)

include hpressing in
theorem mouseDragged_press (point : Point) (senders : Senders) :
    PressStep v (v.mouseDragged point senders).1 (v.mouseDragged point senders).2 none := by
  unfold View.mouseDragged
  split
  · split <;> exact pressStep_kept hpressing rfl (.inl rfl) rfl
  · exact pressStep_kept hpressing rfl (.inl rfl) rfl

include htouching in
theorem mouseDragged_touch (point : Point) (senders : Senders) :
    TouchStep v (v.mouseDragged point senders).1 (v.mouseDragged point senders).2 none := by
  unfold View.mouseDragged
  split
  · split
    · exact touchStep_kept htouching rfl rfl rfl rfl
    · exact touchStep_kept htouching rfl rfl rfl
        (touchBegun_touchAttempt _ _ _ _ _ _ InputEventKind.noConfusion)
  · exact touchStep_kept htouching rfl rfl rfl rfl

include hpressing in
theorem mouseUp_press (point : Point) (senders : Senders) :
    PressStep v (v.mouseUp point senders).1 (v.mouseUp point senders).2 none := by
  unfold View.mouseUp
  split <;> exact pressStep_kept hpressing rfl (.inl rfl) rfl

include htouching in
theorem mouseUp_touch (point : Point) (senders : Senders) :
    TouchStep v (v.mouseUp point senders).1 (v.mouseUp point senders).2 none := by
  unfold View.mouseUp
  split
  · exact touchStep_over rfl fun h => endsTouch_touchAttempt _ _ _ _ (htouching h)
  · exact touchStep_kept htouching rfl rfl rfl rfl

include hpressing in
theorem pressMouse_press (isDown : Bool) (x y : Int) (buttons : Buttons) (senders : Senders) :
    PressStep v (v.pressMouse isDown x y buttons senders).1
      (v.pressMouse isDown x y buttons senders).2 none := by
  unfold View.pressMouse
  dsimp only
  by_cases hdown : isDown = true ∧ v.mouseTransport = .none
  · -- The first button goes down, perhaps on the second transport.
    rw [if_pos hdown]
    refine pressStep_begun hdown.2 rfl fun h => ?_
    have hbuttons : buttons ≠ .released := fun hreleased => h (if_pos hreleased)
    have htransport : View.beginsOn senders ≠ .none := by
      simpa only [if_neg hbuttons] using h
    dsimp only
    rw [pressBegun_tried, if_neg htransport, if_neg hbuttons]
  · rw [if_neg hdown]
    by_cases hbuttons : buttons = .released
    · subst hbuttons
      refine pressStep_over rfl fun h => ?_
      rw [hpressing h]
      exact endsPress_buttonAttempt _ _ _ _ h
    · exact pressStep_kept hpressing (if_neg hbuttons) (.inr rfl) rfl

include htouching in
theorem pressMouse_touch (isDown : Bool) (x y : Int) (buttons : Buttons) (senders : Senders) :
    TouchStep v (v.pressMouse isDown x y buttons senders).1
      (v.pressMouse isDown x y buttons senders).2 none := by
  unfold View.pressMouse
  dsimp only
  by_cases hdown : isDown = true ∧ v.mouseTransport = .none
  · rw [if_pos hdown]
    exact touchStep_kept htouching rfl rfl rfl (touchBegun_tried_buttons _ _ _ _ _)
  · rw [if_neg hdown]
    exact touchStep_kept htouching rfl rfl rfl (touchBegun_buttonAttempt _ _ _ _ _ _)

include hpressing in
theorem buttonEvent_press (event : ButtonEvent) (pressed : Buttons) (point : Point)
    (senders : Senders) :
    PressStep v (v.buttonEvent event pressed point senders).1
      (v.buttonEvent event pressed point senders).2 none := by
  unfold View.buttonEvent
  split
  · exact pressStep_kept hpressing rfl (.inl rfl) rfl
  · dsimp only
    split
    · exact pressStep_kept hpressing rfl (.inr rfl) rfl
    · exact pressMouse_press hpressing ..

include htouching in
theorem buttonEvent_touch (event : ButtonEvent) (pressed : Buttons) (point : Point)
    (senders : Senders) :
    TouchStep v (v.buttonEvent event pressed point senders).1
      (v.buttonEvent event pressed point senders).2 none := by
  unfold View.buttonEvent
  split
  · exact touchStep_kept htouching rfl rfl rfl rfl
  · dsimp only
    split
    · exact touchStep_kept htouching rfl rfl rfl rfl
    · exact pressMouse_touch htouching ..

theorem leaveWindow_press (senders : Senders) :
    PressStep v (v.leaveWindow senders).1 (v.leaveWindow senders).2 none := by
  refine pressStep_over rfl fun h => ?_
  dsimp only [View.leaveWindow]
  rw [List.any_append, endsPress_buttonAttempt _ _ _ _ h, Bool.or_true]

include htouching in
theorem leaveWindow_touch (senders : Senders) :
    TouchStep v (v.leaveWindow senders).1 (v.leaveWindow senders).2 none := by
  refine touchStep_over rfl fun h => ?_
  dsimp only [View.leaveWindow]
  rw [if_pos h, List.any_append, endsTouch_touchAttempt _ _ _ _ (htouching h), Bool.true_or]

end Events

theorem touchStep_handle {w : Gestures} (h : w.Inv) (event : ViewEvent) :
    TouchStep w.view (w.view.handle event).1 (w.view.handle event).2 (w.droppedTouch event) := by
  cases event with
  | mouseDown point senders =>
    rw [droppedTouch, h.touch]
    exact mouseDown_touch h.touching ..
  | mouseDragged point senders => exact mouseDragged_touch h.touching ..
  | mouseUp point senders => exact mouseUp_touch h.touching ..
  | button event pressed point senders =>
    exact buttonEvent_touch h.touching ..
  | reset | teardown =>
    rw [droppedTouch, h.touch]
    exact touchStep_reset rfl
  | leaveWindow senders => exact leaveWindow_touch h.touching senders

theorem pressStep_handle {w : Gestures} (h : w.Inv) (event : ViewEvent) :
    PressStep w.view (w.view.handle event).1 (w.view.handle event).2 (w.droppedPress event) := by
  cases event with
  | mouseDown point senders => exact mouseDown_press h.pressing ..
  | mouseDragged point senders => exact mouseDragged_press h.pressing ..
  | mouseUp point senders => exact mouseUp_press h.pressing ..
  | button event pressed point senders =>
    exact buttonEvent_press h.pressing ..
  | reset | teardown =>
    rw [droppedPress, h.press]
    exact pressStep_reset rfl
  | leaveWindow senders => exact leaveWindow_press senders

theorem Inv.step {w w' : Gestures} (h : w.Inv) {event : ViewEvent}
    (hstep : w.step event = some w') :
    w'.Inv ∧ w'.missed =
      w.missed ++ ((w.droppedTouch event).toList ++ (w.droppedPress event).toList) := by
  obtain ⟨htouch, htouching, hlostTouch⟩ := touchStep_handle h event
  obtain ⟨hpress, hpressing, hlostPress⟩ := pressStep_handle h event
  rw [← h.touch] at htouch hlostTouch
  rw [← h.press] at hpress hlostPress
  dsimp only [Gestures.step] at hstep
  generalize w.view.handle event = after at *
  cases hstep
  refine ⟨⟨htouch, htouching, hpress, hpressing⟩, ?_⟩
  rw [← hlostTouch, ← hlostPress]

theorem inv_create (displayId : Nat) (hasRenderer : Bool) : (create displayId hasRenderer).Inv :=
  ⟨rfl, nofun, rfl, fun h => absurd rfl h⟩

/-- The state of the view is not reset while a gesture is there, and no touch begins
at a point of the display while another one is there. -/
def Ok (w : Gestures) : ViewEvent → Prop
  | .mouseDown point _ => w.touch = none ∨ w.view.mapEvent point = none
  | .reset | .teardown => w.touch = none ∧ w.press = none
  | _ => True

instance (w : Gestures) : DecidablePred w.Ok
  | .mouseDown .. => inferInstanceAs (Decidable (_ ∨ _))
  | .reset | .teardown => inferInstanceAs (Decidable (_ ∧ _))
  | .mouseDragged .. | .mouseUp .. | .button .. | .leaveWindow _ => isTrue trivial

theorem ok_iff (w : Gestures) (event : ViewEvent) :
    w.Ok event ↔ w.droppedTouch event = none ∧ w.droppedPress event = none := by
  cases event with
  | mouseDown point senders =>
    by_cases hpoint : w.view.mapEvent point = none <;>
      simp [Ok, droppedTouch, droppedPress, hpoint]
  | reset | teardown => exact Iff.rfl
  | mouseDragged | mouseUp | button | leaveWindow => exact iff_of_true trivial ⟨rfl, rfl⟩

/-- In a run no gesture is missed after any event exactly if every event comes at a
time when it drops none. -/
theorem gestures_ended_iff (displayId : Nat) (hasRenderer : Bool) {events : List ViewEvent}
    {last : Gestures} (hrun : exec step (create displayId hasRenderer) events = some last) :
    Meets step Ok (create displayId hasRenderer) events ↔
      ∀ k t, exec step (create displayId hasRenderer) (events.take k) = some t →
        t.missed = [] := by
  refine meets_iff_forall_take (I := fun w => w.Inv ∧ w.missed = []) (fun _ h => h.2) ?_ ?_
    ⟨inv_create displayId hasRenderer, rfl⟩ hrun
  · rintro w event w' ⟨hinv, hmissed⟩ hok hstep
    obtain ⟨hinv', hmissed'⟩ := hinv.step hstep
    obtain ⟨htouch, hpress⟩ := (w.ok_iff event).mp hok
    refine ⟨hinv', ?_⟩
    rw [hmissed', hmissed, htouch, hpress]
    rfl
  · rintro w event w' ⟨hinv, -⟩ hstep hmissed
    rw [(hinv.step hstep).2] at hmissed
    simpa [ok_iff] using (List.append_eq_nil_iff.mp hmissed).2

namespace Sample

def senders : Senders := ⟨true, true, true⟩

/-- The agent is said to be there, and nothing can be sent to it. -/
def lostAgent : Senders := ⟨true, false, true⟩

/-- A touch and a press at once, on different transports; the view leaves its window
while both are there. -/
def left : List ViewEvent :=
  [.mouseDown (some (3, 4)) senders, .button .rightDown .released (some (5, 6)) lostAgent,
    .mouseDragged (some (3, 5)) lostAgent, .leaveWindow lostAgent, .reset]

/-- The window loses the focus while a finger is down. -/
def unfocused : List ViewEvent :=
  [.mouseDown (some (3, 4)) senders, .reset, .mouseUp (some (3, 4)) senders]

end Sample

theorem gestures_ended_left : ∃ last, exec step (create 2 true) Sample.left = some last ∧
    last.view.touch = none ∧ last.view.press = none ∧ last.missed = [] := by
  obtain ⟨last, hrun, htouch, hpress⟩ : ∃ last, exec step (create 2 true) Sample.left = some last ∧
      last.view.touch = none ∧ last.view.press = none :=
    exists_of_map_decide (by decide +kernel)
  have hmeets : Meets step Ok (create 2 true) Sample.left := by
    decide +kernel
  exact ⟨last, hrun, htouch, hpress, (gestures_ended_iff 2 true hrun).mp hmeets 5 last hrun⟩

/-- The END is not tried, neither when the focus is lost nor when the button goes up. -/
theorem touch_missed_unfocused : ∃ last, exec step (create 2 true) Sample.unfocused = some last ∧
    last.touch = none ∧ last.missed = [⟨.guestAgent, 2⟩] :=
  exists_of_map_decide (by decide +kernel)

end Gestures
end InputView
end MacMu
