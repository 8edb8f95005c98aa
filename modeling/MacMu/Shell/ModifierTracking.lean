import MacMu.Shell.ModifierKeys

/-!
When the modifiers of the HID state are those of the host. A key event puts all groups
right. A `flagsChanged` event looks at the key that it names only: it takes the key to be
released if it is recorded as pressed, and otherwise to be pressed if its group has a key
down. So the other groups stay as they are recorded, and within a group the record is
right afterwards only if it was not misled about the side.
-/

namespace MacMu
namespace ModifierKeys

open HidKeyboard TransitionSystem

section Keyboard

def Sound (s : HidKeyboard.State) : Prop := ∃ pressed, Rep s pressed

variable {s : HidKeyboard.State}

theorem Sound.setKey (h : Sound s) (usage : UInt8) (value : Bool) :
    Sound (s.setKey usage value).2 :=
  h.elim fun _ hrep => ⟨_, (hrep.setKey usage value).1⟩

theorem Sound.releaseAll (s : HidKeyboard.State) : Sound s.releaseAll.2 := ⟨∅, Rep.empty⟩

theorem Sound.isPressed_setKey (h : Sound s) {usage : UInt8}
    (husage : isModifier usage = true ∨ isOrdinary usage = true) (value : Bool) (other : UInt8) :
    (s.setKey usage value).2.isPressed other =
      if other = usage then value else s.isPressed other := by
  obtain ⟨pressed, hrep⟩ := h
  rw [Bool.eq_iff_iff, (hrep.setKey usage value).1.isPressed, mem_press value pressed husage]
  split
  · rfl
  · exact (hrep.isPressed other).symm

theorem Sound.isPressed_setKey_of_ne (h : Sound s) (usage : UInt8) (value : Bool) {other : UInt8}
    (hne : other ≠ usage) : (s.setKey usage value).2.isPressed other = s.isPressed other := by
  by_cases husage : isModifier usage = true ∨ isOrdinary usage = true
  · rw [h.isPressed_setKey husage, if_neg hne]
  · obtain ⟨pressed, hrep⟩ := h
    obtain ⟨hmodifier, hordinary⟩ := not_or.mp husage
    rw [Bool.eq_iff_iff, (hrep.setKey usage value).1.isPressed, hrep.isPressed,
      hrep.press_unknown value (Bool.not_eq_true _ ▸ hmodifier) (Bool.not_eq_true _ ▸ hordinary)]

theorem isModifier_usage (group : Group) (side : Side) : isModifier (group.usage side) = true := by
  cases group <;> cases side <;> decide

theorem usage_inj {group group' : Group} {side side' : Side} :
    group.usage side = group'.usage side' ↔ group = group' ∧ side = side' := by
  cases group <;> cases group' <;> cases side <;> cases side' <;> decide

theorem macVirtualKeyToHidUsage_keyCode (group : Group) (side : Side) :
    macVirtualKeyToHidUsage (group.keyCode side) = group.usage side := by
  cases group <;> cases side <;> decide

theorem modifierFlagForHidUsage_usage (group : Group) (side : Side) :
    modifierFlagForHidUsage (group.usage side) = some group := by
  cases group <;> cases side <;> decide

end Keyboard

section Record

def recorded (s : HidKeyboard.State) (group : Group) (side : Side) : Bool :=
  s.isPressed (group.usage side)

def Agrees (s : HidKeyboard.State) (flags : Flags) (group : Group) : Prop :=
  (recorded s group .left || recorded s group .right) = flags group

instance (s : HidKeyboard.State) (flags : Flags) (group : Group) : Decidable (Agrees s flags group) :=
  inferInstanceAs (Decidable (_ = _))

variable {s : HidKeyboard.State} {flags : Flags}

section

variable (h : Sound s)
include h

theorem Sound.recorded_setKey (group : Group) (side : Side) (value : Bool) (group' : Group)
    (side' : Side) :
    recorded (s.setKey (group.usage side) value).2 group' side' =
      if group' = group ∧ side' = side then value else recorded s group' side' := by
  rw [recorded, h.isPressed_setKey (.inl (isModifier_usage group side))]
  simp only [usage_inj]
  rfl

theorem Sound.synchronizeGroup (flags : Flags) (group : Group) :
    Sound (synchronizeGroup s flags group).2 ∧
      Agrees (ModifierKeys.synchronizeGroup s flags group).2 flags group ∧
      ∀ group', group' ≠ group → ∀ side,
        recorded (ModifierKeys.synchronizeGroup s flags group).2 group' side =
          recorded s group' side := by
  unfold ModifierKeys.synchronizeGroup
  dsimp only
  split
  · rename_i hflag
    have hleft := h.setKey (group.usage .left) false
    refine ⟨hleft.setKey _ _, ?_, fun group' hne side => ?_⟩
    · rw [Agrees, hleft.recorded_setKey, hleft.recorded_setKey, h.recorded_setKey, hflag]
      simp
    · rw [hleft.recorded_setKey, h.recorded_setKey, if_neg fun heq => hne heq.1,
        if_neg fun heq => hne heq.1]
  · rename_i hflag
    have hset : flags group = true := by simpa using hflag
    split
    · refine ⟨h.setKey _ _, ?_, fun group' hne side => ?_⟩
      · rw [Agrees, h.recorded_setKey, hset, if_pos ⟨rfl, rfl⟩, Bool.true_or]
      · rw [h.recorded_setKey, if_neg fun heq => hne heq.1]
    · rename_i hsome
      refine ⟨h, ?_, fun _ _ _ => rfl⟩
      rw [Agrees, hset]
      cases hl : recorded s group .left with
      | true => rfl
      | false =>
        cases hr : recorded s group .right with
        | true => rfl
        | false =>
          rw [recorded] at hl hr
          rw [hl, hr] at hsome
          exact absurd rfl hsome

theorem Sound.synchronizeGroups (flags : Flags) {groups : List Group} (hnodup : groups.Nodup) :
    Sound (synchronizeGroups flags s groups).2 ∧
      (∀ group ∈ groups, Agrees (ModifierKeys.synchronizeGroups flags s groups).2 flags group) ∧
      ∀ group ∉ groups, ∀ side,
        recorded (ModifierKeys.synchronizeGroups flags s groups).2 group side =
          recorded s group side := by
  induction groups generalizing s with
  | nil => exact ⟨h, nofun, fun _ _ _ => rfl⟩
  | cons group groups ih =>
    obtain ⟨hnew, hrest⟩ := List.nodup_cons.mp hnodup
    obtain ⟨hsound, hagrees, hothers⟩ := h.synchronizeGroup ..
    obtain ⟨hsound', hagrees', hothers'⟩ := ih hsound hrest
    refine ⟨hsound', fun group' hgroup' => ?_, fun group' hgroup' side => ?_⟩
    · cases hgroup' with
      | head =>
        have hleft := hothers' group hnew .left
        have hright := hothers' group hnew .right
        rw [ModifierKeys.synchronizeGroups, Agrees, hleft, hright]
        exact hagrees
      | tail _ hmem => exact hagrees' group' hmem
    · obtain ⟨hne, hmem⟩ := List.ne_and_not_mem_of_not_mem_cons hgroup'
      exact (hothers' group' hmem side).trans (hothers group' hne side)

theorem Sound.keyEvent (flags : Flags) {keyCode : UInt16} (down : Bool)
    (hmodifier : isModifier (macVirtualKeyToHidUsage keyCode) = false)
    (husage : macVirtualKeyToHidUsage keyCode ≠ 0) :
    Sound (keyEvent s flags keyCode down).2 ∧
      ∀ group, Agrees (ModifierKeys.keyEvent s flags keyCode down).2 flags group := by
  have hnodup : kGroups.Nodup := by decide
  obtain ⟨hsound, hagrees, -⟩ := h.synchronizeGroups flags hnodup
  have hne : ∀ group side, Group.usage group side ≠ macVirtualKeyToHidUsage keyCode := by
    intro group side heq
    rw [← heq, isModifier_usage] at hmodifier
    cases hmodifier
  rw [ModifierKeys.keyEvent, if_neg husage]
  refine ⟨hsound.setKey _ _, fun group => ?_⟩
  dsimp only
  rw [Agrees, recorded, recorded, hsound.isPressed_setKey_of_ne _ _ (hne group .left),
    hsound.isPressed_setKey_of_ne _ _ (hne group .right)]
  exact hagrees group (by cases group <;> decide)

theorem Sound.capsLock (flags : Flags) :
    Sound (flagsChanged s flags kCapsLockKeyCode).2 ∧ ∀ group side,
      recorded (ModifierKeys.flagsChanged s flags kCapsLockKeyCode).2 group side =
        recorded s group side := by
  have husage : macVirtualKeyToHidUsage kCapsLockKeyCode = 0x39 := by decide
  have hne : ∀ group side, Group.usage group side ≠ 0x39 := by
    intro group side
    cases group <;> cases side <;> decide
  have hsound := h.setKey 0x39 true
  rw [ModifierKeys.flagsChanged, husage, if_pos rfl]
  refine ⟨hsound.setKey _ _, fun group side => ?_⟩
  rw [recorded, hsound.isPressed_setKey_of_ne _ _ (hne group side),
    h.isPressed_setKey_of_ne _ _ (hne group side), recorded]

theorem Sound.flagsChanged (flags : Flags) (group : Group) (side : Side) :
    Sound (flagsChanged s flags (group.keyCode side)).2 ∧ ∀ group' side',
      recorded (ModifierKeys.flagsChanged s flags (group.keyCode side)).2 group' side' =
        if group' = group ∧ side' = side then !recorded s group side && flags group
        else recorded s group' side' := by
  have husage : group.usage side ≠ 0x39 := by
    cases group <;> cases side <;> decide
  rw [ModifierKeys.flagsChanged, macVirtualKeyToHidUsage_keyCode, if_neg husage,
    modifierFlagForHidUsage_usage]
  exact ⟨h.setKey _ _, h.recorded_setKey group side _⟩

end

end Record

section Desk

variable {d d' : Desk}

namespace Desk

def Tracks (d : Desk) : Prop := ∀ group, Agrees d.hid d.flags group

instance (d : Desk) : Decidable d.Tracks := inferInstanceAs (Decidable (∀ _, _))

/-- An event about a modifier key needs the other groups to be recorded rightly. The
last key of its group to go up must not find the other side recorded, and any other key
must not be recorded itself unless the other side is recorded too. -/
def Ok (d : Desk) : Action → Prop
  | .modifier group side =>
    d.focused = true →
      (∀ other, other ≠ group → Agrees d.hid d.flags other) ∧
      if d.held group side = true ∧ d.held group side.other = false then
        recorded d.hid group side.other = false
      else recorded d.hid group side = true → recorded d.hid group side.other = true
  | .capsLock => d.focused = true → d.Tracks
  | _ => True

instance (d : Desk) (a : Action) : Decidable (d.Ok a) := by
  cases a <;> unfold Ok <;> infer_instance

end Desk

theorem or_side (f : Side → Bool) (side : Side) : (f .left || f .right) = (f side || f side.other) := by
  cases side with
  | left => rfl
  | right => exact Bool.or_comm _ _

theorem other_ne (side : Side) : side.other ≠ side := by cases side <;> decide

theorem flags_toggle (d : Desk) (group : Group) (side : Side) (other : Group) :
    (d.toggle group side).flags other =
      if other = group then !d.held group side || d.held group side.other else d.flags other := by
  dsimp only [Desk.flags, Desk.toggle]
  by_cases heq : other = group
  · subst heq
    rw [if_pos rfl, or_side (fun s => if other = other ∧ s = side then !d.held other s
      else d.held other s) side]
    simp [other_ne]
  · simp [heq]

theorem modifier_iff (heldKey heldOther recordedKey recordedOther : Bool) :
    ((!recordedKey && (!heldKey || heldOther)) || recordedOther) = (!heldKey || heldOther) ↔
      if heldKey = true ∧ heldOther = false then recordedOther = false
      else recordedKey = true → recordedOther = true := by
  revert heldKey heldOther recordedKey recordedOther
  decide

theorem Desk.deliver_of_focused (hfocused : d.focused = true)
    (event : HidKeyboard.State → Flags → List Report × HidKeyboard.State) :
    d.deliver event = { d with hid := (event d.hid d.flags).2, handled := true } :=
  if_pos hfocused

theorem Desk.deliver_of_not_focused (hfocused : d.focused = false)
    (event : HidKeyboard.State → Flags → List Report × HidKeyboard.State) :
    d.deliver event = { d with handled := false } :=
  if_neg (Bool.eq_false_iff.mp hfocused)

/-- After an event about a modifier key the groups are right exactly if the record before
allows for it. -/
theorem tracks_modifier_iff (h : Sound d.hid) (hfocused : d.focused = true) (group : Group)
    (side : Side) (hstep : d.step (.modifier group side) = some d') :
    d'.Tracks ↔ d.Ok (.modifier group side) := by
  have hstate := Option.some.inj hstep
  rw [Desk.deliver_of_focused (d := d.toggle group side) hfocused] at hstate
  have hflags : ∀ other, d'.flags other =
      if other = group then !d.held group side || d.held group side.other
      else d.flags other := by
    rw [← hstate]
    exact flags_toggle d group side
  have hrecorded : ∀ other side', recorded d'.hid other side' =
      if other = group ∧ side' = side then !recorded d.hid group side && d'.flags group
      else recorded d.hid other side' := by
    rw [← hstate]
    exact (h.flagsChanged (d.toggle group side).flags group side).2
  have hothers : ∀ other, other ≠ group →
      (Agrees d'.hid d'.flags other ↔ Agrees d.hid d.flags other) := by
    intro other hne
    rw [Agrees, Agrees, hrecorded, hrecorded, hflags other, if_neg hne,
      if_neg fun heq => hne heq.1, if_neg fun heq => hne heq.1]
  have hown : Agrees d'.hid d'.flags group ↔
      if d.held group side = true ∧ d.held group side.other = false then
        recorded d.hid group side.other = false
      else recorded d.hid group side = true → recorded d.hid group side.other = true := by
    rw [← modifier_iff, Agrees, or_side _ side, hrecorded, hrecorded, if_pos ⟨rfl, rfl⟩,
      if_neg fun heq => other_ne side heq.2, hflags group, if_pos rfl]
  constructor
  · exact fun htracks _ => ⟨fun other hne => (hothers other hne).mp (htracks other),
      hown.mp (htracks group)⟩
  · intro hok other
    by_cases heq : other = group
    · subst heq
      exact hown.mpr (hok hfocused).2
    · exact (hothers other heq).mpr ((hok hfocused).1 other heq)

/-- A step keeps the record sound, and an event that the view handles leaves the groups
right exactly if it meets its condition. -/
theorem Desk.step_iff (h : Sound d.hid) {a : Action} (hstep : d.step a = some d') :
    Sound d'.hid ∧ ((d'.handled = true → d'.Tracks) ↔ d.Ok a) := by
  -- A step that the view does not handle says nothing.
  have hsilent : d'.handled = false → d.Ok a → ((d'.handled = true → d'.Tracks) ↔ d.Ok a) := by
    intro hhandled hok
    refine ⟨fun _ => hok, fun _ hhandled' => ?_⟩
    rw [hhandled] at hhandled'
    cases hhandled'
  have hvacuous : ∀ {p : Prop}, d.focused = false → d.focused = true → p := by
    intro p hfocused hfocused'
    rw [hfocused] at hfocused'
    cases hfocused'
  cases a with
  | modifier group side =>
    have hstate := Option.some.inj hstep
    cases hfocused : d.focused with
    | false =>
      rw [Desk.deliver_of_not_focused (d := d.toggle group side) hfocused] at hstate
      exact ⟨hstate ▸ h, hsilent (hstate ▸ rfl) (hvacuous hfocused)⟩
    | true =>
      rw [← tracks_modifier_iff h hfocused group side hstep]
      rw [Desk.deliver_of_focused (d := d.toggle group side) hfocused] at hstate
      rw [← hstate]
      exact ⟨(h.flagsChanged (d.toggle group side).flags group side).1, fun htracks => htracks rfl,
        fun htracks _ => htracks⟩
  | capsLock =>
    have hstate := Option.some.inj hstep
    cases hfocused : d.focused with
    | false =>
      rw [Desk.deliver_of_not_focused hfocused] at hstate
      exact ⟨hstate ▸ h, hsilent (hstate ▸ rfl) (hvacuous hfocused)⟩
    | true =>
      obtain ⟨hsound, hrecorded⟩ := h.capsLock d.flags
      rw [Desk.deliver_of_focused hfocused] at hstate
      have htracks : d'.Tracks ↔ d.Tracks := by
        rw [← hstate]
        refine forall_congr' fun group => ?_
        rw [Agrees, Agrees, hrecorded, hrecorded]
        rfl
      refine ⟨hstate ▸ hsound, fun hafter _ => htracks.mp (hafter (hstate ▸ rfl)),
        fun hok _ => htracks.mpr (hok hfocused)⟩
  | key keyCode down =>
    rw [Desk.step] at hstep
    split at hstep
    · cases hstep
    rename_i hmodifier
    split at hstep
    · cases hstep
      exact ⟨h, hsilent rfl trivial⟩
    rename_i husage
    have hstate := Option.some.inj hstep
    cases hfocused : d.focused with
    | false =>
      rw [Desk.deliver_of_not_focused hfocused] at hstate
      exact ⟨hstate ▸ h, hsilent (hstate ▸ rfl) trivial⟩
    | true =>
      obtain ⟨hsound, hagrees⟩ :=
        h.keyEvent d.flags down (Bool.not_eq_true _ ▸ hmodifier) husage
      rw [Desk.deliver_of_focused hfocused] at hstate
      rw [← hstate]
      exact ⟨hsound, fun _ => trivial, fun _ _ => hagrees⟩
  | gainFocus =>
    cases hstep
    exact ⟨h, hsilent rfl trivial⟩
  | loseFocus =>
    cases hstep
    exact ⟨Sound.releaseAll d.hid, hsilent rfl trivial⟩

end Desk

/-- In a run the modifiers are those of the host after every event that the view handles
exactly if every event comes at a time when it can be understood. -/
theorem modifiers_track_iff (held : Group → Side → Bool) {actions : List Action} {last : Desk}
    (hrun : exec Desk.step (Desk.start held) actions = some last) :
    Meets Desk.step Desk.Ok (Desk.start held) actions ↔
      ∀ k t, exec Desk.step (Desk.start held) (actions.take k) = some t →
        t.handled = true → t.Tracks := by
  refine meets_iff_forall_take
    (I := fun d => Sound d.hid ∧ (d.handled = true → d.Tracks)) (fun _ h => h.2) ?_ ?_
    ⟨⟨∅, Rep.empty⟩, nofun⟩ hrun
  · rintro d a d' ⟨hsound, -⟩ hok hstep
    exact ⟨(Desk.step_iff hsound hstep).1, (Desk.step_iff hsound hstep).2.mpr hok⟩
  · rintro d a d' ⟨hsound, -⟩ hstep htracks
    exact (Desk.step_iff hsound hstep).2.mp htracks

namespace Sample

def none : Group → Side → Bool := fun _ _ => false

/-- Both shift keys and a letter, with the focus lost in between. -/
def typed : List Action :=
  [.gainFocus, .modifier .shift .right, .key 0x00 true, .modifier .shift .left,
    .modifier .shift .right, .key 0x00 false, .loseFocus, .gainFocus, .key 0x0b true,
    .modifier .shift .left]

/-- The view gets the focus while the right shift key is held, and a letter is typed
before the key is released. -/
def heldBefore : List Action :=
  [.modifier .shift .right, .gainFocus, .key 0x00 true, .key 0x00 false, .modifier .shift .right]

end Sample

theorem modifiers_track_typed : ∃ last,
    exec Desk.step (Desk.start Sample.none) Sample.typed = some last ∧
      ∀ k t, exec Desk.step (Desk.start Sample.none) (Sample.typed.take k) = some t →
        t.handled = true → t.Tracks := by
  obtain ⟨last, hrun, -⟩ : ∃ last,
      exec Desk.step (Desk.start Sample.none) Sample.typed = some last ∧ True :=
    exists_of_map_decide (by decide +kernel)
  exact ⟨last, hrun, (modifiers_track_iff Sample.none hrun).mp (by decide +kernel)⟩

/-- The left shift key stays pressed for the guest although no shift key is held. -/
theorem shift_stays_pressed : ∃ last,
    exec Desk.step (Desk.start Sample.none) Sample.heldBefore = some last ∧
      last.handled = true ∧ last.flags .shift = false ∧
      recorded last.hid .shift .left = true ∧ ¬last.Tracks :=
  exists_of_map_decide (by decide +kernel)

end ModifierKeys
end MacMu
