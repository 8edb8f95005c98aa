import MacMu.Qemu.DisplayStreaming

/-!
What the accesses of one operation have in common, and what one access changes. An
access gives a display a value in one of the three copies. All accesses of an
operation give one display one value, and a change of the mask is followed by a load
of the renderer and a call of it.
-/

namespace MacMu
namespace DisplayStreaming

open ControlReceiver

theorem subscribed_eq (subscriptions : BitVec 32) {displayId : Nat} (h : displayId < 16) :
    subscribed subscriptions displayId = subscriptions.getLsbD displayId := by
  have hwithin : displayId < 32 := Nat.lt_trans h (by decide)
  have hne : BitVec.twoPow 32 displayId ≠ 0#32 := by
    intro hzero
    have hbit := congrArg (fun bits => bits.getLsbD displayId) hzero
    simp [hwithin] at hbit
  rw [subscribed, BitVec.and_twoPow]
  cases subscriptions.getLsbD displayId <;> simp [hne]

theorem subscribed_fetch (subscriptions : BitVec 32) (displayId : Nat) (enabled : Bool) {d : Nat}
    (h : d < 16) :
    subscribed (fetch subscriptions displayId enabled) d =
      if d = displayId then enabled else subscribed subscriptions d := by
  have hwithin : d < 32 := Nat.lt_trans h (by decide)
  rw [subscribed_eq _ h, subscribed_eq _ h, fetch]
  by_cases heq : d = displayId
  · subst heq
    cases enabled <;> simp [hwithin]
  · cases enabled <;> simp [hwithin, heq]

namespace Access

def gives : Access → Option (Nat × Bool)
  | .subscribe displayId enabled | .setDisplayExportEnabled displayId enabled =>
    some (displayId, enabled)
  | .loadRenderer => none
  | .clearDisplayExportFrame displayId | .unstream displayId => some (displayId, false)
  | .stream displayId _ => some (displayId, true)

def mask : Access → Option (Nat × Bool)
  | .subscribe displayId enabled => some (displayId, enabled)
  | _ => none

def Subscribes (d : Nat) (a : Access) : Prop := ∃ enabled, a = .subscribe d enabled

def Streams (d : Nat) (a : Access) : Prop :=
  (∃ framesPerSecond, a = .stream d framesPerSecond) ∨ a = .unstream d

def Calls (d : Nat) (a : Access) : Prop :=
  (∃ enabled, a = .setDisplayExportEnabled d enabled) ∨ a = .clearDisplayExportFrame d

/-- The two accesses are not for one display with different values. -/
def Agrees (a a' : Access) : Prop :=
  ∀ v ∈ a.gives, ∀ v' ∈ a'.gives, v.1 = v'.1 → v.2 = v'.2

instance (a a' : Access) : Decidable (a.Agrees a') :=
  inferInstanceAs (Decidable (∀ v ∈ a.gives, ∀ v' ∈ a'.gives, v.1 = v'.1 → v.2 = v'.2))

variable {d : Nat} {a : Access}

theorem Subscribes.gives_some (h : a.Subscribes d) : ∃ b, a.gives = some (d, b) := by
  obtain ⟨enabled, rfl⟩ := h
  exact ⟨enabled, rfl⟩

theorem Streams.gives_some (h : a.Streams d) : ∃ b, a.gives = some (d, b) := by
  rcases h with ⟨framesPerSecond, rfl⟩ | rfl
  · exact ⟨true, rfl⟩
  · exact ⟨false, rfl⟩

theorem Calls.gives_some (h : a.Calls d) : ∃ b, a.gives = some (d, b) := by
  rcases h with ⟨enabled, rfl⟩ | rfl
  · exact ⟨enabled, rfl⟩
  · exact ⟨false, rfl⟩

end Access

/-- The flag of a display of a renderer will be written, if that renderer is the one
that will be loaded. -/
def CallDue (renderer d : Nat) : Option Nat → List Access → Prop
  | _, [] => False
  | loaded, a :: rest =>
    (loaded = some renderer ∧ a.Calls d) ∨
      CallDue renderer d (if a = .loadRenderer then some renderer else loaded) rest

/-- A renderer is loaded and called after each change of the mask. -/
def Ordered : List Access → Prop
  | [] => True
  | a :: rest =>
    (∀ d, a.Subscribes d → ∃ b rest', rest = .loadRenderer :: b :: rest' ∧ b.Calls d) ∧
      Ordered rest

theorem callDue_of_subscribes {renderer d : Nat} {accesses : List Access}
    (hordered : Ordered accesses) (hdue : ∃ a ∈ accesses, a.Subscribes d) (loaded : Option Nat) :
    CallDue renderer d loaded accesses := by
  induction accesses generalizing loaded with
  | nil =>
    obtain ⟨a, ha, -⟩ := hdue
    cases ha
  | cons a rest ih =>
    obtain ⟨b, hb, hsubscribes⟩ := hdue
    rcases List.mem_cons.mp hb with rfl | hb
    · obtain ⟨c, rest', rfl, hcalls⟩ := hordered.1 d hsubscribes
      exact .inr (.inr (.inl ⟨if_pos rfl, hcalls⟩))
    · exact .inr (ih hordered.2 ⟨b, hb, hsubscribes⟩ _)

structure Whole (accesses : List Access) (d : Nat) (b : Bool) : Prop where
  ordered : Ordered accesses
  gives : ∀ a ∈ accesses, ∀ v, a.gives = some v → v = (d, b)
  subscribes : d < 16 → ∃ a ∈ accesses, a.Subscribes d
  streams : 0 < d → ∃ a ∈ accesses, a.Streams d

theorem Whole.exists_gives {accesses : List Access} {d : Nat} {b : Bool}
    (h : Whole accesses d b) : ∃ a ∈ accesses, a.gives = some (d, b) := by
  obtain ⟨a, ha, v, hv⟩ : ∃ a ∈ accesses, ∃ v, a.gives = some (d, v) := by
    rcases Nat.eq_zero_or_pos d with hd | hd
    · obtain ⟨a, ha, hsubscribes⟩ := h.subscribes (hd ▸ by decide)
      exact ⟨a, ha, hsubscribes.gives_some⟩
    · obtain ⟨a, ha, hstreams⟩ := h.streams hd
      exact ⟨a, ha, hstreams.gives_some⟩
  exact ⟨a, ha, hv.trans (congrArg some (h.gives a ha _ hv))⟩

theorem ordered_append {accesses more : List Access} (h : Ordered accesses) (h' : Ordered more) :
    Ordered (accesses ++ more) := by
  induction accesses with
  | nil => exact h'
  | cons a rest ih =>
    refine ⟨fun d hsubscribes => ?_, ih h.2⟩
    obtain ⟨b, rest', rfl, hcalls⟩ := h.1 d hsubscribes
    exact ⟨b, rest' ++ more, rfl, hcalls⟩

theorem whole_setDisplayStreaming (d : Nat) (enabled : Bool) (requested : UInt32) :
    Whole (setDisplayStreaming d enabled requested) d enabled := by
  unfold setDisplayStreaming androidSetDisplayExportEnabled
  refine ⟨?_, ?_, ?_, ?_⟩
  · split <;> split <;> try split
    all_goals simp [Ordered, Access.Subscribes, Access.Calls]
  · split <;> split <;> try split
    all_goals simp_all [Access.gives]
  · intro h
    simp [Nat.not_le.mpr h, Access.Subscribes]
  · intro h
    cases enabled <;> simp [Nat.pos_iff_ne_zero.mp h, Access.Streams]

theorem whole_removalAccesses {call : StreamCall} (henabled : call.enabled = false) :
    Whole (removalAccesses call) call.displayId.toNat false := by
  have hwhole := whole_setDisplayStreaming call.displayId.toNat false call.requestedFramesPerSecond
  have hclear : Ordered (androidClearDisplayExportFrame call.displayId.toNat) ∧
      ∀ a ∈ androidClearDisplayExportFrame call.displayId.toNat, ∀ v, a.gives = some v →
        v = (call.displayId.toNat, false) := by
    unfold androidClearDisplayExportFrame
    split
    · exact ⟨trivial, nofun⟩
    · simp [Ordered, Access.Subscribes, Access.Calls, Access.gives]
  unfold removalAccesses StreamCall.accesses
  rw [henabled]
  refine ⟨ordered_append hwhole.ordered hclear.1, ?_, ?_, ?_⟩
  · intro a ha
    rcases List.mem_append.mp ha with ha | ha
    · exact hwhole.gives a ha
    · exact hclear.2 a ha
  · intro h
    obtain ⟨a, ha, hsubscribes⟩ := hwhole.subscribes h
    exact ⟨a, List.mem_append_left _ ha, hsubscribes⟩
  · intro h
    obtain ⟨a, ha, hstreams⟩ := hwhole.streams h
    exact ⟨a, List.mem_append_left _ ha, hstreams⟩

theorem enabled_of_handleDisplayRemove {around : Surroundings} {displays : MultiDisplay.State}
    {requestId displayId : UInt32} {call : StreamCall}
    (h : (handleDisplayRemove around displays requestId displayId).streaming = some call) :
    call.enabled = false := by
  unfold handleDisplayRemove at h
  split at h
  · cases h
  · split at h
    · cases h
    · dsimp only at h
      split at h <;> cases h
      rfl

namespace State

variable (s : State) (worker : Worker) (a : Access) {d : Nat} {b : Bool}

theorem access_todo : (s.access worker a).todo = s.todo := by
  cases a <;> first | rfl | (dsimp only [access, call]; split <;> rfl)

theorem access_renderer : (s.access worker a).renderer = s.renderer := by
  cases a <;> first | rfl | (dsimp only [access, call]; split <;> rfl)

theorem access_installer : (s.access worker a).installer = s.installer := by
  cases a <;> first | rfl | (dsimp only [access, call]; split <;> rfl)

theorem access_loaded (w : Worker) : (s.access worker a).loaded w =
    if w = worker ∧ a = .loadRenderer then s.renderer else s.loaded w := by
  cases a with
  | loadRenderer =>
    by_cases hw : w = worker
    · subst hw
      simp [access]
    · simp [access, hw]
  | subscribe | stream | unstream => simp [access]
  | setDisplayExportEnabled | clearDisplayExportFrame =>
    dsimp only [access, call]
    split <;> simp

variable {a}

theorem access_subscribes (hlt : d < 16) (h : a.Subscribes d) (hgives : a.gives = some (d, b)) :
    subscribed (s.access worker a).subscriptions d = b := by
  obtain ⟨enabled, rfl⟩ := h
  cases hgives
  exact (subscribed_fetch _ _ _ hlt).trans (if_pos rfl)

theorem access_not_subscribes (hlt : d < 16) (h : ¬a.Subscribes d) :
    subscribed (s.access worker a).subscriptions d = subscribed s.subscriptions d := by
  cases a with
  | subscribe displayId enabled =>
    have hne : d ≠ displayId := by
      rintro rfl
      exact h ⟨enabled, rfl⟩
    exact (subscribed_fetch _ _ _ hlt).trans (if_neg hne)
  | loadRenderer | stream | unstream => rfl
  | setDisplayExportEnabled | clearDisplayExportFrame =>
    dsimp only [access, call]
    split <;> rfl

theorem access_streams (h : a.Streams d) (hgives : a.gives = some (d, b)) :
    d ∈ (s.access worker a).streaming ↔ b = true := by
  rcases h with ⟨framesPerSecond, rfl⟩ | rfl
  · cases hgives
    exact iff_of_true Std.ExtTreeMap.mem_insert_self rfl
  · cases hgives
    refine iff_of_false (fun hmem => ?_) Bool.false_ne_true
    exact (Std.ExtTreeMap.mem_erase.mp hmem).1 (Std.compare_eq_iff_eq.mpr rfl)

theorem access_not_streams (h : ¬a.Streams d) :
    d ∈ (s.access worker a).streaming ↔ d ∈ s.streaming := by
  cases a with
  | stream displayId framesPerSecond =>
    have hne : displayId ≠ d := by
      rintro rfl
      exact h (.inl ⟨framesPerSecond, rfl⟩)
    dsimp only [access]
    rw [Std.ExtTreeMap.mem_insert, Std.compare_eq_iff_eq]
    exact or_iff_right hne
  | unstream displayId =>
    have hne : displayId ≠ d := by
      rintro rfl
      exact h (.inr rfl)
    dsimp only [access]
    rw [Std.ExtTreeMap.mem_erase, Ne, Std.compare_eq_iff_eq]
    exact and_iff_right hne
  | subscribe | loadRenderer => exact Iff.rfl
  | setDisplayExportEnabled | clearDisplayExportFrame =>
    dsimp only [access, call]
    split <;> exact Iff.rfl

theorem access_calls {renderer : Nat} (hloaded : s.loaded worker = some renderer)
    (h : a.Calls d) (hgives : a.gives = some (d, b)) :
    (s.access worker a).exporting renderer d = b := by
  rcases h with ⟨enabled, rfl⟩ | rfl <;>
    · cases hgives
      simp [access, call, hloaded, setFlag]

theorem access_not_calls {renderer : Nat} (h : ¬(s.loaded worker = some renderer ∧ a.Calls d)) :
    (s.access worker a).exporting renderer d = s.exporting renderer d := by
  have hcall : ∀ displayId enabled, (displayId = d → a.Calls d) →
      (s.call worker displayId enabled).exporting renderer d = s.exporting renderer d := by
    intro displayId enabled hcalls
    dsimp only [call]
    split
    · rfl
    · rename_i loaded hloaded
      dsimp only [setFlag]
      by_cases hrenderer : renderer = loaded
      · subst hrenderer
        have hne : d ≠ displayId := fun heq => h ⟨hloaded, hcalls heq.symm⟩
        rw [Function.update_self, Function.update_of_ne hne]
      · rw [Function.update_of_ne hrenderer]
  cases a with
  | subscribe | loadRenderer | stream | unstream => rfl
  | setDisplayExportEnabled displayId enabled =>
    exact hcall displayId enabled fun heq => .inl ⟨enabled, by rw [heq]⟩
  | clearDisplayExportFrame displayId =>
    exact hcall displayId false fun heq => .inr (by rw [heq])

end State
end DisplayStreaming
end MacMu
