import MacMu.Qemu.StreamingAccesses

/-!
Agreement at rest of the three copies of what is streamed. An access that is still
to be made gives a display a value; as long as all accesses that are still to be
made for a display give it the same value, each copy either has that value or is
still to be written. An installation has read the mask before it writes the flags,
so the mask must not change in between.
-/

namespace MacMu
namespace DisplayStreaming

open TransitionSystem ControlReceiver

namespace Installer

def Due (d : Nat) : Installer → Prop
  | .idle | .store _ => False
  | .load | .loadMask _ => True
  | .apply _ _ displays => d ∈ displays

def loaded : Installer → Option Nat
  | .loadMask renderer | .apply renderer _ _ => some renderer
  | _ => none

/-- The next access of a worker does not change the mask for a display that the
installation will still write from the mask it has read. -/
def Admits : Installer → List Access → Prop
  | .apply _ subscriptions displays, accesses =>
    ∀ a ∈ accesses.head?, ∀ change ∈ a.mask, change.1 ∈ displays →
      subscribed subscriptions change.1 = change.2
  | _, _ => True

instance : ∀ installer accesses, Decidable (Admits installer accesses)
  | .apply .., _ => inferInstanceAs (Decidable (∀ a ∈ _, ∀ change ∈ Access.mask a, _ → _))
  | .idle, _ | .store _, _ | .load, _ | .loadMask _, _ => isTrue trivial

end Installer

namespace State

variable {s s' : State}

def Due (s : State) (p : Access → Prop) : Prop := ∃ worker, ∃ a ∈ s.todo worker, p a

def Giving (s : State) (d : Nat) (b : Bool) : Prop := s.Due fun a => a.gives = some (d, b)

def Goal (s : State) (d : Nat) (b : Bool) : Prop :=
  s.Giving d b ∨ (∀ b', ¬s.Giving d b') ∧ subscribed s.subscriptions d = b

def Called (s : State) (renderer d : Nat) : Prop :=
  ∃ worker, CallDue renderer d (s.loaded worker) (s.todo worker)

structure Inv (s : State) : Prop where
  ordered : ∀ worker, Ordered (s.todo worker)
  agree : ∀ d b b', s.Giving d b → s.Giving d b' → b = b'
  mask : ∀ d b, d < 16 → s.Goal d b →
    s.Due (Access.Subscribes d) ∨ subscribed s.subscriptions d = b
  map : ∀ d b, 0 < d → d < 16 → s.Goal d b →
    s.Due (Access.Streams d) ∨ (d ∈ s.streaming ↔ b = true)
  flag : ∀ d b renderer, d < 16 → s.renderer = some renderer → s.Goal d b →
    s.Called renderer d ∨ s.installer.Due d ∨ s.exporting renderer d = b
  applying : ∀ renderer subscriptions displays d b, d < 16 →
    s.installer = .apply renderer subscriptions displays → d ∈ displays → s.Goal d b →
      subscribed subscriptions d = b ∨ s.Due (Access.Subscribes d)
  installing : ∀ renderer, s.installer.loaded = some renderer → s.renderer = some renderer

section Begin

variable {worker : Worker} {accesses : List Access}

theorem begin_eq_some (hbegin : s.begin worker accesses = some s') :
    s.todo worker = [] ∧ s' = { s with todo := Function.update s.todo worker accesses } := by
  unfold begin at hbegin
  split at hbegin <;> cases hbegin
  rename_i hidle
  exact ⟨hidle, rfl⟩

theorem due_update (htodo : s'.todo = Function.update s.todo worker accesses) (p : Access → Prop) :
    s'.Due p ↔ (∃ a ∈ accesses, p a) ∨ ∃ w, w ≠ worker ∧ ∃ a ∈ s.todo w, p a := by
  rw [Due, htodo]
  exact Function.exists_update_iff s.todo (p := fun _ todo => ∃ a ∈ todo, p a)

theorem due_begin (hidle : s.todo worker = []) (p : Access → Prop) :
    Due { s with todo := Function.update s.todo worker accesses } p ↔
      (∃ a ∈ accesses, p a) ∨ s.Due p := by
  rw [due_update rfl, due_update (Function.update_eq_self worker s.todo).symm, hidle]
  simp only [List.not_mem_nil, false_and, exists_false, false_or]

theorem called_begin (hidle : s.todo worker = []) {renderer d : Nat}
    (hcalled : s.Called renderer d) :
    Called { s with todo := Function.update s.todo worker accesses } renderer d := by
  obtain ⟨w, hw⟩ := hcalled
  have hne : w ≠ worker := by
    rintro rfl
    rw [hidle] at hw
    exact hw
  refine ⟨w, ?_⟩
  simpa only [Function.update_of_ne hne] using hw

/-- An operation has begun that gives a display the value which all accesses that
are still to be made for it give it. -/
theorem Inv.begin (h : s.Inv) {display : Nat} {value : Bool}
    (hbegin : s.begin worker accesses = some s') (hwhole : Whole accesses display value)
    (hagree : ∀ b, s.Giving display b → b = value) : s'.Inv := by
  obtain ⟨hidle, hs'⟩ := begin_eq_some hbegin
  have hdue : ∀ p, s'.Due p ↔ (∃ a ∈ accesses, p a) ∨ s.Due p := hs' ▸ due_begin hidle
  have hgiving : ∀ d b, s'.Giving d b → (d = display ∧ b = value) ∨ s.Giving d b := by
    intro d b hd
    rcases (hdue _).mp hd with ⟨a, ha, hgives⟩ | hd
    · exact .inl (Prod.mk.inj (hwhole.gives a ha _ hgives))
    · exact .inr hd
  have hvalue : ∀ b, s'.Giving display b → b = value := fun b hb =>
    (hgiving display b hb).elim (fun h => h.2) (hagree b)
  -- A display of which the operation is not loses nothing.
  have hgoal : ∀ d b, d ≠ display → s'.Goal d b → s.Goal d b := by
    rintro d b hd (hb | ⟨hnone, hb⟩)
    · exact .inl ((hgiving d b hb).resolve_left fun h => hd h.1)
    · rw [hs'] at hb
      exact .inr ⟨fun b' hb' => hnone b' ((hdue _).mpr (.inr hb')), hb⟩
  have hsubscribes : display < 16 → s'.Due (Access.Subscribes display) := fun hd =>
    (hdue _).mpr (.inl (hwhole.subscribes hd))
  refine ⟨?_, ?_, ?_, ?_, ?_, ?_, ?_⟩
  · rw [hs']
    exact (Function.forall_update_iff s.todo (p := fun _ => Ordered)).mpr
      ⟨hwhole.ordered, fun w _ => h.ordered w⟩
  · intro d b b' hb hb'
    by_cases hd : d = display
    · subst hd
      rw [hvalue b hb, hvalue b' hb']
    · exact h.agree d b b' ((hgiving d b hb).resolve_left fun h => hd h.1)
        ((hgiving d b' hb').resolve_left fun h => hd h.1)
  · intro d b hlt hb
    by_cases hd : d = display
    · subst hd
      exact .inl (hsubscribes hlt)
    · rcases h.mask d b hlt (hgoal d b hd hb) with hmask | hmask
      · exact .inl ((hdue _).mpr (.inr hmask))
      · exact .inr (hs' ▸ hmask)
  · intro d b hpos hlt hb
    by_cases hd : d = display
    · subst hd
      exact .inl ((hdue _).mpr (.inl (hwhole.streams hpos)))
    · rcases h.map d b hpos hlt (hgoal d b hd hb) with hmap | hmap
      · exact .inl ((hdue _).mpr (.inr hmap))
      · exact .inr (hs' ▸ hmap)
  · intro d b renderer hlt hrenderer hb
    by_cases hd : d = display
    · subst hd
      refine .inl ⟨worker, ?_⟩
      rw [hs']
      simp only [Function.update_self]
      exact callDue_of_subscribes hwhole.ordered (hwhole.subscribes hlt) _
    · have hrenderer' : s.renderer = some renderer := by rw [hs'] at hrenderer; exact hrenderer
      rcases h.flag d b renderer hlt hrenderer' (hgoal d b hd hb) with hcalled | hflag
      · exact .inl (hs' ▸ called_begin hidle hcalled)
      · exact .inr (hs' ▸ hflag)
  · intro renderer subscriptions displays d b hlt hinstaller hmem hb
    by_cases hd : d = display
    · subst hd
      exact .inr (hsubscribes hlt)
    · have hinstaller' : s.installer = .apply renderer subscriptions displays := by
        rw [hs'] at hinstaller
        exact hinstaller
      rcases h.applying renderer subscriptions displays d b hlt hinstaller' hmem
        (hgoal d b hd hb) with happly | happly
      · exact .inl happly
      · exact .inr ((hdue _).mpr (.inr happly))
  · rw [hs']
    exact h.installing

end Begin

section Work

variable {worker : Worker} {a : Access} {rest : List Access}

theorem work_eq_some (hwork : s.work worker = some s') :
    ∃ a rest, s.todo worker = a :: rest ∧
      s' = { s with todo := Function.update s.todo worker rest }.access worker a := by
  unfold work at hwork
  split at hwork <;> cases hwork
  rename_i a rest htodo
  exact ⟨a, rest, htodo, rfl⟩

theorem due_work (htodo : s.todo worker = a :: rest)
    (htodo' : s'.todo = Function.update s.todo worker rest) (p : Access → Prop) :
    s.Due p ↔ p a ∨ s'.Due p := by
  rw [due_update htodo', due_update (Function.update_eq_self worker s.todo).symm, htodo,
    List.exists_mem_cons_iff, or_assoc]

theorem Goal.eq_of_giving (h : s.Inv) {d : Nat} {b b' : Bool} (hgoal : s.Goal d b)
    (hgiving : s.Giving d b') : b = b' := by
  rcases hgoal with hb | ⟨hnone, -⟩
  · exact h.agree d b b' hb hgiving
  · exact absurd hgiving (hnone b')

theorem Goal.of_work (h : s.Inv) (htodo : s.todo worker = a :: rest)
    (htodo' : s'.todo = Function.update s.todo worker rest)
    (hmask : ∀ d, d < 16 → ¬a.Subscribes d →
      subscribed s'.subscriptions d = subscribed s.subscriptions d)
    {d : Nat} {b : Bool} (hlt : d < 16) (hgoal : s'.Goal d b) : s.Goal d b := by
  have hdue := due_work htodo htodo'
  rcases hgoal with hb | ⟨hnone, hb⟩
  · exact .inl ((hdue _).mpr (.inr hb))
  · by_cases hsubscribes : a.Subscribes d
    · -- The call that comes after it is still to be made.
      have hordered := h.ordered worker
      rw [htodo] at hordered
      obtain ⟨c, rest', rfl, hcalls⟩ := hordered.1 d hsubscribes
      obtain ⟨b', hb'⟩ := hcalls.gives_some
      refine absurd ⟨worker, c, ?_, hb'⟩ (hnone b')
      rw [htodo', Function.update_self]
      exact List.mem_cons_of_mem _ List.mem_cons_self
    · rw [hmask d hlt hsubscribes] at hb
      by_cases hgives : ∃ v, a.gives = some (d, v)
      · obtain ⟨v, hv⟩ := hgives
        have hgoal : s.Goal d v := .inl ((hdue _).mpr (.inl hv))
        rcases h.mask d v hlt hgoal with hsub | hsub
        · obtain ⟨w, c, hc, hcsub⟩ := ((hdue _).mp hsub).resolve_left hsubscribes
          obtain ⟨b', hb'⟩ := hcsub.gives_some
          exact absurd ⟨w, c, hc, hb'⟩ (hnone b')
        · rw [← hb, hsub]
          exact hgoal
      · refine .inr ⟨fun b' hb' => ?_, hb⟩
        rcases (hdue _).mp hb' with hb' | hb'
        · exact hgives ⟨b', hb'⟩
        · exact hnone b' hb'

theorem called_work (htodo : s.todo worker = a :: rest)
    (htodo' : s'.todo = Function.update s.todo worker rest)
    (hloaded : ∀ w, s'.loaded w = if w = worker ∧ a = .loadRenderer then s.renderer else s.loaded w)
    {renderer d : Nat} (hrenderer : s.renderer = some renderer) (hcalled : s.Called renderer d) :
    (s.loaded worker = some renderer ∧ a.Calls d) ∨ s'.Called renderer d := by
  obtain ⟨w, hw⟩ := hcalled
  by_cases heq : w = worker
  · subst heq
    rw [htodo] at hw
    rcases hw with hw | hw
    · exact .inl hw
    · refine .inr ⟨w, ?_⟩
      rw [htodo', Function.update_self, hloaded, hrenderer]
      simpa only [true_and] using hw
  · refine .inr ⟨w, ?_⟩
    rw [htodo', Function.update_of_ne heq, hloaded, if_neg fun h => heq h.1]
    exact hw

/-- A worker makes its next access. The mask does not change under an installation
that has read it and has not yet come to the display. -/
theorem Inv.work (h : s.Inv) (hwork : s.work worker = some s')
    (hok : ∀ d b rest renderer subscriptions displays,
      s.todo worker = .subscribe d b :: rest →
      s.installer = .apply renderer subscriptions displays → d ∈ displays →
        subscribed subscriptions d = b) : s'.Inv := by
  obtain ⟨a, rest, htodo, hs'⟩ := work_eq_some hwork
  have htodo' : s'.todo = Function.update s.todo worker rest := by rw [hs', access_todo]
  have hrenderer' : s'.renderer = s.renderer := by rw [hs', access_renderer]
  have hinstaller' : s'.installer = s.installer := by rw [hs', access_installer]
  have hloaded' : ∀ w, s'.loaded w =
      if w = worker ∧ a = .loadRenderer then s.renderer else s.loaded w := by
    intro w
    rw [hs', access_loaded]
  have hmask' : ∀ d, d < 16 → ¬a.Subscribes d →
      subscribed s'.subscriptions d = subscribed s.subscriptions d := by
    intro d hlt hsubscribes
    rw [hs', access_not_subscribes _ _ hlt hsubscribes]
  have hdue := due_work htodo htodo'
  have hgoal : ∀ d b, d < 16 → s'.Goal d b → s.Goal d b := fun d b hlt =>
    Goal.of_work h htodo htodo' hmask' hlt
  -- The access gives the display the value to which it is going.
  have hgives : ∀ d b, s.Goal d b → (∃ v, a.gives = some (d, v)) → a.gives = some (d, b) := by
    rintro d b hb ⟨v, hv⟩
    rw [hb.eq_of_giving h ((hdue _).mpr (.inl hv))]
    exact hv
  refine ⟨?_, ?_, ?_, ?_, ?_, ?_, ?_⟩
  · have hordered := h.ordered worker
    rw [htodo] at hordered
    rw [htodo']
    exact (Function.forall_update_iff s.todo (p := fun _ => Ordered)).mpr
      ⟨hordered.2, fun w _ => h.ordered w⟩
  · intro d b b' hb hb'
    exact h.agree d b b' ((hdue _).mpr (.inr hb)) ((hdue _).mpr (.inr hb'))
  · intro d b hlt hb
    by_cases hsubscribes : a.Subscribes d
    · refine .inr ?_
      rw [hs']
      exact access_subscribes _ _ hlt hsubscribes
        (hgives d b (hgoal d b hlt hb) hsubscribes.gives_some)
    · rcases h.mask d b hlt (hgoal d b hlt hb) with hmask | hmask
      · exact .inl (((hdue _).mp hmask).resolve_left hsubscribes)
      · exact .inr ((hmask' d hlt hsubscribes).trans hmask)
  · intro d b hpos hlt hb
    by_cases hstreams : a.Streams d
    · refine .inr ?_
      rw [hs']
      exact access_streams _ _ hstreams (hgives d b (hgoal d b hlt hb) hstreams.gives_some)
    · rcases h.map d b hpos hlt (hgoal d b hlt hb) with hmap | hmap
      · exact .inl (((hdue _).mp hmap).resolve_left hstreams)
      · refine .inr ?_
        rw [hs']
        exact (access_not_streams _ _ hstreams).trans hmap
  · intro d b renderer hlt hrenderer hb
    rw [hrenderer'] at hrenderer
    by_cases hcalls : s.loaded worker = some renderer ∧ a.Calls d
    · refine .inr (.inr ?_)
      rw [hs']
      exact access_calls _ _ hcalls.1 hcalls.2 (hgives d b (hgoal d b hlt hb) hcalls.2.gives_some)
    · rcases h.flag d b renderer hlt hrenderer (hgoal d b hlt hb) with hflag | hflag | hflag
      · exact .inl ((called_work htodo htodo' hloaded' hrenderer hflag).resolve_left hcalls)
      · exact .inr (.inl (hinstaller' ▸ hflag))
      · refine .inr (.inr ?_)
        rw [hs']
        exact (access_not_calls { s with todo := Function.update s.todo worker rest } worker
          hcalls).trans hflag
  · intro renderer subscriptions displays d b hlt hinstaller hmem hb
    rw [hinstaller'] at hinstaller
    rcases h.applying renderer subscriptions displays d b hlt hinstaller hmem
      (hgoal d b hlt hb) with happly | happly
    · exact .inl happly
    · rcases (hdue _).mp happly with hsubscribes | happly
      · have hb' := hgives d b (hgoal d b hlt hb) hsubscribes.gives_some
        obtain ⟨enabled, rfl⟩ := hsubscribes
        cases hb'
        exact .inl (hok d _ rest renderer subscriptions displays htodo hinstaller hmem)
      · exact .inr happly
  · rw [hinstaller', hrenderer']
    exact h.installing

end Work

section Install

theorem goal_congr (hmask : s'.subscriptions = s.subscriptions) (htodo : s'.todo = s.todo)
    {d : Nat} {b : Bool} : s'.Goal d b ↔ s.Goal d b := by
  unfold Goal Giving Due
  rw [hmask, htodo]

/-- The flags and the renderer are as they should be after a step of an installation. -/
theorem Inv.of_install (h : s.Inv) (hmask : s'.subscriptions = s.subscriptions)
    (hmap : s'.streaming = s.streaming) (htodo : s'.todo = s.todo)
    (hflag : ∀ d b renderer, d < 16 → s'.renderer = some renderer → s.Goal d b →
      s'.Called renderer d ∨ s'.installer.Due d ∨ s'.exporting renderer d = b)
    (happlying : ∀ renderer subscriptions displays d b, d < 16 →
      s'.installer = .apply renderer subscriptions displays → d ∈ displays → s.Goal d b →
        subscribed subscriptions d = b ∨ s.Due (Access.Subscribes d))
    (hinstalling : ∀ renderer, s'.installer.loaded = some renderer →
      s'.renderer = some renderer) : s'.Inv := by
  have hgoal : ∀ d b, s'.Goal d b → s.Goal d b := fun d b => (goal_congr hmask htodo).mp
  have hdue : s'.Due = s.Due := by
    unfold Due
    rw [htodo]
  refine ⟨htodo ▸ h.ordered, ?_, ?_, ?_, ?_, ?_, hinstalling⟩
  · unfold Giving
    rw [hdue]
    exact h.agree
  · intro d b hlt hb
    rw [hdue, hmask]
    exact h.mask d b hlt (hgoal d b hb)
  · intro d b hpos hlt hb
    rw [hdue, hmap]
    exact h.map d b hpos hlt (hgoal d b hb)
  · exact fun d b renderer hlt hrenderer hb => hflag d b renderer hlt hrenderer (hgoal d b hb)
  · intro renderer subscriptions displays d b hlt hinstaller hmem hb
    rw [hdue]
    exact happlying renderer subscriptions displays d b hlt hinstaller hmem (hgoal d b hb)

theorem Inv.called_of_subscribes (h : s.Inv) {d : Nat} (hdue : s.Due (Access.Subscribes d))
    (renderer : Nat) : s.Called renderer d := by
  obtain ⟨w, hw⟩ := hdue
  exact ⟨w, callDue_of_subscribes (h.ordered w) hw _⟩

/-- The flag of the first display that is left is written from the mask that was read. -/
theorem Inv.applied (h : s.Inv) {renderer display : Nat} {subscriptions : BitVec 32}
    {rest : List Nat} (hinstaller : s.installer = .apply renderer subscriptions (display :: rest)) :
    Inv { s with
      exporting := setFlag s.exporting renderer display (subscribed subscriptions display),
      installer := .apply renderer subscriptions rest } := by
  have hrenderer : s.renderer = some renderer := h.installing renderer (by rw [hinstaller]; rfl)
  refine h.of_install rfl rfl rfl ?_ ?_ fun r hr => hrenderer.trans hr
  · intro d b r hlt hr hb
    cases hrenderer.symm.trans hr
    dsimp only [setFlag]
    rw [Function.update_self]
    by_cases hd : d = display
    · subst hd
      rcases h.applying renderer subscriptions _ d b hlt hinstaller List.mem_cons_self hb
        with happly | hdue
      · rw [Function.update_self]
        exact .inr (.inr happly)
      · exact .inl (h.called_of_subscribes hdue renderer)
    · rw [Function.update_of_ne hd]
      rcases h.flag d b renderer hlt hrenderer hb with hcalled | hdue | hflag
      · exact .inl hcalled
      · rw [hinstaller] at hdue
        exact .inr (.inl ((List.mem_cons.mp hdue).resolve_left hd))
      · exact .inr (.inr hflag)
  · intro r m displays d b hlt happly hmem hb
    cases happly
    exact h.applying renderer subscriptions _ d b hlt hinstaller (List.mem_cons_of_mem _ hmem) hb

theorem Inv.install (h : s.Inv) (hinstall : s.install = some s') : s'.Inv := by
  unfold State.install at hinstall
  split at hinstall
  · cases hinstall
  · cases hinstall
    exact h.of_install rfl rfl rfl (fun _ _ _ _ _ _ => .inr (.inl trivial)) nofun nofun
  · split at hinstall
    · rename_i hnone
      cases hinstall
      exact h.of_install rfl rfl rfl (fun _ _ _ _ hr _ => nomatch hnone.symm.trans hr) nofun nofun
    · rename_i renderer hrenderer
      cases hinstall
      exact h.of_install rfl rfl rfl (fun _ _ _ _ _ _ => .inr (.inl trivial)) nofun
        fun r hr => hrenderer.trans hr
  · rename_i renderer hinstaller
    cases hinstall
    refine h.of_install rfl rfl rfl ?_ ?_ ?_
    · exact fun d b r hlt _ _ => .inr (.inl (List.mem_range.mpr hlt))
    · intro r m displays d b hlt happly _ hb
      cases happly
      exact (h.mask d b hlt hb).symm
    · exact fun r hr => (h.installing renderer (by rw [hinstaller]; rfl)).trans hr
  · rename_i renderer subscriptions hinstaller
    cases hinstall
    refine h.of_install rfl rfl rfl ?_ nofun nofun
    intro d b r hlt hr hb
    rcases h.flag d b r hlt hr hb with hcalled | hdue | hflag
    · exact .inl hcalled
    · rw [hinstaller] at hdue
      cases hdue
    · exact .inr (.inr hflag)
  · rename_i hinstaller
    cases hinstall
    exact h.applied hinstaller

end Install

/-- A display is not switched on while it is being removed, nor removed while it is
being switched on; and the mask does not change under an installation that has read
it and has not yet come to the display. -/
def Ok (s : State) : Label → Prop
  | .displayStream requestId payload =>
    ∀ a ∈ frameAccesses requestId payload, ∀ a' ∈ s.todo .looper, a.Agrees a'
  | .displayRemove around displays requestId displayId =>
    ∀ a ∈ taskAccesses around displays requestId displayId, ∀ a' ∈ s.todo .reader, a.Agrees a'
  | .work worker => s.installer.Admits (s.todo worker)
  | .setOpenglesRenderer _ | .install => True

instance (s : State) (label : Label) : Decidable (s.Ok label) :=
  match label with
  | .displayStream .. | .displayRemove .. => inferInstanceAs (Decidable (∀ a ∈ _, ∀ a' ∈ _, _))
  | .work worker => inferInstanceAs (Decidable (s.installer.Admits (s.todo worker)))
  | .setOpenglesRenderer _ | .install => isTrue trivial

theorem giving_of_agrees {worker other : Worker} (hne : ∀ w, w = worker ∨ w = other)
    (hidle : s.todo worker = []) {accesses : List Access} {display : Nat} {value : Bool}
    (hwhole : Whole accesses display value)
    (hok : ∀ a ∈ accesses, ∀ a' ∈ s.todo other, a.Agrees a') :
    ∀ b, s.Giving display b → b = value := by
  rintro b ⟨w, a', ha', hgives'⟩
  rcases hne w with rfl | rfl
  · rw [hidle] at ha'
    cases ha'
  · obtain ⟨a, ha, hgives⟩ := hwhole.exists_gives
    exact (hok a ha a' ha' _ hgives _ hgives' rfl).symm

theorem begin_nil {worker : Worker} (hbegin : s.begin worker [] = some s') : s' = s := by
  obtain ⟨hidle, rfl⟩ := begin_eq_some hbegin
  rw [← hidle, Function.update_eq_self]

theorem Inv.displayStream (h : s.Inv) {requestId : UInt32} {payload : List UInt8}
    (hstep : s.step (.displayStream requestId payload) = some s')
    (hok : s.Ok (.displayStream requestId payload)) : s'.Inv := by
  dsimp only [step, Ok, frameAccesses] at hstep hok
  cases hcall : (handleDisplayStream requestId payload).streaming with
  | none =>
    rw [hcall] at hstep
    exact begin_nil hstep ▸ h
  | some call =>
    rw [hcall] at hstep hok
    have hwhole := whole_setDisplayStreaming call.displayId.toNat call.enabled
      call.requestedFramesPerSecond
    exact h.begin hstep hwhole
      (giving_of_agrees (fun w => by cases w <;> simp) (begin_eq_some hstep).1 hwhole hok)

theorem Inv.displayRemove (h : s.Inv) {around : Surroundings} {displays : MultiDisplay.State}
    {requestId displayId : UInt32}
    (hstep : s.step (.displayRemove around displays requestId displayId) = some s')
    (hok : s.Ok (.displayRemove around displays requestId displayId)) : s'.Inv := by
  dsimp only [step, Ok, taskAccesses] at hstep hok
  cases hcall : (handleDisplayRemove around displays requestId displayId).streaming with
  | none =>
    rw [hcall] at hstep
    exact begin_nil hstep ▸ h
  | some call =>
    rw [hcall] at hstep hok
    have hwhole := whole_removalAccesses (enabled_of_handleDisplayRemove hcall)
    exact h.begin hstep hwhole
      (giving_of_agrees (fun w => by cases w <;> simp) (begin_eq_some hstep).1 hwhole hok)

theorem Inv.step (h : s.Inv) {label : Label} (hok : s.Ok label) (hstep : s.step label = some s') :
    s'.Inv := by
  cases label with
  | displayStream requestId payload => exact h.displayStream hstep hok
  | displayRemove around displays requestId displayId => exact h.displayRemove hstep hok
  | setOpenglesRenderer renderer =>
    dsimp only [State.step] at hstep
    split at hstep <;> cases hstep
    rename_i hidle
    refine h.of_install rfl rfl rfl (fun d b r hlt hr hb => ?_) nofun nofun
    have hflag := h.flag d b r hlt hr hb
    rw [hidle] at hflag
    exact hflag
  | work worker =>
    refine h.work hstep fun d b rest renderer subscriptions displays htodo hinstaller hmem => ?_
    dsimp only [Ok] at hok
    rw [htodo, hinstaller] at hok
    exact hok _ rfl _ rfl hmem
  | install => exact h.install hstep

theorem inv_initial (exporting : Nat → Nat → Bool) : (initial exporting).Inv where
  ordered _ := trivial
  agree := by
    rintro d b b' ⟨worker, a, ha, -⟩
    cases ha
  mask := by
    rintro d b hlt (⟨worker, a, ha, -⟩ | ⟨-, hb⟩)
    · cases ha
    · exact .inr hb
  map := by
    rintro d b hpos hlt (⟨worker, a, ha, -⟩ | ⟨-, hb⟩)
    · cases ha
    · refine .inr (iff_of_false Std.ExtTreeMap.not_mem_empty ?_)
      rw [← hb, subscribed_eq _ hlt]
      simp [initial]
  flag := nofun
  applying := nofun
  installing := nofun

def Agreement (s : State) : Prop :=
  ∀ d, 0 < d → d < 16 →
    (d ∈ s.streaming ↔ subscribed s.subscriptions d = true) ∧
      ∀ renderer, s.renderer = some renderer →
        (d ∈ s.streaming ↔ s.exporting renderer d = true)

def AtRest (s : State) : Prop :=
  s.todo .reader = [] ∧ s.todo .looper = [] ∧ s.installer = .idle

instance (s : State) : Decidable s.AtRest :=
  inferInstanceAs (Decidable (_ = _ ∧ _ = _ ∧ _ = _))

theorem not_due_of_atRest (h : s.AtRest) (p : Access → Prop) : ¬s.Due p := by
  rintro ⟨worker, a, ha, -⟩
  cases worker with
  | reader =>
    rw [h.1] at ha
    cases ha
  | looper =>
    rw [h.2.1] at ha
    cases ha

theorem Inv.agreement (h : s.Inv) (hrest : s.AtRest) : s.Agreement := by
  have hdue := not_due_of_atRest hrest
  intro d hpos hlt
  have hgoal : s.Goal d (subscribed s.subscriptions d) := .inr ⟨fun _ => hdue _, rfl⟩
  have hmap := (h.map d _ hpos hlt hgoal).resolve_left (hdue _)
  refine ⟨hmap, fun renderer hrenderer => ?_⟩
  rcases h.flag d _ renderer hlt hrenderer hgoal with ⟨worker, hcalled⟩ | hinstaller | hflag
  · cases worker with
    | reader =>
      rw [hrest.1] at hcalled
      exact hcalled.elim
    | looper =>
      rw [hrest.2.1] at hcalled
      exact hcalled.elim
  · rw [hrest.2.2] at hinstaller
    exact hinstaller.elim
  · rw [hflag]
    exact hmap

/-- In a run whose steps keep out of each other's way, the copies agree whenever
nothing is in progress. -/
theorem streaming_agreement (exporting : Nat → Nat → Bool) {labels : List Label} {last : State}
    (hmeets : Meets step Ok (initial exporting) labels)
    (hrun : exec step (initial exporting) labels = some last) (hrest : last.AtRest) :
    last.Agreement :=
  (exec_guarded_invariant (fun _ _ _ h hok hstep => h.step hok hstep) labels
    (inv_initial exporting) hmeets hrun).agreement hrest

end State

namespace Sample

open State

def frame (enabled : UInt8) : Label :=
  .displayStream 7 [1, 0, 0, 0, enabled, 0, 0, 0, 60, 0, 0, 0]

def displays : MultiDisplay.State :=
  ⟨(∅ : Std.ExtTreeMap UInt32 MultiDisplay.MultiDisplayInfo).insert 1
    ⟨8, 8, 8, 8, 160, 0, 0, true⟩, false⟩

def removal : Label := .displayRemove (plainSurroundings true) displays 8 1

def reads (n : Nat) : List Label := List.replicate n (.work .reader)

def loops (n : Nat) : List Label := List.replicate n (.work .looper)

def installs (n : Nat) : List Label := List.replicate n .install

/-- A renderer is installed while display 1 is being switched on. -/
def apart : List Label :=
  .setOpenglesRenderer 3 :: frame 1 :: (installs 1 ++ reads 1 ++ installs 12 ++ reads 3 ++
    installs 7)

/-- Display 1 is switched on while it is being removed. -/
def removed : List Label := frame 1 :: removal :: (reads 3 ++ loops 7 ++ reads 1)

/-- Display 1 is switched on after an installation has read the mask. -/
def overwritten : List Label :=
  .setOpenglesRenderer 3 :: (installs 3 ++ frame 1 :: reads 4 ++ installs 17)

end Sample

namespace State

theorem streaming_agreement_apart : ∃ last,
    exec step (initial fun _ _ => false) Sample.apart = some last ∧ 1 ∈ last.streaming ∧
      last.renderer = some 3 ∧ last.Agreement := by
  obtain ⟨last, hrun, hmem, hrenderer, hrest⟩ : ∃ last,
      exec step (initial fun _ _ => false) Sample.apart = some last ∧ 1 ∈ last.streaming ∧
        last.renderer = some 3 ∧ last.AtRest :=
    exists_of_map_decide (by decide +kernel)
  have hmeets : Meets step Ok (initial fun _ _ => false) Sample.apart := by
    decide +kernel
  exact ⟨last, hrun, hmem, hrenderer, streaming_agreement _ hmeets hrun hrest⟩

/-- The mask loses a display that is streamed, or the renderer does. -/
theorem streaming_disagrees :
    (∃ last, exec step (initial fun _ _ => false) Sample.removed = some last ∧ last.AtRest ∧
      1 ∈ last.streaming ∧ subscribed last.subscriptions 1 = false) ∧
    ∃ last, exec step (initial fun _ _ => false) Sample.overwritten = some last ∧ last.AtRest ∧
      last.renderer = some 3 ∧ 1 ∈ last.streaming ∧ subscribed last.subscriptions 1 = true ∧
        last.exporting 3 1 = false :=
  ⟨exists_of_map_decide (by decide +kernel), exists_of_map_decide (by decide +kernel)⟩

end State
end DisplayStreaming
end MacMu
