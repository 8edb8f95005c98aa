import MacMu.Agent.DisplayIdCache

/-!
Input after a display has been launched again. What is gone when a launch drops its
entry does not come back into the cache, and while the display that has been resolved
is there, no other one is found at its index. The display a line is injected on is the
one its command is for; an event that ends a hover or a touch elsewhere is not of the
line.
-/

namespace MacMu
namespace Agent
namespace DisplayIds

open TransitionSystem

variable {s s' : State}

/-- The display has been created at the index after the other one. -/
def CreatedAfter (s : State) (index id other : Int) : Prop :=
  ∃ before after, s.idsAt index = before ++ id :: after ∧ other ∈ before

/-- The handling of a line has started after a state, and the line is about to be
injected on an Android display. -/
def HandledAfter (s t : State) (text : JavaString) (displayId : Int) : Prop :=
  ∃ before handling u v,
    exec State.step s before = some u ∧ u.step (.start (.line text)) = some v ∧
      exec State.step v handling = some t ∧
      (∀ job, job.thread = .input → Action.start job ∉ handling) ∧
      t.phase .input = .resolved (.line text) displayId

section Launch

variable {index id : Int} {A : Int → Prop}

/-- A launch waits for the monitor, and drops the entry of its display. -/
theorem launch_change (hchange : Change s s')
    (hphase : s.phase .control = .invalidating (.launch index)) :
    s'.phase .control = .invalidating (.launch index) ∨
      s'.phase .control = .resolving (.launch index) ∧ Admits index A s' := by
  have hinput : ∀ phase, (s.goTo .input phase).phase .control = .invalidating (.launch index) :=
    fun phase => (s.phase_goTo_of_ne (by decide) phase).trans hphase
  cases hchange with
  | create | remove => exact .inl hphase
  | move thread phase cache hinside hresolved hcache hlaunch =>
    cases thread with
    | input => exact .inl (hinput phase)
    | control =>
      obtain ⟨hfree, rfl, hnone⟩ := hlaunch index hphase
      have hcontrol : Function.update s.phase .control (.resolving (.launch index)) .control =
          .resolving (.launch index) := Function.update_self ..
      refine .inr ⟨hcontrol, fun id hid => ?_, fun other job found hlisted => ?_⟩
      · cases hnone.symm.trans hid
      · change Function.update s.phase .control _ other = _ at hlisted
        rw [Function.update_apply] at hlisted
        split at hlisted
        · cases hlisted
        · have hinside := inside_of_free hfree other
          rw [hlisted] at hinside
          cases hinside
  | primary thread job hbefore | hit thread job hbefore | list thread job found hbefore =>
    cases thread with
    | input => exact .inl (hinput _)
    | control => cases hbefore.symm.trans hphase
  | dump thread job hbefore =>
    cases thread with
    | input => exact .inl (hinput (.dumping job))
    | control => cases hbefore.symm.trans hphase
  | store thread job found hbefore =>
    cases thread with
    | input => exact .inl (hinput (.resolved job ((fill found job.displayId).getD (-1))))
    | control => cases hbefore.symm.trans hphase

theorem launch_avoids {P : Int → Prop} (hP : ∀ p, P p → p ∈ s.gone) (hindex : 0 < index)
    (hphase : s.phase .control = .invalidating (.launch index))
    (hrun : Reachable State.step s s') : Answers .control index (fun id => ¬P id) s' := by
  have hkept : (∀ p, P p → p ∈ s'.gone) ∧
      (s'.phase .control = .invalidating (.launch index) ∨
        Admits index (fun id => ¬P id) s' ∧ Answers .control index (fun id => ¬P id) s') := by
    refine hrun.invariant (I := fun u => (∀ p, P p → p ∈ u.gone) ∧
      (u.phase .control = .invalidating (.launch index) ∨
        Admits index (fun id => ¬P id) u ∧ Answers .control index (fun id => ¬P id) u))
      (fun u a v hu hstep => ?_) ⟨hP, .inl hphase⟩
    have hchange := change_of_step hstep
    refine ⟨fun p hp => hchange.gone (hu.1 p hp), ?_⟩
    obtain hwaiting | ⟨hadmits, hanswers⟩ := hu.2
    · refine (launch_change hchange hwaiting).imp_right fun hdropped => ⟨hdropped.2, ?_⟩
      intro job id hresolved
      cases hdropped.1.symm.trans hresolved
    · have hlive : ∀ id, (index, id) ∈ u.live → ¬P id :=
        fun id hid hp => (mem_live.mp hid).2 (hu.1 id hp)
      exact .inr ⟨hadmits.change hlive hchange, hanswers.change hadmits hindex hchange⟩
  obtain hwaiting | ⟨-, hanswers⟩ := hkept.2
  · intro job id hresolved
    cases hwaiting.symm.trans hresolved
  · exact hanswers

theorem createdAfter_of_avoided (h : Inv s) {more : List Int} {p : Int}
    (hids : s'.idsAt index = s.idsAt index ++ more) (hid : id ∈ s'.idsAt index)
    (hp : p ∈ s.idsAt index) (hgone : p ∈ s.gone) (havoided : ¬(id ∈ s.idsAt index ∧ id ∈ s.gone)) :
    CreatedAfter s' index id p := by
  rw [hids] at hid
  by_cases hold : id ∈ s.idsAt index
  · have hthere : id ∉ s.gone := fun hid => havoided ⟨hold, hid⟩
    obtain ⟨before, hbefore⟩ : ∃ before, s.idsAt index = before ++ [id] :=
      List.getLast?_eq_some_iff.mp (h.newest index id (mem_live.mpr ⟨hold, hthere⟩))
    refine ⟨before, more, by rw [hids, hbefore, List.append_assoc]; rfl, ?_⟩
    rw [hbefore] at hp
    refine (List.mem_append.mp hp).resolve_right fun hsame => ?_
    exact hthere (List.mem_singleton.mp hsame ▸ hgone)
  · obtain ⟨front, back, rfl⟩ := List.append_of_mem ((List.mem_append.mp hid).resolve_left hold)
    exact ⟨s.idsAt index ++ front, back, by rw [hids, List.append_assoc], List.mem_append_left _ hp⟩

/-- The display is at the index, and no other one is found there until it is gone. -/
structure Sole (index id : Int) (s : State) : Prop where
  inv : Inv s
  known : id ∈ s.idsAt index
  only : id ∈ s.gone ∨ Admits index (· = id) s

theorem Sole.change (h : Sole index id s) (hchange : Change s s') : Sole index id s' := by
  obtain ⟨more, hmore⟩ := hchange.idsAt index
  have hknown : id ∈ s'.idsAt index := by
    rw [hmore]
    exact List.mem_append_left _ h.known
  exact ⟨h.inv.change hchange, hknown, h.inv.admits_only hchange h.known h.only⟩

theorem Sole.handledAfter (h : Sole index id s) (hindex : 0 < index) {text : JavaString}
    {displayId : Int} (hhandled : HandledAfter s s' text displayId)
    (htext : lineDisplay text = some index) (hthere : id ∉ s'.gone) :
    displayId = id ∨ displayId = -1 := by
  obtain ⟨before, handling, u, v, hbefore, hstart, hrun, -, hresolved⟩ := hhandled
  have hu : Sole index id u :=
    Reachable.invariant (I := Sole index id) (fun _ _ _ hx hstep => hx.change (change_of_step hstep))
      h ⟨before, hbefore⟩
  have hv : id ∈ v.gone ∨ Answers .input index (· = id) v := by
    refine .inr fun job other hphase => ?_
    dsimp only [State.step] at hstart
    split at hstart <;> cases hstart
    change Function.update s.phase .input (Job.line text).first .input = _ at hphase
    rw [Function.update_self] at hphase
    exact absurd hphase ((Job.line text).first_cases.2 job other)
  have hkept : Sole index id s' ∧ (id ∈ s'.gone ∨ Answers .input index (· = id) s') := by
    refine Reachable.invariant
      (I := fun x => Sole index id x ∧ (id ∈ x.gone ∨ Answers .input index (· = id) x))
      (fun x a y hx hstep => ?_) ⟨hu.change (change_of_step hstart), hv⟩ ⟨handling, hrun⟩
    have hchange := change_of_step hstep
    refine ⟨hx.1.change hchange, ?_⟩
    obtain hgone | hanswers := hx.2
    · exact .inl (hchange.gone hgone)
    · refine hx.1.only.imp (fun hgone => hchange.gone hgone) fun hadmits => ?_
      exact hanswers.change hadmits hindex hchange
  have hdisplay : (Job.line text).displayId = index := by rw [Job.displayId, htext]; rfl
  exact (hkept.2.resolve_left hthere (.line text) displayId hresolved hdisplay).symm

end Launch

/-- A command of a line is for the display that has been resolved. -/
theorem target_parseLine {F : Type} {floats : Floats F} {displayId index : Int} {text : JavaString}
    {command : PointerCommand F} (htext : lineDisplay text = some index) (hindex : 0 < index)
    (h : parseLine floats (fun _ => displayId) text = some command) :
    command.target = some displayId := by
  have hresolve : ∀ n, parseInt n = some index → ∀ m, parseInt n = some m →
      Agent.resolveAndroidDisplayId (fun _ => displayId) m = displayId := by
    intro n hn m hm
    cases hn.symm.trans hm
    exact if_neg (Int.not_le.mpr hindex)
  unfold lineDisplay at htext
  unfold parseLine at h
  generalize split text = fields at htext h
  split at h
  case h_2 => cases htext
  case h_7 => cases h
  all_goals
    simp only [Option.bind_eq_bind, Option.bind_eq_some_iff, Option.some.injEq] at h
    obtain ⟨m, hm, hrest⟩ := h
    have hid := hresolve _ htext m hm
    grind [PointerCommand.target]

/-- A launch that begins after a display at its index is gone resolves one that has been
created there later, and until that one is gone, every line for the index whose
handling starts after that is injected on it or on no display. -/
theorem input_follows_relaunch {F : Type} (floats : Floats F) {index id : Int}
    {s begun t : State} (hs : Reachable State.step .initial s) (hindex : 0 < index)
    (hbegin : s.step (.start (.launch index)) = some begun)
    (hwait : Reachable State.step begun t)
    (hresolved : t.phase .control = .resolved (.launch index) id) (hfound : 0 ≤ id) :
    (∀ previous ∈ s.idsAt index, previous ∈ s.gone → CreatedAfter t index id previous) ∧
      ∀ u text displayId, HandledAfter t u text displayId → lineDisplay text = some index →
        id ∉ u.gone →
          (displayId = id ∨ displayId = -1) ∧
            ∀ command, parseLine floats (fun _ => displayId) text = some command →
              command.target = some id ∨ command.target = some (-1) := by
  have hbegun : begun = s.goTo .control (.invalidating (.launch index)) := by
    have hfirst : (Job.launch index).first = .invalidating (.launch index) := if_pos hindex
    dsimp only [State.step] at hbegin
    rw [hfirst] at hbegin
    split at hbegin
    · exact (Option.some.inj hbegin).symm
    · cases hbegin
  have hinv : Inv t := hwait.invariant (fun _ _ _ hx hstep => hx.change (change_of_step hstep))
    (inv_of_reachable (hs.tail hbegin))
  have hid : id ≠ -1 := by omega
  have hknown : id ∈ t.idsAt index :=
    (hinv.answers .control index hindex (.launch index) id hresolved rfl).resolve_left hid
  constructor
  · intro previous hprevious hgone
    subst hbegun
    have havoids := launch_avoids (s := s.goTo .control (.invalidating (.launch index)))
      (P := fun p => p ∈ s.idsAt index ∧ p ∈ s.gone) (fun p hp => hp.2) hindex
      (s.phase_goTo_self ..) hwait
    obtain ⟨waiting, hrun⟩ := hwait
    obtain ⟨more, hmore⟩ := exec_idsAt hrun index
    exact createdAfter_of_avoided (inv_of_reachable hs) hmore hknown hprevious hgone
      ((havoids (.launch index) id hresolved rfl).resolve_left hid)
  · intro u text displayId hhandled htext hthere
    have honly := (hinv.settled .control (.launch index) id hresolved hindex).resolve_left hid
    have hdisplay := Sole.handledAfter ⟨hinv, hknown, honly⟩ hindex hhandled htext hthere
    refine ⟨hdisplay, fun command hcommand => ?_⟩
    rw [target_parseLine htext hindex hcommand]
    exact hdisplay.imp (congrArg some) (congrArg some)

namespace Sample

/-- The display at the index 1 is removed while its id is in the cache. -/
def beforeLaunch : List Action :=
  [.create 1 5, .start (.line "h 1 3 4".toList), .resolve .input,
    .list .input (some [(5, 1234562)]), .store .input, .finish .input false, .remove 5]

def launching : List Action :=
  [.invalidate .control, .resolve .control, .list .control (some []), .store .control,
    .create 1 7, .finish .control true, .resolve .control,
    .list .control (some [(7, 1234562)]), .store .control]

def floats : Floats Int := ⟨0, parseInt⟩

def hoverLine : JavaString := "h 1 8 9".toList

/-- The launch resolves the new display, and a line is handled after that. -/
def follows (s : State) : Bool :=
  (s.step (.start (.launch 1))).any fun begun =>
    (exec State.step begun launching).any fun t =>
      t.phase .control = .resolved (.launch 1) 7 &&
        (t.step (.start (.line hoverLine))).any fun v =>
          (exec State.step v [.resolve .input]).any fun u =>
            u.phase .input = .resolved (.line hoverLine) 7 && 7 ∉ u.gone

end Sample

theorem input_follows_relaunch_once : ∃ s begun t u,
    exec State.step .initial Sample.beforeLaunch = some s ∧ 5 ∈ s.gone ∧
      s.step (.start (.launch 1)) = some begun ∧
      exec State.step begun Sample.launching = some t ∧ CreatedAfter t 1 7 5 ∧
      HandledAfter t u Sample.hoverLine 7 ∧
      ∀ command, parseLine Sample.floats (fun _ => 7) Sample.hoverLine = some command →
        command.target = some 7 ∨ command.target = some (-1) := by
  obtain ⟨s, hs, hprevious, hgone, hfollows⟩ : ∃ s,
      exec State.step .initial Sample.beforeLaunch = some s ∧ 5 ∈ s.idsAt 1 ∧ 5 ∈ s.gone ∧
        Sample.follows s = true := exists_of_map_decide (by decide +kernel)
  simp only [Sample.follows, Option.any_eq_true, Bool.and_eq_true, decide_eq_true_eq] at hfollows
  obtain ⟨begun, hbegin, t, hwait, hresolved, v, hstart, u, hrun, hline, hthere⟩ := hfollows
  have hhandled : HandledAfter t u Sample.hoverLine 7 :=
    ⟨[], [.resolve .input], t, v, rfl, hstart, hrun, by simp, hline⟩
  obtain ⟨hcreated, hlines⟩ := input_follows_relaunch Sample.floats ⟨_, hs⟩ (by decide) hbegin
    ⟨_, hwait⟩ hresolved (by decide)
  exact ⟨s, begun, t, u, hs, hgone, hbegin, hwait, hcreated 5 hprevious hgone, hhandled,
    (hlines u Sample.hoverLine 7 hhandled (by decide) hthere).2⟩

end DisplayIds
end Agent
end MacMu
