import MacMu.Agent.DisplayIds

/-!
The ids in the cache. `Change` says once what a step can do to the cache and to the
lists that are about to be stored. `Admits` bounds the ids that they hold for an
index: a bound that every live display of the index meets is kept, whatever the
threads do.
-/

namespace MacMu
namespace Agent
namespace DisplayIds

open TransitionSystem

inductive Change (s : State) : State → Prop where
  | create (index id : Int) (hnone : ∀ display ∈ s.live, display.1 ≠ index) :
      Change s { s with created := s.created ++ [(index, id)] }
  | remove (id : Int) : Change s { s with gone := id :: s.gone }
  | move (thread : Thread) (phase : Phase) (cache : Cache) (hinside : phase.inside = false)
      (hresolved : ∀ job displayId, phase ≠ .resolved job displayId)
      (hcache : ∀ index id, cache index = some id → s.displayIdCache index = some id)
      (hlaunch : ∀ index, s.phase thread = .invalidating (.launch index) →
        s.free = true ∧ phase = .resolving (.launch index) ∧ cache index = none) :
      Change s { s.goTo thread phase with displayIdCache := cache }
  | primary (thread : Thread) (job : Job) (hphase : s.phase thread = .resolving job)
      (hjob : job.displayId ≤ 0) : Change s (s.goTo thread (.resolved job 0))
  | hit (thread : Thread) (job : Job) (hphase : s.phase thread = .resolving job) (id : Int)
      (hfree : s.free = true) (hid : s.displayIdCache job.displayId = some id) :
      Change s (s.goTo thread (.resolved job id))
  | dump (thread : Thread) (job : Job) (hphase : s.phase thread = .resolving job)
      (hfree : s.free = true) :
      Change s { s.goTo thread (.dumping job) with displayIdCache := fun _ => none }
  | list (thread : Thread) (job : Job) (found : List (Int × Int))
      (hphase : s.phase thread = .dumping job)
      (hfound : ∀ index id, (id, multiDisplayUniqueIdBase + index) ∈ found →
        (index, id) ∈ s.live) :
      Change s (s.goTo thread (.listed job found))
  | store (thread : Thread) (job : Job) (found : List (Int × Int))
      (hphase : s.phase thread = .listed job found) :
      Change s { s.goTo thread (.resolved job ((fill found job.displayId).getD (-1))) with
        displayIdCache := fill found }

theorem Job.first_cases (job : Job) :
    job.first.inside = false ∧ ∀ other displayId, job.first ≠ .resolved other displayId := by
  cases job <;> dsimp only [Job.first] <;> try split
  all_goals exact ⟨rfl, nofun⟩

theorem Job.afterInvalidate_cases (job : Job) :
    job.afterInvalidate.inside = false ∧
      ∀ other displayId, job.afterInvalidate ≠ .resolved other displayId := by
  cases job <;> exact ⟨rfl, nofun⟩

theorem Job.afterResolve_cases (job : Job) (id : Int) (again : Bool) :
    (job.afterResolve id again).inside = false ∧
      ∀ other displayId, job.afterResolve id again ≠ .resolved other displayId := by
  cases job <;> dsimp only [Job.afterResolve] <;> try split
  all_goals exact ⟨rfl, nofun⟩

variable {s s' : State}

theorem State.Lists.live {found : List (Int × Int)} (h : s.Lists found) {index id : Int}
    (hmem : (id, multiDisplayUniqueIdBase + index) ∈ found) : (index, id) ∈ s.live := by
  obtain ⟨⟨at', id'⟩, hlive, heq⟩ := h.1 _ hmem
  obtain ⟨rfl, hindex⟩ := Prod.mk.inj heq
  have hsame : index = at' := by
    dsimp only at hindex
    omega
  exact hsame ▸ hlive

theorem change_of_step {a : Action} (h : s.step a = some s') : Change s s' := by
  cases a <;> dsimp only [State.step] at h
  case create index id =>
    split at h <;> cases h
    rename_i hnew
    exact .create index id hnew.2.2
  case remove id =>
    split at h <;> cases h
    exact .remove id
  case start job =>
    split at h <;> cases h
    rename_i hidle
    obtain ⟨hinside, hresolved⟩ := job.first_cases
    exact .move job.thread job.first s.displayIdCache hinside hresolved (fun _ _ hid => hid)
      fun _ hlaunch => absurd (hidle.symm.trans hlaunch) nofun
  case invalidate thread =>
    split at h
    · rename_i job hphase
      split at h <;> cases h
      rename_i hfree
      obtain ⟨hinside, hresolved⟩ := job.afterInvalidate_cases
      refine .move thread job.afterInvalidate _ hinside hresolved (fun index id hid => ?_)
        fun index hlaunch => ?_
      · rw [Function.update_apply] at hid
        split at hid
        · cases hid
        · exact hid
      · cases hphase.symm.trans hlaunch
        exact ⟨hfree, rfl, Function.update_self ..⟩
    · cases h
  case resolve thread =>
    split at h
    · rename_i job hphase
      split at h <;> cases h
      rename_i hfree
      unfold State.resolveAndroidDisplayId
      split
      · rename_i hjob
        exact .primary thread job hphase hjob
      · split
        · rename_i id hid
          exact .hit thread job hphase id hfree hid
        · exact .dump thread job hphase hfree
    · cases h
  case list thread found =>
    split at h
    · rename_i job found hphase
      split at h <;> cases h
      rename_i hlists
      exact .list thread job found hphase fun _ _ hmem => hlists.live hmem
    · rename_i job hphase
      cases h
      exact .list thread job [] hphase nofun
    · cases h
  case store thread =>
    split at h <;> cases h
    rename_i job found hphase
    exact .store thread job found hphase
  case finish thread again =>
    split at h <;> cases h
    rename_i job id hphase
    obtain ⟨hinside, hresolved⟩ := job.afterResolve_cases ..
    exact .move thread _ s.displayIdCache hinside hresolved (fun _ _ hid => hid)
      fun _ hlaunch => absurd (hphase.symm.trans hlaunch) nofun

theorem mem_of_fill {found : List (Int × Int)} {index id : Int} (h : fill found index = some id) :
    (id, multiDisplayUniqueIdBase + index) ∈ found := by
  unfold fill at h
  induction found using List.reverseRecOn with
  | nil => cases h
  | append_singleton found entry ih =>
    rw [List.foldl_append, List.foldl_cons, List.foldl_nil, Function.update_apply] at h
    split at h
    · rename_i hindex
      obtain ⟨id', suffix⟩ := entry
      cases h
      have hsuffix : multiDisplayUniqueIdBase + index = suffix := by
        dsimp only at hindex
        omega
      rw [hsuffix]
      exact List.mem_append_right _ List.mem_cons_self
    · exact List.mem_append_left _ (ih h)

/-- The ids for an index, in the cache and in the lists that are about to be stored. -/
structure Admits (index : Int) (A : Int → Prop) (s : State) : Prop where
  cached : ∀ id, s.displayIdCache index = some id → A id
  listed : ∀ thread job found, s.phase thread = .listed job found →
    ∀ id, (id, multiDisplayUniqueIdBase + index) ∈ found → A id

def Answers (thread : Thread) (index : Int) (A : Int → Prop) (s : State) : Prop :=
  ∀ job id, s.phase thread = .resolved job id → job.displayId = index → id = -1 ∨ A id

section Bounds

variable {index : Int} {A B : Int → Prop}

theorem Admits.mono (h : Admits index A s) (hAB : ∀ id, A id → B id) : Admits index B s :=
  ⟨fun id hid => hAB id (h.cached id hid),
    fun thread job found hphase id hid => hAB id (h.listed thread job found hphase id hid)⟩

theorem Answers.mono {thread : Thread} (h : Answers thread index A s) (hAB : ∀ id, A id → B id) :
    Answers thread index B s :=
  fun job id hphase hjob => (h job id hphase hjob).imp_right (hAB id)

theorem Admits.goTo (h : Admits index A s) {thread : Thread} {phase : Phase} {cache : Cache}
    (hcache : ∀ id, cache index = some id → A id)
    (hlisted : ∀ job found, phase = .listed job found →
      ∀ id, (id, multiDisplayUniqueIdBase + index) ∈ found → A id) :
    Admits index A { s.goTo thread phase with displayIdCache := cache } := by
  refine ⟨hcache, fun other job found hphase => ?_⟩
  change Function.update s.phase thread phase other = _ at hphase
  rw [Function.update_apply] at hphase
  split at hphase
  · exact hlisted job found hphase
  · exact h.listed other job found hphase

theorem Admits.change (h : Admits index A s) (hlive : ∀ id, (index, id) ∈ s.live → A id)
    (hchange : Change s s') : Admits index A s' := by
  cases hchange with
  | create | remove => exact ⟨h.cached, h.listed⟩
  | move thread phase cache hinside hresolved hcache =>
    refine h.goTo (fun id hid => h.cached id (hcache index id hid)) ?_
    rintro job found rfl
    cases hinside
  | primary | hit => exact h.goTo h.cached nofun
  | dump => exact h.goTo nofun nofun
  | list thread job found hphase hfound =>
    refine h.goTo h.cached ?_
    rintro _ _ ⟨⟩ id hid
    exact hlive id (hfound index id hid)
  | store thread job found hphase =>
    exact h.goTo (fun id hid => h.listed thread job found hphase id (mem_of_fill hid)) nofun

theorem Answers.goTo {thread other : Thread} (h : Answers thread index A s) {phase : Phase}
    {cache : Cache}
    (hphase : ∀ job id, phase = .resolved job id → job.displayId = index → id = -1 ∨ A id) :
    Answers thread index A { s.goTo other phase with displayIdCache := cache } := by
  intro job id hthread hjob
  change Function.update s.phase other phase thread = _ at hthread
  rw [Function.update_apply] at hthread
  split at hthread
  · exact hphase job id hthread hjob
  · exact h job id hthread hjob

/-- A thread gets ids out of the cache, or of the list it has stored. -/
theorem Answers.change {thread : Thread} (h : Answers thread index A s) (hadmits : Admits index A s)
    (hindex : 0 < index) (hchange : Change s s') : Answers thread index A s' := by
  cases hchange with
  | create | remove => exact h
  | move other phase cache hinside hresolved hcache =>
    exact h.goTo fun job id hphase => absurd hphase (hresolved job id)
  | primary other job hphase hjob =>
    refine h.goTo ?_
    rintro _ _ ⟨⟩ rfl
    exact absurd hindex (Int.not_lt.mpr hjob)
  | hit other job hphase id hfree hid =>
    refine h.goTo ?_
    rintro _ _ ⟨⟩ rfl
    exact .inr (hadmits.cached id hid)
  | dump | list => exact h.goTo nofun
  | store other job found hphase =>
    refine h.goTo ?_
    rintro _ _ ⟨⟩ rfl
    cases hfill : fill found job.displayId with
    | none => exact .inl rfl
    | some id => exact .inr (hadmits.listed other job found hphase id (mem_of_fill hfill))

end Bounds

section Displays

variable {index id : Int}

theorem mem_live : (index, id) ∈ s.live ↔ id ∈ s.idsAt index ∧ id ∉ s.gone := by
  simp [State.live, State.idsAt]

theorem Change.idsAt (h : Change s s') (index : Int) :
    ∃ more, s'.idsAt index = s.idsAt index ++ more := by
  cases h with
  | create other id =>
    refine ⟨([(other, id)].filter (·.1 = index)).map Prod.snd, ?_⟩
    rw [State.idsAt, List.filter_append, List.map_append]
    rfl
  | _ => exact ⟨[], (List.append_nil _).symm⟩

theorem Change.gone (h : Change s s') (hid : id ∈ s.gone) : id ∈ s'.gone := by
  cases h with
  | remove => exact List.mem_cons_of_mem _ hid
  | _ => exact hid

theorem exec_idsAt {as : List Action} (h : exec State.step s as = some s') (index : Int) :
    ∃ more, s'.idsAt index = s.idsAt index ++ more := by
  induction as generalizing s with
  | nil =>
    cases h
    exact ⟨[], (List.append_nil _).symm⟩
  | cons a as ih =>
    rw [exec_cons] at h
    obtain ⟨t, hstep, hrest⟩ := Option.bind_eq_some_iff.mp h
    obtain ⟨first, hfirst⟩ := (change_of_step hstep).idsAt index
    obtain ⟨more, hmore⟩ := ih hrest
    exact ⟨first ++ more, by rw [hmore, hfirst, List.append_assoc]⟩

end Displays

theorem inside_of_free (h : s.free = true) (thread : Thread) : (s.phase thread).inside = false := by
  rw [State.free, Bool.and_eq_true, Bool.not_eq_true', Bool.not_eq_true'] at h
  cases thread with
  | input => exact h.1
  | control => exact h.2

/-- Displays follow each other at an index, one thread is inside, and the ids are those
of displays at the index. The id that a thread has got is the only one that is found,
until its display is gone. -/
structure Inv (s : State) : Prop where
  newest : ∀ index id, (index, id) ∈ s.live → (s.idsAt index).getLast? = some id
  apart : ∀ thread other, (s.phase thread).inside = true → (s.phase other).inside = true →
    thread = other
  known : ∀ index, Admits index (· ∈ s.idsAt index) s
  answers : ∀ thread index, 0 < index → Answers thread index (· ∈ s.idsAt index) s
  settled : ∀ thread job id, s.phase thread = .resolved job id → 0 < job.displayId →
    id = -1 ∨ id ∈ s.gone ∨ Admits job.displayId (· = id) s

theorem inv_initial : Inv State.initial where
  newest := nofun
  apart := nofun
  known _ := ⟨nofun, nofun⟩
  answers _ _ _ := nofun
  settled := nofun

section Step

variable {index id : Int}

theorem Inv.live_unique (h : Inv s) {other : Int} (hid : (index, id) ∈ s.live)
    (hother : (index, other) ∈ s.live) : other = id := by
  have hlast := (h.newest index other hother).symm.trans (h.newest index id hid)
  exact Option.some.inj hlast

theorem newest_change (h : Inv s) (hchange : Change s s')
    (hlive : (index, id) ∈ s'.live) : (s'.idsAt index).getLast? = some id := by
  cases hchange with
  | create other new hnone =>
    have hids : State.idsAt { s with created := s.created ++ [(other, new)] } index =
        s.idsAt index ++ (if other = index then [new] else []) := by
      rw [State.idsAt, List.filter_append, List.map_append]
      congr 1
      split <;> simp [*]
    obtain ⟨hmem, hgone⟩ := mem_live.mp hlive
    rw [hids] at hmem ⊢
    by_cases hindex : other = index
    · rw [if_pos hindex] at hmem ⊢
      rw [List.getLast?_concat]
      obtain hold | hnew := List.mem_append.mp hmem
      · exact absurd hindex.symm (hnone (index, id) (mem_live.mpr ⟨hold, hgone⟩))
      · rw [List.mem_singleton.mp hnew]
    · rw [if_neg hindex, List.append_nil] at hmem ⊢
      exact h.newest index id (mem_live.mpr ⟨hmem, hgone⟩)
  | remove gone =>
    obtain ⟨hmem, hgone⟩ := mem_live.mp hlive
    exact h.newest index id (mem_live.mpr ⟨hmem, fun hid => hgone (List.mem_cons_of_mem _ hid)⟩)
  | _ => exact h.newest index id hlive

theorem Change.phase (h : Change s s') :
    s'.phase = s.phase ∨ ∃ thread phase, s'.phase = Function.update s.phase thread phase ∧
      (phase.inside = true → s.free = true ∨ (s.phase thread).inside = true) := by
  cases h with
  | create | remove => exact .inl rfl
  | move thread phase cache hinside =>
    exact .inr ⟨thread, phase, rfl, fun h => absurd (hinside.symm.trans h) nofun⟩
  | primary | hit | store => exact .inr ⟨_, _, rfl, nofun⟩
  | dump thread job hphase hfree => exact .inr ⟨_, _, rfl, fun _ => .inl hfree⟩
  | list thread job found hphase =>
    exact .inr ⟨_, _, rfl, fun _ => .inr (by rw [hphase]; rfl)⟩

theorem apart_change (h : Inv s) (hchange : Change s s') {thread other : Thread}
    (hthread : (s'.phase thread).inside = true) (hother : (s'.phase other).inside = true) :
    thread = other := by
  obtain hphase | ⟨moved, phase, hphase, hinside⟩ := hchange.phase
  · rw [hphase] at hthread hother
    exact h.apart thread other hthread hother
  · -- a thread beside the one that has moved in was not inside
    have hsingle : ∀ third, third ≠ moved → phase.inside = true →
        (s.phase third).inside = false := by
      intro third hthird hmoved
      obtain hfree | hwas := hinside hmoved
      · exact inside_of_free hfree third
      · exact Bool.eq_false_iff.mpr fun hthen => hthird (h.apart third moved hthen hwas)
    rw [hphase, Function.update_apply] at hthread hother
    by_cases hm : thread = moved <;> by_cases ho : other = moved
    · rw [hm, ho]
    · rw [if_pos hm] at hthread
      rw [if_neg ho] at hother
      exact absurd ((hsingle other ho hthread).symm.trans hother) nofun
    · rw [if_neg hm] at hthread
      rw [if_pos ho] at hother
      exact absurd ((hsingle thread hm hother).symm.trans hthread) nofun
    · rw [if_neg hm] at hthread
      rw [if_neg ho] at hother
      exact h.apart thread other hthread hother

theorem Inv.admits_only (h : Inv s) (hchange : Change s s') (hid : id ∈ s.idsAt index)
    (honly : id ∈ s.gone ∨ Admits index (· = id) s) :
    id ∈ s'.gone ∨ Admits index (· = id) s' := by
  by_cases hgone : id ∈ s.gone
  · exact .inl (hchange.gone hgone)
  · refine .inr ((honly.resolve_left hgone).change (fun other hother => ?_) hchange)
    exact h.live_unique (mem_live.mpr ⟨hid, hgone⟩) hother

theorem settled_change (h : Inv s) (hchange : Change s s') {thread : Thread} {job : Job}
    (hphase : s'.phase thread = .resolved job id) (hjob : 0 < job.displayId) :
    id = -1 ∨ id ∈ s'.gone ∨ Admits job.displayId (· = id) s' := by
  by_cases hbefore : s.phase thread = .resolved job id
  · by_cases hfound : id = -1
    · exact .inl hfound
    · have hknown := (h.answers thread _ hjob job id hbefore rfl).resolve_left hfound
      have honly := (h.settled thread job id hbefore hjob).resolve_left hfound
      exact .inr (h.admits_only hchange hknown honly)
  · have hmoved : ∀ {other : Thread} {phase : Phase},
        Function.update s.phase other phase thread = .resolved job id →
          other = thread ∧ phase = .resolved job id := by
      intro other phase hupdate
      rw [Function.update_apply] at hupdate
      split at hupdate
      · rename_i hsame
        exact ⟨hsame.symm, hupdate⟩
      · exact absurd hupdate hbefore
    cases hchange with
    | create | remove => exact absurd hphase hbefore
    | move other phase cache hinside hresolved =>
      exact absurd (hmoved hphase).2 (hresolved job id)
    | primary other first hbefore hfirst =>
      obtain ⟨rfl, heq⟩ := hmoved hphase
      cases heq
      exact absurd hjob (Int.not_lt.mpr hfirst)
    | hit other first hbefore cached hfree hcached =>
      obtain ⟨rfl, heq⟩ := hmoved hphase
      cases heq
      refine .inr (.inr (Admits.goTo ⟨fun a ha => ?_, fun third other found hlisted => ?_⟩
        (fun a ha => ?_) nofun))
      · exact Option.some.inj (ha.symm.trans hcached)
      · have hinside := inside_of_free hfree third
        rw [hlisted] at hinside
        cases hinside
      · exact Option.some.inj (ha.symm.trans hcached)
    | dump | list => cases (hmoved hphase).2
    | store other first found hlisted =>
      obtain ⟨rfl, heq⟩ := hmoved hphase
      cases heq
      cases hfill : fill found job.displayId with
      | none => exact .inl rfl
      | some cached =>
        refine .inr (.inr ⟨fun a ha => Option.some.inj (ha.symm.trans hfill), ?_⟩)
        -- nobody else is about to store a list
        intro third job' found' hthird
        change Function.update s.phase other _ third = _ at hthird
        rw [Function.update_apply] at hthird
        split at hthird
        · cases hthird
        · rename_i hne
          exact absurd (h.apart third other (by rw [hthird]; rfl) (by rw [hlisted]; rfl)) hne

theorem Inv.change (h : Inv s) (hchange : Change s s') : Inv s' := by
  have hgrown : ∀ index id, id ∈ s.idsAt index → id ∈ s'.idsAt index := by
    intro index id hid
    obtain ⟨more, hmore⟩ := hchange.idsAt index
    rw [hmore]
    exact List.mem_append_left _ hid
  refine ⟨fun _ _ => newest_change h hchange, fun _ _ => apart_change h hchange, ?_, ?_,
    fun _ _ _ => settled_change h hchange⟩
  · intro index
    have hlive : ∀ id, (index, id) ∈ s.live → id ∈ s.idsAt index :=
      fun id hid => (mem_live.mp hid).1
    exact ((h.known index).change hlive hchange).mono (hgrown index)
  · intro thread index hindex
    exact ((h.answers thread index hindex).change (h.known index) hindex hchange).mono
      (hgrown index)

end Step

theorem inv_of_reachable (h : Reachable State.step .initial s) : Inv s :=
  h.invariant (fun _ _ _ hs hstep => hs.change (change_of_step hstep)) inv_initial

end DisplayIds
end Agent
end MacMu
