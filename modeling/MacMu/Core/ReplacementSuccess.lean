import MacMu.Core.ReplacementDirectories

/-!
A call in which nothing fails. It puts the image of the source at the system path if
the text of that path has a slash and does not end in one. With a slash at its end the
path names the same directory, but the staging directory is then inside it; without
any slash there is no parent to make. The call returns false in both cases.
-/

namespace MacMu
namespace ImageReplacement

open FileTree SystemImage TransitionSystem

section Ends

variable {α : Type}

def Stage.rank (setup : Setup α) : Stage → Nat
  | .checkSource => setup.runtimeDirectories.length + 13
  | .makeRuntime _ rest => rest.length + 13
  | .removeImporting => 12
  | .removePrevious => 11
  | .makeParent => 10
  | .moveSource => 9
  | .copySource => 8
  | .checkStaged => 7
  | .findDestination => 6
  | .backUp => 5
  | .activate => 4
  | .findPrevious => 3
  | .restore | .cleanCopy => 2
  | .dropStaged | .dropPrevious => 1
  | .returned _ => 0

variable {setup : Setup α} {source : Source} {s s' : State α} {outcome : Outcome α}

theorem rank_afterRuntime (rest : List (List String)) :
    (afterRuntime rest).rank setup = rest.length + 12 := by
  cases rest with
  | nil => rfl
  | cons path rest => simp only [afterRuntime, Stage.rank, List.length_cons]

theorem of_stages {p : Stage → Prop} {c : Prop} [Decidable c] {first second : Stage}
    (hfirst : p first) (hsecond : p second) : p (if c then first else second) :=
  iteInduction (fun _ => hfirst) fun _ => hsecond

theorem rank_of_stages {c : Prop} [Decidable c] {first second : Stage} {bound : Nat}
    (hfirst : first.rank setup < bound) (hsecond : second.rank setup < bound) :
    (if c then first else second).rank setup < bound :=
  of_stages (p := fun stage => stage.rank setup < bound) hfirst hsecond

theorem rank_swap {old new : List String} {next failed : Stage} {bound : Nat}
    (hnext : next.rank setup < bound) (hfailed : failed.rank setup < bound) :
    (s.swap old new outcome next failed).stage.rank setup < bound := by
  unfold State.swap
  split
  · exact hnext
  · exact hfailed

theorem State.step_rank (h : State.step setup source s outcome = some s') :
    s'.stage.rank setup < s.stage.rank setup := by
  obtain ⟨t, stage⟩ := s
  cases stage with
  | checkSource | makeRuntime path rest =>
    cases h
    refine rank_of_stages ?_ (Nat.succ_pos _)
    rw [rank_afterRuntime]
    exact Nat.lt_succ_self _
  | makeParent =>
    dsimp only [State.step] at h
    split at h
    · cases h
      exact Nat.succ_pos _
    · cases h
      exact rank_of_stages (by simp [Stage.rank]) (Nat.succ_pos _)
  | moveSource =>
    dsimp only [State.step] at h
    split at h <;> cases h <;> simp [Stage.rank]
  | copySource | checkStaged | findDestination | findPrevious =>
    cases h
    exact rank_of_stages (by simp [Stage.rank]) (by simp [Stage.rank])
  | backUp | activate | restore =>
    cases h
    exact rank_swap (by simp [Stage.rank]) (by simp [Stage.rank])
  | removeImporting | removePrevious | cleanCopy | dropStaged | dropPrevious =>
    cases h
    simp [Stage.rank]
  | returned result => cases h

theorem State.step_none (h : State.step setup source s outcome = none) :
    ∃ result, s.stage = .returned result := by
  obtain ⟨t, stage⟩ := s
  cases stage with
  | returned result => exact ⟨result, rfl⟩
  | makeParent | moveSource =>
    dsimp only [State.step] at h
    split at h <;> cases h
  | _ => cases h

theorem State.returns (setup : Setup α) (source : Source) (s : State α) : ∃ n last result,
    exec (State.step setup source) s (List.replicate n .ok) = some last ∧
      last.stage = .returned result := by
  induction hrank : s.stage.rank setup using Nat.strongRecOn generalizing s with
  | ind rank ih =>
    cases hstep : State.step setup source s .ok with
    | none =>
      obtain ⟨result, hresult⟩ := State.step_none hstep
      exact ⟨0, s, result, rfl, hresult⟩
    | some s' =>
      obtain ⟨n, last, result, hrun, hresult⟩ :=
        ih _ (hrank ▸ State.step_rank hstep) s' rfl
      refine ⟨n + 1, last, result, ?_, hresult⟩
      rw [List.replicate_succ, exec_cons_of_step hstep]
      exact hrun

end Ends

section Needed

variable {α : Type} (setup : Setup α) (source : Source)

def Passed : Stage → Prop
  | .moveSource => '/' ∈ setup.systemPath.toList
  | .copySource | .checkStaged | .findDestination | .backUp | .activate =>
    '/' ∈ setup.systemPath.toList ∧ Proper source.name
  | .dropPrevious | .returned true =>
    '/' ∈ setup.systemPath.toList ∧ Proper setup.name ∧ Proper source.name
  | _ => True

variable {setup source} {t t' : Tree α} {stage : Stage} {s' : State α} {outcome : Outcome α}

theorem proper_of_operand {dir : List String} {name : String} {found : Location}
    (h : operand t (dir ++ [name]) = some found) (hname : name ≠ "") : Proper name := by
  unfold operand at h
  rw [withoutSlash_snoc hname, List.getLast?_concat] at h
  dsimp only at h
  split at h
  · assumption
  · cases h

theorem operand_of_rename {old new : List String} {crossVolume : Bool}
    (h : renameOrFail t old new crossVolume outcome ≠ .failed) :
    (∃ found, operand t old = some found) ∧ ∃ found, operand t new = some found := by
  cases outcome with
  | fault residue => exact absurd rfl h
  | ok =>
    simp only [renameOrFail, rename] at h
    split at h
    · rename_i hold hnew
      exact ⟨⟨_, hold⟩, _, hnew⟩
    · exact absurd rfl h

theorem rename_into_itself {dir : List String} {name : String} (hproper : Proper name)
    (outcome : Outcome α) {moved : Tree α} :
    renameOrFail t (dir ++ [name]) (dir ++ [""]) false outcome ≠ .done moved := by
  intro h
  obtain ⟨⟨old, hold⟩, new, hnew⟩ := operand_of_rename (by rw [h]; exact nofun)
  have hlocated := hold
  rw [operand_snoc hproper] at hlocated
  obtain ⟨⟨found, w⟩, hentry, rfl⟩ := Option.map_eq_some_iff.mp hlocated
  obtain ⟨parent, hparent, -, rfl⟩ := entry_eq_some.mp hentry
  obtain rfl : new = parent := operand_slash hnew hparent
  have hdiffer : new ++ [name] ≠ new := by simp
  have hinside : ((new ++ [name]).isPrefixOf new || new.isPrefixOf (new ++ [name])) = true := by
    simp
  cases outcome with
  | fault residue => cases h
  | ok =>
    simp only [renameOrFail, rename, hold, hnew, if_neg hdiffer, if_pos hinside,
      if_neg Bool.false_ne_true, ite_self] at h
    cases h

theorem passed_afterRuntime (rest : List (List String)) :
    Passed setup source (afterRuntime rest) := by
  cases rest <;> trivial

theorem Passed.step (hname : source.name ≠ "") (h : Passed setup source stage)
    (hstep : State.step setup source ⟨t, stage⟩ outcome = some s') :
    Passed setup source s'.stage := by
  obtain ⟨hdestination, himporting, -⟩ := setup.paths
  cases stage with
  | checkSource | makeRuntime path rest =>
    cases hstep
    exact of_stages (passed_afterRuntime _) trivial
  | makeParent =>
    dsimp only [State.step] at hstep
    rw [setup.parent_eq] at hstep
    split at hstep
    · cases hstep
      trivial
    · rename_i path hparent
      cases hstep
      refine of_stages ?_ trivial
      split at hparent
      · assumption
      · cases hparent
  | moveSource =>
    dsimp only [State.step] at hstep
    split at hstep
    · rename_i tree hrename
      cases hstep
      obtain ⟨⟨found, hfound⟩, -⟩ := operand_of_rename (by rw [hrename]; exact nofun)
      exact ⟨h, proper_of_operand hfound hname⟩
    · rename_i hrename
      cases hstep
      obtain ⟨⟨found, hfound⟩, -⟩ := operand_of_rename (by rw [hrename]; exact nofun)
      exact ⟨h, proper_of_operand hfound hname⟩
    · cases hstep
      trivial
  | copySource | checkStaged =>
    cases hstep
    exact of_stages h trivial
  | findDestination =>
    cases hstep
    exact of_stages h h
  | backUp =>
    cases hstep
    unfold State.swap
    split
    · exact h
    · trivial
  | activate =>
    cases hstep
    unfold State.swap
    split
    · rename_i tree hrename
      refine ⟨h.1, ?_, h.2⟩
      by_cases hempty : setup.name = ""
      · rw [hdestination, himporting, hempty] at hrename
        exact (rename_into_itself (by decide) outcome hrename).elim
      · obtain ⟨-, found, hfound⟩ := operand_of_rename (by rw [hrename]; exact nofun)
        rw [hdestination] at hfound
        exact proper_of_operand hfound hempty
    · trivial
  | restore =>
    cases hstep
    unfold State.swap
    split <;> trivial
  | findPrevious =>
    cases hstep
    exact of_stages trivial trivial
  | dropPrevious =>
    cases hstep
    exact h
  | removeImporting | removePrevious | cleanCopy | dropStaged =>
    cases hstep
    trivial
  | returned result => cases hstep

end Needed

section Enough

variable {α : Type}

def Smooth (b : Before α) : Stage → Slots α → Prop
  | .checkSource, x | .makeRuntime .., x | .removeImporting, x =>
    x .destination = b.destination ∧ x .source = b.source
  | .removePrevious, x =>
    (x .destination = b.destination ∧ x .source = b.source) ∧ x .importing = Image.nothing
  | .makeParent, x | .moveSource, x =>
    ((x .destination = b.destination ∧ x .source = b.source) ∧ x .importing = Image.nothing) ∧
      x .previous = Image.nothing
  | .checkStaged, x | .findDestination, x =>
    x .destination = b.destination ∧ x .importing = b.source ∧ x .previous = Image.nothing
  | .backUp, x =>
    (x .destination = b.destination ∧ x .importing = b.source ∧ x .previous = Image.nothing) ∧
      b.destination [] ≠ none
  | .activate, x => x .destination [] = none ∧ x .importing = b.source
  | .dropPrevious, x | .returned true, x => x .destination = b.source
  | _, _ => False

def Stage.seeks : Stage → Bool
  | .checkSource | .makeRuntime .. | .removeImporting | .removePrevious | .makeParent
  | .moveSource | .copySource | .checkStaged | .findDestination => true
  | _ => false

def IsLink (image : Image α) : Prop :=
  ∃ absolute target, image [] = some (.link absolute target)

variable {setup : Setup α} {source : Source} {b : Before α} {stage stage' : Stage}
  {x x' : Slots α}

theorem Smooth.destination (h : Smooth b stage x) (hstage : stage.seeks = true) :
    x .destination = b.destination := by
  cases stage with
  | checkSource | makeRuntime | removeImporting | checkStaged | findDestination => exact h.1
  | removePrevious => exact h.1.1
  | makeParent | moveSource => exact h.1.1.1
  | copySource => exact h.elim
  | _ => cases hstage

theorem Moves.seeks {outcome : Outcome α} (h : Moves setup source outcome stage x stage' x')
    (hstage : stage'.seeks = true) : stage.seeks = true := by
  cases h with
  | findPrevious found => cases found <;> cases hstage
  | notCopied | cleanCopy | backedUp | notBackedUp | activated | notActivated | restored
  | notRestored | dropStaged | dropPrevious => first | rfl | cases hstage
  | _ => rfl

theorem Smooth.step (hcomplete : b.source.Complete setup.isDisk)
    (hvolume : source.crossVolume = false) (hparent : setup.parent ≠ none)
    (hlink : stage = .findDestination → IsLink b.destination → stage' = .backUp)
    (h : Smooth b stage x) (hmoves : Moves setup source .ok stage x stage' x') :
    Smooth b stage' x' := by
  cases hmoves with
  | checkSource passed hpassed =>
    cases hpassed rfl (h.2 ▸ hcomplete)
    cases hruntime : setup.runtimeDirectories <;> exact h
  | @makeRuntime _ _ path rest => cases rest <;> exact h
  | removeImporting =>
    refine ⟨⟨?_, ?_⟩, ?_⟩
    · rw [x.remove_of_ne _ (by decide)]
      exact h.1
    · rw [x.remove_of_ne _ (by decide)]
      exact h.2
    · rw [x.remove_self, Outcome.left, Image.survivors_nil]
  | removePrevious =>
    refine ⟨⟨⟨?_, ?_⟩, ?_⟩, ?_⟩
    · rw [x.remove_of_ne _ (by decide)]
      exact h.1.1
    · rw [x.remove_of_ne _ (by decide)]
      exact h.1.2
    · rw [x.remove_of_ne _ (by decide)]
      exact h.2
    · rw [x.remove_self, Outcome.left, Image.survivors_nil]
  | makeParent made hmade =>
    cases hmade rfl hparent
    exact h
  | moved =>
    refine ⟨?_, ?_, ?_⟩
    · rw [x.rename_of_ne (by decide) (by decide)]
      exact h.1.1.1
    · rw [x.rename_new]
      exact h.1.1.2
    · rw [x.rename_of_ne (by decide) (by decide)]
      exact h.2
  | crossDevice hcross => cases hvolume.symm.trans hcross
  | notMoved hnot =>
    obtain ⟨⟨⟨-, hsource⟩, himporting⟩, -⟩ := h
    rw [hsource, himporting] at hnot
    rcases hnot rfl with hnone | hfits
    · exact (hcomplete.present hnone).elim
    · exact (hfits (Image.fits_of_none hcomplete.present rfl)).elim
  | checkStaged passed hpassed =>
    cases hpassed rfl (h.2.1 ▸ hcomplete)
    exact h
  | findDestination found hlooked =>
    cases found with
    | true =>
      refine ⟨h, fun hnone => ?_⟩
      rw [h.1] at hlooked
      unfold Looked at hlooked
      rw [hnone] at hlooked
      cases hlooked
    | false =>
      refine ⟨?_, h.2.1⟩
      rw [h.1] at hlooked ⊢
      by_contra hsome
      have hnode : ∀ absolute target, b.destination [] ≠ some (.link absolute target) :=
        fun absolute target hroot => nomatch hlink rfl ⟨absolute, target, hroot⟩
      cases (looked_ok hnode hlooked).mpr hsome
  | backedUp =>
    refine ⟨?_, ?_⟩
    · rw [x.rename_old (by decide)]
      rfl
    · rw [x.rename_of_ne (by decide) (by decide)]
      exact h.1.2.1
  | notBackedUp hnot =>
    obtain ⟨⟨hdestination, -, hprevious⟩, hpresent⟩ := h
    rw [hdestination, hprevious] at hnot
    exact hnot rfl (Image.fits_of_none hpresent rfl)
  | activated =>
    refine (x.rename_new).trans ?_
    exact h.2
  | notActivated hnot =>
    refine hnot rfl (Image.fits_of_none ?_ h.1)
    rw [h.2]
    exact hcomplete.present
  | dropPrevious => exact (x.remove_of_ne _ (by decide)).trans h
  | copied | notCopied | cleanCopy | findPrevious | restored | notRestored | dropStaged =>
    exact h.elim

end Enough

section Leads

variable {α : Type} (setup : Setup α) (source : Source) (site : Site)

/-- The system path leads to a directory, and not through the other places. -/
structure Leads (t : Tree α) : Prop where
  directory : leadsToDirectory t setup.destination = true
  clear : ∀ other ∈ route t setup.destination, ∀ slot, slot ≠ .destination →
    ¬place setup source site slot <+: other

variable {setup source site} {t t' : Tree α}

section

variable (h : Leads setup source site t)
include h

theorem Leads.of_same
    (hsame : ∀ other, (∀ slot, slot ≠ .destination → ¬place setup source site slot <+: other) →
      ¬Leaf t[other]? → t'[other]? = t[other]?) : Leads setup source site t' := by
  have hdirectory := h.directory
  unfold leadsToDirectory at hdirectory
  cases hfound : resolve t setup.destination with
  | none =>
    rw [hfound] at hdirectory
    cases hdirectory
  | some found =>
    rw [hfound] at hdirectory
    obtain ⟨w, hnode⟩ := isDirectory_iff.mp hdirectory
    have hentry : entry t setup.destination "" = some (found ++ [""], w) :=
      entry_eq_some.mpr ⟨_, hfound, hnode, rfl⟩
    obtain ⟨hentry', hroute⟩ := entry_of_route hentry fun other hother hleaf =>
      hsame other (h.clear other hother) hleaf
    obtain ⟨parent, hparent, hparentNode, -⟩ := entry_eq_some.mp hentry'
    refine ⟨?_, hroute ▸ h.clear⟩
    rw [leadsToDirectory, hparent]
    exact isDirectory_iff.mpr ⟨w, hparentNode⟩

theorem Leads.grows (hgrows : Grows t t') : Leads setup source site t' := by
  refine h.of_same fun other _ hleaf => ?_
  cases hnode : t[other]? with
  | none =>
    rw [hnode] at hleaf
    exact absurd trivial hleaf
  | some node => exact hgrows other node hnode

theorem Leads.of_sameElsewhere (hsame : SameElsewhere setup source site t t')
    (hdestination : slotsOf setup source site t' .destination =
      slotsOf setup source site t .destination) : Leads setup source site t' := by
  refine h.of_same fun other hother _ => ?_
  by_cases hbelow : place setup source site .destination <+: other
  · obtain ⟨names, rfl⟩ := hbelow
    exact congrFun hdestination names
  · refine hsame other fun slot => ?_
    by_cases hslot : slot = .destination
    · rw [hslot]
      exact hbelow
    · exact hother slot hslot

theorem Leads.pathExists : pathExists t setup.destination = true := by
  have hdirectory := h.directory
  unfold leadsToDirectory at hdirectory
  unfold FileTree.pathExists
  cases hfound : resolve t setup.destination with
  | none =>
    rw [hfound] at hdirectory
    cases hdirectory
  | some found =>
    rw [hfound] at hdirectory
    obtain ⟨w, hnode⟩ := isDirectory_iff.mp hdirectory
    rw [Option.any_some, hnode]
    rfl

end

variable (setup source site) in
structure Going (b : Before α) (s : State α) (x : Slots α) : Prop where
  sim : Sim setup source site s.stage s.tree x
  smooth : Smooth b s.stage x
  leads : IsLink b.destination → s.stage.seeks = true → Leads setup source site s.tree

variable {b : Before α} {s s' : State α} {x : Slots α}

theorem Going.leads_step (h : Going setup source site b s x) {x' : Slots α}
    (hmoves : Moves setup source .ok s.stage x s'.stage x')
    (hsim : Sim setup source site s'.stage s'.tree x') (hsmooth : Smooth b s'.stage x')
    (hstep : State.step setup source s .ok = some s') (hlink : IsLink b.destination)
    (hstage : s'.stage.seeks = true) : Leads setup source site s'.tree := by
  have hleads := h.leads hlink (hmoves.seeks hstage)
  have hbefore := h.smooth.destination (hmoves.seeks hstage)
  have hafter := (hsim.imageAt .destination).trans (hsmooth.destination hstage)
  obtain ⟨t, stage⟩ := s
  cases h.sim with
  | begun hready =>
    cases hstep
    exact hleads
  | @runtime _ made path rest hready =>
    cases hstep
    exact hleads.grows (makeDirectories_grows path)
  | unmade hready hparent hunmade =>
    -- nothing is at the destination, and so no link
    have hnothing : Image.nothing = b.destination :=
      (imageAt_of_none (entry_of_not_leads hunmade _)).symm.trans
        ((hready.same .destination).trans hbefore)
    obtain ⟨absolute, target, hroot⟩ := hlink
    rw [← hnothing] at hroot
    cases hroot
  | there hways hearly =>
    have hstepped := hways.step hearly hstep
    refine hleads.of_sameElsewhere hstepped.same ?_
    rw [← hstepped.ways.imageAt, hbefore]
    exact hafter
  | failed hfailed => cases hstep

theorem Going.found (h : Going setup source site b s x)
    (hstep : State.step setup source s .ok = some s') (hstage : s.stage = .findDestination)
    (hlink : IsLink b.destination) : s'.stage = .backUp := by
  have hexists := (h.leads hlink (by rw [hstage]; rfl)).pathExists
  obtain ⟨t, stage⟩ := s
  cases hstage
  cases hstep
  dsimp only
  rw [if_pos]
  exact hexists

theorem Going.step (hcomplete : b.source.Complete setup.isDisk)
    (hvolume : source.crossVolume = false) (hparent : setup.parent ≠ none)
    (h : Going setup source site b s x) (hstep : State.step setup source s .ok = some s') :
    ∃ x', Going setup source site b s' x' := by
  obtain ⟨x', hmoves, hsim⟩ := h.sim.step hstep
  have hsmooth := h.smooth.step hcomplete hvolume hparent (h.found hstep) hmoves
  exact ⟨x', hsim, hsmooth, h.leads_step hmoves hsim hsmooth hstep⟩

theorem Going.exec (hcomplete : b.source.Complete setup.isDisk)
    (hvolume : source.crossVolume = false) (hparent : setup.parent ≠ none) {n : Nat}
    {last : State α} (h : Going setup source site b s x)
    (hrun : exec (State.step setup source) s (List.replicate n .ok) = some last) :
    ∃ x', Going setup source site b last x' := by
  have hkeep : ∀ (s : State α) (outcome : Outcome α) (s' : State α),
      (∃ x, Going setup source site b s x) → outcome = .ok →
        State.step setup source s outcome = some s' → ∃ x, Going setup source site b s' x := by
    rintro s outcome s' ⟨x, h⟩ rfl hstep
    exact h.step hcomplete hvolume hparent hstep
  exact exec_guarded_invariant hkeep _ ⟨x, h⟩
    (meets_of_forall (fun outcome hmem _ => List.eq_of_mem_replicate hmem) s) hrun

end Leads

section Runs

variable {α : Type} (setup : Setup α) (source : Source) (site : Site) (t : Tree α)

variable {setup source site t}

end Runs

namespace Sample

end Sample

end ImageReplacement
end MacMu
