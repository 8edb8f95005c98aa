import MacMu.Core.ReplacementSimulation

/-!
A call from its beginning on. The runtime directories and the directories of the
system path may have to be made first, and the paths may lead to the places only
then. What is asked of the tree at the beginning is that all of them can be made and
that making them puts nothing at the places; so the images there are the same before
and after, and also where a directory could not be made.
-/

namespace MacMu
namespace ImageReplacement

open FileTree SystemImage

section Images

variable {α : Type} {t t' : Tree α} {dir : List String} {name : String}

def imageAt (t : Tree α) (dir : List String) (name : String) : Image α :=
  match entry t dir name with
  | some (found, _) => subtree t found
  | none => Image.nothing

theorem imageAt_of_entry {found : Location} {w : Bool} (h : entry t dir name = some (found, w)) :
    imageAt t dir name = subtree t found := by
  simp only [imageAt, h]

theorem imageAt_of_none (h : entry t dir name = none) : imageAt t dir name = Image.nothing := by
  simp only [imageAt, h]

theorem imageAt_grows (h : Grows t t') {names : Location} {node : Node α}
    (hnode : imageAt t dir name names = some node) : imageAt t' dir name names = some node := by
  cases hentry : entry t dir name with
  | none =>
    rw [imageAt_of_none hentry] at hnode
    cases hnode
  | some entered =>
    obtain ⟨found, w⟩ := entered
    rw [imageAt_of_entry hentry] at hnode
    rw [imageAt_of_entry (h.pruned.entry hentry)]
    exact h _ _ hnode

theorem imageAt_between {made : Tree α} (h : Grows t t') (h' : Grows t' made)
    (hsame : imageAt t dir name = imageAt made dir name) :
    imageAt t' dir name = imageAt made dir name := by
  funext names
  cases hnode : imageAt t dir name names with
  | some node =>
    rw [imageAt_grows h hnode, ← hsame, hnode]
  | none =>
    rw [hsame] at hnode
    cases hnode' : imageAt t' dir name names with
    | none => exact hnode.symm
    | some node => cases hnode.symm.trans (imageAt_grows h' hnode')

theorem imageExistsAt_of_imageAt {setup : Setup α} (hproper : Proper name)
    (h : (imageAt t dir name).Complete setup.isDisk) :
    setup.imageExistsAt t (dir ++ [name]) = true := by
  cases hentry : entry t dir name with
  | none =>
    rw [imageAt_of_none hentry] at h
    exact (h.present rfl).elim
  | some entered =>
    obtain ⟨found, w⟩ := entered
    rw [imageAt_of_entry hentry] at h
    exact imageExistsAt_of_complete hproper hentry h

theorem makeOrFail_fault {path : List String} {others : List (List String)} {made : Tree α}
    (h : makeAll t (path :: others) = (true, made)) (residue : Residue α) :
    Grows t (makeOrFail t path (.fault residue)).2 ∧
      Grows (makeOrFail t path (.fault residue)).2 made := by
  obtain ⟨next, hnext, hrest⟩ := makeAll_cons h
  have hmade : Grows next made := by
    have hgrows := makeAll_grows (t := next) others
    rw [hrest] at hgrows
    exact hgrows
  rw [makeDirectories] at hnext
  simp only [makeOrFail]
  split
  · rename_i hleads
    rw [if_pos hleads] at hnext
    cases hnext
    exact ⟨Grows.refl t, hmade⟩
  · rename_i hleads
    rw [if_neg hleads, ← List.take_append_drop residue.made path] at hnext
    obtain ⟨halfway, hhalfway, hdrop⟩ := makeMissing_append hnext
    refine ⟨makeMissing_grows [] _, ?_⟩
    have hgrows := makeMissing_grows (t := halfway) ([] ++ path.take residue.made)
      (path.drop residue.made)
    rw [hdrop] at hgrows
    rw [hhalfway]
    exact hgrows.trans hmade

end Images

section Calls

variable {α : Type} (setup : Setup α) (source : Source) (site : Site)

/-- The directories in `rest` and those of the system path can be made. In the tree
`made`, which has them, the paths lead to the places; the images are as before. -/
structure Ready (rest : List (List String)) (t made : Tree α) : Prop where
  makes : makeAll t (rest ++ setup.parent.toList) = (true, made)
  ways : Ways setup source site made
  same : ∀ slot, imageAt t (pathDir setup source slot) (pathName setup source slot) =
    slotsOf setup source site made slot

inductive Sim : Stage → Tree α → Slots α → Prop where
  | begun {t made} (h : Ready setup source site setup.runtimeDirectories t made) :
      Sim .checkSource t (slotsOf setup source site made)
  | runtime {t made path rest} (h : Ready setup source site (path :: rest) t made) :
      Sim (.makeRuntime path rest) t (slotsOf setup source site made)
  | unmade {stage t made} (h : Ready setup source site [] t made)
      (hparent : setup.parent = some setup.dir) (hleads : leadsToDirectory t setup.dir = false)
      (hstage : stage = .removeImporting ∨ stage = .removePrevious ∨ stage = .makeParent) :
      Sim stage t (slotsOf setup source site made)
  | there {stage t} (h : Ways setup source site t) (hstage : stage.early = false) :
      Sim stage t (slotsOf setup source site t)
  | failed {t x}
      (h : ∀ slot, imageAt t (pathDir setup source slot) (pathName setup source slot) = x slot) :
      Sim (.returned false) t x

variable {setup source site} {t made : Tree α} {x : Slots α} {stage : Stage}
  {outcome : Outcome α} {s' : State α} {path : List String} {rest : List (List String)}

theorem Ways.imageAt (h : Ways setup source site t) (slot : Slot) :
    imageAt t (pathDir setup source slot) (pathName setup source slot) =
      slotsOf setup source site t slot := by
  obtain ⟨w, hentry⟩ := h.entry slot
  exact imageAt_of_entry hentry

theorem Ready.between (h : Ready setup source site rest t made) {t' : Tree α}
    (hgrows : Grows t t') (hgrows' : Grows t' made) (slot : Slot) :
    imageAt t' (pathDir setup source slot) (pathName setup source slot) =
      slotsOf setup source site made slot := by
  rw [← h.ways.imageAt slot]
  exact imageAt_between hgrows hgrows' ((h.same slot).trans (h.ways.imageAt slot).symm)

theorem Ready.next (h : Ready setup source site (path :: rest) t made) : ∃ t',
    makeDirectories t path = (true, t') ∧ Ready setup source site rest t' made := by
  obtain ⟨t', hmade, hmakes : makeAll t' (rest ++ setup.parent.toList) = (true, made)⟩ :=
    makeAll_cons h.makes
  have hgrows := makeDirectories_grows (t := t) path
  have hgrows' := makeAll_grows (t := t') (rest ++ setup.parent.toList)
  rw [hmade] at hgrows
  rw [hmakes] at hgrows'
  exact ⟨t', hmade, hmakes, h.ways, h.between hgrows hgrows'⟩

theorem Ready.failed (h : Ready setup source site rest t made) {others : List (List String)}
    (hpaths : rest ++ setup.parent.toList = path :: others) (residue : Residue α) :
    Sim setup source site (.returned false) (makeOrFail t path (.fault residue)).2
      (slotsOf setup source site made) := by
  obtain ⟨hgrows, hgrows'⟩ := makeOrFail_fault (hpaths ▸ h.makes) residue
  exact .failed (h.between hgrows hgrows')

theorem Sim.imageAt (h : Sim setup source site stage t x) (slot : Slot) :
    imageAt t (pathDir setup source slot) (pathName setup source slot) = x slot := by
  cases h with
  | begun h | runtime h | unmade h => exact h.same slot
  | there h => exact h.imageAt slot
  | failed h => exact h slot

theorem sim_afterRuntime (h : Ready setup source site rest t made) :
    Sim setup source site (afterRuntime rest) t (slotsOf setup source site made) := by
  cases rest with
  | cons path rest => exact .runtime h
  | nil =>
    have hmakes := h.makes
    cases hparent : setup.parent with
    | none =>
      rw [hparent] at hmakes
      cases hmakes
      exact .there h.ways rfl
    | some parent =>
      have hdir : parent = setup.dir := by
        rw [setup.parent_eq] at hparent
        split at hparent
        · exact (Option.some.inj hparent).symm
        · cases hparent
      subst hdir
      cases hleads : leadsToDirectory t setup.dir with
      | false => exact .unmade h hparent hleads (.inl rfl)
      | true =>
        rw [hparent, makeAll_of_leads (by simpa using hleads)] at hmakes
        cases hmakes
        exact .there h.ways rfl

theorem pathDir_of_ne {slot : Slot} (h : slot ≠ .source) :
    pathDir setup source slot = setup.dir := by
  cases slot with
  | source => exact absurd rfl h
  | destination | importing | previous => rfl

theorem Ready.removePath (h : Ready setup source site [] t made)
    (hleads : leadsToDirectory t setup.dir = false) (slot : Slot) (hslot : slot ≠ .source)
    (outcome : Outcome α) :
    removePath t (pathTo setup source slot) outcome = t ∧
      (slotsOf setup source site made).remove slot outcome = slotsOf setup source site made := by
  have hentry : FileTree.entry t (pathDir setup source slot) (pathName setup source slot) = none := by
    rw [pathDir_of_ne hslot]
    exact entry_of_not_leads hleads _
  refine ⟨?_, ?_⟩
  · simp only [ImageReplacement.removePath, pathTo, List.getLast?_concat, List.dropLast_concat,
      removeAll, hentry]
  · have hnothing := h.same slot
    rw [imageAt_of_none hentry] at hnothing
    rw [Slots.remove, ← hnothing, Image.survivors_nothing, hnothing, Function.update_eq_self]

/-- A step while the directories of the system path are not made. -/
theorem Ready.step (h : Ready setup source site [] t made)
    (hparent : setup.parent = some setup.dir) (hleads : leadsToDirectory t setup.dir = false)
    (hstage : stage = .removeImporting ∨ stage = .removePrevious ∨ stage = .makeParent)
    (hstep : State.step setup source ⟨t, stage⟩ outcome = some s') : ∃ x',
      Moves setup source outcome stage (slotsOf setup source site made) s'.stage x' ∧
        Sim setup source site s'.stage s'.tree x' := by
  obtain ⟨-, -, himporting, hprevious⟩ := pathTo_eq setup source
  rcases hstage with rfl | rfl | rfl
  · cases hstep
    obtain ⟨hpath, hremove⟩ := h.removePath hleads .importing (by decide) outcome
    have hmoves : Moves setup source outcome .removeImporting (slotsOf setup source site made)
        .removePrevious ((slotsOf setup source site made).remove .importing outcome) :=
      .removeImporting
    rw [hremove] at hmoves
    rw [himporting, hpath]
    exact ⟨_, hmoves, .unmade h hparent hleads (.inr (.inl rfl))⟩
  · cases hstep
    obtain ⟨hpath, hremove⟩ := h.removePath hleads .previous (by decide) outcome
    have hmoves : Moves setup source outcome .removePrevious (slotsOf setup source site made)
        .makeParent ((slotsOf setup source site made).remove .previous outcome) :=
      .removePrevious
    rw [hremove] at hmoves
    rw [hprevious, hpath]
    exact ⟨_, hmoves, .unmade h hparent hleads (.inr (.inr rfl))⟩
  · simp only [State.step, hparent] at hstep
    cases outcome with
    | ok =>
      have hmakes := h.makes
      rw [hparent] at hmakes
      obtain ⟨next, hnext, hrest⟩ := makeAll_cons hmakes
      cases hrest
      simp only [makeOrFail, hnext] at hstep
      cases hstep
      exact ⟨_, .makeParent true fun _ _ => rfl, .there h.ways rfl⟩
    | fault residue =>
      cases hstep
      exact ⟨_, .makeParent false nofun, h.failed (by rw [hparent]; rfl) residue⟩

theorem Sim.step (h : Sim setup source site stage t x)
    (hstep : State.step setup source ⟨t, stage⟩ outcome = some s') : ∃ x',
      Moves setup source outcome stage x s'.stage x' ∧ Sim setup source site s'.stage s'.tree x' := by
  cases h with
  | begun h =>
    cases hstep
    refine ⟨_, .checkSource _ fun hok hcomplete => ?_, ?_⟩
    · rw [hok, Bool.true_and]
      rw [← h.same .source] at hcomplete
      exact imageExistsAt_of_imageAt h.ways.properSource hcomplete
    · dsimp only
      split
      · exact sim_afterRuntime h
      · exact .failed h.same
  | runtime h =>
    cases outcome with
    | ok =>
      obtain ⟨next, hnext, hready⟩ := h.next
      simp only [State.step, makeOrFail, hnext] at hstep
      cases hstep
      exact ⟨_, .makeRuntime, sim_afterRuntime hready⟩
    | fault residue =>
      cases hstep
      exact ⟨_, .makeRuntime, h.failed rfl residue⟩
  | unmade h hparent hleads hstage => exact h.step hparent hleads hstage hstep
  | there h hstage =>
    have hstepped := h.step hstage hstep
    exact ⟨_, hstepped.moves, .there hstepped.ways (hstepped.moves.early hstage)⟩
  | failed h => cases hstep

end Calls

namespace Sample

def setup : Setup Unit := ⟨fun _ => true, [], [["data"]], "/img/sys"⟩

def directories (places : List Location) : List (Location × Node Unit) :=
  places.map fun found => (found, .directory true)

def image (found : Location) : List (Location × Node Unit) :=
  directories [found] ++
    (kMetadataDisk :: kRequiredFiles).map fun file => (found ++ [file], .file () true)

/-- A complete image in `/src`, and one more file in what is at the system path. -/
def entries : List (Location × Node Unit) :=
  directories [[], ["data"], ["img"]] ++ image ["src"] ++ image ["img", "sys"] ++
    [(["img", "sys", "old"], .file () true)]

def tree : Tree Unit := .ofList entries

def source : Source := ⟨[], "src", false⟩

def site : Site := ⟨["img"], []⟩

theorem ways : Ways setup source site tree where
  proper := by decide
  properSource := by decide
  dir := ⟨true, by decide +kernel⟩
  sourceDir := ⟨true, by decide +kernel⟩
  clear := by
    intro other hother slot
    cases slot <;> revert other <;> decide +kernel
  apart := by
    intro slot hslot
    cases slot with
    | source => exact absurd rfl hslot
    | destination | importing | previous => decide

theorem complete_of_files {image : Image Unit} (hroot : image [] = some (.directory true))
    (hfiles : ∀ file ∈ kMetadataDisk :: kRequiredFiles, image [file] = some (.file () true)) :
    image.Complete setup.isDisk where
  directory := ⟨true, hroot⟩
  files := fun file hfile => ⟨(), true, hfiles file (List.mem_cons_of_mem _ hfile)⟩
  disk := ⟨(), true, hfiles _ List.mem_cons_self, rfl⟩

theorem complete : (imageAt tree source.dir source.name).Complete setup.isDisk :=
  complete_of_files (by decide +kernel) (by decide +kernel)

end Sample

end ImageReplacement
end MacMu
