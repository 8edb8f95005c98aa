import MacMu.Core.ReplacementPaths
import MacMu.Core.ReplacementSlots

/-!
The operations on paths do to the tree what `Moves` says of the four places, as long
as the way to the system directory and the way to the source lead through none of the
places, and the source is apart from the others.
-/

namespace MacMu
namespace ImageReplacement

open FileTree SystemImage

/-- The directories in which the destination and the source are. -/
structure Site where
  dir : Location
  sourceDir : Location

section Ways

variable {α : Type} (setup : Setup α) (source : Source) (site : Site)

def place : Slot → Location
  | .source => site.sourceDir ++ [source.name]
  | .destination => site.dir ++ [setup.name]
  | .importing => site.dir ++ [setup.name ++ ".importing"]
  | .previous => site.dir ++ [setup.name ++ ".previous"]

def slotsOf (t : Tree α) : Slots α := fun slot => subtree t (place setup source site slot)

structure Ways (t : Tree α) : Prop where
  proper : Proper setup.name
  properSource : Proper source.name
  dir : ∃ writable, resolve t setup.dir = some site.dir ∧
    t[site.dir]? = some (.directory writable)
  sourceDir : ∃ writable, resolve t source.dir = some site.sourceDir ∧
    t[site.sourceDir]? = some (.directory writable)
  clear : ∀ other ∈ route t setup.dir ++ route t source.dir, ∀ slot,
    ¬place setup source site slot <+: other
  apart : ∀ slot, slot ≠ .source →
    Apart (place setup source site .source) (place setup source site slot)

end Ways

section Places

variable {α : Type} {setup : Setup α} {source : Source} {site : Site} {t t' : Tree α}

def SameElsewhere (setup : Setup α) (source : Source) (site : Site) (t t' : Tree α) : Prop :=
  ∀ other, (∀ slot, ¬place setup source site slot <+: other) → t'[other]? = t[other]?

theorem Ways.of_sameElsewhere (h : Ways setup source site t)
    (hsame : SameElsewhere setup source site t t') : Ways setup source site t' := by
  obtain ⟨w, hdir, hnode⟩ := h.dir
  obtain ⟨w', hsource, hsourceNode⟩ := h.sourceDir
  have hentry : entry t setup.dir "" = some (site.dir ++ [""], w) :=
    entry_eq_some.mpr ⟨_, hdir, hnode, rfl⟩
  have hsourceEntry : entry t source.dir "" = some (site.sourceDir ++ [""], w') :=
    entry_eq_some.mpr ⟨_, hsource, hsourceNode, rfl⟩
  obtain ⟨hentry', hroute⟩ := entry_of_route hentry fun other hother _ =>
    hsame other fun slot => h.clear other (List.mem_append_left _ hother) slot
  obtain ⟨hsourceEntry', hsourceRoute⟩ := entry_of_route hsourceEntry fun other hother _ =>
    hsame other fun slot => h.clear other (List.mem_append_right _ hother) slot
  obtain ⟨parent, hparent, hparentNode, hplace⟩ := entry_eq_some.mp hentry'
  obtain ⟨parent', hparent', hparentNode', hplace'⟩ := entry_eq_some.mp hsourceEntry'
  cases List.append_cancel_right hplace
  cases List.append_cancel_right hplace'
  refine ⟨h.proper, h.properSource, ⟨w, hparent, hparentNode⟩, ⟨w', hparent', hparentNode'⟩, ?_,
    h.apart⟩
  rw [hroute, hsourceRoute]
  exact h.clear

theorem Ways.apart_of_ne (h : Ways setup source site t) {slot other : Slot} (hne : slot ≠ other) :
    Apart (place setup source site slot) (place setup source site other) := by
  have hlong : (0 : Nat) < ".importing".length ∧ (0 : Nat) < ".previous".length := by decide
  have hdiffer : (".importing" : String) ≠ ".previous" := by decide
  cases slot with
  | source => exact h.apart other hne.symm
  | destination =>
    cases other with
    | source => exact (h.apart _ hne).symm
    | destination => exact absurd rfl hne
    | importing => exact apart_of_names _ (name_ne_append hlong.1)
    | previous => exact apart_of_names _ (name_ne_append hlong.2)
  | importing =>
    cases other with
    | source => exact (h.apart _ hne).symm
    | destination => exact apart_of_names _ (name_ne_append hlong.1).symm
    | importing => exact absurd rfl hne
    | previous => exact apart_of_names _ (append_ne_append hdiffer)
  | previous =>
    cases other with
    | source => exact (h.apart _ hne).symm
    | destination => exact apart_of_names _ (name_ne_append hlong.2).symm
    | importing => exact apart_of_names _ (append_ne_append hdiffer.symm)
    | previous => exact absurd rfl hne

def pathDir (setup : Setup α) (source : Source) : Slot → List String
  | .source => source.dir
  | _ => setup.dir

def pathName (setup : Setup α) (source : Source) : Slot → String
  | .source => source.name
  | .destination => setup.name
  | .importing => setup.name ++ ".importing"
  | .previous => setup.name ++ ".previous"

def pathTo (setup : Setup α) (source : Source) (slot : Slot) : List String :=
  pathDir setup source slot ++ [pathName setup source slot]

theorem Ways.proper_pathName (h : Ways setup source site t) (slot : Slot) :
    Proper (pathName setup source slot) := by
  cases slot with
  | source => exact h.properSource
  | destination => exact h.proper
  | importing | previous => exact proper_append (by decide)

theorem Ways.entry (h : Ways setup source site t) (slot : Slot) : ∃ writable,
    entry t (pathDir setup source slot) (pathName setup source slot) =
      some (place setup source site slot, writable) := by
  cases slot with
  | source =>
    obtain ⟨w, hdir, hnode⟩ := h.sourceDir
    exact ⟨w, entry_eq_some.mpr ⟨_, hdir, hnode, rfl⟩⟩
  | destination | importing | previous =>
    obtain ⟨w, hdir, hnode⟩ := h.dir
    exact ⟨w, entry_eq_some.mpr ⟨_, hdir, hnode, rfl⟩⟩

theorem Ways.operand (h : Ways setup source site t) (slot : Slot) :
    operand t (pathTo setup source slot) = some (place setup source site slot) := by
  obtain ⟨w, hentry⟩ := h.entry slot
  rw [pathTo, operand_snoc (h.proper_pathName slot), hentry]
  rfl

theorem pathTo_eq (setup : Setup α) (source : Source) :
    source.path = pathTo setup source .source ∧ setup.destination = pathTo setup source .destination ∧
      setup.importing = pathTo setup source .importing ∧
      setup.previous = pathTo setup source .previous :=
  ⟨rfl, setup.paths⟩

theorem slotsOf_nil (slot : Slot) :
    slotsOf setup source site t slot [] = t[place setup source site slot]? := by
  rw [slotsOf, subtree, List.append_nil]

end Places

section Operations

variable {α : Type} {setup : Setup α} {source : Source} {site : Site} {t t' : Tree α}

/-- The tree has changed to given images at the places, and nowhere else. -/
structure Reaches (setup : Setup α) (source : Source) (site : Site) (t t' : Tree α)
    (x : Slots α) : Prop where
  same : SameElsewhere setup source site t t'
  slots : slotsOf setup source site t' = x

theorem Reaches.refl (t : Tree α) : Reaches setup source site t t (slotsOf setup source site t) :=
  ⟨fun _ _ => rfl, rfl⟩

theorem Ways.removePath (h : Ways setup source site t) (slot : Slot) (outcome : Outcome α) :
    Reaches setup source site t (removePath t (pathTo setup source slot) outcome)
      ((slotsOf setup source site t).remove slot outcome) := by
  obtain ⟨w, hentry⟩ := h.entry slot
  have hremove : ImageReplacement.removePath t (pathTo setup source slot) outcome =
      removeTree t (place setup source site slot)
        (outcome.left.map (place setup source site slot ++ ·)) := by
    simp only [ImageReplacement.removePath, pathTo, List.getLast?_concat, List.dropLast_concat,
      removeAll, hentry]
  rw [hremove]
  constructor
  · intro other hother
    rw [get_removeTree, if_neg fun hgone => hother slot hgone.1]
  · funext other
    by_cases heq : other = slot
    · subst heq
      rw [Slots.remove_self, slotsOf, subtree_removeTree_self]
      funext names
      exact if_congr Iff.rfl rfl rfl
    · rw [Slots.remove_of_ne _ _ heq, slotsOf,
        subtree_removeTree_apart _ (h.apart_of_ne fun hslot => heq hslot.symm)]
      rfl

theorem fits_iff {a b : Location} : fits t a b = true ↔ Image.Fits (subtree t a) (subtree t b) := by
  have hroot : ∀ place, subtree t place [] = t[place]? := fun place => by
    rw [subtree, List.append_nil]
  unfold fits Image.Fits
  rw [hroot, hroot]
  cases t[a]? with
  | none => simp
  | some node =>
    cases t[b]? with
    | none => cases node <;> simp
    | some target =>
      cases node with
      | directory w =>
        cases target with
        | directory w' => simp only [Bool.not_eq_true', hasEntries_eq_false]
        | file | link => simp
      | file | link => cases target <;> simp

theorem Ways.rename (h : Ways setup source site t) {old new : Slot} (hne : old ≠ new)
    (crossVolume : Bool) :
    rename t (pathTo setup source old) (pathTo setup source new) crossVolume =
      if t[place setup source site old]?.isNone then .failed
      else if crossVolume then .crossDevice
      else if fits t (place setup source site old) (place setup source site new) then
        .done (moveTree t (place setup source site old) (place setup source site new))
      else .failed := by
  have hapart := h.apart_of_ne hne
  have hdiffer : place setup source site old ≠ place setup source site new := by
    intro heq
    exact hapart.1 (heq ▸ List.prefix_refl _)
  have hnested : ¬((place setup source site old).isPrefixOf (place setup source site new) ||
      (place setup source site new).isPrefixOf (place setup source site old)) = true := by
    simp only [Bool.or_eq_true, List.isPrefixOf_iff_prefix, not_or]
    exact hapart
  simp only [FileTree.rename, h.operand, if_neg hdiffer, if_neg hnested]

theorem Ways.moveTree (h : Ways setup source site t) {old new : Slot} (hne : old ≠ new) :
    Reaches setup source site t
      (moveTree t (place setup source site old) (place setup source site new))
      ((slotsOf setup source site t).rename old new) := by
  constructor
  · intro other hother
    rw [get_moveTree, if_neg (hother new), if_neg (hother old)]
  · funext slot
    by_cases hnew : slot = new
    · subst hnew
      rw [Slots.rename_new, slotsOf, subtree_moveTree_target]
      rfl
    · by_cases hold : slot = old
      · subst hold
        rw [Slots.rename_old _ hne, slotsOf, subtree_moveTree_source _ (h.apart_of_ne hne)]
        rfl
      · rw [Slots.rename_of_ne _ hold hnew, slotsOf,
          subtree_moveTree_apart _ (h.apart_of_ne (Ne.symm hold)) (h.apart_of_ne (Ne.symm hnew))]
        rfl

theorem imageExistsAt_of_complete {dir : List String} {name : String} {found : Location} {w : Bool}
    (hproper : Proper name) (hentry : entry t dir name = some (found, w))
    (hcomplete : Image.Complete setup.isDisk (subtree t found)) :
    setup.imageExistsAt t (dir ++ [name]) = true := by
  obtain ⟨w', hroot⟩ := hcomplete.directory
  rw [subtree, List.append_nil] at hroot
  have hread : ∀ file content mode, subtree t found [file] = some (.file content mode) →
      readFile t (dir ++ [name]) file = some content := fun file content mode hnode =>
    readFile_snoc hproper hentry hroot hnode
  obtain ⟨content, mode, hdisk, hisDisk⟩ := hcomplete.disk
  refine Bool.and_eq_true_iff.mpr ⟨List.all_eq_true.mpr fun file hfile => ?_, ?_⟩
  · obtain ⟨content, mode, hnode⟩ := hcomplete.files file hfile
    rw [hread file content mode hnode]
    rfl
  · rw [hread _ content mode hdisk]
    exact hisDisk

section

variable (h : Ways setup source site t)
include h

theorem Ways.imageExistsAt (slot : Slot)
    (hcomplete : (slotsOf setup source site t slot).Complete setup.isDisk) :
    setup.imageExistsAt t (pathTo setup source slot) = true := by
  obtain ⟨w, hentry⟩ := h.entry slot
  exact imageExistsAt_of_complete (h.proper_pathName slot) hentry hcomplete

theorem Ways.looked (slot : Slot) (outcome : Outcome α) :
    Looked (slotsOf setup source site t slot) outcome
      (outcome.isOk && pathExists t (pathTo setup source slot)) := by
  obtain ⟨w, hentry⟩ := h.entry slot
  have hexists := pathExists_snoc (h.proper_pathName slot) hentry
  unfold Looked
  rw [slotsOf_nil]
  cases outcome with
  | fault residue => rfl
  | ok =>
    cases hnode : t[place setup source site slot]? with
    | none =>
      rw [hnode] at hexists
      exact hexists nofun
    | some node =>
      rw [hnode] at hexists
      cases node with
      | directory w | file content w => exact hexists nofun
      | link absolute target => trivial

theorem Ways.graft (slot : Slot) (entries : List (Location × Node α)) :
    Reaches setup source site t (graft t (place setup source site slot) entries)
      (Function.update (slotsOf setup source site t) slot
        (subtree (graft t (place setup source site slot) entries)
          (place setup source site slot))) := by
  constructor
  · intro other hother
    exact get_graft_of_forall t fun e _ heq => hother slot ⟨e.1, heq⟩
  · funext other
    by_cases heq : other = slot
    · subst heq
      rw [Function.update_self]
      rfl
    · rw [Function.update_of_ne heq, slotsOf,
        subtree_graft_apart _ (h.apart_of_ne fun hslot => heq hslot.symm)]
      rfl

theorem Ways.copyTree {copied : Tree α}
    (hcopy : copyTree t (pathTo setup source .source) (pathTo setup source .importing) =
      some copied) :
    Reaches setup source site t copied (Function.update (slotsOf setup source site t) .importing
        ((slotsOf setup source site t .source).merge (slotsOf setup source site t .importing))) := by
  simp only [FileTree.copyTree, h.operand] at hcopy
  split at hcopy <;> cases hcopy
  have hreaches := h.graft .importing (entriesUnder t (place setup source site .source))
  rw [subtree_graft_entriesUnder] at hreaches
  exact hreaches

end

theorem makeOrFail_of_leads {path : List String} (h : leadsToDirectory t path = true)
    (outcome : Outcome α) : makeOrFail t path outcome = (outcome.isOk, t) := by
  cases outcome with
  | ok => exact if_pos h
  | fault residue => exact congrArg (Prod.mk false) (if_pos h)

theorem Ways.leads (h : Ways setup source site t) : leadsToDirectory t setup.dir = true := by
  obtain ⟨w, hdir, hnode⟩ := h.dir
  rw [leadsToDirectory, hdir]
  exact isDirectory_iff.mpr ⟨w, hnode⟩

theorem Ways.swap (h : Ways setup source site t) {old new : Slot} (hne : old ≠ new)
    (outcome : Outcome α) (stage next failed : Stage) :
    (outcome = .ok ∧
      (slotsOf setup source site t old).Fits (slotsOf setup source site t new) ∧
      State.swap ⟨t, stage⟩ (pathTo setup source old) (pathTo setup source new) outcome next failed =
        ⟨FileTree.moveTree t (place setup source site old) (place setup source site new), next⟩) ∨
    (State.swap ⟨t, stage⟩ (pathTo setup source old) (pathTo setup source new) outcome next failed =
        ⟨t, failed⟩ ∧
      (outcome.isOk = true →
        ¬(slotsOf setup source site t old).Fits (slotsOf setup source site t new))) := by
  cases outcome with
  | fault residue => exact .inr ⟨rfl, nofun⟩
  | ok =>
    by_cases hfits : fits t (place setup source site old) (place setup source site new) = true
    · have hpresent : ¬t[place setup source site old]?.isNone = true := by
        intro habsent
        rw [fits, Option.isNone_iff_eq_none.mp habsent] at hfits
        cases hfits
      refine .inl ⟨rfl, fits_iff.mp hfits, ?_⟩
      simp only [State.swap, renameOrFail, h.rename hne, if_neg hpresent,
        if_neg Bool.false_ne_true, if_pos hfits]
    · refine .inr ⟨?_, fun _ => fun hslots => hfits (fits_iff.mpr hslots)⟩
      simp only [State.swap, renameOrFail, h.rename hne, if_neg Bool.false_ne_true,
        if_neg hfits, ite_self]

end Operations

section Step

variable {α : Type} {setup : Setup α} {source : Source} {site : Site} {t : Tree α}
  {outcome : Outcome α} {s' : State α}

theorem Moves.early {stage stage' : Stage} {x x' : Slots α}
    (h : Moves setup source outcome stage x stage' x') (hstage : stage.early = false) :
    stage'.early = false := by
  cases h with
  | checkSource | makeRuntime => cases hstage
  | makeParent made | checkStaged made | findDestination made | findPrevious made =>
    cases made <;> rfl
  | _ => rfl

structure Stepped (setup : Setup α) (source : Source) (site : Site) (t : Tree α)
    (outcome : Outcome α) (stage : Stage) (s' : State α) : Prop where
  moves : Moves setup source outcome stage (slotsOf setup source site t) s'.stage
    (slotsOf setup source site s'.tree)
  ways : Ways setup source site s'.tree
  same : SameElsewhere setup source site t s'.tree

section

variable (h : Ways setup source site t)
include h

theorem Ways.stepped {stage : Stage} {x : Slots α}
    (hreaches : Reaches setup source site t s'.tree x)
    (hmoves : Moves setup source outcome stage (slotsOf setup source site t) s'.stage x) :
    Stepped setup source site t outcome stage s' :=
  ⟨hreaches.slots ▸ hmoves, h.of_sameElsewhere hreaches.same, hreaches.same⟩

theorem Ways.swapped {old new : Slot} (hne : old ≠ new) {stage next failed : Stage}
    (hdone : ∀ x : Slots α, (x old).Fits (x new) →
      Moves setup source .ok stage x next (x.rename old new))
    (hfailed : ∀ x : Slots α, (outcome.isOk = true → ¬(x old).Fits (x new)) →
      Moves setup source outcome stage x failed x) :
    Stepped setup source site t outcome stage
      (State.swap ⟨t, stage⟩ (pathTo setup source old) (pathTo setup source new) outcome next
        failed) := by
  rcases h.swap hne outcome stage next failed with ⟨rfl, hfits, heq⟩ | ⟨heq, hfits⟩
  · rw [heq]
    exact h.stepped (h.moveTree hne) (hdone _ hfits)
  · rw [heq]
    exact h.stepped (Reaches.refl t) (hfailed _ hfits)

theorem Ways.moveSource (hstep : State.step setup source ⟨t, .moveSource⟩ outcome = some s') :
    Stepped setup source site t outcome .moveSource s' := by
  have hne : Slot.source ≠ .importing := by decide
  dsimp only [State.step] at hstep
  rw [(pathTo_eq setup source).1, (pathTo_eq setup source).2.2.1] at hstep
  cases outcome with
  | fault residue =>
    cases hstep
    exact h.stepped (Reaches.refl t) (.notMoved nofun)
  | ok =>
    simp only [renameOrFail, h.rename hne] at hstep
    by_cases habsent : t[place setup source site .source]?.isNone = true
    · rw [if_pos habsent] at hstep
      cases hstep
      refine h.stepped (Reaches.refl t) (.notMoved fun _ => .inl ?_)
      rw [slotsOf_nil]
      exact Option.isNone_iff_eq_none.mp habsent
    · rw [if_neg habsent] at hstep
      cases hvolume : source.crossVolume with
      | true =>
        rw [hvolume, if_pos rfl] at hstep
        cases hstep
        exact h.stepped (Reaches.refl t) (.crossDevice hvolume)
      | false =>
        rw [hvolume, if_neg Bool.false_ne_true] at hstep
        by_cases hfits : fits t (place setup source site .source)
          (place setup source site .importing) = true
        · rw [if_pos hfits] at hstep
          cases hstep
          exact h.stepped (h.moveTree hne) (.moved hvolume (fits_iff.mp hfits))
        · rw [if_neg hfits] at hstep
          cases hstep
          exact h.stepped (Reaches.refl t)
            (.notMoved fun _ => .inr fun hslots => hfits (fits_iff.mpr hslots))

theorem Ways.copySource (hstep : State.step setup source ⟨t, .copySource⟩ outcome = some s') :
    Stepped setup source site t outcome .copySource s' := by
  dsimp only [State.step] at hstep
  rw [(pathTo_eq setup source).1, (pathTo_eq setup source).2.2.1] at hstep
  cases outcome with
  | ok =>
    cases hcopy : FileTree.copyTree t (pathTo setup source .source)
      (pathTo setup source .importing) with
    | some copied =>
      simp only [copyOrFail, hcopy] at hstep
      cases hstep
      exact h.stepped (h.copyTree hcopy) .copied
    | none =>
      simp only [copyOrFail, hcopy] at hstep
      cases hstep
      have hmoves : Moves setup source .ok .copySource (slotsOf setup source site t) .cleanCopy
          (Function.update (slotsOf setup source site t) .importing
            (slotsOf setup source site t .importing)) := .notCopied
      rw [Function.update_eq_self] at hmoves
      exact h.stepped (Reaches.refl t) hmoves
  | fault residue =>
    simp only [copyOrFail, h.operand] at hstep
    cases hstep
    exact h.stepped (h.graft .importing residue.copied) .notCopied

theorem Ways.step {stage : Stage} (hstage : stage.early = false)
    (hstep : State.step setup source ⟨t, stage⟩ outcome = some s') :
    Stepped setup source site t outcome stage s' := by
  obtain ⟨hsourcePath, hdestination, himporting, hprevious⟩ := pathTo_eq setup source
  cases stage with
  | checkSource | makeRuntime => cases hstage
  | removeImporting =>
    cases hstep
    rw [himporting]
    exact h.stepped (h.removePath .importing outcome) .removeImporting
  | removePrevious =>
    cases hstep
    rw [hprevious]
    exact h.stepped (h.removePath .previous outcome) .removePrevious
  | makeParent =>
    dsimp only [State.step] at hstep
    rw [setup.parent_eq] at hstep
    split at hstep
    · rename_i hnone
      cases hstep
      refine h.stepped (Reaches.refl t) (.makeParent false fun _ hparent => ?_)
      exact absurd (setup.parent_eq.trans hnone) hparent
    · rename_i path hsome
      split at hsome <;> cases hsome
      rw [makeOrFail_of_leads h.leads] at hstep
      cases hstep
      exact h.stepped (Reaches.refl t) (.makeParent _ fun hok _ => hok)
  | moveSource => exact h.moveSource hstep
  | copySource => exact h.copySource hstep
  | cleanCopy =>
    cases hstep
    rw [himporting]
    exact h.stepped (h.removePath .importing outcome) .cleanCopy
  | checkStaged =>
    cases hstep
    refine h.stepped (Reaches.refl t) (.checkStaged _ fun hok hcomplete => ?_)
    rw [hok, himporting, h.imageExistsAt .importing hcomplete]
    rfl
  | findDestination =>
    cases hstep
    refine h.stepped (Reaches.refl t) (.findDestination _ ?_)
    rw [hdestination]
    exact h.looked .destination outcome
  | backUp =>
    cases hstep
    rw [hdestination, hprevious]
    exact h.swapped (by decide) (fun _ => .backedUp) fun _ => .notBackedUp
  | activate =>
    cases hstep
    rw [hdestination, himporting]
    exact h.swapped (by decide) (fun _ => .activated) fun _ => .notActivated
  | findPrevious =>
    cases hstep
    refine h.stepped (Reaches.refl t) (.findPrevious _ ?_)
    rw [hprevious]
    exact h.looked .previous outcome
  | restore =>
    cases hstep
    rw [hdestination, hprevious]
    exact h.swapped (by decide) (fun _ => .restored) fun _ => .notRestored
  | dropStaged =>
    cases hstep
    rw [himporting]
    exact h.stepped (h.removePath .importing outcome) .dropStaged
  | dropPrevious =>
    cases hstep
    rw [hprevious]
    exact h.stepped (h.removePath .previous outcome) .dropPrevious
  | returned result => cases hstep

end

end Step

end ImageReplacement
end MacMu
