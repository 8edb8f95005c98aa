import MacMu.Core.ImageReplacement

/-!
The replacement seen from its four places: the source, the destination, the staged
image and the backup. What is at a place and below it is an image; an operation
changes the images of one or two places. `Moves` says what each operation can do,
with or without a fault. Paths, and the rest of the tree, do not appear here.
-/

namespace MacMu
namespace ImageReplacement

open FileTree SystemImage

inductive Slot where
  | source
  | destination
  | importing
  | previous
  deriving DecidableEq, Repr

def Stage.early : Stage → Bool
  | .checkSource | .makeRuntime .. => true
  | _ => false

section Images

variable {α : Type}

abbrev Image (α : Type) := Location → Option (Node α)

abbrev Slots (α : Type) := Slot → Image α

namespace Image

def nothing : Image α := fun _ => none

def survivors (image : Image α) (left : List Location) : Image α := fun names =>
  open Classical in if ∃ kept ∈ left, names <+: kept then image names else none

def merge (image target : Image α) : Image α := fun names => (image names).or (target names)

def Within (image target : Image α) : Prop := ∀ names, target names = none → image names = none

/-- Whether a rename can put the one in the place of the other. -/
def Fits (image target : Image α) : Prop :=
  match image [], target [] with
  | none, _ => False
  | some _, none => True
  | some (.directory _), some (.directory _) => ∀ names, names ≠ [] → target names = none
  | some (.directory _), some _ => False
  | some _, some (.directory _) => False
  | some _, some _ => True

structure Complete (isDisk : α → Bool) (image : Image α) : Prop where
  directory : ∃ writable, image [] = some (.directory writable)
  files : ∀ file ∈ kRequiredFiles, ∃ content mode, image [file] = some (.file content mode)
  disk : ∃ content mode, image [kMetadataDisk] = some (.file content mode) ∧ isDisk content = true

@[simp] theorem survivors_nil (image : Image α) : image.survivors [] = nothing := by
  funext names
  simp [survivors, nothing]

@[simp] theorem survivors_nothing (left : List Location) :
    (nothing : Image α).survivors left = nothing := by
  funext names
  simp [survivors, nothing]

theorem merge_of_within {image target : Image α} (h : target.Within image) :
    image.merge target = image := by
  funext names
  cases hnode : image names with
  | none => rw [merge, hnode, h names hnode, Option.or_none]
  | some node => rw [merge, hnode, Option.some_or]

theorem Within.survivors {image target : Image α} (h : image.Within target)
    (left : List Location) : (image.survivors left).Within target := by
  intro names hnone
  rw [Image.survivors, h names hnone, ite_self]

theorem fits_of_none {image target : Image α} (h : image [] ≠ none) (htarget : target [] = none) :
    image.Fits target := by
  unfold Fits
  rw [htarget]
  cases himage : image [] with
  | none => exact h himage
  | some node => cases node <;> trivial

variable {isDisk : α → Bool} {image target : Image α}

theorem Complete.present (h : image.Complete isDisk) : image [] ≠ none := by
  obtain ⟨writable, hroot⟩ := h.directory
  rw [hroot]
  exact Option.some_ne_none _

theorem Complete.not_fits (h : target.Complete isDisk) : ¬image.Fits target := by
  intro hfits
  obtain ⟨writable, hroot⟩ := h.directory
  obtain ⟨content, mode, hdisk, -⟩ := h.disk
  unfold Fits at hfits
  rw [hroot] at hfits
  cases himage : image [] with
  | none =>
    rw [himage] at hfits
    exact hfits
  | some node =>
    rw [himage] at hfits
    cases node with
    | directory w =>
      have hnone : target [kMetadataDisk] = none := hfits _ (List.cons_ne_nil _ _)
      cases hnone.symm.trans hdisk
    | file content w => exact hfits
    | link absolute names => exact hfits

theorem Complete.merge (h : image.Complete isDisk) : (image.merge target).Complete isDisk := by
  obtain ⟨writable, hroot⟩ := h.directory
  obtain ⟨content, mode, hdisk, hisDisk⟩ := h.disk
  refine ⟨⟨writable, ?_⟩, fun file hfile => ?_, content, mode, ?_, hisDisk⟩
  · rw [Image.merge, hroot, Option.some_or]
  · obtain ⟨content, mode, hnode⟩ := h.files file hfile
    exact ⟨content, mode, by rw [Image.merge, hnode, Option.some_or]⟩
  · rw [Image.merge, hdisk, Option.some_or]

end Image

/-- The image that is there before the call, and the one of the source. -/
structure Before (α : Type) where
  destination : Image α
  source : Image α

def Slots.rename (x : Slots α) (old new : Slot) : Slots α :=
  Function.update (Function.update x old Image.nothing) new (x old)

def Slots.remove (x : Slots α) (slot : Slot) (outcome : Outcome α) : Slots α :=
  Function.update x slot ((x slot).survivors outcome.left)

section Update

variable (x : Slots α) {slot other old new : Slot}

theorem Slots.remove_self (outcome : Outcome α) :
    x.remove slot outcome slot = (x slot).survivors outcome.left :=
  Function.update_self ..

theorem Slots.remove_of_ne (outcome : Outcome α) (h : other ≠ slot) :
    x.remove slot outcome other = x other :=
  Function.update_of_ne h ..

theorem Slots.rename_new : x.rename old new new = x old := Function.update_self ..

theorem Slots.rename_old (h : old ≠ new) : x.rename old new old = Image.nothing := by
  rw [rename, Function.update_of_ne h, Function.update_self]

theorem Slots.rename_of_ne (h : other ≠ old) (h' : other ≠ new) :
    x.rename old new other = x other := by
  rw [rename, Function.update_of_ne h', Function.update_of_ne h]

end Update

/-- What a look at an entry that is no link says, unless it fails. -/
def Looked (image : Image α) (outcome : Outcome α) (found : Bool) : Prop :=
  match outcome, image [] with
  | .fault _, _ => found = false
  | .ok, none => found = false
  | .ok, some (.link ..) => True
  | .ok, some _ => found = true

theorem looked_ok {image : Image α} (hnode : ∀ absolute target,
    image [] ≠ some (.link absolute target)) {found : Bool} (h : Looked image .ok found) :
    found = true ↔ image [] ≠ none := by
  unfold Looked at h
  cases hroot : image [] with
  | none =>
    rw [hroot] at h
    simp [show found = false from h]
  | some node =>
    rw [hroot] at h
    cases node with
    | directory w | file content w => simp [show found = true from h]
    | link absolute target => exact (hnode absolute target hroot).elim

theorem looked_fault {image : Image α} {residue : Residue α} {found : Bool}
    (h : Looked image (.fault residue) found) : found = false := h

variable (setup : Setup α) (source : Source)

/-- One operation. A check of an image may say anything unless the image is complete,
since its files may be links. -/
inductive Moves : Outcome α → Stage → Slots α → Stage → Slots α → Prop where
  | checkSource {outcome x} (passed : Bool)
      (h : outcome.isOk = true → (x .source).Complete setup.isDisk → passed = true) :
      Moves outcome .checkSource x
        (if passed then afterRuntime setup.runtimeDirectories else .returned false) x
  | makeRuntime {outcome x path rest} :
      Moves outcome (.makeRuntime path rest) x
        (if outcome.isOk then afterRuntime rest else .returned false) x
  | removeImporting {outcome x} :
      Moves outcome .removeImporting x .removePrevious (x.remove .importing outcome)
  | removePrevious {outcome x} :
      Moves outcome .removePrevious x .makeParent (x.remove .previous outcome)
  | makeParent {outcome x} (made : Bool)
      (h : outcome.isOk = true → setup.parent ≠ none → made = true) :
      Moves outcome .makeParent x (if made then .moveSource else .returned false) x
  | moved {x} (hvolume : source.crossVolume = false)
      (h : (x .source).Fits (x .importing)) :
      Moves .ok .moveSource x .checkStaged (x.rename .source .importing)
  | crossDevice {x} (hvolume : source.crossVolume = true) :
      Moves .ok .moveSource x .copySource x
  | notMoved {outcome x}
      (h : outcome.isOk = true → x .source [] = none ∨ ¬(x .source).Fits (x .importing)) :
      Moves outcome .moveSource x .dropStaged x
  | copied {x} :
      Moves .ok .copySource x .checkStaged
        (Function.update x .importing ((x .source).merge (x .importing)))
  | notCopied {outcome x image} :
      Moves outcome .copySource x .cleanCopy (Function.update x .importing image)
  | cleanCopy {outcome x} :
      Moves outcome .cleanCopy x .dropStaged (x.remove .importing outcome)
  | checkStaged {outcome x} (passed : Bool)
      (h : outcome.isOk = true → (x .importing).Complete setup.isDisk → passed = true) :
      Moves outcome .checkStaged x (if passed then .findDestination else .dropStaged) x
  | findDestination {outcome x} (found : Bool) (h : Looked (x .destination) outcome found) :
      Moves outcome .findDestination x (if found then .backUp else .activate) x
  | backedUp {x} (h : (x .destination).Fits (x .previous)) :
      Moves .ok .backUp x .activate (x.rename .destination .previous)
  | notBackedUp {outcome x}
      (h : outcome.isOk = true → ¬(x .destination).Fits (x .previous)) :
      Moves outcome .backUp x .dropStaged x
  | activated {x} (h : (x .importing).Fits (x .destination)) :
      Moves .ok .activate x .dropPrevious (x.rename .importing .destination)
  | notActivated {outcome x}
      (h : outcome.isOk = true → ¬(x .importing).Fits (x .destination)) :
      Moves outcome .activate x .findPrevious x
  | findPrevious {outcome x} (found : Bool) (h : Looked (x .previous) outcome found) :
      Moves outcome .findPrevious x (if found then .restore else .dropStaged) x
  | restored {x} (h : (x .previous).Fits (x .destination)) :
      Moves .ok .restore x .dropStaged (x.rename .previous .destination)
  | notRestored {outcome x}
      (h : outcome.isOk = true → ¬(x .previous).Fits (x .destination)) :
      Moves outcome .restore x .dropStaged x
  | dropStaged {outcome x} :
      Moves outcome .dropStaged x (.returned false) (x.remove .importing outcome)
  | dropPrevious {outcome x} :
      Moves outcome .dropPrevious x (.returned true) (x.remove .previous outcome)

end Images

end ImageReplacement
end MacMu
