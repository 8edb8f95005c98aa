import MacMu.Core.ImageReconstruction
import MacMu.Packager.ManifestRecords

/-!
Where the calls of `reconstruct_file` land. The path of a file is checked by its
text alone, and each call follows the links that the base archive has put on the
way. The calls stay inside the destination exactly if the directory of the file,
with what has to be made of it, lies there, and the temporary name is not a link
out of it that cannot be removed: the directory may be one the archive has made
not writable, and the outcome of the removal is not looked at.
-/

namespace MacMu
namespace ImageReconstruction

open Std FileTree ImageManifest ImportTools

/-- `home` is the location of the destination. -/
def Inside (home : Option Location) (place : Location) : Prop :=
  ∃ root ∈ home, root <+: place ∧ root ≠ place

def Within (home : Option Location) (place : Location) : Prop := ∃ root ∈ home, root <+: place

instance (home : Option Location) (place : Location) : Decidable (Inside home place) :=
  inferInstanceAs (Decidable (∃ root ∈ home, _))

theorem inside_entry {home : Option Location} {parent : Location} {name : String} :
    Inside home (parent ++ [name]) ↔ Within home parent := by
  constructor
  · rintro ⟨root, hroot, hprefix, hne⟩
    exact ⟨root, hroot, (List.prefix_concat_iff.mp hprefix).resolve_left hne⟩
  · rintro ⟨root, hroot, hprefix⟩
    refine ⟨root, hroot, hprefix.trans (List.prefix_append _ _), ?_⟩
    rintro rfl
    have hlength := hprefix.length_le
    rw [List.length_append, List.length_singleton] at hlength
    omega

section OneFile

variable (env : Setting) (manifest : ChunkManifest) (file : FileSpec) (home : Option Location)
variable {d : Disk Bytes} {place : Location}

/-- Where the temporary name leads if it is a link that cannot be removed. -/
def stuckLink (tree : Tree Bytes) : Option Location :=
  match entry tree (directoryOf env manifest file) (partialOf file) with
  | some (place, false) =>
    match tree[place]? with
    | some (.link ..) => resolve tree (directoryOf env manifest file ++ [partialOf file])
    | _ => none
  | _ => none

/-- The condition on the tree that `reconstruct_file` finds. -/
structure Contained (tree : Tree Bytes) : Prop where
  made : ∀ place ∈ (makeDirectory env manifest file tree).2.touched, Inside home place
  directory : (makeDirectory env manifest file tree).1 = true → ∀ parent,
    resolve (makeDirectory env manifest file tree).2.tree (directoryOf env manifest file) =
      some parent →
    isDirectory (makeDirectory env manifest file tree).2.tree parent = true → Within home parent
  link : (makeDirectory env manifest file tree).1 = true → ∀ place,
    stuckLink env manifest file (makeDirectory env manifest file tree).2.tree = some place →
    Inside home place

variable {env manifest file home}

/-- All calls so far were directed inside, and the tree is the one with the
directories made, or less. -/
structure Confined (home : Option Location) (base : Tree Bytes) (d : Disk Bytes) : Prop where
  touched : ∀ place ∈ d.touched, Inside home place
  pruned : Pruned d.tree base

section Confined

variable {base : Tree Bytes} {d : Disk Bytes} {dir : List String}
variable {name : String}

def EntriesInside (home : Option Location) (base : Tree Bytes) (dir : List String) : Prop :=
  ∀ name place writable, entry base dir name = some (place, writable) → Inside home place

section

variable (h : Confined home base d)
include h

theorem Confined.touch {place : Location} (hplace : Inside home place) :
    Confined home base (d.touch place) := by
  refine ⟨fun other hother => ?_, h.pruned⟩
  obtain hother | hother := List.mem_append.mp hother
  · exact h.touched other hother
  · rwa [List.mem_singleton.mp hother]

theorem Confined.set_file (place : Location) (content : Bytes) (writable : Bool) :
    Confined home base (d.set place (.file content writable)) :=
  ⟨h.touched, (pruned_file _ _ _ _).trans h.pruned⟩

theorem Confined.remove (hdir : EntriesInside home base dir) (name : String) :
    Confined home base (d.remove dir name) := by
  refine ⟨?_, (Disk.pruned_remove dir name).trans h.pruned⟩
  cases hentry : entry d.tree dir name with
  | none =>
    rw [Disk.remove_of_none hentry]
    exact h.touched
  | some found =>
    rw [Disk.touched_remove hentry]
    exact (h.touch (hdir _ _ _ (h.pruned.entry hentry))).touched

theorem Confined.rename (hdir : EntriesInside home base dir) {source target : String}
    {allowed : Bool} {renamed : Bool} {d' : Disk Bytes}
    (hrename : d.rename dir source target allowed = (renamed, d')) :
    (∀ place ∈ d'.touched, Inside home place) ∧ (renamed = false → Confined home base d') := by
  unfold Disk.rename at hrename
  split at hrename
  · rename_i oldPlace writable newPlace _ hold hnew
    have htouched : Confined home base ((d.touch oldPlace).touch newPlace) :=
      (h.touch (hdir _ _ _ (h.pruned.entry hold))).touch (hdir _ _ _ (h.pruned.entry hnew))
    dsimp only at hrename
    split at hrename
    · cases hrename
      exact ⟨htouched.touched, fun _ => htouched⟩
    · cases hrename
      exact ⟨htouched.touched, fun _ => htouched⟩
    · split at hrename
      · cases hrename
        exact ⟨htouched.touched, fun _ => htouched⟩
      · cases hrename
        exact ⟨htouched.touched, nofun⟩
  · cases hrename
    exact ⟨h.touched, fun _ => h⟩

end

def LeadsInside (home : Option Location) (tree : Tree Bytes) (dir : List String)
    (name : String) : Prop :=
  ∀ place, locate tree dir name = some place → Inside home place

theorem LeadsInside.set_file {tree : Tree Bytes} (h : LeadsInside home tree dir name)
    {place : Location} (hleaf : Leaf tree[place]?) (content : Bytes) (writable : Bool) :
    LeadsInside home (tree.insert place (.file content writable)) dir name := by
  intro other hother
  rw [locate_of_same (same_file hleaf content writable)] at hother
  exact h other hother

theorem Confined.chmod (h : Confined home base d) (hleads : LeadsInside home d.tree dir name)
    (allowed : Bool) : Confined home base (d.chmod dir name allowed).2 := by
  unfold Disk.chmod
  split
  · exact h
  · rename_i place hplace
    have htouched := h.touch (hleads place hplace)
    dsimp only
    split
    · exact htouched.set_file _ _ _
    · exact htouched

theorem Confined.openTruncate (h : Confined home base d) (hleads : LeadsInside home d.tree dir name)
    (empty : Bytes) (allowed : Bool) :
    Confined home base (d.openTruncate dir name empty allowed).2 := by
  unfold Disk.openTruncate
  split
  · exact h
  · rename_i place hplace
    have htouched := h.touch (hleads place hplace)
    dsimp only
    split
    · exact htouched.set_file _ _ _
    · exact htouched

end Confined

theorem finishFile_inside {base : Tree Bytes} (h : Confined home base d)
    (hdir : EntriesInside home base (directoryOf env manifest file))
    (hleads : LeadsInside home d.tree (directoryOf env manifest file) (partialOf file)) :
    ∀ place ∈ (finishFile env manifest file d).2.touched, Inside home place := by
  have hchmod := h.chmod hleads (env.calls file).permits
  unfold finishFile
  dsimp only
  split
  · rename_i d' heq
    rw [heq] at hchmod
    exact (hchmod.remove hdir _).touched
  · rename_i d' heq
    rw [heq] at hchmod
    have hremoved := hchmod.remove hdir (nameOf file)
    split
    · rename_i d'' hrename
      exact (((hremoved.rename hdir hrename).2 rfl).remove hdir _).touched
    · rename_i d'' hrename
      exact (hremoved.rename hdir hrename).1

theorem fillFile_inside {base : Tree Bytes} (h : Confined home base d)
    (hdir : EntriesInside home base (directoryOf env manifest file))
    (hleads : LeadsInside home d.tree (directoryOf env manifest file) (partialOf file))
    (hleaf : Leaf d.tree[place]?) :
    ∀ other ∈ (fillFile env manifest file place d).2.touched, Inside home other := by
  have hwritten : ∀ output, Confined home base (d.write place output) :=
    fun output => h.set_file _ _ _
  unfold fillFile
  dsimp only
  split
  · exact ((hwritten _).remove hdir _).touched
  · split
    · exact ((hwritten _).remove hdir _).touched
    · split
      · exact ((hwritten _).remove hdir _).touched
      · exact finishFile_inside (hwritten _) hdir (hleads.set_file hleaf _ _)

theorem touched_subset_finishFile (d : Disk Bytes) :
    d.touched ⊆ (finishFile env manifest file d).2.touched := by
  have hchmod := Disk.touched_subset_chmod (d := d) (directoryOf env manifest file)
    (partialOf file) (env.calls file).permits
  unfold finishFile
  dsimp only
  split
  · rename_i d' heq
    rw [heq] at hchmod
    exact List.Subset.trans hchmod (Disk.touched_subset_remove _ _)
  · rename_i d' heq
    rw [heq] at hchmod
    have hremoved := List.Subset.trans hchmod
      (Disk.touched_subset_remove (directoryOf env manifest file) (nameOf file))
    have hrenamed := List.Subset.trans hremoved (Disk.touched_subset_rename
      (directoryOf env manifest file) (partialOf file) (nameOf file) (env.calls file).renames)
    split
    · rename_i d'' hrename
      rw [hrename] at hrenamed
      exact List.Subset.trans hrenamed (Disk.touched_subset_remove _ _)
    · rename_i d'' hrename
      rw [hrename] at hrenamed
      exact hrenamed

theorem touched_subset_fillFile (place : Location) (d : Disk Bytes) :
    d.touched ⊆ (fillFile env manifest file place d).2.touched := by
  unfold fillFile
  dsimp only
  split
  · exact Disk.touched_subset_remove (d := d.write place _) _ _
  · split
    · exact Disk.touched_subset_remove (d := d.write place _) _ _
    · split
      · exact Disk.touched_subset_remove (d := d.write place _) _ _
      · exact touched_subset_finishFile (d.write place _)

theorem stuckLink_eq_some {tree : Tree Bytes} :
    stuckLink env manifest file tree = some place ↔
      ∃ found absolute target,
        entry tree (directoryOf env manifest file) (partialOf file) = some (found, false) ∧
        tree[found]? = some (.link absolute target) ∧
        resolve tree (directoryOf env manifest file ++ [partialOf file]) = some place := by
  constructor
  · intro h
    unfold stuckLink at h
    split at h
    · rename_i found hentry
      split at h
      · rename_i hnode
        exact ⟨found, _, _, hentry, hnode, h⟩
      · cases h
    · cases h
  · rintro ⟨found, absolute, target, hentry, hnode, hresolve⟩
    simp only [stuckLink, hentry, hnode, hresolve]

/-- After the attempt to remove it, the temporary name leads inside. -/
theorem leadsInside_remove (hdir : EntriesInside home d.tree (directoryOf env manifest file))
    (hlink : ∀ place, stuckLink env manifest file d.tree = some place → Inside home place) :
    LeadsInside home (d.remove (directoryOf env manifest file) (partialOf file)).tree
      (directoryOf env manifest file) (partialOf file) := by
  intro place hplace
  have hpruned :=
    Disk.pruned_remove (d := d) (directoryOf env manifest file) (partialOf file)
  cases hentry : entry (d.remove (directoryOf env manifest file) (partialOf file)).tree
      (directoryOf env manifest file) (partialOf file) with
  | none =>
    simp only [locate, hentry, reduceCtorEq] at hplace
  | some found =>
    obtain ⟨own, writable⟩ := found
    have hown := hpruned.entry hentry
    by_cases hstill : ∃ absolute target,
        (d.remove (directoryOf env manifest file) (partialOf file)).tree[own]? =
          some (.link absolute target)
    · obtain ⟨absolute, target, hstill⟩ := hstill
      have hnode : d.tree[own]? = some (.link absolute target) := by
        obtain hsame | hleaf := hpruned own
        · rw [← hsame, hstill]
        · exact (leaf_ne_link hleaf _ _ hstill).elim
      have hremove := Disk.remove_of_node hown hnode (by rintro _ ⟨⟩)
      cases writable with
      | true =>
        rw [hremove] at hstill
        simp only [if_true, Disk.erase, ExtTreeMap.getElem?_erase_self, reduceCtorEq] at hstill
      | false =>
        rw [locate_of_link hentry hstill, hremove] at hplace
        exact hlink place (stuckLink_eq_some.mpr ⟨own, absolute, target, hown, hnode, hplace⟩)
    · rw [locate_of_not_link hentry fun absolute target h => hstill ⟨absolute, target, h⟩]
        at hplace
      rw [← Option.some.inj hplace]
      exact hdir _ _ _ hown

theorem openFile_inside (hmade : ∀ place ∈ d.touched, Inside home place)
    (hdir : EntriesInside home d.tree (directoryOf env manifest file))
    (hlink : ∀ place, stuckLink env manifest file d.tree = some place → Inside home place) :
    ∀ place ∈ (openFile env manifest file d).2.touched, Inside home place := by
  have hleads := leadsInside_remove hdir hlink
  have hremoved : Confined home d.tree
      (d.remove (directoryOf env manifest file) (partialOf file)) :=
    Confined.remove ⟨hmade, Pruned.refl _⟩ hdir _
  have hopened := hremoved.openTruncate hleads [] (env.calls file).opens
  unfold openFile
  dsimp only
  split
  · rename_i d' hopen
    rw [hopen] at hopened
    exact hopened.touched
  · rename_i place d' hopen
    rw [hopen] at hopened
    obtain ⟨-, hopens, rfl⟩ := Disk.openTruncate_eq_some hopen
    refine fillFile_inside hopened hdir (hleads.set_file (Disk.leaf_of_opens hopens) _ _) ?_
    simp only [Disk.set, Disk.touch, ExtTreeMap.getElem?_insert_self]
    trivial

theorem touched_subset_openFile (d : Disk Bytes) :
    ((d.remove (directoryOf env manifest file) (partialOf file)).openTruncate
      (directoryOf env manifest file) (partialOf file) [] (env.calls file).opens).2.touched ⊆
      (openFile env manifest file d).2.touched := by
  unfold openFile
  dsimp only
  split
  · rename_i d' hopen
    rw [hopen]
    exact List.Subset.refl _
  · rename_i place d' hopen
    rw [hopen]
    exact touched_subset_fillFile ..

theorem removed_subset_openFile (d : Disk Bytes) :
    (d.remove (directoryOf env manifest file) (partialOf file)).touched ⊆
      (openFile env manifest file d).2.touched :=
  List.Subset.trans (Disk.touched_subset_openTruncate _ _ _ _) (touched_subset_openFile d)

theorem entry_mem_openFile {parent : Location}
    (hparent : resolve d.tree (directoryOf env manifest file) = some parent)
    (hdirectory : isDirectory d.tree parent = true) :
    parent ++ [partialOf file] ∈ (openFile env manifest file d).2.touched := by
  obtain ⟨writable, hnode⟩ := isDirectory_iff.mp hdirectory
  have hentry : entry d.tree (directoryOf env manifest file) (partialOf file) =
      some (parent ++ [partialOf file], writable) :=
    entry_eq_some.mpr ⟨parent, hparent, hnode, rfl⟩
  refine removed_subset_openFile d ?_
  rw [Disk.touched_remove hentry]
  exact List.mem_append_right _ (List.mem_singleton.mpr rfl)

theorem stuckLink_mem_openFile (h : stuckLink env manifest file d.tree = some place) :
    place ∈ (openFile env manifest file d).2.touched := by
  obtain ⟨own, absolute, target, hown, hnode, hresolve⟩ := stuckLink_eq_some.mp h
  have hstays : d.remove (directoryOf env manifest file) (partialOf file) = d.touch own := by
    rw [Disk.remove_of_node hown hnode (by rintro _ ⟨⟩)]
    rfl
  have hlocate : locate (d.touch own).tree (directoryOf env manifest file) (partialOf file) =
      some place := (locate_of_link hown hnode).trans hresolve
  refine touched_subset_openFile d ?_
  rw [hstays, Disk.touched_openTruncate hlocate]
  exact List.mem_append_right _ (List.mem_singleton.mpr rfl)

/-- One call of `reconstruct_file` stays inside exactly under the condition. -/
theorem reconstructFile_inside_iff (tree : Tree Bytes) :
    (∀ place ∈ (reconstructFile env manifest file tree).2.touched, Inside home place) ↔
      Contained env manifest file home tree := by
  cases hmade : makeDirectory env manifest file tree with
  | mk made d =>
  cases made with
  | false =>
    simp only [reconstructFile, hmade]
    constructor
    · intro h
      refine ⟨?_, ?_, ?_⟩ <;> rw [hmade]
      · exact h
      · exact nofun
      · exact nofun
    · intro h
      have hinside := h.made
      rwa [hmade] at hinside
  | true =>
    simp only [reconstructFile, hmade]
    constructor
    · intro h
      refine ⟨?_, fun _ => ?_, fun _ => ?_⟩ <;> rw [hmade]
      · intro place hplace
        exact h place (removed_subset_openFile d (Disk.touched_subset_remove _ _ hplace))
      · intro parent hparent hdirectory
        exact inside_entry.mp (h _ (entry_mem_openFile hparent hdirectory))
      · intro place hplace
        exact h place (stuckLink_mem_openFile hplace)
    · intro h
      obtain ⟨hinside, hdirectory, hlink⟩ := h
      rw [hmade] at hinside hdirectory hlink
      refine openFile_inside hinside ?_ (hlink rfl)
      intro name place writable hentry
      obtain ⟨parent, hparent, hnode, rfl⟩ := entry_eq_some.mp hentry
      exact inside_entry.mpr (hdirectory rfl parent hparent (isDirectory_iff.mpr ⟨writable, hnode⟩))

end OneFile

/-- The calls of `reconstruct_file` that the loop over the files makes, each with
the tree it finds. -/
def reconstructions (env : Setting) (manifest : ChunkManifest) :
    List FileSpec → Tree Bytes → List (FileSpec × Tree Bytes)
  | [], _ => []
  | file :: files, tree =>
    (file, tree) ::
      match reconstructFile env manifest file tree with
      | (.ok (), d) => reconstructions env manifest files d.tree
      | (.error _, _) => []

/-- An import stays inside the destination exactly if each of its calls meets a
tree in which the directory of its file lies inside, and the temporary name is no
link out of it that cannot be removed. -/
theorem import_contained_iff (env : Setting) (manifest : ChunkManifest) (base : Tree Bytes) :
    (∀ call ∈ reconstructions env manifest manifest.files base,
      ∀ place ∈ (reconstructFile env manifest call.1 call.2).2.touched,
        Inside (resolve base env.destinationRoot) place) ↔
      ∀ call ∈ reconstructions env manifest manifest.files base,
        Contained env manifest call.1 (resolve base env.destinationRoot) call.2 :=
  forall₂_congr fun call _ => reconstructFile_inside_iff call.2

namespace Escape

def hashA : String := "ca978112ca1bbdcafac231b39a23dc4da786eff8147c4e72b9807785afee48bb"

def hashB : String := "3e23e8160039594a33894f6564e1b1348bbd7a0088d42c4acb73eeaed59c009d"

def data : Json :=
  Packager.Manifest.json
    ⟨"image", 1, "", ⟨1, hashA⟩, [⟨"d/x", 1, hashB, [⟨0, 1, hashB, ⟨1, hashB⟩⟩]⟩]⟩

def file : FileSpec := ⟨"d/x", 1, hashB, [⟨0, 1, hashB, 1, "payload"⟩]⟩

def manifest : ChunkManifest where
  root := "image"
  baseUrl := ""
  baseObjectIndex := 0
  objects :=
    [⟨"objects/" ++ hashA ++ ".zip", 1, hashA⟩, ⟨"objects/" ++ hashB ++ ".zip", 1, hashB⟩]
  files := [file]

/-- Before the import there are the destination and a directory beside it. -/
def before : Tree Bytes :=
  ((∅ : Tree Bytes).insert [] (.directory true)).insert ["out"] (.directory true)
    |>.insert ["victim"] (.directory true)

/-- The archive has a link `d` in its root directory. -/
def base : Tree Bytes :=
  (before.insert ["out", "image"] (.directory true)).insert ["out", "image", "d"]
    (.link true ["victim"])

def setting : Setting where
  sha256 := fun bytes => if bytes = [0x62] then hashB else hashA
  destinationRoot := ["out"]
  localPath := fun _ => ""
  unzip := fun _ _ => (⟨true, 0, ""⟩, [0x62])
  ditto := fun _ _ => (⟨true, 0, ""⟩, base)
  calls := fun _ => ⟨true, true, .complete, true, true, ""⟩

end Escape

/-- The import succeeds, and has put the file into the other directory. -/
theorem import_escapes :
    parseManifest "manifest.json" (some (.ok Escape.data)) = .ok Escape.manifest ∧
      extractBaseObject Escape.setting Escape.manifest Escape.before = (.ok (), Escape.base) ∧
      (Escape.file, Escape.base) ∈
        reconstructions Escape.setting Escape.manifest Escape.manifest.files Escape.base ∧
      ["victim", "x"] ∈
        (reconstructFile Escape.setting Escape.manifest Escape.file Escape.base).2.touched ∧
      ¬Inside (resolve Escape.base Escape.setting.destinationRoot) ["victim", "x"] := by
  refine ⟨by decide +kernel, ?_, List.mem_cons_self, by decide +kernel, by decide +kernel⟩
  have hplain : isPlainDirectory Escape.base ["out"] "image" = true := by decide +kernel
  simp only [extractBaseObject, Escape.setting, checkedTask]
  exact if_pos hplain

end ImageReconstruction
end MacMu
