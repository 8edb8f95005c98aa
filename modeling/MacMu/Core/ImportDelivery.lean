import MacMu.Core.ImageReconstruction
import MacMu.Lib.TransitionSystem
import MacMu.Packager.ManifestRecords

/-!
What an import that succeeds has delivered. Reconstructing a file makes missing
directories, leaves nothing at the temporary name and puts the checked file at
its own name; nothing else changes. So a record stays delivered as long as no
later record has its file or its temporary name on the way to it. The manifest
check compares the texts of the paths only, and does not know temporary names.
-/

namespace MacMu
namespace ImageReconstruction

open Std FileTree ImageManifest ImportTools TransitionSystem

section OneFile

variable (env : Setting) (manifest : ChunkManifest) (file : FileSpec)
variable {made : Tree Bytes} {d d' : Disk Bytes} {content : Bytes}

def Matches (content : Bytes) : Prop :=
  content.length = file.size ∧ env.sha256 content = file.sha256

/-- The path of the record leads to a file of the declared size and hash. -/
def Delivered (tree : Tree Bytes) : Prop :=
  ∃ content, readFile tree (directoryOf env manifest file) (nameOf file) = some content ∧
    Matches env file content

def Held (tree : Tree Bytes) : Prop :=
  ∃ place writable content mode,
    entry tree (directoryOf env manifest file) (nameOf file) = some (place, writable) ∧
    tree[place]? = some (.file content mode) ∧ Matches env file content

/-- What a successful reconstruction has done: the directories are made, the
temporary name is free, and the file is in place. -/
structure Outcome (made tree' : Tree Bytes) (parent : Location) (content : Bytes) : Prop where
  resolved : resolve made (directoryOf env manifest file) = some parent
  own : entry tree' (directoryOf env manifest file) (nameOf file) =
    some (parent ++ [nameOf file], true)
  isMatch : Matches env file content
  placed : tree'[parent ++ [nameOf file]]? = some (.file content true)
  temporary : tree'[parent ++ [partialOf file]]? = none
  others : ∀ place, place ≠ parent ++ [nameOf file] → place ≠ parent ++ [partialOf file] →
    tree'[place]? = made[place]?

variable {env manifest file}

theorem Held.delivered {tree : Tree Bytes} (h : Held env manifest file tree) :
    Delivered env manifest file tree := by
  obtain ⟨place, writable, content, mode, hentry, hnode, hmatches⟩ := h
  exact ⟨content, (locate_of_file hentry hnode).2, hmatches⟩

theorem nameOf_ne_partialOf (file : FileSpec) : nameOf file ≠ partialOf file := by
  intro h
  have hlength := congrArg String.length h
  rw [partialOf, String.length_append] at hlength
  have : ".partial".length = 8 := by decide
  omega

theorem same_swap {t t' : Tree Bytes} {source target : Location}
    (hsource : Leaf t[source]? ∧ Leaf t'[source]?) (htarget : Leaf t[target]? ∧ Leaf t'[target]?)
    (hothers : ∀ place, place ≠ source → place ≠ target → t'[place]? = t[place]?)
    (place : Location) : Same t t' place := by
  by_cases heq : place = source
  · exact .inr (heq ▸ hsource)
  by_cases heq' : place = target
  · exact .inr (heq' ▸ htarget)
  exact .inl (hothers place heq heq')

/-- The last calls, on a tree with the temporary file in its own entry. -/
theorem outcome_of_rename {allowed : Bool}
    (hrename : (d.remove (directoryOf env manifest file) (nameOf file)).rename
      (directoryOf env manifest file) (partialOf file) (nameOf file) allowed = (true, d'))
    (hpruned : Pruned d.tree made) (hmatch : Matches env file content)
    (htemporary : ∀ parent, resolve made (directoryOf env manifest file) = some parent →
      d.tree[parent ++ [partialOf file]]? = some (.file content true) ∧
      ∀ place, place ≠ parent ++ [partialOf file] → d.tree[place]? = made[place]?) :
    ∃ parent, Outcome env manifest file made d'.tree parent content := by
  obtain ⟨parent, node, hparent, hdirectory, hsource, hfree, htree⟩ := Disk.rename_eq_true hrename
  have hremoved := Disk.pruned_remove (d := d) (directoryOf env manifest file) (nameOf file)
  have hentry : entry d.tree (directoryOf env manifest file) (nameOf file) =
      some (parent ++ [nameOf file], true) :=
    hremoved.entry (entry_eq_some.mpr ⟨parent, hparent, hdirectory, rfl⟩)
  obtain ⟨base, hbase, -, heq⟩ := entry_eq_some.mp (hpruned.entry hentry)
  cases (List.append_inj_left' heq rfl)
  obtain ⟨htemp, hothers⟩ := htemporary parent hbase
  have hne : parent ++ [partialOf file] ≠ parent ++ [nameOf file] := fun heq =>
    nameOf_ne_partialOf file (List.cons.inj (List.append_cancel_left heq)).1.symm
  have hgone : (d.remove (directoryOf env manifest file) (nameOf file)).tree[
      parent ++ [nameOf file]]? = none := by
    obtain hgone | ⟨w, hstays⟩ := Disk.get_remove hentry
    · exact hgone
    · rw [isDirectory_iff.mpr ⟨w, hstays⟩] at hfree
      cases hfree
  have hkept := Disk.get_remove_of_ne hentry hne
  rw [htemp, hsource] at hkept
  cases hkept
  have hplaced : d'.tree[parent ++ [nameOf file]]? = some (.file content true) := by
    rw [htree, ExtTreeMap.getElem?_insert_self]
  have hrest : ∀ place, place ≠ parent ++ [partialOf file] → place ≠ parent ++ [nameOf file] →
      d'.tree[place]? =
        (d.remove (directoryOf env manifest file) (nameOf file)).tree[place]? := by
    intro place htemp hown
    rw [htree, ExtTreeMap.getElem?_insert, if_neg fun hcmp => hown (Std.compare_eq_iff_eq.mp hcmp).symm,
      ExtTreeMap.getElem?_erase, if_neg fun hcmp => htemp (Std.compare_eq_iff_eq.mp hcmp).symm]
  have hfreed : d'.tree[parent ++ [partialOf file]]? = none := by
    rw [htree, ExtTreeMap.getElem?_insert,
      if_neg fun hcmp => hne (Std.compare_eq_iff_eq.mp hcmp).symm, ExtTreeMap.getElem?_erase_self]
  have hsame := same_swap (t := (d.remove (directoryOf env manifest file) (nameOf file)).tree)
    ⟨by rw [hsource]; trivial, by rw [hfreed]; trivial⟩
    ⟨by rw [hgone]; trivial, by rw [hplaced]; trivial⟩ hrest
  refine ⟨parent, hbase, ?_, hmatch, hplaced, hfreed, ?_⟩
  · rw [entry_of_same hsame]
    exact entry_eq_some.mpr ⟨parent, hparent, hdirectory, rfl⟩
  · intro place hown htemp
    rw [hrest place htemp hown, Disk.get_remove_of_ne hentry hown, hothers place htemp]

theorem finishFile_eq_ok (h : finishFile env manifest file d = (.ok (), d')) :
    ∃ d'', d.chmod (directoryOf env manifest file) (partialOf file) (env.calls file).permits =
        (true, d'') ∧
      (d''.remove (directoryOf env manifest file) (nameOf file)).rename
        (directoryOf env manifest file) (partialOf file) (nameOf file) (env.calls file).renames =
        (true, d') := by
  unfold finishFile at h
  dsimp only at h
  split at h
  · cases h
  · rename_i d'' hchmod
    split at h <;> cases h
    rename_i renamed hrename
    exact ⟨d'', hchmod, hrename⟩

theorem fillFile_eq_ok {place : Location} (h : fillFile env manifest file place d = (.ok (), d')) :
    ∃ output bytes, readFile (d.write place output).tree (directoryOf env manifest file)
        (partialOf file) = some bytes ∧
      Matches env file bytes ∧
      finishFile env manifest file (d.write place output) = (.ok (), d') := by
  unfold fillFile at h
  dsimp only at h
  split at h
  · cases h
  · split at h
    · cases h
    · split at h
      · cases h
      · rename_i bytes hverify
        obtain ⟨hread, hmatch⟩ := verifyFile_eq_ok hverify
        exact ⟨_, bytes, hread, hmatch, h⟩

theorem openFile_ok {made : Disk Bytes} (h : openFile env manifest file made = (.ok (), d')) :
    ∃ parent content, Outcome env manifest file made.tree d'.tree parent content := by
  unfold openFile at h
  dsimp only at h
  split at h
  · cases h
  rename_i place d hopen
  obtain ⟨hlocate, -, hd⟩ := Disk.openTruncate_eq_some hopen
  obtain ⟨output, bytes, hread, hmatch, hfinish⟩ := fillFile_eq_ok h
  obtain ⟨d'', hchmod, hrename⟩ := finishFile_eq_ok hfinish
  obtain ⟨place', content, mode, hlocate', hnode', hd''⟩ := Disk.chmod_eq_true hchmod
  have hremoved := Disk.pruned_remove (d := made) (directoryOf env manifest file) (partialOf file)
  have hopened : Pruned d.tree (made.remove (directoryOf env manifest file) (partialOf file)).tree :=
    hd ▸ pruned_file _ _ _ _
  have hwritten : Pruned (d.write place output).tree d.tree := pruned_file _ _ _ _
  have hchanged : Pruned d''.tree (d.write place output).tree := hd'' ▸ pruned_file _ _ _ _
  -- The rename found the directory, so the trees before it have it too.
  obtain ⟨parent, node, hparent, hdirectory, -⟩ := Disk.rename_eq_true hrename
  have hlast : entry _ _ (partialOf file) = some (parent ++ [partialOf file], true) :=
    entry_eq_some.mpr ⟨parent, hparent, hdirectory, rfl⟩
  have hfilled := hchanged.entry ((Disk.pruned_remove _ _).entry hlast)
  have hfirst := hopened.entry (hwritten.entry hfilled)
  have hmade := hremoved.entry hfirst
  have hplace : place = parent ++ [partialOf file] :=
    Option.some.inj (hlocate.symm.trans (Disk.locate_remove hmade hfirst))
  have hnode : (d.write place output).tree[parent ++ [partialOf file]]? =
      some (.file output true) := hplace ▸ Disk.get_set_self d place _
  obtain ⟨hleads, hreads⟩ := locate_of_file hfilled hnode
  cases hread.symm.trans hreads
  have hplace' : place' = parent ++ [partialOf file] :=
    Option.some.inj (hlocate'.symm.trans hleads)
  rw [hplace'] at hnode' hd''
  cases hnode.symm.trans hnode'
  have houtcome := outcome_of_rename hrename
    (hchanged.trans (hwritten.trans (hopened.trans hremoved))) hmatch ?_
  · obtain ⟨parent, houtcome⟩ := houtcome
    exact ⟨parent, _, houtcome⟩
  · intro base hbase
    obtain ⟨base', hbase', -, heq⟩ := entry_eq_some.mp hmade
    cases hbase.symm.trans hbase'
    cases List.append_inj_left' heq rfl
    refine ⟨hd'' ▸ Disk.get_set_self _ _ _, fun other hne => ?_⟩
    rw [hd'', Disk.get_set_of_ne _ hne]
    change (d.write place _).tree[other]? = _
    rw [Disk.write, Disk.get_set_of_ne _ (hplace ▸ hne), hd, Disk.get_set_of_ne _ (hplace ▸ hne)]
    exact Disk.get_remove_of_ne hmade hne

theorem reconstructFile_ok {tree : Tree Bytes}
    (h : reconstructFile env manifest file tree = (.ok (), d')) :
    ∃ parent content, Outcome env manifest file (makeDirectory env manifest file tree).2.tree
      d'.tree parent content := by
  unfold reconstructFile at h
  split at h
  · cases h
  · rename_i made hmade
    rw [hmade]
    exact openFile_ok h

theorem Outcome.held {tree' : Tree Bytes} {parent : Location}
    (h : Outcome env manifest file made tree' parent content) : Held env manifest file tree' :=
  ⟨_, _, content, _, h.own, h.placed, h.isMatch⟩

theorem Outcome.pruned {tree' : Tree Bytes} {parent : Location}
    (h : Outcome env manifest file made tree' parent content) : Pruned tree' made := by
  intro place
  by_cases hown : place = parent ++ [nameOf file]
  · rw [hown, h.placed]
    exact .inr trivial
  by_cases htemporary : place = parent ++ [partialOf file]
  · rw [htemporary, h.temporary]
    exact .inr trivial
  exact .inl (h.others place hown htemporary)

end OneFile

/-- The record `file` stays clear of the earlier record: neither its file nor its
temporary name is on the route to the earlier one or in its place, unless its
file takes that place and has the same size and hash. -/
def Spares (env : Setting) (manifest : ChunkManifest) (tree : Tree Bytes)
    (file earlier : FileSpec) (parent : Location) : Prop :=
  parent ++ [partialOf file] ∉ route tree (directoryOf env manifest earlier) ∧
  parent ++ [nameOf file] ∉ route tree (directoryOf env manifest earlier) ∧
  ∀ found ∈ entry tree (directoryOf env manifest earlier) (nameOf earlier),
    parent ++ [partialOf file] ≠ found.1 ∧
    (parent ++ [nameOf file] = found.1 →
      file.size = earlier.size ∧ file.sha256 = earlier.sha256)

instance (env : Setting) (manifest : ChunkManifest) (tree : Tree Bytes)
    (file earlier : FileSpec) (parent : Location) :
    Decidable (Spares env manifest tree file earlier parent) :=
  inferInstanceAs (Decidable (_ ∧ _ ∧ ∀ found ∈ entry _ _ _, _))

section Step

variable {env : Setting} {manifest : ChunkManifest} {file earlier : FileSpec}
  {tree tree' : Tree Bytes} {parent : Location} {content : Bytes}

theorem makeDirectory_keeps (env : Setting) (manifest : ChunkManifest) (file : FileSpec)
    {place : Location} {node : Node Bytes} (h : tree[place]? = some node) :
    (makeDirectory env manifest file tree).2.tree[place]? = some node :=
  Disk.createDirectories_keeps _ h

theorem makeDirectory_keeps_of_not_leaf (env : Setting) (manifest : ChunkManifest)
    (file : FileSpec) {place : Location} (h : ¬Leaf tree[place]?) :
    (makeDirectory env manifest file tree).2.tree[place]? = tree[place]? := by
  cases hnode : tree[place]? with
  | none =>
    rw [hnode] at h
    exact (h trivial).elim
  | some node => exact makeDirectory_keeps env manifest file hnode

theorem Held.keep (h : Held env manifest earlier tree)
    (houtcome : Outcome env manifest file (makeDirectory env manifest file tree).2.tree tree'
      parent content)
    (hspares : Spares env manifest tree file earlier parent) :
    Held env manifest earlier tree' := by
  obtain ⟨place, writable, held, mode, hentry, hnode, hmatch⟩ := h
  have hentry' : entry tree' (directoryOf env manifest earlier) (nameOf earlier) =
      some (place, writable) := by
    refine (entry_of_route hentry fun other hother hnot => ?_).1
    rw [houtcome.others other, makeDirectory_keeps_of_not_leaf env manifest file hnot]
    · rintro rfl
      exact hspares.2.1 hother
    · rintro rfl
      exact hspares.1 hother
  obtain ⟨htemporary, hsame⟩ := hspares.2.2 (place, writable) hentry
  by_cases hown : parent ++ [nameOf file] = place
  · obtain ⟨hsize, hhash⟩ := hsame hown
    refine ⟨place, writable, content, true, hentry', hown ▸ houtcome.placed, ?_⟩
    exact ⟨houtcome.isMatch.1.trans hsize, houtcome.isMatch.2.trans hhash⟩
  · refine ⟨place, writable, held, mode, hentry', ?_, hmatch⟩
    rw [houtcome.others place (Ne.symm hown) htemporary.symm]
    exact makeDirectory_keeps env manifest file hnode

/-- If the earlier record is still delivered, the later one has spared it. -/
theorem spares_of_delivered (h : Held env manifest earlier tree)
    (houtcome : Outcome env manifest file (makeDirectory env manifest file tree).2.tree tree'
      parent content)
    (hdelivered : Delivered env manifest earlier tree') :
    Spares env manifest tree file earlier parent := by
  obtain ⟨place, writable, held, mode, hentry, hnode, -⟩ := h
  obtain ⟨found, hread, hmatch⟩ := hdelivered
  obtain ⟨hmade, hroute⟩ := entry_of_route hentry
    fun other _ hnot => makeDirectory_keeps_of_not_leaf env manifest file hnot
  obtain ⟨place', writable', hentry'⟩ := entry_of_readFile hread
  cases hmade.symm.trans (houtcome.pruned.entry hentry')
  obtain ⟨hroute', hnoLeaf⟩ := houtcome.pruned.route hentry'
  rw [hroute', hroute] at hnoLeaf
  refine ⟨?_, ?_, ?_⟩
  · intro hmem
    refine hnoLeaf _ hmem ?_
    rw [houtcome.temporary]
    trivial
  · intro hmem
    refine hnoLeaf _ hmem ?_
    rw [houtcome.placed]
    trivial
  · intro other hother
    cases hentry.symm.trans hother
    constructor
    · rintro rfl
      rw [readFile_of_leaf hentry' (by rw [houtcome.temporary]; trivial), houtcome.temporary] at hread
      cases hread
    · rintro rfl
      rw [(locate_of_file hentry' houtcome.placed).2] at hread
      cases hread
      exact ⟨houtcome.isMatch.1.symm.trans hmatch.1, houtcome.isMatch.2.symm.trans hmatch.2⟩

end Step

structure Progress where
  tree : Tree Bytes
  done : List FileSpec

section Loop

variable (env : Setting) (manifest : ChunkManifest)
variable {p p' : Progress} {file : FileSpec}

def Progress.step (p : Progress) (file : FileSpec) : Option Progress :=
  match reconstructFile env manifest file p.tree with
  | (.ok (), d) => some ⟨d.tree, p.done ++ [file]⟩
  | (.error _, _) => none

def Clear (p : Progress) (file : FileSpec) : Prop :=
  ∀ parent ∈ resolve (makeDirectory env manifest file p.tree).2.tree
      (directoryOf env manifest file),
    ∀ earlier ∈ p.done, Spares env manifest p.tree file earlier parent

instance (p : Progress) (file : FileSpec) : Decidable (Clear env manifest p file) :=
  inferInstanceAs (Decidable (∀ parent ∈ resolve _ _, ∀ earlier ∈ p.done, _))

def AllDelivered (p : Progress) : Prop := ∀ file ∈ p.done, Delivered env manifest file p.tree

variable {env manifest}

theorem Progress.step_eq_some (h : p.step env manifest file = some p') :
    ∃ d, reconstructFile env manifest file p.tree = (.ok (), d) ∧
      p' = ⟨d.tree, p.done ++ [file]⟩ := by
  unfold Progress.step at h
  split at h
  · rename_i d hok
    exact ⟨d, hok, (Option.some.inj h).symm⟩
  · cases h

theorem exec_of_reconstructFiles {files done : List FileSpec} {tree last : Tree Bytes}
    (h : reconstructFiles env manifest files tree = (.ok (), last)) :
    exec (Progress.step env manifest) ⟨tree, done⟩ files = some ⟨last, done ++ files⟩ := by
  induction files generalizing tree done with
  | nil =>
    cases h
    rw [exec_nil, List.append_nil]
  | cons file files ih =>
    unfold reconstructFiles at h
    split at h
    · rename_i d hok
      have hstep : (Progress.mk tree done).step env manifest file =
          some ⟨d.tree, done ++ [file]⟩ := by simp only [Progress.step, hok]
      rw [exec_cons_of_step hstep, ih h, List.append_assoc, List.singleton_append]
    · cases h

theorem held_step (h : ∀ earlier ∈ p.done, Held env manifest earlier p.tree)
    (hclear : Clear env manifest p file) (hstep : p.step env manifest file = some p') :
    ∀ f ∈ p'.done, Held env manifest f p'.tree := by
  obtain ⟨d, hok, rfl⟩ := Progress.step_eq_some hstep
  obtain ⟨parent, content, houtcome⟩ := reconstructFile_ok hok
  intro f hf
  obtain hf | hf := List.mem_append.mp hf
  · exact (h f hf).keep houtcome (hclear parent houtcome.resolved f hf)
  · rw [List.mem_singleton.mp hf]
    exact houtcome.held

theorem clear_of_delivered (h : ∀ earlier ∈ p.done, Held env manifest earlier p.tree)
    (hstep : p.step env manifest file = some p') (hdelivered : AllDelivered env manifest p') :
    Clear env manifest p file := by
  obtain ⟨d, hok, rfl⟩ := Progress.step_eq_some hstep
  obtain ⟨parent, content, houtcome⟩ := reconstructFile_ok hok
  intro base hbase earlier hearlier
  cases houtcome.resolved.symm.trans hbase
  exact spares_of_delivered (h earlier hearlier) houtcome
    (hdelivered earlier (List.mem_append_left _ hearlier))

end Loop

theorem extractChunkManifest_eq_ok {env : Setting} {path : String}
    {data : Option (Except String Json)} {acquired : ChunkManifest → Except String Unit}
    {tree last : Tree Bytes}
    (h : extractChunkManifest env path data acquired tree = (.ok (), last)) :
    ∃ manifest base, parseManifest path data = .ok manifest ∧
      extractBaseObject env manifest tree = (.ok (), base) ∧
      reconstructFiles env manifest manifest.files base = (.ok (), last) := by
  unfold extractChunkManifest at h
  split at h
  · cases h
  · rename_i manifest hparse
    split at h
    · cases h
    · split at h
      · cases h
      · rename_i base hbase
        exact ⟨manifest, base, hparse, hbase, h⟩

/-- In an import that succeeds, the records so far are delivered after each file
exactly if each file spares those before it; then all are delivered at the end. -/
theorem declared_files_delivered_iff {env : Setting} {path : String}
    {data : Option (Except String Json)} {acquired : ChunkManifest → Except String Unit}
    {tree last : Tree Bytes}
    (h : extractChunkManifest env path data acquired tree = (.ok (), last)) :
    ∃ manifest base, parseManifest path data = .ok manifest ∧
      extractBaseObject env manifest tree = (.ok (), base) ∧
      (Meets (Progress.step env manifest) (Clear env manifest) ⟨base, []⟩ manifest.files ↔
        ∀ k p, exec (Progress.step env manifest) ⟨base, []⟩ (manifest.files.take k) = some p →
          AllDelivered env manifest p) ∧
      (Meets (Progress.step env manifest) (Clear env manifest) ⟨base, []⟩ manifest.files →
        ∀ file ∈ manifest.files, Delivered env manifest file last) := by
  obtain ⟨manifest, base, hparse, hbase, hfiles⟩ := extractChunkManifest_eq_ok h
  have hrun : exec (Progress.step env manifest) ⟨base, []⟩ manifest.files =
      some ⟨last, manifest.files⟩ := exec_of_reconstructFiles hfiles
  have hiff := meets_iff_forall_take
    (I := fun p : Progress => ∀ f ∈ p.done, Held env manifest f p.tree)
    (P := AllDelivered env manifest)
    (fun p hheld f hf => (hheld f hf).delivered) (fun p file p' hheld => held_step hheld)
    (fun p file p' hheld => clear_of_delivered hheld) (fun f hf => by cases hf) hrun
  refine ⟨manifest, base, hparse, hbase, hiff, fun hmeets => ?_⟩
  refine hiff.mp hmeets manifest.files.length ⟨last, manifest.files⟩ ?_
  rw [List.take_length]
  exact hrun

namespace Overlap

def hashA : String := "ca978112ca1bbdcafac231b39a23dc4da786eff8147c4e72b9807785afee48bb"

def hashB : String := "3e23e8160039594a33894f6564e1b1348bbd7a0088d42c4acb73eeaed59c009d"

def data (first second : String) : Json :=
  Packager.Manifest.json ⟨"image", 1, "", ⟨1, hashA⟩,
    [⟨first, 1, hashB, [⟨0, 1, hashB, ⟨1, hashB⟩⟩]⟩, ⟨second, 1, hashB, [⟨0, 1, hashB, ⟨1, hashB⟩⟩]⟩]⟩

def record (path : String) : FileSpec := ⟨path, 1, hashB, [⟨0, 1, hashB, 1, "payload"⟩]⟩

def manifestOf (first second : String) : ChunkManifest where
  root := "image"
  baseUrl := ""
  baseObjectIndex := 0
  objects :=
    [⟨"objects/" ++ hashA ++ ".zip", 1, hashA⟩, ⟨"objects/" ++ hashB ++ ".zip", 1, hashB⟩]
  files := [record first, record second]

def before : Tree Bytes :=
  ((∅ : Tree Bytes).insert [] (.directory true)).insert ["out"] (.directory true)

def base : Tree Bytes := before.insert ["out", "image"] (.directory true)

def setting : Setting where
  sha256 := fun bytes => if bytes = [0x62] then hashB else hashA
  destinationRoot := ["out"]
  localPath := fun _ => ""
  unzip := fun _ _ => (⟨true, 0, ""⟩, [0x62])
  ditto := fun _ _ => (⟨true, 0, ""⟩, base)
  calls := fun _ => ⟨true, true, .complete, true, true, ""⟩

def run (first second : String) : Except String Unit × Tree Bytes :=
  extractChunkManifest setting "manifest.json" (some (.ok (data first second)))
    (fun _ => .ok ()) before

end Overlap

theorem declared_files_delivered_iff_two :
    Overlap.run "x" "y" = (.ok (), (Overlap.run "x" "y").2) ∧
      ∀ file ∈ [Overlap.record "x", Overlap.record "y"],
        Delivered Overlap.setting (Overlap.manifestOf "x" "y") file (Overlap.run "x" "y").2 := by
  have hok : Overlap.run "x" "y" = (.ok (), (Overlap.run "x" "y").2) :=
    Prod.ext (by decide +kernel) rfl
  obtain ⟨manifest, base, hparse, hbase, -, hdelivered⟩ := declared_files_delivered_iff hok
  have hparse' : parseManifest "manifest.json" (some (.ok (Overlap.data "x" "y"))) =
      .ok (Overlap.manifestOf "x" "y") := by decide +kernel
  have hmeets : Meets (Progress.step Overlap.setting (Overlap.manifestOf "x" "y"))
      (Clear Overlap.setting (Overlap.manifestOf "x" "y"))
      ⟨(extractBaseObject Overlap.setting (Overlap.manifestOf "x" "y") Overlap.before).2, []⟩
      (Overlap.manifestOf "x" "y").files := by decide +kernel
  cases hparse.symm.trans hparse'
  rw [hbase] at hmeets
  exact ⟨hok, hdelivered hmeets⟩

/-- The second file is put together under the name of the first. -/
theorem declared_file_lost :
    parseManifest "manifest.json" (some (.ok (Overlap.data "x.partial" "x"))) =
        .ok (Overlap.manifestOf "x.partial" "x") ∧
      (Overlap.run "x.partial" "x").1 = .ok () ∧
      ¬Delivered Overlap.setting (Overlap.manifestOf "x.partial" "x") (Overlap.record "x.partial")
        (Overlap.run "x.partial" "x").2 := by
  refine ⟨by decide +kernel, by decide +kernel, ?_⟩
  rintro ⟨content, hread, -⟩
  have hnone : readFile (Overlap.run "x.partial" "x").2
      (directoryOf Overlap.setting (Overlap.manifestOf "x.partial" "x")
        (Overlap.record "x.partial")) (nameOf (Overlap.record "x.partial")) = none := by
    decide +kernel
  rw [hnone] at hread
  cases hread

end ImageReconstruction
end MacMu
