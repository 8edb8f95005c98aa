import MacMu.Core.ImportDelivery

/-!
Reconstructing files where nothing is in the way: the directory is there and writable,
it has nothing under the name of the file and its temporary name, and the calls and the
tools succeed. Then each file is put in its place with the bytes of its chunks, and
nothing else changes.
-/

namespace MacMu
namespace ImageReconstruction

open Std FileTree ImageManifest ImportTools

structure Room (t : Tree Bytes) (dir : List String) (parent : Location) : Prop where
  resolved : resolve t dir = some parent
  directory : t[parent]? = some (.directory true)

structure Calls.Succeed (io : Calls) : Prop where
  opens : io.opens = true
  closes : io.closes = true
  reading : io.reading = .complete
  permits : io.permits = true
  renames : io.renames = true

section Disks

variable {t t' : Tree Bytes} {dir : List String} {parent : Location} {name other : String}
  {d : Disk Bytes} {content : Bytes}

section

variable (h : Room t dir parent)
include h

theorem Room.entry (name : String) : entry t dir name = some (parent ++ [name], true) :=
  entry_eq_some.mpr ⟨parent, h.resolved, h.directory, rfl⟩

theorem Room.of_same (hsame : ∀ place, Same t t' place) : Room t' dir parent := by
  obtain ⟨found, hfound, hnode, hplace⟩ :=
    entry_eq_some.mp ((entry_of_same hsame dir "").trans (h.entry ""))
  cases List.append_inj_left' hplace rfl
  exact ⟨hfound, hnode⟩

theorem Room.of_file {place : Location} {content : Bytes} (hleaf : Leaf t[place]?)
    (hplaced : t'[place]? = some (.file content true))
    (hothers : ∀ other, other ≠ place → t'[other]? = t[other]?) : Room t' dir parent := by
  refine h.of_same fun other => ?_
  by_cases heq : other = place
  · refine .inr ⟨heq ▸ hleaf, ?_⟩
    rw [heq, hplaced]
    trivial
  · exact .inl (hothers other heq)

theorem Room.insert {place : Location} (hleaf : Leaf t[place]?) (content : Bytes) :
    Room (t.insert place (.file content true)) dir parent := by
  refine h.of_file hleaf ExtTreeMap.getElem?_insert_self fun other hne => ?_
  rw [ExtTreeMap.getElem?_insert, if_neg fun hcmp => hne (Std.compare_eq_iff_eq.mp hcmp).symm]

end

theorem remove_absent (h : Room d.tree dir parent) (hnone : d.tree[parent ++ [name]]? = none) :
    (d.remove dir name).tree = d.tree := by
  have htouched : (d.touch (parent ++ [name])).tree[parent ++ [name]]? = none := hnone
  simp only [Disk.remove, h.entry, htouched]
  rfl

theorem openTruncate_absent (h : Room d.tree dir parent)
    (hnone : d.tree[parent ++ [name]]? = none) : ∃ d',
    d.openTruncate dir name [] true = (some (parent ++ [name]), d') ∧
      d'.tree = d.tree.insert (parent ++ [name]) (.file [] true) := by
  have hlocate : locate d.tree dir name = some (parent ++ [name]) :=
    locate_of_not_link (h.entry name) (by rw [hnone]; exact nofun)
  have hopens : Disk.opens (d.touch (parent ++ [name])).tree (parent ++ [name]) = true := by
    change Disk.opens d.tree _ = true
    simp only [Disk.opens, hnone, List.dropLast_concat, h.directory]
  refine ⟨(d.touch (parent ++ [name])).set (parent ++ [name]) (.file [] true), ?_, rfl⟩
  simp only [Disk.openTruncate, hlocate, hopens]
  rfl

theorem chmod_file (h : Room d.tree dir parent) {mode : Bool}
    (hfile : d.tree[parent ++ [name]]? = some (.file content mode)) : ∃ d',
    d.chmod dir name true = (true, d') ∧
      d'.tree = d.tree.insert (parent ++ [name]) (.file content true) := by
  have hlocate := (locate_of_file (h.entry name) hfile).1
  have htouched : (d.touch (parent ++ [name])).tree[parent ++ [name]]? =
      some (.file content mode) := hfile
  refine ⟨(d.touch (parent ++ [name])).set (parent ++ [name]) (.file content true), ?_, rfl⟩
  simp only [Disk.chmod, hlocate, htouched]

theorem rename_file (h : Room d.tree dir parent) {mode : Bool}
    (hfile : d.tree[parent ++ [name]]? = some (.file content mode))
    (hnone : d.tree[parent ++ [other]]? = none) : ∃ d',
    d.rename dir name other true = (true, d') ∧
      d'.tree = (d.tree.erase (parent ++ [name])).insert (parent ++ [other])
        (.file content mode) := by
  have htouched : ((d.touch (parent ++ [name])).touch (parent ++ [other])).tree[
      parent ++ [name]]? = some (.file content mode) := hfile
  have hfree : isDirectory ((d.touch (parent ++ [name])).touch (parent ++ [other])).tree
      (parent ++ [other]) = false := by
    change isDirectory d.tree _ = false
    simp only [isDirectory, hnone]
  refine ⟨(((d.touch (parent ++ [name])).touch (parent ++ [other])).erase (parent ++ [name])).set
    (parent ++ [other]) (.file content mode), ?_, rfl⟩
  simp only [Disk.rename, h.entry, htouched, hfree]
  rfl

end Disks

section OneFile

variable {env : Setting} {manifest : ChunkManifest} {file : FileSpec} {parent : Location}
  {content : Bytes}

section

variable (hcalls : (env.calls file).Succeed)
include hcalls

theorem finishFile_of_room {d : Disk Bytes}
    (hroom : Room d.tree (directoryOf env manifest file) parent)
    (hfile : d.tree[parent ++ [partialOf file]]? = some (.file content true))
    (hnone : d.tree[parent ++ [nameOf file]]? = none) : ∃ d',
    finishFile env manifest file d = (.ok (), d') ∧ ∀ place,
      d'.tree[place]? = if place = parent ++ [nameOf file] then some (.file content true)
        else if place = parent ++ [partialOf file] then none else d.tree[place]? := by
  have hne : parent ++ [nameOf file] ≠ parent ++ [partialOf file] := fun heq =>
    nameOf_ne_partialOf file (List.cons.inj (List.append_cancel_left heq)).1
  obtain ⟨changed, hchmod, hchanged⟩ := chmod_file hroom hfile
  have hroom' : Room changed.tree (directoryOf env manifest file) parent := by
    rw [hchanged]
    exact hroom.insert (by rw [hfile]; trivial) content
  have hnone' : changed.tree[parent ++ [nameOf file]]? = none := by
    rw [hchanged, ExtTreeMap.getElem?_insert,
      if_neg fun hcmp => hne (Std.compare_eq_iff_eq.mp hcmp).symm]
    exact hnone
  have hremoved := remove_absent hroom' hnone'
  have hfile' : (changed.remove (directoryOf env manifest file) (nameOf file)).tree[
      parent ++ [partialOf file]]? = some (.file content true) := by
    rw [hremoved, hchanged, ExtTreeMap.getElem?_insert_self]
  obtain ⟨d', hrename, hd'⟩ := rename_file (hremoved ▸ hroom') hfile' (hremoved ▸ hnone')
  refine ⟨d', ?_, fun place => ?_⟩
  · simp only [finishFile, hcalls.permits, hchmod, hcalls.renames, hrename]
  · rw [hd', hremoved, hchanged, ExtTreeMap.getElem?_insert, ExtTreeMap.getElem?_erase,
      ExtTreeMap.getElem?_insert]
    simp only [Std.compare_eq_iff_eq]
    by_cases hname : place = parent ++ [nameOf file]
    · rw [if_pos hname, if_pos hname.symm]
    · rw [if_neg hname, if_neg (Ne.symm hname)]
      by_cases htemporary : place = parent ++ [partialOf file]
      · rw [if_pos htemporary, if_pos htemporary.symm]
      · rw [if_neg htemporary, if_neg (Ne.symm htemporary), if_neg (Ne.symm htemporary)]

theorem fillFile_of_room {d : Disk Bytes}
    (hroom : Room d.tree (directoryOf env manifest file) parent)
    (hleaf : Leaf d.tree[parent ++ [partialOf file]]?)
    (hnone : d.tree[parent ++ [nameOf file]]? = none)
    (hwritten : writeChunks env file file.chunks [] = (.ok (), content))
    (hmatch : Matches env file content) : ∃ d',
    fillFile env manifest file (parent ++ [partialOf file]) d = (.ok (), d') ∧ ∀ place,
      d'.tree[place]? = if place = parent ++ [nameOf file] then some (.file content true)
        else if place = parent ++ [partialOf file] then none else d.tree[place]? := by
  have hne : parent ++ [nameOf file] ≠ parent ++ [partialOf file] := fun heq =>
    nameOf_ne_partialOf file (List.cons.inj (List.append_cancel_left heq)).1
  have hroom' : Room (d.write (parent ++ [partialOf file]) content).tree
      (directoryOf env manifest file) parent := hroom.insert hleaf content
  have hfile := Disk.get_set_self d (parent ++ [partialOf file]) (.file content true)
  have hread := (locate_of_file (hroom'.entry (partialOf file)) hfile).2
  obtain ⟨d', hfinish, hd'⟩ := finishFile_of_room hcalls hroom' hfile
    ((Disk.get_set_of_ne d hne _).trans hnone)
  refine ⟨d', ?_, fun place => ?_⟩
  · simp only [fillFile, hwritten, hcalls.closes, hread, hcalls.reading, verifyFile, hmatch.1, hmatch.2]
    simpa using hfinish
  · rw [hd']
    by_cases htemporary : place = parent ++ [partialOf file]
    · rw [if_pos htemporary, if_pos htemporary]
    · rw [if_neg htemporary, if_neg htemporary, Disk.write, Disk.get_set_of_ne d htemporary]

theorem reconstructFile_of_room {tree : Tree Bytes}
    (hroom : Room tree (directoryOf env manifest file) parent)
    (hnone : tree[parent ++ [nameOf file]]? = none)
    (htemporary : tree[parent ++ [partialOf file]]? = none)
    (hwritten : writeChunks env file file.chunks [] = (.ok (), content))
    (hmatch : Matches env file content) : ∃ d,
    reconstructFile env manifest file tree = (.ok (), d) ∧ ∀ place,
      d.tree[place]? =
        if place = parent ++ [nameOf file] then some (.file content true) else tree[place]? := by
  have hmade : makeDirectory env manifest file tree = (true, ⟨tree, []⟩) := by
    simp [makeDirectory, Disk.createDirectories, hroom.resolved, isDirectory, hroom.directory]
  have hremoved : ((Disk.mk tree []).remove (directoryOf env manifest file)
      (partialOf file)).tree = tree := remove_absent hroom htemporary
  have hroom' : Room ((Disk.mk tree []).remove (directoryOf env manifest file)
      (partialOf file)).tree (directoryOf env manifest file) parent := hremoved.symm ▸ hroom
  obtain ⟨opened, hopen, hopened⟩ := openTruncate_absent hroom' (by rw [hremoved]; exact htemporary)
  rw [hremoved] at hopened
  have hplain : Leaf tree[parent ++ [partialOf file]]? := by
    rw [htemporary]
    trivial
  have hcreated : opened.tree[parent ++ [partialOf file]]? = some (.file [] true) := by
    rw [hopened, ExtTreeMap.getElem?_insert_self]
  have hothers : ∀ place, place ≠ parent ++ [partialOf file] →
      opened.tree[place]? = tree[place]? := by
    intro place hne
    rw [hopened, ExtTreeMap.getElem?_insert,
      if_neg fun hcmp => hne (Std.compare_eq_iff_eq.mp hcmp).symm]
  have hne : parent ++ [nameOf file] ≠ parent ++ [partialOf file] := fun heq =>
    nameOf_ne_partialOf file (List.cons.inj (List.append_cancel_left heq)).1
  obtain ⟨d, hfill, hd⟩ := fillFile_of_room hcalls (hopened ▸ hroom.insert hplain [])
    (by rw [hcreated]; trivial) ((hothers _ hne).trans hnone) hwritten hmatch
  refine ⟨d, ?_, fun place => ?_⟩
  · simp only [reconstructFile, hmade, openFile, hcalls.opens, hopen, hfill]
  · rw [hd]
    by_cases hplace : place = parent ++ [partialOf file]
    · rw [if_pos hplace, hplace, htemporary]
    · rw [if_neg hplace, hothers place hplace]

end

end OneFile

section AllFiles

variable {env : Setting} {manifest : ChunkManifest} {parent : Location}

/-- Names of which none is taken by a file of another name or its temporary file. -/
def Separate (names : List String) : Prop :=
  names.Pairwise fun first second =>
    first ≠ second ∧ first ≠ second ++ ".partial" ∧ second ≠ first ++ ".partial"

def Plain (file : FileSpec) : Prop :=
  pathComponents file.relativePath = [file.relativePath]

theorem directoryOf_of_plain (env : Setting) (manifest : ChunkManifest) {file : FileSpec}
    (h : Plain file) :
    directoryOf env manifest file = env.destinationRoot ++ [manifest.root] := by
  rw [directoryOf, h]
  rfl

theorem nameOf_of_plain {file : FileSpec} (h : Plain file) : nameOf file = file.relativePath := by
  rw [nameOf, h]
  rfl

theorem reconstructFiles_of_room (contents : FileSpec → Bytes) {files : List FileSpec}
    (hfiles : ∀ file ∈ files, Plain file ∧ (env.calls file).Succeed ∧
      writeChunks env file file.chunks [] = (.ok (), contents file) ∧
      Matches env file (contents file))
    (hnames : Separate (files.map (·.relativePath))) {tree : Tree Bytes}
    (hroom : Room tree (env.destinationRoot ++ [manifest.root]) parent)
    (hfree : ∀ file ∈ files, tree[parent ++ [file.relativePath]]? = none ∧
      tree[parent ++ [file.relativePath ++ ".partial"]]? = none) : ∃ last,
    reconstructFiles env manifest files tree = (.ok (), last) ∧
      Room last (env.destinationRoot ++ [manifest.root]) parent ∧
      (∀ file ∈ files, last[parent ++ [file.relativePath]]? = some (.file (contents file) true)) ∧
      ∀ place, (∀ file ∈ files, place ≠ parent ++ [file.relativePath]) →
        last[place]? = tree[place]? := by
  induction files generalizing tree with
  | nil => exact ⟨tree, rfl, hroom, nofun, fun _ _ => rfl⟩
  | cons file files ih =>
    obtain ⟨hplain, hcalls, hwritten, hmatch⟩ := hfiles file (.head _)
    obtain ⟨hapart, hrest⟩ := List.pairwise_cons.mp hnames
    obtain ⟨hnone, htemporary⟩ := hfree file (.head _)
    have hname := nameOf_of_plain hplain
    have hunfinished : partialOf file = file.relativePath ++ ".partial" := by
      rw [partialOf, hname]
    have hdir := directoryOf_of_plain env manifest hplain
    obtain ⟨d, hfile, hd⟩ := reconstructFile_of_room hcalls (hdir ▸ hroom)
      (hname.symm ▸ hnone) (hunfinished.symm ▸ htemporary) hwritten hmatch
    rw [hname] at hd
    have hroom' : Room d.tree (env.destinationRoot ++ [manifest.root]) parent := by
      refine hroom.of_file (by rw [hnone]; trivial) ((hd _).trans (if_pos rfl)) ?_
      intro other hne
      rw [hd, if_neg hne]
    have hfree' : ∀ other ∈ files, d.tree[parent ++ [other.relativePath]]? = none ∧
        d.tree[parent ++ [other.relativePath ++ ".partial"]]? = none := by
      intro other hother
      obtain ⟨hne, hne', -⟩ := hapart _ (List.mem_map_of_mem hother)
      rw [hd, hd, if_neg fun heq => hne (List.cons.inj (List.append_cancel_left heq)).1.symm,
        if_neg fun heq => hne' (List.cons.inj (List.append_cancel_left heq)).1.symm]
      exact hfree other (.tail _ hother)
    obtain ⟨last, hlast, hroom'', hplaced, hothers⟩ :=
      ih (fun other hother => hfiles other (.tail _ hother)) hrest hroom' hfree'
    refine ⟨last, ?_, hroom'', ?_, ?_⟩
    · simp only [reconstructFiles, hfile, hlast]
    · intro other hother
      cases hother with
      | head =>
        rw [hothers, hd, if_pos rfl]
        intro other hother heq
        exact (hapart _ (List.mem_map_of_mem hother)).1
          (List.cons.inj (List.append_cancel_left heq)).1
      | tail _ hother => exact hplaced other hother
    · intro place hplace
      rw [hothers place fun other hother => hplace other (.tail _ hother), hd,
        if_neg (hplace file (.head _))]

theorem extractChunkManifest_of_ok {path : String} {data : Option (Except String Json)}
    {acquired : ChunkManifest → Except String Unit} {tree middle last : Tree Bytes}
    (hparse : parseManifest path data = .ok manifest) (hacquired : acquired manifest = .ok ())
    (hbase : extractBaseObject env manifest tree = (.ok (), middle))
    (hfiles : reconstructFiles env manifest manifest.files middle = (.ok (), last)) :
    extractChunkManifest env path data acquired tree = (.ok (), last) := by
  simp only [extractChunkManifest, hparse, hacquired, hbase, hfiles]

end AllFiles

end ImageReconstruction
end MacMu
