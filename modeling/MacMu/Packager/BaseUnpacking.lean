import MacMu.Core.ImportSuccess
import MacMu.Packager.ManifestRoundTrip

/-!
The base archive of a package and what unpacking it makes. The names of the files that are
packaged are fixed; none of them is in the way of another or of its temporary file. In an
empty directory the base archive becomes one directory with its files in it.
-/

namespace MacMu
namespace Packager

open FileTree ImageManifest SystemImage
open ImageReconstruction (Room)
open Std (ExtTreeMap)

section Names

def kPackagedFiles : List String := kRequiredFiles ++ kOptionalFiles ++ ["encryptionkey.img"]

def kInfoFile : String := "macmu-image-info.txt"

theorem map_fst_optionalFiles (dir : SourceDir) (names : List String) :
    ((optionalFiles dir names).map Prod.fst).Sublist names := by
  induction names with
  | nil => exact .slnil
  | cons name names ih =>
    cases hfile : dir.file name with
    | none =>
      rw [optionalFiles, List.filterMap_cons_none (by rw [hfile]; rfl)]
      exact ih.cons name
    | some file =>
      rw [optionalFiles, List.filterMap_cons_some (by rw [hfile]; rfl)]
      exact ih.cons_cons name

variable {args : Arguments} {files : List (String × SourceFile)}

structure Named (files : List (String × SourceFile)) : Prop where
  nodup : (files.map Prod.fst).Nodup
  packaged : ∀ file ∈ files, file.1 ∈ kPackagedFiles

theorem named_of_sourceFiles (h : sourceFiles args = .ok files) : Named files := by
  obtain ⟨-, image, -, -, hcollect⟩ := sourceFiles_eq_ok.mp h
  obtain ⟨required, hrequired, -, hperm⟩ := collectSourceFiles_perm hcollect
  have hnames := hperm.map Prod.fst
  rw [List.map_append, List.map_append, hrequired, List.map_singleton] at hnames
  have hsub := ((List.Sublist.refl kRequiredFiles).append
    (map_fst_optionalFiles args.sourceDir kOptionalFiles)).append
      (List.Sublist.refl ["encryptionkey.img"])
  have hnodup : kPackagedFiles.Nodup := by decide
  exact ⟨hnames.nodup_iff.mpr (hsub.nodup hnodup),
    fun file hfile => hsub.subset (hnames.subset (List.mem_map_of_mem hfile))⟩

theorem Named.filter (h : Named files) (p : String × SourceFile → Bool) : Named (files.filter p) :=
  ⟨(List.filter_sublist.map _).nodup h.nodup,
    fun file hfile => h.packaged file (List.mem_of_mem_filter hfile)⟩

theorem not_slash_of_packaged {name : String} (h : name ∈ kPackagedFiles) :
    '/' ∉ name.toList ∧ name ≠ "" ∧ name ≠ kInfoFile ∧ safeRelativePath name = true := by
  revert name
  decide

theorem ne_temporary_of_packaged {first second : String} (h : first ∈ kPackagedFiles)
    (h' : second ∈ kInfoFile :: kPackagedFiles) : second ≠ first ++ ".partial" := by
  have hall : ∀ first ∈ kPackagedFiles, ∀ second ∈ kInfoFile :: kPackagedFiles,
      second ≠ first ++ ".partial" := by decide
  exact hall first h second h'

end Names

section Base

/-- The names under which an entry of an archive is unpacked. -/
def entryPath (name : String) : List String :=
  ((name.toList.splitOn '/').map String.ofList).filter (· ≠ "")

def ZipEntry.unpacked (home : Location) : ZipEntry → Location × Node Bytes
  | .directory name => (home ++ entryPath name, .directory true)
  | .file name content => (home ++ entryPath name, .file content true)

def unpack (home : Location) (entries : List ZipEntry) (tree : Tree Bytes) : Tree Bytes :=
  tree.insertMany (entries.map (ZipEntry.unpacked home))

/-- A directory with nothing in it that entries can be made in. -/
structure Vacant (tree : Tree Bytes) (dir : List String) (home : Location) : Prop
    extends Room tree dir home where
  empty : ∀ names, names ≠ [] → tree[home ++ names]? = none

theorem entryPath_directory {name : String} (h : '/' ∉ name.toList) (hne : name ≠ "") :
    entryPath (name ++ "/") = [name] := by
  have hlist : (name ++ "/").toList = name.toList ++ '/' :: [] := String.toList_append
  rw [entryPath, hlist, splitOn_slash h List.not_mem_nil]
  simp [hne]

theorem entryPath_file {root name : String} (hroot : '/' ∉ root.toList) (hne : root ≠ "")
    (hname : '/' ∉ name.toList) (hne' : name ≠ "") :
    entryPath (root ++ "/" ++ name) = [root, name] := by
  have hlist : (root ++ "/" ++ name).toList = root.toList ++ '/' :: name.toList := by
    rw [String.toList_append, String.toList_append, List.append_assoc]
    rfl
  rw [entryPath, hlist, splitOn_slash hroot hname]
  simp [hne, hne']

theorem stripSlashes_of_not_mem {name : String} (h : '/' ∉ name.toList) :
    stripSlashes name = name := by
  have hdrop : name.toList.reverse.dropWhile (· == '/') = name.toList.reverse := by
    cases hreverse : name.toList.reverse with
    | nil => rfl
    | cons c rest =>
      have hc : c ∈ name.toList := List.mem_reverse.mp (hreverse ▸ List.mem_cons_self)
      exact List.dropWhile_cons_of_neg fun heq => h (beq_iff_eq.mp heq ▸ hc)
  rw [stripSlashes, hdrop, List.reverse_reverse, String.ofList_toList]

variable {root : String} {files : List (String × SourceFile)} {home : Location}
  {tree : Tree Bytes} {dir : List String}

def baseContents (files : List (String × SourceFile)) : List (String × Bytes) :=
  (sortByName files).map (fun file => (file.1, file.2.bytes)) ++
    [(kInfoFile, kImageInfo.toUTF8.toList)]

theorem mem_baseContents {file : String × SourceFile} (h : file ∈ files) :
    (file.1, file.2.bytes) ∈ baseContents files := by
  refine List.mem_append_left _ ?_
  exact List.mem_map_of_mem (f := fun file : String × SourceFile => (file.1, file.2.bytes))
    ((List.mergeSort_perm _ _).mem_iff.mpr h)

theorem map_unpacked (hroot : validatePackageName root = .ok ()) (hnamed : Named files)
    (home : Location) :
    (baseEntries root files).map (ZipEntry.unpacked home) =
      (home ++ [root], .directory true) ::
        (baseContents files).map fun file => (home ++ [root] ++ [file.1], .file file.2 true) := by
  obtain ⟨hne, -, -, hslash⟩ := validatePackageName_eq_ok hroot
  have hpath : ∀ name, '/' ∉ name.toList → name ≠ "" →
      home ++ entryPath (root ++ "/" ++ name) = home ++ [root] ++ [name] := by
    intro name hname hne'
    rw [entryPath_file hslash hne hname hne', List.append_assoc]
    rfl
  have hinfo : ZipEntry.unpacked home (.file (root ++ "/macmu-image-info.txt")
      kImageInfo.toUTF8.toList) =
      (home ++ [root] ++ [kInfoFile], .file kImageInfo.toUTF8.toList true) := by
    rw [ZipEntry.unpacked, ← hpath kInfoFile (by decide) (by decide), String.append_assoc]
    rfl
  have hfile : ∀ file ∈ sortByName files,
      ZipEntry.unpacked home (.file (root ++ "/" ++ file.1) file.2.bytes) =
        (home ++ [root] ++ [file.1], .file file.2.bytes true) := by
    intro file hfile
    have hname := hnamed.packaged file ((List.mergeSort_perm _ _).subset hfile)
    obtain ⟨hslash', hne', -⟩ := not_slash_of_packaged hname
    rw [ZipEntry.unpacked, hpath file.1 hslash' hne']
  have hdirectory : ZipEntry.unpacked home (.directory (stripSlashes root ++ "/")) =
      (home ++ [root], .directory true) := by
    rw [ZipEntry.unpacked, stripSlashes_of_not_mem hslash, entryPath_directory hslash hne]
  rw [baseEntries, List.map_append, List.map_cons, hdirectory, List.map_singleton, hinfo,
    List.map_map, baseContents, List.map_append, List.map_map, List.map_singleton]
  exact congrArg (fun unpacked => (home ++ [root], .directory true) :: unpacked ++ _)
    (List.map_congr_left hfile)

theorem nodup_baseContents (hnamed : Named files) : ((baseContents files).map Prod.fst).Nodup := by
  have hnames : ((sortByName files).map Prod.fst).Perm (files.map Prod.fst) :=
    (List.mergeSort_perm _ _).map _
  rw [baseContents, List.map_append, List.map_map, List.map_singleton]
  refine List.nodup_append.mpr ⟨hnames.nodup_iff.mpr hnamed.nodup, List.nodup_singleton _, ?_⟩
  rintro name hname _ hinfo rfl
  obtain ⟨file, hfile, rfl⟩ := List.mem_map.mp (hnames.subset hname)
  exact (not_slash_of_packaged (hnamed.packaged file hfile)).2.2.1 (List.mem_singleton.mp hinfo)

structure Unpacked (dir : List String) (root : String) (files : List (String × SourceFile))
    (home : Location) (tree : Tree Bytes) : Prop where
  outer : Room tree dir home
  room : Room tree (dir ++ [root]) (home ++ [root])
  placed : ∀ file ∈ files,
    tree[home ++ [root] ++ [file.1]]? = some (.file file.2.bytes true)
  free : ∀ name, name ∉ (baseContents files).map Prod.fst →
    tree[home ++ [root] ++ [name]]? = none

theorem append_singleton_ne (here : Location) (name : String) : here ++ [name] ≠ here := by
  intro heq
  have hlength := congrArg List.length heq
  rw [List.length_append, List.length_singleton] at hlength
  omega

/-- The entries of the base archive are apart, so that each is there in the end. -/
theorem getElem?_unpack (hroot : validatePackageName root = .ok ()) (hnamed : Named files)
    (home : Location) (tree : Tree Bytes) :
    (unpack home (baseEntries root files) tree)[home ++ [root]]? = some (.directory true) ∧
    (∀ file ∈ baseContents files,
      (unpack home (baseEntries root files) tree)[home ++ [root] ++ [file.1]]? =
        some (.file file.2 true)) ∧
    ∀ place, place ≠ home ++ [root] →
      (∀ name ∈ (baseContents files).map Prod.fst, place ≠ home ++ [root] ++ [name]) →
        (unpack home (baseEntries root files) tree)[place]? = tree[place]? := by
  rw [unpack, map_unpacked hroot hnamed home]
  generalize hunpacked : ((home ++ [root], Node.directory true) ::
    (baseContents files).map fun file => (home ++ [root] ++ [file.1], Node.file file.2 true)) =
      unpacked
  have hkeys : unpacked.map Prod.fst = (home ++ [root]) ::
      ((baseContents files).map Prod.fst).map fun name => home ++ [root] ++ [name] := by
    rw [← hunpacked, List.map_cons, List.map_map, List.map_map]
    rfl
  have hnodup : (unpacked.map Prod.fst).Nodup := by
    rw [hkeys]
    refine List.nodup_cons.mpr ⟨fun hmem => ?_, (nodup_baseContents hnamed).map ?_⟩
    · obtain ⟨name, -, heq⟩ := List.mem_map.mp hmem
      exact append_singleton_ne _ _ heq
    · intro first second heq
      exact (List.cons.inj (List.append_cancel_left heq)).1
  have hapart : unpacked.Pairwise fun a b => ¬compare a.1 b.1 = .eq := by
    refine (List.pairwise_map.mp hnodup).imp fun hne hcmp => ?_
    exact hne (Std.compare_eq_iff_eq.mp hcmp)
  have hget : ∀ place node, (place, node) ∈ unpacked →
      (tree.insertMany unpacked)[place]? = some node := fun place node hmem =>
    ExtTreeMap.getElem?_insertMany_list_of_mem (Std.compare_eq_iff_eq.mpr rfl) hapart hmem
  refine ⟨hget _ _ (hunpacked ▸ List.mem_cons_self), fun file hfile => hget _ _ ?_, ?_⟩
  · rw [← hunpacked]
    exact List.mem_cons_of_mem _ (List.mem_map_of_mem (f := fun file : String × Bytes =>
      (home ++ [root] ++ [file.1], Node.file file.2 true)) hfile)
  · intro place hne hnames
    refine ExtTreeMap.getElem?_insertMany_list_of_contains_eq_false ?_
    rw [hkeys]
    refine Bool.eq_false_iff.mpr fun hmem => ?_
    obtain heq | hmem := List.mem_cons.mp (List.contains_iff_mem.mp hmem)
    · exact hne heq
    · obtain ⟨name, hname, heq⟩ := List.mem_map.mp hmem
      exact hnames name hname heq.symm

theorem unpack_of_vacant (hroot : validatePackageName root = .ok ()) (hnamed : Named files)
    (hvacant : Vacant tree dir home) :
    Unpacked dir root files home (unpack home (baseEntries root files) tree) := by
  obtain ⟨hdirectory, hplaced, hothers⟩ := getElem?_unpack hroot hnamed ..
  obtain ⟨hne, hdot, hdots, -⟩ := validatePackageName_eq_ok hroot
  have hpruned : Pruned tree (unpack home (baseEntries root files) tree) := by
    intro place
    by_cases hbelow : ∃ names, names ≠ [] ∧ place = home ++ names
    · obtain ⟨names, hnames, rfl⟩ := hbelow
      refine .inr ?_
      rw [hvacant.empty names hnames]
      trivial
    · refine .inl (hothers place ?_ ?_).symm
      · rintro rfl
        exact hbelow ⟨[root], List.cons_ne_nil _ _, rfl⟩
      · rintro name - rfl
        exact hbelow ⟨[root, name], List.cons_ne_nil _ _, List.append_assoc _ _ _⟩
  have hroom : Room (unpack home (baseEntries root files) tree) dir home := by
    obtain ⟨found, hfound, hnode, hplace⟩ :=
      entry_eq_some.mp (hpruned.entry (hvacant.entry ""))
    cases List.append_inj_left' hplace rfl
    exact ⟨hfound, hnode⟩
  refine ⟨hroom, ⟨?_, hdirectory⟩, ?_, ?_⟩
  · refine resolve_snoc (not_or.mpr ⟨hne, hdot⟩) hdots hroom.resolved hroom.directory ?_
    rw [hdirectory]
    exact nofun
  · intro file hfile
    exact hplaced (file.1, file.2.bytes) (mem_baseContents hfile)
  · intro name hname
    rw [hothers _ (append_singleton_ne _ _), List.append_assoc]
    · exact hvacant.empty _ (List.cons_ne_nil _ _)
    · intro other hother heq
      cases (List.cons.inj (List.append_cancel_left heq)).1
      exact hname hother

end Base

end Packager
end MacMu
