import MacMu.Core.LocalAcquisition
import MacMu.Core.ObjectSoundness
import MacMu.Packager.BaseUnpacking
import MacMu.Packager.InstallableImage

/-!
A package that is imported again. The importer finds the objects beside the manifest,
`unzip` returns the payload of a piece, and `ditto` makes the entries of the base archive
in an empty directory. Then the import succeeds, and every file that was packaged is back
with its bytes, whether it was in the base archive or cut into chunks.
-/

namespace MacMu
namespace Packager

open FileTree ImageManifest ImportTools ObjectAcquisition SystemImage TransitionSystem
open ImageReconstruction hiding Bytes Setting
open Std (ExtTreeMap)

/-- The file of an object that is beside the manifest, in the directory `dir` below the
root. -/
def sourceOf (dir : String) (object : ObjectSpec) : String :=
  "/" ++ dir ++ "/" ++ object.relativePath

/-- `materialize_objects` for a manifest without a base URL. -/
def acquisitionOf (tools : Tools) (cacheDir dir : String) (parsed : ChunkManifest) : Setting where
  sha256 := tools.sha256
  cacheDir := cacheDir
  objects := parsed.objects
  source := fun index => (parsed.objects[index]?.map (sourceOf dir)).getD ""

def localPathOf (w : World) (index : Nat) : String :=
  ((w.given.find? (·.index == index)).map (·.localPath)).getD ""

/-- The workers have been joined after some run in which the checks saw the files as they
are. -/
def Acquired (env : Setting) (contents : String → Option Bytes)
    (cached partials : ExtTreeMap String Entry) (w : World) : Prop :=
  ∃ steps, Meets (World.step env) (Honest env contents) (World.start env cached partials) steps ∧
    exec (World.step env) (World.start env cached partials) steps = some w ∧ w.Joined env

/-- The tools and the calls of the importer do what they are meant to do with the archives
of a package. -/
structure Extracts (tools : Tools) (args : Arguments) (files : List (String × SourceFile))
    (contents : String → Option Bytes) (env : ImageReconstruction.Setting) : Prop where
  sha256 : env.sha256 = tools.sha256
  unzip : ∀ path content, contents path = some (pieceArchive tools content) → ∃ result,
    env.unzip path kZipEntryName = (result, content) ∧ result.succeeded = true
  ditto : ∀ path tree home, contents path = some (baseArchive tools args files) →
    Vacant tree env.destinationRoot home → ∃ result,
      env.ditto path tree =
        (result, unpack home (baseEntries args.packageName (baseFiles args files)) tree) ∧
      result.succeeded = true
  calls : ∀ file, (env.calls file).Succeed

section Import

variable {tools : Tools} {args : Arguments} {files : List (String × SourceFile)}
  {stored : Bytes → Prop} {parsed : ChunkManifest} {dir cacheDir : String}
  {contents : String → Option Bytes} {env : ImageReconstruction.Setting}

theorem source_acquisitionOf {index : Nat} {object : ObjectSpec}
    (h : parsed.objects[index]? = some object) :
    (acquisitionOf tools cacheDir dir parsed).source index = sourceOf dir object := by
  simp only [acquisitionOf, h, Option.map_some, Option.getD_some]

theorem available_of_plan (cacheDir : String) (hplan : Plan tools args files stored parsed)
    (hcontents : ∀ archive, stored archive →
      contents (sourceOf dir (specOf tools archive)) = some archive) :
    Available (acquisitionOf tools cacheDir dir parsed) contents := by
  constructor
  · intro index
    cases hobject : parsed.objects[index]? with
    | none =>
      simp only [acquisitionOf, hobject]
      rfl
    | some object =>
      rw [source_acquisitionOf hobject, ImportTools.startsWith, sourceOf, String.toList_append,
        String.toList_append, String.toList_append]
      rfl
  · intro index object hobject
    obtain ⟨archive, hstored, rfl⟩ := hplan.listed object (List.mem_of_getElem? hobject)
    refine ⟨archive, ?_⟩
    rw [source_acquisitionOf hobject, hcontents archive hstored]
    simp [verifyFile, specOf, acquisitionOf]

theorem localPathOf_joined {w : World} {cached : ExtTreeMap String Entry}
    (hinv : Inv (acquisitionOf tools cacheDir dir parsed) cached w)
    (hfine : w.Fine (acquisitionOf tools cacheDir dir parsed))
    (hjoined : w.Joined (acquisitionOf tools cacheDir dir parsed)) {index : Nat}
    {object : ObjectSpec} (hobject : parsed.objects[index]? = some object) :
    localPathOf w index = sourceOf dir object := by
  have hlt : index < parsed.objects.length := (List.getElem?_eq_some_iff.mp hobject).1
  have hmem : index ∈ w.given.map (·.index) :=
    (hinv.complete hjoined hfine.failed).mem_iff.mpr (List.mem_range.mpr hlt)
  obtain ⟨g, hg, hindex⟩ := List.mem_map.mp hmem
  have hsome : (w.given.find? (·.index == index)).isSome :=
    List.find?_isSome.mpr ⟨g, hg, beq_iff_eq.mpr hindex⟩
  obtain ⟨found, hfound⟩ := Option.isSome_iff_exists.mp hsome
  have hsame := List.find?_some hfound
  rw [beq_iff_eq] at hsame
  rw [localPathOf, hfound, Option.map_some, Option.getD_some,
    hfine.given found (List.mem_of_find?_eq_some hfound), hsame, source_acquisitionOf hobject]

theorem writeChunks_of_planned (file : FileSpec) {offset : Nat} {content : Bytes}
    {chunks : List ChunkSpec}
    (hunzip : ∀ index piece, stored (pieceArchive tools piece) →
      parsed.objects[index]? = some (specOf tools (pieceArchive tools piece)) → ∃ result,
        env.unzip (env.localPath index) kZipEntryName = (result, piece) ∧
          result.succeeded = true)
    (h : Planned tools stored parsed.objects offset content chunks) {output : Bytes}
    (hlength : output.length = offset) :
    writeChunks env file chunks output = (.ok (), output ++ content) := by
  induction h generalizing output with
  | nil => rw [writeChunks, List.append_nil]
  | @cons offset piece rest index chunks harchive hindex _ ih =>
    obtain ⟨result, hresult, hok⟩ := hunzip index piece harchive hindex
    have hchecked : checkedTask "/usr/bin/unzip" result = .ok () := by
      rw [checkedTask, hok]
      rfl
    have hnext : (output ++ piece).length = offset + piece.length := by
      rw [List.length_append, hlength]
    simp only [writeChunks, hresult, hchecked, hnext, ne_eq, not_true, if_false]
    rw [ih hnext, List.append_assoc]

section

variable (hplan : Plan tools args files stored parsed)
include hplan

theorem exists_planned {spec : FileSpec} (hspec : spec ∈ parsed.files) :
    ∃ file ∈ chunkedFiles args files, PlannedFile tools stored parsed.objects file spec := by
  obtain ⟨hlength, hget⟩ := List.forall₂_iff_get.mp hplan.files
  obtain ⟨k, hk, rfl⟩ := List.getElem_of_mem hspec
  exact ⟨_, List.getElem_mem (hlength ▸ hk), hget k (hlength ▸ hk) hk⟩

theorem exists_spec {file : String × SourceFile} (hfile : file ∈ chunkedFiles args files) :
    ∃ spec ∈ parsed.files, PlannedFile tools stored parsed.objects file spec := by
  obtain ⟨hlength, hget⟩ := List.forall₂_iff_get.mp hplan.files
  obtain ⟨k, hk, rfl⟩ := List.getElem_of_mem hfile
  exact ⟨_, List.getElem_mem (hlength ▸ hk), hget k hk (hlength ▸ hk)⟩

theorem map_relativePath :
    parsed.files.map (·.relativePath) = (chunkedFiles args files).map Prod.fst := by
  have hnames : List.Forall₂ (· = ·) ((chunkedFiles args files).map Prod.fst)
      (parsed.files.map (·.relativePath)) := by
    rw [List.forall₂_map_left_iff, List.forall₂_map_right_iff]
    exact hplan.files.imp fun _ _ hfile => hfile.relativePath.symm
  exact (List.forall₂_eq_eq_eq ▸ hnames :).symm

end

theorem separate_of_named (hnamed : Named files) : Separate (files.map Prod.fst) := by
  have hpackaged : ∀ name ∈ files.map Prod.fst, name ∈ kPackagedFiles := by
    intro name hname
    obtain ⟨file, hfile, rfl⟩ := List.mem_map.mp hname
    exact hnamed.packaged file hfile
  refine hnamed.nodup.imp_of_mem fun hfirst hsecond hne => ⟨hne, ?_, ?_⟩
  · exact ne_temporary_of_packaged (hpackaged _ hsecond) (.tail _ (hpackaged _ hfirst))
  · exact ne_temporary_of_packaged (hpackaged _ hfirst) (.tail _ (hpackaged _ hsecond))

/-- A chunked file is not in the base archive, and neither is its temporary file. -/
theorem not_mem_base (hnamed : Named files) {file : String × SourceFile}
    (hfile : file ∈ chunkedFiles args files) :
    file.1 ∉ (baseContents (baseFiles args files)).map Prod.fst ∧
      file.1 ++ ".partial" ∉ (baseContents (baseFiles args files)).map Prod.fst := by
  have hpackaged := hnamed.packaged file (List.mem_of_mem_filter hfile)
  have hmem : ∀ name ∈ (baseContents (baseFiles args files)).map Prod.fst,
      name = kInfoFile ∨ ∃ other ∈ baseFiles args files, name = other.1 := by
    intro name hname
    rw [baseContents, List.map_append, List.map_map, List.mem_append] at hname
    obtain hname | hname := hname
    · obtain ⟨other, hother, rfl⟩ := List.mem_map.mp hname
      exact .inr ⟨other, (List.mergeSort_perm _ _).mem_iff.mp hother, rfl⟩
    · exact .inl (List.mem_singleton.mp hname)
  constructor
  · intro hname
    obtain heq | ⟨other, hother, heq⟩ := hmem _ hname
    · exact (not_slash_of_packaged hpackaged).2.2.1 heq
    · have hsame : file = other := List.inj_on_of_nodup_map hnamed.nodup
        (List.mem_of_mem_filter hfile) (List.mem_of_mem_filter hother) heq
      have hchunked := (List.mem_filter.mp hfile).2
      rw [hsame] at hchunked
      have hbase := (List.mem_filter.mp hother).2
      rw [hchunked] at hbase
      cases hbase
  · intro hname
    obtain heq | ⟨other, hother, heq⟩ := hmem _ hname
    · exact ne_temporary_of_packaged hpackaged (.head _) heq.symm
    · exact ne_temporary_of_packaged hpackaged
        (.tail _ (hnamed.packaged other (List.mem_of_mem_filter hother))) heq.symm

section Extraction

variable (hnamed : Named files)
  (hplan : Plan tools args files stored parsed) (hextracts : Extracts tools args files contents env)
  (hcontents : ∀ index archive, stored archive →
    parsed.objects[index]? = some (specOf tools archive) →
      contents (env.localPath index) = some archive)

include hnamed hplan hextracts hcontents

theorem extractBaseObject_of_plan (hargs : Checked args)
    (hbase : stored (baseArchive tools args files)) {home : Location} {tree : Tree Bytes}
    (hvacant : Vacant tree env.destinationRoot home) : ∃ middle,
    extractBaseObject env parsed tree = (.ok (), middle) ∧
      Unpacked env.destinationRoot args.packageName (baseFiles args files) home middle := by
  have hnamed' : Named (baseFiles args files) := hnamed.filter _
  have hunpacked := unpack_of_vacant hargs.packageName hnamed' hvacant
  obtain ⟨result, hditto, hok⟩ :=
    hextracts.ditto _ tree home (hcontents _ _ hbase hplan.base) hvacant
  have hchecked : checkedTask "/usr/bin/ditto" result = .ok () := by
    rw [checkedTask, hok]
    rfl
  have hplain : isPlainDirectory
      (unpack home (baseEntries args.packageName (baseFiles args files)) tree)
      env.destinationRoot parsed.root = true := by
    rw [isPlainDirectory, hplan.root, hunpacked.outer.entry]
    exact isDirectory_iff.mpr ⟨true, hunpacked.room.directory⟩
  refine ⟨_, ?_, hunpacked⟩
  simp only [extractBaseObject, hditto, hchecked, hplain, if_true]

theorem reconstructFiles_of_plan {home : Location} {middle : Tree Bytes}
    (hmiddle : Unpacked env.destinationRoot args.packageName (baseFiles args files) home middle) :
    ∃ last, reconstructFiles env parsed parsed.files middle = (.ok (), last) ∧
      ∀ file ∈ files, readFile last (env.destinationRoot ++ [args.packageName]) file.1 =
        some file.2.bytes := by
  have hwritten : ∀ file spec, PlannedFile tools stored parsed.objects file spec →
      writeChunks env spec spec.chunks [] = (.ok (), file.2.bytes) := by
    intro file spec hplanned
    refine writeChunks_of_planned spec ?_ hplanned.chunks rfl
    intro index piece hstored hindex
    exact hextracts.unzip _ _ (hcontents index _ hstored hindex)
  have hspecs : ∀ spec ∈ parsed.files, Plain spec ∧ (env.calls spec).Succeed ∧
      writeChunks env spec spec.chunks [] = (.ok (), (writeChunks env spec spec.chunks []).2) ∧
      Matches env spec (writeChunks env spec spec.chunks []).2 := by
    intro spec hspec
    obtain ⟨file, hfile, hplanned⟩ := exists_planned hplan hspec
    have hpackaged := hnamed.packaged file (List.mem_of_mem_filter hfile)
    rw [hwritten file spec hplanned]
    refine ⟨?_, hextracts.calls spec, rfl, hplanned.size.symm, ?_⟩
    · rw [Plain, hplanned.relativePath]
      exact pathComponents_of_not_mem (not_slash_of_packaged hpackaged).1
    · rw [hextracts.sha256, hplanned.sha256]
  have hseparate : Separate (parsed.files.map (·.relativePath)) := by
    rw [map_relativePath hplan]
    exact separate_of_named (hnamed.filter _)
  have hfree : ∀ spec ∈ parsed.files,
      middle[home ++ [args.packageName] ++ [spec.relativePath]]? = none ∧
        middle[home ++ [args.packageName] ++ [spec.relativePath ++ ".partial"]]? = none := by
    intro spec hspec
    obtain ⟨file, hfile, hplanned⟩ := exists_planned hplan hspec
    obtain ⟨hname, htemporary⟩ := not_mem_base hnamed hfile
    rw [hplanned.relativePath]
    exact ⟨hmiddle.free _ hname, hmiddle.free _ htemporary⟩
  have hroom := hmiddle.room
  rw [← hplan.root] at hroom
  rw [← hplan.root] at hfree
  obtain ⟨last, hlast, hroom', hplaced, hothers⟩ :=
    reconstructFiles_of_room _ hspecs hseparate hroom hfree
  rw [hplan.root] at hroom' hplaced hothers
  refine ⟨last, hlast, fun file hfile => ?_⟩
  have hnode : last[home ++ [args.packageName] ++ [file.1]]? =
      some (.file file.2.bytes true) := by
    cases hchunked : isChunked args file with
    | true =>
      obtain ⟨spec, hspec, hplanned⟩ :=
        exists_spec hplan (List.mem_filter.mpr ⟨hfile, hchunked⟩)
      have hnode := hplaced spec hspec
      rw [hwritten file spec hplanned, hplanned.relativePath] at hnode
      exact hnode
    | false =>
      have hbase : file ∈ baseFiles args files :=
        List.mem_filter.mpr ⟨hfile, by rw [hchunked]; rfl⟩
      rw [hothers]
      · exact hmiddle.placed file hbase
      · intro spec hspec heq
        obtain ⟨other, hother, hplanned⟩ := exists_planned hplan hspec
        have hname : file.1 = other.1 :=
          ((List.cons.inj (List.append_cancel_left heq)).1).trans hplanned.relativePath
        exact (not_mem_base hnamed hother).1
          (hname ▸ List.mem_map_of_mem (f := Prod.fst) (mem_baseContents hbase))
  exact (locate_of_file (hroom'.entry file.1) hnode).2

end Extraction

/-- Packaging and importing again gives back every file, if the importer can read the chunk
size. SHA-256 tells the archives of the run and what an earlier run has left apart. -/
theorem package_round_trip {leftover objects : Objects} {manifest : Manifest}
    (hpackage : package tools args leftover = .ok (manifest, objects))
    (hfiles : sourceFiles args = .ok files)
    (hchunked : ∃ file ∈ files, isChunked args file = true) (hurl : args.baseUrl = "")
    (hsize : args.chunkSize < 2 ^ 63)
    (hfree : CollisionFree tools fun bytes =>
      IsArchive tools args files bytes ∨ ∃ hash : String, leftover[hash]? = some bytes)
    (hsized : Sized tools (IsArchive tools args files))
    (hbundle : ∀ object : ObjectRecord,
      contents ("/" ++ dir ++ "/" ++ object.path) = objects[object.sha256]?)
    (hextracts : Extracts tools args files contents env) {home : Location} {tree : Tree Bytes}
    (hvacant : Vacant tree env.destinationRoot home) (path cacheDir : String)
    (cached partials : ExtTreeMap String Entry) :
    ∃ parsed, parseManifest path (some (.ok manifest.json)) = .ok parsed ∧ parsed.baseUrl = "" ∧
      Available (acquisitionOf tools cacheDir dir parsed) contents ∧
      (∃ w, Acquired (acquisitionOf tools cacheDir dir parsed) contents cached partials w) ∧
      ∀ w, Acquired (acquisitionOf tools cacheDir dir parsed) contents cached partials w →
        ∃ last, extractChunkManifest { env with localPath := localPathOf w } path
            (some (.ok manifest.json)) (fun _ => w.result) tree = (.ok (), last) ∧
          ∀ file ∈ files, readFile last (env.destinationRoot ++ [args.packageName]) file.1 =
            some file.2.bytes := by
  have hargs := checkArguments_eq_ok (sourceFiles_eq_ok.mp hfiles).1
  have hnamed := named_of_sourceFiles hfiles
  have hsafe : ∀ file ∈ chunkedFiles args files,
      safeRelativePath file.1 = true ∧ 0 < file.2.bytes.length := by
    intro file hfile
    have hpackaged := hnamed.packaged file (List.mem_of_mem_filter hfile)
    have hlength := of_decide_eq_true (List.mem_filter.mp hfile).2
    have hpos := hargs.chunkThreshold
    exact ⟨(not_slash_of_packaged hpackaged).2.2.2, by omega⟩
  have hsome : chunkedFiles args files ≠ [] := by
    obtain ⟨file, hfile, hchunked⟩ := hchunked
    exact List.ne_nil_of_mem (List.mem_filter.mpr ⟨hfile, hchunked⟩)
  have hwritten := package_eq_ok hfiles hfree (fun _ => .inl)
    (fun hash _ hbytes => .inr ⟨hash, hbytes⟩) hpackage
  obtain ⟨parsed, hparse, hbaseUrl, hplan⟩ := parseManifest_of_written
    (fun a b ha hb => hfree a b (.inl ha.1) (.inl hb.1))
    ⟨hsized.digest, fun archive h => hsized.pos archive h.1, fun archive h => hsized.lt archive h.1⟩
    hwritten hargs hsize hsafe (hnamed.filter _).nodup hsome path
  have hcontents : ∀ archive, IsArchive tools args files archive ∧ Stores tools objects archive →
      contents (sourceOf dir (specOf tools archive)) = some archive := fun archive harchive =>
    (hbundle (recordOf tools archive)).trans harchive.2
  have havailable := available_of_plan cacheDir hplan hcontents
  have hstart := World.Fine.start (acquisitionOf tools cacheDir dir parsed) cached partials
  obtain ⟨steps, w, hjoins⟩ := hstart.joins havailable
  refine ⟨parsed, hparse, hbaseUrl.trans (hwritten.baseUrl hurl), havailable, ⟨w, steps, hjoins⟩, ?_⟩
  rintro w ⟨steps, hmeets, hrun, hjoined⟩
  have hfine : w.Fine (acquisitionOf tools cacheDir dir parsed) :=
    exec_guarded_invariant (fun _ _ _ hw hhonest hstep => hw.step havailable hhonest hstep)
      steps hstart hmeets hrun
  obtain ⟨fields, -, hsound⟩ := parseManifest_sound hparse
  have hinv : Inv (acquisitionOf tools cacheDir dir parsed) cached w :=
    Reachable.invariant (fun _ _ _ hs hstep => hs.step hsound.known.distinct hstep)
      (inv_start cached partials) ⟨steps, hrun⟩
  have hlocal : ∀ index archive,
      IsArchive tools args files archive ∧ Stores tools objects archive →
      parsed.objects[index]? = some (specOf tools archive) →
        contents (localPathOf w index) = some archive := by
    intro index archive harchive hindex
    rw [localPathOf_joined hinv hfine hjoined hindex]
    exact hcontents archive harchive
  have hextracts' : Extracts tools args files contents { env with localPath := localPathOf w } :=
    ⟨hextracts.sha256, hextracts.unzip, hextracts.ditto, hextracts.calls⟩
  obtain ⟨middle, hbase, hmiddle⟩ := extractBaseObject_of_plan hnamed hplan hextracts' hlocal
    hargs hwritten.archived hvacant
  obtain ⟨last, hlast, hread⟩ :=
    reconstructFiles_of_plan hnamed hplan hextracts' hlocal hmiddle
  exact ⟨last, extractChunkManifest_of_ok hparse hfine.result hbase hlast, hread⟩

end Import

namespace Sample

variable {files : List (String × SourceFile)}

/-- Only the metadata disk is cut, into one piece or more. -/
def bundled (chunkSize : Int) : Arguments :=
  { arguments 0 with chunkSize := chunkSize, chunkThreshold := 67108864 }

def isPiece : Bytes → Bool
  | 1 :: _ => true
  | _ => false

/-- Archives and hashes that tell a piece from a base archive. -/
def bundlers : Tools where
  sha256 := fun bytes =>
    if isPiece bytes then "ca978112ca1bbdcafac231b39a23dc4da786eff8147c4e72b9807785afee48bb"
    else "3e23e8160039594a33894f6564e1b1348bbd7a0088d42c4acb73eeaed59c009d"
  zip := fun
    | [.file _ content] => 1 :: content
    | _ => [0]

theorem length_disk : (disk 0).bytes.length = 67108864 := by
  dsimp only [disk]
  rw [length_content]

theorem sourceFiles_bundled {chunkSize : Int} (h : 0 < chunkSize) : ∃ files,
    sourceFiles (bundled chunkSize) = .ok files ∧ ("encryptionkey.img", disk 0) ∈ files ∧
      ∀ file ∈ files, isChunked (bundled chunkSize) file = true → file.2 = disk 0 := by
  obtain ⟨files, hfiles⟩ := sourceFiles_isOk 0 (.inl rfl)
  obtain ⟨-, image, himage, hvalid, hcollect⟩ := sourceFiles_eq_ok.mp hfiles
  cases himage
  have hargs : checkArguments (bundled chunkSize) = .ok () := by
    refine bind_eq_ok.mpr ⟨(), (by decide +kernel : validatePackageName "image" = .ok ()), ?_⟩
    simp [bundled, arguments, sourceDir, Int.not_le.mpr h]
  obtain ⟨required, -, hrequired, hperm⟩ := collectSourceFiles_perm hcollect
  have hsmall : ∀ name file, sourceDir.file name = some file → file.bytes = [1] := by
    intro name file hfile
    dsimp only [sourceDir] at hfile
    split at hfile <;> cases hfile
    rfl
  refine ⟨files, sourceFiles_eq_ok.mpr ⟨hargs, disk 0, rfl, hvalid, hcollect⟩,
    hperm.mem_iff.mpr (List.mem_append_right _ (List.mem_singleton_self _)), ?_⟩
  intro file hfile hchunked
  have hlength := of_decide_eq_true hchunked
  have hne : ∀ name file, sourceDir.file name = some file → ¬(67108864 : Int) ≤ file.bytes.length := by
    intro name file hfile
    rw [hsmall name file hfile]
    decide
  rw [hperm.mem_iff, List.mem_append, List.mem_append, List.mem_singleton] at hfile
  obtain (hfile | hfile) | rfl := hfile
  · exact (hne _ _ (hrequired file hfile) hlength).elim
  · exact (hne _ _ (mem_optionalFiles hfile).2 hlength).elim
  · rfl

section

variable (hdisk : ∀ file ∈ files, isChunked (bundled 67108864) file = true → file.2 = disk 0)
include hdisk

theorem isArchive_bundled {archive : Bytes}
    (h : IsArchive bundlers (bundled 67108864) files archive) :
    archive = [0] ∨ archive = 1 :: (disk 0).bytes := by
  obtain rfl | ⟨file, hfile, k, hk, rfl⟩ := h
  · exact .inl rfl
  · obtain ⟨hfile, hchunked⟩ := List.mem_filter.mp hfile
    have hsize : (bundled 67108864).chunkSize.toNat = 67108864 := rfl
    rw [hdisk file hfile hchunked, hsize] at hk ⊢
    rw [length_disk] at hk
    have hzero : k = 0 := by omega
    refine .inr (congrArg (1 :: ·) ?_)
    rw [hzero, Nat.zero_mul, Slice.readAt, List.drop_zero]
    exact List.take_of_length_le length_disk.le

theorem collisionFree_bundled :
    CollisionFree bundlers fun bytes => IsArchive bundlers (bundled 67108864) files bytes ∨
      ∃ hash : String, (∅ : Objects)[hash]? = some bytes := by
  have hcases : ∀ bytes, IsArchive bundlers (bundled 67108864) files bytes ∨
      (∃ hash : String, (∅ : Objects)[hash]? = some bytes) →
      bytes = [0] ∨ bytes = 1 :: (disk 0).bytes := by
    rintro bytes (harchive | ⟨hash, hbytes⟩)
    · exact isArchive_bundled hdisk harchive
    · rw [ExtTreeMap.getElem?_empty] at hbytes
      cases hbytes
  have hne : bundlers.sha256 [0] ≠ bundlers.sha256 (1 :: (disk 0).bytes) := by
    intro heq
    simp [bundlers, isPiece] at heq
  intro a b ha hb heq
  obtain rfl | rfl := hcases a ha
  · obtain rfl | rfl := hcases b hb
    · rfl
    · exact (hne heq).elim
  · obtain rfl | rfl := hcases b hb
    · exact (hne heq.symm).elim
    · rfl

theorem sized_bundled : Sized bundlers (IsArchive bundlers (bundled 67108864) files) := by
  refine ⟨fun bytes => ?_, fun archive harchive => ?_, fun archive harchive => ?_⟩
  · dsimp only [bundlers]
    split <;> decide
  · obtain rfl | rfl := isArchive_bundled hdisk harchive
    · decide
    · exact List.length_pos_of_ne_nil (List.cons_ne_nil _ _)
  · obtain rfl | rfl := isArchive_bundled hdisk harchive
    · decide
    · rw [List.length_cons, length_disk]
      decide

end

def bundle (objects : Objects) (path : String) : Option Bytes :=
  objects[String.ofList ((path.toList.drop 16).take ((path.toList.drop 16).length - 4))]?

theorem bundle_path (objects : Objects) (object : ObjectRecord) :
    bundle objects ("/" ++ "bundle" ++ "/" ++ object.path) = objects[object.sha256]? := by
  have hdrop : ("/" ++ "bundle" ++ "/" ++ object.path).toList.drop 16 =
      object.sha256.toList ++ ".zip".toList := by
    rw [ObjectRecord.path, ← String.append_assoc, ← String.append_assoc, String.toList_append,
      String.toList_append, List.append_assoc]
    rfl
  have hlength : (object.sha256.toList ++ ".zip".toList).length - 4 =
      object.sha256.toList.length := by
    rw [List.length_append]
    rfl
  rw [bundle, hdrop, hlength, List.take_left, String.ofList_toList]

def importer (files : List (String × SourceFile)) (objects : Objects) :
    ImageReconstruction.Setting where
  sha256 := bundlers.sha256
  destinationRoot := ["out"]
  localPath := fun _ => ""
  unzip := fun path _ =>
    match bundle objects path with
    | some (_ :: content) => (⟨true, 0, ""⟩, content)
    | _ => (⟨true, 9, ""⟩, [])
  ditto := fun _ tree =>
    (⟨true, 0, ""⟩, unpack ((resolve tree ["out"]).getD [])
      (baseEntries "image" (baseFiles (bundled 67108864) files)) tree)
  calls := fun _ => ⟨true, true, .complete, true, true, ""⟩

theorem extracts_bundled (files : List (String × SourceFile)) (objects : Objects) :
    Extracts bundlers (bundled 67108864) files (bundle objects) (importer files objects) := by
  refine ⟨rfl, fun path content hpath => ?_, fun path tree home hpath hvacant => ?_,
    fun _ => ⟨rfl, rfl, rfl, rfl, rfl⟩⟩
  · refine ⟨⟨true, 0, ""⟩, ?_, rfl⟩
    simp only [importer, hpath]
    rfl
  · refine ⟨⟨true, 0, ""⟩, ?_, rfl⟩
    have hresolved : resolve tree ["out"] = some home := hvacant.resolved
    simp only [importer, hresolved]
    rfl

def destination : Tree Bytes := (∅ : Tree Bytes).insert ["out"] (.directory true)

theorem vacant_destination : Vacant destination ["out"] ["out"] := by
  refine ⟨⟨by decide +kernel, ExtTreeMap.getElem?_insert_self⟩, fun names hne => ?_⟩
  have hplace : compare ["out"] (["out"] ++ names) ≠ .eq := fun hcmp =>
    hne (List.append_right_eq_self.mp (Std.compare_eq_iff_eq.mp hcmp).symm)
  rw [destination, ExtTreeMap.getElem?_insert, if_neg hplace, ExtTreeMap.getElem?_empty]

end Sample

theorem package_round_trip_disk : ∃ manifest objects files parsed w last,
    package Sample.bundlers (Sample.bundled 67108864) ∅ = .ok (manifest, objects) ∧
      parseManifest "manifest.json" (some (.ok manifest.json)) = .ok parsed ∧
      Acquired (acquisitionOf Sample.bundlers "cache" "bundle" parsed) (Sample.bundle objects) ∅ ∅ w ∧
      extractChunkManifest { Sample.importer files objects with localPath := localPathOf w }
          "manifest.json" (some (.ok manifest.json)) (fun _ => w.result) Sample.destination =
        (.ok (), last) ∧
      readFile last ["out", "image"] "encryptionkey.img" = some (Sample.disk 0).bytes := by
  obtain ⟨files, hfiles, hmem, hdisk⟩ := Sample.sourceFiles_bundled (show (0 : Int) < 67108864 by decide)
  obtain ⟨⟨manifest, objects⟩, hpackage⟩ := package_isOk Sample.bundlers hfiles ∅
  have hchunked : isChunked (Sample.bundled 67108864) ("encryptionkey.img", Sample.disk 0) = true := by
    rw [isChunked, Sample.length_disk]
    decide
  obtain ⟨parsed, hparse, -, -, ⟨w, hw⟩, hextract⟩ := package_round_trip hpackage hfiles
    ⟨_, hmem, hchunked⟩ rfl (by decide) (Sample.collisionFree_bundled hdisk)
    (Sample.sized_bundled hdisk) (Sample.bundle_path objects)
    (Sample.extracts_bundled files objects) Sample.vacant_destination "manifest.json" "cache" ∅ ∅
  obtain ⟨last, hlast, hread⟩ := hextract w hw
  exact ⟨manifest, objects, files, parsed, w, last, hpackage, hparse, hw, hlast, hread _ hmem⟩

/-- The packager takes a chunk size that the importer refuses to read. -/
theorem package_not_importable : ∃ manifest objects,
    package Sample.bundlers (Sample.bundled (2 ^ 63)) ∅ = .ok (manifest, objects) ∧
      (∃ files, sourceFiles (Sample.bundled (2 ^ 63)) = .ok files ∧
        ∃ file ∈ files, isChunked (Sample.bundled (2 ^ 63)) file = true) ∧
      ∀ path, parseManifest path (some (.ok manifest.json)) =
        .error "manifest field is not a non-negative integer: chunk_size" := by
  obtain ⟨files, hfiles, hmem, -⟩ := Sample.sourceFiles_bundled (show (0 : Int) < 2 ^ 63 by decide)
  obtain ⟨⟨manifest, objects⟩, hpackage⟩ := package_isOk Sample.bundlers hfiles ∅
  have hchunked : isChunked (Sample.bundled (2 ^ 63)) ("encryptionkey.img", Sample.disk 0) = true := by
    rw [isChunked, Sample.length_disk]
    decide
  have hsize : manifest.chunkSize = 2 ^ 63 := by
    obtain ⟨_, -, hrest⟩ := bind_eq_ok.mp hpackage
    obtain ⟨_, -, hrest⟩ := bind_eq_ok.mp hrest
    cases hrest
    rfl
  exact ⟨manifest, objects, hpackage, ⟨files, hfiles, _, hmem, hchunked⟩,
    parseManifest_of_large hsize.ge⟩

end Packager
end MacMu
