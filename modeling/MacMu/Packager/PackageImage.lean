import MacMu.Core.SystemImage
import MacMu.Packager.ManifestRecords
import Std.Data.ExtTreeMap

/-!
`package_aosp16_chunked.py`: what is packaged, how it is cut into chunks, and the
objects and the manifest that come of it. The archives and SHA-256 are
parameters: an archive depends on its entries only, as the script fixes times and
modes. The files do not change while they are read. Stale temporary files, the
digest of the manifest and what is printed are left out.
-/

namespace MacMu
namespace Packager

open Slice Std SystemImage

variable {dir : SourceDir} {names : List String} {files : List (String × SourceFile)}

/-- A regular file as the script reads it. The system counts its bytes in 63 bits. -/
structure SourceFile where
  path : String
  bytes : Bytes
  length_lt : bytes.length < 2 ^ 63

/-- The source directory and what its names lead to if that is a regular file. -/
structure SourceDir where
  path : String
  isDir : Bool
  file : String → Option SourceFile

structure Arguments where
  sourceDir : SourceDir
  metadataImage : Option (String × Option SourceFile)
  packageName : String
  baseUrl : String
  chunkSize : Int
  chunkThreshold : Int

inductive ZipEntry where
  | directory (name : String)
  | file (name : String) (content : Bytes)
  deriving DecidableEq, Repr

structure Tools where
  sha256 : Bytes → String
  zip : List ZipEntry → Bytes

/-- The content of `objects`, each file by its hash. -/
abbrev Objects := ExtTreeMap String Bytes

def kRequiredFiles : List String :=
  ["advancedFeatures.ini", "android-info.txt", "VerifiedBootParams.textproto", "kernel-ranchu",
    "ramdisk.img", "system-qemu.img", "userdata.img", "vendor-qemu.img", "vendor_boot.img"]

def kOptionalFiles : List String :=
  ["build.prop", "dtb.img", "fstab.ranchu", "kernel_cmdline.txt", "system-qemu-config.txt"]

def kImageInfo : String :=
  "format=1\nproduct=macmu_sdk_phone64_arm64\ndevice=emu64a\nvariant=user\napi=36\n"

def startsWith (value head : String) : Bool := head.toList.isPrefixOf value.toList

/-- `rstrip("/")` -/
def stripSlashes (value : String) : String :=
  String.ofList (value.toList.reverse.dropWhile (· == '/')).reverse

/-- `source_dir / name` -/
def SourceDir.join (dir : SourceDir) (name : String) : String :=
  if dir.path = "/" then "/" ++ name else dir.path ++ "/" ++ name

def validatePackageName (name : String) : Except String Unit :=
  if name = "" ∨ name = "." ∨ name = ".." ∨ '/' ∈ name.toList ∨ '\\' ∈ name.toList then
    .error "--package-name must be a single directory name"
  else .ok ()

def validateMetadataImage (image : SourceFile) : Except String Unit :=
  if image.bytes.length ≠ 64 * 1024 * 1024 then
    .error ("metadata image must be exactly 64 MiB: " ++ image.path)
  else if readAt image.bytes 512 8 ≠ efiPart then
    .error ("metadata image does not contain a GPT header: " ++ image.path)
  else if readAt image.bytes 1080 16 ≠ utf16le metadataText then
    .error ("metadata image first GPT partition is not named metadata: " ++ image.path)
  else if readAt image.bytes 1049656 2 ≠ ext4Magic then
    .error ("metadata partition is not ext4: " ++ image.path)
  else if readAt image.bytes 1049720 8 ≠ metadataText then
    .error ("metadata ext4 filesystem is not labelled metadata: " ++ image.path)
  else .ok ()

def chooseMetadataImage (args : Arguments) : Except String SourceFile :=
  match args.metadataImage with
  | some (_, some image) => .ok image
  | some (path, none) => .error ("metadata image does not exist: " ++ path)
  | none =>
    match args.sourceDir.file "encryptionkey.img", args.sourceDir.file "metadata.img" with
    | some image, _ => .ok image
    | none, some image => .ok image
    | none, none =>
      .error
        "missing encryptionkey.img; create it with scripts/create_android16_metadata_image.sh"

/-- The files of a directory under the given names, all of which have to be there. -/
def requireFiles (dir : SourceDir) : List String → Except String (List (String × SourceFile))
  | [] => .ok []
  | name :: names =>
    match dir.file name with
    | none => .error ("missing required image file: " ++ dir.join name)
    | some file => do
      let files ← requireFiles dir names
      .ok ((name, file) :: files)

def optionalFiles (dir : SourceDir) (names : List String) : List (String × SourceFile) :=
  names.filterMap fun name => (dir.file name).map fun file => (name, file)

/-- `sorted`; no name is there twice, so that the paths do not matter. -/
def sortByName (files : List (String × SourceFile)) : List (String × SourceFile) :=
  files.mergeSort fun a b => decide (a.1 ≤ b.1)

def collectSourceFiles (dir : SourceDir) (metadataImage : SourceFile) :
    Except String (List (String × SourceFile)) := do
  let files ← requireFiles dir kRequiredFiles
  .ok (sortByName (files ++ optionalFiles dir kOptionalFiles ++
    [("encryptionkey.img", metadataImage)]))

variable (tools : Tools)

/-- The archive is complete. An object of its name stays if it has its size and
hash. -/
def finalizeObject (archive : Bytes) (objects : Objects) : ObjectRecord × Objects :=
  let objectSha256 := tools.sha256 archive
  let objects :=
    match objects[objectSha256]? with
    | some previous =>
      if previous.length = archive.length ∧ tools.sha256 previous = objectSha256 then objects
      else objects.insert objectSha256 archive
    | none => objects.insert objectSha256 archive
  (⟨(objects[objectSha256]?.getD []).length, objectSha256⟩, objects)

def baseEntries (packageName : String) (baseFiles : List (String × SourceFile)) : List ZipEntry :=
  .directory (stripSlashes packageName ++ "/") ::
    (sortByName baseFiles).map (fun file => .file (packageName ++ "/" ++ file.1) file.2.bytes) ++
    [.file (packageName ++ "/macmu-image-info.txt") kImageInfo.toUTF8.toList]

def buildBaseObject (packageName : String) (baseFiles : List (String × SourceFile))
    (objects : Objects) : ObjectRecord × Objects :=
  finalizeObject tools (tools.zip (baseEntries packageName baseFiles)) objects

/-- The next `size` bytes of a source become an object; what is left of the source
is returned too. -/
def buildChunkObject (source : Bytes) (offset size : Nat) (objects : Objects) :
    Except String (ChunkRecord × Bytes × Objects) :=
  if source.length < size then .error "source image changed or ended while it was being packaged"
  else
    let payload := source.take size
    let (object, objects) := finalizeObject tools (tools.zip [.file kZipEntryName payload]) objects
    .ok (⟨offset, size, tools.sha256 payload, object⟩, source.drop size, objects)

/-- The loop over the chunks of a file. Each one has a byte at least, so that as
many steps as the file has bytes are enough. -/
def cutFile (chunkSize fileSize : Nat) :
    Nat → Nat → Bytes → Objects → Except String (List ChunkRecord × Objects)
  | 0, _, _, objects => .ok ([], objects)
  | steps + 1, offset, source, objects =>
    if offset < fileSize then do
      let size := min chunkSize (fileSize - offset)
      let (chunk, source, objects) ← buildChunkObject tools source offset size objects
      let (chunks, objects) ← cutFile chunkSize fileSize steps (offset + size) source objects
      .ok (chunk :: chunks, objects)
    else .ok ([], objects)

def packageFile (chunkSize : Nat) (name : String) (file : SourceFile) (objects : Objects) :
    Except String (FileRecord × Objects) := do
  let fileSize := file.bytes.length
  let (chunks, objects) ← cutFile tools chunkSize fileSize fileSize 0 file.bytes objects
  .ok (⟨name, fileSize, tools.sha256 file.bytes, chunks⟩, objects)

def packageFiles (chunkSize : Nat) :
    List (String × SourceFile) → Objects → Except String (List FileRecord × Objects)
  | [], objects => .ok ([], objects)
  | (name, file) :: files, objects => do
    let (record, objects) ← packageFile tools chunkSize name file objects
    let (records, objects) ← packageFiles chunkSize files objects
    .ok (record :: records, objects)

def checkArguments (args : Arguments) : Except String Unit := do
  validatePackageName args.packageName
  if args.sourceDir.isDir = false then
    .error ("source directory does not exist: " ++ args.sourceDir.path)
  else if args.chunkSize ≤ 0 then .error "--chunk-size-mib must be greater than zero"
  else if args.chunkThreshold ≤ 0 then .error "--chunk-threshold-mib must be greater than zero"
  else if args.baseUrl ≠ "" ∧ startsWith args.baseUrl "https://" = false then
    .error "--base-url must use HTTPS"
  else .ok ()

def sourceFiles (args : Arguments) : Except String (List (String × SourceFile)) := do
  checkArguments args
  let metadataImage ← chooseMetadataImage args
  validateMetadataImage metadataImage
  collectSourceFiles args.sourceDir metadataImage

def isChunked (args : Arguments) (file : String × SourceFile) : Bool :=
  args.chunkThreshold ≤ (file.2.bytes.length : Int)

/-- `package`; `objects` is what an earlier run has left there. -/
def package (args : Arguments) (objects : Objects) : Except String (Manifest × Objects) := do
  let files ← sourceFiles args
  let (base, objects) :=
    buildBaseObject tools args.packageName (files.filter (!isChunked args ·)) objects
  let (records, objects) ←
    packageFiles tools args.chunkSize.toNat (files.filter (isChunked args)) objects
  let baseUrl := if args.baseUrl = "" then "" else stripSlashes args.baseUrl ++ "/"
  .ok (⟨args.packageName, args.chunkSize.toNat, baseUrl, base, records⟩, objects)

theorem requireFiles_eq_ok (h : requireFiles dir names = .ok files) :
    files.map Prod.fst = names ∧ ∀ file ∈ files, dir.file file.1 = some file.2 := by
  induction names generalizing files with
  | nil =>
    cases h
    exact ⟨rfl, nofun⟩
  | cons name names ih =>
    unfold requireFiles at h
    split at h
    · cases h
    · rename_i file hfile
      obtain ⟨rest, hrest, h⟩ := ImageManifest.bind_eq_ok.mp h
      cases h
      obtain ⟨hnames, hfiles⟩ := ih hrest
      exact ⟨by rw [List.map_cons, hnames], List.forall_mem_cons.mpr ⟨hfile, hfiles⟩⟩

theorem mem_optionalFiles {file : String × SourceFile} (h : file ∈ optionalFiles dir names) :
    file.1 ∈ names ∧ dir.file file.1 = some file.2 := by
  obtain ⟨name, hname, hfile⟩ := List.mem_filterMap.mp h
  obtain ⟨found, hfound, rfl⟩ := Option.map_eq_some_iff.mp hfile
  exact ⟨hname, hfound⟩

theorem requireFiles_isOk (h : ∀ name ∈ names, (dir.file name).isSome) :
    ∃ files, requireFiles dir names = .ok files := by
  induction names with
  | nil => exact ⟨[], rfl⟩
  | cons name names ih =>
    obtain ⟨hname, hnames⟩ := List.forall_mem_cons.mp h
    obtain ⟨file, hfile⟩ := Option.isSome_iff_exists.mp hname
    obtain ⟨files, hfiles⟩ := ih hnames
    refine ⟨(name, file) :: files, ?_⟩
    rw [requireFiles, hfile]
    exact ImageManifest.bind_eq_ok.mpr ⟨files, hfiles, rfl⟩

theorem collectSourceFiles_perm {image : SourceFile} (h : collectSourceFiles dir image = .ok files) :
    ∃ required, required.map Prod.fst = kRequiredFiles ∧
      (∀ file ∈ required, dir.file file.1 = some file.2) ∧
      files.Perm (required ++ optionalFiles dir kOptionalFiles ++ [("encryptionkey.img", image)]) := by
  obtain ⟨required, hrequired, h⟩ := ImageManifest.bind_eq_ok.mp h
  cases h
  obtain ⟨hnames, hlisted⟩ := requireFiles_eq_ok hrequired
  exact ⟨required, hnames, hlisted, List.mergeSort_perm _ _⟩

theorem sourceFiles_eq_ok {args : Arguments} :
    sourceFiles args = .ok files ↔
      checkArguments args = .ok () ∧ ∃ image, chooseMetadataImage args = .ok image ∧
        validateMetadataImage image = .ok () ∧
        collectSourceFiles args.sourceDir image = .ok files := by
  constructor
  · intro h
    obtain ⟨_, hargs, h⟩ := ImageManifest.bind_eq_ok.mp h
    obtain ⟨image, himage, h⟩ := ImageManifest.bind_eq_ok.mp h
    obtain ⟨_, hvalid, h⟩ := ImageManifest.bind_eq_ok.mp h
    exact ⟨hargs, image, himage, hvalid, h⟩
  · rintro ⟨hargs, image, himage, hvalid, h⟩
    exact ImageManifest.bind_eq_ok.mpr ⟨(), hargs, ImageManifest.bind_eq_ok.mpr
      ⟨image, himage, ImageManifest.bind_eq_ok.mpr ⟨(), hvalid, h⟩⟩⟩

theorem validateMetadataImage_eq_ok {image : SourceFile} :
    validateMetadataImage image = .ok () ↔
      image.bytes.length = 64 * 1024 * 1024 ∧ readAt image.bytes 512 8 = efiPart ∧
        readAt image.bytes 1080 16 = utf16le metadataText ∧
        readAt image.bytes 1049656 2 = ext4Magic ∧
        readAt image.bytes 1049720 8 = metadataText := by
  unfold validateMetadataImage
  split_ifs with hsize hefi hname hmagic hlabel
  · exact ⟨nofun, fun h => absurd h.1 hsize⟩
  · exact ⟨nofun, fun h => absurd h.2.1 hefi⟩
  · exact ⟨nofun, fun h => absurd h.2.2.1 hname⟩
  · exact ⟨nofun, fun h => absurd h.2.2.2.1 hmagic⟩
  · exact ⟨nofun, fun h => absurd h.2.2.2.2 hlabel⟩
  · exact ⟨fun _ => ⟨not_ne_iff.mp hsize, not_ne_iff.mp hefi, not_ne_iff.mp hname,
      not_ne_iff.mp hmagic, not_ne_iff.mp hlabel⟩, fun _ => rfl⟩

theorem cutFile_isOk {chunkSize fileSize steps offset : Nat} {source : Bytes} {objects : Objects}
    (h : offset + source.length = fileSize) :
    ∃ result, cutFile tools chunkSize fileSize steps offset source objects = .ok result := by
  induction steps generalizing offset source objects with
  | zero => exact ⟨_, rfl⟩
  | succ steps ih =>
    unfold cutFile
    split
    · generalize hsize : min chunkSize (fileSize - offset) = size
      have hroom : ¬source.length < size := by omega
      obtain ⟨⟨chunk, rest, objects'⟩, hbuild, hrest⟩ : ∃ built : ChunkRecord × Bytes × Objects,
          buildChunkObject tools source offset size objects = .ok built ∧
            built.2.1 = source.drop size := ⟨_, if_neg hroom, rfl⟩
      dsimp only at hrest
      obtain ⟨result, hresult⟩ : ∃ result,
          cutFile tools chunkSize fileSize steps (offset + size) rest objects' = .ok result := by
        refine ih ?_
        rw [hrest, List.length_drop]
        omega
      exact ⟨_, ImageManifest.bind_eq_ok.mpr ⟨_, hbuild,
        ImageManifest.bind_eq_ok.mpr ⟨result, hresult, rfl⟩⟩⟩
    · exact ⟨_, rfl⟩

theorem packageFiles_isOk (chunkSize : Nat) (files : List (String × SourceFile))
    (objects : Objects) : ∃ result, packageFiles tools chunkSize files objects = .ok result := by
  induction files generalizing objects with
  | nil => exact ⟨_, rfl⟩
  | cons file files ih =>
    obtain ⟨⟨chunks, objects'⟩, hcut⟩ : ∃ result, cutFile tools chunkSize file.2.bytes.length
        file.2.bytes.length 0 file.2.bytes objects = .ok result :=
      cutFile_isOk tools (Nat.zero_add _)
    obtain ⟨result, hrest⟩ := ih ..
    exact ⟨_, ImageManifest.bind_eq_ok.mpr ⟨_, ImageManifest.bind_eq_ok.mpr ⟨_, hcut, rfl⟩,
      ImageManifest.bind_eq_ok.mpr ⟨result, hrest, rfl⟩⟩⟩

theorem package_isOk {args : Arguments} (h : sourceFiles args = .ok files) (objects : Objects) :
    ∃ output, package tools args objects = .ok output := by
  obtain ⟨result, hresult⟩ := packageFiles_isOk tools args.chunkSize.toNat
    (files.filter (isChunked args))
    (buildBaseObject tools args.packageName (files.filter (!isChunked args ·)) objects).2
  exact ⟨_, ImageManifest.bind_eq_ok.mpr ⟨files, h,
    ImageManifest.bind_eq_ok.mpr ⟨result, hresult, rfl⟩⟩⟩

end Packager
end MacMu
