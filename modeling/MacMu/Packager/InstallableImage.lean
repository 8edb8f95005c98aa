import MacMu.Packager.PackageImage

/-!
Whether the installer takes what the packager has accepted. Both look for the same
nine files. Of the metadata image the packager checks the size and the bytes at
four fixed offsets, while the installer follows the partition entry to the
superblock and asks both names to end where they should.
-/

namespace MacMu
namespace Packager

open ImageManifest LittleEndian Slice SystemImage

def firstLba (image : Bytes) : Nat := decode (readAt image 1056 8)

def lastLba (image : Bytes) : Nat := decode (readAt image 1064 8)

def superblock (image : Bytes) : Nat := firstLba image * 512 + 1024

/-- What the installer asks of an image of 64 MiB besides the header and the
letters of the partition name. -/
structure Bootable (image : Bytes) : Prop where
  first_pos : 0 < firstLba image
  first_le : firstLba image ≤ lastLba image
  last_lt : lastLba image < 131072
  terminated : readAt image 1096 2 = [0, 0]
  room : superblock image + 136 ≤ 64 * 1024 * 1024
  magic : readAt image (superblock image + 56) 2 = ext4Magic
  label : readAt image (superblock image + 120) 8 = metadataText
  labelEnd : readAt image (superblock image + 128) 1 = [0]

variable {image : Bytes}

theorem hasUtf16leName_entry (hlength : image.length = 64 * 1024 * 1024) :
    hasUtf16leName ((readAt image kGptFirstEntryOffset kGptEntrySize).drop kGptPartitionNameOffset)
        metadataText = true ↔
      readAt image 1080 16 = utf16le metadataText ∧ readAt image 1096 2 = [0, 0] := by
  have hentry : (readAt image kGptFirstEntryOffset kGptEntrySize).drop kGptPartitionNameOffset =
      readAt image 1080 72 := drop_readAt
  have hroom : (readAt image 1080 72).length = 72 := length_readAt (by omega)
  have hname : readAt (readAt image 1080 72) 0 (metadataText.length * 2) = readAt image 1080 16 :=
    readAt_readAt (by decide)
  have hend : readAt (readAt image 1080 72) (metadataText.length * 2) 2 = readAt image 1096 2 :=
    readAt_readAt (by decide)
  rw [hentry, hasUtf16leName, if_neg (by rw [hroom]; decide), hname, hend, Bool.and_eq_true,
    beq_iff_eq, beq_iff_eq]

theorem holdsMetadata_iff {offset : Nat} :
    holdsMetadata image offset = true ↔
      offset + 136 ≤ image.length ∧ readAt image (offset + 56) 2 = ext4Magic ∧
        readAt image (offset + 120) 8 = metadataText ∧ readAt image (offset + 128) 1 = [0] := by
  by_cases hroom : offset + 136 ≤ image.length
  · have hmagic : readExactAt image (offset + kExt4MagicOffset) 2 =
        some (readAt image (offset + 56) 2) := readExactAt_of_le (by change offset + 56 + 2 ≤ _; omega)
    have hname : readExactAt image (offset + kExt4VolumeNameOffset) 16 =
        some (readAt image (offset + 120) 16) := readExactAt_of_le hroom
    have hlabel : readAt (readAt image (offset + 120) 16) 0 8 = readAt image (offset + 120) 8 :=
      readAt_readAt (by decide)
    have hend : readAt (readAt image (offset + 120) 16) 8 1 = readAt image (offset + 128) 1 :=
      readAt_readAt (by decide)
    have hlong : ¬image.length < offset + kExt4VolumeNameOffset + 16 := Nat.not_lt.mpr hroom
    rw [holdsMetadata, if_neg hlong, hmagic, hname]
    simp [hlabel, hend, hroom]
  · have hshort : image.length < offset + kExt4VolumeNameOffset + 16 := Nat.not_le.mp hroom
    rw [holdsMetadata, if_pos hshort]
    simp [hroom]

theorem metadataDisk_iff (hlength : image.length = 64 * 1024 * 1024) :
    metadataDisk image = true ↔
      readAt image 512 8 = efiPart ∧ readAt image 1080 16 = utf16le metadataText ∧
        Bootable image := by
  have hfirst : readAt (readAt image kGptFirstEntryOffset kGptEntrySize) kGptFirstLbaOffset 8 =
      readAt image 1056 8 := readAt_readAt (by decide)
  have hlast : readAt (readAt image kGptFirstEntryOffset kGptEntrySize) kGptLastLbaOffset 8 =
      readAt image 1064 8 := readAt_readAt (by decide)
  have hheader : readExactAt image kGptHeaderOffset 8 = some (readAt image 512 8) :=
    readExactAt_of_le (by rw [hlength]; decide)
  have hentry : readExactAt image kGptFirstEntryOffset kGptEntrySize =
      some (readAt image kGptFirstEntryOffset kGptEntrySize) :=
    readExactAt_of_le (by rw [hlength]; decide)
  have hsize : image.length / kDiskSectorSize = 131072 := by rw [hlength]; rfl
  have hname := hasUtf16leName_entry hlength
  have hrest := @holdsMetadata_iff image (superblock image)
  rw [hlength] at hrest
  rw [metadataDisk, if_neg (by rw [hlength]; decide), hheader, hentry]
  dsimp only
  rw [hfirst, hlast, hsize]
  constructor
  · intro h
    split at h
    · cases h
    rename_i hefi
    split at h
    · cases h
    rename_i hbounds
    simp only [not_or, Nat.not_lt, Nat.not_le, Bool.not_eq_false] at hbounds
    obtain ⟨hpos, hle, -, hlt, hnamed⟩ := hbounds
    obtain ⟨hletters, hterminated⟩ := hname.mp hnamed
    obtain ⟨hroom, hmagic, hlabel, hend⟩ := hrest.mp h
    exact ⟨Option.some.inj (not_ne_iff.mp hefi), hletters, Nat.pos_of_ne_zero hpos, hle, hlt,
      hterminated, hroom, hmagic, hlabel, hend⟩
  · rintro ⟨hefi, hletters, h⟩
    have hnamed := hname.mpr ⟨hletters, h.terminated⟩
    rw [if_neg (not_not_intro (congrArg some hefi)), if_neg]
    · exact hrest.mpr ⟨h.room, h.magic, h.label, h.labelEnd⟩
    · rintro (hzero | hless | hfar | hfar | hother)
      · exact absurd hzero (Nat.ne_of_gt h.first_pos)
      · exact absurd h.first_le (Nat.not_le.mpr hless)
      · exact absurd (Nat.lt_of_le_of_lt h.first_le h.last_lt) (Nat.not_lt.mpr hfar)
      · exact absurd h.last_lt (Nat.not_lt.mpr hfar)
      · rw [hnamed] at hother
        cases hother

def Reproduced (args : Arguments) (directory : String → Option Bytes) : Prop :=
  ∀ files, sourceFiles args = .ok files →
    ∀ file ∈ files, directory file.1 = some file.2.bytes

theorem metadataDisk_iff_bootable {image : SourceFile}
    (hvalid : validateMetadataImage image = .ok ()) :
    metadataDisk image.bytes = true ↔ Bootable image.bytes := by
  obtain ⟨hlength, hefi, hname, -, -⟩ := validateMetadataImage_eq_ok.mp hvalid
  rw [metadataDisk_iff hlength]
  exact ⟨fun h => h.2.2, fun h => ⟨hefi, hname, h⟩⟩

theorem Reproduced.isSome {args : Arguments} {directory : String → Option Bytes}
    {files required : List (String × SourceFile)} {image : SourceFile}
    (h : Reproduced args directory) (hfiles : sourceFiles args = .ok files)
    (hrequired : required.map Prod.fst = kRequiredFiles)
    (hperm : files.Perm (required ++ optionalFiles args.sourceDir kOptionalFiles ++
      [("encryptionkey.img", image)])) :
    SystemImage.kRequiredFiles.all (fun name => (directory name).isSome) = true := by
  refine List.all_eq_true.mpr fun name hname => ?_
  have hlisted : name ∈ required.map Prod.fst := by
    rw [hrequired]
    exact hname
  obtain ⟨file, hfile, rfl⟩ := List.mem_map.mp hlisted
  rw [h files hfiles file (hperm.mem_iff.mpr (List.mem_append_left _ (List.mem_append_left _ hfile)))]
  rfl

theorem packaged_image_installable_iff (tools : Tools) (args : Arguments) (objects : Objects)
    {output : Manifest × Objects} (hpackage : package tools args objects = .ok output)
    (directory : String → Option Bytes) (hreproduced : Reproduced args directory) :
    ∃ image, chooseMetadataImage args = .ok image ∧
      (metadataDisk image.bytes = true ↔ Bootable image.bytes) ∧
      (systemImageExistsAt metadataDisk directory = true ↔ Bootable image.bytes) := by
  obtain ⟨files, hfiles, -⟩ := bind_eq_ok.mp hpackage
  obtain ⟨-, image, himage, hvalid, hcollect⟩ := sourceFiles_eq_ok.mp hfiles
  obtain ⟨required, hrequired, -, hperm⟩ := collectSourceFiles_perm hcollect
  have hdisk := metadataDisk_iff_bootable hvalid
  have hkey : directory kMetadataDisk = some image.bytes :=
    hreproduced files hfiles (kMetadataDisk, image) (hperm.mem_iff.mpr
      (List.mem_append_right _ (List.mem_singleton.mpr rfl)))
  refine ⟨image, himage, hdisk, ?_⟩
  rw [systemImageExistsAt, hreproduced.isSome hfiles hrequired hperm, hkey, Bool.true_and]
  exact hdisk

namespace Sample

/-- The byte at a place of a disk that is zero apart from some pieces. -/
def byteAt (pieces : List (Nat × Bytes)) (place : Nat) : UInt8 :=
  (pieces.findSome? fun piece =>
    if piece.1 ≤ place then piece.2[place - piece.1]? else none).getD 0

/-- A partition from sector 2048 on whose name goes on with `tail`. -/
def pieces (tail : UInt8) : List (Nat × Bytes) :=
  [(512, efiPart), (1056, encode 8 2048), (1064, encode 8 131038),
    (1080, utf16le metadataText ++ [tail, 0]), (1049656, ext4Magic), (1049720, metadataText)]

def content (tail : UInt8) (length : Nat) : Bytes := (List.range length).map (byteAt (pieces tail))

theorem length_content (tail : UInt8) (length : Nat) : (content tail length).length = length :=
  (List.length_map _).trans List.length_range

theorem readAt_content (tail : UInt8) {length offset size : Nat} (h : offset + size ≤ length) :
    readAt (content tail length) offset size =
      (List.range' offset size).map (byteAt (pieces tail)) :=
  readAt_map_range h

def disk (tail : UInt8) : SourceFile where
  path := "metadata.img"
  bytes := content tail (64 * 1024 * 1024)
  length_lt := by
    rw [length_content]
    decide

def sourceDir : SourceDir where
  path := "/images"
  isDir := true
  file := fun name =>
    if name ∈ kRequiredFiles then some ⟨"/images/" ++ name, [1], by decide⟩ else none

def arguments (tail : UInt8) : Arguments where
  sourceDir := sourceDir
  metadataImage := some ("metadata.img", some (disk tail))
  packageName := "image"
  baseUrl := ""
  chunkSize := 1048576
  chunkThreshold := 1048576

def directory (tail : UInt8) (name : String) : Option Bytes :=
  if name = "encryptionkey.img" then some (disk tail).bytes
  else (sourceDir.file name).map (·.bytes)

theorem disk_valid (tail : UInt8) (h : tail = 0 ∨ tail = 0x32) :
    validateMetadataImage (disk tail) = .ok () := by
  rw [validateMetadataImage_eq_ok]
  dsimp only [disk]
  rw [length_content, readAt_content tail (by decide), readAt_content tail (by decide),
    readAt_content tail (by decide), readAt_content tail (by decide)]
  obtain rfl | rfl := h <;> decide +kernel

theorem sourceFiles_isOk (tail : UInt8) (h : tail = 0 ∨ tail = 0x32) :
    ∃ files, sourceFiles (arguments tail) = .ok files := by
  obtain ⟨required, hrequired⟩ : ∃ files, requireFiles sourceDir kRequiredFiles = .ok files := by
    refine requireFiles_isOk fun name hname => ?_
    dsimp only [sourceDir]
    rw [if_pos hname]
    rfl
  have hargs : checkArguments (arguments tail) = .ok () := by
    obtain rfl | rfl := h <;> decide +kernel
  exact ⟨_, sourceFiles_eq_ok.mpr ⟨hargs, disk tail, rfl, disk_valid tail h,
    bind_eq_ok.mpr ⟨required, hrequired, rfl⟩⟩⟩

theorem reproduced (tail : UInt8) : Reproduced (arguments tail) (directory tail) := by
  intro files hfiles file hfile
  obtain ⟨-, image, himage, -, hcollect⟩ := sourceFiles_eq_ok.mp hfiles
  cases himage
  obtain ⟨required, hnames, hrequired, hperm⟩ := collectSourceFiles_perm hcollect
  have hdir : ∀ name file, name ≠ "encryptionkey.img" → sourceDir.file name = some file →
      directory tail name = some file.bytes := by
    intro name file hname hfile
    rw [directory, if_neg hname, hfile]
    rfl
  rw [hperm.mem_iff, List.mem_append, List.mem_append, List.mem_singleton] at hfile
  obtain (hfile | hfile) | rfl := hfile
  · have hname : file.1 ∈ kRequiredFiles := hnames ▸ List.mem_map_of_mem hfile
    exact hdir _ _ (fun heq => absurd (heq ▸ hname) (by decide)) (hrequired file hfile)
  · obtain ⟨hname, hfound⟩ := mem_optionalFiles hfile
    exact hdir _ _ (fun heq => absurd (heq ▸ hname) (by decide)) hfound
  · exact if_pos rfl

theorem bootable_disk : Bootable (disk 0).bytes := by
  have hfirst : firstLba (disk 0).bytes = 2048 := by
    dsimp only [firstLba, disk]
    rw [readAt_content 0 (by decide)]
    decide +kernel
  have hlast : lastLba (disk 0).bytes = 131038 := by
    dsimp only [lastLba, disk]
    rw [readAt_content 0 (by decide)]
    decide +kernel
  have hsuper : superblock (disk 0).bytes = 1049600 := by rw [superblock, hfirst]
  constructor
  · rw [hfirst]; decide
  · rw [hfirst, hlast]; decide
  · rw [hlast]; decide
  · dsimp only [disk]
    rw [readAt_content 0 (by decide)]
    decide +kernel
  · rw [hsuper]; decide
  all_goals
    rw [hsuper]
    dsimp only [disk]
    rw [readAt_content 0 (by decide)]
    decide +kernel

end Sample

theorem packaged_image_installable : ∃ output,
    package ⟨fun _ => "", fun _ => []⟩ (Sample.arguments 0) ∅ = .ok output ∧
      systemImageExistsAt metadataDisk (Sample.directory 0) = true := by
  obtain ⟨files, hfiles⟩ := Sample.sourceFiles_isOk 0 (.inl rfl)
  obtain ⟨output, hpackage⟩ := package_isOk ⟨fun _ => "", fun _ => []⟩ hfiles ∅
  obtain ⟨image, himage, -, hinstalled⟩ := packaged_image_installable_iff _ _ _ hpackage
    (Sample.directory 0) (Sample.reproduced 0)
  cases himage
  exact ⟨output, hpackage, hinstalled.mpr Sample.bootable_disk⟩

/-- The partition is named `metadata2`. -/
theorem packaged_image_refused : ∃ output,
    package ⟨fun _ => "", fun _ => []⟩ (Sample.arguments 0x32) ∅ = .ok output ∧
      Reproduced (Sample.arguments 0x32) (Sample.directory 0x32) ∧
      metadataDisk (Sample.disk 0x32).bytes = false ∧
      systemImageExistsAt metadataDisk (Sample.directory 0x32) = false := by
  have hvalid := Sample.disk_valid 0x32 (.inr rfl)
  obtain ⟨files, hfiles⟩ := Sample.sourceFiles_isOk 0x32 (.inr rfl)
  obtain ⟨output, hpackage⟩ := package_isOk ⟨fun _ => "", fun _ => []⟩ hfiles ∅
  have hdisk : metadataDisk (Sample.disk 0x32).bytes = false := by
    refine Bool.eq_false_iff.mpr fun hdisk => ?_
    have hend := ((metadataDisk_iff_bootable hvalid).mp hdisk).terminated
    dsimp only [Sample.disk] at hend
    rw [Sample.readAt_content 0x32 (by decide)] at hend
    revert hend
    decide +kernel
  refine ⟨output, hpackage, Sample.reproduced 0x32, hdisk, ?_⟩
  have hkey : Sample.directory 0x32 kMetadataDisk = some (Sample.disk 0x32).bytes := if_pos rfl
  rw [systemImageExistsAt, hkey, Option.any_some, hdisk, Bool.and_false]

end Packager
end MacMu
