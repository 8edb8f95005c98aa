import MacMu.Packager.PackageImage

/-!
What a run of the packager leaves in `objects`. Every archive that it has made is there
under its hash at the end, also if an earlier run has left something of that name, as
long as SHA-256 tells apart the contents that are there. A chunked file is the
concatenation of the pieces in the archives of its chunks.
-/

namespace MacMu
namespace Packager

open ImageManifest Slice Std SystemImage

variable (tools : Tools)

def pieceArchive (content : Bytes) : Bytes := tools.zip [.file kZipEntryName content]

def recordOf (archive : Bytes) : ObjectRecord := ⟨archive.length, tools.sha256 archive⟩

def CollisionFree (occurs : Bytes → Prop) : Prop :=
  ∀ a b, occurs a → occurs b → tools.sha256 a = tools.sha256 b → a = b

def Stores (objects : Objects) (archive : Bytes) : Prop :=
  objects[tools.sha256 archive]? = some archive

def Within (occurs : Bytes → Prop) (objects : Objects) : Prop :=
  ∀ (hash : String) (bytes : Bytes), objects[hash]? = some bytes → occurs bytes

structure Keeps (occurs : Bytes → Prop) (objects objects' : Objects) : Prop where
  within : Within occurs objects'
  stores : ∀ archive, occurs archive → Stores tools objects archive → Stores tools objects' archive

/-- The pieces of a content, from `offset` on, and their records. -/
inductive Cut (stored : Bytes → Prop) (chunkSize : Nat) : Nat → Bytes → List ChunkRecord → Prop where
  | nil {offset} : Cut stored chunkSize offset [] []
  | cons {offset piece rest chunks} (hpiece : piece ≠ []) (hsize : piece.length ≤ chunkSize)
      (hstored : stored (pieceArchive tools piece))
      (h : Cut stored chunkSize (offset + piece.length) rest chunks) :
      Cut stored chunkSize offset (piece ++ rest)
        (⟨offset, piece.length, tools.sha256 piece, recordOf tools (pieceArchive tools piece)⟩ :: chunks)

structure Packed (stored : Bytes → Prop) (chunkSize : Nat) (file : String × SourceFile)
    (record : FileRecord) : Prop where
  path : record.path = file.1
  size : record.size = file.2.bytes.length
  sha256 : record.sha256 = tools.sha256 file.2.bytes
  chunks : Cut tools stored chunkSize 0 file.2.bytes record.chunks

section Files

variable (args : Arguments) (files : List (String × SourceFile))

def baseFiles : List (String × SourceFile) := files.filter (!isChunked args ·)

def chunkedFiles : List (String × SourceFile) := files.filter (isChunked args)

def baseArchive : Bytes := tools.zip (baseEntries args.packageName (baseFiles args files))

def IsArchive (archive : Bytes) : Prop :=
  archive = baseArchive tools args files ∨
    ∃ file ∈ chunkedFiles args files, ∃ k,
      k * args.chunkSize.toNat < file.2.bytes.length ∧
        archive = pieceArchive tools
          (readAt file.2.bytes (k * args.chunkSize.toNat) args.chunkSize.toNat)

end Files

variable {tools} {occurs made stored stored' : Bytes → Prop} {objects objects' : Objects}
  {archive : Bytes} {chunkSize : Nat}

theorem Keeps.refl (h : Within occurs objects) : Keeps tools occurs objects objects :=
  ⟨h, fun _ _ => id⟩

theorem Keeps.trans {objects'' : Objects} (h : Keeps tools occurs objects objects')
    (h' : Keeps tools occurs objects' objects'') : Keeps tools occurs objects objects'' :=
  ⟨h'.within, fun archive hoccurs hstores =>
    h'.stores archive hoccurs (h.stores archive hoccurs hstores)⟩

theorem Cut.mono (hstored : ∀ archive, stored archive → stored' archive) {offset : Nat}
    {content : Bytes} {chunks : List ChunkRecord}
    (h : Cut tools stored chunkSize offset content chunks) :
    Cut tools stored' chunkSize offset content chunks := by
  induction h with
  | nil => exact .nil
  | cons hpiece hsize harchive _ ih => exact .cons hpiece hsize (hstored _ harchive) ih

theorem Cut.of_take {source : Bytes} {offset width : Nat} {chunks : List ChunkRecord}
    (hpos : 0 < width) (hlength : width ≤ source.length) (hsize : width ≤ chunkSize)
    (hstored : stored (pieceArchive tools (source.take width)))
    (h : Cut tools stored chunkSize (offset + width) (source.drop width) chunks) :
    Cut tools stored chunkSize offset source (⟨offset, width, tools.sha256 (source.take width),
        recordOf tools (pieceArchive tools (source.take width))⟩ :: chunks) := by
  have htake : (source.take width).length = width := by
    rw [List.length_take]
    omega
  have hpiece : source.take width ≠ [] := List.ne_nil_of_length_pos (by omega)
  have hrest : Cut tools stored chunkSize (offset + (source.take width).length)
      (source.drop width) chunks := by
    rw [htake]
    exact h
  have hcut := Cut.cons hpiece (by omega) hstored hrest
  rw [List.take_append_drop, htake] at hcut
  exact hcut

theorem Packed.mono (hstored : ∀ archive, stored archive → stored' archive)
    {file : String × SourceFile} {record : FileRecord}
    (h : Packed tools stored chunkSize file record) : Packed tools stored' chunkSize file record :=
  ⟨h.path, h.size, h.sha256, h.chunks.mono hstored⟩

section

variable (hfree : CollisionFree tools occurs)
include hfree

theorem finalizeObject_eq (hwithin : Within occurs objects) (harchive : occurs archive) :
    ∃ objects',
    finalizeObject tools archive objects = (recordOf tools archive, objects') ∧
      Stores tools objects' archive ∧ Keeps tools occurs objects objects' := by
  have hplaced : Stores tools (objects.insert (tools.sha256 archive) archive) archive :=
    ExtTreeMap.getElem?_insert_self
  have hkeeps : Keeps tools occurs objects (objects.insert (tools.sha256 archive) archive) := by
    constructor
    · intro hash bytes hbytes
      rw [ExtTreeMap.getElem?_insert] at hbytes
      split at hbytes
      · cases hbytes
        exact harchive
      · exact hwithin hash bytes hbytes
    · intro other hother hstores
      by_cases heq : tools.sha256 other = tools.sha256 archive
      · rw [hfree other archive hother harchive heq]
        exact hplaced
      · rw [Stores, ExtTreeMap.getElem?_insert,
          if_neg fun hcmp => heq (Std.compare_eq_iff_eq.mp hcmp).symm]
        exact hstores
  have hinserted : (recordOf tools archive, objects.insert (tools.sha256 archive) archive) =
      (⟨((objects.insert (tools.sha256 archive) archive)[tools.sha256 archive]?.getD []).length,
        tools.sha256 archive⟩, objects.insert (tools.sha256 archive) archive) := by
    rw [ExtTreeMap.getElem?_insert_self]
    rfl
  unfold finalizeObject
  dsimp only
  cases hprevious : objects[tools.sha256 archive]? with
  | none => exact ⟨_, hinserted.symm, hplaced, hkeeps⟩
  | some previous =>
    dsimp only
    split
    · rename_i hsame
      have heq : previous = archive :=
        hfree _ _ (hwithin _ _ hprevious) harchive hsame.2
      subst heq
      refine ⟨objects, ?_, hprevious, Keeps.refl hwithin⟩
      rw [hprevious]
      rfl
    · exact ⟨_, hinserted.symm, hplaced, hkeeps⟩

theorem buildChunkObject_eq (hwithin : Within occurs objects) {source : Bytes} {size : Nat}
    (offset : Nat) (hsize : size ≤ source.length)
    (hoccurs : occurs (pieceArchive tools (source.take size))) : ∃ objects',
    buildChunkObject tools source offset size objects =
        .ok (⟨offset, size, tools.sha256 (source.take size),
          recordOf tools (pieceArchive tools (source.take size))⟩, source.drop size, objects') ∧
      Stores tools objects' (pieceArchive tools (source.take size)) ∧
      Keeps tools occurs objects objects' := by
  obtain ⟨objects', hobject, hstores, hkeeps⟩ := finalizeObject_eq hfree hwithin hoccurs
  refine ⟨objects', ?_, hstores, hkeeps⟩
  rw [pieceArchive] at hobject
  rw [buildChunkObject, if_neg (Nat.not_lt.mpr hsize)]
  dsimp only
  rw [hobject]
  rfl

section

variable (hoccurs : ∀ archive, made archive → occurs archive)
include hoccurs

/-- The loop over the chunks, from one that begins at a multiple of the chunk size. -/
theorem cutFile_eq_ok (hsize : 0 < chunkSize) {content : Bytes}
    (hmade : ∀ k, k * chunkSize < content.length →
      made (pieceArchive tools (readAt content (k * chunkSize) chunkSize)))
    {steps k : Nat} {chunks : List ChunkRecord} (hwithin : Within occurs objects)
    (hsteps : content.length - k * chunkSize ≤ steps)
    (h : cutFile tools chunkSize content.length steps (k * chunkSize)
      (content.drop (k * chunkSize)) objects = .ok (chunks, objects')) :
    Keeps tools occurs objects objects' ∧
      Cut tools (fun archive => made archive ∧ Stores tools objects' archive) chunkSize
        (k * chunkSize) (content.drop (k * chunkSize)) chunks := by
  have hend : ∀ (steps offset : Nat) (source : Bytes) (objects : Objects),
      content.length ≤ offset →
        cutFile tools chunkSize content.length steps offset source objects = .ok ([], objects) := by
    intro steps offset source objects hoffset
    cases steps with
    | zero => rfl
    | succ steps => rw [cutFile, if_neg (Nat.not_lt.mpr hoffset)]
  induction steps generalizing k chunks objects with
  | zero =>
    cases h
    rw [List.drop_of_length_le (by omega)]
    exact ⟨Keeps.refl hwithin, .nil⟩
  | succ steps ih =>
    by_cases hlt : k * chunkSize < content.length
    · rw [cutFile, if_pos hlt] at h
      dsimp only at h
      generalize hwidth : min chunkSize (content.length - k * chunkSize) = width at h
      have hpiece : (content.drop (k * chunkSize)).take width =
          readAt content (k * chunkSize) chunkSize := by
        rw [readAt, List.take_eq_take_iff, ← hwidth, List.length_drop]
        omega
      have harchive : made (pieceArchive tools ((content.drop (k * chunkSize)).take width)) := by
        rw [hpiece]
        exact hmade k hlt
      obtain ⟨middle, hbuild, hstores, hkeeps⟩ := buildChunkObject_eq hfree hwithin
        (k * chunkSize) (by rw [List.length_drop]; omega) (hoccurs _ harchive)
      obtain ⟨built, hbuilt, h⟩ := bind_eq_ok.mp h
      cases hbuild.symm.trans hbuilt
      obtain ⟨⟨rest, last⟩, hrest, h⟩ := bind_eq_ok.mp h
      cases h
      rw [List.drop_drop] at hrest
      have htail : Keeps tools occurs middle last ∧
          Cut tools (fun archive => made archive ∧ Stores tools last archive) chunkSize
            (k * chunkSize + width) (content.drop (k * chunkSize + width)) rest := by
        by_cases hmore : k * chunkSize + width < content.length
        · have hnext : k * chunkSize + width = (k + 1) * chunkSize := by
            rw [Nat.succ_mul]
            omega
          rw [hnext] at hrest ⊢
          exact ih hkeeps.within (by omega) hrest
        · rw [hend _ _ _ _ (Nat.not_lt.mp hmore)] at hrest
          cases hrest
          rw [List.drop_of_length_le (Nat.not_lt.mp hmore)]
          exact ⟨Keeps.refl hkeeps.within, .nil⟩
      refine ⟨hkeeps.trans htail.1, ?_⟩
      refine .of_take (by omega) (by rw [List.length_drop]; omega) (by omega)
        ⟨harchive, htail.1.stores _ (hoccurs _ harchive) hstores⟩ ?_
      rw [List.drop_drop]
      exact htail.2
    · rw [hend _ _ _ _ (Nat.not_lt.mp hlt)] at h
      cases h
      rw [List.drop_of_length_le (Nat.not_lt.mp hlt)]
      exact ⟨Keeps.refl hwithin, .nil⟩

theorem packageFile_eq_ok (hsize : 0 < chunkSize) {name : String} {file : SourceFile}
    {record : FileRecord}
    (hmade : ∀ k, k * chunkSize < file.bytes.length →
      made (pieceArchive tools (readAt file.bytes (k * chunkSize) chunkSize)))
    (hwithin : Within occurs objects)
    (h : packageFile tools chunkSize name file objects = .ok (record, objects')) :
    Keeps tools occurs objects objects' ∧
      Packed tools (fun archive => made archive ∧ Stores tools objects' archive) chunkSize
        (name, file) record := by
  obtain ⟨⟨chunks, last⟩, hcut, h⟩ := bind_eq_ok.mp h
  cases h
  have hcut' : cutFile tools chunkSize file.bytes.length file.bytes.length (0 * chunkSize)
      (file.bytes.drop (0 * chunkSize)) objects = .ok (chunks, objects') := by
    rw [Nat.zero_mul]
    exact hcut
  obtain ⟨hkeeps, hchunks⟩ := cutFile_eq_ok hfree hoccurs hsize hmade hwithin (by omega) hcut'
  rw [Nat.zero_mul, List.drop_zero] at hchunks
  exact ⟨hkeeps, rfl, rfl, rfl, hchunks⟩

theorem packageFiles_eq_ok (hsize : 0 < chunkSize) {files : List (String × SourceFile)}
    {records : List FileRecord}
    (hmade : ∀ file ∈ files, ∀ k, k * chunkSize < file.2.bytes.length →
      made (pieceArchive tools (readAt file.2.bytes (k * chunkSize) chunkSize)))
    (hwithin : Within occurs objects)
    (h : packageFiles tools chunkSize files objects = .ok (records, objects')) :
    Keeps tools occurs objects objects' ∧
      List.Forall₂ (Packed tools (fun archive => made archive ∧ Stores tools objects' archive)
        chunkSize) files records := by
  induction files generalizing objects records with
  | nil =>
    cases h
    exact ⟨Keeps.refl hwithin, .nil⟩
  | cons file files ih =>
    obtain ⟨hfile, hfiles⟩ := List.forall_mem_cons.mp hmade
    obtain ⟨⟨record, middle⟩, hrecord, h⟩ := bind_eq_ok.mp h
    obtain ⟨⟨rest, last⟩, hrest, h⟩ := bind_eq_ok.mp h
    cases h
    obtain ⟨hkeeps, hpacked⟩ := packageFile_eq_ok hfree hoccurs hsize hfile hwithin hrecord
    obtain ⟨hkeeps', hpacked'⟩ := ih hfiles hkeeps.within hrest
    refine ⟨hkeeps.trans hkeeps', .cons (hpacked.mono ?_) hpacked'⟩
    exact fun archive hstored => ⟨hstored.1, hkeeps'.stores archive (hoccurs _ hstored.1) hstored.2⟩

end

end

structure Checked (args : Arguments) : Prop where
  packageName : validatePackageName args.packageName = .ok ()
  chunkSize : 0 < args.chunkSize
  chunkThreshold : 0 < args.chunkThreshold

theorem checkArguments_eq_ok {args : Arguments} (h : checkArguments args = .ok ()) :
    Checked args := by
  obtain ⟨_, hname, h⟩ := bind_eq_ok.mp h
  split_ifs at h with hdir hsize hthreshold hurl
  exact ⟨hname, by omega, by omega⟩

structure Written (tools : Tools) (args : Arguments) (files : List (String × SourceFile))
    (stored : Bytes → Prop) (manifest : Manifest) : Prop where
  root : manifest.root = args.packageName
  chunkSize : manifest.chunkSize = args.chunkSize.toNat
  baseUrl : args.baseUrl = "" → manifest.baseUrl = ""
  base : manifest.base = recordOf tools (baseArchive tools args files)
  archived : stored (baseArchive tools args files)
  files : List.Forall₂ (Packed tools stored args.chunkSize.toNat) (chunkedFiles args files)
    manifest.files

theorem package_eq_ok {args : Arguments} {files : List (String × SourceFile)}
    (hfiles : sourceFiles args = .ok files) (hfree : CollisionFree tools occurs)
    (hoccurs : ∀ archive, IsArchive tools args files archive → occurs archive)
    (hwithin : Within occurs objects) {manifest : Manifest}
    (h : package tools args objects = .ok (manifest, objects')) :
    Written tools args files
      (fun archive => IsArchive tools args files archive ∧ Stores tools objects' archive)
      manifest := by
  obtain ⟨files', hfiles', h⟩ := bind_eq_ok.mp h
  cases hfiles.symm.trans hfiles'
  have hmade : IsArchive tools args files (baseArchive tools args files) := .inl rfl
  obtain ⟨middle, hbase, hstores, hkeeps⟩ := finalizeObject_eq hfree hwithin (hoccurs _ hmade)
  have hbase' : buildBaseObject tools args.packageName (files.filter (!isChunked args ·)) objects =
      (recordOf tools (baseArchive tools args files), middle) := hbase
  rw [hbase'] at h
  obtain ⟨⟨records, last⟩, hrecords, h⟩ := bind_eq_ok.mp h
  cases h
  have hsize : 0 < args.chunkSize.toNat := by
    have hchunk := (checkArguments_eq_ok (sourceFiles_eq_ok.mp hfiles).1).chunkSize
    omega
  obtain ⟨hkeeps', hpacked⟩ := packageFiles_eq_ok hfree hoccurs hsize
    (fun file hfile k hk => .inr ⟨file, hfile, k, hk, rfl⟩) hkeeps.within hrecords
  exact ⟨rfl, rfl, fun hurl => if_pos hurl, rfl,
    ⟨hmade, hkeeps'.stores _ (hoccurs _ hmade) hstores⟩, hpacked⟩

end Packager
end MacMu
