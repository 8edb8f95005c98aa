import MacMu.Core.ManifestSoundness
import MacMu.Packager.PackedObjects

/-!
The importer reads what the packager has written. Each record is accepted, an archive
that several chunks share becomes one object, and the chunks of a file are the pieces of
its content, each with the object that holds it. The only number that can be too large
for the importer is the chunk size.
-/

namespace MacMu
namespace Packager

open ImageManifest Slice SystemImage

section Fields

variable {fields : Fields} {key : String}

theorem jsonString_of_lookup {value : String} (h : fields.lookup key = some (.string value)) :
    jsonString fields key = .ok value := by
  rw [jsonString, h]

theorem jsonU64_of_lookup {value : Nat} (h : fields.lookup key = some (.integer value))
    (hlt : value < 2 ^ 63) : jsonU64 fields key = .ok value := by
  have hrange : (-2 ^ 63 : Int) ≤ value ∧ (value : Int) < 2 ^ 63 := by omega
  have htoInt : (Int64.ofInt value).toInt = value := Int64.toInt_ofInt_of_le hrange.1 hrange.2
  have hnonneg : ¬Int64.ofInt value < 0 := by
    rw [Int64.lt_iff_toInt_lt, htoInt]
    exact Int.not_lt.mpr (Int.natCast_nonneg value)
  rw [jsonU64, h, Json.integer, if_pos hrange]
  dsimp only
  rw [if_neg (by simp [hnonneg]), htoInt, Int.toNat_natCast]

theorem jsonU64_of_large {value : Nat} (h : fields.lookup key = some (.integer value))
    (hle : 2 ^ 63 ≤ value) :
    jsonU64 fields key = .error ("manifest field is not a non-negative integer: " ++ key) := by
  rw [jsonU64, h, Json.integer, if_neg (by omega)]
  rfl

end Fields

section Paths

theorem splitOn_of_not_mem {text : List Char} (h : '/' ∉ text) : text.splitOn '/' = [text] :=
  List.splitOnP_eq_singleton fun _ hc => beq_false_of_ne fun heq => h (heq ▸ hc)

theorem splitOn_slash {first second : List Char} (hfirst : '/' ∉ first) (hsecond : '/' ∉ second) :
    (first ++ '/' :: second).splitOn '/' = [first, second] := by
  have hnone : ∀ c ∈ first, (c == '/') = false := fun c hc =>
    beq_false_of_ne fun heq => hfirst (heq ▸ hc)
  rw [List.splitOn, List.splitOnP_append_cons_of_forall_mem hnone '/' (beq_self_eq_true _)]
  exact congrArg _ (splitOn_of_not_mem hsecond)

theorem pathComponents_of_not_mem {value : String} (h : '/' ∉ value.toList) :
    pathComponents value = [value] := by
  simp [pathComponents, splitOn_of_not_mem h]

theorem validatePackageName_eq_ok {name : String} (h : validatePackageName name = .ok ()) :
    name ≠ "" ∧ name ≠ "." ∧ name ≠ ".." ∧ '/' ∉ name.toList := by
  unfold validatePackageName at h
  split at h
  · cases h
  · rename_i hvalid
    simp only [not_or] at hvalid
    exact ⟨hvalid.1, hvalid.2.1, hvalid.2.2.1, hvalid.2.2.2.1⟩

theorem safeDirectoryName_of_valid {name : String} (h : validatePackageName name = .ok ()) :
    safeDirectoryName name = true := by
  obtain ⟨hempty, hdot, hdots, hslash⟩ := validatePackageName_eq_ok h
  have hhead : name.toList.head? ≠ some '/' := fun heq => hslash (List.mem_of_head? heq)
  simp [safeDirectoryName, safeRelativePath, pathComponents_of_not_mem hslash, safeComponent,
    hempty, hdot, hdots, hslash, hhead]

theorem slash_not_mem_of_isSha256 {value : String} (h : isSha256 value = true) :
    '/' ∉ value.toList := by
  intro hmem
  have hdigit := List.all_eq_true.mp (Bool.and_eq_true_iff.mp h).2 '/' hmem
  revert hdigit
  decide

theorem safeRelativePath_objects {value : String} (h : isSha256 value = true) :
    safeRelativePath ("objects/" ++ value ++ ".zip") = true := by
  have hslash : '/' ∉ (value ++ ".zip").toList := by
    rw [String.toList_append, List.mem_append, not_or]
    exact ⟨slash_not_mem_of_isSha256 h, by decide⟩
  have hlist : ("objects/" ++ value ++ ".zip").toList =
      "objects".toList ++ '/' :: (value ++ ".zip").toList := by
    rw [String.append_assoc, String.toList_append]
    rfl
  have hcomponents : pathComponents ("objects/" ++ value ++ ".zip") =
      ["objects", value ++ ".zip"] := by
    rw [pathComponents, hlist, splitOn_slash (by decide) hslash]
    simp
  have hlong : ∀ short : String, short.length ≤ 2 → value ++ ".zip" ≠ short := by
    intro short hshort heq
    have hlength := congrArg String.length heq
    rw [String.length_append] at hlength
    have hzip : ".zip".length = 4 := by decide
    omega
  have hsafe : safeComponent (value ++ ".zip") = true := by
    simp only [safeComponent, Bool.and_eq_true, bne_iff_ne]
    exact ⟨⟨hlong "" (by decide), hlong "." (by decide)⟩, hlong ".." (by decide)⟩
  have hempty : "objects/" ++ value ++ ".zip" ≠ "" := by
    intro heq
    rw [heq] at hlist
    cases hlist
  rw [safeRelativePath, hcomponents, hlist]
  simp [hempty, hsafe]
  decide

end Paths

section Objects

variable (tools : Tools)

def specOf (archive : Bytes) : ObjectSpec :=
  ⟨(recordOf tools archive).path, archive.length, tools.sha256 archive⟩

/-- What the round trip needs of the archives: they are files with a few bytes at least,
and the hash is one. -/
structure Sized (occurs : Bytes → Prop) : Prop where
  digest : ∀ bytes, isSha256 (tools.sha256 bytes) = true
  pos : ∀ archive, occurs archive → 0 < archive.length
  lt : ∀ archive, occurs archive → archive.length < 2 ^ 63

def Listed (occurs : Bytes → Prop) (specs : List ObjectSpec) : Prop :=
  ∀ spec ∈ specs, ∃ archive, occurs archive ∧ spec = specOf tools archive

variable {tools} {occurs : Bytes → Prop} {specs : List ObjectSpec} {archive : Bytes}

theorem lookup_fields (object : ObjectRecord) (rest : Fields) :
    (object.fields ++ rest).lookup "object" = some (.string object.path) ∧
      (object.fields ++ rest).lookup "object_size" = some (.integer object.size) ∧
      (object.fields ++ rest).lookup "object_sha256" = some (.string object.sha256) :=
  ⟨rfl, rfl, rfl⟩

/-- A valid record of an object that is either new or known in the same way. -/
theorem addObject_of_valid {fields : Fields} {spec : ObjectSpec}
    (hpath : jsonString fields "object" = .ok spec.relativePath)
    (hsize : jsonU64 fields "object_size" = .ok spec.size)
    (hhash : jsonString fields "object_sha256" = .ok spec.sha256)
    (hvalid : safeRelativePath spec.relativePath = true ∧ spec.size ≠ 0 ∧
      isSha256 spec.sha256 = true)
    (hsame : ∀ known ∈ specs, known.sha256 = spec.sha256 → known = spec) :
    ∃ specs' index, addObject fields specs = .ok (specs', index) ∧
      (specs' = specs ∨ specs' = specs ++ [spec]) ∧ specs'[index]? = some spec := by
  obtain ⟨hsafe, hpos, hdigest⟩ := hvalid
  simp only [addObject, hpath, hsize, hhash, bind, Except.bind, hsafe, hdigest,
    beq_false_of_ne hpos, Bool.not_true, Bool.or_self, Bool.false_eq_true, if_false]
  cases hindex : specs.findIdx? (·.sha256 == spec.sha256) with
  | none =>
    cases hfind : specs.find? (·.sha256 == spec.sha256) <;>
      exact ⟨_, _, rfl, .inr rfl, List.getElem?_concat_length⟩
  | some index =>
    obtain ⟨hlt, hfound, -⟩ := List.findIdx?_eq_some_iff_getElem.mp hindex
    have hknown : specs[index] = spec := hsame _ (List.getElem_mem hlt) (beq_iff_eq.mp hfound)
    cases hfind : specs.find? (·.sha256 == spec.sha256) with
    | none =>
      exact absurd hfound (List.find?_eq_none.mp hfind _ (List.getElem_mem hlt))
    | some previous =>
      have hmatch := List.find?_some hfind
      have hprevious : previous = spec :=
        hsame _ (List.mem_of_find?_eq_some hfind) (beq_iff_eq.mp hmatch)
      subst hprevious
      refine ⟨specs, index, if_neg (by simp), .inl rfl, ?_⟩
      rw [List.getElem?_eq_getElem hlt, hknown]

theorem addObject_record (hfree : CollisionFree tools occurs) (hsized : Sized tools occurs)
    (hlisted : Listed tools occurs specs) (harchive : occurs archive) (rest : Fields) :
    ∃ specs' index,
      addObject ((recordOf tools archive).fields ++ rest) specs = .ok (specs', index) ∧
        Listed tools occurs specs' ∧ specs <+: specs' ∧
        specs'[index]? = some (specOf tools archive) := by
  have hvalid : safeRelativePath (specOf tools archive).relativePath = true ∧
      (specOf tools archive).size ≠ 0 ∧ isSha256 (specOf tools archive).sha256 = true :=
    ⟨safeRelativePath_objects (hsized.digest archive),
      Nat.ne_of_gt (hsized.pos archive harchive), hsized.digest archive⟩
  have hsame : ∀ known ∈ specs, known.sha256 = (specOf tools archive).sha256 →
      known = specOf tools archive := by
    intro known hknown heq
    obtain ⟨other, hother, rfl⟩ := hlisted known hknown
    rw [hfree other archive hother harchive heq]
  obtain ⟨hpath, hsize, hhash⟩ := lookup_fields (recordOf tools archive) rest
  have hlength : jsonU64 ((recordOf tools archive).fields ++ rest) "object_size" =
      .ok (specOf tools archive).size := jsonU64_of_lookup hsize (hsized.lt archive harchive)
  obtain ⟨specs', index, hadd, hspecs, hindex⟩ := addObject_of_valid (jsonString_of_lookup hpath)
    hlength (jsonString_of_lookup hhash) hvalid hsame
  refine ⟨specs', index, hadd, ?_, ?_, hindex⟩
  · rcases hspecs with rfl | rfl
    · exact hlisted
    · intro spec hspec
      rcases List.mem_append.mp hspec with hspec | hspec
      · exact hlisted spec hspec
      · exact ⟨archive, harchive, List.mem_singleton.mp hspec⟩
  · rcases hspecs with rfl | rfl
    · exact List.prefix_refl _
    · exact List.prefix_append _ _

end Objects

section Chunks

variable (tools : Tools)

/-- The pieces of a content, from `offset` on, as the importer will put them together. -/
inductive Planned (occurs : Bytes → Prop) (specs : List ObjectSpec) :
    Nat → Bytes → List ChunkSpec → Prop where
  | nil {offset} : Planned occurs specs offset [] []
  | cons {offset piece rest index chunks} (harchive : occurs (pieceArchive tools piece))
      (hindex : specs[index]? = some (specOf tools (pieceArchive tools piece)))
      (h : Planned occurs specs (offset + piece.length) rest chunks) :
      Planned occurs specs offset (piece ++ rest)
        (⟨offset, piece.length, tools.sha256 piece, index, kZipEntryName⟩ :: chunks)

structure PlannedFile (occurs : Bytes → Prop) (specs : List ObjectSpec)
    (file : String × SourceFile) (spec : FileSpec) : Prop where
  relativePath : spec.relativePath = file.1
  size : spec.size = file.2.bytes.length
  sha256 : spec.sha256 = tools.sha256 file.2.bytes
  chunks : Planned tools occurs specs 0 file.2.bytes spec.chunks

variable {tools} {occurs : Bytes → Prop} {specs specs' : List ObjectSpec}
  {chunkSize fileSize offset : Nat} {content : Bytes}

theorem getElem?_of_extended (h : specs <+: specs') {index : Nat} {spec : ObjectSpec}
    (hindex : specs[index]? = some spec) : specs'[index]? = some spec := by
  obtain ⟨more, rfl⟩ := h
  obtain ⟨hlt, -⟩ := List.getElem?_eq_some_iff.mp hindex
  rw [List.getElem?_append_left hlt, hindex]

theorem Planned.mono (hspecs : specs <+: specs') {chunks : List ChunkSpec}
    (h : Planned tools occurs specs offset content chunks) :
    Planned tools occurs specs' offset content chunks := by
  induction h with
  | nil => exact .nil
  | cons harchive hindex _ ih => exact .cons harchive (getElem?_of_extended hspecs hindex) ih

theorem PlannedFile.mono (hspecs : specs <+: specs') {file : String × SourceFile} {spec : FileSpec}
    (h : PlannedFile tools occurs specs file spec) : PlannedFile tools occurs specs' file spec :=
  ⟨h.relativePath, h.size, h.sha256, h.chunks.mono hspecs⟩

theorem lookup_chunk (chunk : ChunkRecord) : ∃ fields, chunk.json = .object fields ∧
    (∃ rest, fields = chunk.object.fields ++ rest) ∧
    fields.lookup "offset" = some (.integer chunk.offset) ∧
    fields.lookup "size" = some (.integer chunk.size) ∧
    fields.lookup "sha256" = some (.string chunk.sha256) ∧
    fields.lookup "entry" = some (.string kZipEntryName) :=
  ⟨_, rfl, ⟨_, rfl⟩, rfl, rfl, rfl, rfl⟩

theorem parseChunk_of_piece (hfree : CollisionFree tools occurs) (hsized : Sized tools occurs)
    (hlisted : Listed tools occurs specs) (path : String) {piece : Bytes} (hpiece : piece ≠ [])
    (hsize : piece.length ≤ chunkSize) (hoccurs : occurs (pieceArchive tools piece))
    (hend : offset + piece.length ≤ fileSize) (hlt : fileSize < 2 ^ 63) : ∃ specs' index,
    parseChunk chunkSize path fileSize offset specs
        (ChunkRecord.json ⟨offset, piece.length, tools.sha256 piece,
          recordOf tools (pieceArchive tools piece)⟩) =
        .ok (⟨offset, piece.length, tools.sha256 piece, index, kZipEntryName⟩, specs') ∧
      Listed tools occurs specs' ∧ specs <+: specs' ∧
      specs'[index]? = some (specOf tools (pieceArchive tools piece)) := by
  obtain ⟨fields, hjson, ⟨rest, hfields⟩, hoffset, hwidth, hhash, hentry⟩ :=
    lookup_chunk ⟨offset, piece.length, tools.sha256 piece, recordOf tools (pieceArchive tools piece)⟩
  obtain ⟨specs', index, hadd, hlisted', hspecs, hindex⟩ :=
    addObject_record hfree hsized hlisted hoccurs rest
  refine ⟨specs', index, ?_, hlisted', hspecs, hindex⟩
  have hpos : piece.length ≠ 0 := fun hzero => hpiece (List.length_eq_zero_iff.mp hzero)
  have hroom : sub64 fileSize offset = fileSize - offset := sub64_of_le (by omega) (by omega)
  have hcovers : ¬(offset ≠ offset ∨ piece.length = 0 ∨ chunkSize < piece.length ∨
      sub64 fileSize offset < piece.length ∨ isSha256 (tools.sha256 piece) = false ∨
      kZipEntryName ≠ "payload") := by
    rw [hroom, hsized.digest]
    rintro (hne | hzero | hlarge | hshort | hdigest | hname)
    · exact hne rfl
    · exact hpos hzero
    · omega
    · omega
    · cases hdigest
    · exact hname rfl
  rw [hjson, parseChunk]
  refine bind_eq_ok.mpr ⟨_, jsonU64_of_lookup hoffset (by dsimp only; omega), ?_⟩
  refine bind_eq_ok.mpr ⟨_, jsonU64_of_lookup hwidth (by dsimp only; omega), ?_⟩
  refine bind_eq_ok.mpr ⟨_, jsonString_of_lookup hhash, ?_⟩
  refine bind_eq_ok.mpr ⟨_, jsonString_of_lookup hentry, ?_⟩
  refine bind_eq_ok.mpr ⟨(specs', index), hfields ▸ hadd, ?_⟩
  exact if_neg hcovers

theorem parseChunks_of_cut (hfree : CollisionFree tools occurs) (hsized : Sized tools occurs)
    (path : String)
    {chunks : List ChunkRecord} (hcut : Cut tools occurs chunkSize offset content chunks)
    (hlisted : Listed tools occurs specs) (hend : offset + content.length = fileSize)
    (hlt : fileSize < 2 ^ 63) : ∃ planned specs',
    parseChunks chunkSize path fileSize (chunks.map ChunkRecord.json) offset specs =
        .ok (planned, fileSize, specs') ∧
      Planned tools occurs specs' offset content planned ∧ Listed tools occurs specs' ∧
      specs <+: specs' := by
  induction hcut generalizing specs with
  | nil =>
    refine ⟨[], specs, ?_, .nil, hlisted, List.prefix_refl _⟩
    rw [List.length_nil, Nat.add_zero] at hend
    rw [List.map_nil, parseChunks, hend]
  | cons hpiece hsize harchive hrest ih =>
    rename_i offset piece rest chunks
    rw [List.length_append] at hend
    have hfits : offset + piece.length ≤ fileSize := by omega
    obtain ⟨middle, index, hchunk, hlisted', hspecs, hindex⟩ := parseChunk_of_piece hfree hsized
      hlisted path hpiece hsize harchive hfits hlt
    obtain ⟨planned, specs', hchunks, hplanned, hlisted'', hspecs'⟩ :=
      ih hlisted' (by omega)
    refine ⟨_, specs', ?_, .cons harchive (getElem?_of_extended hspecs' hindex) hplanned, hlisted'',
      hspecs.trans hspecs'⟩
    rw [List.map_cons, parseChunks]
    refine bind_eq_ok.mpr ⟨_, hchunk, ?_⟩
    have hnext : add64 offset piece.length = offset + piece.length := add64_of_lt (by omega)
    dsimp only
    rw [hnext]
    exact bind_eq_ok.mpr ⟨_, hchunks, rfl⟩

end Chunks

section Files

variable {tools : Tools} {occurs : Bytes → Prop} {specs : List ObjectSpec} {chunkSize : Nat}

theorem lookup_file (record : FileRecord) : ∃ fields, record.json = .object fields ∧
    fields.lookup "path" = some (.string record.path) ∧
    fields.lookup "size" = some (.integer record.size) ∧
    fields.lookup "sha256" = some (.string record.sha256) ∧
    fields.lookup "chunks" = some (.array (record.chunks.map ChunkRecord.json)) :=
  ⟨_, rfl, rfl, rfl, rfl, rfl⟩

theorem parseFile_of_packed (hfree : CollisionFree tools occurs) (hsized : Sized tools occurs)
    {file : String × SourceFile}
    {record : FileRecord} (hpacked : Packed tools occurs chunkSize file record)
    (hlisted : Listed tools occurs specs) (hsafe : safeRelativePath file.1 = true)
    (hpos : 0 < file.2.bytes.length) {filePaths : List String} (hfresh : file.1 ∉ filePaths) :
    ∃ spec specs', parseFile chunkSize filePaths specs record.json = .ok (spec, specs') ∧
      PlannedFile tools occurs specs' file spec ∧ Listed tools occurs specs' ∧ specs <+: specs' := by
  obtain ⟨fields, hjson, hpath, hsize, hhash, hchunks⟩ := lookup_file record
  obtain ⟨planned, specs', hparse, hplanned, hlisted', hspecs⟩ := parseChunks_of_cut hfree hsized
    file.1 hpacked.chunks hlisted (Nat.zero_add _) file.2.length_lt
  rw [hpacked.path] at hpath
  rw [hpacked.size] at hsize
  rw [hpacked.sha256] at hhash
  refine ⟨⟨file.1, file.2.bytes.length, tools.sha256 file.2.bytes, planned⟩, specs', ?_,
    ⟨rfl, rfl, rfl, hplanned⟩, hlisted', hspecs⟩
  rw [hjson, parseFile]
  refine bind_eq_ok.mpr ⟨_, jsonString_of_lookup hpath, ?_⟩
  refine bind_eq_ok.mpr ⟨_, jsonU64_of_lookup hsize file.2.length_lt, ?_⟩
  refine bind_eq_ok.mpr ⟨_, jsonString_of_lookup hhash, ?_⟩
  have hvalid : ¬(safeRelativePath file.1 = false ∨ file.2.bytes.length = 0 ∨
      isSha256 (tools.sha256 file.2.bytes) = false ∨ file.1 ∈ filePaths) := by
    rw [hsafe, hsized.digest]
    rintro (hname | hzero | hdigest | hmem)
    · cases hname
    · omega
    · cases hdigest
    · exact hfresh hmem
  rw [if_neg hvalid, hchunks]
  cases hrecords : record.chunks with
  | nil =>
    have hcut := hpacked.chunks
    rw [hrecords] at hcut
    generalize file.2.bytes = content at hcut hpos
    cases hcut
    cases hpos
  | cons chunk chunks =>
    rw [hrecords] at hparse
    refine bind_eq_ok.mpr ⟨_, hparse, ?_⟩
    exact if_neg fun hne => hne rfl

theorem parseFiles_of_packed (hfree : CollisionFree tools occurs) (hsized : Sized tools occurs)
    {files : List (String × SourceFile)} {records : List FileRecord}
    (hpacked : List.Forall₂ (Packed tools occurs chunkSize) files records)
    (hlisted : Listed tools occurs specs)
    (hsafe : ∀ file ∈ files, safeRelativePath file.1 = true ∧ 0 < file.2.bytes.length)
    {filePaths : List String} (hfresh : ∀ file ∈ files, file.1 ∉ filePaths)
    (hnames : (files.map Prod.fst).Nodup) :
    ∃ planned specs',
      parseFiles chunkSize (records.map FileRecord.json) filePaths specs = .ok (planned, specs') ∧
        List.Forall₂ (PlannedFile tools occurs specs') files planned ∧ Listed tools occurs specs' ∧
        specs <+: specs' := by
  induction hpacked generalizing specs filePaths with
  | nil => exact ⟨[], specs, rfl, .nil, hlisted, List.prefix_refl _⟩
  | @cons file record files records hfile hfiles ih =>
    obtain ⟨⟨hname, hpos⟩, hsafe⟩ := List.forall_mem_cons.mp hsafe
    obtain ⟨hnew, hfresh⟩ := List.forall_mem_cons.mp hfresh
    rw [List.map_cons, List.nodup_cons] at hnames
    obtain ⟨spec, middle, hparse, hplanned, hlisted', hspecs⟩ :=
      parseFile_of_packed hfree hsized hfile hlisted hname hpos hnew
    have hfresh' : ∀ other ∈ files, other.1 ∉ spec.relativePath :: filePaths := by
      intro other hother hmem
      rcases List.mem_cons.mp hmem with heq | hmem
      · rw [hplanned.relativePath] at heq
        exact hnames.1 (heq ▸ List.mem_map_of_mem hother)
      · exact hfresh other hother hmem
    obtain ⟨planned, specs', hrest, hplanned', hlisted'', hspecs'⟩ :=
      ih hlisted' hsafe hfresh' hnames.2
    refine ⟨spec :: planned, specs', ?_, .cons (hplanned.mono hspecs') hplanned', hlisted'',
      hspecs.trans hspecs'⟩
    rw [List.map_cons, parseFiles]
    exact bind_eq_ok.mpr ⟨_, hparse, bind_eq_ok.mpr ⟨_, hrest, rfl⟩⟩

end Files

section Manifest

variable {tools : Tools} {occurs : Bytes → Prop} {args : Arguments}
  {files : List (String × SourceFile)} {manifest : Manifest}

theorem lookup_manifest (manifest : Manifest) : ∃ fields, manifest.json = .object fields ∧
    (fields.lookup "format" = some (.string kManifestFormat) ∧
      fields.lookup "version" = some (.integer (2 : Nat)) ∧
      fields.lookup "product" = some (.string "macmu_sdk_phone64_arm64") ∧
      fields.lookup "device" = some (.string "emu64a") ∧
      fields.lookup "variant" = some (.string "user") ∧
      fields.lookup "api" = some (.integer (36 : Nat))) ∧
    fields.lookup "chunk_size" = some (.integer manifest.chunkSize) ∧
    fields.lookup "root" = some (.string manifest.root) ∧
    fields.lookup "base_url" = some (.string manifest.baseUrl) ∧
    fields.lookup "base" = some (.object manifest.base.fields) ∧
    fields.lookup "files" = some (.array (manifest.files.map FileRecord.json)) :=
  ⟨_, rfl, ⟨rfl, rfl, rfl, rfl, rfl, rfl⟩, rfl, rfl, rfl, rfl, rfl⟩

structure Plan (tools : Tools) (args : Arguments) (files : List (String × SourceFile))
    (occurs : Bytes → Prop) (parsed : ChunkManifest) : Prop where
  root : parsed.root = args.packageName
  base : parsed.objects[parsed.baseObjectIndex]? = some (specOf tools (baseArchive tools args files))
  listed : Listed tools occurs parsed.objects
  files : List.Forall₂ (PlannedFile tools occurs parsed.objects) (chunkedFiles args files) parsed.files

theorem parseManifest_of_written (hfree : CollisionFree tools occurs) (hsized : Sized tools occurs)
    (hwritten : Written tools args files occurs manifest) (hargs : Checked args)
    (hlarge : args.chunkSize < 2 ^ 63) (hsafe : ∀ file ∈ chunkedFiles args files,
      safeRelativePath file.1 = true ∧ 0 < file.2.bytes.length)
    (hnames : ((chunkedFiles args files).map Prod.fst).Nodup)
    (hsome : chunkedFiles args files ≠ []) (path : String) :
    ∃ parsed, parseManifest path (some (.ok manifest.json)) = .ok parsed ∧
      parsed.baseUrl = manifest.baseUrl ∧ Plan tools args files occurs parsed := by
  obtain ⟨fields, hjson, ⟨hformat, hversion, hproduct, hdevice, hvariant, hapi⟩, hchunk, hroot,
    hurl, hbase, hrecords⟩ := lookup_manifest ..
  rw [hwritten.chunkSize] at hchunk
  rw [hwritten.root] at hroot
  rw [hwritten.base] at hbase
  have hnothing : Listed tools occurs [] := nofun
  obtain ⟨specs, index, hadd, hlisted, -, hindex⟩ :=
    addObject_record hfree hsized hnothing hwritten.archived []
  rw [List.append_nil] at hadd
  have hnew : ∀ file ∈ chunkedFiles args files, file.1 ∉ ([] : List String) := fun _ _ => nofun
  obtain ⟨planned, specs', hparse, hplanned, hlisted', hspecs⟩ := parseFiles_of_packed hfree hsized
    hwritten.files hlisted hsafe hnew hnames
  have hpos := hargs.chunkSize
  refine ⟨⟨args.packageName, manifest.baseUrl, index, specs', planned⟩, ?_, rfl, rfl,
    getElem?_of_extended hspecs hindex, hlisted', hplanned⟩
  rw [hjson, parseManifest]
  refine bind_eq_ok.mpr ⟨_, jsonString_of_lookup hformat, ?_⟩
  refine bind_eq_ok.mpr ⟨_, jsonU64_of_lookup hversion (by decide), ?_⟩
  refine bind_eq_ok.mpr ⟨_, jsonString_of_lookup hproduct, ?_⟩
  refine bind_eq_ok.mpr ⟨_, jsonString_of_lookup hdevice, ?_⟩
  refine bind_eq_ok.mpr ⟨_, jsonString_of_lookup hvariant, ?_⟩
  refine bind_eq_ok.mpr ⟨_, jsonU64_of_lookup hapi (by decide), ?_⟩
  refine bind_eq_ok.mpr ⟨_, jsonU64_of_lookup hchunk (by omega), ?_⟩
  refine bind_eq_ok.mpr ⟨_, jsonString_of_lookup hroot, ?_⟩
  have hoptional : jsonOptionalString fields "base_url" = .ok manifest.baseUrl := by
    rw [jsonOptionalString, hurl]
    exact jsonString_of_lookup hurl
  refine bind_eq_ok.mpr ⟨_, hoptional, ?_⟩
  rw [if_neg (by simp [kManifestVersion]; omega),
    if_neg (by rw [safeDirectoryName_of_valid hargs.packageName]; exact Bool.true_eq_false.mp),
    hbase, hrecords]
  refine bind_eq_ok.mpr ⟨_, hadd, bind_eq_ok.mpr ⟨_, hparse, if_neg ?_⟩⟩
  rintro rfl
  exact hsome (List.forall₂_nil_right_iff.mp hplanned)

theorem parseManifest_of_large (hlarge : 2 ^ 63 ≤ manifest.chunkSize) (path : String) :
    parseManifest path (some (.ok manifest.json)) =
      .error "manifest field is not a non-negative integer: chunk_size" := by
  obtain ⟨fields, hjson, ⟨hformat, hversion, hproduct, hdevice, hvariant, hapi⟩, hchunk, -⟩ :=
    lookup_manifest manifest
  rw [hjson, parseManifest, jsonString_of_lookup hformat,
    jsonU64_of_lookup hversion (by decide), jsonString_of_lookup hproduct,
    jsonString_of_lookup hdevice, jsonString_of_lookup hvariant,
    jsonU64_of_lookup hapi (by decide), jsonU64_of_large hchunk hlarge]
  rfl

end Manifest

end Packager
end MacMu
