import MacMu.Packager.ManifestRecords

/-!
What `parse_manifest` guarantees of a manifest it accepts. The objects grow at
the end only, so an index once given out stays valid; a new one is added only
under a new hash. The running offset of a file never passes the size of the file,
which is below `2 ^ 63`, so none of the sums wraps.
-/

namespace MacMu
namespace ImageManifest

variable {chunkSize index : Nat} {chunks : List ChunkSpec} {fields : Fields}
  {objects objects' : List ObjectSpec} {path : String}

def Distinct (objects : List ObjectSpec) : Prop := (objects.map (·.sha256)).Nodup

/-- `std::filesystem` finds no root, and no empty, `.` or `..` component. -/
def PlainPath (value : String) : Prop :=
  value.toList.head? ≠ some '/' ∧
    ∀ component ∈ pathComponents value, component ≠ "" ∧ component ≠ "." ∧ component ≠ ".."

/-- The index leads to an object with the path, size and hash of the record. -/
def Describes (fields : Fields) (objects : List ObjectSpec) (index : Nat) : Prop :=
  ∃ object, objects[index]? = some object ∧
    jsonString fields "object" = .ok object.relativePath ∧
    jsonU64 fields "object_size" = .ok object.size ∧
    jsonString fields "object_sha256" = .ok object.sha256

/-- The chunks follow one another from `start` to `stop`. -/
inductive Tiles (chunkSize : Nat) : Nat → List ChunkSpec → Nat → Prop where
  | nil {start : Nat} : Tiles chunkSize start [] start
  | cons {start stop : Nat} {chunk : ChunkSpec} {chunks : List ChunkSpec} :
      chunk.offset = start → 0 < chunk.size → chunk.size ≤ chunkSize →
      Tiles chunkSize (start + chunk.size) chunks stop → Tiles chunkSize start (chunk :: chunks) stop

def ChunkSpec.Holds (chunk : ChunkSpec) (place : Nat) : Prop :=
  chunk.offset ≤ place ∧ place < chunk.offset + chunk.size

theorem Tiles.start_le {start stop : Nat} (h : Tiles chunkSize start chunks stop)
    {chunk : ChunkSpec} (hchunk : chunks[index]? = some chunk) : start ≤ chunk.offset := by
  induction h generalizing index with
  | nil => cases hchunk
  | cons hoffset _ _ _ ih =>
    cases index with
    | zero =>
      cases hchunk
      exact Nat.le_of_eq hoffset.symm
    | succ index => exact Nat.le_trans (Nat.le_add_right _ _) (ih hchunk)

theorem Tiles.existsUnique {start stop : Nat} (h : Tiles chunkSize start chunks stop) {place : Nat}
    (hstart : start ≤ place) (hstop : place < stop) :
    ∃! index : Nat, ∃ chunk, chunks[index]? = some chunk ∧ chunk.Holds place := by
  induction h with
  | nil => omega
  | @cons start stop chunk chunks hoffset _ _ htiles ih =>
    by_cases hplace : place < start + chunk.size
    · refine ⟨0, ⟨chunk, rfl, hoffset ▸ hstart, hoffset.symm ▸ hplace⟩, ?_⟩
      rintro (_ | index) ⟨other, hother, hholds⟩
      · rfl
      · have hlater := htiles.start_le hother
        have hfrom := hholds.1
        omega
    · obtain ⟨index, ⟨found, hfound, hholds⟩, hunique⟩ := ih (Nat.not_lt.mp hplace) hstop
      refine ⟨index + 1, ⟨found, hfound, hholds⟩, ?_⟩
      rintro (_ | other) ⟨at', hat, hholds'⟩
      · cases hat
        exact absurd (hoffset ▸ hholds'.2) hplace
      · rw [hunique other ⟨at', hat, hholds'⟩]

/-- What the importer computes with the chunk is what the integers are. -/
def NoWrap (size : Nat) (chunk : ChunkSpec) : Prop :=
  add64 chunk.offset chunk.size = chunk.offset + chunk.size ∧
    sub64 size chunk.offset = size - chunk.offset ∧ chunk.offset + chunk.size ≤ size

structure ChunkSound (objects : List ObjectSpec) (fields : Fields) (chunk : ChunkSpec) : Prop where
  offset : jsonU64 fields "offset" = .ok chunk.offset
  size : jsonU64 fields "size" = .ok chunk.size
  sha256 : jsonString fields "sha256" = .ok chunk.sha256
  entry : jsonString fields "entry" = .ok chunk.entry
  object : Describes fields objects chunk.objectIndex

structure FileSound (chunkSize : Nat) (objects : List ObjectSpec) (fields : Fields)
    (file : FileSpec) : Prop where
  path : jsonString fields "path" = .ok file.relativePath
  size : jsonU64 fields "size" = .ok file.size
  sha256 : jsonString fields "sha256" = .ok file.sha256
  chunks : ∃ values, fields.lookup "chunks" = some (.array values) ∧
    List.Forall₂ (fun value chunk => ∃ fields, value = .object fields ∧
      ChunkSound objects fields chunk) values file.chunks
  tiles : Tiles chunkSize 0 file.chunks file.size
  noWrap : ∀ chunk ∈ file.chunks, NoWrap file.size chunk
  plain : PlainPath file.relativePath

theorem jsonU64_lt {key : String} {value : Nat} (h : jsonU64 fields key = .ok value) :
    value < 2 ^ 63 := by
  unfold jsonU64 at h
  split at h
  · rename_i b _
    cases h
    cases b <;> decide
  · rename_i longLongValue exact _
    split at h
    · cases h
    · cases h
      have hlt := longLongValue.toInt_lt
      omega
  · cases h

theorem plainPath_of_safe {value : String} (h : safeRelativePath value = true) :
    PlainPath value := by
  simp only [safeRelativePath, safeComponent, Bool.and_eq_true, bne_iff_ne, List.all_eq_true] at h
  exact ⟨h.1.2, fun component hcomponent =>
    ⟨(h.2 component hcomponent).1.1, (h.2 component hcomponent).1.2, (h.2 component hcomponent).2⟩⟩

theorem Describes.mono (h : Describes fields objects index) (hgrows : objects <+: objects') :
    Describes fields objects' index := by
  obtain ⟨object, hobject, hrecord⟩ := h
  obtain ⟨more, rfl⟩ := hgrows
  refine ⟨object, ?_, hrecord⟩
  rw [List.getElem?_append_left (List.getElem?_eq_some_iff.mp hobject).1, hobject]

theorem Distinct.append {object : ObjectSpec} (h : Distinct objects)
    (hnew : object.sha256 ∉ objects.map (·.sha256)) : Distinct (objects ++ [object]) := by
  rw [Distinct, List.map_append, List.map_singleton]
  refine List.nodup_append.mpr ⟨h, List.nodup_singleton _, ?_⟩
  intro hash hhash other hother heq
  rw [List.mem_singleton.mp hother] at heq
  exact hnew (heq ▸ hhash)

structure Known (objects : List ObjectSpec) : Prop where
  distinct : Distinct objects
  plain : ∀ object ∈ objects, PlainPath object.relativePath

theorem known_nil : Known [] := ⟨List.nodup_nil, nofun⟩

theorem Known.append {object : ObjectSpec} (h : Known objects)
    (hnew : object.sha256 ∉ objects.map (·.sha256)) (hplain : PlainPath object.relativePath) :
    Known (objects ++ [object]) := by
  refine ⟨h.distinct.append hnew, fun other hother => ?_⟩
  obtain hother | hother := List.mem_append.mp hother
  · exact h.plain other hother
  · rw [List.mem_singleton.mp hother]
    exact hplain

theorem Known.addObject (h : Known objects)
    (hadd : addObject fields objects = .ok (objects', index)) :
    Known objects' ∧ objects <+: objects' ∧ Describes fields objects' index := by
  obtain ⟨relativePath, hpath, hadd⟩ := bind_eq_ok.mp hadd
  obtain ⟨size, hsize, hadd⟩ := bind_eq_ok.mp hadd
  obtain ⟨sha256, hsha256, hadd⟩ := bind_eq_ok.mp hadd
  split at hadd
  · cases hadd
  rename_i hvalid
  have hplain : PlainPath relativePath := by
    refine plainPath_of_safe (Bool.not_eq_false _ ▸ fun hbad => hvalid ?_)
    rw [hbad]
    rfl
  have hfind : objects.find? (·.sha256 == sha256) =
      (objects.findIdx? (·.sha256 == sha256)).bind (objects[·]?) :=
    List.find?_eq_bind_findIdx?_getElem?
  split at hadd
  · -- The hash is known, and the record says the same of it.
    rename_i previous place hprevious hplace
    split at hadd
    · cases hadd
    · rename_i hsame
      obtain ⟨hsamePath, hsameSize⟩ := not_or.mp hsame
      cases hadd
      rw [hprevious, hplace, Option.bind_some] at hfind
      have hmatches := List.find?_some hprevious
      have hhash : previous.sha256 = sha256 := beq_iff_eq.mp hmatches
      refine ⟨h, List.prefix_rfl, previous, hfind.symm, ?_, ?_, ?_⟩
      · rw [hpath, not_ne_iff.mp hsamePath]
      · rw [hsize, not_ne_iff.mp hsameSize]
      · rw [hsha256, hhash]
  · rename_i hnew
    cases hadd
    have hfresh : sha256 ∉ objects.map (·.sha256) := by
      intro hmem
      obtain ⟨object, hobject, heq⟩ := List.mem_map.mp hmem
      have hany : ∃ x ∈ objects, (x.sha256 == sha256) = true :=
        ⟨object, hobject, beq_iff_eq.mpr heq⟩
      obtain ⟨found, hfound⟩ := Option.isSome_iff_exists.mp (List.find?_isSome.mpr hany)
      obtain ⟨place, hplace⟩ := Option.isSome_iff_exists.mp
        (List.findIdx?_isSome.trans (List.any_eq_true.mpr hany))
      exact hnew found place hfound hplace
    refine ⟨h.append hfresh hplain, List.prefix_append _ _, ⟨relativePath, size, sha256⟩, ?_,
      hpath, hsize, hsha256⟩
    rw [List.getElem?_append_right (Nat.le_refl _), Nat.sub_self]
    rfl

theorem sub64_of_le {a b : Nat} (h : b ≤ a) (ha : a < 2 ^ 64) : sub64 a b = a - b := by
  have hsum : a + 2 ^ 64 - b = a - b + 2 ^ 64 := by omega
  rw [sub64, hsum, Nat.add_mod_right]
  exact Nat.mod_eq_of_lt (by omega)

theorem add64_of_lt {a b : Nat} (h : a + b < 2 ^ 64) : add64 a b = a + b := Nat.mod_eq_of_lt h

theorem Known.parseChunk {fileSize expectedOffset : Nat} {value : Json} {chunk : ChunkSpec}
    (h : Known objects)
    (hparse : parseChunk chunkSize path fileSize expectedOffset objects value =
      .ok (chunk, objects')) :
    Known objects' ∧ objects <+: objects' ∧
      (∃ fields, value = .object fields ∧ ChunkSound objects' fields chunk) ∧
      chunk.offset = expectedOffset ∧ 0 < chunk.size ∧ chunk.size ≤ chunkSize ∧
      chunk.size ≤ sub64 fileSize expectedOffset := by
  cases value with
  | object fields =>
    obtain ⟨offset, hoffset, hparse⟩ := bind_eq_ok.mp hparse
    obtain ⟨size, hsize, hparse⟩ := bind_eq_ok.mp hparse
    obtain ⟨sha256, hsha256, hparse⟩ := bind_eq_ok.mp hparse
    obtain ⟨entry, hentry, hparse⟩ := bind_eq_ok.mp hparse
    obtain ⟨⟨added, index⟩, hadd, hparse⟩ := bind_eq_ok.mp hparse
    obtain ⟨hknown, hgrows, hobject⟩ := h.addObject hadd
    dsimp only at hparse
    split at hparse
    · cases hparse
    · rename_i hvalid
      cases hparse
      refine ⟨hknown, hgrows, ⟨fields, rfl, hoffset, hsize, hsha256, hentry, hobject⟩, ?_⟩
      simp only [not_or, Nat.not_lt, not_ne_iff] at hvalid
      exact ⟨hvalid.1, Nat.pos_of_ne_zero hvalid.2.1, hvalid.2.2.1, hvalid.2.2.2.1⟩
  | _ => cases hparse

/-- The offset starts below the size of the file and stays below it. -/
theorem Known.parseChunks {fileSize : Nat} {values : List Json} {expectedOffset last : Nat}
    (h : Known objects) (hsize : fileSize < 2 ^ 63) (hoffset : expectedOffset ≤ fileSize)
    (hparse : parseChunks chunkSize path fileSize values expectedOffset objects =
      .ok (chunks, last, objects')) :
    Known objects' ∧ objects <+: objects' ∧
      List.Forall₂ (fun value chunk => ∃ fields, value = .object fields ∧
        ChunkSound objects' fields chunk) values chunks ∧
      Tiles chunkSize expectedOffset chunks last ∧ ∀ chunk ∈ chunks, NoWrap fileSize chunk := by
  induction values generalizing expectedOffset last objects chunks with
  | nil =>
    cases hparse
    exact ⟨h, List.prefix_rfl, .nil, .nil, nofun⟩
  | cons value values ih =>
    obtain ⟨⟨chunk, added⟩, hchunk, hparse⟩ := bind_eq_ok.mp hparse
    obtain ⟨⟨rest, last', objects''⟩, hrest, hparse⟩ := bind_eq_ok.mp hparse
    cases hparse
    obtain ⟨hknown, hgrows, ⟨fields, hfields, hsound⟩, hstart, hpos, hle, hroom⟩ :=
      h.parseChunk hchunk
    rw [sub64_of_le hoffset (by omega)] at hroom
    have hadd : add64 expectedOffset chunk.size = expectedOffset + chunk.size :=
      add64_of_lt (by omega)
    rw [hadd] at hrest
    obtain ⟨hknown', hgrows', hchunks, htiles, hnoWrap⟩ := ih hknown (by omega) hrest
    refine ⟨hknown', hgrows.trans hgrows', .cons ⟨fields, hfields, ?_⟩ hchunks,
      .cons hstart hpos hle htiles, List.forall_mem_cons.mpr ⟨?_, hnoWrap⟩⟩
    · exact { hsound with object := hsound.object.mono hgrows' }
    · rw [NoWrap, hstart]
      exact ⟨hadd, sub64_of_le hoffset (by omega), by omega⟩

theorem Known.parseFile {filePaths : List String} {value : Json} {file : FileSpec}
    (h : Known objects)
    (hparse : parseFile chunkSize filePaths objects value = .ok (file, objects')) :
    Known objects' ∧ objects <+: objects' ∧ file.relativePath ∉ filePaths ∧
      ∃ fields, value = .object fields ∧ FileSound chunkSize objects' fields file := by
  cases value with
  | object fields =>
    obtain ⟨relativePath, hpath, hparse⟩ := bind_eq_ok.mp hparse
    obtain ⟨size, hsize, hparse⟩ := bind_eq_ok.mp hparse
    obtain ⟨sha256, hsha256, hparse⟩ := bind_eq_ok.mp hparse
    split at hparse
    · cases hparse
    rename_i hvalid
    simp only [not_or, Bool.not_eq_false] at hvalid
    split at hparse
    · rename_i value values hvalues
      obtain ⟨⟨chunks, last, objects''⟩, hchunks, hparse⟩ := bind_eq_ok.mp hparse
      dsimp only at hparse
      split at hparse
      · cases hparse
      · rename_i hlast
        cases hparse
        rw [not_ne_iff.mp hlast] at hchunks
        obtain ⟨hknown, hgrows, hsound, htiles, hnoWrap⟩ :=
          h.parseChunks (jsonU64_lt hsize) (Nat.zero_le _) hchunks
        exact ⟨hknown, hgrows, hvalid.2.2.2, fields, rfl, hpath, hsize, hsha256,
          ⟨_, hvalues, hsound⟩, htiles, hnoWrap, plainPath_of_safe hvalid.1⟩
    · cases hparse
  | _ => cases hparse

theorem FileSound.mono {file : FileSpec} (h : FileSound chunkSize objects fields file)
    (hgrows : objects <+: objects') : FileSound chunkSize objects' fields file := by
  obtain ⟨values, hvalues, hchunks⟩ := h.chunks
  refine { h with chunks := ⟨values, hvalues, hchunks.imp fun value chunk hchunk => ?_⟩ }
  obtain ⟨fields, hfields, hsound⟩ := hchunk
  exact ⟨fields, hfields, { hsound with object := hsound.object.mono hgrows }⟩

theorem Known.parseFiles {values : List Json} {filePaths : List String} {files : List FileSpec}
    (h : Known objects)
    (hparse : parseFiles chunkSize values filePaths objects = .ok (files, objects')) :
    Known objects' ∧ objects <+: objects' ∧
      List.Forall₂ (fun value file => ∃ fields, value = .object fields ∧
        FileSound chunkSize objects' fields file) values files ∧
      (files.map (·.relativePath)).Nodup ∧ ∀ file ∈ files, file.relativePath ∉ filePaths := by
  induction values generalizing filePaths objects files with
  | nil =>
    cases hparse
    exact ⟨h, List.prefix_rfl, .nil, List.nodup_nil, nofun⟩
  | cons value values ih =>
    obtain ⟨⟨file, added⟩, hfile, hparse⟩ := bind_eq_ok.mp hparse
    obtain ⟨⟨rest, objects''⟩, hrest, hparse⟩ := bind_eq_ok.mp hparse
    cases hparse
    obtain ⟨hknown, hgrows, hnew, fields, hfields, hsound⟩ := h.parseFile hfile
    obtain ⟨hknown', hgrows', hfiles, hnodup, hothers⟩ := ih hknown hrest
    refine ⟨hknown', hgrows.trans hgrows', .cons ⟨fields, hfields, hsound.mono hgrows'⟩ hfiles,
      ?_, List.forall_mem_cons.mpr ⟨hnew, fun other hother hmem => ?_⟩⟩
    · rw [List.map_cons]
      refine List.nodup_cons.mpr ⟨fun hmem => ?_, hnodup⟩
      obtain ⟨other, hother, heq⟩ := List.mem_map.mp hmem
      exact hothers other hother (heq ▸ List.mem_cons_self)
    · exact hothers other hother (List.mem_cons_of_mem _ hmem)

/-- What the fields of an accepted manifest and the result have to do with each
other. -/
structure Sound (fields : Fields) (manifest : ChunkManifest) : Prop where
  known : Known manifest.objects
  root : PlainPath manifest.root
  base : ∃ base, fields.lookup "base" = some (.object base) ∧
    Describes base manifest.objects manifest.baseObjectIndex
  files : ∃ values chunkSize, fields.lookup "files" = some (.array values) ∧
    jsonU64 fields "chunk_size" = .ok chunkSize ∧
    List.Forall₂ (fun value file => ∃ fields, value = .object fields ∧
      FileSound chunkSize manifest.objects fields file) values manifest.files
  paths : (manifest.files.map (·.relativePath)).Nodup

theorem parseManifest_sound {data : Option (Except String Json)} {manifest : ChunkManifest}
    (h : parseManifest path data = .ok manifest) :
    ∃ fields, data = some (.ok (.object fields)) ∧ Sound fields manifest := by
  match data with
  | none | some (.error _) => cases h
  | some (.ok value) =>
    cases value with
    | object fields =>
      obtain ⟨format, -, h⟩ := bind_eq_ok.mp h
      obtain ⟨version, -, h⟩ := bind_eq_ok.mp h
      obtain ⟨product, -, h⟩ := bind_eq_ok.mp h
      obtain ⟨device, -, h⟩ := bind_eq_ok.mp h
      obtain ⟨imageVariant, -, h⟩ := bind_eq_ok.mp h
      obtain ⟨api, -, h⟩ := bind_eq_ok.mp h
      obtain ⟨chunkSize, hchunkSize, h⟩ := bind_eq_ok.mp h
      obtain ⟨root, -, h⟩ := bind_eq_ok.mp h
      obtain ⟨baseUrl, -, h⟩ := bind_eq_ok.mp h
      split at h
      · cases h
      split at h
      · cases h
      rename_i hroot
      simp only [safeDirectoryName, Bool.not_eq_false, Bool.and_eq_true] at hroot
      split at h
      · rename_i base values hbaseField hfilesField
        obtain ⟨⟨objects, index⟩, hbase, h⟩ := bind_eq_ok.mp h
        obtain ⟨⟨files, objects'⟩, hfiles, h⟩ := bind_eq_ok.mp h
        dsimp only at h
        split at h
        · cases h
        · cases h
          obtain ⟨hknown, -, hdescribes⟩ := known_nil.addObject hbase
          obtain ⟨hknown', hgrows, hsound, hnodup, -⟩ := hknown.parseFiles hfiles
          exact ⟨fields, rfl, hknown', plainPath_of_safe hroot.1,
            ⟨base, hbaseField, hdescribes.mono hgrows⟩,
            ⟨values, chunkSize, hfilesField, hchunkSize, hsound⟩, hnodup⟩
      · cases h
    | _ => cases h

theorem manifest_sound {path : String} {data : Option (Except String Json)}
    {manifest : ChunkManifest} (h : parseManifest path data = .ok manifest) :
    ∃ fields, data = some (.ok (.object fields)) ∧ Sound fields manifest ∧
      ∀ file ∈ manifest.files, ∀ place < file.size,
        ∃! index : Nat, ∃ chunk, file.chunks[index]? = some chunk ∧ chunk.Holds place := by
  obtain ⟨fields, hdata, hsound⟩ := parseManifest_sound h
  obtain ⟨values, chunkSize, -, -, hfiles⟩ := hsound.files
  have htiles : ∀ file ∈ manifest.files, Tiles chunkSize 0 file.chunks file.size := by
    refine ((List.forall₂_and_left (R := fun _ _ => True) _ _).mp (hfiles.flip.imp ?_)).1
    rintro file value ⟨record, -, hrecord⟩
    exact ⟨hrecord.tiles, trivial⟩
  refine ⟨fields, hdata, hsound, fun file hfile place hplace => ?_⟩
  exact (htiles file hfile).existsUnique (Nat.zero_le _) hplace

namespace Sample

def digest (c : Char) : String := String.ofList (List.replicate 64 c)

def repeated (offset size : Nat) : Packager.ChunkRecord :=
  ⟨offset, size, digest 'c', ⟨5, digest 'b'⟩⟩

/-- Two files with chunks of two bytes, of which three are the same object. -/
def manifest : Packager.Manifest where
  root := "image"
  chunkSize := 2
  baseUrl := ""
  base := ⟨3, digest 'a'⟩
  files :=
    [⟨"x", 5, digest 'd', [repeated 0 2, repeated 2 2, ⟨4, 1, digest 'e', ⟨4, digest 'f'⟩⟩]⟩,
      ⟨"d/y", 2, digest 'c', [repeated 0 2]⟩]

end Sample

theorem manifest_sound_repeated : ∃ manifest,
    parseManifest "manifest.json" (some (.ok Sample.manifest.json)) = .ok manifest ∧
      Distinct manifest.objects ∧ manifest.objects.length = 3 := by
  obtain ⟨manifest, hparse, hlength⟩ : ∃ manifest,
      parseManifest "manifest.json" (some (.ok Sample.manifest.json)) = .ok manifest ∧
        manifest.objects.length = 3 := ⟨_, rfl, by decide +kernel⟩
  obtain ⟨fields, -, hsound, -⟩ := manifest_sound hparse
  exact ⟨manifest, hparse, hsound.known.distinct, hlength⟩

end ImageManifest
end MacMu
