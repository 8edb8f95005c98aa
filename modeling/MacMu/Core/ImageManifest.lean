import Mathlib

/-!
The manifest of a chunked system image and `parse_manifest`. A manifest is read
as the objects `NSJSONSerialization` makes of it: a dictionary is its entries, and
strings are as `UTF8String` gives them. Of a number the importer looks at
`longLongValue`, and at whether `doubleValue` is that value as a double; `true`
and `false` are numbers too. The sums of the source are taken modulo `2 ^ 64`.
-/

namespace MacMu
namespace ImageManifest

inductive Json where
  | null
  | bool (value : Bool)
  | number (longLongValue : Int64) (exact : Bool)
  | string (value : String)
  | array (items : List Json)
  | object (fields : List (String × Json))

abbrev Fields := List (String × Json)

/-- An integer as it is written. One that `longLongValue` cannot hold differs from
it as a double. -/
def Json.integer (value : Int) : Json :=
  if -2 ^ 63 ≤ value ∧ value < 2 ^ 63 then .number (.ofInt value) true else .number 0 false

/-- Addition and subtraction of `uint64_t`. -/
def add64 (a b : Nat) : Nat := (a + b) % 2 ^ 64

def sub64 (a b : Nat) : Nat := (a + 2 ^ 64 - b) % 2 ^ 64

structure ObjectSpec where
  relativePath : String
  size : Nat
  sha256 : String
  deriving DecidableEq, Repr

structure ChunkSpec where
  offset : Nat
  size : Nat
  sha256 : String
  objectIndex : Nat
  entry : String
  deriving DecidableEq, Repr

structure FileSpec where
  relativePath : String
  size : Nat
  sha256 : String
  chunks : List ChunkSpec
  deriving DecidableEq, Repr

structure ChunkManifest where
  root : String
  baseUrl : String
  baseObjectIndex : Nat
  objects : List ObjectSpec
  files : List FileSpec
  deriving DecidableEq, Repr

def kManifestFormat : String := "macmu-system-image"

def kManifestVersion : Nat := 2

def isXDigit (c : Char) : Bool :=
  c.isDigit || ('a' ≤ c && c ≤ 'f') || ('A' ≤ c && c ≤ 'F')

def isSha256 (value : String) : Bool :=
  value.toList.length == 64 && value.toList.all isXDigit

/-- The components of a relative `fs::path`: separators in a row count as one,
and a trailing one leaves an empty component. -/
def pathComponents (value : String) : List String :=
  let parts := (value.toList.splitOn '/').map String.ofList
  parts.dropLast.filter (· ≠ "") ++ parts.getLast?.toList

def safeComponent (component : String) : Bool :=
  component != "" && component != "." && component != ".."

def safeRelativePath (value : String) : Bool :=
  value != "" && value.toList.head? != some '/' && (pathComponents value).all safeComponent

/-- `safe_relative_path` for a single component. -/
def safeDirectoryName (value : String) : Bool :=
  safeRelativePath value && !value.toList.contains '/'

def jsonString (fields : Fields) (key : String) : Except String String :=
  match fields.lookup key with
  | some (.string value) => .ok value
  | _ => .error ("manifest field is not a string: " ++ key)

/-- `json_string` for a field that need not be there. -/
def jsonOptionalString (fields : Fields) (key : String) : Except String String :=
  match fields.lookup key with
  | none => .ok ""
  | some _ => jsonString fields key

def jsonU64 (fields : Fields) (key : String) : Except String Nat :=
  match fields.lookup key with
  | some (.bool value) => .ok value.toNat
  | some (.number longLongValue exact) =>
    if longLongValue < 0 ∨ exact = false then
      .error ("manifest field is not a non-negative integer: " ++ key)
    else .ok longLongValue.toInt.toNat
  | _ => .error ("manifest field is not an integer: " ++ key)

/-- The object a record names, added to those known so far unless it is one of
them. -/
def addObject (fields : Fields) (objects : List ObjectSpec) :
    Except String (List ObjectSpec × Nat) := do
  let relativePath ← jsonString fields "object"
  let size ← jsonU64 fields "object_size"
  let sha256 ← jsonString fields "object_sha256"
  if !safeRelativePath relativePath || size == 0 || !isSha256 sha256 then
    .error "manifest contains an invalid object descriptor"
  else
    match objects.find? (·.sha256 == sha256), objects.findIdx? (·.sha256 == sha256) with
    | some previous, some index =>
      if previous.relativePath ≠ relativePath ∨ previous.size ≠ size then
        .error "manifest reuses an object hash with conflicting metadata"
      else .ok (objects, index)
    | _, _ => .ok (objects ++ [⟨relativePath, size, sha256⟩], objects.length)

/-- One chunk record of the file `path`; `expectedOffset` is where it must begin. -/
def parseChunk (chunkSize : Nat) (path : String) (fileSize expectedOffset : Nat)
    (objects : List ObjectSpec) : Json → Except String (ChunkSpec × List ObjectSpec)
  | .object fields => do
    let offset ← jsonU64 fields "offset"
    let size ← jsonU64 fields "size"
    let sha256 ← jsonString fields "sha256"
    let entry ← jsonString fields "entry"
    let (objects, objectIndex) ← addObject fields objects
    if offset ≠ expectedOffset ∨ size = 0 ∨ chunkSize < size ∨
        sub64 fileSize expectedOffset < size ∨ isSha256 sha256 = false ∨ entry ≠ "payload" then
      .error ("manifest contains invalid chunk coverage for " ++ path)
    else .ok (⟨offset, size, sha256, objectIndex, entry⟩, objects)
  | _ => .error "manifest chunk record is not an object"

/-- The chunk records of a file, with the offset at which they end. -/
def parseChunks (chunkSize : Nat) (path : String) (fileSize : Nat) :
    List Json → Nat → List ObjectSpec → Except String (List ChunkSpec × Nat × List ObjectSpec)
  | [], expectedOffset, objects => .ok ([], expectedOffset, objects)
  | value :: values, expectedOffset, objects => do
    let (chunk, objects) ← parseChunk chunkSize path fileSize expectedOffset objects value
    let (chunks, last, objects) ←
      parseChunks chunkSize path fileSize values (add64 expectedOffset chunk.size) objects
    .ok (chunk :: chunks, last, objects)

def parseFile (chunkSize : Nat) (filePaths : List String) (objects : List ObjectSpec) :
    Json → Except String (FileSpec × List ObjectSpec)
  | .object fields => do
    let relativePath ← jsonString fields "path"
    let size ← jsonU64 fields "size"
    let sha256 ← jsonString fields "sha256"
    if safeRelativePath relativePath = false ∨ size = 0 ∨ isSha256 sha256 = false ∨
        relativePath ∈ filePaths then
      .error "manifest contains an invalid or duplicate file record"
    else
      match fields.lookup "chunks" with
      | some (.array (value :: values)) => do
        let (chunks, last, objects) ←
          parseChunks chunkSize relativePath size (value :: values) 0 objects
        if last ≠ size then
          .error ("manifest chunks do not cover the complete file: " ++ relativePath)
        else .ok (⟨relativePath, size, sha256, chunks⟩, objects)
      | _ => .error ("manifest file has no chunks: " ++ relativePath)
  | _ => .error "manifest file record is not an object"

def parseFiles (chunkSize : Nat) :
    List Json → List String → List ObjectSpec → Except String (List FileSpec × List ObjectSpec)
  | [], _, objects => .ok ([], objects)
  | value :: values, filePaths, objects => do
    let (file, objects) ← parseFile chunkSize filePaths objects value
    let (files, objects) ← parseFiles chunkSize values (file.relativePath :: filePaths) objects
    .ok (file :: files, objects)

/-- `parse_manifest` on what is read from `path`: nothing, text that is not JSON,
or a value. -/
def parseManifest (path : String) : Option (Except String Json) → Except String ChunkManifest
  | none => .error ("failed to read image manifest: " ++ path)
  | some (.error description) => .error description
  | some (.ok (.object fields)) => do
    let format ← jsonString fields "format"
    let version ← jsonU64 fields "version"
    let product ← jsonString fields "product"
    let device ← jsonString fields "device"
    let imageVariant ← jsonString fields "variant"
    let api ← jsonU64 fields "api"
    let chunkSize ← jsonU64 fields "chunk_size"
    let root ← jsonString fields "root"
    let baseUrl ← jsonOptionalString fields "base_url"
    if format ≠ kManifestFormat ∨ version ≠ kManifestVersion ∨
        product ≠ "macmu_sdk_phone64_arm64" ∨ device ≠ "emu64a" ∨ imageVariant ≠ "user" ∨
        api ≠ 36 ∨ chunkSize = 0 then
      .error "unsupported MacMu image manifest identity, format, or version"
    else if safeDirectoryName root = false then
      .error "manifest root must be one safe directory name"
    else
      match fields.lookup "base", fields.lookup "files" with
      | some (.object base), some (.array values) => do
        let (objects, baseObjectIndex) ← addObject base []
        let (files, objects) ← parseFiles chunkSize values [] objects
        if files = [] then .error "manifest has no chunked files"
        else .ok ⟨root, baseUrl, baseObjectIndex, objects, files⟩
      | _, _ => .error "manifest base or files field has the wrong type"
  | some (.ok _) => .error "image manifest root is not an object"

theorem bind_eq_ok {ε α β : Type} {x : Except ε α} {f : α → Except ε β} {b : β} :
    x >>= f = .ok b ↔ ∃ a, x = .ok a ∧ f a = .ok b := by
  cases x with
  | error e => exact ⟨nofun, fun ⟨_, h, _⟩ => nomatch h⟩
  | ok a => exact ⟨fun h => ⟨a, rfl, h⟩, fun ⟨_, ha, h⟩ => Except.ok.inj ha ▸ h⟩

end ImageManifest
end MacMu
