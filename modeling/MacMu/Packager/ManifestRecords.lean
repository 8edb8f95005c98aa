import MacMu.Core.ImageManifest

/-!
The records `package_aosp16_chunked.py` writes into a manifest. A Python integer
is written in full, whatever its size.
-/

namespace MacMu
namespace Packager

open ImageManifest

def kFormatName : String := "macmu-system-image"

def kFormatVersion : Nat := 2

def kZipEntryName : String := "payload"

/-- An object as `finalize_object` describes it. -/
structure ObjectRecord where
  size : Nat
  sha256 : String
  deriving DecidableEq, Repr

structure ChunkRecord where
  offset : Nat
  size : Nat
  sha256 : String
  object : ObjectRecord
  deriving DecidableEq, Repr

structure FileRecord where
  path : String
  size : Nat
  sha256 : String
  chunks : List ChunkRecord
  deriving DecidableEq, Repr

structure Manifest where
  root : String
  chunkSize : Nat
  baseUrl : String
  base : ObjectRecord
  files : List FileRecord
  deriving DecidableEq, Repr

def ObjectRecord.path (object : ObjectRecord) : String := "objects/" ++ object.sha256 ++ ".zip"

def ObjectRecord.fields (object : ObjectRecord) : Fields :=
  [("object", .string object.path), ("object_size", .integer object.size),
    ("object_sha256", .string object.sha256)]

def ChunkRecord.json (chunk : ChunkRecord) : Json :=
  .object (chunk.object.fields ++ [("size", .integer chunk.size), ("sha256", .string chunk.sha256),
    ("entry", .string kZipEntryName), ("offset", .integer chunk.offset)])

def FileRecord.json (file : FileRecord) : Json :=
  .object [("path", .string file.path), ("size", .integer file.size),
    ("sha256", .string file.sha256), ("chunks", .array (file.chunks.map ChunkRecord.json))]

def Manifest.json (manifest : Manifest) : Json :=
  .object [("format", .string kFormatName), ("version", .integer kFormatVersion),
    ("product", .string "macmu_sdk_phone64_arm64"), ("device", .string "emu64a"),
    ("variant", .string "user"), ("api", .integer 36), ("root", .string manifest.root),
    ("chunk_size", .integer manifest.chunkSize), ("base_url", .string manifest.baseUrl),
    ("base", .object manifest.base.fields),
    ("files", .array (manifest.files.map FileRecord.json))]

end Packager
end MacMu
