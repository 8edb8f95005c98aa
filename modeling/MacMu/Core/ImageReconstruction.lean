import MacMu.Core.ImageManifest
import MacMu.Core.ImportTools
import MacMu.Lib.FileCalls

/-!
`extract_chunk_manifest` from the acquired objects on: the base object is
unpacked by `ditto`, and each file is put together from its chunks by `unzip`
under a temporary name, checked and renamed. What the two tools do is a
parameter: `ditto` leaves any tree, and `unzip` any output. A call on a file may
also fail for reasons the tree does not show. Making a directory fails only where
the tree forbids it. Progress reports are left out.

`touched` of a reconstruction lists the locations at which its calls that create,
truncate, remove, change the mode or rename were directed.
-/

namespace MacMu
namespace ImageReconstruction

open FileTree ImageManifest ImportTools

abbrev Bytes := List UInt8

/-- How the calls for one file get on where the tree would let them succeed. -/
structure Calls where
  opens : Bool
  closes : Bool
  reading : Reading
  permits : Bool
  renames : Bool
  message : String
  deriving DecidableEq, Repr

structure Setting where
  sha256 : Bytes → String
  destinationRoot : List String
  localPath : Nat → String
  /-- `unzip -p` of an entry of an archive. -/
  unzip : String → String → TaskResult × Bytes
  /-- `ditto -x -k` of an archive into `destinationRoot`. -/
  ditto : String → Tree Bytes → TaskResult × Tree Bytes
  calls : FileSpec → Calls

def pathText (path : List String) : String := path.foldl (fun text name => text ++ "/" ++ name) ""

variable (env : Setting) (manifest : ChunkManifest) (file : FileSpec)

def directoryOf : List String :=
  env.destinationRoot ++ manifest.root :: (pathComponents file.relativePath).dropLast

def nameOf : String := (pathComponents file.relativePath).getLast?.getD ""

def partialOf : String := nameOf file ++ ".partial"

/-- The loop over the chunks, with what the output holds so far. -/
def writeChunks : List ChunkSpec → Bytes → Except String Unit × Bytes
  | [], output => (.ok (), output)
  | chunk :: chunks, output =>
    let (result, bytes) := env.unzip (env.localPath chunk.objectIndex) chunk.entry
    let output := output ++ bytes
    match checkedTask "/usr/bin/unzip" result with
    | .error e => (.error e, output)
    | .ok () =>
      if output.length ≠ chunk.offset + chunk.size then
        (.error ("chunk size mismatch while reconstructing " ++ file.relativePath), output)
      else writeChunks chunks output

def finishFile (d : Disk Bytes) : Except String Unit × Disk Bytes :=
  let io := env.calls file
  let dir := directoryOf env manifest file
  match d.chmod dir (partialOf file) io.permits with
  | (false, d) =>
    (.error ("failed to set image file permissions: " ++ io.message),
      d.remove dir (partialOf file))
  | (true, d) =>
    let d := d.remove dir (nameOf file)
    match d.rename dir (partialOf file) (nameOf file) io.renames with
    | (false, d) =>
      (.error ("failed to finish reconstructed image file: " ++ io.message),
        d.remove dir (partialOf file))
    | (true, d) => (.ok (), d)

/-- The temporary file is open at `place`. -/
def fillFile (place : Location) (d : Disk Bytes) : Except String Unit × Disk Bytes :=
  let io := env.calls file
  let dir := directoryOf env manifest file
  let (written, output) := writeChunks env file file.chunks []
  let d := d.write place output
  match written with
  | .error e => (.error e, d.remove dir (partialOf file))
  | .ok () =>
    if !io.closes then
      (.error ("failed to close reconstructed image file: " ++ io.message),
        d.remove dir (partialOf file))
    else
      match verifyFile env.sha256 (pathText (dir ++ [partialOf file]))
          (readFile d.tree dir (partialOf file)) io.reading file.size file.sha256 with
      | .error e => (.error e, d.remove dir (partialOf file))
      | .ok _ => finishFile env manifest file d

def openFile (d : Disk Bytes) : Except String Unit × Disk Bytes :=
  let io := env.calls file
  let dir := directoryOf env manifest file
  let d := d.remove dir (partialOf file)
  match d.openTruncate dir (partialOf file) [] io.opens with
  | (none, d) => (.error ("failed to create reconstructed image file: " ++ io.message), d)
  | (some place, d) => fillFile env manifest file place d

def makeDirectory (tree : Tree Bytes) : Bool × Disk Bytes :=
  (Disk.mk tree []).createDirectories (directoryOf env manifest file)

/-- `reconstruct_file` on a tree. -/
def reconstructFile (tree : Tree Bytes) : Except String Unit × Disk Bytes :=
  match makeDirectory env manifest file tree with
  | (false, d) => (.error ("failed to create image directory: " ++ (env.calls file).message), d)
  | (true, d) => openFile env manifest file d

def reconstructFiles : List FileSpec → Tree Bytes → Except String Unit × Tree Bytes
  | [], tree => (.ok (), tree)
  | file :: files, tree =>
    match reconstructFile env manifest file tree with
    | (.ok (), d) => reconstructFiles files d.tree
    | (.error e, d) => (.error e, d.tree)

/-- `is_directory` without a link at its end. -/
def isPlainDirectory (tree : Tree Bytes) (dir : List String) (name : String) : Bool :=
  match entry tree dir name with
  | some (place, _) => isDirectory tree place
  | none => false

def extractBaseObject (tree : Tree Bytes) : Except String Unit × Tree Bytes :=
  let (result, tree) := env.ditto (env.localPath manifest.baseObjectIndex) tree
  match checkedTask "/usr/bin/ditto" result with
  | .error e => (.error (if e = "" then "failed to extract base image object" else e), tree)
  | .ok () =>
    if isPlainDirectory tree env.destinationRoot manifest.root then (.ok (), tree)
    else (.error "base image object did not create the declared root directory", tree)

/-- `extract_chunk_manifest`; `acquired` is what resolving the sources and
acquiring the objects came to. -/
def extractChunkManifest (path : String) (data : Option (Except String Json))
    (acquired : ChunkManifest → Except String Unit) (tree : Tree Bytes) :
    Except String Unit × Tree Bytes :=
  match parseManifest path data with
  | .error e => (.error e, tree)
  | .ok manifest =>
    match acquired manifest with
    | .error e => (.error e, tree)
    | .ok () =>
      match extractBaseObject env manifest tree with
      | (.error e, tree) => (.error e, tree)
      | (.ok (), tree) => reconstructFiles env manifest manifest.files tree

end ImageReconstruction
end MacMu
