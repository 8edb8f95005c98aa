import MacMu.Core.ImageManifest
import MacMu.Core.ImportTools
import MacMu.Lib.TransitionSystem
import Std.Data.ExtTreeMap

/-!
`materialize_objects`: the workers that share the objects of a manifest by an
atomic counter, and what each does to bring its object to a local path. Each
access to the counter, the failure flag and the files is one step, and the steps
of the workers interleave in any order. The sources are whatever
`resolve_object_sources` made of the object names. A download is a task that
writes anything to its output, any number of times, and ends with any result;
making the cache directory, removing, renaming and reading may fail at any time.

The cache is kept by hash: what is at `<sha256>.zip` and at
`<sha256>.zip.partial`. Under a name is a regular file, or something that is not
one; names are compared exactly, and links are left out. A file is checked in one
step. A local source lies outside the cache and is what the check finds there.
The progress reports are left out.

`given` and `placed` are history that no step reads.
-/

namespace MacMu
namespace ObjectAcquisition

open Function Std TransitionSystem ImageManifest ImportTools

inductive Entry where
  | file (bytes : List UInt8)
  | other
  deriving DecidableEq, Repr

def Entry.content : Entry → Option (List UInt8)
  | .file bytes => some bytes
  | .other => none

structure Setting where
  sha256 : List UInt8 → String
  /-- `options.appDataDir / "cache" / "image-objects"` -/
  cacheDir : String
  objects : List ObjectSpec
  source : Nat → String

structure Job where
  index : Nat
  object : ObjectSpec
  deriving DecidableEq, Repr

def kDownloadWorkers : Nat := 8

def cachedPath (env : Setting) (object : ObjectSpec) : String :=
  env.cacheDir ++ "/" ++ object.sha256 ++ ".zip"

def partialPath (env : Setting) (object : ObjectSpec) : String :=
  env.cacheDir ++ "/" ++ object.sha256 ++ ".zip.partial"

def Setting.remote (env : Setting) (job : Job) : Bool :=
  startsWith (env.source job.index) "https://"

/-- Where a worker is. `bytes` are what its last successful check read. -/
inductive Phase where
  | idle
  | taking
  | starting (job : Job)
  | probing (job : Job)
  | clearing (job : Job)
  | resuming (job : Job)
  | downloading (job : Job) (resume : Bool)
  | restarting (job : Job)
  | checking (job : Job)
  | discarding (job : Job) (error : String)
  | committing (job : Job) (bytes : List UInt8)
  | rechecking (job : Job)
  | dropping (job : Job) (bytes : List UInt8)
  | delivering (job : Job) (localPath : String) (bytes : List UInt8)
  | failing (job : Job) (error : String)
  | stopping (job : Job)
  | ended
  deriving DecidableEq, Repr

structure Given where
  index : Nat
  localPath : String
  bytes : List UInt8
  deriving DecidableEq, Repr

structure Placed where
  sha256 : String
  entry : Entry
  deriving DecidableEq, Repr

structure World where
  cached : ExtTreeMap String Entry
  partials : ExtTreeMap String Entry
  next : Nat
  failed : Bool
  firstError : String
  workers : Nat → Phase
  given : List Given
  placed : List Placed

inductive Step where
  | loop (worker : Nat)
  | take (worker : Nat)
  | checkSource (worker : Nat) (content : Option (List UInt8)) (reading : Reading)
  /-- `create_directories`, with the message of its error. -/
  | createCache (worker : Nat) (error : Option String)
  | probeCached (worker : Nat) (reading : Reading)
  | removeCached (worker : Nat) (removed : Bool)
  | probePartial (worker : Nat)
  | write (worker : Nat) (bytes : List UInt8)
  | downloaded (worker : Nat) (result : TaskResult)
  | removePartial (worker : Nat) (removed : Bool)
  | checkPartial (worker : Nat) (reading : Reading)
  | commit (worker : Nat) (renamed : Bool)
  | recheckCached (worker : Nat) (reading : Reading) (message : String)
  | deliver (worker : Nat)
  | report (worker : Nat)
  | stop (worker : Nat)
  deriving DecidableEq, Repr

namespace World

variable (env : Setting) (w : World)

def setWorker (worker : Nat) (phase : Phase) : World :=
  { w with workers := update w.workers worker phase }

def cachedContent (object : ObjectSpec) : Option (List UInt8) :=
  w.cached[object.sha256]?.bind Entry.content

def partialContent (object : ObjectSpec) : Option (List UInt8) :=
  w.partials[object.sha256]?.bind Entry.content

/-- `fs::remove` on the partial file, whose outcome nobody looks at. -/
def clearPartial (object : ObjectSpec) (removed : Bool) : World :=
  if removed then { w with partials := w.partials.erase object.sha256 } else w

def downloadError (result : TaskResult) : String :=
  if result.standardError = "" then "failed to download image object" else result.standardError

/-- One step of a worker, `none` where it is not enabled. -/
def step (w : World) : Step → Option World
  | .loop i =>
    match w.workers i with
    | .idle => some (w.setWorker i (if w.failed then .ended else .taking))
    | _ => none
  | .take i =>
    match w.workers i with
    | .taking =>
      let index := w.next
      let w := { w with next := index + 1 }
      match env.objects[index]? with
      | none => some (w.setWorker i .ended)
      | some object => some (w.setWorker i (.starting ⟨index, object⟩))
    | _ => none
  | .checkSource i content reading =>
    match w.workers i with
    | .starting job =>
      let source := env.source job.index
      if env.remote job then none
      else
        match verifyFile env.sha256 source content reading job.object.size
            job.object.sha256 with
        | .error e => some (w.setWorker i (.failing job e))
        | .ok bytes => some (w.setWorker i (.delivering job source bytes))
    | _ => none
  | .createCache i error =>
    match w.workers i with
    | .starting job =>
      if env.remote job then
        match error with
        | some e =>
          some (w.setWorker i (.failing job ("failed to create image object cache: " ++ e)))
        | none => some (w.setWorker i (.probing job))
      else none
    | _ => none
  | .probeCached i reading =>
    match w.workers i with
    | .probing job =>
      match w.cachedContent job.object with
      | none => some (w.setWorker i (.resuming job))
      | some found =>
        match verifyFile env.sha256 (cachedPath env job.object) (some found) reading
            job.object.size job.object.sha256 with
        | .error _ => some (w.setWorker i (.clearing job))
        | .ok bytes =>
          some (w.setWorker i (.delivering job (cachedPath env job.object) bytes))
    | _ => none
  | .removeCached i removed =>
    match w.workers i with
    | .clearing job =>
      let w := if removed then { w with cached := w.cached.erase job.object.sha256 } else w
      some (w.setWorker i (.resuming job))
    | _ => none
  | .probePartial i =>
    match w.workers i with
    | .resuming job =>
      let resume := (w.partialContent job.object).any (0 < ·.length)
      some (w.setWorker i (.downloading job resume))
    | _ => none
  | .write i bytes =>
    match w.workers i with
    | .downloading job resume =>
      let w := { w with partials := w.partials.insert job.object.sha256 (.file bytes) }
      some (w.setWorker i (.downloading job resume))
    | _ => none
  | .downloaded i result =>
    match w.workers i with
    | .downloading job resume =>
      if result.succeeded then some (w.setWorker i (.checking job))
      else if resume && result.launched && result.status == 33 then
        some (w.setWorker i (.restarting job))
      else some (w.setWorker i (.failing job (downloadError result)))
    | _ => none
  | .removePartial i removed =>
    match w.workers i with
    | .restarting job =>
      some ((w.clearPartial job.object removed).setWorker i (.downloading job false))
    | .discarding job e =>
      some ((w.clearPartial job.object removed).setWorker i (.failing job e))
    | .dropping job bytes =>
      some ((w.clearPartial job.object removed).setWorker i
        (.delivering job (cachedPath env job.object) bytes))
    | _ => none
  | .checkPartial i reading =>
    match w.workers i with
    | .checking job =>
      match verifyFile env.sha256 (partialPath env job.object)
          (w.partialContent job.object) reading job.object.size job.object.sha256 with
      | .error e => some (w.setWorker i (.discarding job e))
      | .ok bytes => some (w.setWorker i (.committing job bytes))
    | _ => none
  | .commit i renamed =>
    match w.workers i with
    | .committing job bytes =>
      if renamed then
        match w.partials[job.object.sha256]? with
        | none => none
        | some entry =>
          let w := { w with
            cached := w.cached.insert job.object.sha256 entry
            partials := w.partials.erase job.object.sha256
            placed := w.placed ++ [Placed.mk job.object.sha256 entry] }
          some (w.setWorker i (.delivering job (cachedPath env job.object) bytes))
      else some (w.setWorker i (.rechecking job))
    | _ => none
  | .recheckCached i reading message =>
    match w.workers i with
    | .rechecking job =>
      match verifyFile env.sha256 (cachedPath env job.object) (w.cachedContent job.object)
          reading job.object.size job.object.sha256 with
      | .error _ =>
        some (w.setWorker i
          (.failing job ("failed to commit image object to cache: " ++ message)))
      | .ok bytes => some (w.setWorker i (.dropping job bytes))
    | _ => none
  | .deliver i =>
    match w.workers i with
    | .delivering job localPath bytes =>
      let w := { w with given := w.given ++ [Given.mk job.index localPath bytes] }
      some (w.setWorker i .idle)
    | _ => none
  | .report i =>
    match w.workers i with
    | .failing job e =>
      let w := { w with firstError := if w.firstError = "" then e else w.firstError }
      some (w.setWorker i (.stopping job))
    | _ => none
  | .stop i =>
    match w.workers i with
    | .stopping _ => some ({ w with failed := true }.setWorker i .ended)
    | _ => none

def workerCount : Nat := min kDownloadWorkers env.objects.length

/-- The workers are started over a cache that earlier imports left. -/
def start (cached partials : ExtTreeMap String Entry) : World where
  cached := cached
  partials := partials
  next := 0
  failed := false
  firstError := ""
  workers := fun i => if i < workerCount env then .idle else .ended
  given := []
  placed := []

def Joined : Prop := ∀ i, i < workerCount env → w.workers i = .ended

instance : Decidable (w.Joined env) := inferInstanceAs (Decidable (∀ i, i < _ → _))

/-- What `materialize_objects` returns once the workers are joined. -/
def result : Except String Unit :=
  if w.failed then
    .error (if w.firstError = "" then "failed to acquire image objects" else w.firstError)
  else .ok ()

end World

end ObjectAcquisition
end MacMu
