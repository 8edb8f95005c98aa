import MacMu.Core.SystemImage
import MacMu.Lib.FileMoves
import MacMu.Lib.TransitionSystem

/-!
`macmu_replace_system_image_from_directory`, one file system operation at a time. The
names of the staging and the backup directory are made from the text of the system
path, so that text is kept; the source is given by its directory and its last name.
An operation may fail for reasons that the tree does not show, and then leaves what
it has done so far. Whether the source is on another volume is given; the three
places beside each other are on one volume. Error texts are left out.
-/

namespace MacMu
namespace ImageReplacement

open FileTree SystemImage

def splitSlash : List Char → List (List Char)
  | [] => [[]]
  | c :: rest =>
    if c = '/' then [] :: splitSlash rest else (splitSlash rest).modifyHead (c :: ·)

/-- The names of a path from the root on; a path without a slash at its beginning
goes on from the working directory. -/
def pathOf (workingDirectory : List String) (text : String) : List String :=
  (if text.toList.head? = some '/' then [] else workingDirectory) ++
    (splitSlash text.toList).map String.ofList

/-- `parent_path`, which is empty for a text without a slash. -/
def parentPath (workingDirectory : List String) (text : String) : Option (List String) :=
  if '/' ∈ text.toList then some (pathOf workingDirectory text).dropLast else none

structure Setup (α : Type) where
  isDisk : α → Bool
  workingDirectory : List String
  /-- `appDataDir`, `avdHome` and `appDataDir / images` -/
  runtimeDirectories : List (List String)
  systemPath : String

structure Source where
  dir : List String
  name : String
  crossVolume : Bool
  deriving DecidableEq, Repr

namespace Setup

variable {α : Type} (setup : Setup α)

def destination : List String := pathOf setup.workingDirectory setup.systemPath

def parent : Option (List String) := parentPath setup.workingDirectory setup.systemPath

def name : String := setup.destination.getLast?.getD ""

def dir : List String := setup.destination.dropLast

def importing : List String := pathOf setup.workingDirectory (setup.systemPath ++ ".importing")

def previous : List String := pathOf setup.workingDirectory (setup.systemPath ++ ".previous")

/-- `system_image_exists_at` -/
def imageExistsAt (t : Tree α) (path : List String) : Bool :=
  systemImageExistsAt setup.isDisk (readFile t path)

end Setup

def Source.path (source : Source) : List String := source.dir ++ [source.name]

/-- What an operation that failed has done: how many names of a path have got their
directories, what a removal has left, what a copy has written. -/
structure Residue (α : Type) where
  made : Nat
  left : List Location
  copied : List (Location × Node α)

inductive Outcome (α : Type) where
  | ok
  | fault (residue : Residue α)

namespace Outcome

variable {α : Type}

def isOk : Outcome α → Bool
  | .ok => true
  | .fault _ => false

def left : Outcome α → List Location
  | .ok => []
  | .fault residue => residue.left

end Outcome

inductive Stage where
  | checkSource
  | makeRuntime (path : List String) (rest : List (List String))
  | removeImporting
  | removePrevious
  | makeParent
  | moveSource
  | copySource
  | cleanCopy
  | checkStaged
  | findDestination
  | backUp
  | activate
  | findPrevious
  | restore
  | dropStaged
  | dropPrevious
  | returned (result : Bool)
  deriving DecidableEq, Repr

def afterRuntime : List (List String) → Stage
  | [] => .removeImporting
  | path :: rest => .makeRuntime path rest

structure State (α : Type) where
  tree : Tree α
  stage : Stage

section Step

variable {α : Type}

/-- `create_directories`. A directory that is there is not made again. -/
def makeOrFail (t : Tree α) (path : List String) : Outcome α → Bool × Tree α
  | .ok => makeDirectories t path
  | .fault residue =>
    (false,
      if leadsToDirectory t path then t else (makeMissing t [] (path.take residue.made)).2)

/-- `remove_all` -/
def removePath (t : Tree α) (path : List String) (outcome : Outcome α) : Tree α :=
  match path.getLast? with
  | none => t
  | some name => removeAll t path.dropLast name outcome.left

def renameOrFail (t : Tree α) (old new : List String) (crossVolume : Bool) :
    Outcome α → Renamed α
  | .ok => rename t old new crossVolume
  | .fault _ => .failed

def copyOrFail (t : Tree α) (old new : List String) : Outcome α → Bool × Tree α
  | .ok =>
    match copyTree t old new with
    | some copied => (true, copied)
    | none => (false, t)
  | .fault residue =>
    match operand t new with
    | some place => (false, graft t place residue.copied)
    | none => (false, t)

/-- A rename within the system directory, and where it goes on from there. -/
def State.swap (s : State α) (old new : List String) (outcome : Outcome α) (next failed : Stage) :
    State α :=
  match renameOrFail s.tree old new false outcome with
  | .done tree => ⟨tree, next⟩
  | _ => ⟨s.tree, failed⟩

variable (setup : Setup α) (source : Source)

def State.step (s : State α) (outcome : Outcome α) : Option (State α) :=
  match s.stage with
  | .checkSource =>
    some ⟨s.tree,
      if outcome.isOk && setup.imageExistsAt s.tree source.path then
        afterRuntime setup.runtimeDirectories
      else .returned false⟩
  | .makeRuntime path rest =>
    let (made, tree) := makeOrFail s.tree path outcome
    some ⟨tree, if made then afterRuntime rest else .returned false⟩
  | .removeImporting => some ⟨removePath s.tree setup.importing outcome, .removePrevious⟩
  | .removePrevious => some ⟨removePath s.tree setup.previous outcome, .makeParent⟩
  | .makeParent =>
    match setup.parent with
    | none => some ⟨s.tree, .returned false⟩
    | some path =>
      let (made, tree) := makeOrFail s.tree path outcome
      some ⟨tree, if made then .moveSource else .returned false⟩
  | .moveSource =>
    match renameOrFail s.tree source.path setup.importing source.crossVolume outcome with
    | .done tree => some ⟨tree, .checkStaged⟩
    | .crossDevice => some ⟨s.tree, .copySource⟩
    | .failed => some ⟨s.tree, .dropStaged⟩
  | .copySource =>
    let (copied, tree) := copyOrFail s.tree source.path setup.importing outcome
    some ⟨tree, if copied then .checkStaged else .cleanCopy⟩
  | .cleanCopy => some ⟨removePath s.tree setup.importing outcome, .dropStaged⟩
  | .checkStaged =>
    some ⟨s.tree,
      if outcome.isOk && setup.imageExistsAt s.tree setup.importing then .findDestination
      else .dropStaged⟩
  | .findDestination =>
    some ⟨s.tree,
      if outcome.isOk && pathExists s.tree setup.destination then .backUp else .activate⟩
  | .backUp => some (s.swap setup.destination setup.previous outcome .activate .dropStaged)
  | .activate => some (s.swap setup.importing setup.destination outcome .dropPrevious .findPrevious)
  | .findPrevious =>
    some ⟨s.tree,
      if outcome.isOk && pathExists s.tree setup.previous then .restore else .dropStaged⟩
  | .restore => some (s.swap setup.previous setup.destination outcome .dropStaged .dropStaged)
  | .dropStaged => some ⟨removePath s.tree setup.importing outcome, .returned false⟩
  | .dropPrevious => some ⟨removePath s.tree setup.previous outcome, .returned true⟩
  | .returned _ => none

end Step

def State.start {α : Type} (t : Tree α) : State α := ⟨t, .checkSource⟩

end ImageReplacement
end MacMu
