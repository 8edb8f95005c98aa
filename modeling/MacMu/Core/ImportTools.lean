import Mathlib.Tactic.Common

/-!
What the importer's parts share: the outcome of an external task and the check
of a file against a size and a hash. SHA-256 is a parameter, the digest of the
bytes in lower-case hexadecimal. A file is checked by its size first and is read
only if that matches; the read may fail.
-/

namespace MacMu
namespace ImportTools

structure TaskResult where
  launched : Bool
  status : Int
  standardError : String
  deriving DecidableEq, Repr

def TaskResult.succeeded (result : TaskResult) : Bool := result.launched && result.status == 0

/-- The error of `run_checked_task`. -/
def checkedTask (executable : String) (result : TaskResult) : Except String Unit :=
  if result.succeeded then .ok ()
  else if result.standardError = "" then
    .error (executable ++ " failed with status " ++ toString result.status)
  else .error result.standardError

def startsWith (value head : String) : Bool := head.toList.isPrefixOf value.toList

/-- How `sha256_file` gets on with a file. -/
inductive Reading where
  | complete
  | notOpened
  | broken
  deriving DecidableEq, Repr

/-- `verify_file`; `content` is what the path leads to if that is a regular file.
The bytes it read are returned for the history. -/
def verifyFile (sha256 : List UInt8 → String) (path : String) (content : Option (List UInt8))
    (reading : Reading) (expectedSize : Nat) (expectedSha256 : String) :
    Except String (List UInt8) :=
  match content with
  | none => .error ("size mismatch for " ++ path)
  | some bytes =>
    if bytes.length ≠ expectedSize then .error ("size mismatch for " ++ path)
    else
      match reading with
      | .notOpened => .error ("failed to open for SHA-256: " ++ path)
      | .broken => .error ("failed while hashing: " ++ path)
      | .complete =>
        if sha256 bytes ≠ expectedSha256 then .error ("SHA-256 mismatch for " ++ path)
        else .ok bytes

theorem verifyFile_eq_ok {sha256 : List UInt8 → String} {path : String}
    {content : Option (List UInt8)} {reading : Reading} {size : Nat} {hash : String}
    {bytes : List UInt8} (h : verifyFile sha256 path content reading size hash = .ok bytes) :
    content = some bytes ∧ bytes.length = size ∧ sha256 bytes = hash := by
  cases content with
  | none => cases h
  | some found =>
    dsimp only [verifyFile] at h
    split at h
    · cases h
    · rename_i hsize
      cases reading with
      | notOpened | broken => cases h
      | complete =>
        dsimp only at h
        split at h <;> cases h
        rename_i hhash
        exact ⟨rfl, not_ne_iff.mp hsize, not_ne_iff.mp hhash⟩

end ImportTools
end MacMu
