import MultisigVault.Text.Utf8

/-!
# Files

Files are seen through what reading a path gives, so that a run depends on
nothing else of the place it runs in.
-/

namespace MultisigVault

/-- Why a path could not be read as text. -/
inductive FileError where
  | notFound
  /-- The path leads through a file. -/
  | notDirectory
  | isDirectory
  | notText
  /-- The path does not lead anywhere, for another reason: a name is too long, a directory on
  the way is closed, or links lead in a circle. -/
  | unreachable (reason : String)
  /-- There is a file, but reading it fails. -/
  | other (reason : String)
deriving DecidableEq, Repr

def FileError.message : FileError → String
  | .notFound => "No such file or directory (os error 2)"
  | .notDirectory => "Not a directory (os error 20)"
  | .isDirectory => "Is a directory (os error 21)"
  | .notText => "stream did not contain valid UTF-8"
  | .unreachable reason | .other reason => reason

/-- What reading each path gives. -/
abbrev Files := String → Except FileError Bytes

namespace Files

/-- Whether a path leads to a file or a directory, be it readable or not. -/
def isPresent (files : Files) (path : String) : Bool :=
  match files path with
  | .error .notFound | .error .notDirectory | .error (.unreachable _) => false
  | _ => true

/-- The text of a file, which has to be UTF-8. -/
def readText (files : Files) (path : String) : Except FileError String := do
  let bytes ← files path
  match Utf8.decode? bytes with
  | some text => return text
  | none => throw .notText

end Files

end MultisigVault
