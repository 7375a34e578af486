import Bourse.Book.Wire
/-!
# The snapshot file

The book is kept as one JSON document in a file. A save writes the pretty snapshot text to
a sibling temporary file and renames it over the file, so a failed save leaves the previous
text in place. A load reads the file back: no file is no snapshot, and text that is not a
snapshot is an encoding error.

Where the file lives decides which system errors these meet (`Place`):
* `fresh`: an ordinary file, present or not;
* `missingDir`: its directory does not exist, so loads find nothing and saves fail with
  "No such file or directory";
* `underFile`: its parent is a regular file, so loads and saves fail with
  "Not a directory";
* `directory`: the path is a directory, which opens but cannot be read ("Is a directory",
  surfacing as an encoding error), and cannot be renamed over.
-/

namespace Bourse

open Json

/-- A system error met by file operations. -/
inductive OsError where
  | notFound
  | notADirectory
  | isADirectory
  deriving DecidableEq, Repr

namespace OsError

/-- The system error number. -/
def code : OsError → Nat
  | notFound => 2
  | notADirectory => 20
  | isADirectory => 21

/-- The name of the error kind. -/
def kindName : OsError → String
  | notFound => "NotFound"
  | notADirectory => "NotADirectory"
  | isADirectory => "IsADirectory"

/-- The system description. -/
def description : OsError → String
  | notFound => "No such file or directory"
  | notADirectory => "Not a directory"
  | isADirectory => "Is a directory"

/-- The error as a message: the description and the error number. -/
def message (e : OsError) : String :=
  e.description ++ " (os error " ++ toString e.code ++ ")"

/-- The error as a structured record. -/
def record (e : OsError) : String :=
  "Os \x7b code: " ++ toString e.code ++ ", kind: " ++ e.kindName ++ ", message: \"" ++
    e.description ++ "\" \x7d"

end OsError

/-- Why a snapshot could not be saved or loaded. -/
inductive StoreError where
  | io (e : OsError)
  | encoding (e : Json.Error)

namespace StoreError

/-- The message of the error. -/
def message : StoreError → String
  | io e => "IO error: " ++ e.message
  | encoding e => "Snapshot encoding error: " ++ e.text

/-- The name of the kind of error. -/
def kind : StoreError → String
  | io _ => "Io"
  | encoding _ => "Json"

end StoreError

/-- Where the snapshot file lives. -/
inductive Place where
  | fresh
  | missingDir
  | underFile
  | directory
  deriving DecidableEq, Repr

/-- The snapshot file: where it lives and, for an ordinary file, its text if it exists. -/
structure SnapshotFile where
  place : Place
  contents : Option String
  deriving DecidableEq, Repr

namespace SnapshotFile

/-- Replaces the file's text; fails where the file cannot be written. -/
def write (f : SnapshotFile) (text : String) : Except OsError SnapshotFile :=
  match f.place with
  | .fresh => .ok { f with contents := some text }
  | .missingDir => .error .notFound
  | .underFile => .error .notADirectory
  | .directory => .error .isADirectory

/-- Removes the file, when there is one to remove. -/
def remove (f : SnapshotFile) : SnapshotFile :=
  match f.place with
  | .fresh => { f with contents := none }
  | _ => f

/-- Saves a snapshot, pretty. -/
def save (f : SnapshotFile) (s : Snapshot) : Except StoreError SnapshotFile :=
  match f.place with
  | .fresh => .ok { f with contents := some s.fileText }
  | .missingDir => .error (.io .notFound)
  | .underFile => .error (.io .notADirectory)
  | .directory => .error (.io .isADirectory)

/-- Loads the snapshot; `none` when there is no file. -/
def load (f : SnapshotFile) : Except StoreError (Option Snapshot) :=
  match f.place with
  | .fresh =>
    match f.contents with
    | none => .ok none
    | some text =>
      match Snapshot.ofText text with
      | .ok s => .ok (some s)
      | .error e => .error (.encoding e)
  | .missingDir => .ok none
  | .underFile => .error (.io .notADirectory)
  | .directory => .error (.encoding { fault := .io OsError.isADirectory.message })

end SnapshotFile

end Bourse
