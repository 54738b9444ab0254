import PoolKeeper.Json.Codec
import PoolKeeper.Storage.Error
import PoolKeeper.Storage.FileSystem

/-!
# Stores of documents

Named documents in a directory. A document is written to a temporary file that then takes the
place of the old one, so a failure on the way leaves the old document as it was.

* `Store`, `Store.path`, `Store.temporary`: a store and its files;
* `Store.load`: the value of a document, if it was ever saved;
* `Store.save`: a document in place of the one there was.
-/

namespace PoolKeeper

/-- A directory of documents; it is created when the first one is saved. -/
structure Store where
  dir : Path
deriving DecidableEq, Repr

namespace Store

variable {α φ : Type}

/-- The file of a document. -/
def path (s : Store) (name : String) : Path := s.dir ++ Path.ofText name

/-- The file that a document is written to before it takes its place. -/
def temporary (s : Store) (name : String) : Path := s.path (name ++ ".tmp")

/-- The value of a document; nothing if there is none. -/
def load (s : Store) (fs : FileSystem φ) (c : Codec α) (name : String) (files : φ) :
    Except StorageError (Option α) :=
  let path := s.path name
  match fs.read path files with
  | .missing => .ok none
  | .unreadable why => .error (.io (Path.text path) why)
  | .text content =>
    match c.ofText? content with
    | some x => .ok (some x)
    | none => .error (.serialization (Path.text path) "unexpected content")

/-- Saves a value as a document. Putting it into words cannot fail: what has no JSON text is a map
whose keys are no strings, and no saved value holds one. -/
def save (s : Store) (fs : FileSystem φ) (c : Codec α) (name : String) (x : α) (files : φ) :
    Except StorageError Unit × φ :=
  match fs.createDirs s.dir files with
  | (.error why, files) => (.error (.io (Path.text s.dir) why), files)
  | (.ok (), files) =>
    match fs.write (s.temporary name) (c.toText x) files with
    | (.error why, files) => (.error (.io (Path.text (s.temporary name)) why), files)
    | (.ok (), files) =>
      match fs.rename (s.temporary name) (s.path name) files with
      | (.error why, files) => (.error (.io (Path.text (s.path name)) why), files)
      | (.ok (), files) => (.ok (), files)

end Store

end PoolKeeper
