import PoolKeeper.Storage.FileSystem

/-!
# Trees of files

Files and directories kept in memory.

* `FileTree`: which paths are files, with what text, and which are directories;
* `FileTree.system`: the operations of a store on it;
* `FileTree.list`, `FileTree.erase?`: looking around and tidying up.
-/

namespace PoolKeeper

/-- Files and directories. -/
structure FileTree where
  files : List (Path × String)
  dirs : List Path
deriving Repr

namespace FileTree

/-- The tree with one empty directory. -/
def atRoot (root : Path) : FileTree := ⟨[], [root]⟩

instance : Inhabited FileTree := ⟨⟨[], []⟩⟩

/-- The text of a file. -/
def file? (t : FileTree) (p : Path) : Option String := t.files.lookup p

def isFile (t : FileTree) (p : Path) : Bool := t.files.any (·.1 == p)

/-- The path is a directory; the empty path always is. -/
def isDir (t : FileTree) (p : Path) : Bool := p.isEmpty || t.dirs.contains p

/-- A path and those above it, the highest first. -/
def downTo (p : Path) : List Path := (List.range (p.length + 1)).map fun n => p.take n

/-- The paths above a path. -/
def above (p : Path) : List Path := downTo p.dropLast

/-- A file stands where the path needs a directory. -/
def isBlocked (t : FileTree) (p : Path) : Bool := (above p).any t.isFile

/-- What reading a path gives. -/
def read (p : Path) (t : FileTree) : FileContent :=
  match t.file? p with
  | some s => .text s
  | none =>
    if t.isDir p then .unreadable "Is a directory"
    else if t.isBlocked p then .unreadable "Not a directory"
    else .missing

/-- The tree without a file. -/
def erase (t : FileTree) (p : Path) : FileTree := ⟨t.files.filter (·.1 != p), t.dirs⟩

/-- The tree with a file set to a text. -/
def set (t : FileTree) (p : Path) (s : String) : FileTree := ⟨(p, s) :: (t.erase p).files, t.dirs⟩

/-- Creates a directory and those above it. -/
def createDirs (p : Path) (t : FileTree) : Except String Unit × FileTree :=
  if t.isBlocked p then (.error "Not a directory", t)
  else if t.isFile p then (.error "File exists", t)
  else (.ok (), ⟨t.files, t.dirs ++ (downTo p).filter fun q => !t.isDir q⟩)

/-- Writes a file into a directory that is there. -/
def write (p : Path) (s : String) (t : FileTree) : Except String Unit × FileTree :=
  if t.isDir p then (.error "Is a directory", t)
  else if t.isDir p.dropLast then (.ok (), t.set p s)
  else if t.isBlocked p then (.error "Not a directory", t)
  else (.error "No such file or directory", t)

/-- Moves a file; a directory is no place for it. -/
def rename (source target : Path) (t : FileTree) : Except String Unit × FileTree :=
  match t.file? source with
  | none => (.error "No such file or directory", t)
  | some s =>
    if t.isDir target then (.error "Is a directory", t)
    else if t.isDir target.dropLast then (.ok (), (t.erase source).set target s)
    else (.error "No such file or directory", t)

/-- The operations of a store on a tree of files. -/
def system : FileSystem FileTree := { read, createDirs, write, rename }

/-- The names in a directory, in order. -/
def list (p : Path) (t : FileTree) : List String :=
  let names := (t.files.map Prod.fst ++ t.dirs).filterMap fun q =>
    if q ≠ [] ∧ q.dropLast = p then q.getLast? else none
  names.mergeSort (· ≤ ·)

/-- Removes a file, if it is there. -/
def erase? (p : Path) (t : FileTree) : Option FileTree :=
  if t.isFile p then some (t.erase p) else none

end FileTree

end PoolKeeper
