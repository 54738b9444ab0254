/-!
# File systems

* `Path`: the names on the way to a file or directory; `Path.text`, `Path.ofText`: paths in words;
* `FileSystem`: the operations that a store needs of whatever keeps its files.
-/

namespace PoolKeeper

/-- The names on the way to a file or directory. -/
abbrev Path := List String

/-- A path in words. -/
def Path.text (p : Path) : String := "/".intercalate p

/-- The path that words spell. One from the top begins with an empty name. -/
def Path.ofText (s : String) : Path := (s.toList.splitOn '/').map String.ofList

/-- What reading a file gives. -/
inductive FileContent where
  | text (s : String)
  | missing
  | unreadable (why : String)
deriving DecidableEq, Repr

/-- File operations on files kept in a `φ`. An operation that fails says why. -/
structure FileSystem (φ : Type) where
  read : Path → φ → FileContent
  /-- Creates a directory and those above it, where they are not there already. -/
  createDirs : Path → φ → Except String Unit × φ
  /-- Writes a file, in place of any there was. -/
  write : Path → String → φ → Except String Unit × φ
  /-- Moves a file, in place of any there was. -/
  rename : Path → Path → φ → Except String Unit × φ

end PoolKeeper
