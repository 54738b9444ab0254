/-!
# Errors of the storage

* `StorageError`, `StorageError.message`: why a document was not read or written, and where.
-/

namespace PoolKeeper

/-- Why a document was not read or written. -/
inductive StorageError where
  /-- A file operation failed. -/
  | io (path message : String)
  /-- The document is not what it should be. -/
  | serialization (path message : String)
deriving DecidableEq, Repr

namespace StorageError

def message : StorageError → String
  | io path message => s!"storage I/O error on {path}: {message}"
  | serialization path message => s!"failed to (de)serialize {path}: {message}"

end StorageError

end PoolKeeper
