import PoolKeeper.Json.Decoder
import PoolKeeper.Json.Writer

/-!
# Documents

* `Codec`: how values of a type are written as JSON and read again;
* `Codec.list`, `Codec.names`: lists, and types of finitely many names;
* `Codec.toText`, `Codec.ofText?`: whole documents, one member on a line.
-/

namespace PoolKeeper

/-- How values of a type are written as JSON and read again. -/
structure Codec (α : Type) where
  encode : α → Json
  decode : Decoder α

namespace Codec

variable {α : Type}

/-- Any JSON value. -/
def json : Codec Json := ⟨id, Decoder.json⟩

/-- Times. -/
def instant : Codec Instant := ⟨fun t => .string t.toText, Decoder.instant⟩

/-- Lists. -/
def list (c : Codec α) : Codec (List α) := ⟨fun xs => .array (xs.map c.encode), c.decode.list⟩

/-- Values that have names. -/
def names (text : α → String) (table : List (String × α)) : Codec α :=
  ⟨fun x => .string (text x), Decoder.named table⟩

/-- A document. -/
def toText (c : Codec α) (x : α) : String := (c.encode x).write Json.indented

/-- The value of a document. -/
def ofText? (c : Codec α) (text : String) : Option α := decode? c.decode text

/-- A value or null. -/
def encodeOption (c : Codec α) : Option α → Json
  | some x => c.encode x
  | none => .null

end Codec

end PoolKeeper
