import PoolKeeper.Json.Node
import PoolKeeper.Time.Rfc3339

/-!
# Reading typed values

A decoder reads one type of value from a tree. It is told how many further levels of arrays and
objects it may enter; only what it looks at counts. A record is written as an object, or as an
array of its fields in their order, from whose end fields with a default may be missing. An object
may have members that the record does not know; a field must not occur twice.

* `Decoder`; `Decoder.nat`, `Decoder.string`, `Decoder.list`, …: the plain types;
* `Decoder.named`: one of several names;
* `Slot`, `Decoder.record`: the fields of a record, found by `Slot.required`, `Slot.optional` and
  `Slot.withDefault`;
* `Decoder.maxDepth`, `decode?`: reading a whole text.
-/

namespace PoolKeeper

/-- Reads a value from a tree, entering at most the given number of levels. -/
abbrev Decoder (α : Type) := Nat → Node → Option α

/-- What a tree holds for one field of a record. -/
inductive Slot where
  | found (node : Node)
  /-- An object without this member. -/
  | missing
  /-- An array that ends before this field. -/
  | pastEnd
deriving Repr

namespace Decoder

variable {α : Type}

/-- Whole numbers below a limit. -/
def natBelow (limit : Nat) : Decoder Nat
  | _, .number n => n.natural?.filter (· < limit)
  | _, _ => none

/-- Counts of a 64-bit word. -/
def nat : Decoder Nat := natBelow Numeral.wordLimit

/-- Counts of a 32-bit word. -/
def nat32 : Decoder Nat := natBelow 0x1_0000_0000

/-- Truth values. -/
def bool : Decoder Bool
  | _, .bool b => some b
  | _, _ => none

/-- Strings. -/
def string : Decoder String
  | _, .string s => s
  | _, _ => none

/-- Times. -/
def instant : Decoder Instant := fun depth x => (string depth x).bind Instant.ofText?

/-- Any value. -/
def json : Decoder Json := Node.json?

/-- A value or null. -/
def nullable (dec : Decoder α) : Decoder (Option α)
  | _, .null => some none
  | depth, x => (dec depth x).map some

/-- Arrays. -/
def list (dec : Decoder α) : Decoder (List α)
  | depth + 1, .array xs => xs.mapM (dec depth)
  | _, _ => none

/-- One of several names: the name itself, or an object whose only member has that name and the
value null. -/
def named (table : List (String × α)) : Decoder α
  | _, .string (some s) => table.lookup s
  | _ + 1, .object [(some s, .null)] => table.lookup s
  | _, _ => none

/-- The members of an object that have a given name. -/
def membersNamed (name : String) (members : List (Option String × Node)) : List Node :=
  members.filterMap fun m => if m.1 = some name then some m.2 else none

/-- The slot of a field in an object; nothing if it occurs twice. -/
def slot? (members : List (Option String × Node)) (name : String) : Option Slot :=
  match membersNamed name members with
  | [] => some .missing
  | [x] => some (.found x)
  | _ => none

/-- The slots of a record's fields. -/
def slots? (names : List String) : Node → Option (List Slot)
  | .object members =>
    if members.all (·.1.isSome) then names.mapM (slot? members) else none
  | .array items =>
    if items.length ≤ names.length then
      some (items.map .found ++ List.replicate (names.length - items.length) .pastEnd)
    else none
  | _ => none

/-- A record with the given field names, put together from their slots. -/
def record (names : List String) (build : Nat → List Slot → Option α) : Decoder α
  | 0, _ => none
  | depth + 1, x => (slots? names x).bind (build depth)

end Decoder

namespace Slot

variable {α : Type}

/-- A field that must be there. -/
def required (dec : Decoder α) (depth : Nat) : Slot → Option α
  | found x => dec depth x
  | _ => none

/-- A field that an object may leave out, or set to null. -/
def optional (dec : Decoder α) (depth : Nat) : Slot → Option (Option α)
  | found x => dec.nullable depth x
  | missing => some none
  | pastEnd => none

/-- A field with a value that it has when left out. -/
def withDefault (default : α) (dec : Decoder α) (depth : Nat) : Slot → Option α
  | found x => dec depth x
  | _ => some default

end Slot

/-- The levels of arrays and objects that a text may have. -/
def maxDepth : Nat := 127

/-- The value of a text. -/
def decode? {α : Type} (dec : Decoder α) (text : String) : Option α :=
  (Node.read? text).bind (dec maxDepth)

end PoolKeeper
