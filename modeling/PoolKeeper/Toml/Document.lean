import PoolKeeper.Toml.Value

/-!
# TOML documents

* `Toml.read?`: the tree of a document.
-/

namespace PoolKeeper.Toml

/-- A document under construction: its tables, and the path of the table that lines add to. -/
structure Draft where
  members : Members := []
  path : List String := []

/-- A header between brackets: the path it names and the text after it. -/
def header? (close : List Char) (cs : List Char) : Option (List String × List Char) := do
  let (path, rest) ← keyPath? (cs.length + 1) cs
  if rest.take close.length = close then some (path, rest.drop close.length) else none

/-- A draft after the header of a table. -/
def Draft.enter? (d : Draft) (opened : String → Members → Option Members) (path : List String) :
    Option Draft := do
  let key ← path.getLast?
  let members ← within? (opened key) path.dropLast d.members
  some ⟨members, path⟩

/-- A draft after one line that is not empty: a header, or a key and its value. -/
def Draft.line? (d : Draft) (cs : List Char) : Option (Draft × List Char) :=
  match cs with
  | '[' :: '[' :: rest => do
    let (path, rest) ← header? [']', ']'] rest
    some (← d.enter? appendTable? path, rest)
  | '[' :: rest => do
    let (path, rest) ← header? [']'] rest
    some (← d.enter? openTable? path, rest)
  | cs => do
    let (key, rest) ← keyPath? (cs.length + 1) cs
    let .cons '=' rest := rest | none
    let (x, rest) ← value? (2 * rest.length + 2) (skipBlanks rest)
    let members ← within? (insert? x key) d.path d.members
    some ({ d with members }, rest)

/-- A draft after the remaining lines. -/
def Draft.lines? : Nat → Draft → List Char → Option Draft
  | 0, _, _ => none
  | fuel + 1, d, cs =>
    match skipLines cs.length cs with
    | [] => some d
    | cs =>
      match endOfLine? cs with
      | some [] => some d
      | _ => do
        let (d, rest) ← d.line? cs
        lines? fuel d (← endOfLine? rest)

/-- Text without the byte order mark that it may begin with. -/
def dropMark : List Char → List Char
  | '\ufeff' :: rest => rest
  | cs => cs

/-- The tree of a document. -/
def read? (s : String) : Option Node :=
  (Draft.lines? (s.length + 2) {} (dropMark s.toList)).map fun d => toNode d.members

end PoolKeeper.Toml
