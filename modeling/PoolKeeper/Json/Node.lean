import PoolKeeper.Json.Basic

/-!
# JSON texts

A text is read in two steps. `Node.read?` checks the grammar and gives the tree as it was written:
numbers by their digits, members in the order of the text with repetitions, a string that no
sequence of characters spells marked as such. What the tree is worth is decided afterwards, part
by part, because a part that nobody looks at need not make sense.

* `Numeral`, `Numeral.number?`, `Numeral.natural?`: a number as written and its value;
* `Node`: a text's tree; `Node.read?`: the tree of a text;
* `Node.json?`: the value of a tree, within a bound on nesting;
* `Node.ofJson`: the tree of a value.
-/

namespace PoolKeeper

/-- A number as written. -/
structure Numeral where
  negative : Bool
  /-- The digits before the point. -/
  whole : List Char
  /-- The digits after the point, if there is one. -/
  fraction : Option (List Char)
  /-- The exponent's sign and digits, if there is one. -/
  exponent : Option (Bool × List Char)
deriving DecidableEq, Repr

/-- A JSON text as written. -/
inductive Node where
  | null
  | bool (b : Bool)
  | number (n : Numeral)
  /-- Nothing stands for escapes that spell half a surrogate pair. -/
  | string (s : Option String)
  | array (items : List Node)
  | object (members : List (Option String × Node))
deriving Repr

instance : Inhabited Node := ⟨.null⟩

namespace Numeral

/-- The value of a decimal digit. -/
def digit (c : Char) : Nat := c.toNat - '0'.toNat

/-- The value of a list of digits. -/
def natOf (ds : List Char) : Nat := ds.foldl (fun n c => 10 * n + digit c) 0

/-- The whole numbers of a 64-bit word end here. -/
def wordLimit : Nat := 0x1_0000_0000_0000_0000

/-- Digits appended to a significand while it fits a word: the significand, and the digits left. -/
def absorb : Nat → List Char → Nat × List Char
  | n, [] => (n, [])
  | n, c :: rest =>
    if 10 * n + digit c < wordLimit then absorb (10 * n + digit c) rest else (n, c :: rest)

/-- The decimal significand that fits a word and the exponent of ten that belongs to it. Digits
before the point that do not fit are made up for by the exponent, those after it are dropped. -/
def decimal (x : Numeral) : Nat × Int :=
  let (n, left) := absorb 0 x.whole
  match x.fraction with
  | none => (n, left.length)
  | some ds =>
    let (m, unused) := absorb n ds
    (m, (left.length : Int) - (ds.length - unused.length : Nat))

/-- The exponent as written, if it is of any use: beyond 32 bits it can only overflow or vanish. -/
def exponentOf (ds : List Char) : Option Nat :=
  let n := natOf ds
  if n < 0x8000_0000 then some n else none

/-- The value as a number that need not be whole; nothing if it is too large. -/
def real? (x : Numeral) : Option Binary64 :=
  let (n, shift) := x.decimal
  let magnitude :=
    match x.exponent with
    | none => Binary64.ofDecimal? n shift
    | some (minus, ds) =>
      match exponentOf ds with
      | some e => Binary64.ofDecimal? n (if minus then shift - e else shift + e)
      | none => if n ≠ 0 ∧ ¬ minus then none else some 0
  magnitude.map fun m => ⟨x.negative, m⟩

/-- The value of a number, unless it is too large for any format. -/
def number? (x : Numeral) : Option Json.Number :=
  match x.fraction, x.exponent, absorb 0 x.whole with
  | none, none, (n, []) =>
    if ¬ x.negative then some (.whole n)
    else if 0 < n ∧ n ≤ 0x8000_0000_0000_0000 then some (.whole (-n))
    else x.real?.map .real
  | _, _, _ => x.real?.map .real

/-- The value of an unsigned whole number of a 64-bit word. -/
def natural? (x : Numeral) : Option Nat :=
  match x.fraction, x.exponent with
  | none, none => if ¬ x.negative ∧ natOf x.whole < wordLimit then some (natOf x.whole) else none
  | _, _ => none

/-- A whole number as written. -/
def ofInt (n : Int) : Numeral := ⟨n < 0, (toString n.natAbs).toList, none, none⟩

end Numeral

namespace Node

/-! ## Reading -/

/-- White space between tokens. -/
def isSpace (c : Char) : Bool := c = ' ' || c = '\t' || c = '\n' || c = '\r'

/-- Text without the white space in front. -/
def skipSpace (cs : List Char) : List Char := cs.dropWhile isSpace

/-- The value of a hexadecimal digit. -/
def hexDigit? (c : Char) : Option Nat :=
  if c.isDigit then some (c.toNat - '0'.toNat)
  else if 'a' ≤ c ∧ c ≤ 'f' then some (c.toNat - 'a'.toNat + 10)
  else if 'A' ≤ c ∧ c ≤ 'F' then some (c.toNat - 'A'.toNat + 10)
  else none

/-- A piece of a string: a character, or a 16-bit unit spelled by an escape. -/
inductive Piece where
  | char (c : Char)
  | unit (n : Nat)
deriving Repr

/-- The character that a one-letter escape stands for. -/
def escape? (c : Char) : Option Char :=
  match c with
  | '"' => some '"'
  | '\\' => some '\\'
  | '/' => some '/'
  | 'b' => some '\x08'
  | 'f' => some '\x0c'
  | 'n' => some '\n'
  | 'r' => some '\r'
  | 't' => some '\t'
  | _ => none

/-- The pieces of a string up to its closing quote. -/
def pieces? : List Char → Option (List Piece × List Char)
  | [] => none
  | '"' :: rest => some ([], rest)
  | '\\' :: 'u' :: a :: b :: c :: d :: rest => do
    let n := (← hexDigit? a) * 4096 + (← hexDigit? b) * 256 + (← hexDigit? c) * 16 + (← hexDigit? d)
    let (ps, rest) ← pieces? rest
    some (.unit n :: ps, rest)
  | '\\' :: c :: rest => do
    let e ← escape? c
    let (ps, rest) ← pieces? rest
    some (.char e :: ps, rest)
  | c :: rest =>
    if c = '\\' ∨ c.toNat < 0x20 then none
    else do
      let (ps, rest) ← pieces? rest
      some (.char c :: ps, rest)

/-- The first half of a surrogate pair. -/
def isHigh (n : Nat) : Bool := 0xD800 ≤ n && n < 0xDC00

/-- The second half of a surrogate pair. -/
def isLow (n : Nat) : Bool := 0xDC00 ≤ n && n < 0xE000

/-- The characters that pieces spell; each half of a surrogate pair needs the other. -/
def assemble? : List Piece → Option (List Char)
  | [] => some []
  | .char c :: rest => (assemble? rest).map (c :: ·)
  | .unit n :: .unit m :: rest =>
    if isHigh n then
      if isLow m then
        (assemble? rest).map (Char.ofNat (0x10000 + (n - 0xD800) * 0x400 + (m - 0xDC00)) :: ·)
      else none
    else if isLow n then none
    else (assemble? (.unit m :: rest)).map (Char.ofNat n :: ·)
  | .unit n :: rest =>
    if isHigh n ∨ isLow n then none else (assemble? rest).map (Char.ofNat n :: ·)

/-- A string after its opening quote. -/
def string? (cs : List Char) : Option (Option String × List Char) := do
  let (ps, rest) ← pieces? cs
  some ((assemble? ps).map String.ofList, rest)

/-- One digit or more. -/
def digits? (cs : List Char) : Option (List Char × List Char) :=
  let ds := cs.takeWhile Char.isDigit
  if ds.isEmpty then none else some (ds, cs.dropWhile Char.isDigit)

/-- The digits before the point: no zero in front of others. -/
def wholeDigits? (cs : List Char) : Option (List Char × List Char) :=
  match cs with
  | '0' :: rest => some (['0'], rest)
  | cs => digits? cs

/-- The digits after the point, if there is a point. -/
def fraction? (cs : List Char) : Option (Option (List Char) × List Char) :=
  match cs with
  | '.' :: rest => (digits? rest).map fun (ds, rest) => (some ds, rest)
  | cs => some (none, cs)

/-- The exponent, if there is one. -/
def exponent? (cs : List Char) : Option (Option (Bool × List Char) × List Char) :=
  match cs with
  | c :: rest =>
    if c = 'e' ∨ c = 'E' then
      match rest with
      | '-' :: rest => (digits? rest).map fun (ds, rest) => (some (true, ds), rest)
      | '+' :: rest => (digits? rest).map fun (ds, rest) => (some (false, ds), rest)
      | rest => (digits? rest).map fun (ds, rest) => (some (false, ds), rest)
    else some (none, c :: rest)
  | [] => some (none, [])

/-- A number without its sign. -/
def unsigned? (negative : Bool) (cs : List Char) : Option (Node × List Char) := do
  let (whole, cs) ← wholeDigits? cs
  let (fraction, cs) ← fraction? cs
  let (exponent, cs) ← exponent? cs
  some (number ⟨negative, whole, fraction, exponent⟩, cs)

/-- A number. -/
def number? (cs : List Char) : Option (Node × List Char) :=
  match cs with
  | '-' :: rest => unsigned? true rest
  | cs => unsigned? false cs

mutual

/-- One value, with white space in front. The first argument bounds the number of nested calls. -/
def value? : Nat → List Char → Option (Node × List Char)
  | 0, _ => none
  | fuel + 1, cs =>
    match skipSpace cs with
    | 'n' :: 'u' :: 'l' :: 'l' :: rest => some (null, rest)
    | 't' :: 'r' :: 'u' :: 'e' :: rest => some (bool true, rest)
    | 'f' :: 'a' :: 'l' :: 's' :: 'e' :: rest => some (bool false, rest)
    | '"' :: rest => (string? rest).map fun (s, rest) => (string s, rest)
    | '[' :: rest =>
      match skipSpace rest with
      | ']' :: rest => some (array [], rest)
      | rest => (items? fuel rest).map fun (xs, rest) => (array xs, rest)
    | '{' :: rest =>
      match skipSpace rest with
      | '}' :: rest => some (object [], rest)
      | rest => (members? fuel rest).map fun (xs, rest) => (object xs, rest)
    | rest => number? rest

/-- The items of an array up to its closing bracket. -/
def items? : Nat → List Char → Option (List Node × List Char)
  | 0, _ => none
  | fuel + 1, cs => do
    let (x, rest) ← value? fuel cs
    match skipSpace rest with
    | ',' :: rest =>
      let (xs, rest) ← items? fuel rest
      some (x :: xs, rest)
    | ']' :: rest => some ([x], rest)
    | _ => none

/-- The members of an object up to its closing brace. -/
def members? : Nat → List Char → Option (List (Option String × Node) × List Char)
  | 0, _ => none
  | fuel + 1, cs => do
    let .cons '"' rest := skipSpace cs | none
    let (name, rest) ← string? rest
    let .cons ':' rest := skipSpace rest | none
    let (x, rest) ← value? fuel rest
    match skipSpace rest with
    | ',' :: rest =>
      let (xs, rest) ← members? fuel rest
      some ((name, x) :: xs, rest)
    | '}' :: rest => some ([(name, x)], rest)
    | _ => none

end

/-- The tree of a text that holds one value and nothing else. -/
def readChars? (cs : List Char) : Option Node := do
  let (x, rest) ← value? (2 * cs.length + 2) cs
  if (skipSpace rest).isEmpty then some x else none

/-- The tree of a text that holds one value and nothing else. -/
def read? (s : String) : Option Node := readChars? s.toList

/-! ## Values -/

mutual

/-- The value of a tree with at most `depth` levels of arrays and objects. -/
def json? (depth : Nat) : Node → Option Json
  | null => some .null
  | bool b => some (.bool b)
  | number n => n.number?.map .number
  | string s => s.map .string
  | array xs =>
    match depth with
    | 0 => none
    | depth + 1 => (jsonItems? depth xs).map .array
  | object xs =>
    match depth with
    | 0 => none
    | depth + 1 => (jsonMembers? depth xs).map Json.ofMembers

/-- The values of a list of trees. -/
def jsonItems? (depth : Nat) : List Node → Option (List Json)
  | [] => some []
  | x :: xs => do
    let y ← json? depth x
    let ys ← jsonItems? depth xs
    some (y :: ys)

/-- The values of a list of members. -/
def jsonMembers? (depth : Nat) : List (Option String × Node) → Option (List (String × Json))
  | [] => some []
  | (name, x) :: xs => do
    let name ← name
    let y ← json? depth x
    let ys ← jsonMembers? depth xs
    some ((name, y) :: ys)

end

mutual

/-- A value as it is written. A number that is not whole is written by its text elsewhere; here it
stands as the digits of that text. -/
def ofJson : Json → Node
  | .null => null
  | .bool b => bool b
  | .number (.whole n) => number (Numeral.ofInt n)
  | .number (.real x) => ((number? x.text.toList).map Prod.fst).getD null
  | .string s => string (some s)
  | .array xs => array (ofItems xs)
  | .object xs => object (ofMembers xs)

/-- Values as they are written. -/
def ofItems : List Json → List Node
  | [] => []
  | x :: xs => ofJson x :: ofItems xs

/-- Members as they are written. -/
def ofMembers : List (String × Json) → List (Option String × Node)
  | [] => []
  | (name, x) :: xs => (some name, ofJson x) :: ofMembers xs

end

end Node

end PoolKeeper
