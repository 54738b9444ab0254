import PoolKeeper.Json.Basic

/-!
# Writing JSON

* `Json.Layout`: the white space that a writer puts between tokens; `Json.compact`, `Json.indented`;
* `Json.write`: a value as text.
-/

namespace PoolKeeper.Json

/-- White space between tokens. -/
structure Layout where
  /-- What stands before each item at a depth, and before the closing bracket one level up. -/
  lineBreak : Nat → List Char
  /-- What stands after a colon. -/
  afterColon : List Char

/-- No white space. -/
def compact : Layout := ⟨fun _ => [], []⟩

/-- One item on a line, two blanks per level. -/
def indented : Layout := ⟨fun depth => '\n' :: List.replicate (2 * depth) ' ', [' ']⟩

/-- A hexadecimal digit. -/
def hexDigit (n : Nat) : Char := Char.ofNat (if n < 10 then '0'.toNat + n else 'a'.toNat + n - 10)

/-- A character inside quotes: quote, backslash and control characters are escaped. -/
def escaped (c : Char) : List Char :=
  if c = '"' then ['\\', '"']
  else if c = '\\' then ['\\', '\\']
  else if c = '\x08' then ['\\', 'b']
  else if c = '\x0c' then ['\\', 'f']
  else if c = '\n' then ['\\', 'n']
  else if c = '\r' then ['\\', 'r']
  else if c = '\t' then ['\\', 't']
  else if c.toNat < 0x20 then
    ['\\', 'u', '0', '0', hexDigit (c.toNat / 16), hexDigit (c.toNat % 16)]
  else [c]

/-- Characters inside quotes. -/
def quotedChars : List Char → List Char
  | [] => ['"']
  | c :: rest => escaped c ++ quotedChars rest

/-- A string in quotes. -/
def quoted (s : String) : List Char := '"' :: quotedChars s.toList

/-- A number. -/
def Number.chars : Number → List Char
  | .whole n => (toString n).toList
  | .real x => x.text.toList

mutual

/-- A value at a depth. -/
def writeAt (l : Layout) (depth : Nat) : Json → List Char
  | null => ['n', 'u', 'l', 'l']
  | bool true => ['t', 'r', 'u', 'e']
  | bool false => ['f', 'a', 'l', 's', 'e']
  | number n => n.chars
  | string s => quoted s
  | array xs => '[' :: writeItems l depth xs
  | object xs => '{' :: writeMembers l depth xs

/-- The items of an array, each one level below a depth, and its closing bracket. -/
def writeItems (l : Layout) (depth : Nat) : List Json → List Char
  | [] => [']']
  | x :: xs =>
    l.lineBreak (depth + 1) ++ writeAt l (depth + 1) x
      ++ (if xs.isEmpty then l.lineBreak depth else [',']) ++ writeItems l depth xs

/-- The members of an object, each one level below a depth, and its closing brace. -/
def writeMembers (l : Layout) (depth : Nat) : List (String × Json) → List Char
  | [] => ['}']
  | (name, x) :: xs =>
    l.lineBreak (depth + 1) ++ quoted name ++ ':' :: l.afterColon ++ writeAt l (depth + 1) x
      ++ (if xs.isEmpty then l.lineBreak depth else [',']) ++ writeMembers l depth xs

end

/-- A value as text. -/
def write (l : Layout) (x : Json) : String := String.ofList (writeAt l 0 x)

end PoolKeeper.Json
