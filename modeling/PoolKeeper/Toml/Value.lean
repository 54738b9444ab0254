import PoolKeeper.Toml.Table

/-!
# TOML values

Values are read into the same trees as JSON texts, so that typed values are read from either.

* `Toml.key?`, `Toml.keyPath?`: keys and dotted keys;
* `Toml.value?`: one value;
* `Toml.endOfLine?`, `Toml.skipLines`: what may stand between values and lines.
-/

namespace PoolKeeper.Toml

/-- Text without the blanks and tabs in front. -/
def skipBlanks (cs : List Char) : List Char := cs.dropWhile fun c => c = ' ' || c = '\t'

/-- The characters that may stand in a comment or in a string on one line. -/
def isPrintable (c : Char) : Bool := c = '\t' || (0x20 ≤ c.toNat && c.toNat ≠ 0x7F)

/-- Text after a line break, if one comes first. -/
def lineBreak? : List Char → Option (List Char)
  | '\n' :: rest => some rest
  | '\r' :: '\n' :: rest => some rest
  | _ => none

/-- Text without the comment in front, if there is one. -/
def skipComment : List Char → List Char
  | '#' :: rest => rest.dropWhile isPrintable
  | cs => cs

/-- Text after blanks and a comment that end a line; the text itself may end there. -/
def endOfLine? (cs : List Char) : Option (List Char) :=
  match skipComment (skipBlanks cs) with
  | [] => some []
  | cs => lineBreak? cs

/-- Text without the blanks, comments and line breaks in front. -/
def skipLines : Nat → List Char → List Char
  | 0, cs => cs
  | fuel + 1, cs =>
    let cs := skipBlanks cs
    match lineBreak? (skipComment cs) with
    | some rest => skipLines fuel rest
    | none => cs

/-! ## Strings -/

/-- The value of hexadecimal digits. -/
def hex? (ds : List Char) : Option Nat :=
  ds.foldlM (fun n c => (Node.hexDigit? c).map (16 * n + ·)) 0

/-- A character by its code point. -/
def scalar? (n : Nat) : Option Char := if h : n.isValidChar then some (Char.ofNatAux n h) else none

/-- An escape after its backslash. -/
def escape? : List Char → Option (Char × List Char)
  | 'b' :: rest => some ('\x08', rest)
  | 't' :: rest => some ('\t', rest)
  | 'n' :: rest => some ('\n', rest)
  | 'f' :: rest => some ('\x0c', rest)
  | 'r' :: rest => some ('\r', rest)
  | 'e' :: rest => some ('\x1b', rest)
  | '"' :: rest => some ('"', rest)
  | '\\' :: rest => some ('\\', rest)
  | c :: rest => do
    let width ← [('x', 2), ('u', 4), ('U', 8)].lookup c
    let ds := rest.take width
    if ds.length = width then
      let c ← scalar? (← hex? ds)
      some (c, rest.drop width)
    else none
  | [] => none

/-- A string on one line after its opening quotation mark. -/
def basic? : Nat → List Char → Option (List Char × List Char)
  | 0, _ => none
  | fuel + 1, cs =>
    match cs with
    | '"' :: rest => some ([], rest)
    | '\\' :: rest => do
      let (c, rest) ← escape? rest
      let (s, rest) ← basic? fuel rest
      some (c :: s, rest)
    | c :: rest =>
      if isPrintable c then (basic? fuel rest).map fun (s, rest) => (c :: s, rest) else none
    | [] => none

/-- A string without escapes after its opening apostrophe. -/
def literal? (cs : List Char) : Option (List Char × List Char) :=
  let s := cs.takeWhile fun c => isPrintable c && c != '\''
  match cs.drop s.length with
  | '\'' :: rest => some (s, rest)
  | _ => none

/-- Closing quotes of a string of several lines: three, and up to two more that belong to it. -/
def closing? (quote : Char) (cs : List Char) : Option (List Char × List Char) :=
  let n := min 5 (cs.takeWhile (· == quote)).length
  if 3 ≤ n then some (List.replicate (n - 3) quote, cs.drop n) else none

/-- A string of several lines after its opening quotes. -/
def lines? (quote : Char) : Nat → List Char → Option (List Char × List Char)
  | 0, _ => none
  | fuel + 1, cs =>
    match closing? quote cs with
    | some done => some done
    | none =>
      match cs with
      | '\\' :: rest =>
        if quote = '"' then
          match lineBreak? (skipBlanks rest) with
          | some rest =>
            lines? quote fuel (rest.dropWhile fun c => c = ' ' || c = '\t' || c = '\n' || c = '\r')
          | none => do
            let (c, rest) ← escape? rest
            let (s, rest) ← lines? quote fuel rest
            some (c :: s, rest)
        else (lines? quote fuel rest).map fun (s, rest) => ('\\' :: s, rest)
      | '\r' :: '\n' :: rest => (lines? quote fuel rest).map fun (s, rest) => ('\n' :: s, rest)
      | c :: rest =>
        if isPrintable c ∨ c = '\n' then
          (lines? quote fuel rest).map fun (s, rest) => (c :: s, rest)
        else none
      | [] => none

/-- Text without the line break that may follow opening quotes. -/
def afterOpening (cs : List Char) : List Char := (lineBreak? cs).getD cs

/-- A string of any form. -/
def string? (cs : List Char) : Option (List Char × List Char) :=
  match cs with
  | '"' :: '"' :: '"' :: rest => lines? '"' (rest.length + 1) (afterOpening rest)
  | '\'' :: '\'' :: '\'' :: rest => lines? '\'' (rest.length + 1) (afterOpening rest)
  | '"' :: rest => basic? (rest.length + 1) rest
  | '\'' :: rest => literal? rest
  | _ => none

/-! ## Keys -/

/-- The characters of a bare key. -/
def isBare (c : Char) : Bool := c.isAlphanum || c = '_' || c = '-'

/-- A key: bare, or a string on one line. -/
def key? (cs : List Char) : Option (String × List Char) :=
  match cs with
  | '"' :: rest => (basic? (rest.length + 1) rest).map fun (s, rest) => (String.ofList s, rest)
  | '\'' :: rest => (literal? rest).map fun (s, rest) => (String.ofList s, rest)
  | cs =>
    let s := cs.takeWhile isBare
    if s.isEmpty then none else some (String.ofList s, cs.dropWhile isBare)

/-- Keys with points between them. -/
def keyPath? : Nat → List Char → Option (List String × List Char)
  | 0, _ => none
  | fuel + 1, cs => do
    let (k, rest) ← key? (skipBlanks cs)
    match skipBlanks rest with
    | '.' :: rest =>
      let (ks, rest) ← keyPath? fuel rest
      some (k :: ks, rest)
    | rest => some ([k], rest)

/-! ## Numbers -/

/-- Digits without the underscores between them; each stands between two digits. -/
def digits? (isDigit : Char → Bool) : List Char → Option (List Char)
  | [] => none
  | [c] => if isDigit c then some [c] else none
  | c :: '_' :: rest => if isDigit c then (digits? isDigit rest).map (c :: ·) else none
  | c :: rest => if isDigit c then (digits? isDigit rest).map (c :: ·) else none

/-- The value of digits to a base. -/
def natOf? (base : Nat) (cs : List Char) : Option Nat := do
  let value (c : Char) : Option Nat := (Node.hexDigit? c).filter (· < base)
  let ds ← digits? (fun c => (value c).isSome) cs
  ds.foldlM (fun n c => (value c).map (base * n + ·)) 0

/-- Decimal digits, where no zero stands in front of others. -/
def decimal? (cs : List Char) : Option (List Char) := do
  let ds ← digits? Char.isDigit cs
  match ds with
  | '0' :: _ :: _ => none
  | ds => some ds

/-- A whole number of a signed or unsigned 64-bit word. -/
def inRange? (n : Int) : Option Node :=
  if -0x8000_0000_0000_0000 ≤ n ∧ n < 0x1_0000_0000_0000_0000 then some (.number (Numeral.ofInt n))
  else none

/-- The sign of a number, and the rest. -/
def sign (cs : List Char) : Bool × List Char :=
  match cs with
  | '-' :: rest => (true, rest)
  | '+' :: rest => (false, rest)
  | cs => (false, cs)

/-- A whole number. -/
def integer? (cs : List Char) : Option Node :=
  match cs with
  | '0' :: 'x' :: rest => (natOf? 16 rest).bind fun n => inRange? n
  | '0' :: 'o' :: rest => (natOf? 8 rest).bind fun n => inRange? n
  | '0' :: 'b' :: rest => (natOf? 2 rest).bind fun n => inRange? n
  | cs => do
    let (minus, ds) := sign cs
    let n := Numeral.natOf (← decimal? ds)
    inRange? (if minus then -n else n)

/-- A number with a fraction or an exponent. -/
def real? (cs : List Char) : Option Node := do
  let (negative, cs) := sign cs
  let mantissa := cs.takeWhile fun c => c != 'e' && c != 'E'
  let exponent ← match cs.drop mantissa.length with
    | [] => some none
    | _ :: e =>
      let (minus, ds) := sign e
      (digits? Char.isDigit ds).map fun ds => some (minus, ds)
  let whole ← decimal? (mantissa.takeWhile (· != '.'))
  let fraction ← match mantissa.dropWhile (· != '.') with
    | [] => some none
    | _ :: ds => (digits? Char.isDigit ds).map some
  if fraction.isSome ∨ exponent.isSome then some (.number ⟨negative, whole, fraction, exponent⟩)
  else none

/-- The characters of a number or a truth value. -/
def isWordChar (c : Char) : Bool := c.isAlphanum || c = '_' || c = '+' || c = '-' || c = '.'

/-- A number or a truth value. -/
def word? (cs : List Char) : Option (Node × List Char) := do
  let w := cs.takeWhile isWordChar
  let x ← match w with
    | ['t', 'r', 'u', 'e'] => some (.bool true)
    | ['f', 'a', 'l', 's', 'e'] => some (.bool false)
    | w => integer? w <|> real? w
  some (x, cs.drop w.length)

/-! ## Values -/

mutual

/-- One value. -/
def value? : Nat → List Char → Option (Node × List Char)
  | 0, _ => none
  | fuel + 1, cs =>
    match cs with
    | '"' :: _ => (string? cs).map fun (s, rest) => (.string (some (String.ofList s)), rest)
    | '\'' :: _ => (string? cs).map fun (s, rest) => (.string (some (String.ofList s)), rest)
    | '[' :: rest =>
      (items? fuel (skipLines rest.length rest)).map fun (xs, rest) => (.array xs, rest)
    | '{' :: rest =>
      (members? fuel [] (skipLines rest.length rest)).map fun (xs, rest) => (toNode xs, rest)
    | cs => word? cs

/-- The items of an array up to its closing bracket. -/
def items? : Nat → List Char → Option (List Node × List Char)
  | 0, _ => none
  | fuel + 1, cs =>
    match cs with
    | ']' :: rest => some ([], rest)
    | cs => do
      let (x, rest) ← value? fuel cs
      match skipLines rest.length rest with
      | ',' :: rest =>
        let (xs, rest) ← items? fuel (skipLines rest.length rest)
        some (x :: xs, rest)
      | ']' :: rest => some ([x], rest)
      | _ => none

/-- The members of an inline table up to its closing brace, after those already read. -/
def members? : Nat → Members → List Char → Option (Members × List Char)
  | 0, _, _ => none
  | fuel + 1, members, cs =>
    match cs with
    | '}' :: rest => some (members, rest)
    | cs => do
      let (path, rest) ← keyPath? cs.length cs
      let .cons '=' rest := rest | none
      let (x, rest) ← value? fuel (skipBlanks rest)
      let members ← insert? x path members
      match skipLines rest.length rest with
      | ',' :: rest => members? fuel members (skipLines rest.length rest)
      | '}' :: rest => some (members, rest)
      | _ => none

end

end PoolKeeper.Toml
