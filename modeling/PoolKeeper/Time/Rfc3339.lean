import PoolKeeper.Time.Instant
import PoolKeeper.Text.Blank

/-!
# Times as text

Times are written in UTC by RFC 3339, with the shortest exact fraction of 3, 6 or 9 digits and
none for a whole second. They are read with any offset, and a little more freely than they are
written: fields may have fewer digits, blanks may stand before fields, the offset's colon may be
missing.

* `Instant.toText`: the written form;
* `Instant.ofText?`: the time that a text stands for, if it is one.
-/

namespace PoolKeeper

/-- `n` in decimal, with zeros in front up to `width` digits. -/
def padded (width n : Nat) : String :=
  let digits := toString n
  String.ofList (List.replicate (width - digits.length) '0') ++ digits

namespace Instant

/-- Years have four digits; beyond them a sign and at least four. -/
def yearText (year : Int) : String :=
  if 0 ≤ year ∧ year ≤ 9999 then padded 4 year.toNat
  else (if year < 0 then "-" else "+") ++ padded 4 year.natAbs

/-- The shortest exact fraction of 3, 6 or 9 digits. -/
def fractionText (nano : Nat) : String :=
  if nano = 0 then ""
  else if nano % 1_000_000 = 0 then "." ++ padded 3 (nano / 1_000_000)
  else if nano % 1_000 = 0 then "." ++ padded 6 (nano / 1_000)
  else "." ++ padded 9 nano

/-- The written form of a time, as in `2024-01-01T12:00:00.500Z`. -/
def toText (t : Instant) : String :=
  let d := t.date
  let s := t.secondOfDay
  let leap := if t.nano < 1_000_000_000 then 0 else 1
  yearText d.year ++ "-" ++ padded 2 d.month ++ "-" ++ padded 2 d.day ++ "T"
    ++ padded 2 (s / 3600) ++ ":" ++ padded 2 (s / 60 % 60) ++ ":" ++ padded 2 (s % 60 + leap)
    ++ fractionText (t.nano - leap * 1_000_000_000) ++ "Z"

/-! ## Reading -/

/-- The number that a list of digits spells. -/
def digitsValue (ds : List Char) : Nat :=
  ds.foldl (fun n c => 10 * n + (c.toNat - '0'.toNat)) 0

/-- A number of one to `most` digits. -/
def number? (most : Nat) (cs : List Char) : Option (Nat × List Char) :=
  let ds := (cs.take most).takeWhile Char.isDigit
  if ds.isEmpty then none else some (digitsValue ds, cs.drop ds.length)

/-- A numeric field with blanks in front. -/
def field? (most : Nat) (cs : List Char) : Option (Nat × List Char) :=
  number? most (Text.dropBlank cs)

/-- A mark with blanks in front. -/
def mark? (mark : Char) (cs : List Char) : Option (List Char) :=
  match Text.dropBlank cs with
  | c :: rest => if c = mark then some rest else none
  | [] => none

/-- A year: up to four digits, or a sign and any number of them. -/
def year? (cs : List Char) : Option (Int × List Char) :=
  match Text.dropBlank cs with
  | '-' :: rest => (number? rest.length rest).map fun (n, rest) => (-(n : Int), rest)
  | '+' :: rest => (number? rest.length rest).map fun (n, rest) => ((n : Int), rest)
  | cs => (number? 4 cs).map fun (n, rest) => ((n : Int), rest)

/-- A fraction of a second, in nanoseconds; digits after the ninth are dropped. -/
def fraction? (cs : List Char) : Option (Nat × List Char) :=
  match cs with
  | '.' :: rest => do
    let (n, after) ← number? 9 rest
    some (n * Nat.pow 10 (9 - (rest.length - after.length)), after.dropWhile Char.isDigit)
  | cs => some (0, cs)

/-- Exactly two digits. -/
def twoDigits? (cs : List Char) : Option (Nat × List Char) :=
  match cs with
  | a :: b :: rest =>
    if a.isDigit ∧ b.isDigit then some (digitsValue [a, b], rest) else none
  | _ => none

/-- The offset from UTC in seconds: `Z`, `UTC`, or a sign, hours and minutes. -/
def offset? (cs : List Char) : Option (Int × List Char) :=
  match cs.take 3 |>.map Char.toUpper with
  | ['U', 'T', 'C'] => some (0, cs.drop 3)
  | _ =>
    match cs with
    | [] => none
    | sign :: rest =>
      if sign = 'Z' ∨ sign = 'z' then some (0, rest)
      else if sign = '+' ∨ sign = '-' ∨ sign = '−' then do
        let (hours, rest) ← twoDigits? rest
        let (minutes, rest) ← twoDigits? (rest.dropWhile fun c => c = ':' || Text.isBlank c)
        if 60 ≤ minutes then none
        else
          let seconds : Int := hours * 3600 + minutes * 60
          some (if sign = '+' then seconds else -seconds, rest)
      else none

/-- The years that can be handled. -/
def yearInRange (year : Int) : Bool := -262143 ≤ year && year ≤ 262142

/-- The time that a text stands for. A sixtieth second is a leap second. The year must be in range
both as written and in UTC. -/
def ofText? (s : String) : Option Instant := do
  let (year, cs) ← year? s.toList
  let cs ← mark? '-' cs
  let (month, cs) ← field? 2 cs
  let cs ← mark? '-' cs
  let (day, cs) ← field? 2 cs
  let cs ← match cs with
    | c :: rest => if c = 'T' ∨ c = 't' ∨ c = ' ' then some rest else none
    | [] => none
  let (hour, cs) ← field? 2 cs
  let cs ← mark? ':' cs
  let (minute, cs) ← field? 2 cs
  let cs ← mark? ':' cs
  let (second, cs) ← field? 2 cs
  let (nano, cs) ← fraction? cs
  let (offset, cs) ← offset? (Text.dropBlank cs)
  let date : Date := ⟨year, month, day⟩
  if cs.isEmpty ∧ yearInRange year ∧ date.IsReal ∧ hour ≤ 23 ∧ minute ≤ 59 ∧ second ≤ 60
      ∧ offset.natAbs < 86400 then
    let leap := if second = 60 then 1 else 0
    let t : Instant :=
      ⟨date.toDays * 86400 + hour * 3600 + minute * 60 + (second - leap : Nat) - offset,
        nano + leap * 1_000_000_000⟩
    if yearInRange t.date.year then some t else none
  else none

end Instant

end PoolKeeper
