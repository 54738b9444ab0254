/-!
# Binary floating-point numbers

The 64-bit format: a sign and a magnitude `m * 2 ^ q` with a 53-bit `m`. A magnitude is kept as its
bit pattern, whose order is the order of the numbers.

* `Binary64`, `Binary64.significand`, `Binary64.scale`: a number and the two parts of its magnitude;
* `Binary64.nearest?`: the magnitude nearest to a quotient, an exact half to the even neighbour;
* `Binary64.ofDecimal?`: the number that a decimal significand and exponent stand for;
* `Binary64.shortest`: the fewest decimal digits that are read back as the same magnitude;
* `Binary64.text`: those digits, positional up to sixteen places and with an exponent beyond.
-/

namespace PoolKeeper

/-- A finite number of the 64-bit format. -/
structure Binary64 where
  negative : Bool
  /-- The bit pattern without the sign: eleven bits of exponent above 52 bits of fraction. -/
  magnitude : Nat
deriving DecidableEq, Repr

namespace Binary64

/-- The whole number `m` of a magnitude `m * 2 ^ q`. -/
def significand (magnitude : Nat) : Nat :=
  if magnitude < 1 <<< 52 then magnitude else magnitude % (1 <<< 52) + (1 <<< 52)

/-- The exponent `q` of a magnitude `m * 2 ^ q`, as `q + 1074`. -/
def scale (magnitude : Nat) : Nat := magnitude / (1 <<< 52) - 1

/-- The bit pattern past the largest finite magnitude. -/
def overflow : Nat := 0x7FF <<< 52

/-- A quotient rounded to a whole number, an exact half to the even one. -/
def roundHalfEven (num den : Nat) : Nat :=
  let q := num / den
  let r := num % den
  if 2 * r < den then q else if den < 2 * r then q + 1 else q + q % 2

/-- The magnitude nearest to `num / den`, unless it is too large. -/
def nearest? (num den : Nat) : Option Nat :=
  if num = 0 then some 0
  else
    -- `num / den` lies strictly between `2 ^ (size - 1)` and `2 ^ (size + 1)`
    let size : Int := (num.log2 : Int) - den.log2
    let fits (q : Int) : Bool :=
      if 0 ≤ q then num < den <<< (53 + q.toNat) else num <<< (-q).toNat < den <<< 53
    let low := max (size - 53) (-1074)
    let q := if fits low then low else low + 1
    let m :=
      if 0 ≤ q then roundHalfEven num (den <<< q.toNat)
      else roundHalfEven (num <<< (-q).toNat) den
    let bits := if m < 1 <<< 52 then m else ((q + 1074).toNat <<< 52) + m
    if bits < overflow then some bits else none

/-- The product of a magnitude and `10 ^ k`, where both the power and the product are rounded. -/
def timesPower? (magnitude k : Nat) : Option Nat := do
  let power ← nearest? (Nat.pow 10 k) 1
  let m := significand magnitude * significand power
  let q := scale magnitude + scale power
  nearest? (m <<< q) (1 <<< (2 * 1074))

/-- The quotient of a magnitude by `10 ^ k`, where both the power and the quotient are rounded. -/
def overPower? (magnitude k : Nat) : Option Nat := do
  let power ← nearest? (Nat.pow 10 k) 1
  nearest? (significand magnitude <<< scale magnitude) (significand power <<< scale power)

/-- Division by `10 ^ k` in steps of at most `10 ^ 308`, the largest power of ten there is. -/
def overPowers? (magnitude : Nat) : Nat → Nat → Option Nat
  | 0, _ => some magnitude
  | steps + 1, k =>
    if magnitude = 0 then some 0
    else if k ≤ 308 then overPower? magnitude k
    else do overPowers? (← overPower? magnitude 308) steps (k - 308)

/-- The magnitude of `significand * 10 ^ exponent`: the significand is rounded, then scaled. -/
def ofDecimal? (significand : Nat) (exponent : Int) : Option Nat := do
  let m ← nearest? significand 1
  if exponent < 0 then overPowers? m 4 exponent.natAbs
  else if m = 0 then some 0
  else if exponent ≤ 308 then timesPower? m exponent.toNat
  else none

/-! ## Writing -/

/-- The magnitude is what `digits * 10 ^ exponent` rounds to. -/
def readsBack (magnitude digits : Nat) (exponent : Int) : Bool :=
  (if 0 ≤ exponent then nearest? (digits * Nat.pow 10 exponent.toNat) 1
    else nearest? digits (Nat.pow 10 exponent.natAbs)) == some magnitude

/-- The nearest of the two points of the grid `10 ^ exponent` around a magnitude that is read back
as that magnitude. -/
def onGrid? (magnitude : Nat) (exponent : Int) : Option Nat :=
  let m := significand magnitude <<< scale magnitude
  let (num, den) :=
    if 0 ≤ exponent then (m, Nat.pow 10 exponent.toNat <<< 1074)
    else (m * Nat.pow 10 exponent.natAbs, 1 <<< 1074)
  let near := roundHalfEven num den
  let far := if num / den = near then near + 1 else num / den
  if readsBack magnitude near exponent then some near
  else if readsBack magnitude far exponent then some far
  else none

/-- An exponent of ten below which a positive magnitude does not reach, and within two of it. -/
def decimalSize (magnitude : Nat) : Int :=
  (((significand magnitude).log2 + scale magnitude : Nat) - (1074 : Int)) * 30103 / 100000

/-- The first grid, from coarse to fine, that holds a decimal read back as the magnitude. -/
def searchGrids (magnitude : Nat) : Nat → Int → Nat × Int
  | 0, exponent => ((onGrid? magnitude exponent).getD 0, exponent)
  | steps + 1, exponent =>
    match onGrid? magnitude exponent with
    | some digits => if digits = 0 then searchGrids magnitude steps (exponent - 1) else (digits, exponent)
    | none => searchGrids magnitude steps (exponent - 1)

/-- The fewest digits that are read back as a positive magnitude, and their exponent of ten. -/
def shortest (magnitude : Nat) : Nat × Int :=
  searchGrids magnitude 20 (decimalSize magnitude + 1)

/-- `n` zeros. -/
def zeros (n : Nat) : String := String.ofList (List.replicate n '0')

/-- Digits and an exponent of ten as text: a point stands among or beside the digits while the
number has at most sixteen places before it or four zeros after it; else an exponent follows. -/
def decimalText (digits : Nat) (exponent : Int) : String :=
  let ds := (toString digits).toList
  let point := ds.length + exponent
  if 0 ≤ exponent ∧ point ≤ 16 then String.ofList ds ++ zeros exponent.toNat ++ ".0"
  else if 0 < point ∧ point ≤ 16 then
    String.ofList (ds.take point.toNat) ++ "." ++ String.ofList (ds.drop point.toNat)
  else if -5 < point ∧ point ≤ 0 then "0." ++ zeros point.natAbs ++ String.ofList ds
  else if ds.length = 1 then String.ofList ds ++ "e" ++ toString (point - 1)
  else
    String.ofList (ds.take 1) ++ "." ++ String.ofList (ds.drop 1) ++ "e" ++ toString (point - 1)

/-- A number without trailing zeros in its digits. -/
def trimZeros : Nat → Nat × Int → Nat × Int
  | 0, p => p
  | steps + 1, (digits, exponent) =>
    if digits % 10 = 0 ∧ digits ≠ 0 then trimZeros steps (digits / 10, exponent + 1)
    else (digits, exponent)

/-- A number as text, as in `1.5`, `-0.0` and `1e21`. -/
def text (x : Binary64) : String :=
  let sign := if x.negative then "-" else ""
  if x.magnitude = 0 then sign ++ "0.0"
  else
    let (digits, exponent) := trimZeros 20 (shortest x.magnitude)
    sign ++ decimalText digits exponent

end Binary64

end PoolKeeper
