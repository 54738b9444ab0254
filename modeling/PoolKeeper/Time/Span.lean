/-!
# Spans of time

A span is a length of time without a sign, in whole nanoseconds. The longest one holds as many
seconds as a 64-bit word can count; sums and multiples stop there.

* `Span.ofSeconds`, `Span.ofMillis`, `Span.scale`, `Span.plus`: construction, saturating;
* `Span.text`: the largest unit that has a whole part, then the fraction without trailing zeros.
-/

namespace PoolKeeper

/-- A length of time. -/
structure Span where
  nanos : Nat
deriving DecidableEq, Repr

namespace Span

/-- The longest span: a full 64-bit count of seconds and the fraction just below one more. -/
def longest : Span := ⟨0xFFFF_FFFF_FFFF_FFFF * 1_000_000_000 + 999_999_999⟩

instance : Inhabited Span := ⟨⟨0⟩⟩

instance : LE Span := ⟨fun a b => a.nanos ≤ b.nanos⟩
instance : LT Span := ⟨fun a b => a.nanos < b.nanos⟩
instance (a b : Span) : Decidable (a ≤ b) := inferInstanceAs (Decidable (a.nanos ≤ b.nanos))
instance (a b : Span) : Decidable (a < b) := inferInstanceAs (Decidable (a.nanos < b.nanos))

def ofSeconds (n : Nat) : Span := ⟨n * 1_000_000_000⟩

def ofMillis (n : Nat) : Span := ⟨n * 1_000_000⟩

/-- The whole seconds of a span. -/
def seconds (d : Span) : Nat := d.nanos / 1_000_000_000

/-- A multiple of a span, at most the longest one. -/
def scale (d : Span) (factor : Nat) : Span := ⟨min longest.nanos (d.nanos * factor)⟩

/-- The sum of two spans, at most the longest one. -/
def plus (a b : Span) : Span := ⟨min longest.nanos (a.nanos + b.nanos)⟩

/-- `part` in units of `1 / 10 ^ width`, as decimal digits without trailing zeros, after a point;
nothing when `part` is zero. -/
def fractionText (part width : Nat) : String :=
  let digits := (toString part).toList
  let padded := List.replicate (width - digits.length) '0' ++ digits
  let kept := (padded.reverse.dropWhile (· == '0')).reverse
  if kept.isEmpty then "" else "." ++ String.ofList kept

/-- A span in words: `1.5s`, `100ms`, `999ns`. -/
def text (d : Span) : String :=
  if 1_000_000_000 ≤ d.nanos then
    toString (d.nanos / 1_000_000_000) ++ fractionText (d.nanos % 1_000_000_000) 9 ++ "s"
  else if 1_000_000 ≤ d.nanos then
    toString (d.nanos / 1_000_000) ++ fractionText (d.nanos % 1_000_000) 6 ++ "ms"
  else if 1_000 ≤ d.nanos then
    toString (d.nanos / 1_000) ++ fractionText (d.nanos % 1_000) 3 ++ "µs"
  else
    toString d.nanos ++ "ns"

end Span

end PoolKeeper
