import PoolKeeper.Time.Instant

/-!
# Tickers

* `Ticker`: ticks at a fixed distance; `Ticker.fire`: what is left when a tick is taken.
-/

namespace PoolKeeper

/-- Ticks at a fixed distance. -/
structure Ticker where
  /-- The time of the next tick. -/
  due : Instant
  period : Span
deriving DecidableEq, Repr

namespace Ticker

/-- A tick taken this much late or less does not move the next one. -/
def tolerance : Span := .ofMillis 5

/-- The ticker once the next tick is taken at a time: the one after it comes a period later, counted
from when the tick was due, or from now if it was late. -/
def fire (t : Ticker) (now : Instant) : Ticker :=
  if t.due.plus tolerance < now then { t with due := now.plus t.period }
  else { t with due := t.due.plus t.period }

end Ticker

end PoolKeeper
