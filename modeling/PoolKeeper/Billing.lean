import PoolKeeper.Time.Instant

/-!
# Billing

Machines are paid for by the hour that has begun, counted from their launch.

* `Billing.hourEnd`: when the present hour of a machine ends;
* `Billing.nextBoundary`: the start of its next hour, which time must not end before;
* `Billing.remaining`: the time until then.
-/

namespace PoolKeeper.Billing

/-- The length of a billing period, in seconds. -/
def period : Nat := 3600

/-- The end of the present period. A machine on a boundary has just begun a period; one that is yet
to be launched is in its first. -/
def hourEnd (launched now : Instant) : Instant :=
  let elapsed := (now.since launched).toNat / 1_000_000_000
  launched.addSeconds ((elapsed / period + 1) * period : Nat)

/-- The start of the next period. Nothing if it lies past the end of time. -/
def nextBoundary (launched now : Instant) : Option Instant :=
  let next := hourEnd launched now
  if Instant.endOfTime ≤ next then none else some next

/-- Nanoseconds until the next period, if its start can be told. -/
def remaining (launched now : Instant) : Option Int := (nextBoundary launched now).map (·.since now)

end PoolKeeper.Billing
