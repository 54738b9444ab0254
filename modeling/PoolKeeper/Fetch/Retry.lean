import PoolKeeper.Fetch.Error
import PoolKeeper.Pool

/-!
# Repeating a fetch

A snapshot is fetched by listing the machines. A failure that may pass is answered by another
attempt after a delay that doubles each time, up to a number of retries.

* `RetryPolicy`, `RetryPolicy.delay`: how often, and how long to wait before each retry;
* `Listing`: what a provider answers to a list call;
* `FetchStep`, `RetryPolicy.after`: what follows an attempt.
-/

namespace PoolKeeper

/-- How often a fetch is repeated, and how long it waits first. -/
structure RetryPolicy where
  maxRetries : Nat
  initialBackoff : Span
deriving DecidableEq, Repr

/-- Why a list call gave no machines. -/
inductive ListFailure where
  | refused (e : DriverError)
  /-- The call broke down and gave no answer at all. -/
  | crashed
deriving DecidableEq, Repr

/-- What a provider answers to a list call. -/
abbrev Listing := Except ListFailure (List Machine)

/-- What a fetch does next: it has an answer, it waits to go on from some point, or it is no more. -/
inductive FetchStep (ρ : Type) where
  | done (result : Except FetchError Pool)
  | wait (wake : Instant) (point : ρ)
  | crashed

namespace RetryPolicy

/-- Three retries, the first after three seconds. -/
def standard : RetryPolicy := ⟨3, .ofSeconds 3⟩

/-- The wait before a retry, which doubles from one to the next while the factor fits 32 bits. -/
def delay (p : RetryPolicy) (retry : Nat) : Span := p.initialBackoff.scale (1 <<< min (retry - 1) 31)

/-- Attempts are counted in a 32-bit word. -/
def attemptLimit : Nat := 0x1_0000_0000

/-- What follows an attempt that was begun at a time: the snapshot is as old as the attempt. The
fetch breaks down when the word cannot hold the number of its next attempt. -/
def after (p : RetryPolicy) (attempt : Nat) (begun : Instant) : Listing → FetchStep Nat
  | .ok machines => .done (.ok ⟨machines, begun⟩)
  | .error .crashed => .crashed
  | .error (.refused e) =>
    if !e.isRetryable then .done (.error (.failed e))
    else if p.maxRetries < attempt then .done (.error (.retriesExhausted attempt e))
    else if attemptLimit ≤ attempt + 1 then .crashed
    else .wait (begun.plus (p.delay attempt)) (attempt + 1)

end RetryPolicy

end PoolKeeper
