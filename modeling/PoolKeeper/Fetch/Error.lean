import PoolKeeper.Provider.Error

/-!
# Errors of a fetch

* `FetchError`: why there is no snapshot of the pool; `FetchError.message`;
* `FetchError.isUnreachable`: the provider has been out of reach for too long.
-/

namespace PoolKeeper

/-- Why there is no snapshot. -/
inductive FetchError where
  /-- No fetch has ever succeeded. -/
  | unreachable (lastError : Option String)
  /-- The last snapshot is too old. -/
  | reachabilityTimeout (age timeout : Span) (lastError : Option String)
  /-- A passing failure did not pass. -/
  | retriesExhausted (attempts : Nat) (source : DriverError)
  /-- A failure that will not pass. -/
  | failed (source : DriverError)
deriving DecidableEq, Repr

namespace FetchError

def isUnreachable : FetchError → Bool
  | unreachable _ | reachabilityTimeout .. => true
  | _ => false

/-- The most recent failure, if there was one. -/
def lastErrorText : Option String → String
  | some e => s!"; last error: {e}"
  | none => ""

def message : FetchError → String
  | unreachable lastError =>
    "pool unreachable: no fetch has ever succeeded" ++ lastErrorText lastError
  | reachabilityTimeout age timeout lastError =>
    s!"reachability timeout exceeded: last successful fetch {age.seconds}s ago "
      ++ s!"(timeout {timeout.seconds}s)" ++ lastErrorText lastError
  | retriesExhausted attempts source =>
    s!"pool fetch failed after {attempts} attempt(s): {source.message}"
  | failed source => s!"pool fetch failed: {source.message}"

end FetchError

end PoolKeeper
