import PoolKeeper.Time.Instant

/-!
# Events

What a controller tells its subscribers.

* `Severity`, `Event`; `Topic.fetch`, `Topic.resize`: the topics of alerts.
-/

namespace PoolKeeper

/-- How grave an alert is. -/
inductive Severity where
  | info
  | warning
  | error
deriving DecidableEq, Repr

namespace Severity

/-- The severities and their names. -/
def table : List (String × Severity) :=
  [("info", info), ("warning", warning), ("error", error)]

def text : Severity → String
  | info => "info"
  | warning => "warning"
  | error => "error"

end Severity

/-- The topic of alerts on failed refreshes. -/
def Topic.fetch : String := "poolwarden.pool.fetch"

/-- The topic of alerts on failed starts and terminations. -/
def Topic.resize : String := "poolwarden.pool.resize"

/-- Something that happened to a pool. -/
inductive Event where
  | alert (topic : String) (severity : Severity) (message : String) (time : Instant)
  | machinesStarted (machines : List String)
  | machinesTerminated (machines : List String)
  | terminationScheduled (machine : String) (time : Instant)
  | desiredSizeChanged (before : Option Nat) (after : Nat)
  | controllerStateChanged (before after : String)
deriving DecidableEq, Repr

end PoolKeeper
