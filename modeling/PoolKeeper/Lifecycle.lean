/-!
# The life of a controller

* `Lifecycle`: unconfigured, stopped or started; `Lifecycle.canBecome`: the allowed transitions.
-/

namespace PoolKeeper

/-- The state of a controller. -/
inductive Lifecycle where
  /-- No configuration has been applied. -/
  | unconfigured
  /-- Configured, but not at work. -/
  | stopped
  /-- At work. -/
  | started
deriving DecidableEq, Repr

namespace Lifecycle

/-- The states and their names. -/
def table : List (String × Lifecycle) :=
  [("unconfigured", unconfigured), ("stopped", stopped), ("started", started)]

def text : Lifecycle → String
  | unconfigured => "unconfigured"
  | stopped => "stopped"
  | started => "started"

/-- A controller may go from one state to another. -/
def canBecome : Lifecycle → Lifecycle → Bool
  | unconfigured, stopped | stopped, stopped => true
  | stopped, started => true
  | started, stopped => true
  | _, _ => false

end Lifecycle

end PoolKeeper
