import PoolKeeper.Fetch.Error
import PoolKeeper.Lifecycle
import PoolKeeper.Plan
import PoolKeeper.Storage.Error

/-!
# Errors of a controller

* `ControllerError`, `ControllerError.message`: why a request was refused or failed;
* `ControllerError.forMachine`: a provider's failure about one machine.
-/

namespace PoolKeeper

/-- Why a request was refused or failed. -/
inductive ControllerError where
  | notConfigured
  | notStarted
  | invalidConfiguration (what : String)
  | invalidTransition (before after : Lifecycle)
  | machineNotFound (id : String)
  | desiredSizeUnknown
  | fetch (e : FetchError)
  | driver (e : DriverError)
  | start (e : StartError)
  | terminate (e : TerminateError)
  | plan (e : PlanError)
  | storage (e : StorageError)
  /-- The controller broke down on the way; nobody hears of it. -/
  | brokeDown

namespace ControllerError

/-- A provider's failure about one machine: a machine that is not there is the requester's error. -/
def forMachine (id : String) (e : DriverError) : ControllerError :=
  if e.isNotFound then machineNotFound id else driver e

def message : ControllerError → String
  | notConfigured => "pool controller not configured"
  | notStarted => "pool controller not started"
  | invalidConfiguration what => s!"configuration error: {what}"
  | invalidTransition before after =>
    s!"invalid state transition from {before.text} to {after.text}"
  | machineNotFound id => s!"machine not found: {id}"
  | desiredSizeUnknown => "desired size not yet known"
  | fetch e => e.message
  | driver e => e.message
  | start e => e.message
  | terminate e => e.message
  | plan e => e.message
  | storage e => e.message
  | brokeDown => "pool controller broke down"

end ControllerError

end PoolKeeper
