import PoolKeeper.Controller.Error
import PoolKeeper.Fetch.Retry
import PoolKeeper.Text.Blank

/-!
# Configuration of a pool

* `DriverConfig`, `ScaleIn`, `Retries`, `FetchSchedule`, `PoolConfig`: the configuration;
* `PoolConfig.fault?`: the first setting that a controller cannot work with;
* `PoolConfig.validate`: the same as an error.
-/

namespace PoolKeeper

/-- The provider of a pool and its settings. -/
structure DriverConfig where
  kind : String
  settings : Json := .null
deriving Repr

/-- How victims are chosen and when they go. -/
structure ScaleIn where
  policy : VictimPolicy := .oldest
  /-- Seconds before the next hour at which a victim goes. -/
  margin : Nat := 0
deriving DecidableEq, Repr

/-- How a fetch is repeated. -/
structure Retries where
  maxRetries : Nat := 3
  initialBackoffMillis : Nat := 3000
deriving DecidableEq, Repr

/-- How the pool is fetched. -/
structure FetchSchedule where
  retries : Retries := {}
  /-- Seconds from one refresh to the next. -/
  refreshInterval : Nat := 30
  /-- The age in seconds up to which a snapshot is served. -/
  reachabilityTimeout : Nat := 300
deriving DecidableEq, Repr

/-- The configuration of a pool. -/
structure PoolConfig where
  name : String
  driver : DriverConfig
  /-- The size to begin with; without it the size is learned from the pool. -/
  desiredSize : Option Nat := none
  scaleIn : ScaleIn := {}
  fetch : FetchSchedule := {}
  /-- Seconds from one cycle to the next. -/
  updateInterval : Nat := 60
deriving Repr

/-- The retry policy of a configuration. -/
def Retries.policy (r : Retries) : RetryPolicy :=
  ⟨r.maxRetries, .ofMillis r.initialBackoffMillis⟩

namespace PoolConfig

/-- The first setting that a controller cannot work with, in words. -/
def fault? (c : PoolConfig) : Option String :=
  if Text.isBlankText c.name then some "name must not be empty"
  else if Text.isBlankText c.driver.kind then some "driver.kind must not be empty"
  else if Billing.period ≤ c.scaleIn.margin then
    some "scale_in.instance_hour_margin_secs must be below 3600"
  else if c.fetch.retries.initialBackoffMillis = 0 then
    some "pool_fetch.retries.initial_backoff_ms must be positive"
  else if c.fetch.refreshInterval = 0 then
    some "pool_fetch.refresh_interval_secs must be positive"
  else if c.fetch.reachabilityTimeout < c.fetch.refreshInterval then
    some "pool_fetch.reachability_timeout_secs must not be shorter than refresh_interval_secs"
  else if c.updateInterval = 0 then some "pool_update.update_interval_secs must be positive"
  else none

/-- A controller can work with the configuration. -/
def validate (c : PoolConfig) : Except ControllerError Unit :=
  match c.fault? with
  | some what => .error (.invalidConfiguration what)
  | none => .ok ()

end PoolConfig

end PoolKeeper
