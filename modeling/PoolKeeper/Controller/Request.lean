import PoolKeeper.Controller.Cycle

/-!
# Requests

* `Request`, `Reply`: what a controller can be asked, and what it answers when all went well.
-/

namespace PoolKeeper

/-- What a controller can be asked. -/
inductive Request where
  | configure (config : PoolConfig)
  | getConfiguration
  | start
  | stop
  | getStatus
  /-- Run a cycle now. -/
  | reconcile
  | getPool
  | getPoolSize
  | setDesired (size : Nat)
  /-- Terminate a machine of the pool at once. -/
  | terminate (id : String) (decrement : Bool)
  /-- Take a machine into the pool. -/
  | attach (id : String)
  /-- Take a machine out of the pool without terminating it. -/
  | detach (id : String) (decrement : Bool)
  | setService (id : String) (service : ServiceState)
  | setMembership (id : String) (membership : Membership)
deriving Repr

/-- What a controller answers when all went well. -/
inductive Reply where
  | done
  | configuration (config : PoolConfig)
  | status (s : Status)
  | report (r : Report)
  | pool (p : Pool)
  | poolSize (s : PoolSize)
deriving Repr

/-- The answer to a request. -/
abbrev Answer := Except ControllerError Reply

end PoolKeeper
