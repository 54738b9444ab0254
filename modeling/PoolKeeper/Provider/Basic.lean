import PoolKeeper.Config

/-!
# Providers

A controller reaches its machines through drivers. All that is outside a controller is a state of
some type, and what a driver does is a function of that state and the time.

* `DriverId`: which of the drivers that were made;
* `Provider`: the calls.
-/

namespace PoolKeeper

/-- A driver that was made. -/
abbrev DriverId := Nat

/-- The calls to drivers, over a state `σ` of all that they act on. -/
structure Provider (σ : Type) where
  /-- Makes a driver of the kind that a configuration asks for. -/
  create : DriverConfig → σ → Except ControllerError DriverId × σ
  /-- Applies the settings, for a pool of a name; before any other call and again later. -/
  configure : DriverId → String → DriverConfig → Instant → σ → Except DriverError Unit × σ
  /-- Lists the machines of the pool. -/
  list : DriverId → Instant → σ → Listing × σ
  /-- Starts a number of machines. -/
  start : DriverId → Nat → Instant → σ → Starting × σ
  /-- Terminates machines. -/
  terminate : DriverId → List String → Instant → σ → Except TerminateError Unit × σ
  /-- Takes a machine into the pool. -/
  attach : DriverId → String → Instant → σ → Except DriverError Unit × σ
  /-- Takes a machine out of the pool. -/
  detach : DriverId → String → Instant → σ → Except DriverError Unit × σ
  setService : DriverId → String → ServiceState → Instant → σ → Except DriverError Unit × σ
  setMembership : DriverId → String → Membership → Instant → σ → Except DriverError Unit × σ

end PoolKeeper
