import PoolKeeper.Json.Basic
import PoolKeeper.Time.Instant

/-!
# Machines

* `MachineState`, `ServiceState`, `Membership`: what is known of a machine;
* `Machine`: a machine as a snapshot of the pool shows it;
* `Machine.isAllocated`, `Machine.isEffective`: whether it holds capacity, and whether it counts
  towards the size of the pool.
-/

namespace PoolKeeper

/-- The life of a machine as its provider reports it. -/
inductive MachineState where
  /-- Asked for, not yet acknowledged. -/
  | requested
  /-- Acknowledged, booting. -/
  | pending
  | running
  | terminating
  | terminated
deriving DecidableEq, Repr

namespace MachineState

/-- The states and their names. -/
def table : List (String × MachineState) :=
  [("REQUESTED", requested), ("PENDING", pending), ("RUNNING", running),
    ("TERMINATING", terminating), ("TERMINATED", terminated)]

def text : MachineState → String
  | requested => "REQUESTED"
  | pending => "PENDING"
  | running => "RUNNING"
  | terminating => "TERMINATING"
  | terminated => "TERMINATED"

/-- A machine in this state holds capacity, or will. -/
def isAllocated : MachineState → Bool
  | requested | pending | running => true
  | terminating | terminated => false

end MachineState

/-- The state of the service that runs on a machine, as operators report it. -/
inductive ServiceState where
  | booting
  | inService
  | outOfService
  | unknown
deriving DecidableEq, Repr

namespace ServiceState

/-- The states and their names. -/
def table : List (String × ServiceState) :=
  [("BOOTING", booting), ("IN_SERVICE", inService), ("OUT_OF_SERVICE", outOfService),
    ("UNKNOWN", unknown)]

def text : ServiceState → String
  | booting => "BOOTING"
  | inService => "IN_SERVICE"
  | outOfService => "OUT_OF_SERVICE"
  | unknown => "UNKNOWN"

end ServiceState

/-- How a machine belongs to its pool. -/
structure Membership where
  /-- It counts towards the size of the pool. -/
  active : Bool
  /-- It may be chosen for automatic termination. -/
  evictable : Bool
deriving DecidableEq, Repr

namespace Membership

/-- A machine that counts and may be chosen. -/
def standard : Membership := ⟨true, true⟩

/-- A machine that counts and is never chosen. -/
def keptAlways : Membership := ⟨true, false⟩

/-- A machine that does not count. -/
def inactive : Membership := ⟨false, true⟩

end Membership

/-- A machine of a pool. -/
structure Machine where
  id : String
  state : MachineState
  service : ServiceState := .unknown
  membership : Membership := .standard
  /-- When it was launched; nothing before the provider has launched it. -/
  launched : Option Instant := none
  /-- What else the provider has to say. -/
  metadata : Json := .null
deriving Repr

namespace Machine

instance : Inhabited Machine := ⟨{ id := "", state := .requested }⟩

/-- It holds capacity, or will. -/
def isAllocated (m : Machine) : Bool := m.state.isAllocated

/-- Its service has been taken out. -/
def isOutOfService (m : Machine) : Bool := m.service = .outOfService

/-- It counts towards the size of the pool. -/
def isEffective (m : Machine) : Bool :=
  m.isAllocated && !m.isOutOfService && m.membership.active

/-- It may be chosen for automatic termination. -/
def isEvictable (m : Machine) : Bool := m.membership.evictable

end Machine

end PoolKeeper
