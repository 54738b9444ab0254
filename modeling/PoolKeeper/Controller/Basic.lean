import PoolKeeper.Event
import PoolKeeper.Overlay
import PoolKeeper.Provider.Basic

/-!
# Controllers

A controller brings a pool to its desired size. This is what it knows, and the changes that need
nobody else; each gives the events that it tells.

* `Applied`, `Controller`: the configuration in force, and all that a controller knows;
* `Controller.become`, `Controller.setDesired`, `Controller.adopt`: changes of state, size and
  configuration;
* `Controller.view`: a snapshot with the recent actions on it;
* `Status`: what a controller says about itself.
-/

namespace PoolKeeper

/-- A configuration in force, and the driver that was made for it. -/
structure Applied where
  config : PoolConfig
  driver : DriverId
deriving Repr

/-- What a controller knows. -/
structure Controller where
  state : Lifecycle := .unconfigured
  applied : Option Applied := none
  /-- The size to converge to, once it is set or learned. -/
  desired : Option Nat := none
  queue : TerminationQueue := .empty
  overlay : Overlay := .empty
  /-- The end of the last cycle. -/
  lastReconciled : Option Instant := none
  /-- What went wrong in the last cycle, if anything did. -/
  lastError : Option String := none

namespace Controller

instance : Inhabited Controller := ⟨{}⟩

/-- Goes to another state, if that is allowed. -/
def become (c : Controller) (state : Lifecycle) :
    Except ControllerError (Controller × List Event) :=
  if !c.state.canBecome state then .error (.invalidTransition c.state state)
  else if c.state = state then .ok (c, [])
  else .ok ({ c with state }, [.controllerStateChanged c.state.text state.text])

/-- Sets the desired size. -/
def setDesired (c : Controller) (size : Nat) : Controller × List Event :=
  if c.desired = some size then (c, [])
  else ({ c with desired := some size }, [.desiredSizeChanged c.desired size])

/-- Lowers the desired size by one, if it is known and not zero. -/
def lowerDesired (c : Controller) : Controller × List Event :=
  match c.desired with
  | some size => c.setDesired (size - 1)
  | none => (c, [])

/-- Sizes are counted in a 64-bit word. -/
def sizeLimit : Nat := 0x1_0000_0000_0000_0000

/-- Raises the desired size by one, if it is known. Nothing if the word cannot hold one more. -/
def raiseDesired (c : Controller) : Option (Controller × List Event) :=
  match c.desired with
  | some size => if sizeLimit ≤ size + 1 then none else some (c.setDesired (size + 1))
  | none => some (c, [])

/-- Forgets what belongs to a pool of another name. -/
def forgetOther (c : Controller) (name : String) : Controller :=
  match c.applied with
  | some a =>
    if a.config.name = name then c else { c with queue := .empty, overlay := .empty, desired := none }
  | none => c

/-- Puts a configuration in force. -/
def adopt (c : Controller) (a : Applied) : Controller × List Event :=
  let (c, events) :=
    match a.config.desiredSize with
    | some size => (c.forgetOther a.config.name).setDesired size
    | none => (c.forgetOther a.config.name, [])
  ({ c with applied := some a }, events)

/-- A snapshot with the recent actions on it; those that it shows itself are forgotten. -/
def view (c : Controller) (p : Pool) : Pool × Controller :=
  let (pool, overlay) := c.overlay.apply p
  (pool, { c with overlay })

/-- The controller is at work. -/
def ensureStarted (c : Controller) : Except ControllerError Unit :=
  match c.state with
  | .started => .ok ()
  | .stopped => .error .notStarted
  | .unconfigured => .error .notConfigured

end Controller

/-- What a controller says about itself. -/
structure Status where
  state : Lifecycle
  poolName : Option String
  desired : Option Nat
  queue : TerminationQueue
  lastReconciled : Option Instant
  lastError : Option String
deriving Repr

/-- What a controller says about itself. -/
def Controller.status (c : Controller) : Status :=
  { state := c.state, poolName := c.applied.map (·.config.name), desired := c.desired
    queue := c.queue, lastReconciled := c.lastReconciled, lastError := c.lastError }

end PoolKeeper
