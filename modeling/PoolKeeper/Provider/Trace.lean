import PoolKeeper.Provider.Basic

/-!
# Recorded calls

Drivers in front of others that write down every call with its answer, and what the answers say.

* `launchedBy`, `confirmedBy`, `missingBy`: machines that were started, whose end is confirmed, and
  that are not there, as an answer has it; `refusedBy`, `brokenBy`, `failedBy`: what else went wrong;
* `Call`, `Traced`: a call with its answer, and a state outside with the calls that led to it;
* `Provider.traced`: the drivers;
* `Call.requested`, `Call.launched`, `Call.condemned`: what a call asks for and what comes of it.
-/

namespace PoolKeeper

/-- The machines that were started, also by a start that stopped part-way. -/
def launchedBy : Starting → List Machine
  | .ok machines => machines
  | .error (.refused e) => e.started
  | .error .crashed => []

/-- The start that stopped part-way, if it did. -/
def refusedBy : Starting → List StartError
  | .error (.refused e) => [e]
  | _ => []

/-- The start broke down. -/
def brokenBy : Starting → Bool
  | .error .crashed => true
  | _ => false

/-- The machines whose end is confirmed, of those that a termination asked for. -/
def confirmedBy (ids : List String) : Except TerminateError Unit → List String
  | .ok () => ids
  | .error e => e.succeeded

/-- The machines that a termination did not find. -/
def missingBy : Except TerminateError Unit → List String
  | .ok () => []
  | .error e => (e.failures.entries.filter fun failure => failure.2.isNotFound).map Prod.fst

/-- The terminations that failed for another reason than that the machine is not there. -/
def failedBy : Except TerminateError Unit → List (String × DriverError)
  | .ok () => []
  | .error e => e.failures.entries.filter fun failure => !failure.2.isNotFound

/-- A call to a driver, with the answer. -/
inductive Call where
  | create (config : DriverConfig) (answer : Except ControllerError DriverId)
  | configure (driver : DriverId) (poolName : String) (config : DriverConfig)
      (answer : Except DriverError Unit)
  | list (driver : DriverId) (answer : Listing)
  | start (driver : DriverId) (count : Nat) (answer : Starting)
  | terminate (driver : DriverId) (ids : List String) (answer : Except TerminateError Unit)
  | attach (driver : DriverId) (id : String) (answer : Except DriverError Unit)
  | detach (driver : DriverId) (id : String) (answer : Except DriverError Unit)
  | setService (driver : DriverId) (id : String) (service : ServiceState)
      (answer : Except DriverError Unit)
  | setMembership (driver : DriverId) (id : String) (membership : Membership)
      (answer : Except DriverError Unit)

namespace Call

/-- The machines that a call asks to start. -/
def requested : Call → Nat
  | .start _ count _ => count
  | _ => 0

/-- The machines that a call starts. -/
def launched : Call → List Machine
  | .start _ _ answer => launchedBy answer
  | _ => []

/-- The machines that a call asks to terminate. -/
def condemned : Call → List String
  | .terminate _ ids _ => ids
  | _ => []

end Call

/-- A state outside, and the calls that led to it. -/
structure Traced (σ : Type) where
  calls : List Call
  outside : σ

namespace Traced

variable {σ α : Type}

/-- A call that is written down. -/
def note (call : α → Call) (act : σ → α × σ) (s : Traced σ) : α × Traced σ :=
  let (answer, outside) := act s.outside
  (answer, ⟨s.calls ++ [call answer], outside⟩)

end Traced

namespace Provider

variable {σ : Type}

/-- Drivers that write down the calls to others. -/
def traced (p : Provider σ) : Provider (Traced σ) where
  create config := Traced.note (.create config) (p.create config)
  configure d name config now :=
    Traced.note (.configure d name config) (p.configure d name config now)
  list d now := Traced.note (.list d) (p.list d now)
  start d count now := Traced.note (.start d count) (p.start d count now)
  terminate d ids now := Traced.note (.terminate d ids) (p.terminate d ids now)
  attach d id now := Traced.note (.attach d id) (p.attach d id now)
  detach d id now := Traced.note (.detach d id) (p.detach d id now)
  setService d id service now :=
    Traced.note (.setService d id service) (p.setService d id service now)
  setMembership d id membership now :=
    Traced.note (.setMembership d id membership) (p.setMembership d id membership now)

end Provider

end PoolKeeper
