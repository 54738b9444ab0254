import PoolKeeper.IdMap
import PoolKeeper.Machine

/-!
# Errors of a provider

* `DriverError`: why a call failed; `DriverError.isRetryable`, `DriverError.isNotFound`;
* `StartError`: a start that stopped part-way, with the machines that were started; `Starting`: what
  a provider answers to a start;
* `TerminateError`: a termination that failed for some machines;
* `DriverError.message`, `StartError.message`, `TerminateError.message`: their texts.
-/

namespace PoolKeeper

/-- Why a provider did not do what it was asked to. -/
inductive DriverError where
  | notConfigured
  | invalidConfiguration (what : String)
  /-- The machine is not in the pool. -/
  | machineNotFound (id : String)
  | timeout (after : Span)
  | rateLimited (what : String)
  | unavailable (what : String)
  | authenticationFailed (what : String)
  | capacityExceeded (what : String)
  /-- Anything else. -/
  | other (what : String)
deriving DecidableEq, Repr

namespace DriverError

/-- The failure may pass, so the call is worth repeating. -/
def isRetryable : DriverError → Bool
  | timeout _ | rateLimited _ | unavailable _ => true
  | _ => false

/-- The failure is about a machine that is not there. -/
def isNotFound : DriverError → Bool
  | machineNotFound _ => true
  | _ => false

def message : DriverError → String
  | notConfigured => "driver not configured"
  | invalidConfiguration what => s!"invalid driver configuration: {what}"
  | machineNotFound id => s!"machine not found: {id}"
  | timeout after => s!"provider request timed out after {after.text}"
  | rateLimited what => s!"provider rate limit exceeded: {what}"
  | unavailable what => s!"provider unavailable: {what}"
  | authenticationFailed what => s!"authentication failed: {what}"
  | capacityExceeded what => s!"capacity exceeded: {what}"
  | other what => s!"provider error: {what}"

end DriverError

/-- A start that stopped part-way. -/
structure StartError where
  requested : Nat
  /-- The machines that were started before the failure. -/
  started : List Machine
  cause : DriverError
deriving Repr

namespace StartError

/-- A failure before any machine was started. -/
def beforeAny (requested : Nat) (cause : DriverError) : StartError := ⟨requested, [], cause⟩

def message (e : StartError) : String :=
  s!"started {e.started.length} of {e.requested} machine(s) before failing: {e.cause.message}"

end StartError

/-- Why a start did not start all that it was asked to. -/
inductive StartFailure where
  | refused (e : StartError)
  /-- The call broke down and gave no answer at all. -/
  | crashed
deriving Repr

/-- What a provider answers to a start. -/
abbrev Starting := Except StartFailure (List Machine)

/-- A termination that failed for some machines. -/
structure TerminateError where
  /-- The machines whose end is confirmed. -/
  succeeded : List String
  /-- Why the others failed. -/
  failures : IdMap DriverError

namespace TerminateError

def message (e : TerminateError) : String :=
  s!"failed to terminate {e.failures.size} machine(s): " ++ ", ".intercalate e.failures.keys

end TerminateError

end PoolKeeper
