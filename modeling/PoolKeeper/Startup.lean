import PoolKeeper.Controller.Station
import PoolKeeper.Daemon

/-!
# Beginning to look after a pool

* `StartupError`, `StartupError.message`: why a daemon cannot begin;
* `Station.startUp`: a controller at work on the configured pool, or on the one that was saved.
-/

namespace PoolKeeper

/-- Why a daemon cannot begin. -/
inductive StartupError where
  /-- No pool was configured, now or before. -/
  | noPool
  | configure (e : ControllerError)
  | start (e : ControllerError)
  /-- The first fetch never ends. -/
  | unanswered

namespace StartupError

def message : StartupError → String
  | noPool => "no pool configured; add a [pool] section to the configuration file"
  | configure e => s!"failed to configure pool: {e.message}"
  | start e => s!"failed to start pool controller: {e.message}"
  | unanswered => "the controller does not answer"

end StartupError

namespace Station

variable {σ : Type}

/-- The station after a request that has to go well. -/
def demand (p : Provider σ) (request : Request) (failed : ControllerError → StartupError)
    (s : Station σ) : Except StartupError (Station σ) :=
  match s.ask p request with
  | (some (.ok _), s) => .ok s
  | (some (.error e), _) => .error (failed e)
  | (none, _) => .error .unanswered

/-- A controller at work on a pool, or on the one that was saved if there is none. -/
def startUp (p : Provider σ) (pool : Option PoolConfig) (store : Option Store) (world : World σ) :
    Except StartupError (Station σ) := do
  let saved := boot p store world
  let configured ← match pool with
    | some config => saved.demand p (.configure config) .configure
    | none => .ok saved
  if configured.controller.state = .unconfigured then .error .noPool
  else configured.demand p .start .start

end Station

end PoolKeeper
