import PoolKeeper.Controller.Request
import PoolKeeper.Document.Config
import PoolKeeper.Fetch.LiveCache

/-!
# A controller at work

A controller answers one request after the other. While it is started, a cache keeps a snapshot of
the pool up to date and a ticker asks for a cycle on a fixed period. A request that needs a fresh
snapshot is answered when it is there; what comes due meanwhile is done after the answer. A
controller that breaks down on the way answers nobody any more, and its background work ends.

* `Station`, `Running`: a controller, its background work and the world around it;
* `Station.breakDown`, `Station.working`: the end of a controller, and the work until then;
* `Station.apply`, `Station.launch`, `Station.halt`: taking a configuration, beginning and ending
  the background work;
* `Station.respond`: the answer to a request;
* `Station.ask`: the answer, and all the work that is ready afterwards;
* `Station.advance`: lets time pass;
* `Station.boot`, `Station.restart`: a controller that begins with the saved configuration.
-/

namespace PoolKeeper

/-- The background work of a started controller. -/
structure Running where
  /-- The configuration and the driver that it was begun for. -/
  applied : Applied
  live : LiveCache Nat
  /-- The ticker of the cycles. -/
  ticker : Ticker

/-- A controller, its background work and the world around it. -/
structure Station (σ : Type) where
  controller : Controller := {}
  /-- The background work; none unless the controller is started. -/
  running : Option Running := none
  world : World σ
  /-- Where the configuration and snapshots are saved. -/
  store : Option Store := none
  /-- A request was never answered, or the controller broke down: nothing is answered or done any
  more. -/
  stuck : Bool := false

namespace Running

variable {σ : Type}

/-- How the background work fetches the pool. -/
def fetcher (p : Provider σ) (r : Running) : Fetcher σ Nat :=
  .retrying p r.applied.driver r.applied.config.fetch.retries.policy

end Running

namespace Station

variable {σ : Type}

/-- The document of the configuration. -/
def configFile : String := "config.json"

/-- The controller breaks down. -/
def breakDown (s : Station σ) : Station σ := { s with stuck := true }

/-- The background work, unless nothing is done any more. -/
def working (s : Station σ) : Option Running := if s.stuck then none else s.running

/-- The controller after a change, whose events are told. -/
def changed (s : Station σ) (change : Controller × List Event) : Station σ :=
  { s with controller := change.1, world := s.world.tell change.2 }

/-- Goes to another state, if that is allowed. -/
def become (s : Station σ) (state : Lifecycle) : Except ControllerError Unit × Station σ :=
  match s.controller.become state with
  | .ok change => (.ok (), s.changed change)
  | .error e => (.error e, s)

/-- The station after a call to a driver. -/
def after (s : Station σ) (outside : σ) : Station σ := { s with world := { s.world with outside } }

/-- Ends the background work. -/
def halt (s : Station σ) : Station σ := { s with running := none }

/-- A new cache once its first fetch has ended, and the world then. -/
def opened (p : Provider σ) (a : Applied) (s : Station σ) : LiveCache Nat × World σ :=
  let schedule := a.config.fetch
  let live := LiveCache.begin a.config.name (.ofSeconds schedule.refreshInterval)
    (.ofSeconds schedule.reachabilityTimeout) s.store true s.world
  live.awaitFirst (.retrying p a.driver schedule.retries.policy) s.world

/-- Goes to work with a cache whose first fetch has ended: the ticker starts now. -/
def beginWork (a : Applied) (opened : LiveCache Nat × World σ) (s : Station σ) :
    Except ControllerError Unit × Station σ :=
  let (live, world) := opened
  if live.fetched then
    let ticker : Ticker := ⟨world.now, .ofSeconds a.config.updateInterval⟩
    become { s with running := some ⟨a, live, ticker⟩, world } .started
  else (.ok (), { s with world, stuck := true })

/-- Begins the background work once the first fetch has ended. -/
def launch (p : Provider σ) (s : Station σ) : Except ControllerError Unit × Station σ :=
  match s.controller.applied with
  | none => (.error .notConfigured, s)
  | some a => s.beginWork a (s.opened p a)

/-- A provider's refusal of a configuration. -/
def refusal : DriverError → ControllerError
  | .invalidConfiguration what => .invalidConfiguration what
  | e => .driver e

/-- Makes a driver for a valid configuration, and puts both in force. Background work ends. Tells
whether there was any. -/
def apply (p : Provider σ) (config : PoolConfig) (s : Station σ) :
    Except ControllerError Bool × Station σ :=
  match config.validate with
  | .error e => (.error e, s)
  | .ok () =>
    match p.create config.driver s.world.outside with
    | (.error e, outside) => (.error e, s.after outside)
    | (.ok driver, outside) =>
      match p.configure driver config.name config.driver s.world.now outside with
      | (.error e, outside) => (.error (refusal e), s.after outside)
      | (.ok (), outside) =>
        let wasStarted := s.controller.state = .started
        let s := (s.after outside).halt
        match (s.changed (s.controller.adopt ⟨config, driver⟩)).become .stopped with
        | (.error e, s) => (.error e, s)
        | (.ok (), s) => (.ok wasStarted, s)

/-- Saves the configuration in force, as well as that goes. -/
def saveConfiguration (s : Station σ) : Station σ :=
  match s.store, s.controller.applied with
  | some store, some a =>
    { s with
      world :=
        { s.world with
          files := (store.save FileTree.system PoolConfig.codec configFile a.config
            s.world.files).2 } }
  | _, _ => s

/-- Applies a configuration, goes back to work if the controller was started, and saves it. -/
def configure (p : Provider σ) (config : PoolConfig) (s : Station σ) :
    Except ControllerError Unit × Station σ :=
  match s.apply p config with
  | (.error e, s) => (.error e, s)
  | (.ok false, s) => (.ok (), s.saveConfiguration)
  | (.ok true, s) =>
    match s.launch p with
    | (.error e, s) => (.error e, s)
    | (.ok (), s) => (.ok (), if s.stuck then s else s.saveConfiguration)

/-- The pool as the cache has it, with the recent actions on it. -/
def view (s : Station σ) : Except ControllerError Pool × Station σ :=
  match s.running with
  | none => (.error .notStarted, s)
  | some r =>
    match r.live.cache.serve s.world.now with
    | .error e => (.error (.fetch e), s)
    | .ok pool =>
      let (pool, controller) := s.controller.view pool
      (.ok pool, { s with controller })

/-- The pool, if the controller is started. -/
def startedView (s : Station σ) : Except ControllerError Pool × Station σ :=
  match s.controller.ensureStarted with
  | .error e => (.error e, s)
  | .ok () => s.view

/-- A fetch of the pool after a change; the answer to the request does not depend on it. The
controller breaks down with the fetch. -/
def refresh (p : Provider σ) (s : Station σ) : Station σ :=
  match s.working with
  | none => s
  | some r =>
    let (result, live, world) := r.live.force (r.fetcher p) s.world
    { s with running := some { r with live }, world, stuck := s.stuck || result.isNone }

/-- The controller broke down on the way to an answer. -/
def broke : Except ControllerError Report → Bool
  | .error .brokeDown => true
  | _ => false

/-- Runs a cycle. -/
def reconcile (p : Provider σ) (s : Station σ) : Except ControllerError Report × Station σ :=
  match s.controller.ensureStarted with
  | .error e => (.error e, s)
  | .ok () =>
    match s.controller.applied with
    | none => (.error .notConfigured, s)
    | some a =>
      match s.view with
      | (.error e, s) =>
        (.error e, { s with controller := { s.controller with lastError := some e.message } })
      | (.ok pool, s) =>
        let (answer, controller, events, outside) :=
          s.controller.reconcile p a pool s.world.now s.world.outside
        let s := (s.after outside).changed (controller, events)
        (answer, { s with stuck := s.stuck || broke answer })

/-- The driver in force, and the machine in the pool. -/
def memberDriver (id : String) (s : Station σ) : Except ControllerError DriverId × Station σ :=
  match s.startedView with
  | (.error e, s) => (.error e, s)
  | (.ok pool, s) =>
    if pool.contains id then
      match s.controller.applied with
      | some a => (.ok a.driver, s)
      | none => (.error .notConfigured, s)
    else (.error (.machineNotFound id), s)

/-- The driver in force, if the controller is started. -/
def startedDriver (s : Station σ) : Except ControllerError DriverId :=
  match s.controller.ensureStarted with
  | .error e => .error e
  | .ok () =>
    match s.controller.applied with
    | some a => .ok a.driver
    | none => .error .notConfigured

/-- Notes that a machine left the pool. Unless it waited for its termination, and so did not count
any more, the desired size is lowered if that was asked for. -/
def noteGone (id : String) (decrement : Bool) (events : List Event) (s : Station σ) : Station σ :=
  let c := s.controller
  let waited := c.queue.contains id
  let gone : Controller :=
    { c with
      queue := c.queue.erase id
      overlay := c.overlay.recordTerminated [id] s.world.now }
  let s := s.changed (gone, events)
  if decrement ∧ ¬ waited then s.changed s.controller.lowerDesired else s

/-- Why one machine was not terminated. -/
def terminationError (id : String) (e : TerminateError) : ControllerError :=
  match e.failures.get? id with
  | some cause => .forMachine id cause
  | none => .terminate e

/-- Terminates a machine of the pool. -/
def terminate (p : Provider σ) (id : String) (decrement : Bool) (s : Station σ) :
    Except ControllerError Unit × Station σ :=
  match s.memberDriver id with
  | (.error e, s) => (.error e, s)
  | (.ok d, s) =>
    match p.terminate d [id] s.world.now s.world.outside with
    | (.error e, outside) => (.error (terminationError id e), s.after outside)
    | (.ok (), outside) =>
      (.ok (), ((s.after outside).noteGone id decrement [.machinesTerminated [id]]).refresh p)

/-- Takes a machine out of the pool. -/
def detach (p : Provider σ) (id : String) (decrement : Bool) (s : Station σ) :
    Except ControllerError Unit × Station σ :=
  match s.memberDriver id with
  | (.error e, s) => (.error e, s)
  | (.ok d, s) =>
    match p.detach d id s.world.now s.world.outside with
    | (.error e, outside) => (.error (.forMachine id e), s.after outside)
    | (.ok (), outside) => (.ok (), ((s.after outside).noteGone id decrement []).refresh p)

/-- A driver's call about one machine, and what is noted when it succeeds. -/
def machineCall (p : Provider σ) (id : String)
    (call : DriverId → Instant → σ → Except DriverError Unit × σ)
    (note : Station σ → Station σ) (s : Station σ) : Except ControllerError Unit × Station σ :=
  match s.startedDriver with
  | .error e => (.error e, s)
  | .ok d =>
    match call d s.world.now s.world.outside with
    | (.error e, outside) => (.error (.forMachine id e), s.after outside)
    | (.ok (), outside) => (.ok (), (note (s.after outside)).refresh p)

/-- The pool is to be one machine larger. -/
def noteAttached (s : Station σ) : Station σ :=
  match s.controller.raiseDesired with
  | some change => s.changed change
  | none => s.breakDown

/-- Takes a machine into the pool. -/
def attach (p : Provider σ) (id : String) (s : Station σ) :
    Except ControllerError Unit × Station σ :=
  s.machineCall p id (fun d => p.attach d id) noteAttached

/-- The sizes of the pool. -/
def poolSize (s : Station σ) : Except ControllerError PoolSize × Station σ :=
  match s.startedView with
  | (.error e, s) => (.error e, s)
  | (.ok pool, s) =>
    match s.controller.desired with
    | none => (.error .desiredSizeUnknown, s)
    | some desired =>
      (.ok { desired, allocated := pool.allocatedCount, effective := pool.effectiveCount }, s)

/-- An answer that says nothing more than that all went well. -/
def plain (r : Except ControllerError Unit × Station σ) : Answer × Station σ :=
  (r.1.map fun () => .done, r.2)

/-- The answer to a request. -/
def respond (p : Provider σ) (request : Request) (s : Station σ) : Answer × Station σ :=
  match request with
  | .configure config => plain (s.configure p config)
  | .getConfiguration =>
    match s.controller.applied with
    | some a => (.ok (.configuration a.config), s)
    | none => (.error .notConfigured, s)
  | .start =>
    match s.controller.state with
    | .unconfigured => (.error .notConfigured, s)
    | .started => (.ok .done, s)
    | .stopped => plain (s.launch p)
  | .stop =>
    if s.controller.state = .started then plain (s.halt.become .stopped) else (.ok .done, s)
  | .getStatus => (.ok (.status s.controller.status), s)
  | .reconcile =>
    let (answer, s) := s.reconcile p
    (answer.map .report, s)
  | .getPool =>
    let (answer, s) := s.startedView
    (answer.map .pool, s)
  | .getPoolSize =>
    let (answer, s) := s.poolSize
    (answer.map .poolSize, s)
  | .setDesired size =>
    if s.controller.state = .unconfigured then (.error .notConfigured, s)
    else (.ok .done, s.changed (s.controller.setDesired size))
  | .terminate id decrement => plain (s.terminate p id decrement)
  | .attach id => plain (s.attach p id)
  | .detach id decrement => plain (s.detach p id decrement)
  | .setService id service =>
    plain (s.machineCall p id (fun d => p.setService d id service) fun s => s)
  | .setMembership id membership =>
    plain (s.machineCall p id (fun d => p.setMembership d id membership) fun s => s)

/-! ## Background work -/

/-- The cycle that is due, if one is; the ticker has been free since some time. -/
def tick (p : Provider σ) (freeSince : Instant) (s : Station σ) : Station σ :=
  match s.working with
  | none => s
  | some r =>
    if r.ticker.due ≤ s.world.now then
      let ticker := r.ticker.fire (freeSince.latest r.ticker.due)
      (reconcile p { s with running := some { r with ticker } }).2
    else s

/-- The refreshes that are due. -/
def refreshDue (p : Provider σ) (s : Station σ) : Station σ :=
  match s.working with
  | none => s
  | some r =>
    let (live, world) := r.live.settle (r.fetcher p) s.world
    { s with running := some { r with live }, world }

/-- All work that is ready at this time: the cycle that came due while the controller was busy,
the refreshes, and a cycle that came due meanwhile. -/
def settle (p : Provider σ) (busySince : Instant) (s : Station σ) : Station σ :=
  let s := (s.tick p busySince).refreshDue p
  s.tick p s.world.now

/-- The answer to a request, and all the work that is ready afterwards. No answer comes from a
fetch that never ends. -/
def ask (p : Provider σ) (request : Request) (s : Station σ) : Option Answer × Station σ :=
  if s.stuck then (none, s)
  else
    let (answer, after) := s.respond p request
    if after.stuck then (none, after) else (some answer, after.settle p s.world.now)

/-- When the background work goes on. -/
def nextTime (s : Station σ) : Option Instant :=
  s.working.map fun r =>
    match r.live.nextTime with
    | some time => time.earliest r.ticker.due
    | none => r.ticker.due

/-- Lets some nanoseconds pass: the background work is done whenever it is ready. -/
def advance (p : Provider σ) (nanos : Nat) (s : Station σ) : Station σ :=
  match s.nextTime with
  | none => { s with world := s.world.atTime (s.world.now.plus ⟨nanos⟩) }
  | some time =>
    let gap := max 1 (time.since s.world.now).toNat
    if nanos < gap then { s with world := s.world.atTime (s.world.now.plus ⟨nanos⟩) }
    else
      let later := s.world.atTime (s.world.now.plus ⟨gap⟩)
      advance p (nanos - gap) (settle p later.now { s with world := later })
termination_by nanos

/-! ## Beginning -/

/-- A controller that begins with the saved configuration, if there is one that it can apply. -/
def boot (p : Provider σ) (store : Option Store) (world : World σ) : Station σ :=
  let s : Station σ := { world, store }
  let saved := store.bind fun store =>
    (store.load FileTree.system PoolConfig.codec configFile world.files).toOption.join
  match saved with
  | some config => (s.apply p config).2
  | none => s

/-- Another controller in place of this one, in the same world. -/
def restart (p : Provider σ) (s : Station σ) : Station σ :=
  boot p s.store { s.world with events := [] }

/-- The events since they were last taken, or the latest of them if they are more than a channel
of some capacity holds. The channel holds a power of two. -/
def takeEvents (capacity : Nat) (s : Station σ) : List Event × Station σ :=
  let events := s.world.events
  (events.drop (events.length - capacity.nextPowerOfTwo),
    { s with world := { s.world with events := [] } })

end Station

end PoolKeeper
