import PoolKeeper.Controller.Basic

/-!
# Cycles

A cycle looks at the pool and does one step towards the desired size: it drops terminations of
machines that no longer count, plans, starts machines, spares and schedules terminations, and
terminates the machines whose time has come.

* `Report`: what a cycle did;
* `Cycle`: a cycle under way; `Cycle.start`, `spare`, `schedule`, `terminate`: its actions;
* `Controller.prune`, `Controller.prepare`: what comes before the actions;
* `Controller.reconcile`: a whole cycle.
-/

namespace PoolKeeper

/-- What a cycle did. -/
structure Report where
  desiredSize : Nat
  /-- The net size before the cycle. -/
  netSize : Nat
  started : List String := []
  /-- Machines whose termination was called off. -/
  spared : List String := []
  /-- Machines whose termination was scheduled. -/
  scheduled : List String := []
  terminated : List String := []
  /-- What went wrong, one message each. -/
  failures : List String := []
deriving DecidableEq, Repr

namespace Report

def hasFailures (r : Report) : Bool := !r.failures.isEmpty

/-- All failures in one message. -/
def summary (r : Report) : String := "; ".intercalate r.failures

end Report

/-- An alert about a failed start or termination. -/
def resizeAlert (message : String) (now : Instant) : Event :=
  .alert Topic.resize .error message now

/-- A cycle under way. -/
structure Cycle (σ : Type) where
  controller : Controller
  outside : σ
  report : Report
  events : List Event
  /-- A call to a driver broke down, and the cycle with it. -/
  broken : Bool := false

namespace Cycle

variable {σ : Type}

/-- Notes machines that were started. -/
def noteStarted (machines : List Machine) (now : Instant) (c : Cycle σ) : Cycle σ :=
  if machines.isEmpty then c
  else
    let ids := machines.map Machine.id
    { c with
      controller :=
        { c.controller with overlay := c.controller.overlay.recordStarted machines now }
      events := c.events ++ [.machinesStarted ids]
      report := { c.report with started := c.report.started ++ ids } }

/-- Notes a failure: it is told in an alert and reported. -/
def noteFailure (alert reported : String) (now : Instant) (c : Cycle σ) : Cycle σ :=
  { c with
    events := c.events ++ [resizeAlert alert now]
    report := { c.report with failures := c.report.failures ++ [reported] } }

/-- Asks for machines. -/
def start (p : Provider σ) (d : DriverId) (now : Instant) (count : Nat) (c : Cycle σ) : Cycle σ :=
  if count = 0 then c
  else
    match p.start d count now c.outside with
    | (.ok machines, outside) => { c with outside }.noteStarted machines now
    | (.error (.refused e), outside) =>
      ({ c with outside }.noteStarted e.started now).noteFailure
        s!"failed to start machines: {e.message}" e.message now
    | (.error .crashed, outside) => { c with outside, broken := true }

/-- Calls scheduled terminations off. -/
def spare (count : Nat) (c : Cycle σ) : Cycle σ :=
  let queue := c.controller.queue
  { c with
    controller := { c.controller with queue := queue.spare count }
    report :=
      { c.report with spared := c.report.spared ++ (queue.spared count).map Scheduled.id } }

/-- Schedules a termination. -/
def scheduleOne (c : Cycle σ) (s : Scheduled) : Cycle σ :=
  { c with
    controller := { c.controller with queue := c.controller.queue.insert s }
    events := c.events ++ [.terminationScheduled s.id s.time]
    report := { c.report with scheduled := c.report.scheduled ++ [s.id] } }

/-- Schedules terminations. -/
def schedule (terminations : List Scheduled) (c : Cycle σ) : Cycle σ :=
  terminations.foldl scheduleOne c

/-- Takes a machine off the queue. -/
def dequeue (c : Cycle σ) (id : String) : Cycle σ :=
  { c with controller := { c.controller with queue := c.controller.queue.erase id } }

/-- Notes that a machine was not terminated: one that is not there leaves the queue, any other
failure is told and reported. -/
def noteUnterminated (now : Instant) (c : Cycle σ) (failure : String × DriverError) : Cycle σ :=
  let (id, cause) := failure
  if cause.isNotFound then c.dequeue id
  else
    let message := s!"failed to terminate {id}: {cause.message}"
    c.noteFailure message message now

/-- Notes machines whose end is confirmed. -/
def noteTerminated (ids : List String) (now : Instant) (c : Cycle σ) : Cycle σ :=
  if ids.isEmpty then c
  else
    let c := ids.foldl dequeue c
    { c with
      controller :=
        { c.controller with overlay := c.controller.overlay.recordTerminated ids now }
      events := c.events ++ [.machinesTerminated ids]
      report := { c.report with terminated := c.report.terminated ++ ids } }

/-- The machines whose time has come. -/
def due (c : Cycle σ) (now : Instant) : List String :=
  (c.controller.queue.due now).map Scheduled.id

/-- Terminates the machines whose time has come. Only those whose end is confirmed, or that are
not there, leave the queue. -/
def terminate (p : Provider σ) (d : DriverId) (now : Instant) (c : Cycle σ) : Cycle σ :=
  let due := c.due now
  if due.isEmpty then c
  else
    match p.terminate d due now c.outside with
    | (.ok (), outside) => { c with outside }.noteTerminated due now
    | (.error e, outside) =>
      (e.failures.entries.foldl (noteUnterminated now) { c with outside }).noteTerminated
        e.succeeded now

/-- Notes the end of the cycle. -/
def finish (now : Instant) (c : Cycle σ) : Cycle σ :=
  { c with
    controller :=
      { c.controller with
        lastReconciled := some now
        lastError := if c.report.hasFailures then some c.report.summary else none } }

/-- The actions of a cycle, as planned, unless it breaks down. -/
def carryOut (p : Provider σ) (d : DriverId) (now : Instant) (plan : ResizePlan) (c : Cycle σ) :
    Cycle σ :=
  let c := c.start p d now plan.toRequest
  if c.broken then c
  else ((c.spare plan.toSpare).schedule plan.toTerminate).terminate p d now |>.finish now

end Cycle

namespace Controller

variable {σ : Type}

/-- Drops scheduled terminations of machines that no longer count. -/
def prune (c : Controller) (pool : Pool) : Controller :=
  { c with
    queue := c.queue.retain fun s =>
      match pool.get? s.id with
      | some m => m.isEffective
      | none => false }

/-- What a cycle needs before it acts: the plan, the report to fill in, and the desired size, which
is learned from the pool if it is not known. -/
def prepare (c : Controller) (config : PoolConfig) (pool : Pool) (now : Instant) :
    Except PlanFailure (ResizePlan × Report × Controller × List Event) := do
  let planner ←
    (Planner.make pool c.queue config.scaleIn.policy config.scaleIn.margin).mapError .refused
  let desired := c.desired.getD planner.netSize
  let plan ← planner.plan desired now
  let (c, events) := if c.desired.isNone then c.setDesired desired else (c, [])
  pure (plan, { desiredSize := desired, netSize := planner.netSize }, c, events)

/-- A cycle on a view of the pool. The controller breaks down with its planner or a driver. -/
def reconcile (p : Provider σ) (a : Applied) (pool : Pool) (now : Instant) (c : Controller)
    (outside : σ) : Except ControllerError Report × Controller × List Event × σ :=
  let c := c.prune pool
  match c.prepare a.config pool now with
  | .error (.refused e) => (.error (.plan e), c, [], outside)
  | .error .crashed => (.error .brokeDown, c, [], outside)
  | .ok (plan, report, controller, events) =>
    let cycle := Cycle.carryOut p a.driver now plan { controller, outside, report, events }
    (if cycle.broken then .error .brokeDown else .ok cycle.report, cycle.controller, cycle.events,
      cycle.outside)

end Controller

end PoolKeeper
