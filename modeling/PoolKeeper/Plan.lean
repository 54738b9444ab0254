import PoolKeeper.Victim

/-!
# Resize plans

A plan brings a pool to a desired size. Only effective machines count, and those that wait for
their termination are as good as gone: what is left is the net size.

* `ResizePlan`, `ResizePlan.make`: a plan grows the pool, shrinks it or does nothing;
* `Planner`: the pool, the queue and the settings that a plan depends on;
* `Planner.netSize`, `Planner.terminationTime`, `Planner.scaleIn`;
* `Planner.plan`: it breaks down when the end of an hour cannot be told.
-/

namespace PoolKeeper

/-- Why there is no plan. -/
inductive PlanError where
  /-- The margin is not below an hour. -/
  | invalidMargin (seconds : Nat)
  /-- The plan would grow and shrink the pool at once. -/
  | ambiguous (toRequest toSpare toTerminate : Nat)
deriving DecidableEq, Repr

namespace PlanError

def message : PlanError → String
  | invalidMargin seconds =>
    s!"instance hour margin must be in [0, 3600) seconds, got {seconds}"
  | ambiguous toRequest toSpare toTerminate =>
    s!"ambiguous resize plan: {toRequest} to request, {toSpare} to spare, {toTerminate} to terminate"

end PlanError

/-- Why planning gave no plan. -/
inductive PlanFailure where
  | refused (e : PlanError)
  /-- It broke down and gave no answer at all. -/
  | crashed
deriving DecidableEq, Repr

/-- What to do about the size of a pool. -/
structure ResizePlan where
  /-- How many machines to start. -/
  toRequest : Nat
  /-- How many scheduled terminations to call off. -/
  toSpare : Nat
  /-- The terminations to schedule. -/
  toTerminate : List Scheduled
deriving Repr

namespace ResizePlan

/-- The plan to do nothing. -/
def nothing : ResizePlan := ⟨0, 0, []⟩

/-- A plan that does not grow and shrink the pool at once. -/
def make (toRequest toSpare : Nat) (toTerminate : List Scheduled) : Except PlanError ResizePlan :=
  if (0 < toRequest ∨ 0 < toSpare) ∧ toTerminate ≠ [] then
    .error (.ambiguous toRequest toSpare toTerminate.length)
  else .ok ⟨toRequest, toSpare, toTerminate⟩

/-- There is nothing to do. -/
def isNothing (p : ResizePlan) : Bool :=
  p.toRequest == 0 && p.toSpare == 0 && p.toTerminate.isEmpty

end ResizePlan

/-- What a plan depends on. -/
structure Planner where
  pool : Pool
  queue : TerminationQueue
  policy : VictimPolicy
  /-- Seconds before the next hour at which a victim goes; below an hour. -/
  margin : Nat
deriving Repr

namespace Planner

/-- A planner whose margin is below an hour. -/
def make (pool : Pool) (queue : TerminationQueue) (policy : VictimPolicy) (margin : Nat) :
    Except PlanError Planner :=
  if Billing.period ≤ margin then .error (.invalidMargin margin)
  else .ok ⟨pool, queue, policy, margin⟩

/-- The number of effective machines that wait for their termination. -/
def scheduledCount (p : Planner) : Nat :=
  (p.pool.effective.filter fun m => p.queue.contains m.id).length

/-- The size of the pool once every waiting machine is gone. -/
def netSize (p : Planner) : Nat := p.pool.effectiveCount - p.scheduledCount

/-- The latest time at which a victim can go without beginning another hour, less the margin. -/
def terminationTime (p : Planner) (m : Machine) (now : Instant) : Option Instant :=
  match p.margin, m.launched with
  | 0, _ => some now
  | _, none => some now
  | margin, some launched =>
    (Billing.nextBoundary launched now).map fun next => now.latest (next.addSeconds (-margin))

/-- The effective machines that may go and do not wait. -/
def eligible (p : Planner) : List Machine :=
  p.pool.effective.filter fun m => m.isEvictable && !p.queue.contains m.id

/-- The termination of a machine at its time. -/
def termination (p : Planner) (now : Instant) (m : Machine) : Option Scheduled :=
  (p.terminationTime m now).map fun time => ⟨m, time⟩

/-- Terminations for up to `excess` machines: first those not launched yet, at once, then others
at their time, if those are not enough. -/
def scaleIn (p : Planner) (excess : Nat) (now : Instant) : Option (List Scheduled) := do
  let isRequested (m : Machine) : Bool := m.state = .requested
  let requested ← p.policy.select now p.queue (p.eligible.filter isRequested) excess
  let atOnce := requested.map fun m => ⟨m, now⟩
  if excess ≤ requested.length then return atOnce
  else
    let launched ← p.policy.select now p.queue (p.eligible.filter fun m => !isRequested m)
      (excess - requested.length)
    return atOnce ++ (← launched.mapM (p.termination now))

/-- The plan towards a desired size. -/
def plan (p : Planner) (desired : Nat) (now : Instant) : Except PlanFailure ResizePlan :=
  if p.netSize < desired then
    let missing := desired - p.netSize
    let toSpare := min p.scheduledCount missing
    (ResizePlan.make (missing - toSpare) toSpare []).mapError .refused
  else if desired < p.netSize then
    match p.scaleIn (p.netSize - desired) now with
    | some terminations => (ResizePlan.make 0 0 terminations).mapError .refused
    | none => .error .crashed
  else .ok .nothing

end Planner

end PoolKeeper
