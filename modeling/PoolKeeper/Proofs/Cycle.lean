import PoolKeeper.Controller.Cycle
import PoolKeeper.Proofs.Plan
import PoolKeeper.Provider.Trace

/-!
# What the actions of a cycle do

* `Event.ofMachines`, `Event.ofRefusal`, `Event.ofScheduled`, `Event.ofFailure`: what is told of an
  action;
* `Cycle.launched`, `Cycle.refusals`, `Cycle.breaks`, `Cycle.confirmed`, `Cycle.missing`,
  `Cycle.failed`: what the driver did, as its answers have it;
* **`Cycle.start_eq`**, **`Cycle.schedule_eq`**, **`Cycle.terminate_eq`**: all that an action does;
* `Cycle.through`, `Cycle.carryOut_eq`: the actions, unless the first one breaks down;
  `Cycle.result`: what comes of them; `Cycle.filterMap_through`: what they tell.
-/

namespace PoolKeeper

/-- What is said of a termination that failed. -/
def failureText (failure : String × DriverError) : String :=
  s!"failed to terminate {failure.1}: {failure.2.message}"

namespace Event

/-- What is told of some machines in one event; nothing of none. -/
def ofMachines (event : List String → Event) (ids : List String) : List Event :=
  if ids = [] then [] else [event ids]

/-- What is told of a start that stopped part-way. -/
def ofRefusal (now : Instant) (e : StartError) : Event :=
  resizeAlert s!"failed to start machines: {e.message}" now

/-- What is told of a termination that is scheduled. -/
def ofScheduled (s : Scheduled) : Event := .terminationScheduled s.id s.time

/-- What is told of a termination that failed. -/
def ofFailure (now : Instant) (failure : String × DriverError) : Event :=
  resizeAlert (failureText failure) now

section

variable {α β : Type} {f : Event → Option α}

theorem filterMap_ofMachines_of_none {event : List String → Event} {ids : List String}
    (h : f (event ids) = none) : (ofMachines event ids).filterMap f = [] := by
  rw [ofMachines]
  split
  · rfl
  · rw [List.filterMap_cons, h]
    rfl

theorem filterMap_map_of_none (event : β → Event) (h : ∀ x, f (event x) = none) (l : List β) :
    (l.map event).filterMap f = [] := by
  rw [List.filterMap_map, List.filterMap_eq_nil_iff]
  exact fun x _ => h x

end

end Event

namespace Cycle

variable {σ : Type} (p : Provider σ) (d : DriverId) (now : Instant) (c : Cycle σ)

/-! ## Starting -/

/-- The machines that a start launches; none without a call. -/
def launched (count : Nat) : List Machine :=
  if count = 0 then [] else launchedBy (p.start d count now c.outside).1

/-- The starts that stop part-way; none without a call. -/
def refusals (count : Nat) : List StartError :=
  if count = 0 then [] else refusedBy (p.start d count now c.outside).1

/-- A start breaks down; none without a call. -/
def breaks (count : Nat) : Bool :=
  if count = 0 then false else brokenBy (p.start d count now c.outside).1

theorem noteStarted_eq (machines : List Machine) :
    c.noteStarted machines now =
      { c with
        controller :=
          { c.controller with overlay := c.controller.overlay.recordStarted machines now }
        report := { c.report with started := c.report.started ++ machines.map Machine.id }
        events :=
          c.events ++ Event.ofMachines .machinesStarted (machines.map Machine.id) } := by
  cases machines with
  | nil =>
    simp only [Event.ofMachines, List.map_nil, if_true, List.append_nil]
    rfl
  | cons m rest => rfl

/-- **All that a start does.** -/
theorem start_eq (count : Nat) :
    c.start p d now count =
      { controller :=
          { c.controller with
            overlay := c.controller.overlay.recordStarted (c.launched p d now count) now }
        outside := if count = 0 then c.outside else (p.start d count now c.outside).2
        report :=
          { c.report with
            started := c.report.started ++ (c.launched p d now count).map Machine.id
            failures := c.report.failures ++ (c.refusals p d now count).map StartError.message }
        events :=
          c.events ++ (Event.ofMachines .machinesStarted
            ((c.launched p d now count).map Machine.id) ++
              (c.refusals p d now count).map (Event.ofRefusal now))
        broken := c.broken || c.breaks p d now count } := by
  unfold start launched refusals breaks
  split
  · simp only [Event.ofMachines, List.map_nil, if_true, List.append_nil, Bool.or_false]
    rfl
  · generalize p.start d count now c.outside = result
    obtain ⟨answer, outside⟩ := result
    cases answer with
    | ok machines =>
      simp only [noteStarted_eq, launchedBy, refusedBy, brokenBy, List.map_nil, List.append_nil,
        Bool.or_false]
    | error failure =>
      cases failure with
      | refused e =>
        simp only [noteFailure, noteStarted_eq, launchedBy, refusedBy, brokenBy, List.map_cons,
          List.map_nil, List.append_assoc, Bool.or_false]
        rfl
      | crashed =>
        simp only [Event.ofMachines, launchedBy, refusedBy, brokenBy, List.map_nil, if_true,
          List.append_nil, Bool.or_true]
        rfl

theorem start_of_breaks {count : Nat} (h : c.breaks p d now count = true) :
    c.start p d now count =
      { c with outside := (p.start d count now c.outside).2, broken := true } := by
  unfold breaks at h
  unfold start
  split at h
  · cases h
  · rename_i hcount
    rw [if_neg hcount]
    generalize p.start d count now c.outside = result at h
    obtain ⟨answer, outside⟩ := result
    match answer, h with
    | .error .crashed, _ => rfl

/-! ## Scheduling -/

/-- **All that scheduling does.** -/
theorem schedule_eq (terminations : List Scheduled) :
    c.schedule terminations =
      { c with
        controller :=
          { c.controller with queue := c.controller.queue.insertAll terminations }
        report := { c.report with scheduled := c.report.scheduled ++ terminations.map Scheduled.id }
        events := c.events ++ terminations.map Event.ofScheduled } := by
  induction terminations generalizing c with
  | nil =>
    simp only [List.map_nil, List.append_nil]
    rfl
  | cons s rest ih =>
    refine (ih (c.scheduleOne s)).trans ?_
    simp only [scheduleOne, List.append_assoc, List.singleton_append, List.map_cons]
    rfl

/-! ## Terminating -/

/-- The machines that a termination of those due confirms; none without a call. -/
def confirmed : List String :=
  if (c.due now).isEmpty then []
  else confirmedBy (c.due now) (p.terminate d (c.due now) now c.outside).1

/-- The machines that a termination of those due does not find; none without a call. -/
def missing : List String :=
  if (c.due now).isEmpty then [] else missingBy (p.terminate d (c.due now) now c.outside).1

/-- The terminations of those due that fail; none without a call. -/
def failed : List (String × DriverError) :=
  if (c.due now).isEmpty then [] else failedBy (p.terminate d (c.due now) now c.outside).1

theorem foldl_dequeue (ids : List String) :
    ids.foldl dequeue c =
      { c with controller := { c.controller with queue := c.controller.queue.eraseAll ids } } := by
  induction ids generalizing c with
  | nil => rfl
  | cons id rest ih => exact ih (c.dequeue id)

theorem noteTerminated_eq (ids : List String) :
    c.noteTerminated ids now =
      { c with
        controller :=
          { c.controller with
            queue := c.controller.queue.eraseAll ids
            overlay := c.controller.overlay.recordTerminated ids now }
        report := { c.report with terminated := c.report.terminated ++ ids }
        events := c.events ++ Event.ofMachines .machinesTerminated ids } := by
  cases ids with
  | nil =>
    simp only [Event.ofMachines, if_true, List.append_nil]
    rfl
  | cons id rest =>
    rw [noteTerminated, if_neg (by simp), foldl_dequeue]
    rfl

/-- What the failures of a termination leave: machines that are not there are off the queue, and
every other failure is told and reported. -/
theorem foldl_noteUnterminated (failures : List (String × DriverError)) :
    failures.foldl (noteUnterminated now) c =
      { c with
        controller :=
          { c.controller with
            queue := c.controller.queue.eraseAll
              ((failures.filter fun failure => failure.2.isNotFound).map Prod.fst) }
        report :=
          { c.report with
            failures := c.report.failures ++
              (failures.filter fun failure => !failure.2.isNotFound).map failureText }
        events := c.events ++ (failures.filter fun failure => !failure.2.isNotFound).map
          (Event.ofFailure now) } := by
  induction failures generalizing c with
  | nil =>
    simp only [List.filter_nil, List.map_nil, List.append_nil]
    rfl
  | cons failure rest ih =>
    rw [List.foldl_cons, ih]
    by_cases h : failure.2.isNotFound = true
    · rw [noteUnterminated, if_pos h, List.filter_cons_of_pos (by simpa using h),
        List.filter_cons_of_neg (by simpa using h)]
      rfl
    · rw [noteUnterminated, if_neg h, List.filter_cons_of_neg (by simpa using h),
        List.filter_cons_of_pos (by simpa using h)]
      simp only [noteFailure, List.map_cons, List.append_assoc]
      rfl

/-- **All that a termination does.** -/
theorem terminate_eq :
    c.terminate p d now =
      { controller :=
          { c.controller with
            queue :=
              (c.controller.queue.eraseAll (c.missing p d now)).eraseAll (c.confirmed p d now)
            overlay := c.controller.overlay.recordTerminated (c.confirmed p d now) now }
        outside :=
          if (c.due now).isEmpty then c.outside
          else (p.terminate d (c.due now) now c.outside).2
        report :=
          { c.report with
            terminated := c.report.terminated ++ c.confirmed p d now
            failures := c.report.failures ++ (c.failed p d now).map failureText }
        events :=
          c.events ++ ((c.failed p d now).map (Event.ofFailure now) ++
            Event.ofMachines .machinesTerminated (c.confirmed p d now))
        broken := c.broken } := by
  unfold terminate missing confirmed failed
  simp only
  split
  · simp only [Event.ofMachines, List.map_nil, if_true, List.append_nil]
    rfl
  · generalize p.terminate d (c.due now) now c.outside = result
    obtain ⟨answer, outside⟩ := result
    cases answer with
    | ok u =>
      simp only [noteTerminated_eq, confirmedBy, missingBy, failedBy, List.map_nil,
        List.nil_append, List.append_nil]
      rfl
    | error e =>
      simp only [noteTerminated_eq, foldl_noteUnterminated, confirmedBy, missingBy, failedBy,
        List.append_assoc]

/-! ## All actions -/

@[simp] theorem finish_report : (c.finish now).report = c.report := rfl

@[simp] theorem finish_outside : (c.finish now).outside = c.outside := rfl

@[simp] theorem finish_events : (c.finish now).events = c.events := rfl

/-- The actions of a cycle, as planned, when none breaks down. -/
def through (plan : ResizePlan) : Cycle σ :=
  (((c.start p d now plan.toRequest).spare plan.toSpare).schedule plan.toTerminate).terminate p d
    now |>.finish now

theorem carryOut_eq (plan : ResizePlan) (h : c.broken = false) :
    c.carryOut p d now plan =
      if c.breaks p d now plan.toRequest then c.start p d now plan.toRequest
      else c.through p d now plan := by
  have hbroken : (c.start p d now plan.toRequest).broken = c.breaks p d now plan.toRequest := by
    rw [start_eq, h, Bool.false_or]
  rw [carryOut, hbroken]
  rfl

theorem through_broken (plan : ResizePlan) (h : c.broken = false)
    (hbreaks : c.breaks p d now plan.toRequest = false) :
    (c.through p d now plan).broken = false := by
  rw [through]
  simp only [finish, terminate_eq, schedule_eq, spare, start_eq, h, hbreaks, Bool.or_self]

/-- What comes of a cycle: its report, unless it broke down, and what it leaves. -/
def result : Except ControllerError Report × Controller × List Event × σ :=
  (if c.broken then .error .brokeDown else .ok c.report, c.controller, c.events, c.outside)

/-- What else than alerts and scheduled terminations is told: starts and ends. -/
theorem filterMap_through {α : Type} {f : Event → Option α} (plan : ResizePlan)
    (halert : ∀ topic severity message time, f (.alert topic severity message time) = none)
    (hscheduled : ∀ id time, f (.terminationScheduled id time) = none) :
    (c.through p d now plan).events.filterMap f =
      c.events.filterMap f ++
        (Event.ofMachines .machinesStarted
          ((c.launched p d now plan.toRequest).map Machine.id)).filterMap f ++
        (Event.ofMachines .machinesTerminated
          ((((c.start p d now plan.toRequest).spare plan.toSpare).schedule
            plan.toTerminate).confirmed p d now)).filterMap f := by
  have hready : (((c.start p d now plan.toRequest).spare plan.toSpare).schedule
      plan.toTerminate).events.filterMap f = c.events.filterMap f ++
        (Event.ofMachines .machinesStarted
          ((c.launched p d now plan.toRequest).map Machine.id)).filterMap f := by
    rw [schedule_eq, start_eq]
    simp only [spare, List.filterMap_append]
    rw [Event.filterMap_map_of_none (Event.ofRefusal now) fun _ => halert _ _ _ _,
      Event.filterMap_map_of_none Event.ofScheduled fun _ => hscheduled _ _, List.append_nil,
      List.append_nil]
  rw [through, finish_events, terminate_eq, List.filterMap_append, hready, List.filterMap_append,
    Event.filterMap_map_of_none (Event.ofFailure now) fun _ => halert _ _ _ _, List.nil_append]

end Cycle

end PoolKeeper
