import Mathlib.Algebra.GroupWithZero.Nat
import PoolKeeper.Proofs.Cycle

/-!
# Whole cycles

* `Turn`: a cycle with all that it depends on; in its terms the size to converge to, the plan, the
  machines that are launched, that wait and that are due, and the calls that are made;
* `Turn.GoesThrough`: nothing breaks down, as is always so when the hours of the machines in view end
  in time and the provider answers; **`Turn.outcome_eq`**: then a cycle gives a report;
* `Turn.closing_report`, `Turn.closing_controller`, `Turn.closing_outside`, `Turn.closing_events`: what
  is in it, what the controller knows afterwards, what is left outside, and what is told;
* **`Turn.outcome_traced`**: the calls that a cycle makes, and that writing them down changes nothing
  else.
-/

namespace PoolKeeper

/-- A cycle, with all that it depends on. -/
structure Turn (σ : Type) where
  provider : Provider σ
  applied : Applied
  /-- The pool as the cycle sees it. -/
  view : Pool
  now : Instant
  controller : Controller
  outside : σ

namespace Turn

variable {σ : Type} (t : Turn σ)

/-! ## The plan -/

/-- The driver in force. -/
def driver : DriverId := t.applied.driver

/-- The terminations that are still of machines that count. -/
def pruned : TerminationQueue := (t.controller.prune t.view).queue

/-- What the plan depends on. -/
def planner : Planner :=
  ⟨t.view, t.pruned, t.applied.config.scaleIn.policy, t.applied.config.scaleIn.margin⟩

/-- The size to converge to, learned from the pool if it is not known. -/
def desired : Nat := t.controller.desired.getD t.planner.netSize

/-- The number of machines to start. -/
def requested : Nat := t.desired - t.view.effectiveCount

/-- The number of terminations to call off. -/
def toSpare : Nat := min t.planner.scheduledCount (t.desired - t.planner.netSize)

/-- The terminations to schedule. -/
def scheduled : List Scheduled := t.planner.victims (t.planner.netSize - t.desired) t.now

/-- The plan. -/
def plan : ResizePlan := ⟨t.requested, t.toSpare, t.scheduled⟩

/-- The configuration is one that a controller can work with. -/
def Valid : Prop := t.applied.config.scaleIn.margin < Billing.period

/-! ## The actions -/

/-- The cycle before its first action. -/
def opening : Cycle σ where
  controller := { t.controller.prune t.view with desired := some t.desired }
  outside := t.outside
  report := { desiredSize := t.desired, netSize := t.planner.netSize }
  events := if t.controller.desired.isNone then [.desiredSizeChanged none t.desired] else []

/-- The machines that are launched. -/
def launched : List Machine := t.opening.launched t.provider t.driver t.now t.requested

/-- The starts that stop part-way. -/
def refusals : List StartError := t.opening.refusals t.provider t.driver t.now t.requested

/-- The cycle before its last action. -/
def ready : Cycle σ :=
  ((t.opening.start t.provider t.driver t.now t.requested).spare t.toSpare).schedule t.scheduled

/-- What is left outside before the last action. -/
def midway : σ :=
  if t.requested = 0 then t.outside
  else (t.provider.start t.driver t.requested t.now t.outside).2

/-- The terminations that wait before the last action. -/
def waiting : TerminationQueue := (t.pruned.spare t.toSpare).insertAll t.scheduled

/-- The machines whose time has come. -/
def due : List String := (t.waiting.due t.now).map Scheduled.id

/-- The machines whose end is confirmed. -/
def confirmed : List String :=
  if t.due.isEmpty then []
  else confirmedBy t.due (t.provider.terminate t.driver t.due t.now t.midway).1

/-- The machines that are due and not there. -/
def missing : List String :=
  if t.due.isEmpty then [] else missingBy (t.provider.terminate t.driver t.due t.now t.midway).1

/-- The terminations of those due that fail. -/
def failed : List (String × DriverError) :=
  if t.due.isEmpty then [] else failedBy (t.provider.terminate t.driver t.due t.now t.midway).1

/-- The cycle after its last action. -/
def closing : Cycle σ := Cycle.through t.provider t.driver t.now t.opening t.plan

/-- The hours that the plan looks at end in time. -/
def Foresees : Prop := t.planner.Foresees t.desired t.now

/-- The start breaks down. -/
def breaks : Bool := t.opening.breaks t.provider t.driver t.now t.requested

/-- Nothing breaks down on the way to the last action. -/
structure GoesThrough : Prop where
  foresees : t.Foresees
  starts : t.breaks = false

instance : Decidable t.Foresees := inferInstanceAs (Decidable (Planner.Foresees ..))

instance : Decidable t.GoesThrough :=
  decidable_of_iff (t.Foresees ∧ t.breaks = false) ⟨fun h => ⟨h.1, h.2⟩, fun h => ⟨h.1, h.2⟩⟩

/-- The whole cycle. -/
def outcome : Except ControllerError Report × Controller × List Event × σ :=
  t.controller.reconcile t.provider t.applied t.view t.now t.outside

/-- **What a cycle has done before its last action.** -/
theorem ready_eq :
    t.ready =
      { controller :=
          { t.controller with
            desired := some t.desired
            queue := t.waiting
            overlay := t.controller.overlay.recordStarted t.launched t.now }
        outside := t.midway
        report :=
          { desiredSize := t.desired
            netSize := t.planner.netSize
            started := t.launched.map Machine.id
            spared := (t.pruned.spared t.toSpare).map Scheduled.id
            scheduled := t.scheduled.map Scheduled.id
            failures := t.refusals.map StartError.message }
        events :=
          t.opening.events ++ (Event.ofMachines .machinesStarted (t.launched.map Machine.id) ++
            t.refusals.map (Event.ofRefusal t.now)) ++ t.scheduled.map Event.ofScheduled
        broken := t.breaks } := by
  rw [ready, Cycle.start_eq, Cycle.schedule_eq]
  rfl

theorem ready_due : t.ready.due t.now = t.due := by
  rw [Cycle.due, ready_eq]
  rfl

theorem ready_confirmed : t.ready.confirmed t.provider t.driver t.now = t.confirmed := by
  rw [Cycle.confirmed, ready_due, ready_eq]
  rfl

theorem ready_missing : t.ready.missing t.provider t.driver t.now = t.missing := by
  rw [Cycle.missing, ready_due, ready_eq]
  rfl

theorem ready_failed : t.ready.failed t.provider t.driver t.now = t.failed := by
  rw [Cycle.failed, ready_due, ready_eq]
  rfl

theorem closing_eq : t.closing = (t.ready.terminate t.provider t.driver t.now).finish t.now := rfl

/-! ## The report -/

theorem learn_eq (c : Controller) (size : Nat) :
    (if c.desired.isNone then c.setDesired size else (c, [])) =
      ({ c with desired := some (c.desired.getD size) },
        if c.desired.isNone then [.desiredSizeChanged none size] else []) := by
  obtain ⟨_, _, known, _, _, _, _⟩ := c
  cases known with
  | none => rfl
  | some known => rfl

theorem make_eq (h : t.Valid) :
    Planner.make t.view t.pruned t.applied.config.scaleIn.policy
      t.applied.config.scaleIn.margin = .ok t.planner := by
  rw [Planner.make, if_neg (Nat.not_le.2 h)]
  rfl

theorem getD_desired : t.controller.desired.getD t.desired = t.desired := by
  show t.controller.desired.getD (t.controller.desired.getD _) = t.controller.desired.getD _
  cases t.controller.desired with
  | none => rfl
  | some size => rfl

theorem prepare_eq (h : t.Valid) :
    (t.controller.prune t.view).prepare t.applied.config t.view t.now =
      if t.Foresees then .ok (t.plan, t.opening.report, t.opening.controller, t.opening.events)
      else .error .crashed := by
  rw [Controller.prepare]
  show ((Planner.make t.view t.pruned _ _).mapError PlanFailure.refused >>= _) = _
  rw [t.make_eq h]
  have hplan : t.planner.plan t.desired t.now =
      if t.Foresees then .ok t.plan else .error .crashed := Planner.plan_eq _ _ _
  show (t.planner.plan t.desired t.now >>= _) = _
  rw [hplan]
  by_cases hforesees : t.Foresees
  · rw [if_pos hforesees, if_pos hforesees]
    show (have learned := if (t.controller.prune t.view).desired.isNone
        then (t.controller.prune t.view).setDesired t.desired
        else (t.controller.prune t.view, [])
      Except.ok (t.plan, t.opening.report, learned.1, learned.2)) = _
    have hsize : (t.controller.prune t.view).desired.getD t.desired = t.desired := t.getD_desired
    rw [learn_eq, hsize]
    rfl
  · rw [if_neg hforesees, if_neg hforesees]
    rfl

theorem netSize_le : t.planner.netSize ≤ t.view.effectiveCount :=
  Nat.sub_le _ _

theorem foresees_of_requested (h : t.requested ≠ 0) : t.Foresees :=
  Planner.foresees_of_le (Nat.le_trans t.netSize_le (Nat.le_of_lt (Nat.lt_of_sub_ne_zero h))) t.now

theorem requested_of_blind (h : ¬ t.Foresees) : t.requested = 0 :=
  Decidable.not_not.1 fun hsome => h (t.foresees_of_requested hsome)

theorem requested_of_learning (h : t.controller.desired = none) : t.requested = 0 := by
  have hsize : t.desired = t.planner.netSize := by rw [desired, h, Option.getD_none]
  rw [requested, hsize, Nat.sub_eq_zero_of_le t.netSize_le]

theorem goesThrough_of_foresees (h : t.Foresees) (hnone : t.requested = 0) : t.GoesThrough where
  foresees := h
  starts := by rw [breaks, Cycle.breaks, if_pos hnone]

/-- **A cycle that learns the size goes through.** -/
theorem goesThrough_of_learning (h : t.controller.desired = none) : t.GoesThrough := by
  have hsize : t.desired = t.planner.netSize := by rw [desired, h, Option.getD_none]
  exact t.goesThrough_of_foresees (Planner.foresees_of_le (Nat.le_of_eq hsize.symm) t.now)
    (t.requested_of_learning h)

/-- A start breaks down only if the size was known. -/
theorem opening_of_breaks (h : t.breaks = true) :
    t.opening.controller = t.controller.prune t.view ∧ t.opening.events = [] := by
  cases hknown : t.controller.desired with
  | none =>
    rw [(t.goesThrough_of_learning hknown).starts] at h
    cases h
  | some size =>
    have hsize : t.desired = size := by rw [desired, hknown, Option.getD_some]
    refine ⟨?_, if_neg (by rw [hknown]; exact Bool.false_ne_true)⟩
    show { t.controller.prune t.view with desired := some t.desired } = _
    rw [hsize, ← hknown]
    rfl

/-- **A cycle gives a report if nothing breaks down.** Otherwise it only drops terminations of
machines that no longer count, and perhaps asks for machines. -/
theorem outcome_eq (h : t.Valid) :
    t.outcome =
      if t.GoesThrough then
        (.ok t.closing.report, t.closing.controller, t.closing.events, t.closing.outside)
      else (.error .brokeDown, t.controller.prune t.view, [], t.midway) := by
  rw [outcome, Controller.reconcile]
  by_cases hforesees : t.Foresees
  · have hcarry : Cycle.carryOut t.provider t.applied.driver t.now t.plan t.opening =
        if t.breaks then t.opening.start t.provider t.driver t.now t.requested else t.closing :=
      Cycle.carryOut_eq t.provider t.driver t.now t.opening t.plan rfl
    cases hbreaks : t.breaks with
    | false =>
      have hgoes : t.GoesThrough := ⟨hforesees, hbreaks⟩
      have hbroken : t.closing.broken = false := Cycle.through_broken _ _ _ _ _ rfl hbreaks
      rw [hbreaks, if_neg Bool.false_ne_true] at hcarry
      simp only [t.prepare_eq h, if_pos hforesees, if_pos hgoes]
      show (Cycle.carryOut t.provider t.applied.driver t.now t.plan t.opening).result = _
      rw [hcarry, Cycle.result, hbroken]
      rfl
    | true =>
      have hnot : ¬ t.GoesThrough := fun hgoes => by cases hbreaks.symm.trans hgoes.starts
      have hrequested : t.requested ≠ 0 := fun hnone =>
        hnot (t.goesThrough_of_foresees hforesees hnone)
      obtain ⟨hcontroller, hevents⟩ := t.opening_of_breaks hbreaks
      rw [hbreaks, if_pos rfl, Cycle.start_of_breaks _ _ _ _ hbreaks] at hcarry
      simp only [t.prepare_eq h, if_pos hforesees, if_neg hnot]
      show (Cycle.carryOut t.provider t.applied.driver t.now t.plan t.opening).result = _
      rw [hcarry, Cycle.result, midway, if_neg hrequested, hcontroller, hevents]
      rfl
  · have hnot : ¬ t.GoesThrough := fun hgoes => hforesees hgoes.foresees
    simp only [t.prepare_eq h, if_neg hforesees, if_neg hnot]
    rw [midway, if_pos (t.requested_of_blind hforesees)]

theorem outcome_of_goesThrough (h : t.Valid) (hgoes : t.GoesThrough) :
    t.outcome =
      (.ok t.closing.report, t.closing.controller, t.closing.events, t.closing.outside) := by
  rw [t.outcome_eq h, if_pos hgoes]

theorem outcome_of_not_goesThrough (h : t.Valid) (hnot : ¬ t.GoesThrough) :
    t.outcome = (.error .brokeDown, t.controller.prune t.view, [], t.midway) := by
  rw [t.outcome_eq h, if_neg hnot]

/-- With a configuration that no controller can work with, a cycle ends before its first action. -/
theorem outcome_of_not_valid (h : ¬ t.Valid) :
    t.outcome = (.error (.plan (.invalidMargin t.applied.config.scaleIn.margin)),
      t.controller.prune t.view, [], t.outside) := by
  have hprepare : (t.controller.prune t.view).prepare t.applied.config t.view t.now =
      .error (.refused (.invalidMargin t.applied.config.scaleIn.margin)) := by
    rw [Controller.prepare, Planner.make, if_pos (Nat.not_lt.1 h)]
    rfl
  rw [outcome, Controller.reconcile]
  simp only [hprepare]

theorem closing_report :
    t.closing.report =
      { desiredSize := t.desired
        netSize := t.planner.netSize
        started := t.launched.map Machine.id
        spared := (t.pruned.spared t.toSpare).map Scheduled.id
        scheduled := t.scheduled.map Scheduled.id
        terminated := t.confirmed
        failures := t.refusals.map StartError.message ++ t.failed.map failureText } := by
  rw [closing_eq, Cycle.finish_report, Cycle.terminate_eq, ready_confirmed, ready_failed, ready_eq]
  rfl

theorem closing_controller :
    t.closing.controller =
      { t.controller with
        desired := some t.desired
        queue := (t.waiting.eraseAll t.missing).eraseAll t.confirmed
        overlay :=
          (t.controller.overlay.recordStarted t.launched t.now).recordTerminated t.confirmed t.now
        lastReconciled := some t.now
        lastError :=
          if t.closing.report.hasFailures then some t.closing.report.summary else none } := by
  have hlast : (t.ready.terminate t.provider t.driver t.now).controller =
      { t.controller with
        desired := some t.desired
        queue := (t.waiting.eraseAll t.missing).eraseAll t.confirmed
        overlay :=
          (t.controller.overlay.recordStarted t.launched t.now).recordTerminated t.confirmed
            t.now } := by
    rw [Cycle.terminate_eq, ready_confirmed, ready_missing, ready_eq]
  rw [closing_eq]
  simp only [Cycle.finish, hlast]

theorem closing_outside :
    t.closing.outside =
      if t.due.isEmpty then t.midway
      else (t.provider.terminate t.driver t.due t.now t.midway).2 := by
  rw [closing_eq, Cycle.finish_outside, Cycle.terminate_eq, ready_due, ready_eq]

theorem closing_events :
    t.closing.events =
      t.opening.events ++ (Event.ofMachines .machinesStarted (t.launched.map Machine.id) ++
        t.refusals.map (Event.ofRefusal t.now)) ++ t.scheduled.map Event.ofScheduled ++
          (t.failed.map (Event.ofFailure t.now) ++
            Event.ofMachines .machinesTerminated t.confirmed) := by
  rw [closing_eq, Cycle.finish_events, Cycle.terminate_eq, ready_confirmed, ready_failed, ready_eq]

theorem launched_of_not_goesThrough {t : Turn σ} (hnot : ¬ t.GoesThrough) : t.launched = [] := by
  rw [launched, Cycle.launched]
  split
  · rfl
  · rename_i hsome
    have hbreaks : t.breaks = true := by
      by_contra hno
      exact hnot ⟨t.foresees_of_requested hsome, Bool.eq_false_iff.2 hno⟩
    rw [breaks, Cycle.breaks, if_neg hsome] at hbreaks
    match (t.provider.start t.driver t.requested t.now t.opening.outside).1, hbreaks with
    | .error .crashed, _ => rfl

/-! ## The calls -/

/-- The calls that the cycle makes: none but a start if something breaks down. -/
def calls : List Call :=
  (if t.requested = 0 then []
    else [.start t.driver t.requested (t.provider.start t.driver t.requested t.now t.outside).1]) ++
  if ¬ t.GoesThrough ∨ t.due.isEmpty then []
  else [.terminate t.driver t.due (t.provider.terminate t.driver t.due t.now t.midway).1]

theorem start_mem_calls (h : t.requested ≠ 0) :
    .start t.driver t.requested
      (t.provider.start t.driver t.requested t.now t.outside).1 ∈ t.calls := by
  rw [calls, if_neg h]
  exact List.mem_append_left _ (List.mem_singleton_self _)

theorem terminate_mem_calls (hgoes : t.GoesThrough) (h : ¬ t.due.isEmpty = true) :
    .terminate t.driver t.due
      (t.provider.terminate t.driver t.due t.now t.midway).1 ∈ t.calls := by
  rw [calls, if_neg (not_or.2 ⟨not_not_intro hgoes, h⟩)]
  exact List.mem_append_right _ (List.mem_singleton_self _)

/-- A cycle asks for as many machines as are missing in its view. -/
theorem sum_requested_calls : (t.calls.map Call.requested).sum = t.requested := by
  rw [calls, List.map_append, List.sum_append]
  split
  · rename_i hnone
    rw [hnone]
    split
    · rfl
    · rfl
  · split
    · exact Nat.add_zero _
    · exact Nat.add_zero _

theorem flatMap_calls {α : Type} (f : Call → List α) :
    t.calls.flatMap f =
      (if t.requested = 0 then []
        else f (.start t.driver t.requested
          (t.provider.start t.driver t.requested t.now t.outside).1)) ++
      if ¬ t.GoesThrough ∨ t.due.isEmpty then []
      else f (.terminate t.driver t.due
        (t.provider.terminate t.driver t.due t.now t.midway).1) := by
  rw [calls, List.flatMap_append]
  congr 1
  · split
    · rfl
    · exact List.append_nil _
  · split
    · rfl
    · exact List.append_nil _

theorem flatMap_calls_of_goesThrough {α : Type} (hgoes : t.GoesThrough) (f : Call → List α) :
    t.calls.flatMap f =
      (if t.requested = 0 then []
        else f (.start t.driver t.requested
          (t.provider.start t.driver t.requested t.now t.outside).1)) ++
      if t.due.isEmpty then []
      else f (.terminate t.driver t.due
        (t.provider.terminate t.driver t.due t.now t.midway).1) := by
  rw [flatMap_calls]
  simp only [hgoes, not_true_eq_false, false_or]

theorem launched_calls : t.calls.flatMap Call.launched = t.launched := by
  rw [flatMap_calls]
  show _ ++ (if ¬ t.GoesThrough ∨ t.due.isEmpty then [] else []) = _
  rw [ite_self, List.append_nil]
  rfl

/-- A cycle asks to terminate the machines that are due, unless it breaks down before. -/
theorem condemned_calls :
    t.calls.flatMap Call.condemned = if t.GoesThrough then t.due else [] := by
  rw [flatMap_calls]
  show (if t.requested = 0 then [] else []) ++
    (if ¬ t.GoesThrough ∨ t.due.isEmpty then [] else t.due) = _
  rw [ite_self, List.nil_append]
  by_cases hgoes : t.GoesThrough
  · rw [if_pos hgoes]
    split
    · rename_i hempty
      exact (List.isEmpty_iff.1 (hempty.resolve_left (not_not_intro hgoes))).symm
    · rfl
  · rw [if_pos (.inl hgoes), if_neg hgoes]

theorem mem_due_of_condemned {id : String} (h : id ∈ t.calls.flatMap Call.condemned) :
    t.GoesThrough ∧ id ∈ t.due := by
  rw [condemned_calls] at h
  split at h
  · rename_i hgoes
    exact ⟨hgoes, h⟩
  · cases h

/-- The cycle with its calls written down. -/
def traced (calls : List Call) : Turn (Traced σ) :=
  { provider := t.provider.traced, applied := t.applied, view := t.view, now := t.now
    controller := t.controller, outside := ⟨calls, t.outside⟩ }

end Turn

namespace Cycle

variable {σ : Type} (p : Provider σ) (d : DriverId) (now : Instant) (c : Cycle σ)

/-- A cycle under way whose calls are written down. -/
def traced (calls : List Call) : Cycle (Traced σ) :=
  ⟨c.controller, ⟨calls, c.outside⟩, c.report, c.events, c.broken⟩

theorem start_traced (count : Nat) (calls : List Call) :
    (c.traced calls).start p.traced d now count =
      (c.start p d now count).traced (calls ++
        if count = 0 then [] else [.start d count (p.start d count now c.outside).1]) := by
  have houtside : (if count = 0 then (c.traced calls).outside
      else (p.traced.start d count now (c.traced calls).outside).2) =
        ⟨calls ++ if count = 0 then [] else [.start d count (p.start d count now c.outside).1],
          if count = 0 then c.outside else (p.start d count now c.outside).2⟩ := by
    split
    · rw [List.append_nil]
      rfl
    · rfl
  rw [start_eq, start_eq, houtside]
  rfl

theorem schedule_traced (terminations : List Scheduled) (calls : List Call) :
    (c.traced calls).schedule terminations = (c.schedule terminations).traced calls := by
  rw [schedule_eq, schedule_eq]
  rfl

theorem terminate_traced (calls : List Call) :
    (c.traced calls).terminate p.traced d now =
      (c.terminate p d now).traced (calls ++
        if (c.due now).isEmpty then []
        else [.terminate d (c.due now) (p.terminate d (c.due now) now c.outside).1]) := by
  have houtside : (if (c.due now).isEmpty then (c.traced calls).outside
      else (p.traced.terminate d (c.due now) now (c.traced calls).outside).2) =
        ⟨calls ++ if (c.due now).isEmpty then []
            else [.terminate d (c.due now) (p.terminate d (c.due now) now c.outside).1],
          if (c.due now).isEmpty then c.outside
            else (p.terminate d (c.due now) now c.outside).2⟩ := by
    split
    · rw [List.append_nil]
      rfl
    · rfl
  have hdue : (c.traced calls).due now = c.due now := rfl
  rw [terminate_eq, terminate_eq, hdue, houtside]
  rfl

end Cycle

namespace Turn

variable {σ : Type} (t : Turn σ)

theorem opening_traced (calls : List Call) : (t.traced calls).opening = t.opening.traced calls := rfl

theorem ready_traced (calls : List Call) :
    (t.traced calls).ready =
      t.ready.traced (calls ++
        if t.requested = 0 then []
        else [.start t.driver t.requested
          (t.provider.start t.driver t.requested t.now t.outside).1]) := by
  rw [ready, opening_traced]
  show Cycle.schedule t.scheduled (Cycle.spare t.toSpare (Cycle.start t.provider.traced t.driver
    t.now t.requested (t.opening.traced calls))) = _
  rw [Cycle.start_traced]
  exact Cycle.schedule_traced
    (Cycle.spare t.toSpare (t.opening.start t.provider t.driver t.now t.requested)) t.scheduled _

theorem goesThrough_traced (calls : List Call) : (t.traced calls).GoesThrough ↔ t.GoesThrough :=
  ⟨fun h => ⟨h.foresees, h.starts⟩, fun h => ⟨h.foresees, h.starts⟩⟩

theorem closing_traced (hgoes : t.GoesThrough) (calls : List Call) :
    (t.traced calls).closing = t.closing.traced (calls ++ t.calls) := by
  have hcalls : t.calls = (if t.requested = 0 then []
      else [.start t.driver t.requested
        (t.provider.start t.driver t.requested t.now t.outside).1]) ++
      if t.due.isEmpty then []
      else [.terminate t.driver t.due
        (t.provider.terminate t.driver t.due t.now t.midway).1] := by
    simp only [Turn.calls, hgoes, not_true_eq_false, false_or]
  rw [closing_eq, closing_eq, ready_traced, hcalls]
  show Cycle.finish t.now (Cycle.terminate t.provider.traced t.driver t.now _) = _
  rw [Cycle.terminate_traced, ready_due, List.append_assoc, ready_eq]
  rfl

theorem midway_traced (hnot : ¬ t.GoesThrough) (calls : List Call) :
    (t.traced calls).midway = ⟨calls ++ t.calls, t.midway⟩ := by
  have hcalls : t.calls = if t.requested = 0 then []
      else [.start t.driver t.requested
        (t.provider.start t.driver t.requested t.now t.outside).1] := by
    have hlast : ¬ t.GoesThrough ∨ t.due.isEmpty = true := .inl hnot
    rw [Turn.calls, if_pos hlast, List.append_nil]
  have hrequested : (t.traced calls).requested = t.requested := rfl
  rw [hcalls, midway, midway, hrequested]
  split
  · rw [List.append_nil]
    rfl
  · rfl

/-- **The calls that a cycle makes.** Writing them down changes nothing else. -/
theorem outcome_traced (h : t.Valid) (calls : List Call) :
    (t.traced calls).outcome =
      (t.outcome.1, t.outcome.2.1, t.outcome.2.2.1, ⟨calls ++ t.calls, t.outcome.2.2.2⟩) := by
  have hvalid : (t.traced calls).Valid := h
  by_cases hgoes : t.GoesThrough
  · rw [outcome_of_goesThrough _ hvalid ((t.goesThrough_traced calls).2 hgoes),
      outcome_of_goesThrough _ h hgoes, t.closing_traced hgoes]
    rfl
  · rw [outcome_of_not_goesThrough _ hvalid (mt (t.goesThrough_traced calls).1 hgoes),
      outcome_of_not_goesThrough _ h hgoes, t.midway_traced hgoes]
    rfl

end Turn

end PoolKeeper
