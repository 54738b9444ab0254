import PoolKeeper.Proofs.Replan
import PoolKeeper.Proofs.Reconcile

/-!
# Cycles that learn the size

A controller that was not told a size takes the one that it finds. Until then nobody waits for a
termination, so that the cycle that learns the size has nothing to do.

* `Controller.Unhurried`: nobody waits while no size is known; `Controller.Unhurried.adopt`,
  `Controller.Unhurried.reconcile`: configurations and cycles keep it;
* `Turn.closing_of_learning`, `Turn.calls_of_learning`: a cycle that learns the size does no more
  than that;
* **`Station.size_learned`**: so it is for every reachable station.
-/

namespace PoolKeeper

/-! ## Nobody waits -/

namespace Controller

/-- Nobody waits for a termination while no size is known. -/
def Unhurried (c : Controller) : Prop := c.desired = none → c.queue = .empty

variable {c : Controller}

theorem Unhurried.of_known {size : Nat} (h : c.desired = some size) : c.Unhurried := by
  intro hnone
  rw [h] at hnone
  cases hnone

theorem Unhurried.prune (h : c.Unhurried) (pool : Pool) : (c.prune pool).Unhurried := by
  intro hnone
  show c.queue.retain _ = _
  rw [h hnone]
  rfl

theorem Unhurried.forgetOther (h : c.Unhurried) (name : String) :
    (c.forgetOther name).Unhurried := by
  unfold Controller.forgetOther
  split
  · split
    · exact h
    · exact fun _ => rfl
  · exact h

/-- Another configuration makes nobody wait. Whoever waited for another pool waits no longer. -/
theorem Unhurried.adopt (h : c.Unhurried) (a : Applied) : (c.adopt a).1.Unhurried := by
  rw [Controller.adopt]
  cases a.config.desiredSize with
  | none => exact h.forgetOther a.config.name
  | some size =>
    simp only [Controller.setDesired_fst]
    exact .of_known rfl

/-- After a cycle the size is known, unless there was no plan. -/
theorem Unhurried.reconcile {σ : Type} (h : c.Unhurried) (p : Provider σ) (a : Applied)
    (view : Pool) (now : Instant) (outside : σ) :
    (c.reconcile p a view now outside).2.1.Unhurried := by
  let t : Turn σ := ⟨p, a, view, now, c, outside⟩
  show t.outcome.2.1.Unhurried
  by_cases hvalid : t.Valid
  · rw [t.outcome_eq hvalid, t.closing_controller]
    split
    · exact .of_known rfl
    · exact h.prune view
  · rw [t.outcome_of_not_valid hvalid]
    exact h.prune view

end Controller

namespace Station

variable {σ : Type} {p : Provider σ} {s s' : Station σ}

theorem unhurried_move (hm : Moves p s s') (h : s.controller.Unhurried) :
    s'.controller.Unhurried := by
  cases hm with
  | quiet he => exact he ▸ h
  | refreshed _ _ _ _ _ he => exact he ▸ h
  | configured a _ he =>
    rw [he]
    exact h.adopt a
  | launched _ _ _ _ he =>
    rw [he]
    exact h
  | halted _ he =>
    rw [he]
    exact h
  | resized size he =>
    rw [he]
    exact .of_known rfl
  | viewed _ he =>
    rw [he]
    exact h
  | failed _ he =>
    rw [he]
    exact h
  | cycled a view now outside _ he =>
    rw [he]
    exact h.reconcile p a view now outside
  | left id _ he =>
    rw [he]
    intro hnone
    show s.controller.queue.erase id = _
    rw [h hnone]
    rfl

/-- **Nobody waits while no size is known.** -/
theorem Reachable.unhurried (h : s.Reachable p) : s.controller.Unhurried :=
  h.invariant (fun _ _ _ => rfl) (fun hm hs => unhurried_move hm hs) (fun _ _ hs => hs)
    fun _ hs => hs

end Station

/-! ## The cycle -/

namespace Turn

variable {σ : Type} {t : Turn σ}

theorem pruned_of_empty (hq : t.controller.queue = .empty) : t.pruned = .empty := by
  show t.controller.queue.retain _ = _
  rw [hq]
  rfl

theorem netSize_of_empty (hq : t.controller.queue = .empty) :
    t.planner.netSize = t.view.effectiveCount := by
  have hempty : t.planner.queue.entries = [] :=
    congrArg TerminationQueue.entries (pruned_of_empty hq)
  have hsum := t.planner.netSize_add_scheduledCount
  rwa [Planner.scheduledCount_of_empty hempty] at hsum

theorem desired_of_learning (hnone : t.controller.desired = none)
    (hq : t.controller.queue = .empty) : t.desired = t.view.effectiveCount := by
  rw [desired, hnone, Option.getD_none, netSize_of_empty hq]

/-- There is nothing to do for the size that is learned. -/
theorem plan_of_learning (hnone : t.controller.desired = none)
    (hq : t.controller.queue = .empty) : t.plan = .nothing := by
  have hdesired := desired_of_learning hnone hq
  have hnet := netSize_of_empty hq
  have hrequested : t.requested = 0 := by rw [requested, hdesired, Nat.sub_self]
  have hspare : t.toSpare = 0 := by rw [toSpare, hdesired, hnet, Nat.sub_self, Nat.min_zero]
  have hscheduled : t.scheduled = [] := by
    rw [scheduled, hdesired, hnet, Nat.sub_self, Planner.victims_zero]
  rw [plan, hrequested, hspare, hscheduled]
  rfl

theorem due_of_learning (hnone : t.controller.desired = none)
    (hq : t.controller.queue = .empty) : t.due = [] := by
  have hplan := plan_of_learning hnone hq
  have hspare : t.toSpare = 0 := congrArg ResizePlan.toSpare hplan
  have hscheduled : t.scheduled = [] := congrArg ResizePlan.toTerminate hplan
  rw [due, waiting, pruned_of_empty hq, hspare, hscheduled]
  rfl

theorem ready_of_learning (hnone : t.controller.desired = none)
    (hq : t.controller.queue = .empty) : t.ready = t.opening := by
  have hplan := plan_of_learning hnone hq
  have hrequested : t.requested = 0 := congrArg ResizePlan.toRequest hplan
  have hspare : t.toSpare = 0 := congrArg ResizePlan.toSpare hplan
  have hscheduled : t.scheduled = [] := congrArg ResizePlan.toTerminate hplan
  rw [ready, hrequested, hspare, hscheduled, Cycle.start, if_pos rfl]
  show Cycle.spare 0 t.opening = _
  rw [Cycle.spare, TerminationQueue.spare_zero, TerminationQueue.spared_zero, List.map_nil,
    List.append_nil]

theorem opening_of_learning (hnone : t.controller.desired = none)
    (hq : t.controller.queue = .empty) :
    t.opening =
      { controller :=
          { t.controller with desired := some t.view.effectiveCount, queue := .empty }
        outside := t.outside
        report := { desiredSize := t.view.effectiveCount, netSize := t.view.effectiveCount }
        events := [.desiredSizeChanged none t.view.effectiveCount] } := by
  have hdesired := desired_of_learning hnone hq
  have hpruned : t.controller.prune t.view = { t.controller with queue := .empty } := by
    rw [← pruned_of_empty hq]
    rfl
  rw [opening, hpruned, hdesired, netSize_of_empty hq, hnone, Option.isNone_none, if_pos rfl]

/-- **A cycle that learns the size does no more than that.** -/
theorem closing_of_learning (hnone : t.controller.desired = none)
    (hq : t.controller.queue = .empty) :
    t.closing =
      { controller :=
          { t.controller with
            desired := some t.view.effectiveCount
            queue := .empty
            lastReconciled := some t.now
            lastError := none }
        outside := t.outside
        report := { desiredSize := t.view.effectiveCount, netSize := t.view.effectiveCount }
        events := [.desiredSizeChanged none t.view.effectiveCount] } := by
  have hready := ready_of_learning hnone hq
  have hdue : t.opening.due t.now = [] := by
    rw [← hready, ready_due, due_of_learning hnone hq]
  rw [closing_eq, hready, Cycle.terminate]
  simp only [hdue]
  rw [opening_of_learning hnone hq]
  rfl

theorem calls_of_learning (hnone : t.controller.desired = none)
    (hq : t.controller.queue = .empty) : t.calls = [] := by
  have hrequested : t.requested = 0 := congrArg ResizePlan.toRequest (plan_of_learning hnone hq)
  rw [calls, if_pos hrequested, due_of_learning hnone hq, if_pos (.inr List.isEmpty_nil),
    List.append_nil]

end Turn

/-! ## Stations -/

namespace Station

variable {σ : Type} {p : Provider σ} {s : Station σ}

/-- **Learning the size does nothing to the pool.** While no size is known nobody waits. The cycle
that sees a pool takes the number of machines that count for the size and tells of it. It asks the
provider for nothing, and still nobody waits. -/
theorem size_learned (h : s.Reachable p) (hnone : s.controller.desired = none) :
    s.controller.queue = .empty ∧
      ∀ view, s.view.1 = .ok view →
        s.respond p .reconcile =
          (.ok (.report { desiredSize := view.effectiveCount, netSize := view.effectiveCount }),
            { s.view.2 with
              controller :=
                { s.view.2.controller with
                  desired := some view.effectiveCount
                  queue := .empty
                  lastReconciled := some s.world.now
                  lastError := none }
              world := s.world.tell [.desiredSizeChanged none view.effectiveCount] }) ∧
        s.cycleCalls p = [] := by
  have hq := h.unhurried hnone
  refine ⟨hq, fun view hview => ?_⟩
  obtain ⟨snapshot, hs, rfl⟩ := serves_of_view hview
  obtain ⟨a, ha⟩ := h.sound.serving hs
  let t := s.turn p a snapshot
  have hclosing := Turn.closing_of_learning (t := t) hnone hq
  refine ⟨?_, by rw [cycleCalls_eq ha hs, Turn.calls_of_learning hnone hq]⟩
  rw [respond, reconcile_eq ha hs (t.goesThrough_of_learning hnone), hs.view_eq]
  simp only
  rw [hclosing]
  rfl

/-- The size of "web" was never learned, and a machine that left it was to leave one place less.
Then the pool was named "db", and another machine has left it in the same way. -/
def renamedUnknown : Station Fleet :=
  let config (name : String) : PoolConfig :=
    { name, driver := ⟨Cloud.kind, .array [.null, .nat 0, .nat 4]⟩ }
  let detached := ((Fleet.atWork (config "web")).respond Fleet.provider
    (.detach "web-0001" true)).2
  let renamed := (detached.respond Fleet.provider (.configure (config "db"))).2
  (renamed.respond Fleet.provider (.terminate "web-0003" true)).2

/-- What the next cycle sees of that pool. -/
def renamedUnknownView : Pool where
  machines :=
    [{ id := "web-0002", state := .running, launched := some ⟨0, 0⟩ },
      { id := "web-0003", state := .terminated, launched := some ⟨0, 0⟩ },
      { id := "web-0004", state := .running, launched := some ⟨0, 0⟩ }]
  takenAt := ⟨0, 0⟩

theorem size_learned_renamedUnknown :
    renamedUnknown.Reachable Fleet.provider ∧ renamedUnknown.controller.desired = none ∧
      renamedUnknown.view.1 = .ok renamedUnknownView ∧
      (renamedUnknown.respond Fleet.provider .reconcile).1 =
        .ok (.report { desiredSize := 2, netSize := 2 }) ∧
      renamedUnknown.cycleCalls Fleet.provider = [] := by
  have hreach : renamedUnknown.Reachable Fleet.provider :=
    (((Fleet.atWork_reachable _).respond _).respond _).respond _
  have hnone : renamedUnknown.controller.desired = none := by decide +kernel
  have hview : renamedUnknown.view.1 = .ok renamedUnknownView := by with_unfolding_all rfl
  obtain ⟨hcycle, hcalls⟩ := (size_learned hreach hnone).2 renamedUnknownView hview
  exact ⟨hreach, hnone, hview, congrArg Prod.fst hcycle, hcalls⟩

end Station

end PoolKeeper
