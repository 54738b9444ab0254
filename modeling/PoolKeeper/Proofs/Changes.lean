import PoolKeeper.Proofs.Cycle
import PoolKeeper.World

/-!
# Changes of a controller

* `Event.stateChanges`, `World.stateChanges`: the changes of state that events tell of;
* **`Controller.become_of_canBecome`**: a controller that goes to another state tells of it;
* `Controller.setDesired_fst`, `Controller.state_adopt`: what other changes make of a controller;
* **`Controller.stateChanges_reconcile`** and others: they tell of no change of state.
-/

namespace PoolKeeper

/-- The states before and after, if the event tells of a change of state. -/
def Event.stateChange? : Event → Option (String × String)
  | controllerStateChanged before after => some (before, after)
  | _ => none

/-- The changes of state that events tell of. -/
def Event.stateChanges (events : List Event) : List (String × String) :=
  events.filterMap stateChange?

@[simp] theorem Event.stateChanges_append (first rest : List Event) :
    stateChanges (first ++ rest) = stateChanges first ++ stateChanges rest :=
  List.filterMap_append

/-- The changes of state that were told. -/
def World.stateChanges {σ : Type} (w : World σ) : List (String × String) :=
  Event.stateChanges w.events

theorem World.stateChanges_tell {σ : Type} (w : World σ) (events : List Event) :
    (w.tell events).stateChanges = w.stateChanges ++ Event.stateChanges events :=
  Event.stateChanges_append _ _

theorem World.stateChanges_tell_none {σ : Type} (w : World σ) {events : List Event}
    (h : Event.stateChanges events = []) : (w.tell events).stateChanges = w.stateChanges := by
  rw [stateChanges_tell, h, List.append_nil]

/-- What is told of a controller that goes from one state to another. -/
def Lifecycle.change (before after : Lifecycle) : List (String × String) :=
  if before = after then [] else [(before.text, after.text)]

theorem Lifecycle.change_self (state : Lifecycle) : state.change state = [] := if_pos rfl

namespace Controller

variable (c : Controller)

/-- **A controller that goes to another state tells of it.** -/
theorem become_of_canBecome {state : Lifecycle} (h : c.state.canBecome state = true) :
    ∃ events, c.become state = .ok ({ c with state }, events) ∧
      Event.stateChanges events = c.state.change state := by
  obtain ⟨before, _, _, _, _, _, _⟩ := c
  rw [become, if_neg (by simpa using h)]
  split
  · rename_i hsame
    cases hsame
    exact ⟨[], rfl, (Lifecycle.change_self _).symm⟩
  · rename_i hother
    exact ⟨_, rfl, (if_neg hother).symm⟩

theorem setDesired_fst (size : Nat) : (c.setDesired size).1 = { c with desired := some size } := by
  obtain ⟨_, _, known, _, _, _, _⟩ := c
  unfold setDesired
  split
  · rename_i h
    exact congrArg (fun known => Controller.mk _ _ known _ _ _ _) h
  · rfl

theorem stateChanges_setDesired (size : Nat) :
    Event.stateChanges (c.setDesired size).2 = [] := by
  unfold setDesired
  split
  · rfl
  · rfl

theorem state_forgetOther (name : String) : (c.forgetOther name).state = c.state := by
  unfold forgetOther
  split
  · split
    · rfl
    · rfl
  · rfl

theorem state_adopt (a : Applied) : (c.adopt a).1.state = c.state := by
  rw [adopt]
  cases a.config.desiredSize with
  | none => exact c.state_forgetOther _
  | some size =>
    simp only [setDesired_fst]
    exact c.state_forgetOther _

theorem stateChanges_adopt (a : Applied) : Event.stateChanges (c.adopt a).2 = [] := by
  rw [adopt]
  cases a.config.desiredSize with
  | none => rfl
  | some size => exact (c.forgetOther a.config.name).stateChanges_setDesired size

end Controller

/-! ## Cycles -/

theorem Cycle.stateChanges_carryOut {σ : Type} (p : Provider σ) (d : DriverId) (now : Instant)
    (c : Cycle σ) (plan : ResizePlan) (h : c.broken = false) :
    Event.stateChanges (carryOut p d now plan c).events = Event.stateChanges c.events := by
  rw [carryOut_eq p d now c plan h]
  split
  · rename_i hbreaks
    rw [start_of_breaks p d now c hbreaks]
  · simp only [Event.stateChanges]
    rw [filterMap_through p d now c plan (fun _ _ _ _ => rfl) fun _ _ => rfl,
      Event.filterMap_ofMachines_of_none rfl, Event.filterMap_ofMachines_of_none rfl,
      List.append_nil, List.append_nil]

namespace Controller

variable {σ : Type} (p : Provider σ) (a : Applied) (view : Pool) (now : Instant) (c : Controller)

theorem stateChanges_prepare {config : PoolConfig} {plan : ResizePlan} {report : Report}
    {c' : Controller} {events : List Event}
    (h : c.prepare config view now = .ok (plan, report, c', events)) :
    Event.stateChanges events = [] := by
  unfold prepare at h
  cases hmake : Planner.make view c.queue config.scaleIn.policy config.scaleIn.margin with
  | error e =>
    simp only [hmake, Except.mapError, bind, Except.bind] at h
    cases h
  | ok planner =>
    cases hplan : planner.plan (c.desired.getD planner.netSize) now with
    | error e =>
      simp only [hmake, hplan, Except.mapError, bind, Except.bind] at h
      cases h
    | ok plan' =>
      simp only [hmake, hplan, Except.mapError, bind, Except.bind, pure, Except.pure] at h
      cases h
      split
      · exact c.stateChanges_setDesired _
      · rfl

/-- **A cycle tells of no change of state.** -/
theorem stateChanges_reconcile (outside : σ) :
    Event.stateChanges (c.reconcile p a view now outside).2.2.1 = [] := by
  unfold reconcile
  simp only
  split
  · rfl
  · rfl
  · rename_i hprepare
    exact (Cycle.stateChanges_carryOut p _ now _ _ rfl).trans
      (stateChanges_prepare view now _ hprepare)

end Controller

end PoolKeeper
