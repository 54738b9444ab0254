import PoolKeeper.Proofs.Reconcile

/-!
# What requests leave behind

* `Controller.removed`, `Controller.raised`: the controller once a machine has left the pool, and
  once one has joined it;
* **`Station.controller_removal`**, **`Station.controller_attach`**: that is all that a request for
  it changes;
* `Station.controller_become`, `Station.controller_launch`, `Station.controller_proceed`: a change of
  state changes nothing else; `Station.proceed`: what follows when a configuration is in force;
* `Station.queue_configure`, `Station.queue_respond`: what becomes of the terminations that wait.
-/

namespace PoolKeeper

namespace Controller

variable (c : Controller)

/-! ## Sizes -/

theorem lowerDesired_fst : c.lowerDesired.1 = { c with desired := c.desired.map (· - 1) } := by
  obtain ⟨_, _, known, _, _, _, _⟩ := c
  cases known with
  | none => rfl
  | some size => exact setDesired_fst _ _

/-- What a machine changes that joins the pool: nothing if there is no room for it in the size. -/
def raise : Controller × List Event := c.raiseDesired.getD (c, [])

variable {c} in
theorem raise_of_none (h : c.desired = none) : c.raise = (c, []) := by
  simp only [raise, raiseDesired, h, Option.getD_some]

variable {c} in
theorem raise_of_some {size : Nat} (h : c.desired = some size) :
    c.raise = if sizeLimit ≤ size + 1 then (c, []) else c.setDesired (size + 1) := by
  simp only [raise, raiseDesired, h]
  split
  · rfl
  · rfl

/-- The controller once a machine has joined the pool. The size stays when it cannot grow. -/
def raised : Controller :=
  { c with desired := c.desired.map fun size => if sizeLimit ≤ size + 1 then size else size + 1 }

theorem raise_fst : c.raise.1 = c.raised := by
  obtain ⟨_, _, known, _, _, _, _⟩ := c
  cases known with
  | none => rfl
  | some size =>
    rw [raise_of_some rfl, raised]
    by_cases hfull : sizeLimit ≤ size + 1
    · simp only [if_pos hfull, Option.map_some]
    · simp only [if_neg hfull, Option.map_some]
      exact setDesired_fst _ _

/-- There is no room for a machine that joins if its pool has the last size that can be told. -/
theorem isNone_raiseDesired :
    c.raiseDesired.isNone = c.desired.any fun size => decide (sizeLimit ≤ size + 1) := by
  unfold raiseDesired
  cases c.desired with
  | none => rfl
  | some size =>
    by_cases hfull : sizeLimit ≤ size + 1
    · simp only [if_pos hfull, Option.any_some, decide_eq_true hfull, Option.isNone_none]
    · simp only [if_neg hfull, Option.any_some, decide_eq_false hfull, Option.isNone_some]

/-- The controller once a machine has left the pool. -/
def removed (id : String) (decrement : Bool) (now : Instant) : Controller :=
  { c with
    desired := if decrement ∧ ¬ c.queue.contains id then c.desired.map (· - 1) else c.desired
    queue := c.queue.erase id
    overlay := c.overlay.recordTerminated [id] now }

end Controller

namespace Station

variable {σ : Type} (p : Provider σ) (s : Station σ)

/-! ## Work that leaves the controller alone -/

@[simp] theorem controller_refresh : (s.refresh p).controller = s.controller := by
  unfold refresh
  split
  · rfl
  · rfl

@[simp] theorem controller_refreshDue : (s.refreshDue p).controller = s.controller := by
  unfold refreshDue
  split
  · rfl
  · rfl

theorem outside_after (outside : σ) : (s.after outside).world.outside = outside := rfl

@[simp] theorem controller_saveConfiguration : s.saveConfiguration.controller = s.controller := by
  unfold saveConfiguration
  split
  · rfl
  · rfl

/-! ## Views -/

variable {p s}

/-- A look at the pool shows a snapshot that is served, or gives an error and changes nothing. -/
theorem view_cases (s : Station σ) :
    (∃ snapshot, s.Serves snapshot ∧ s.view = (.ok (s.controller.view snapshot).1,
      { s with controller := (s.controller.view snapshot).2 })) ∨ ∃ e, s.view = (.error e, s) := by
  by_cases h : ∃ snapshot, s.Serves snapshot
  · obtain ⟨snapshot, hs⟩ := h
    exact .inl ⟨snapshot, hs, hs.view_eq⟩
  · obtain ⟨e, he, _⟩ := view_of_not_serves fun snapshot hs => h ⟨snapshot, hs⟩
    exact .inr ⟨e, he⟩

/-- There is no view of the pool where another station has none at that time, with the same
background work. -/
theorem view_error_of_running {s u : Station σ} {e : ControllerError}
    (h : u.view = (.error e, u)) (hrunning : s.running = u.running)
    (hnow : s.world.now = u.world.now) : s.view = (.error e, s) := by
  unfold view at h ⊢
  rw [hrunning, hnow]
  split
  · rename_i hr
    simp only [hr] at h
    cases h
    rfl
  · rename_i r hr
    simp only [hr] at h
    split
    · rename_i hserve
      simp only [hserve] at h
      cases h
      rfl
    · rename_i hserve
      simp only [hserve] at h
      cases h

theorem memberDriver_cases (s : Station σ) (id : String) :
    (∃ d snapshot, s.Serves snapshot ∧ (s.controller.view snapshot).1.contains id = true ∧
      s.memberDriver id = (.ok d, { s with controller := (s.controller.view snapshot).2 })) ∨
    ∃ e, (s.memberDriver id).1 = .error e ∧
      (s.memberDriver id).2.controller.queue = s.controller.queue := by
  unfold memberDriver startedView
  cases s.controller.ensureStarted with
  | error e => exact .inr ⟨e, rfl, rfl⟩
  | ok u =>
    rcases view_cases s with ⟨snapshot, hs, heq⟩ | ⟨e, heq⟩
    · simp only [heq]
      split
      · rename_i hmember
        split
        · exact .inl ⟨_, snapshot, hs, hmember, rfl⟩
        · exact .inr ⟨_, rfl, rfl⟩
      · exact .inr ⟨_, rfl, rfl⟩
    · rw [heq]
      exact .inr ⟨e, rfl, rfl⟩

@[simp] theorem queue_startedView (s : Station σ) :
    s.startedView.2.controller.queue = s.controller.queue := by
  unfold startedView
  split
  · rfl
  · rcases view_cases s with ⟨snapshot, _, heq⟩ | ⟨e, heq⟩
    · rw [heq]
      rfl
    · rw [heq]

/-! ## Machines that leave -/

theorem controller_noteGone (s : Station σ) (id : String) (decrement : Bool)
    (events : List Event) :
    (s.noteGone id decrement events).controller =
      s.controller.removed id decrement s.world.now := by
  unfold noteGone Controller.removed
  simp only
  split
  · exact Controller.lowerDesired_fst _
  · rfl

/-- A request for a machine to leave: a call to the driver, and what is noted when it succeeds. -/
def removeBy {ε : Type} (p : Provider σ) (id : String) (decrement : Bool) (events : List Event)
    (call : DriverId → Instant → σ → Except ε Unit × σ) (why : ε → ControllerError)
    (s : Station σ) : Except ControllerError Unit × Station σ :=
  match s.memberDriver id with
  | (.error e, s) => (.error e, s)
  | (.ok d, s) =>
    match call d s.world.now s.world.outside with
    | (.error e, outside) => (.error (why e), s.after outside)
    | (.ok (), outside) => (.ok (), ((s.after outside).noteGone id decrement events).refresh p)

theorem terminate_eq_removeBy (p : Provider σ) (s : Station σ) (id : String) (decrement : Bool) :
    s.terminate p id decrement = s.removeBy p id decrement [.machinesTerminated [id]]
      (fun d => p.terminate d [id]) (terminationError id) := by
  unfold terminate removeBy
  generalize s.memberDriver id = member
  obtain ⟨answer, s⟩ := member
  cases answer with
  | error e => rfl
  | ok d =>
    simp only
    generalize p.terminate d [id] s.world.now s.world.outside = result
    obtain ⟨answer, outside⟩ := result
    cases answer with
    | error e => rfl
    | ok u => rfl

theorem detach_eq_removeBy (p : Provider σ) (s : Station σ) (id : String) (decrement : Bool) :
    s.detach p id decrement = s.removeBy p id decrement [] (fun d => p.detach d id)
      (.forMachine id) := by
  unfold detach removeBy
  generalize s.memberDriver id = member
  obtain ⟨answer, s⟩ := member
  cases answer with
  | error e => rfl
  | ok d =>
    simp only
    generalize p.detach d id s.world.now s.world.outside = result
    obtain ⟨answer, outside⟩ := result
    cases answer with
    | error e => rfl
    | ok u => rfl

/-- A machine of the pool leaves, or there is an error and nobody leaves the queue. -/
theorem removeBy_cases {ε : Type} (p : Provider σ) (id : String) (decrement : Bool)
    (events : List Event) (call : DriverId → Instant → σ → Except ε Unit × σ)
    (why : ε → ControllerError) (s : Station σ) :
    (∃ snapshot, s.Serves snapshot ∧ (s.controller.view snapshot).1.contains id = true ∧
      (s.removeBy p id decrement events call why).1 = .ok () ∧
      (s.removeBy p id decrement events call why).2.controller =
        (s.controller.view snapshot).2.removed id decrement s.world.now) ∨
    ∃ e, (s.removeBy p id decrement events call why).1 = .error e ∧
      (s.removeBy p id decrement events call why).2.controller.queue = s.controller.queue := by
  unfold removeBy
  rcases memberDriver_cases s id with ⟨d, snapshot, hs, hmember, heq⟩ | ⟨e, herror, hqueue⟩
  · simp only [heq]
    split
    · exact .inr ⟨_, rfl, rfl⟩
    · refine .inl ⟨snapshot, hs, hmember, rfl, ?_⟩
      rw [controller_refresh, controller_noteGone]
      rfl
  · generalize s.memberDriver id = member at herror hqueue
    obtain ⟨_, _⟩ := member
    cases herror
    exact .inr ⟨e, rfl, hqueue⟩

/-- **A request for a machine to leave.** A machine of the pool is taken off, or there is an error
and nobody leaves the queue. -/
theorem removal_cases (p : Provider σ) (s : Station σ) {request : Request} {id : String}
    {decrement : Bool} (h : request = .terminate id decrement ∨ request = .detach id decrement) :
    (∃ snapshot, s.Serves snapshot ∧ (s.controller.view snapshot).1.contains id = true ∧
      (s.respond p request).1 = .ok .done ∧
      (s.respond p request).2.controller =
        (s.controller.view snapshot).2.removed id decrement s.world.now) ∨
    ∃ e, (s.respond p request).1 = .error e ∧
      (s.respond p request).2.controller.queue = s.controller.queue := by
  have hplain : ∃ (ε : Type) (events : List Event)
      (call : DriverId → Instant → σ → Except ε Unit × σ) (why : ε → ControllerError),
      s.respond p request = plain (s.removeBy p id decrement events call why) := by
    rcases h with rfl | rfl
    · exact ⟨_, _, _, _, congrArg plain (terminate_eq_removeBy p s id decrement)⟩
    · exact ⟨_, _, _, _, congrArg plain (detach_eq_removeBy p s id decrement)⟩
  obtain ⟨_, events, call, why, heq⟩ := hplain
  rw [heq]
  rcases removeBy_cases p id decrement events call why s with
    ⟨snapshot, hs, hmember, hok, hc⟩ | ⟨e, herror, hqueue⟩
  · exact .inl ⟨snapshot, hs, hmember, by rw [plain, hok]; rfl, hc⟩
  · exact .inr ⟨e, by rw [plain, herror]; rfl, hqueue⟩

/-- **A machine that leaves** is off the queue, remembered as gone, and counted off if that was
asked for and it did not wait. -/
theorem controller_removal {snapshot : Pool} {request : Request} {id : String} {decrement : Bool}
    (h : request = .terminate id decrement ∨ request = .detach id decrement)
    (hs : s.Serves snapshot) (hok : (s.respond p request).1 = .ok .done) :
    (s.respond p request).2.controller =
      (s.controller.view snapshot).2.removed id decrement s.world.now := by
  rcases removal_cases p s h with ⟨other, hs', _, _, hc⟩ | ⟨e, herror, _⟩
  · rw [hs.unique hs', hc]
  · rw [herror] at hok
    cases hok

/-! ## Machines that join or change -/

theorem machineCall_cases (p : Provider σ) (id : String)
    (call : DriverId → Instant → σ → Except DriverError Unit × σ) (note : Station σ → Station σ)
    (s : Station σ) :
    ((s.machineCall p id call note).1 = .ok () ∧
      ∃ outside,
        (s.machineCall p id call note).2.controller = (note (s.after outside)).controller) ∨
    ∃ e, (s.machineCall p id call note).1 = .error e ∧
      (s.machineCall p id call note).2.controller = s.controller := by
  unfold machineCall
  split
  · exact .inr ⟨_, rfl, rfl⟩
  · split
    · exact .inr ⟨_, rfl, rfl⟩
    · exact .inl ⟨rfl, _, controller_refresh p _⟩

theorem queue_machineCall (p : Provider σ) (id : String)
    (call : DriverId → Instant → σ → Except DriverError Unit × σ) {note : Station σ → Station σ}
    (hnote : ∀ s, (note s).controller.queue = s.controller.queue) (s : Station σ) :
    (s.machineCall p id call note).2.controller.queue = s.controller.queue := by
  rcases machineCall_cases p id call note s with ⟨_, outside, hc⟩ | ⟨_, _, hc⟩
  · rw [hc, hnote]
    rfl
  · rw [hc]

/-- A machine that joins is counted, or the controller breaks down. -/
theorem noteAttached_eq (s : Station σ) :
    s.noteAttached = { s.changed s.controller.raise with
      stuck := s.stuck || s.controller.raiseDesired.isNone } := by
  unfold noteAttached Controller.raise
  cases s.controller.raiseDesired with
  | none =>
    simp only [Option.getD_none, Option.isNone_none, Bool.or_true, changed, World.tell,
      List.append_nil]
    rfl
  | some change =>
    simp only [Option.getD_some, Option.isNone_some, Bool.or_false]
    rfl

theorem controller_noteAttached (s : Station σ) :
    s.noteAttached.controller = s.controller.raised := by
  rw [noteAttached_eq]
  exact s.controller.raise_fst

/-- **A machine that joins** makes the pool one machine larger, and that is all. -/
theorem controller_attach {id : String} (hok : (s.respond p (.attach id)).1 = .ok .done) :
    (s.respond p (.attach id)).2.controller = s.controller.raised := by
  have hplain : s.respond p (.attach id) = plain (s.attach p id) := rfl
  rw [hplain] at hok ⊢
  rcases machineCall_cases p id (fun d => p.attach d id) noteAttached s with
    ⟨_, outside, hc⟩ | ⟨e, herror, _⟩
  · exact hc.trans (controller_noteAttached _)
  · rw [plain, attach, herror] at hok
    cases hok

/-! ## Configurations -/

theorem controller_become (s : Station σ) (state : Lifecycle) :
    ∃ reached, (s.become state).2.controller = { s.controller with state := reached } := by
  unfold become Controller.become
  split
  · rename_i h
    split_ifs at h
    · cases h
      exact ⟨_, rfl⟩
    · cases h
      exact ⟨state, rfl⟩
  · exact ⟨_, rfl⟩

theorem controller_launch (p : Provider σ) (s : Station σ) :
    ∃ reached, (s.launch p).2.controller = { s.controller with state := reached } := by
  rw [launch]
  cases s.controller.applied with
  | none => exact ⟨_, rfl⟩
  | some a =>
    show ∃ reached, (s.beginWork a (s.opened p a)).2.controller = _
    generalize s.opened p a = opened
    obtain ⟨live, world⟩ := opened
    rw [beginWork]
    split
    · exact controller_become _ .started
    · exact ⟨_, rfl⟩

/-- What follows when a configuration is in force: the controller goes back to work, if it was at
work, and the configuration is saved. -/
def proceed (p : Provider σ) (wasStarted : Bool) (s : Station σ) :
    Except ControllerError Unit × Station σ :=
  if wasStarted then
    match s.launch p with
    | (.error e, s) => (.error e, s)
    | (.ok (), s) => (.ok (), if s.stuck then s else s.saveConfiguration)
  else (.ok (), s.saveConfiguration)

theorem configure_of_apply {p : Provider σ} {config : PoolConfig} {s s' : Station σ}
    {wasStarted : Bool} (h : s.apply p config = (.ok wasStarted, s')) :
    s.configure p config = s'.proceed p wasStarted := by
  unfold configure proceed
  rw [h]
  cases wasStarted with
  | false => rfl
  | true => rfl

theorem controller_proceed (p : Provider σ) (wasStarted : Bool) (s : Station σ) :
    ∃ reached, (s.proceed p wasStarted).2.controller = { s.controller with state := reached } := by
  have hlaunch := controller_launch p s
  unfold proceed
  split
  · split
    · rename_i heq
      rwa [heq] at hlaunch
    · rename_i heq
      rw [heq] at hlaunch
      split
      · exact hlaunch
      · rwa [controller_saveConfiguration]
  · rw [controller_saveConfiguration]
    exact ⟨_, rfl⟩

theorem queue_adopt (c : Controller) (a : Applied) :
    (c.adopt a).1.queue = (c.forgetOther a.config.name).queue := by
  rw [Controller.adopt]
  cases a.config.desiredSize with
  | none => rfl
  | some size => simp only [Controller.setDesired_fst]

theorem apply_cases (p : Provider σ) (s : Station σ) (config : PoolConfig) :
    (∃ wasStarted, (s.apply p config).1 = .ok wasStarted ∧
      (s.apply p config).2.controller.queue = (s.controller.forgetOther config.name).queue) ∨
    ∃ e, (s.apply p config).1 = .error e ∧
      (s.apply p config).2.controller.queue = s.controller.queue := by
  unfold apply
  split
  · exact .inr ⟨_, rfl, rfl⟩
  · split
    · exact .inr ⟨_, rfl, rfl⟩
    · rename_i driver outside _
      split
      · exact .inr ⟨_, rfl, rfl⟩
      · obtain ⟨events, he, _⟩ := become_stopped (s.controller.adopt ⟨config, driver⟩).1
        simp only [become, changed, halt, after, he]
        exact .inl ⟨_, rfl, queue_adopt s.controller ⟨config, driver⟩⟩

theorem queue_configure (p : Provider σ) (s : Station σ) (config : PoolConfig) :
    (s.configure p config).2.controller.queue = (s.apply p config).2.controller.queue := by
  cases h : s.apply p config with
  | mk answer s' =>
    cases answer with
    | error e => simp only [configure, h]
    | ok wasStarted =>
      obtain ⟨_, hc⟩ := controller_proceed p wasStarted s'
      rw [configure_of_apply h, hc]

/-! ## All other requests -/

/-- **Nobody leaves the queue by any other request**, and nobody joins it. -/
theorem queue_respond (p : Provider σ) (s : Station σ) {request : Request}
    (hcycle : request ≠ .reconcile) (hconfigure : ∀ config, request ≠ .configure config)
    (hterminate : ∀ id decrement, request ≠ .terminate id decrement)
    (hdetach : ∀ id decrement, request ≠ .detach id decrement) :
    (s.respond p request).2.controller.queue = s.controller.queue := by
  cases request with
  | configure config => exact absurd rfl (hconfigure config)
  | getConfiguration =>
    rw [respond]
    split
    · rfl
    · rfl
  | start =>
    rw [respond]
    split
    · rfl
    · rfl
    · obtain ⟨_, hc⟩ := controller_launch p s
      exact (congrArg Controller.queue hc).trans rfl
  | stop =>
    rw [respond]
    split
    · obtain ⟨_, hc⟩ := controller_become s.halt .stopped
      exact (congrArg Controller.queue hc).trans rfl
    · rfl
  | getStatus => rfl
  | reconcile => exact absurd rfl hcycle
  | getPool => exact queue_startedView s
  | getPoolSize =>
    show s.poolSize.2.controller.queue = _
    rw [poolSize_snd]
    exact queue_startedView s
  | setDesired size =>
    rw [respond]
    split
    · rfl
    · show (s.controller.setDesired size).1.queue = _
      rw [Controller.setDesired_fst]
  | terminate id decrement => exact absurd rfl (hterminate id decrement)
  | attach id =>
    refine queue_machineCall p id _ (fun s => ?_) s
    rw [controller_noteAttached]
    rfl
  | detach id decrement => exact absurd rfl (hdetach id decrement)
  | setService id service => exact queue_machineCall p id _ (fun _ => rfl) s
  | setMembership id membership => exact queue_machineCall p id _ (fun _ => rfl) s

end Station

end PoolKeeper
