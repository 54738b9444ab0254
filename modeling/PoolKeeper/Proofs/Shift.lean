import PoolKeeper.Proofs.Refresh
import PoolKeeper.Proofs.Requests

/-!
# Started stations are periods

A station answers one request after the other, and its cache works between them. All that it does
while it is started is a run of steps of a period in which no call is under way.

* `Station.during`, `Station.Works`: the period that a station is in;
* `Station.Continues`: the station is still at work, and its period has made steps;
* **`Station.respond_continues`**: requests, except those that end the work, let it continue;
* `Station.Shift`, **`Station.Shift.onDuty`**: a station from its launch on comes to nothing that
  its period cannot come to; **`Station.Shift.serves`**: so what it serves is sound.
-/

namespace PoolKeeper

/-! ## Cycles -/

namespace Period

variable {σ : Type} {p : Provider σ} {a : Applied} {good : σ → Prop} {s : Period σ}

theorem tidy_steps {controller : Controller} {world : World σ}
    (ho : controller.overlay = s.controller.overlay) (hnow : s.world.now ≤ world.now)
    (hg : good world.outside) : Steps p a good s { s with controller, world } :=
  have hthought : Steps p a good s { s with controller } := .single (.think controller ho)
  hthought.tail (Step.world (s := { s with controller }) world hnow hg)

/-- The period with other recent actions and all else that is outside. -/
def acted (s : Period σ) (overlay : Overlay) (outside : σ) : Period σ :=
  { s.withOverlay overlay with world := { s.world with outside } }

theorem start_steps (hpending : s.pending = none) (count : Nat) :
    Steps p a good s (s.acted
      (s.controller.overlay.recordStarted
        (launchedBy (p.start a.driver count s.world.now s.world.outside).1) s.world.now)
      (p.start a.driver count s.world.now s.world.outside).2) := by
  obtain ⟨controller, live, world, listing, pending⟩ := s
  cases hpending
  exact (Relation.ReflTransGen.single (.start count rfl)).tail .note

theorem terminate_steps (hpending : s.pending = none) (ids : List String) :
    Steps p a good s (s.acted
      (s.controller.overlay.recordTerminated
        (confirmedBy ids (p.terminate a.driver ids s.world.now s.world.outside).1) s.world.now)
      (p.terminate a.driver ids s.world.now s.world.outside).2) := by
  obtain ⟨controller, live, world, listing, pending⟩ := s
  cases hpending
  exact (Relation.ReflTransGen.single (.terminate ids rfl)).tail .note

/-- The cycle on a view. -/
def turn (p : Provider σ) (a : Applied) (view : Pool) (s : Period σ) : Turn σ where
  provider := p
  applied := a
  view
  now := s.world.now
  controller := s.controller
  outside := s.world.outside

variable {view : Pool}

theorem midway_steps (hpending : s.pending = none) :
    Steps p a good s (s.acted
      (s.controller.overlay.recordStarted (s.turn p a view).launched s.world.now)
      (s.turn p a view).midway) := by
  have hlaunched : (s.turn p a view).launched = if (s.turn p a view).requested = 0 then []
      else launchedBy (p.start a.driver (s.turn p a view).requested s.world.now
        s.world.outside).1 := rfl
  rw [hlaunched, Turn.midway]
  split
  · exact .refl
  · exact start_steps hpending _

/-- **A cycle is a run of steps.** -/
theorem turn_steps (hk : p.Keeps a.driver good) (hg : good s.world.outside)
    (hpending : s.pending = none) (events : List Event) :
    Steps p a good s
      { s with
        controller := (s.turn p a view).closing.controller
        world := World.tell { s.world with outside := (s.turn p a view).closing.outside } events } := by
  let midway := s.acted
    (s.controller.overlay.recordStarted (s.turn p a view).launched s.world.now)
    (s.turn p a view).midway
  have hstarted : Steps p a good s midway := midway_steps hpending
  have hacted : Steps p a good s (s.acted
      ((s.controller.overlay.recordStarted (s.turn p a view).launched s.world.now).recordTerminated
        (s.turn p a view).confirmed s.world.now)
      (s.turn p a view).closing.outside) := by
    rw [Turn.closing_outside, Turn.confirmed]
    split
    · exact hstarted
    · exact hstarted.trans (terminate_steps (s := midway) hpending _)
  refine hacted.trans (tidy_steps ?_ (Instant.le_refl _) (hacted.keeps hk hg))
  rw [Turn.closing_controller]
  rfl

end Period

/-- The background work ends with the request. -/
def Request.endsWork : Request → Bool
  | .configure _ => true
  | .stop => true
  | _ => false

namespace Station

variable {σ : Type}

/-- The period that a station is in. -/
def during (s : Station σ) (live : LiveCache Nat) : Period σ :=
  { controller := s.controller, live, world := s.world }

/-- A station at work with a cache, and all that is outside as it should be. -/
structure Works (a : Applied) (good : σ → Prop) (s : Station σ) (live : LiveCache Nat) : Prop
    extends s.WorksOn a where
  running : ∃ ticker, s.running = some ⟨a, live, ticker⟩
  good : good s.world.outside

/-- A station at work is still at work afterwards, and its period has made steps. -/
def Continues (p : Provider σ) (a : Applied) (good : σ → Prop) (s t : Station σ) : Prop :=
  ∀ live, s.Works a good live →
    ∃ live', t.Works a good live' ∧ Period.Steps p a good (s.during live) (t.during live')

variable {p : Provider σ} {a : Applied} {good : σ → Prop} {s t u : Station σ}
  {live live' : LiveCache Nat}

theorem Continues.refl (s : Station σ) : Continues p a good s s := fun live h => ⟨live, h, .refl⟩

theorem Continues.trans (h : Continues p a good s t) (h' : Continues p a good t u) :
    Continues p a good s u := by
  intro live hs
  obtain ⟨live', ht, hsteps⟩ := h live hs
  obtain ⟨live'', hu, hsteps'⟩ := h' live' ht
  exact ⟨live'', hu, hsteps.trans hsteps'⟩

/-- A station that breaks down leaves its period as it was. -/
theorem Continues.withStuck (h : Continues p a good s t) (stuck : Bool) :
    Continues p a good s { t with stuck } := by
  intro live hs
  obtain ⟨live', ht, hsteps⟩ := h live hs
  exact ⟨live', ⟨⟨ht.started, ht.applied, ht.valid⟩, ht.running, ht.good⟩, hsteps⟩

/-- Nothing changes about the work. -/
structure SameWork (s t : Station σ) : Prop where
  running : t.running = s.running
  state : t.controller.state = s.controller.state
  applied : t.controller.applied = s.controller.applied

theorem SameWork.works (hw : s.SameWork t) (h : s.Works a good live)
    (hg : good t.world.outside) : t.Works a good live where
  started := hw.state.trans h.started
  applied := hw.applied.trans h.applied
  valid := h.valid
  running := by
    rw [hw.running]
    exact h.running
  good := hg

/-- A change that is not about recent actions. -/
theorem SameWork.continues (hw : s.SameWork t) (ho : t.controller.overlay = s.controller.overlay)
    (hnow : s.world.now ≤ t.world.now) (hg : good s.world.outside → good t.world.outside) :
    Continues p a good s t := fun live h =>
  ⟨live, hw.works h (hg h.good), Period.tidy_steps ho hnow (hg h.good)⟩

theorem changed_continues {c : Controller} (hs : c.state = s.controller.state)
    (ha : c.applied = s.controller.applied) (ho : c.overlay = s.controller.overlay)
    (events : List Event) : Continues p a good s (s.changed (c, events)) :=
  SameWork.continues ⟨rfl, hs, ha⟩ ho (Instant.le_refl _) fun hg => hg

theorem world_continues {world : World σ} (hnow : s.world.now ≤ world.now)
    (hg : good s.world.outside → good world.outside) :
    Continues p a good s { s with world } :=
  SameWork.continues ⟨rfl, rfl, rfl⟩ rfl hnow hg

/-! ## Views and cycles -/

theorem view_continues (s : Station σ) : Continues p a good s s.view.2 := by
  intro live h
  obtain ⟨ticker, hr⟩ := h.running
  cases hserve : live.cache.serve s.world.now with
  | error e =>
    have hview : s.view.2 = s := by simp only [view, hr, hserve]
    rw [hview]
    exact ⟨live, h, .refl⟩
  | ok snapshot =>
    have hview : s.view.2 = { s with controller := (s.controller.view snapshot).2 } := by
      simp only [view, hr, hserve]
    rw [hview]
    exact ⟨live, SameWork.works (s := s) ⟨rfl, rfl, rfl⟩ h h.good,
      .single (.view snapshot (snapshot_of_serve hserve))⟩

theorem startedView_continues (s : Station σ) : Continues p a good s s.startedView.2 := by
  unfold startedView
  split
  · exact .refl s
  · exact view_continues s

/-- **A cycle lets the work continue.** -/
theorem reconcile_continues (hk : p.Keeps a.driver good) (s : Station σ) :
    Continues p a good s (s.reconcile p).2 := by
  intro live h
  obtain ⟨ticker, hr⟩ := h.running
  cases hserve : live.cache.serve s.world.now with
  | error e =>
    have hready : s.controller.ensureStarted = .ok () := by
      rw [Controller.ensureStarted, h.started]
    let failed : Station σ :=
      { s with
        controller := { s.controller with lastError := some (ControllerError.fetch e).message } }
    have hfailed : (s.reconcile p).2 = failed := by
      simp only [reconcile, hready, h.applied, view, hr, hserve, failed]
    have hsame : Continues p a good s failed :=
      SameWork.continues ⟨rfl, rfl, rfl⟩ rfl (Instant.le_refl _) fun hg => hg
    rw [hfailed]
    exact hsame live h
  | ok snapshot =>
    let viewed : Period σ := { s.during live with controller := (s.controller.view snapshot).2 }
    have hviewed : Period.Steps p a good (s.during live) viewed :=
      .single (.view snapshot (snapshot_of_serve hserve))
    have hturn : Period.Steps p a good (s.during live)
        { viewed with
          controller := (s.turn p a snapshot).closing.controller
          world := World.tell { s.world with outside := (s.turn p a snapshot).closing.outside }
            (s.turn p a snapshot).closing.events } :=
      hviewed.trans (Period.turn_steps hk h.good rfl (s.turn p a snapshot).closing.events)
    by_cases hgoes : (s.turn p a snapshot).GoesThrough
    · rw [reconcile_eq h.toWorksOn ⟨_, hr, hserve⟩ hgoes]
      refine ⟨live, SameWork.works (s := s) ⟨rfl, ?_, ?_⟩ h (hturn.keeps hk h.good), hturn⟩
      · simp only [Turn.closing_controller]
        rfl
      · simp only [Turn.closing_controller]
        rfl
    · have hbroken : Period.Steps p a good (s.during live)
          (viewed.acted viewed.controller.overlay (s.turn p a snapshot).midway) := by
        have hstarted : Period.Steps p a good viewed (viewed.acted
            (viewed.controller.overlay.recordStarted (s.turn p a snapshot).launched s.world.now)
            (s.turn p a snapshot).midway) := Period.midway_steps rfl
        have hnone : (s.turn p a snapshot).launched = [] := Turn.launched_of_not_goesThrough hgoes
        rw [hnone] at hstarted
        exact hviewed.trans hstarted
      have hgood := hbroken.keeps hk h.good
      rw [reconcile_of_not_goesThrough h.toWorksOn ⟨_, hr, hserve⟩ hgoes]
      exact ⟨live, SameWork.works (s := s) ⟨rfl, rfl, rfl⟩ h hgood,
        hbroken.trans (Period.tidy_steps rfl (Instant.le_refl _) hgood)⟩

/-! ## Refreshes -/

theorem Works.refreshed (h : s.Works a good live) {after : LiveCache Nat × World σ}
    (hg : good after.2.outside) (ticker : Ticker) (stuck : Bool) :
    Works a good { s with running := some ⟨a, after.1, ticker⟩, world := after.2, stuck }
      after.1 where
  started := h.started
  applied := h.applied
  valid := h.valid
  running := ⟨ticker, rfl⟩
  good := hg

theorem refresh_continues (hk : p.Keeps a.driver good) (s : Station σ) :
    Continues p a good s (s.refresh p) := by
  intro live h
  obtain ⟨ticker, hr⟩ := h.running
  unfold refresh
  split
  · exact ⟨live, h, .refl⟩
  · rename_i hwork
    cases (running_of_working hwork).symm.trans hr
    have hforced : Period.Steps p a good (s.during live) _ := Period.force_steps hk rfl h.good
    exact ⟨_, h.refreshed (hforced.keeps hk h.good) ticker _, hforced⟩

theorem refreshDue_continues (hk : p.Keeps a.driver good) (s : Station σ) :
    Continues p a good s (s.refreshDue p) := by
  intro live h
  obtain ⟨ticker, hr⟩ := h.running
  unfold refreshDue
  split
  · exact ⟨live, h, .refl⟩
  · rename_i hwork
    cases (running_of_working hwork).symm.trans hr
    have hsettled : Period.Steps p a good (s.during live) _ := Period.settle_steps rfl
    exact ⟨_, h.refreshed (hsettled.keeps hk h.good) ticker _, hsettled⟩

/-! ## Requests about machines -/

theorem setDesired_continues (s : Station σ) (size : Nat) :
    Continues p a good s (s.changed (s.controller.setDesired size)) := by
  unfold Controller.setDesired
  split
  · exact changed_continues rfl rfl rfl _
  · exact changed_continues (c := { s.controller with desired := some size }) rfl rfl rfl _

theorem lowerDesired_continues (s : Station σ) :
    Continues p a good s (s.changed s.controller.lowerDesired) := by
  unfold Controller.lowerDesired
  split
  · exact setDesired_continues s _
  · exact changed_continues rfl rfl rfl _

theorem noteAttached_continues (s : Station σ) : Continues p a good s s.noteAttached := by
  rw [noteAttached_eq]
  have hraised := s.controller.raise_fst
  generalize s.controller.raise = change at hraised
  obtain ⟨c, events⟩ := change
  obtain rfl : c = s.controller.raised := hraised
  exact (changed_continues (c := s.controller.raised) rfl rfl rfl events).withStuck _

theorem after_continues {outside : σ} (hg : good s.world.outside → good outside) :
    Continues p a good s (s.after outside) :=
  world_continues (Instant.le_refl _) hg

/-- A machine has left the pool, and that is noted. -/
theorem noteGone_continues {id : String} {outside : σ} (hk : p.Keeps a.driver good)
    (hgone : ∀ u : Period σ, u.world = s.world → u.pending = none →
      Period.Step p a good u (u.did outside (.ended [id])))
    (decrement : Bool) (events : List Event) :
    Continues p a good s ((s.after outside).noteGone id decrement events) := by
  let gone : Controller :=
    { s.controller with
      queue := s.controller.queue.erase id
      overlay := s.controller.overlay.recordTerminated [id] s.world.now }
  have hnoted : Continues p a good s ((s.after outside).changed (gone, events)) := by
    intro live h
    have hdid := hgone (s.during live) rfl rfl
    have hg : good outside := hdid.keeps hk h.good
    have hsteps : Period.Steps p a good (s.during live) ((s.during live).did outside _).note :=
      (Relation.ReflTransGen.single hdid).tail .note
    exact ⟨live, SameWork.works (s := s) ⟨rfl, rfl, rfl⟩ h hg,
      hsteps.trans (Period.tidy_steps rfl (Instant.le_refl _) hg)⟩
  unfold noteGone
  simp only
  split
  · exact hnoted.trans (lowerDesired_continues _)
  · exact hnoted

theorem memberDriver_continues (s : Station σ) (id : String) :
    Continues p a good s (s.memberDriver id).2 := by
  rw [memberDriver_snd]
  exact startedView_continues s

theorem memberDriver_eq {id : String} {d : DriverId} (hm : s.memberDriver id = (.ok d, t))
    (ht : t.controller.applied = some a) : d = a.driver := by
  unfold memberDriver at hm
  split at hm
  · cases hm
  · split at hm
    · split at hm
      · rename_i a' ha
        cases hm
        rw [ht] at ha
        cases ha
        rfl
      · cases hm
    · cases hm

theorem terminate_continues (hk : p.Keeps a.driver good) (s : Station σ) (id : String)
    (decrement : Bool) : Continues p a good s (s.terminate p id decrement).2 := by
  have hmember : Continues p a good s (s.memberDriver id).2 := memberDriver_continues s id
  unfold terminate
  split
  · rename_i heq
    rwa [heq] at hmember
  · rename_i d t heq
    rw [heq] at hmember
    refine hmember.trans fun live ht => ?_
    rw [memberDriver_eq heq ht.applied]
    split
    · rename_i e outside hcall
      have hleft : Continues p a good t (t.after outside) := after_continues fun hg => by
        have hkept : good (p.terminate a.driver [id] t.world.now t.world.outside).2 :=
          hk.terminate hg
        rwa [hcall] at hkept
      exact hleft live ht
    · rename_i outside hcall
      have hgone : Continues p a good t
          ((t.after outside).noteGone id decrement [.machinesTerminated [id]]) :=
        noteGone_continues hk (fun u hw hpending => by
          have hstep : Period.Step p a good u _ := .terminate [id] hpending
          rwa [hw, hcall] at hstep) _ _
      exact hgone.trans (refresh_continues hk _) live ht

theorem detach_continues (hk : p.Keeps a.driver good) (s : Station σ) (id : String)
    (decrement : Bool) : Continues p a good s (s.detach p id decrement).2 := by
  have hmember : Continues p a good s (s.memberDriver id).2 := memberDriver_continues s id
  unfold detach
  split
  · rename_i heq
    rwa [heq] at hmember
  · rename_i d t heq
    rw [heq] at hmember
    refine hmember.trans fun live ht => ?_
    rw [memberDriver_eq heq ht.applied]
    split
    · rename_i e outside hcall
      have hleft : Continues p a good t (t.after outside) := after_continues fun hg => by
        have hkept : good (p.detach a.driver id t.world.now t.world.outside).2 :=
          hk.detach hg
        rwa [hcall] at hkept
      exact hleft live ht
    · rename_i outside hcall
      have hgone : Continues p a good t ((t.after outside).noteGone id decrement []) :=
        noteGone_continues hk (fun u hw hpending => by
          have hstep : Period.Step p a good u _ := .detach id hpending (by rw [hw, hcall])
          rwa [hw, hcall] at hstep) _ _
      exact hgone.trans (refresh_continues hk _) live ht

theorem machineCall_continues (hk : p.Keeps a.driver good) (s : Station σ) (id : String)
    {call : DriverId → Instant → σ → Except DriverError Unit × σ}
    {note : Station σ → Station σ} (hcall : ∀ now outside, good outside →
      good (call a.driver now outside).2)
    (hnote : ∀ t, Continues p a good t (note t)) :
    Continues p a good s (s.machineCall p id call note).2 := by
  intro live h
  have hdriver : s.startedDriver = .ok a.driver := by
    simp only [startedDriver, Controller.ensureStarted, h.started, h.applied]
  have hgood := hcall s.world.now s.world.outside h.good
  unfold machineCall
  rw [hdriver]
  simp only
  split
  · rename_i e outside heq
    rw [heq] at hgood
    exact after_continues (fun _ => hgood) live h
  · rename_i outside heq
    rw [heq] at hgood
    have hleft : Continues p a good s (s.after outside) := after_continues fun _ => hgood
    exact (hleft.trans (hnote _)).trans (refresh_continues hk _) live h

theorem poolSize_continues (s : Station σ) : Continues p a good s s.poolSize.2 := by
  rw [poolSize_snd]
  exact startedView_continues s

/-! ## Shifts -/

/-- **Requests let the work continue**, except for those that end it. -/
theorem respond_continues (hk : p.Keeps a.driver good) (s : Station σ) {request : Request}
    (hends : request.endsWork = false) : Continues p a good s (s.respond p request).2 := by
  cases request with
  | configure config => cases hends
  | getConfiguration =>
    rw [respond]
    split
    · exact .refl s
    · exact .refl s
  | start =>
    intro live h
    simp only [respond, h.started]
    exact ⟨live, h, .refl⟩
  | stop => cases hends
  | getStatus => exact .refl s
  | reconcile => exact reconcile_continues hk s
  | getPool => exact startedView_continues s
  | getPoolSize => exact poolSize_continues s
  | setDesired size =>
    rw [respond]
    split
    · exact .refl s
    · exact setDesired_continues s size
  | terminate id decrement => exact terminate_continues hk s id decrement
  | attach id =>
    exact machineCall_continues hk s id (fun _ _ hg => hk.attach hg) noteAttached_continues
  | detach id decrement => exact detach_continues hk s id decrement
  | setService id service =>
    exact machineCall_continues hk s id (fun _ _ hg => hk.setService hg) .refl
  | setMembership id membership =>
    exact machineCall_continues hk s id (fun _ _ hg => hk.setMembership hg) .refl

theorem ticker_continues {r : Running} (hr : s.running = some r) (ticker : Ticker) :
    Continues p a good s { s with running := some { r with ticker } } := by
  intro live h
  obtain ⟨old, hold⟩ := h.running
  rw [hr] at hold
  cases hold
  exact ⟨live, ⟨⟨h.started, h.applied, h.valid⟩, ⟨ticker, rfl⟩, h.good⟩, .refl⟩

/-- The snapshot that a launch begins with. -/
def restored (a : Applied) (s : Station σ) : Option Pool :=
  s.store.bind fun store => Cache.restored FileTree.system store a.config.name s.world.files

/-- A station from its launch on, until it is configured again or stopped. -/
inductive Shift (p : Provider σ) (a : Applied) (good : σ → Prop) : Station σ → Prop
  | launch {s : Station σ} : s.Reachable p → s.controller.applied = some a →
    s.controller.state = .stopped → good s.world.outside →
    (∀ snapshot, s.restored a = some snapshot →
      snapshot.Distinct ∧ snapshot.takenAt ≤ s.world.now) →
    (s.launch p).2.controller.state = .started → Shift p a good (s.launch p).2
  | respond {s : Station σ} (request : Request) : request.endsWork = false →
    Shift p a good s → Shift p a good (s.respond p request).2
  | refreshDue {s : Station σ} : Shift p a good s → Shift p a good (s.refreshDue p)
  | ticker {s : Station σ} {r : Running} (ticker : Ticker) : s.running = some r →
    Shift p a good s → Shift p a good { s with running := some { r with ticker } }
  | world {s : Station σ} (world : World σ) : s.world.now ≤ world.now →
    good world.outside → Shift p a good s → Shift p a good { s with world }

/-- A station at work comes to nothing that its period cannot come to. -/
def OnDuty (p : Provider σ) (a : Applied) (good : σ → Prop) (s : Station σ) : Prop :=
  ∃ live, s.Works a good live ∧ Period.Reachable p a good (s.during live)

theorem Continues.onDuty (h : Continues p a good s t) (hs : s.OnDuty p a good) :
    t.OnDuty p a good := by
  obtain ⟨live, hw, hr⟩ := hs
  obtain ⟨live', hw', hsteps⟩ := h live hw
  exact ⟨live', hw', hr.steps hsteps⟩

/-- A launch begins a period. -/
theorem launch_onDuty (hk : p.Keeps a.driver good) (hs : s.Sound)
    (ha : s.controller.applied = some a) (hstopped : s.controller.state = .stopped)
    (hg : good s.world.outside)
    (hrestored : ∀ snapshot, s.restored a = some snapshot →
      snapshot.Distinct ∧ snapshot.takenAt ≤ s.world.now)
    (hstarted : (s.launch p).2.controller.state = .started) : (s.launch p).2.OnDuty p a good := by
  let schedule := a.config.fetch
  let begun := s.during (.begin a.config.name (.ofSeconds schedule.refreshInterval)
    (.ofSeconds schedule.reachabilityTimeout) s.store true s.world)
  have hbegun : Period.Reachable p a good begun :=
    .begins ⟨hg, hs.controller.overlay, hrestored, rfl, rfl⟩
  have hawaited : Period.Steps p a good begun (begun.refreshed (s.opened p a)) :=
    Period.awaitFirst_steps hk rfl hg
  have hlaunch : s.launch p = s.beginWork a (s.opened p a) := by simp only [launch, ha]
  rw [hlaunch] at hstarted ⊢
  generalize s.opened p a = opened at hawaited hstarted ⊢
  obtain ⟨live, world⟩ := opened
  have hgood : good world.outside := hawaited.keeps hk hg
  obtain ⟨events, hbecome, _⟩ := become_started hstopped
  unfold beginWork at hstarted ⊢
  simp only [become, hbecome] at hstarted ⊢
  split at hstarted
  · rename_i hfetched
    rw [if_pos hfetched]
    refine ⟨live, ⟨⟨rfl, ha, hs.controller.valid a ha⟩, ⟨_, rfl⟩, hgood⟩, ?_⟩
    exact (hbegun.steps hawaited).steps (Period.tidy_steps rfl (Instant.le_refl _) hgood)
  · rw [hstopped] at hstarted
    cases hstarted

/-- **A started station comes to nothing that its period cannot come to.** -/
theorem Shift.onDuty (hk : p.Keeps a.driver good) (h : Shift p a good s) :
    s.OnDuty p a good := by
  induction h with
  | launch hr ha hstopped hg hrestored hstarted =>
    exact launch_onDuty hk hr.sound ha hstopped hg hrestored hstarted
  | respond request hends _ ih => exact (respond_continues hk _ hends).onDuty ih
  | refreshDue _ ih => exact (refreshDue_continues hk _).onDuty ih
  | ticker ticker hr _ ih => exact (ticker_continues hr ticker).onDuty ih
  | world world hnow hg _ ih => exact (world_continues hnow fun _ => hg).onDuty ih

theorem kept_shift (hk : p.Keeps a.driver good) : Kept p (Shift p a good) where
  reconcile h := h.respond .reconcile rfl
  refreshDue h := h.refreshDue
  ticker hr _ h := h.ticker _ hr
  later d h := by
    obtain ⟨live, hw, _⟩ := h.onDuty hk
    exact h.world _ (Instant.le_plus _ d) hw.good

theorem Shift.ask (hk : p.Keeps a.driver good) (h : Shift p a good s) {request : Request}
    (hends : request.endsWork = false) : Shift p a good (s.ask p request).2 :=
  (kept_shift hk).ask h (h.respond request hends)

theorem Shift.advance (hk : p.Keeps a.driver good) (h : Shift p a good s) (nanos : Nat) :
    Shift p a good (s.advance p nanos) :=
  (kept_shift hk).advance h nanos

/-- **Over a truthful driver, every snapshot that is served lists no machine twice and is not from
the future.** -/
theorem Shift.serves {machines : σ → List Machine} (hp : p.Truthful a.driver machines good)
    (h : Shift p a good s) {snapshot : Pool} (hs : s.Serves snapshot) :
    snapshot.Distinct ∧ snapshot.takenAt ≤ s.world.now := by
  obtain ⟨live, hw, hreach⟩ := h.onDuty hp.keeps
  obtain ⟨ticker, hr⟩ := hw.running
  obtain ⟨r, hr', hserve⟩ := hs
  rw [hr] at hr'
  cases hr'
  exact (hreach.sound hp).source snapshot (.inl (snapshot_of_serve hserve))

end Station

end PoolKeeper
