import Mathlib.Logic.Relation
import PoolKeeper.Controller.Station
import PoolKeeper.Proofs.LiveCache
import PoolKeeper.Proofs.Turn
import PoolKeeper.Provider.Fleet

/-!
# Reachable stations

* `Station.Reachable`: the stations that come about by requests, background work and time, whatever
  happens in the world around them;
* `Station.Moves`: all that one step can do to a controller and its background work, and
  **`Station.respond_leads`**: a request does nothing else;
* `Station.Kept`: what the background work keeps; `Station.ask_reachable`,
  `Station.advance_reachable`: requests and time lead to reachable stations; `Fleet.atWork`: one of
  them.
-/

namespace PoolKeeper

namespace Station

variable {σ : Type}

/-- What comes about by requests, background work and time. Cycles in the background are answers to
a request for one; between two steps the ticker may move, the clock may advance and everything else
in the world may change. -/
inductive Reachable (p : Provider σ) : Station σ → Prop
  | boot (store : Option Store) (world : World σ) : Reachable p (boot p store world)
  | respond {s : Station σ} (request : Request) :
    Reachable p s → Reachable p (s.respond p request).2
  | refreshDue {s : Station σ} : Reachable p s → Reachable p (s.refreshDue p)
  | ticker {s : Station σ} {r : Running} (ticker : Ticker) : s.running = some r →
    Reachable p s → Reachable p { s with running := some { r with ticker } }
  | world {s : Station σ} (world : World σ) : s.world.now ≤ world.now →
    Reachable p s → Reachable p { s with world }

/-- The cache that a launch begins with. -/
def begun (a : Applied) (s : Station σ) : LiveCache Nat :=
  .begin a.config.name (.ofSeconds a.config.fetch.refreshInterval)
    (.ofSeconds a.config.fetch.reachabilityTimeout) s.store true s.world

/-- The background work stays, and no change of state is told. -/
structure Steady (s s' : Station σ) : Prop where
  running : s'.running = s.running
  changes : s'.world.stateChanges = s.world.stateChanges

/-- What one step can do to a controller and its background work. -/
inductive Moves (p : Provider σ) (s s' : Station σ) : Prop
  /-- The step is about the world. -/
  | quiet : s'.controller = s.controller → Steady s s' → Moves p s s'
  /-- The step is about the cache. -/
  | refreshed (r : Running) (live : LiveCache Nat) : s.running = some r →
    s'.running = some { r with live } →
    LiveCache.Refreshes (r.fetcher p) (r.live, s.world) (live, s'.world) →
    s'.controller = s.controller → Moves p s s'
  | configured (a : Applied) : a.config.validate = .ok () →
    s'.controller = { (s.controller.adopt a).1 with state := .stopped } → s'.running = none →
    s'.world.stateChanges = s.world.stateChanges ++ s.controller.state.change .stopped →
    Moves p s s'
  | launched (r : Running) (world : World σ) : s.controller.state = .stopped →
    s.controller.applied = some r.applied →
    s'.controller = { s.controller with state := .started } → s'.running = some r →
    LiveCache.Refreshes (r.fetcher p) (s.begun r.applied, s.world) (r.live, world) →
    r.ticker.period = .ofSeconds r.applied.config.updateInterval →
    s'.world.stateChanges = s.world.stateChanges ++ Lifecycle.stopped.change .started →
    Moves p s s'
  | halted : s.controller.state = .started →
    s'.controller = { s.controller with state := .stopped } → s'.running = none →
    s'.world.stateChanges = s.world.stateChanges ++ Lifecycle.started.change .stopped →
    Moves p s s'
  | resized (size : Nat) : s'.controller = { s.controller with desired := some size } →
    Steady s s' → Moves p s s'
  | viewed (snapshot : Pool) : s'.controller = (s.controller.view snapshot).2 →
    Steady s s' → Moves p s s'
  | failed (message : String) : s'.controller = { s.controller with lastError := some message } →
    Steady s s' → Moves p s s'
  | cycled (a : Applied) (view : Pool) (now : Instant) (outside : σ) :
    s.controller.applied = some a →
    s'.controller = (s.controller.reconcile p a view now outside).2.1 →
    Steady s s' → Moves p s s'
  | left (id : String) (time : Instant) :
    s'.controller =
      { s.controller with
        queue := s.controller.queue.erase id
        overlay := s.controller.overlay.recordTerminated [id] time } →
    Steady s s' → Moves p s s'

/-- What several steps can do. -/
abbrev Leads (p : Provider σ) : Station σ → Station σ → Prop := Relation.ReflTransGen (Moves p)

variable (p : Provider σ) (s : Station σ)

theorem Leads.one {p : Provider σ} {s s' : Station σ} (h : Moves p s s') : Leads p s s' :=
  Relation.ReflTransGen.single h

theorem steady_changed {change : Controller × List Event} (h : Event.stateChanges change.2 = []) :
    Steady s (s.changed change) :=
  ⟨Eq.refl _, s.world.stateChanges_tell_none h⟩

theorem running_of_working {s : Station σ} {r : Running} (h : s.working = some r) :
    s.running = some r := by
  unfold working at h
  split at h
  · cases h
  · exact h

theorem working_of_none {s : Station σ} (h : s.running = none) : s.working = none := by
  rw [working, h, ite_self]

/-! ## Views and cycles -/

theorem view_leads : Leads p s s.view.2 := by
  unfold view
  split
  · exact .refl
  · split
    · exact .refl
    · exact .one (.viewed _ rfl ⟨rfl, rfl⟩)

theorem memberDriver_snd (id : String) : (s.memberDriver id).2 = s.startedView.2 := by
  unfold memberDriver
  split
  · rename_i heq
    rw [heq]
  · rename_i heq
    rw [heq]
    split
    · split
      · rfl
      · rfl
    · rfl

theorem poolSize_snd : s.poolSize.2 = s.startedView.2 := by
  unfold poolSize
  split
  · rename_i heq
    rw [heq]
  · rename_i heq
    rw [heq]
    split
    · rfl
    · rfl

theorem startedView_leads : Leads p s s.startedView.2 := by
  unfold startedView
  split
  · exact .refl
  · exact view_leads p s

theorem applied_view : s.view.2.controller.applied = s.controller.applied := by
  unfold view
  split
  · rfl
  · split
    · rfl
    · rfl

theorem reconcile_leads : Leads p s (s.reconcile p).2 := by
  have hview := view_leads p s
  have happlied := applied_view s
  unfold reconcile
  split
  · exact .refl
  · split
    · exact .refl
    · rename_i a ha
      split
      · rename_i e s' heq
        rw [heq] at hview
        exact hview.tail (.failed e.message rfl ⟨rfl, rfl⟩)
      · rename_i pool s' heq
        rw [heq] at hview happlied
        have hquiet := Controller.stateChanges_reconcile p a pool s'.world.now s'.controller
          s'.world.outside
        exact hview.tail (.cycled a pool _ _ (happlied.trans ha) rfl
          ⟨rfl, World.stateChanges_tell_none _ hquiet⟩)

/-! ## Machines that leave and join -/

theorem refresh_leads : Leads p s (s.refresh p) := by
  unfold refresh
  split
  · exact .refl
  · rename_i r hr
    exact .one (.refreshed r _ (running_of_working hr) rfl (LiveCache.force_refreshes _ _) rfl)

theorem memberDriver_leads (id : String) : Leads p s (s.memberDriver id).2 := by
  rw [memberDriver_snd]
  exact startedView_leads p s

theorem setDesired_leads (size : Nat) : Leads p s (s.changed (s.controller.setDesired size)) :=
  .one (.resized size (s.controller.setDesired_fst size)
    (steady_changed s (s.controller.stateChanges_setDesired size)))

theorem lowerDesired_leads : Leads p s (s.changed s.controller.lowerDesired) := by
  unfold Controller.lowerDesired
  split
  · exact setDesired_leads p s _
  · exact .one (.quiet rfl (steady_changed s rfl))

theorem noteAttached_leads : Leads p s s.noteAttached := by
  unfold noteAttached Controller.raiseDesired
  cases s.controller.desired with
  | none => exact .one (.quiet rfl (steady_changed s rfl))
  | some size =>
    simp only
    split
    · rename_i change hchange
      split at hchange
      · cases hchange
      · cases hchange
        exact setDesired_leads p s _
    · exact .one (.quiet rfl ⟨rfl, rfl⟩)

theorem noteGone_leads (id : String) (decrement : Bool) {events : List Event}
    (hevents : Event.stateChanges events = []) : Leads p s (s.noteGone id decrement events) := by
  let gone : Controller :=
    { s.controller with
      queue := s.controller.queue.erase id
      overlay := s.controller.overlay.recordTerminated [id] s.world.now }
  have hgone : Leads p s (s.changed (gone, events)) :=
    .one (.left id s.world.now rfl (steady_changed s hevents))
  rw [noteGone]
  split
  · exact hgone.trans (lowerDesired_leads p (s.changed (gone, events)))
  · exact hgone

theorem after_leads (outside : σ) : Leads p s (s.after outside) := .one (.quiet rfl ⟨rfl, rfl⟩)

theorem terminate_leads (id : String) (decrement : Bool) :
    Leads p s (s.terminate p id decrement).2 := by
  have hmember := memberDriver_leads p s id
  unfold terminate
  split
  · rename_i heq
    rwa [heq] at hmember
  · rename_i d s' heq
    rw [heq] at hmember
    split
    · exact hmember.trans (after_leads p _ _)
    · exact ((hmember.trans (after_leads p _ _)).trans (noteGone_leads p _ _ _ rfl)).trans
        (refresh_leads p _)

theorem detach_leads (id : String) (decrement : Bool) :
    Leads p s (s.detach p id decrement).2 := by
  have hmember := memberDriver_leads p s id
  unfold detach
  split
  · rename_i heq
    rwa [heq] at hmember
  · rename_i d s' heq
    rw [heq] at hmember
    split
    · exact hmember.trans (after_leads p _ _)
    · exact ((hmember.trans (after_leads p _ _)).trans (noteGone_leads p _ _ _ rfl)).trans
        (refresh_leads p _)

theorem machineCall_leads (id : String)
    (call : DriverId → Instant → σ → Except DriverError Unit × σ) {note : Station σ → Station σ}
    (hnote : ∀ s, Leads p s (note s)) : Leads p s (s.machineCall p id call note).2 := by
  unfold machineCall
  split
  · exact .refl
  · split
    · exact after_leads p _ _
    · exact ((after_leads p _ _).trans (hnote _)).trans (refresh_leads p _)

theorem poolSize_leads : Leads p s s.poolSize.2 := by
  rw [poolSize_snd]
  exact startedView_leads p s

/-! ## Configuring, starting and stopping -/

theorem become_stopped (c : Controller) :
    ∃ events, c.become .stopped = .ok ({ c with state := .stopped }, events) ∧
      Event.stateChanges events = c.state.change .stopped :=
  c.become_of_canBecome (by cases c.state <;> rfl)

theorem become_started {c : Controller} (h : c.state = .stopped) :
    ∃ events, c.become .started = .ok ({ c with state := .started }, events) ∧
      Event.stateChanges events = Lifecycle.stopped.change .started := by
  rw [← h]
  exact c.become_of_canBecome (by rw [h]; rfl)

theorem opened_refreshes (a : Applied) :
    LiveCache.Refreshes (.retrying p a.driver a.config.fetch.retries.policy)
      (s.begun a, s.world) (s.opened p a) :=
  LiveCache.awaitFirst_refreshes _ _

theorem beginWork_leads {a : Applied} (h : s.controller.state = .stopped)
    (ha : s.controller.applied = some a) {opened : LiveCache Nat × World σ}
    (hopened : LiveCache.Refreshes (.retrying p a.driver a.config.fetch.retries.policy)
      (s.begun a, s.world) opened) :
    Leads p s (s.beginWork a opened).2 := by
  obtain ⟨live, world⟩ := opened
  obtain ⟨events, he, hchange⟩ := become_started h
  rw [beginWork]
  split
  · simp only [become, he]
    have htold : (world.tell events).stateChanges =
        s.world.stateChanges ++ Lifecycle.stopped.change .started := by
      rw [World.stateChanges_tell, hopened.changes, hchange]
    exact .one (.launched _ world h ha rfl rfl hopened rfl htold)
  · exact .one (.quiet rfl ⟨rfl, hopened.changes⟩)

theorem launch_leads (h : s.controller.state = .stopped) : Leads p s (s.launch p).2 := by
  rw [launch]
  cases ha : s.controller.applied with
  | none => exact .refl
  | some a => exact beginWork_leads p s h ha (opened_refreshes p s a)

theorem apply_leads (config : PoolConfig) :
    Leads p s (s.apply p config).2 ∧
      ∀ wasStarted, (s.apply p config).1 = .ok wasStarted →
        (s.apply p config).2.controller.state = .stopped := by
  unfold apply
  split
  · exact ⟨.refl, by simp⟩
  · rename_i hvalid
    split
    · exact ⟨after_leads p _ _, by simp⟩
    · rename_i driver outside heq
      split
      · exact ⟨after_leads p _ _, by simp⟩
      · obtain ⟨events, he, hchange⟩ := become_stopped (s.controller.adopt ⟨config, driver⟩).1
        simp only [become, changed, halt, after, he]
        refine ⟨.one (.configured ⟨config, driver⟩ hvalid rfl rfl ?_), fun _ _ => trivial⟩
        rw [World.stateChanges_tell, World.stateChanges_tell_none _
          (s.controller.stateChanges_adopt _), hchange, Controller.state_adopt]
        rfl

theorem saveConfiguration_leads : Leads p s s.saveConfiguration := by
  unfold saveConfiguration
  split
  · exact .one (.quiet rfl ⟨rfl, rfl⟩)
  · exact .refl

theorem configure_leads (config : PoolConfig) : Leads p s (s.configure p config).2 := by
  obtain ⟨happly, hstopped⟩ := apply_leads p s config
  unfold configure
  split
  · rename_i heq
    rwa [heq] at happly
  · rename_i heq
    rw [heq] at happly
    exact happly.trans (saveConfiguration_leads p _)
  · rename_i s' heq
    rw [heq] at happly hstopped
    have hlaunch := launch_leads p s' (hstopped true rfl)
    split
    · rename_i hl
      rw [hl] at hlaunch
      exact happly.trans hlaunch
    · rename_i hl
      rw [hl] at hlaunch
      split
      · exact happly.trans hlaunch
      · exact (happly.trans hlaunch).trans (saveConfiguration_leads p _)

/-- **A request does nothing but steps that are listed.** -/
theorem respond_leads (request : Request) : Leads p s (s.respond p request).2 := by
  cases request with
  | configure config => exact configure_leads p s config
  | getConfiguration =>
    rw [respond]
    split
    · exact .refl
    · exact .refl
  | start =>
    rw [respond]
    split
    · exact .refl
    · exact .refl
    · rename_i h
      exact launch_leads p s h
  | stop =>
    rw [respond]
    split
    · rename_i h
      obtain ⟨events, he, hchange⟩ := become_stopped s.controller
      simp only [plain, become, changed, halt, he]
      rw [h] at hchange
      exact .one (.halted h rfl rfl (by rw [World.stateChanges_tell, hchange]))
    · exact .refl
  | getStatus => exact .refl
  | reconcile => exact reconcile_leads p s
  | getPool => exact startedView_leads p s
  | getPoolSize => exact poolSize_leads p s
  | setDesired size =>
    rw [respond]
    split
    · exact .refl
    · exact setDesired_leads p s size
  | terminate id decrement => exact terminate_leads p s id decrement
  | attach id => exact machineCall_leads p s id _ (noteAttached_leads p)
  | detach id decrement => exact detach_leads p s id decrement
  | setService id service => exact machineCall_leads p s id _ fun _ => .refl
  | setMembership id membership => exact machineCall_leads p s id _ fun _ => .refl

theorem refreshDue_leads : Leads p s (s.refreshDue p) := by
  unfold refreshDue
  split
  · exact .refl
  · rename_i r hr
    exact .one (.refreshed r _ (running_of_working hr) rfl (LiveCache.settle_refreshes _ _) rfl)

theorem boot_leads (store : Option Store) (world : World σ) :
    Leads p { world, store } (boot p store world) := by
  rw [boot]
  split
  · exact (apply_leads p _ _).1
  · exact .refl

/-- What one step can do to the background work. -/
theorem Moves.running_cases {p : Provider σ} {s s' : Station σ} (h : Moves p s s') :
    s'.running = s.running ∨ s'.running = none ∨
    (∃ r live, s.running = some r ∧ s'.running = some { r with live } ∧
      LiveCache.Refreshes (r.fetcher p) (r.live, s.world) (live, s'.world)) ∨
    ∃ r world, s'.running = some r ∧ r.ticker.period = .ofSeconds r.applied.config.updateInterval ∧
      LiveCache.Refreshes (r.fetcher p) (s.begun r.applied, s.world) (r.live, world) := by
  cases h with
  | quiet _ hw => exact .inl hw.running
  | refreshed r live hr hr' hlive _ => exact .inr (.inr (.inl ⟨r, live, hr, hr', hlive⟩))
  | configured _ _ _ hr _ => exact .inr (.inl hr)
  | launched r world _ _ _ hr hlive hperiod _ =>
    exact .inr (.inr (.inr ⟨r, world, hr, hperiod, hlive⟩))
  | halted _ _ hr _ => exact .inr (.inl hr)
  | resized _ _ hw => exact .inl hw.running
  | viewed _ _ hw => exact .inl hw.running
  | failed _ _ hw => exact .inl hw.running
  | cycled _ _ _ _ _ _ hw => exact .inl hw.running
  | left _ _ _ hw => exact .inl hw.running

theorem Leads.keeps {p : Provider σ} {s s' : Station σ} {good : Station σ → Prop}
    (hstep : ∀ {s s' : Station σ}, Moves p s s' → good s → good s') (h : Leads p s s')
    (hs : good s) : good s' := by
  induction h with
  | refl => exact hs
  | tail _ hm ih => exact hstep hm ih

theorem Reachable.invariant {p : Provider σ} {good : Station σ → Prop}
    (hnew : ∀ store world, good { world, store })
    (hstep : ∀ {s s' : Station σ}, Moves p s s' → good s → good s')
    (hticker : ∀ {s : Station σ} {r : Running} (ticker : Ticker), s.running = some r → good s →
      good { s with running := some { r with ticker } })
    (hworld : ∀ {s : Station σ} (world : World σ), good s → good { s with world })
    {s : Station σ} (h : s.Reachable p) : good s := by
  induction h with
  | boot store world => exact (boot_leads p store world).keeps hstep (hnew store world)
  | @respond s request _ ih => exact (respond_leads p s request).keeps hstep ih
  | @refreshDue s _ ih => exact (refreshDue_leads p s).keeps hstep ih
  | ticker ticker hr _ ih => exact hticker ticker hr ih
  | world world _ _ ih => exact hworld world ih

/-! ## Requests and time -/

theorem Reachable.reconcile {p : Provider σ} {s : Station σ} (h : s.Reachable p) :
    (s.reconcile p).2.Reachable p :=
  h.respond .reconcile

/-- The cycles, the refreshes and the clock keep something. -/
structure Kept (p : Provider σ) (inv : Station σ → Prop) : Prop where
  reconcile {s : Station σ} : inv s → inv (s.reconcile p).2
  refreshDue {s : Station σ} : inv s → inv (s.refreshDue p)
  ticker {s : Station σ} {r : Running} {ticker : Ticker} : s.running = some r →
    ticker.period = r.ticker.period → inv s → inv { s with running := some { r with ticker } }
  later {s : Station σ} (d : Span) : inv s →
    inv { s with world := s.world.atTime (s.world.now.plus d) }

namespace Kept

variable {p : Provider σ} {inv : Station σ → Prop} {s : Station σ}

theorem tick (hk : Kept p inv) (h : inv s) (freeSince : Instant) : inv (s.tick p freeSince) := by
  unfold Station.tick
  split
  · exact h
  · rename_i r hr
    split
    · exact hk.reconcile (hk.ticker (running_of_working hr) (r.ticker.period_fire _) h)
    · exact h

theorem settle (hk : Kept p inv) (h : inv s) (busySince : Instant) : inv (s.settle p busySince) :=
  hk.tick (hk.refreshDue (hk.tick h busySince)) _

/-- What is kept by the answer to a request is kept by all that follows. -/
theorem ask (hk : Kept p inv) (h : inv s) {request : Request}
    (hanswered : inv (s.respond p request).2) : inv (s.ask p request).2 := by
  unfold Station.ask
  split
  · exact h
  · simp only
    split
    · exact hanswered
    · exact hk.settle hanswered _

/-- What is kept by the background work is kept while time passes. -/
theorem advance (hk : Kept p inv) (h : inv s) (nanos : Nat) : inv (s.advance p nanos) := by
  induction nanos using Nat.strongRecOn generalizing s with
  | ind nanos ih =>
    unfold Station.advance
    split
    · exact hk.later _ h
    · rename_i time htime
      simp only
      split
      · exact hk.later _ h
      · rename_i hgap
        have hpos := Nat.le_max_left 1 (time.since s.world.now).toNat
        exact ih _ (by omega) (hk.settle (hk.later _ h) _)

end Kept

theorem kept_reachable (p : Provider σ) : Kept p (Reachable p) where
  reconcile h := h.reconcile
  refreshDue h := h.refreshDue
  ticker hr _ h := h.ticker _ hr
  later d h := h.world _ (Instant.le_plus _ d)

theorem ask_reachable {p : Provider σ} {s : Station σ} (h : s.Reachable p) (request : Request) :
    (s.ask p request).2.Reachable p :=
  (kept_reachable p).ask h (h.respond request)

theorem advance_reachable {p : Provider σ} {s : Station σ} (h : s.Reachable p) (nanos : Nat) :
    (s.advance p nanos).Reachable p :=
  (kept_reachable p).advance h nanos

end Station

/-- A station that was put to work on a configuration, over simulated machines. -/
def Fleet.atWork (config : PoolConfig) : Station Fleet :=
  let new : World Fleet := { now := ⟨0, 0⟩, outside := .new false, files := default }
  let configured := ((Station.boot provider none new).respond provider (.configure config)).2
  (configured.respond provider .start).2

theorem Fleet.atWork_reachable (config : PoolConfig) : (atWork config).Reachable provider :=
  ((Station.Reachable.boot none _).respond _).respond _

end PoolKeeper
