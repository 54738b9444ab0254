import PoolKeeper.Proofs.Chronology
import PoolKeeper.Proofs.Forgetting
import PoolKeeper.Proofs.Naming

/-!
# Stations that have forgotten more

Whether recent actions that every later snapshot shows itself are remembered or forgotten makes no
difference. The next look at the pool forgets them anyway, and nothing else looks at them.

* `Controller.setDesired_forgetting`, `Controller.adopt_forgetting`: changes that do not look there;
* `Station.Past`: a time that no snapshot will come before; `Station.past_boot`: it outlives a
  restart;
* `Station.Faded`, `Station.Fades`: the same station, or one that has forgotten all before that
  time, and answers that both give; **`Station.Faded.view`**: after a look at the pool they are the
  same;
* **`Station.Faded.respond`**, **`Station.Faded.tick`**, **`Station.Faded.refreshDue`**: both answer
  alike and go on alike.
-/

namespace PoolKeeper

variable {σ α : Type}

/-! ## Controllers -/

namespace Controller

variable {t u : Instant} (c : Controller)

/-- The controller once all that was done before a time is forgotten. -/
def forgetting (t : Instant) : Controller := { c with overlay := c.overlay.forget t }

theorem setDesired_forgetting (size : Nat) :
    (c.forgetting t).setDesired size =
      ((c.setDesired size).1.forgetting t, (c.setDesired size).2) := by
  unfold setDesired forgetting
  simp only
  split
  · rfl
  · rfl

theorem raise_forgetting :
    (c.forgetting t).raise = (c.raise.1.forgetting t, c.raise.2) := by
  have hsame : (c.forgetting t).desired = c.desired := rfl
  cases hdesired : c.desired with
  | none => rw [raise_of_none hdesired, raise_of_none (hsame.trans hdesired)]
  | some size =>
    rw [raise_of_some hdesired, raise_of_some (hsame.trans hdesired)]
    split
    · rfl
    · exact c.setDesired_forgetting (size + 1)

theorem forgetOther_forgetting (name : String) :
    (c.forgetting t).forgetOther name = (c.forgetOther name).forgetting t := by
  unfold forgetOther forgetting
  simp only
  split
  · split
    · rfl
    · rw [Overlay.forget_empty]
  · rfl

theorem adopt_forgetting (a : Applied) :
    (c.forgetting t).adopt a = ((c.adopt a).1.forgetting t, (c.adopt a).2) := by
  unfold adopt
  rw [forgetOther_forgetting]
  cases a.config.desiredSize with
  | none => rfl
  | some size =>
    simp only [setDesired_forgetting]
    rfl

theorem become_forgetting (state : Lifecycle) :
    (c.forgetting t).become state =
      (c.become state).map fun change => (change.1.forgetting t, change.2) := by
  unfold become forgetting
  simp only
  split
  · rfl
  · split
    · rfl
    · rfl

end Controller

/-- A request that only asks about the controller or the pool. -/
def Request.isQuery : Request → Bool
  | .getStatus | .getConfiguration | .getPool | .getPoolSize => true
  | _ => false

/-! ## Stations -/

theorem World.Past.saveConfig {store : Option Store} {w : World σ} {t : Instant}
    (h : w.Past store t) {st : Store} (hst : store = some st) (config : PoolConfig) :
    World.Past store t
      { w with
        files := (st.save FileTree.system PoolConfig.codec Station.configFile config w.files).2 }
    where
  clock := h.clock
  now := h.now
  ready hst' := by
    cases hst.symm.trans hst'
    exact (Store.ready_save_iff PoolConfig.codec (by decide) (by decide)).2 (h.ready hst)
  saved hst' hs := by
    cases hst.symm.trans hst'
    refine h.saved hst ?_
    rw [Store.snapshot?_eq] at hs ⊢
    rwa [Store.file?_save_of_ne PoolConfig.codec (by decide) (by decide) (by decide)
      (by decide)] at hs

namespace Station

variable {t : Instant} {p : Provider σ} {s u : Station σ}

/-- A time is over for a station: no snapshot that it sees from now on is from before. -/
structure Past (t : Instant) (s : Station σ) : Prop where
  world : s.world.Past s.store t
  running {r : Running} : s.running = some r → LiveCache.Past s.store t (r.live, s.world)

namespace Past

theorem withController (h : s.Past t) (controller : Controller) :
    Past t { s with controller } := ⟨h.world, h.running⟩

theorem changed (h : s.Past t) (change : Controller × List Event) : (s.changed change).Past t where
  world := h.world.tell _
  running hr := (h.running hr).inWorld fun hw => hw.tell _

theorem after (h : s.Past t) (outside : σ) : (s.after outside).Past t where
  world := h.world.withOutside _
  running hr := (h.running hr).inWorld fun hw => hw.withOutside _

theorem halt (h : s.Past t) : s.halt.Past t := ⟨h.world, fun hr => by cases hr⟩

theorem become (h : s.Past t) (state : Lifecycle) : (s.become state).2.Past t := by
  unfold Station.become
  split
  · exact h.changed _
  · exact h

theorem noteAttached (h : s.Past t) : s.noteAttached.Past t := by
  obtain ⟨hworld, hrunning⟩ := h.changed s.controller.raise
  rw [noteAttached_eq]
  exact ⟨hworld, hrunning⟩

theorem noteGone (h : s.Past t) (id : String) (decrement : Bool) (events : List Event) :
    (s.noteGone id decrement events).Past t := by
  unfold Station.noteGone
  simp only
  split
  · exact (h.changed _).changed _
  · exact h.changed _

theorem refresh (h : s.Past t) (p : Provider σ) : (s.refresh p).Past t := by
  unfold Station.refresh
  split
  · exact h
  · rename_i r hwork
    have hforced := (LiveCache.force_moves (f := r.fetcher p) r.live s.world).past
      (Fetcher.dated_retrying p _ _) (h.running (running_of_working hwork))
    refine ⟨hforced.world, ?_⟩
    rintro _ ⟨⟩
    exact hforced

theorem refreshDue (h : s.Past t) (p : Provider σ) : (s.refreshDue p).Past t := by
  unfold Station.refreshDue
  split
  · exact h
  · rename_i r hwork
    have hsettled := (LiveCache.settle_moves (f := r.fetcher p) r.live s.world).moves.past
      (Fetcher.dated_retrying p _ _) (h.running (running_of_working hwork))
    refine ⟨hsettled.world, ?_⟩
    rintro _ ⟨⟩
    exact hsettled

theorem later (h : s.Past t) (d : Span) :
    Past t { s with world := s.world.atTime (s.world.now.plus d) } where
  world := h.world.later (Instant.le_plus _ d) (Instant.proper_plus _ d)
  running hr := (h.running hr).inWorld fun hw =>
    hw.later (Instant.le_plus _ d) (Instant.proper_plus _ d)

theorem launch (h : s.Past t) (p : Provider σ) : (s.launch p).2.Past t := by
  rw [Station.launch]
  cases s.controller.applied with
  | none => exact h
  | some a =>
    have hopened : ∀ {u}, s.world.Past s.store u → LiveCache.Past s.store u (s.opened p a) :=
      fun hw => (LiveCache.awaitFirst_moves _ s.world).moves.past (Fetcher.dated_retrying p _ _)
        (LiveCache.past_begin hw _ _ _ _)
    show (s.beginWork a (s.opened p a)).2.Past t
    generalize s.opened p a = opened at hopened
    obtain ⟨live, world⟩ := opened
    unfold Station.beginWork
    simp only
    split
    · refine become ⟨(hopened h.world).world, ?_⟩ .started
      rintro _ ⟨⟩
      exact hopened h.world
    · exact ⟨(hopened h.world).world, fun hr => (h.running hr).inWorld fun hw => (hopened hw).world⟩

theorem saveConfiguration (h : s.Past t) : s.saveConfiguration.Past t := by
  unfold Station.saveConfiguration
  split
  · rename_i st a hst _
    exact ⟨h.world.saveConfig hst _, fun hr => (h.running hr).inWorld fun hw => hw.saveConfig hst _⟩
  · exact h

theorem taking (h : s.Past t) (a : Applied) (outside : σ) : (s.taking a outside).Past t :=
  ((h.after outside).halt.changed _).become _

theorem proceed (h : s.Past t) (p : Provider σ) (wasStarted : Bool) :
    (s.proceed p wasStarted).2.Past t := by
  have hlaunched := h.launch p
  unfold Station.proceed
  split
  · split
    · rename_i heq
      rwa [heq] at hlaunched
    · rename_i heq
      rw [heq] at hlaunched
      split
      · exact hlaunched
      · exact hlaunched.saveConfiguration
  · exact h.saveConfiguration

theorem machineCall (h : s.Past t) (p : Provider σ) (id : String)
    (call : DriverId → Instant → σ → Except DriverError Unit × σ) {note : Station σ → Station σ}
    (hnote : ∀ {s : Station σ}, s.Past t → (note s).Past t) :
    (s.machineCall p id call note).2.Past t := by
  unfold Station.machineCall
  split
  · exact h
  · split
    · exact h.after _
    · exact (hnote (h.after _)).refresh p

end Past

/-! ### What does not look at recent actions -/

variable (s)

theorem become_forgetting (state : Lifecycle) :
    (s.forgetting t).become state =
      ((s.become state).1, (s.become state).2.forgetting t) := by
  have hbecome : (s.forgetting t).controller.become state =
      (s.controller.become state).map fun change => (change.1.forgetting t, change.2) :=
    s.controller.become_forgetting state
  unfold become
  rw [hbecome]
  cases s.controller.become state with
  | error e => rfl
  | ok change => rfl

theorem launch_forgetting (p : Provider σ) :
    (s.forgetting t).launch p = ((s.launch p).1, (s.launch p).2.forgetting t) := by
  have happlied : (s.forgetting t).controller.applied = s.controller.applied := rfl
  rw [launch, launch, happlied]
  cases s.controller.applied with
  | none => rfl
  | some a =>
    show (s.forgetting t).beginWork a (s.opened p a) =
      ((s.beginWork a (s.opened p a)).1, (s.beginWork a (s.opened p a)).2.forgetting t)
    generalize s.opened p a = opened
    obtain ⟨live, world⟩ := opened
    unfold beginWork
    simp only
    split
    · exact become_forgetting { s with running := some ⟨a, live, _⟩, world } .started
    · rfl

theorem saveConfiguration_forgetting :
    (s.forgetting t).saveConfiguration = s.saveConfiguration.forgetting t := by
  have hstore : (s.forgetting t).store = s.store := rfl
  have happlied : (s.forgetting t).controller.applied = s.controller.applied := rfl
  unfold saveConfiguration
  rw [hstore, happlied]
  split
  · rfl
  · rfl

theorem taking_forgetting (a : Applied) (outside : σ) :
    (s.forgetting t).taking a outside = (s.taking a outside).forgetting t := by
  have hadopt : (s.forgetting t).controller.adopt a =
      ((s.controller.adopt a).1.forgetting t, (s.controller.adopt a).2) :=
    s.controller.adopt_forgetting a
  unfold taking
  rw [hadopt]
  exact congrArg Prod.snd
    (become_forgetting ((s.after outside).halt.changed (s.controller.adopt a)) .stopped)

theorem proceed_forgetting (p : Provider σ) (wasStarted : Bool) :
    (s.forgetting t).proceed p wasStarted =
      ((s.proceed p wasStarted).1, (s.proceed p wasStarted).2.forgetting t) := by
  unfold proceed
  rw [launch_forgetting, saveConfiguration_forgetting]
  split
  · generalize s.launch p = launched
    obtain ⟨answer, s'⟩ := launched
    cases answer with
    | error e => rfl
    | ok u =>
      have hstuck : (s'.forgetting t).stuck = s'.stuck := rfl
      simp only [hstuck, saveConfiguration_forgetting]
      split
      · rfl
      · rfl
  · rfl

theorem refresh_forgetting (p : Provider σ) :
    (s.forgetting t).refresh p = (s.refresh p).forgetting t := by
  have hworking : (s.forgetting t).working = s.working := rfl
  unfold refresh
  rw [hworking]
  split
  · rfl
  · rfl

theorem refreshDue_forgetting (p : Provider σ) :
    (s.forgetting t).refreshDue p = (s.refreshDue p).forgetting t := by
  have hworking : (s.forgetting t).working = s.working := rfl
  unfold refreshDue
  rw [hworking]
  split
  · rfl
  · rfl

theorem noteAttached_forgetting :
    (s.forgetting t).noteAttached = s.noteAttached.forgetting t := by
  have hraise : (s.forgetting t).controller.raise = _ := s.controller.raise_forgetting
  rw [noteAttached_eq, noteAttached_eq, hraise, Controller.isNone_raiseDesired,
    Controller.isNone_raiseDesired]
  rfl

theorem machineCall_forgetting (p : Provider σ) (id : String)
    (call : DriverId → Instant → σ → Except DriverError Unit × σ) {note : Station σ → Station σ}
    (hnote : ∀ s, note (s.forgetting t) = (note s).forgetting t) :
    (s.forgetting t).machineCall p id call note =
      ((s.machineCall p id call note).1, (s.machineCall p id call note).2.forgetting t) := by
  have hdriver : (s.forgetting t).startedDriver = s.startedDriver := rfl
  have hworld : (s.forgetting t).world = s.world := rfl
  have hafter : ∀ outside, (s.forgetting t).after outside = (s.after outside).forgetting t :=
    fun _ => rfl
  unfold machineCall
  rw [hdriver, hworld]
  split
  · rfl
  · split
    · rfl
    · rw [hafter, hnote, refresh_forgetting]

/-! ### Queries -/

/-- **A query does no more** to a station than forget what the snapshot shows itself, if one is
served. -/
theorem respond_query (p : Provider σ) {request : Request} (hq : request.isQuery = true) :
    (s.respond p request).2 = s ∨
      ∃ snapshot, s.Serves snapshot ∧ (s.respond p request).2 = s.forgetting snapshot.takenAt := by
  have hview := startedView_forgetting s
  cases request with
  | getStatus => exact .inl rfl
  | getConfiguration =>
    left
    unfold respond
    simp only
    split
    · rfl
    · rfl
  | getPool => exact hview
  | getPoolSize =>
    show s.poolSize.2 = s ∨ ∃ snapshot, s.Serves snapshot ∧ s.poolSize.2 = _
    rw [poolSize_snd]
    exact hview
  | _ => cases hq

/-! ### Faded stations -/

/-- A station, and the same or one that has forgotten all before a time that is over. -/
structure Faded (t : Instant) (s u : Station σ) : Prop where
  past : u.Past t
  same : s = u ∨ s = u.forgetting t

/-- Both give the same answer. -/
structure Fades (t : Instant) (x y : α × Station σ) : Prop where
  answer : x.1 = y.1
  faded : Faded t x.2 y.2

/-- Both give the same error, or the same answer and are the same from then on. -/
inductive Joins {ε : Type} (t : Instant) : Except ε α × Station σ → Except ε α × Station σ → Prop
  | error (e : ε) {s u : Station σ} : Faded t s u → Joins t (.error e, s) (.error e, u)
  | ok (a : α) {u : Station σ} : u.Past t → Joins t (.ok a, u) (.ok a, u)

variable {s} {snapshot : Pool} {x y : α × Station σ}

theorem Fades.map {ε β : Type} {x y : Except ε α × Station σ} (h : Fades t x y) (f : α → β) :
    Fades t (x.1.map f, x.2) (y.1.map f, y.2) :=
  ⟨congrArg (Except.map f) h.answer, h.faded⟩

theorem Joins.fades {ε : Type} {x y : Except ε α × Station σ} (h : Joins t x y) : Fades t x y := by
  cases h with
  | error e hf => exact ⟨rfl, hf⟩
  | ok a hv => exact ⟨rfl, hv, .inl rfl⟩

/-- The snapshot that is served is not from before a time that is over. -/
theorem Past.serves (h : s.Past t) (hs : s.Serves snapshot) :
    t ≤ snapshot.takenAt ∧ s.Past snapshot.takenAt := by
  obtain ⟨r, hr, hserve⟩ := hs
  have hcache := h.running hr
  obtain ⟨hle, hpast⟩ := hcache.shown (snapshot_of_serve hserve)
  refine ⟨hle, hpast, fun {r'} hr' => ?_⟩
  cases hr.symm.trans hr'
  refine ⟨hpast, hcache.housed, hcache.wake, fun {pool} hpool => ?_⟩
  cases (snapshot_of_serve hserve).symm.trans hpool
  exact ⟨Instant.le_refl _, hpast⟩

namespace Faded

theorem refl (h : s.Past t) : Faded t s s := ⟨h, .inl rfl⟩

theorem agree {β : Sort*} (h : Faded t s u) {f : Station σ → β}
    (hf : f (u.forgetting t) = f u) : f s = f u := by
  rcases h.same with rfl | rfl
  · rfl
  · exact hf

theorem world (h : Faded t s u) : s.world = u.world := h.agree (f := Station.world) rfl

theorem running (h : Faded t s u) : s.running = u.running := h.agree (f := Station.running) rfl

theorem working (h : Faded t s u) : s.working = u.working := h.agree (f := Station.working) rfl

theorem stuck (h : Faded t s u) : s.stuck = u.stuck := h.agree (f := Station.stuck) rfl

theorem store (h : Faded t s u) : s.store = u.store := h.agree (f := Station.store) rfl

theorem ensureStarted (h : Faded t s u) :
    s.controller.ensureStarted = u.controller.ensureStarted :=
  h.agree (f := fun s => s.controller.ensureStarted) rfl

/-- A step that does not look at recent actions. -/
theorem step (h : Faded t s u) {f : Station σ → Station σ}
    (hf : f (u.forgetting t) = (f u).forgetting t) (hpast : (f u).Past t) :
    Faded t (f s) (f u) := by
  refine ⟨hpast, ?_⟩
  rcases h.same with rfl | rfl
  · exact .inl rfl
  · exact .inr hf

/-- A request whose answer does not depend on them. -/
theorem answer (h : Faded t s u) {f : Station σ → α × Station σ}
    (hf : f (u.forgetting t) = ((f u).1, (f u).2.forgetting t)) (hpast : (f u).2.Past t) :
    Fades t (f s) (f u) := by
  rcases h.same with rfl | rfl
  · exact ⟨rfl, hpast, .inl rfl⟩
  · rw [hf]
    exact ⟨rfl, hpast, .inr rfl⟩

/-! ### Looking at the pool -/

/-- **A look at the pool** shows the same, and from then on the stations are the same. -/
theorem view (h : Faded t s u) : Joins t s.view u.view := by
  rcases view_cases u with ⟨snapshot, hu, heq⟩ | ⟨e, heq⟩
  · obtain ⟨hle, hpast⟩ := h.past.serves hu
    -- Both forget all before the snapshot, and with it all before `t`.
    have hforgetting : (u.forgetting t).view = u.view := by
      have hserved : (u.forgetting t).Serves snapshot := hu
      rw [hserved.view_forgetting, hu.view_forgetting]
      simp only [forgetting, Controller.view, Overlay.apply, Overlay.forget_forget _ hle]
    rw [h.agree (f := Station.view) hforgetting, hu.view_forgetting]
    exact .ok _ (h.past.withController _)
  · rw [heq, view_error_of_running heq h.running (congrArg World.now h.world)]
    exact .error e h

theorem startedView (h : Faded t s u) : Joins t s.startedView u.startedView := by
  unfold Station.startedView
  rw [h.ensureStarted]
  split
  · exact .error _ h
  · exact h.view

theorem memberDriver (h : Faded t s u) (id : String) :
    Joins t (s.memberDriver id) (u.memberDriver id) := by
  have hviewed := h.startedView
  unfold Station.memberDriver
  generalize s.startedView = x at hviewed
  generalize u.startedView = y at hviewed
  cases hviewed with
  | error e hf => exact .error e hf
  | @ok pool v hv =>
    simp only
    split
    · split
      · exact .ok _ hv
      · exact .error _ (.refl hv)
    · exact .error _ (.refl hv)

/-- **A cycle.** -/
theorem reconcile (h : Faded t s u) (p : Provider σ) : Fades t (s.reconcile p) (u.reconcile p) := by
  have hviewed := h.view
  have happlied : s.controller.applied = u.controller.applied :=
    h.agree (f := fun s => s.controller.applied) rfl
  unfold Station.reconcile
  rw [h.ensureStarted, happlied]
  split
  · exact ⟨rfl, h⟩
  · split
    · exact ⟨rfl, h⟩
    · rename_i a _
      generalize s.view = x at hviewed
      generalize u.view = y at hviewed
      cases hviewed with
      | @error e s' u' hf =>
        let note (s : Station σ) : Station σ :=
          { s with controller := { s.controller with lastError := some e.message } }
        exact ⟨rfl, hf.step (f := note) rfl (hf.past.withController _)⟩
      | ok pool hv =>
        obtain ⟨hworld, hrunning⟩ := (hv.after _).changed _
        exact ⟨rfl, .refl ⟨hworld, hrunning⟩⟩

theorem removeBy {ε : Type} (h : Faded t s u) (p : Provider σ) (id : String) (decrement : Bool)
    (events : List Event) (call : DriverId → Instant → σ → Except ε Unit × σ)
    (why : ε → ControllerError) :
    Fades t (s.removeBy p id decrement events call why)
      (u.removeBy p id decrement events call why) := by
  have hmember := h.memberDriver id
  unfold Station.removeBy
  generalize s.memberDriver id = x at hmember
  generalize u.memberDriver id = y at hmember
  cases hmember with
  | error e hf => exact ⟨rfl, hf⟩
  | @ok d v hv =>
    simp only
    split
    · exact ⟨rfl, .refl (hv.after _)⟩
    · exact ⟨rfl, .refl (((hv.after _).noteGone id decrement events).refresh p)⟩

/-! ### Requests -/

theorem configure (h : Faded t s u) (p : Provider σ) (config : PoolConfig) :
    Fades t (s.configure p config) (u.configure p config) := by
  -- Whether the configuration is taken on does not depend on recent actions.
  rcases configure_alike p config (s := u.forgetting t) (t := u) rfl rfl rfl with
    ⟨e, outside, hs, hu⟩ | ⟨d, outside, wasStarted, hs, hu⟩
  · have hpast : (u.configure p config).2.Past t := by
      rw [hu]
      exact h.past.after outside
    refine h.answer ?_ hpast
    rw [hs, hu]
    rfl
  · have hpast : (u.configure p config).2.Past t := by
      rw [hu]
      exact (h.past.taking _ outside).proceed p wasStarted
    refine h.answer ?_ hpast
    rw [hs, hu, taking_forgetting, proceed_forgetting]

theorem machineCall (h : Faded t s u) (p : Provider σ) (id : String)
    (call : DriverId → Instant → σ → Except DriverError Unit × σ) {note : Station σ → Station σ}
    (hnote : ∀ s, note (s.forgetting t) = (note s).forgetting t)
    (hpast : ∀ {s : Station σ}, s.Past t → (note s).Past t) :
    Fades t (s.machineCall p id call note) (u.machineCall p id call note) :=
  h.answer (machineCall_forgetting u p id call hnote) (h.past.machineCall p id call hpast)

theorem poolSize (h : Faded t s u) : Fades t s.poolSize u.poolSize := by
  have hviewed := h.startedView
  unfold Station.poolSize
  generalize s.startedView = x at hviewed
  generalize u.startedView = y at hviewed
  cases hviewed with
  | error e hf => exact ⟨rfl, hf⟩
  | @ok pool v hv =>
    simp only
    split
    · exact ⟨rfl, .refl hv⟩
    · exact ⟨rfl, .refl hv⟩

/-- **Requests are answered alike**, queries among them. -/
theorem respond (h : Faded t s u) (p : Provider σ) (request : Request) :
    Fades t (s.respond p request) (u.respond p request) := by
  cases request with
  | configure config => exact (h.configure p config).map _
  | getConfiguration =>
    refine h.answer (f := fun s => s.respond p .getConfiguration) ?_ ?_
    · have happlied : (u.forgetting t).controller.applied = u.controller.applied := rfl
      simp only [Station.respond, happlied]
      split
      · rfl
      · rfl
    · simp only [Station.respond]
      split
      · exact h.past
      · exact h.past
  | start =>
    refine h.answer (f := fun s => s.respond p .start) ?_ ?_
    · have hstate : (u.forgetting t).controller.state = u.controller.state := rfl
      simp only [Station.respond, hstate]
      split
      · rfl
      · rfl
      · rw [launch_forgetting]
        rfl
    · simp only [Station.respond]
      split
      · exact h.past
      · exact h.past
      · exact h.past.launch p
  | stop =>
    refine h.answer (f := fun s => s.respond p .stop) ?_ ?_
    · have hstate : (u.forgetting t).controller.state = u.controller.state := rfl
      have hhalt : (u.forgetting t).halt = u.halt.forgetting t := rfl
      simp only [Station.respond, hstate, hhalt]
      split
      · rw [become_forgetting]
        rfl
      · rfl
    · simp only [Station.respond]
      split
      · exact h.past.halt.become _
      · exact h.past
  | getStatus => exact h.answer (f := fun s => s.respond p .getStatus) rfl h.past
  | reconcile => exact (h.reconcile p).map _
  | getPool => exact h.startedView.fades.map _
  | getPoolSize => exact h.poolSize.map _
  | setDesired size =>
    refine h.answer (f := fun s => s.respond p (.setDesired size)) ?_ ?_
    · have hstate : (u.forgetting t).controller.state = u.controller.state := rfl
      have hset : (u.forgetting t).controller.setDesired size = _ :=
        u.controller.setDesired_forgetting size
      simp only [Station.respond, hstate, hset]
      split
      · rfl
      · rfl
    · simp only [Station.respond]
      split
      · exact h.past
      · exact h.past.changed _
  | terminate id decrement =>
    refine Fades.map ?_ _
    rw [terminate_eq_removeBy, terminate_eq_removeBy]
    exact h.removeBy p id decrement _ _ _
  | attach id =>
    exact (h.machineCall p id _ noteAttached_forgetting fun hs => hs.noteAttached).map _
  | detach id decrement =>
    refine Fades.map ?_ _
    rw [detach_eq_removeBy, detach_eq_removeBy]
    exact h.removeBy p id decrement _ _ _
  | setService id service =>
    refine Fades.map ?_ _
    exact h.machineCall p id _ (fun _ => rfl) fun hs => hs
  | setMembership id membership =>
    refine Fades.map ?_ _
    exact h.machineCall p id _ (fun _ => rfl) fun hs => hs

/-- **A query to one of them** makes it forget more, and that makes no difference, either. -/
theorem query (h : Faded t s u) (p : Provider σ) {request : Request}
    (hq : request.isQuery = true) : ∃ t', Faded t' (s.respond p request).2 u := by
  rcases s.respond_query p hq with heq | ⟨snapshot, hs, heq⟩
  · rw [heq]
    exact ⟨t, h⟩
  · have hu : u.Serves snapshot := by
      unfold Serves
      rw [← h.running, ← h.world]
      exact hs
    obtain ⟨hle, hpast⟩ := h.past.serves hu
    rw [heq]
    -- Only `s` was asked, so it has forgotten all before the snapshot and `u` has not.
    refine ⟨snapshot.takenAt, hpast, .inr ?_⟩
    rcases h.same with rfl | rfl
    · rfl
    · simp only [forgetting, Overlay.forget_forget _ hle]

/-! ### Background work -/

theorem refreshDue (h : Faded t s u) (p : Provider σ) :
    Faded t (s.refreshDue p) (u.refreshDue p) :=
  h.step (f := fun s => s.refreshDue p) (refreshDue_forgetting u p) (h.past.refreshDue p)

/-- **A cycle that may be due.** -/
theorem tick (h : Faded t s u) (p : Provider σ) (freeSince : Instant) :
    Faded t (s.tick p freeSince) (u.tick p freeSince) := by
  have hnow : s.world.now = u.world.now := by rw [h.world]
  unfold Station.tick
  rw [h.working, hnow]
  split
  · exact h
  · rename_i r hwork
    have hcache := h.past.running (running_of_working hwork)
    split
    · let ticker := r.ticker.fire (freeSince.latest r.ticker.due)
      let go (s : Station σ) : Station σ := { s with running := some { r with ticker } }
      have hpast : (go u).Past t := by
        refine ⟨h.past.world, ?_⟩
        rintro _ ⟨⟩
        exact hcache
      exact ((h.step (f := go) rfl hpast).reconcile p).faded
    · exact h

end Faded

/-! ### Restarts -/

theorem past_boot {store : Option Store} {w : World σ} (h : w.Past store t) (p : Provider σ) :
    (boot p store w).Past t := by
  have hnew : Past t ({ world := w, store } : Station σ) := ⟨h, fun hr => by cases hr⟩
  unfold boot
  simp only
  split
  · rename_i config _
    let new : Station σ := { world := w, store }
    rcases apply_alike p config (s := new) (t := new) rfl rfl with
      ⟨e, outside, heq, _⟩ | ⟨d, outside, heq, _⟩
    · rw [heq]
      exact hnew.after outside
    · rw [heq]
      exact hnew.taking _ outside
  · exact hnew

end Station

end PoolKeeper
