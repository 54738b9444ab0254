import PoolKeeper.Proofs.Requests

/-!
# The life of a station

* `Lifecycle.follow`: the state that a row of told changes leads to, if each is allowed;
* `Station.OnRecord`: the stations that come about while nobody else touches the events and the
  period of the ticker; `Station.ask_onRecord`, `Station.advance_onRecord`;
* `Station.Orderly`, **`Station.OnRecord.orderly`**: the changes that were told lead to the state,
  and the background work has the periods of its configuration;
* `Regular`, **`Station.regular_respond`**: no request is answered by an error that tells of a
  controller that lost its way;
* **`Station.lifecycle`**: all of this, in every station on record.
-/

namespace PoolKeeper

/-! ## Changes of state -/

namespace Lifecycle

/-- The state that a row of changes leads to, if each begins where the one before it ended and is
allowed. -/
def follow (state : Lifecycle) : List (String × String) → Option Lifecycle
  | [] => some state
  | (before, after) :: rest =>
    match table.lookup after with
    | none => none
    | some next =>
      if before = state.text ∧ state.canBecome next = true then next.follow rest else none

theorem follow_append (state : Lifecycle) (first rest : List (String × String)) :
    state.follow (first ++ rest) = (state.follow first).bind fun next => next.follow rest := by
  induction first generalizing state with
  | nil => rfl
  | cons change first ih =>
    obtain ⟨before, after⟩ := change
    rw [List.cons_append, follow, follow]
    cases table.lookup after with
    | none => rfl
    | some next =>
      simp only
      split
      · exact ih next
      · rfl

/-- A controller may go from one state to another, or stay. -/
def Leads (before after : Lifecycle) : Prop := before = after ∨ before.canBecome after = true

theorem follow_change {before after : Lifecycle} (h : before.Leads after) :
    before.follow (before.change after) = some after := by
  rcases h with rfl | h
  · rw [change_self]
    rfl
  · revert h
    cases before <;> cases after <;> decide

end Lifecycle

namespace Station

variable {σ : Type} {p : Provider σ} {s s' : Station σ}

/-- What a step tells of a change of state, and which changes there are. -/
theorem Moves.told (hm : Moves p s s') (h : s.Sound) :
    s.controller.state.Leads s'.controller.state ∧
      s'.world.stateChanges =
        s.world.stateChanges ++ s.controller.state.change s'.controller.state := by
  have hsame : s'.controller.state = s.controller.state → Steady s s' →
      s.controller.state.Leads s'.controller.state ∧
        s'.world.stateChanges =
          s.world.stateChanges ++ s.controller.state.change s'.controller.state := by
    intro hstate hw
    rw [hstate, Lifecycle.change_self, List.append_nil]
    exact ⟨.inl rfl, hw.changes⟩
  cases hm with
  | quiet he hw => exact hsame (by rw [he]) hw
  | refreshed r live _ _ hlive he =>
    rw [he, Lifecycle.change_self, List.append_nil]
    exact ⟨.inl rfl, hlive.changes⟩
  | configured a _ he _ hchanges =>
    rw [he]
    exact ⟨.inr (by cases s.controller.state <;> rfl), hchanges⟩
  | launched r world hstopped _ he _ _ _ hchanges =>
    rw [he, hstopped]
    exact ⟨.inr rfl, hchanges⟩
  | halted hstarted he _ hchanges =>
    rw [he, hstarted]
    exact ⟨.inr rfl, hchanges⟩
  | resized size he hw => exact hsame (by rw [he]) hw
  | viewed snapshot he hw => exact hsame (by rw [he]; rfl) hw
  | failed message he hw => exact hsame (by rw [he]) hw
  | cycled a view now outside ha he hw =>
    have hcycle := Controller.applied_reconcile h.controller ha p view now outside
    exact hsame (by rw [he]; exact hcycle.1) hw
  | left id time he hw => exact hsame (by rw [he]) hw

theorem Moves.configured_iff (hm : Moves p s s') (hs : s.Sound)
    (h : s.controller.state = .unconfigured ↔ s.controller.applied = none) :
    s'.controller.state = .unconfigured ↔ s'.controller.applied = none := by
  cases hm with
  | quiet he _ => rw [he]; exact h
  | refreshed r live _ _ _ he => rw [he]; exact h
  | configured a _ he _ _ =>
    rw [he]
    exact iff_of_false (fun hstate => by cases hstate) fun hnone => by cases hnone
  | launched r world _ happlied he _ _ _ _ =>
    rw [he, happlied]
    exact iff_of_false (fun hstate => by cases hstate) fun hnone => by cases hnone
  | halted hstarted he _ _ =>
    have hconfigured : s.controller.applied ≠ none := fun hnone => by
      rw [h.2 hnone] at hstarted
      cases hstarted
    rw [he]
    exact iff_of_false (fun hstate => by cases hstate) hconfigured
  | resized size he _ => rw [he]; exact h
  | viewed snapshot he _ => rw [he]; exact h
  | failed message he _ => rw [he]; exact h
  | cycled a view now outside ha he _ =>
    obtain ⟨hstate, happlied⟩ := Controller.applied_reconcile hs.controller ha p view now outside
    rw [he, hstate, happlied]
    exact h
  | left id time he _ => rw [he]; exact h

/-! ## Stations on record -/

/-- What comes about by requests, background work and time while the world around may change, but
the events stay on record and the ticker keeps its period. -/
inductive OnRecord (p : Provider σ) : Station σ → Prop
  | boot (store : Option Store) (world : World σ) : world.events = [] →
    OnRecord p (boot p store world)
  | respond {s : Station σ} (request : Request) : OnRecord p s → OnRecord p (s.respond p request).2
  | refreshDue {s : Station σ} : OnRecord p s → OnRecord p (s.refreshDue p)
  | ticker {s : Station σ} {r : Running} {ticker : Ticker} : s.running = some r →
    ticker.period = r.ticker.period → OnRecord p s →
    OnRecord p { s with running := some { r with ticker } }
  | world {s : Station σ} (world : World σ) : s.world.now ≤ world.now →
    world.events = s.world.events → OnRecord p s → OnRecord p { s with world }

theorem OnRecord.reachable (h : s.OnRecord p) : s.Reachable p := by
  induction h with
  | boot store world _ => exact .boot store world
  | respond request _ ih => exact ih.respond request
  | refreshDue _ ih => exact ih.refreshDue
  | ticker hr _ _ ih => exact ih.ticker _ hr
  | world world hnow _ _ ih => exact ih.world world hnow

theorem kept_onRecord (p : Provider σ) : Kept p (OnRecord p) where
  reconcile h := h.respond .reconcile
  refreshDue h := h.refreshDue
  ticker hr hperiod h := h.ticker hr hperiod
  later d h := h.world _ (Instant.le_plus _ d) rfl

theorem ask_onRecord (h : s.OnRecord p) (request : Request) : (s.ask p request).2.OnRecord p :=
  (kept_onRecord p).ask h (h.respond request)

theorem advance_onRecord (h : s.OnRecord p) (nanos : Nat) : (s.advance p nanos).OnRecord p :=
  (kept_onRecord p).advance h nanos

/-- There is a configuration unless the station was never configured, the background work has the
periods that it asks for, and the changes that were told lead to the state. -/
structure Orderly (s : Station σ) : Prop where
  configured : s.controller.state = .unconfigured ↔ s.controller.applied = none
  cycles : ∀ r, s.running = some r → r.ticker.period = .ofSeconds r.applied.config.updateInterval
  refreshes : ∀ r t, s.running = some r → r.live.ticker = some t →
    t.period = .ofSeconds r.applied.config.fetch.refreshInterval
  told : Lifecycle.unconfigured.follow s.world.stateChanges = some s.controller.state

theorem Orderly.move (hm : Moves p s s') (hs : s.Sound) (h : s.Orderly) : s'.Orderly where
  configured := hm.configured_iff hs h.configured
  cycles := by
    rcases hm.running_cases with hsame | hnone | ⟨r, live, hr, hr', _⟩ | ⟨r, _, hr', hperiod, _⟩
    · rw [hsame]
      exact h.cycles
    · rw [hnone]
      exact fun _ hr => by cases hr
    · rw [hr']
      rintro _ ⟨⟩
      exact h.cycles r hr
    · rw [hr']
      rintro _ ⟨⟩
      exact hperiod
  refreshes := by
    rcases hm.running_cases with hsame | hnone | ⟨r, live, hr, hr', hlive⟩ | ⟨r, _, hr', _, hlive⟩
    · rw [hsame]
      exact h.refreshes
    · rw [hnone]
      exact fun _ _ hr => by cases hr
    · rw [hr']
      rintro _ t ⟨⟩ ht
      obtain ⟨t', ht', hperiod⟩ := hlive.period t ht
      exact hperiod.trans (h.refreshes r t' hr ht')
    · rw [hr']
      rintro _ t ⟨⟩ ht
      obtain ⟨t', ht', hperiod⟩ := hlive.period t ht
      rw [hperiod]
      simp only [begun, LiveCache.begin] at ht'
      split at ht'
      · cases ht'
      · cases ht'
        rfl
  told := by
    obtain ⟨hleads, hchanges⟩ := hm.told hs
    rw [hchanges, Lifecycle.follow_append, h.told]
    exact Lifecycle.follow_change hleads

/-- **Every station on record is orderly.** -/
theorem OnRecord.orderly (h : s.OnRecord p) : s.Orderly := by
  -- only of a sound controller a cycle is known to keep the state
  have hmoves : ∀ {s s' : Station σ}, Moves p s s' → s.Sound ∧ s.Orderly → s'.Sound ∧ s'.Orderly :=
    fun hm hs => ⟨hs.1.move hm, hs.2.move hm hs.1⟩
  induction h with
  | boot store world hevents =>
    have hnew : Orderly ({ world, store } : Station σ) := by
      refine ⟨⟨fun _ => rfl, fun _ => rfl⟩, fun _ hr => (by cases hr), fun _ _ hr => (by cases hr),
        ?_⟩
      show Lifecycle.unconfigured.follow (Event.stateChanges world.events) = _
      rw [hevents]
      rfl
    exact ((boot_leads p store world).keeps hmoves ⟨sound_new store world, hnew⟩).2
  | @respond s request h ih =>
    exact ((respond_leads p s request).keeps hmoves ⟨h.reachable.sound, ih⟩).2
  | @refreshDue s h ih =>
    exact ((refreshDue_leads p s).keeps hmoves ⟨h.reachable.sound, ih⟩).2
  | @ticker s r ticker hr hperiod _ ih =>
    refine ⟨ih.configured, ?_, ?_, ih.told⟩
    · rintro _ ⟨⟩
      exact hperiod.trans (ih.cycles r hr)
    · rintro _ t ⟨⟩ ht
      exact ih.refreshes r t hr ht
  | @world s world _ hevents _ ih =>
    refine ⟨ih.configured, ih.cycles, ih.refreshes, ?_⟩
    show Lifecycle.unconfigured.follow (Event.stateChanges world.events) = _
    rw [hevents]
    exact ih.told

end Station

/-! ## Answers -/

/-- The controller went to a state that it may not go to, or could not plan. -/
def ControllerError.isInternal : ControllerError → Bool
  | invalidTransition .. | plan _ => true
  | _ => false

/-- The answer does not tell of a controller that lost its way. -/
def Regular {α : Type} (answer : Except ControllerError α) : Prop :=
  ∀ e, answer = .error e → e.isInternal = false

theorem regular_ok {α : Type} (a : α) : Regular (.ok a : Except ControllerError α) :=
  fun _ h => by cases h

theorem regular_error {α : Type} {e : ControllerError} (h : e.isInternal = false) :
    Regular (.error e : Except ControllerError α) := by
  rintro _ ⟨⟩
  exact h

namespace Regular

variable {α β : Type} {answer : Except ControllerError α} {e : ControllerError}

theorem error (h : Regular answer) (he : answer = .error e) :
    Regular (.error e : Except ControllerError β) :=
  regular_error (h e he)

theorem map (h : Regular answer) (f : α → β) : Regular (answer.map f) := by
  cases answer with
  | error e => exact h.error rfl
  | ok a => exact regular_ok _

end Regular

theorem ControllerError.isInternal_forMachine (id : String) (e : DriverError) :
    (forMachine id e).isInternal = false := by
  unfold forMachine
  split
  · rfl
  · rfl

theorem PoolConfig.regular_validate (config : PoolConfig) : Regular config.validate := by
  unfold validate
  split
  · exact regular_error rfl
  · exact regular_ok _

theorem Controller.regular_ensureStarted (c : Controller) : Regular c.ensureStarted := by
  unfold ensureStarted
  split
  · exact regular_ok _
  · exact regular_error rfl
  · exact regular_error rfl

namespace Station

variable {σ : Type} (p : Provider σ) (s : Station σ)

theorem isInternal_terminationError (id : String) (e : TerminateError) :
    (terminationError id e).isInternal = false := by
  unfold terminationError
  split
  · exact ControllerError.isInternal_forMachine _ _
  · rfl

theorem isInternal_refusal (e : DriverError) : (refusal e).isInternal = false := by
  unfold refusal
  split
  · rfl
  · rfl

theorem regular_view : Regular s.view.1 := by
  unfold view
  split
  · exact regular_error rfl
  · split
    · exact regular_error rfl
    · exact regular_ok _

theorem regular_startedView : Regular s.startedView.1 := by
  unfold startedView
  split
  · rename_i he
    exact s.controller.regular_ensureStarted.error he
  · exact s.regular_view

theorem regular_memberDriver (id : String) : Regular (s.memberDriver id).1 := by
  have hview := s.regular_startedView
  unfold memberDriver
  split
  · rename_i heq
    exact hview.error (by rw [heq])
  · split
    · split
      · exact regular_ok _
      · exact regular_error rfl
    · exact regular_error rfl

theorem regular_startedDriver : Regular s.startedDriver := by
  unfold startedDriver
  split
  · rename_i he
    exact s.controller.regular_ensureStarted.error he
  · split
    · exact regular_ok _
    · exact regular_error rfl

theorem regular_removeBy {ε : Type} (id : String) (decrement : Bool) (events : List Event)
    (call : DriverId → Instant → σ → Except ε Unit × σ) {why : ε → ControllerError}
    (hwhy : ∀ e, (why e).isInternal = false) :
    Regular (s.removeBy p id decrement events call why).1 := by
  have hmember := s.regular_memberDriver id
  unfold removeBy
  split
  · rename_i heq
    exact hmember.error (by rw [heq])
  · split
    · exact regular_error (hwhy _)
    · exact regular_ok _

theorem regular_machineCall (id : String)
    (call : DriverId → Instant → σ → Except DriverError Unit × σ) (note : Station σ → Station σ) :
    Regular (s.machineCall p id call note).1 := by
  unfold machineCall
  split
  · rename_i he
    exact s.regular_startedDriver.error he
  · split
    · exact regular_error (ControllerError.isInternal_forMachine _ _)
    · exact regular_ok _

theorem regular_poolSize : Regular s.poolSize.1 := by
  have hview := s.regular_startedView
  unfold poolSize
  split
  · rename_i heq
    exact hview.error (by rw [heq])
  · split
    · exact regular_error rfl
    · exact regular_ok _

/-- A sound station can always plan. -/
theorem regular_reconcile (h : s.Sound) : Regular (s.reconcile p).1 := by
  rcases view_cases s with ⟨snapshot, hs, _⟩ | ⟨e, heq⟩
  · obtain ⟨a, ha⟩ := h.serving hs
    by_cases hgoes : (s.turn p a snapshot).GoesThrough
    · rw [reconcile_eq ha hs hgoes]
      exact regular_ok _
    · rw [reconcile_of_not_goesThrough ha hs hgoes]
      exact regular_error rfl
  · unfold reconcile
    split
    · rename_i he
      exact s.controller.regular_ensureStarted.error he
    · split
      · exact regular_error rfl
      · rw [heq]
        exact s.regular_view.error (by rw [heq])

/-- A stopped station can always go to work. -/
theorem regular_launch (h : s.controller.state = .stopped) : Regular (s.launch p).1 := by
  rw [launch]
  cases s.controller.applied with
  | none => exact regular_error rfl
  | some a =>
    obtain ⟨events, he, _⟩ := become_started h
    show Regular (s.beginWork a (s.opened p a)).1
    generalize s.opened p a = opened
    obtain ⟨live, world⟩ := opened
    rw [beginWork]
    split
    · simp only [become, he]
      exact regular_ok _
    · exact regular_ok _

theorem regular_apply {config : PoolConfig}
    (hcreate : Regular (p.create config.driver s.world.outside).1) :
    Regular (s.apply p config).1 := by
  unfold apply
  split
  · rename_i he
    exact config.regular_validate.error he
  · split
    · rename_i heq
      exact hcreate.error (by rw [heq])
    · rename_i driver outside _
      split
      · exact regular_error (isInternal_refusal _)
      · obtain ⟨events, he, _⟩ := become_stopped (s.controller.adopt ⟨config, driver⟩).1
        simp only [become, changed, halt, after, he]
        exact regular_ok _

theorem regular_configure {config : PoolConfig}
    (hcreate : Regular (p.create config.driver s.world.outside).1) :
    Regular (s.configure p config).1 := by
  have happly := regular_apply p s hcreate
  have hstopped := (apply_leads p s config).2
  unfold configure
  split
  · rename_i heq
    exact happly.error (by rw [heq])
  · exact regular_ok _
  · rename_i s' heq
    rw [heq] at hstopped
    have hlaunch := regular_launch p s' (hstopped true rfl)
    split
    · rename_i hl
      exact hlaunch.error (by rw [hl])
    · exact regular_ok _

theorem regular_plain {answer : Except ControllerError Unit × Station σ} (h : Regular answer.1) :
    Regular (plain answer).1 :=
  h.map _

/-- **No request is answered by an error that tells of a controller that lost its way**, unless the
driver factory gives it. -/
theorem regular_respond (h : s.Sound) {request : Request}
    (hcreate : ∀ config, request = .configure config →
      Regular (p.create config.driver s.world.outside).1) :
    Regular (s.respond p request).1 := by
  cases request with
  | configure config => exact regular_plain (regular_configure p s (hcreate config rfl))
  | getConfiguration =>
    rw [respond]
    split
    · exact regular_ok _
    · exact regular_error rfl
  | start =>
    rw [respond]
    split
    · exact regular_error rfl
    · exact regular_ok _
    · rename_i hstopped
      exact regular_plain (regular_launch p s hstopped)
  | stop =>
    rw [respond]
    split
    · obtain ⟨events, he, _⟩ := become_stopped s.controller
      simp only [plain, become, changed, halt, he]
      exact regular_ok _
    · exact regular_ok _
  | getStatus => exact regular_ok _
  | reconcile => exact (regular_reconcile p s h).map _
  | getPool => exact s.regular_startedView.map _
  | getPoolSize => exact s.regular_poolSize.map _
  | setDesired size =>
    rw [respond]
    split
    · exact regular_error rfl
    · exact regular_ok _
  | terminate id decrement =>
    have hremove := regular_removeBy p s id decrement [.machinesTerminated [id]]
      (fun d => p.terminate d [id]) (isInternal_terminationError id)
    rw [← terminate_eq_removeBy] at hremove
    exact regular_plain hremove
  | attach id => exact regular_plain (regular_machineCall p s id _ _)
  | detach id decrement =>
    have hremove := regular_removeBy p s id decrement [] (fun d => p.detach d id)
      (ControllerError.isInternal_forMachine id)
    rw [← detach_eq_removeBy] at hremove
    exact regular_plain hremove
  | setService id service => exact regular_plain (regular_machineCall p s id _ _)
  | setMembership id membership => exact regular_plain (regular_machineCall p s id _ _)

variable {p s}

theorem periods_pos_of_validate {config : PoolConfig} (h : config.validate = .ok ()) :
    0 < config.updateInterval ∧ 0 < config.fetch.refreshInterval := by
  rw [PoolConfig.validate] at h
  split at h
  · cases h
  · rename_i hnone
    unfold PoolConfig.fault? at hnone
    split_ifs at hnone with _ _ _ _ hrefresh _ hupdate
    exact ⟨Nat.pos_of_ne_zero hupdate, Nat.pos_of_ne_zero hrefresh⟩

/-- **The life of a station.** However a station on record came about, it is unconfigured exactly
without a configuration, and at work exactly when it is started; the configuration in force is valid,
and both loops of the background work have its periods, which are not zero; the changes of state that
were told lead, each of them allowed, from the beginning to the state; and no request is answered by
an invalid transition or a plan that failed, unless the driver factory answers so. -/
theorem lifecycle (h : s.OnRecord p) :
    (s.controller.state = .unconfigured ↔ s.controller.applied = none) ∧
      (s.controller.state = .started ↔ s.running.isSome = true) ∧
      (∀ a, s.controller.applied = some a → a.config.validate = .ok () ∧
        0 < a.config.updateInterval ∧ 0 < a.config.fetch.refreshInterval) ∧
      (∀ r, s.running = some r → s.controller.applied = some r.applied ∧
        (r.ticker.period = .ofSeconds r.applied.config.updateInterval ∧
          0 < r.ticker.period.nanos) ∧
        ∀ t, r.live.ticker = some t →
          t.period = .ofSeconds r.applied.config.fetch.refreshInterval ∧ 0 < t.period.nanos) ∧
      Lifecycle.unconfigured.follow s.world.stateChanges = some s.controller.state ∧
      ∀ request, (∀ config, request = .configure config →
          Regular (p.create config.driver s.world.outside).1) →
        Regular (s.respond p request).1 := by
  have hsound := h.reachable.sound
  have horderly := h.orderly
  have hvalid := hsound.controller.valid
  refine ⟨horderly.configured, hsound.started_iff,
    fun a ha => ⟨hvalid a ha, periods_pos_of_validate (hvalid a ha)⟩, fun r hr => ?_,
    horderly.told, fun request => regular_respond p s hsound⟩
  have happlied := hsound.applied_of_running hr
  obtain ⟨hupdate, hrefresh⟩ := periods_pos_of_validate (hvalid _ happlied)
  have hcycles := horderly.cycles r hr
  refine ⟨happlied, ⟨hcycles, ?_⟩, fun t ht => ?_⟩
  · rw [hcycles]
    exact Nat.mul_pos hupdate (by decide)
  · have hperiod := horderly.refreshes r t hr ht
    rw [hperiod]
    exact ⟨rfl, Nat.mul_pos hrefresh (by decide)⟩

end Station

/-- The factory of simulated drivers refuses other kinds as invalid. -/
theorem Fleet.regular_create (config : DriverConfig) (f : Fleet) :
    Regular (provider.create config f).1 := by
  show Regular (create config f).1
  unfold create
  split
  · exact regular_ok _
  · exact regular_error rfl

namespace Station

/-- A station that was configured and started, and configured anew while it was at work. -/
def reconfigured : Station Fleet :=
  let config : PoolConfig :=
    { name := "web", driver := ⟨Cloud.kind, .array [.null, .nat 0, .nat 1]⟩ }
  ((Fleet.atWork config).respond Fleet.provider (.configure { config with updateInterval := 5 })).2

theorem lifecycle_reconfigured :
    reconfigured.OnRecord Fleet.provider ∧ reconfigured.controller.state = .started ∧
      reconfigured.world.stateChanges =
        [("unconfigured", "stopped"), ("stopped", "started"), ("started", "stopped"),
          ("stopped", "started")] ∧
      (∃ r, reconfigured.running = some r ∧ r.ticker.period = .ofSeconds 5) ∧
      ∀ request, Regular (reconfigured.respond Fleet.provider request).1 := by
  have hrecord : reconfigured.OnRecord Fleet.provider :=
    (((OnRecord.boot none _ rfl).respond _).respond _).respond _
  have hstate : reconfigured.controller.state = .started := by decide +kernel
  have hinterval : reconfigured.controller.applied.map (·.config.updateInterval) = some 5 := by
    decide +kernel
  obtain ⟨_, hstarted, _, hloops, _, hanswers⟩ := lifecycle hrecord
  obtain ⟨r, hr⟩ := Option.isSome_iff_exists.1 (hstarted.1 hstate)
  obtain ⟨happlied, ⟨hperiod, _⟩, _⟩ := hloops r hr
  rw [happlied] at hinterval
  have hfive : r.applied.config.updateInterval = 5 := Option.some.inj hinterval
  refine ⟨hrecord, hstate, by decide +kernel, ⟨r, hr, by rw [hperiod, hfive]⟩, fun request => ?_⟩
  exact hanswers request fun config _ => Fleet.regular_create config.driver _

end Station

end PoolKeeper
