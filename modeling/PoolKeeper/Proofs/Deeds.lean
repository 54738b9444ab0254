import PoolKeeper.Proofs.Requests
import PoolKeeper.Proofs.Saving

/-!
# What a station does to the world

Whatever a controller is asked, its background work and the world around it change in few ways.

* `Provider.Calls`: what a call to a driver leaves outside;
* `Station.Deed`: all that one step can do to the background work and the world;
* `Station.Does`: a station keeps its store and does no more than such steps;
  **`Station.respond_does`**, **`Station.ask_does`**, **`Station.advance_does`**: so do requests
  other than to configure, and time;
* `Provider.Takes`, **`Station.configure_outcome`**: what comes of a request to configure;
* `Store.Intact`, **`Station.Does.intact`**: the saved configuration stays as it is, and nothing
  comes in its way.
-/

namespace PoolKeeper

variable {σ : Type}

/-- A call to a driver, and what it leaves outside. -/
inductive Provider.Calls (p : Provider σ) (now : Instant) (s : σ) : σ → Prop
  | create (config : DriverConfig) : Calls p now s (p.create config s).2
  | configure (d : DriverId) (name : String) (config : DriverConfig) :
    Calls p now s (p.configure d name config now s).2
  | start (d : DriverId) (count : Nat) : Calls p now s (p.start d count now s).2
  | terminate (d : DriverId) (ids : List String) : Calls p now s (p.terminate d ids now s).2
  | attach (d : DriverId) (id : String) : Calls p now s (p.attach d id now s).2
  | detach (d : DriverId) (id : String) : Calls p now s (p.detach d id now s).2
  | setService (d : DriverId) (id : String) (service : ServiceState) :
    Calls p now s (p.setService d id service now s).2
  | setMembership (d : DriverId) (id : String) (membership : Membership) :
    Calls p now s (p.setMembership d id membership now s).2

/-- A provider takes a configuration: it makes a driver, and the driver takes the settings. -/
def Provider.Takes (p : Provider σ) (config : PoolConfig) (now : Instant) (s : σ) (d : DriverId)
    (s' : σ) : Prop :=
  ∃ made, p.create config.driver s = (.ok d, made) ∧
    p.configure d config.name config.driver now made = (.ok (), s')

/-- A cycle starts machines, or not, and then terminates some, or not. -/
theorem Controller.calls_reconcile (p : Provider σ) (a : Applied) (view : Pool) (now : Instant)
    (c : Controller) (outside : σ) :
    Relation.ReflTransGen (p.Calls now) outside (c.reconcile p a view now outside).2.2.2 := by
  let t : Turn σ := ⟨p, a, view, now, c, outside⟩
  have hstarted : Relation.ReflTransGen (p.Calls now) outside t.midway := by
    unfold Turn.midway
    split
    · exact .refl
    · exact .single (.start a.driver t.requested)
  show Relation.ReflTransGen (p.Calls now) outside t.outcome.2.2.2
  by_cases hvalid : t.Valid
  · by_cases hgoes : t.GoesThrough
    · rw [t.outcome_of_goesThrough hvalid hgoes, t.closing_outside]
      show Relation.ReflTransGen (p.Calls now) outside (if t.due.isEmpty then _ else _)
      split
      · exact hstarted
      · exact hstarted.tail (.terminate a.driver t.due)
    · rw [t.outcome_of_not_goesThrough hvalid hgoes]
      exact hstarted
  · rw [t.outcome_of_not_valid hvalid]

namespace Station

/-- What one step can do to the background work and the world. -/
inductive Deed (p : Provider σ) (store : Option Store) :
    Option Running × World σ → Option Running × World σ → Prop
  | tell (r : Option Running) (w : World σ) (events : List Event) :
    Deed p store (r, w) (r, w.tell events)
  | later (r : Option Running) (w : World σ) (time : Instant) : w.now ≤ time →
    Deed p store (r, w) (r, w.atTime time)
  | call (r : Option Running) {w : World σ} {outside : σ} : p.Calls w.now w.outside outside →
    Deed p store (r, w) (r, { w with outside })
  | refresh {r : Running} {w w' : World σ} {live : LiveCache Nat} :
    LiveCache.Moves (r.fetcher p) (r.live, w) (live, w') →
    Deed p store (some r, w) (some { r with live }, w')
  | ticker (r : Running) (w : World σ) (ticker : Ticker) :
    Deed p store (some r, w) (some { r with ticker }, w)
  /-- A new cache waits for its first fetch, which never ends. -/
  | wait (r : Option Running) {a : Applied} {w w' : World σ} {live : LiveCache Nat} :
    LiveCache.Moves (.retrying p a.driver a.config.fetch.retries.policy)
      (begun a { world := w, store }, w) (live, w') →
    Deed p store (r, w) (r, w')
  | launch (r : Option Running) {a : Applied} {w w' : World σ} {live : LiveCache Nat}
    (ticker : Ticker) :
    LiveCache.Moves (.retrying p a.driver a.config.fetch.retries.policy)
      (begun a { world := w, store }, w) (live, w') →
    Deed p store (r, w) (some ⟨a, live, ticker⟩, w')
  | halt (r : Option Running) (w : World σ) : Deed p store (r, w) (none, w)

/-- A station keeps its store, and no more than deeds are done. -/
structure Does (p : Provider σ) (s s' : Station σ) : Prop where
  store : s'.store = s.store
  deeds : Relation.ReflTransGen (Deed p s.store) (s.running, s.world) (s'.running, s'.world)

namespace Does

variable {p : Provider σ} {s s' s'' : Station σ}

theorem refl (s : Station σ) : Does p s s := ⟨rfl, .refl⟩

theorem trans (h : Does p s s') (h' : Does p s' s'') : Does p s s'' where
  store := h'.store.trans h.store
  deeds := h.deeds.trans (h.store ▸ h'.deeds)

theorem one (hs : s'.store = s.store)
    (hd : Deed p s.store (s.running, s.world) (s'.running, s'.world)) : Does p s s' :=
  ⟨hs, .single hd⟩

theorem withStuck (h : Does p s s') (stuck : Bool) : Does p s { s' with stuck } :=
  ⟨h.store, h.deeds⟩

end Does

variable (p : Provider σ) (s : Station σ)

/-! ## Small steps -/

theorem controller_does (controller : Controller) : Does p s { s with controller } := ⟨rfl, .refl⟩

theorem changed_does (change : Controller × List Event) : Does p s (s.changed change) :=
  .one rfl (.tell _ _ _)

theorem after_does {outside : σ} (h : p.Calls s.world.now s.world.outside outside) :
    Does p s (s.after outside) :=
  .one rfl (.call _ h)

theorem calls_does {outside : σ}
    (h : Relation.ReflTransGen (p.Calls s.world.now) s.world.outside outside) :
    Does p s (s.after outside) := by
  induction h with
  | refl => exact .refl s
  | tail _ hcall ih => exact ih.trans (after_does p _ hcall)

theorem halt_does : Does p s s.halt := .one rfl (.halt _ _)

theorem become_does (state : Lifecycle) : Does p s (s.become state).2 := by
  unfold become
  split
  · exact changed_does p s _
  · exact .refl s

/-! ## Views and cycles -/

theorem view_does : Does p s s.view.2 := by
  rcases view_cases s with ⟨snapshot, _, heq⟩ | ⟨e, heq⟩
  · rw [heq]
    exact controller_does p s _
  · rw [heq]
    exact .refl s

theorem startedView_does : Does p s s.startedView.2 := by
  unfold startedView
  split
  · exact .refl s
  · exact view_does p s

theorem reconcile_does : Does p s (s.reconcile p).2 := by
  unfold reconcile
  split
  · exact .refl s
  · split
    · exact .refl s
    · rename_i a _
      have hview := view_does p s
      generalize s.view = viewed at hview
      obtain ⟨answer, s'⟩ := viewed
      cases answer with
      | error e => exact hview.trans (controller_does p s' _)
      | ok pool =>
        have hcycle := calls_does p s'
          (s'.controller.calls_reconcile p a pool s'.world.now s'.world.outside)
        exact ((hview.trans hcycle).trans (changed_does p _ _)).withStuck _

/-! ## Machines that leave and join -/

theorem refresh_does : Does p s (s.refresh p) := by
  unfold refresh
  split
  · exact .refl s
  · rename_i r hr
    have hrunning := running_of_working hr
    exact .one rfl (hrunning ▸ .refresh (LiveCache.force_moves r.live s.world))

theorem memberDriver_does (id : String) : Does p s (s.memberDriver id).2 := by
  rw [memberDriver_snd]
  exact startedView_does p s

theorem noteGone_does (id : String) (decrement : Bool) (events : List Event) :
    Does p s (s.noteGone id decrement events) := by
  unfold noteGone
  simp only
  split
  · exact (changed_does p s _).trans (changed_does p _ _)
  · exact changed_does p s _

theorem noteAttached_does : Does p s s.noteAttached := by
  rw [noteAttached_eq]
  exact (changed_does p s _).withStuck _

theorem removeBy_does {ε : Type} (id : String) (decrement : Bool) (events : List Event)
    (call : DriverId → Instant → σ → Except ε Unit × σ) (why : ε → ControllerError)
    (hcall : ∀ d now outside, p.Calls now outside (call d now outside).2) :
    Does p s (s.removeBy p id decrement events call why).2 := by
  have hmember := memberDriver_does p s id
  unfold removeBy
  split
  · rename_i heq
    rwa [heq] at hmember
  · rename_i d s' heq
    rw [heq] at hmember
    have hafter := hmember.trans (after_does p s' (hcall d s'.world.now s'.world.outside))
    split
    · rename_i hfailed
      rwa [hfailed] at hafter
    · rename_i hdone
      rw [hdone] at hafter
      exact (hafter.trans (noteGone_does p _ id decrement events)).trans (refresh_does p _)

theorem machineCall_does (id : String)
    (call : DriverId → Instant → σ → Except DriverError Unit × σ) {note : Station σ → Station σ}
    (hcall : ∀ d now outside, p.Calls now outside (call d now outside).2)
    (hnote : ∀ s, Does p s (note s)) : Does p s (s.machineCall p id call note).2 := by
  unfold machineCall
  split
  · exact .refl s
  · rename_i d _
    have hafter := after_does p s (hcall d s.world.now s.world.outside)
    split
    · rename_i hfailed
      rwa [hfailed] at hafter
    · rename_i hdone
      rw [hdone] at hafter
      exact (hafter.trans (hnote _)).trans (refresh_does p _)

theorem poolSize_does : Does p s s.poolSize.2 := by
  rw [poolSize_snd]
  exact startedView_does p s

/-! ## Configuring, starting and stopping -/

theorem launch_does : Does p s (s.launch p).2 := by
  rw [launch]
  cases s.controller.applied with
  | none => exact .refl s
  | some a =>
    have hopened : LiveCache.Moves (.retrying p a.driver a.config.fetch.retries.policy)
        (begun a { world := s.world, store := s.store }, s.world) (s.opened p a) :=
      (LiveCache.awaitFirst_moves _ _).moves
    show Does p s (s.beginWork a (s.opened p a)).2
    generalize s.opened p a = opened at hopened
    obtain ⟨live, world⟩ := opened
    rw [beginWork]
    split
    · have hbegun : Does p s { s with
          running := some ⟨a, live, ⟨world.now, .ofSeconds a.config.updateInterval⟩⟩, world } :=
        .one rfl (.launch _ _ hopened)
      exact hbegun.trans (become_does p _ _)
    · exact .one rfl (.wait _ hopened)

theorem apply_does (config : PoolConfig) : Does p s (s.apply p config).2 := by
  unfold apply
  split
  · exact .refl s
  · have hcreate := after_does p s (.create config.driver)
    split
    · rename_i heq
      rwa [heq] at hcreate
    · rename_i driver outside heq
      rw [heq] at hcreate
      have hconfigure : Does p s (s.after
          (p.configure driver config.name config.driver s.world.now outside).2) :=
        hcreate.trans (after_does p _ (.configure driver config.name config.driver))
      split
      · rename_i heq'
        rwa [heq'] at hconfigure
      · rename_i outside' heq'
        rw [heq'] at hconfigure
        have hhalted : Does p s (s.after outside').halt := hconfigure.trans (halt_does p _)
        have hadopted := hhalted.trans
          (changed_does p _ ((s.after outside').halt.controller.adopt ⟨config, driver⟩))
        have hstopped := hadopted.trans (become_does p _ .stopped)
        simp only
        split
        · rename_i heq''
          rw [heq''] at hstopped
          exact hstopped
        · rename_i heq''
          rw [heq''] at hstopped
          exact hstopped

/-- **A request does no more than deeds**, apart from the configuration that it saves. -/
theorem respond_does {request : Request} (h : ∀ config, request ≠ .configure config) :
    Does p s (s.respond p request).2 := by
  cases request with
  | configure config => exact absurd rfl (h config)
  | getConfiguration =>
    rw [respond]
    split
    · exact .refl s
    · exact .refl s
  | start =>
    rw [respond]
    split
    · exact .refl s
    · exact .refl s
    · exact launch_does p s
  | stop =>
    rw [respond]
    split
    · exact (halt_does p s).trans (become_does p _ _)
    · exact .refl s
  | getStatus => exact .refl s
  | reconcile => exact reconcile_does p s
  | getPool => exact startedView_does p s
  | getPoolSize => exact poolSize_does p s
  | setDesired size =>
    rw [respond]
    split
    · exact .refl s
    · exact changed_does p s _
  | terminate id decrement =>
    show Does p s (s.terminate p id decrement).2
    rw [terminate_eq_removeBy]
    exact removeBy_does p s id decrement _ _ _ fun d _ _ => .terminate d [id]
  | attach id =>
    exact machineCall_does p s id _ (fun d _ _ => .attach d id) fun s => noteAttached_does p s
  | detach id decrement =>
    show Does p s (s.detach p id decrement).2
    rw [detach_eq_removeBy]
    exact removeBy_does p s id decrement _ _ _ fun d _ _ => .detach d id
  | setService id service =>
    exact machineCall_does p s id _ (fun d _ _ => .setService d id service) fun s => .refl s
  | setMembership id membership =>
    exact machineCall_does p s id _ (fun d _ _ => .setMembership d id membership) fun s => .refl s

/-! ## Configurations that are taken and refused -/

/-- The station with a configuration in force and no background work. -/
def adopted (a : Applied) (outside : σ) (events : List Event) (s : Station σ) : Station σ :=
  { s with
    controller := { (s.controller.adopt a).1 with state := .stopped }
    running := none
    world := World.tell { s.world with outside } events }

variable {p s} {config : PoolConfig} {d : DriverId} {outside : σ} {a : Applied}

theorem apply_of_takes (hvalid : config.validate = .ok ())
    (h : p.Takes config s.world.now s.world.outside d outside) :
    ∃ events, s.apply p config =
      (.ok (s.controller.state = .started), s.adopted ⟨config, d⟩ outside events) := by
  obtain ⟨made, hcreate, hconfigure⟩ := h
  obtain ⟨events, he, _⟩ := become_stopped (s.controller.adopt ⟨config, d⟩).1
  refine ⟨(s.controller.adopt ⟨config, d⟩).2 ++ events, ?_⟩
  simp only [apply, hvalid, hcreate, hconfigure, become, changed, halt, after, he, adopted,
    World.tell, List.append_assoc]

/-- **A configuration is put in force, or there is an error** and nothing but a driver has
changed. -/
theorem apply_outcome (p : Provider σ) (s : Station σ) (config : PoolConfig) :
    (∃ e outside, s.apply p config = (.error e, s.after outside)) ∨
      config.validate = .ok () ∧
        ∃ d outside, p.Takes config s.world.now s.world.outside d outside := by
  unfold apply
  split
  · exact .inl ⟨_, s.world.outside, rfl⟩
  · rename_i hvalid
    split
    · exact .inl ⟨_, _, rfl⟩
    · rename_i d made hcreate
      split
      · exact .inl ⟨_, _, rfl⟩
      · rename_i outside hconfigure
        exact .inr ⟨hvalid, d, outside, made, hcreate, hconfigure⟩

/-- A station that begins applies the configuration on file, if there is one. -/
theorem boot_does (p : Provider σ) (store : Option Store) (world : World σ) :
    Does p { world, store } (boot p store world) := by
  rw [boot]
  split
  · exact apply_does p _ _
  · exact .refl _

theorem launch_outcome (p : Provider σ) (h : s.controller.state = .stopped)
    (ha : s.controller.applied = some a) :
    ∃ s', s.launch p = (.ok (), s') ∧ s'.controller.applied = some a ∧ Does p s s' := by
  have hdoes := launch_does p s
  obtain ⟨events, he, _⟩ := become_started h
  have heq : s.launch p = s.beginWork a (s.opened p a) := by rw [launch, ha]
  rw [heq] at hdoes ⊢
  generalize s.opened p a = opened at hdoes ⊢
  obtain ⟨live, world⟩ := opened
  unfold beginWork at hdoes ⊢
  simp only [become, changed, he] at hdoes ⊢
  split at hdoes
  · exact ⟨_, if_pos ‹_›, ha, hdoes⟩
  · exact ⟨_, if_neg ‹_›, ha, hdoes⟩

theorem configure_of_idle {s' : Station σ} (h : s.apply p config = (.ok false, s')) :
    s.configure p config = (.ok (), s'.saveConfiguration) :=
  (configure_of_apply h).trans rfl

theorem configure_of_started {s' s'' : Station σ} (h : s.apply p config = (.ok true, s'))
    (hlaunch : s'.launch p = (.ok (), s'')) :
    s.configure p config = (.ok (), if s''.stuck then s'' else s''.saveConfiguration) := by
  rw [configure_of_apply h, proceed, if_pos rfl]
  simp only [hlaunch]

theorem saveConfiguration_eq (s : Station σ) :
    ∃ files, s.saveConfiguration = { s with world := { s.world with files } } := by
  unfold saveConfiguration
  split
  · exact ⟨_, rfl⟩
  · exact ⟨s.world.files, rfl⟩

theorem configure_does (p : Provider σ) (s : Station σ) (config : PoolConfig) :
    ∃ s', Does p s s' ∧
      ((s.configure p config).2 = s' ∨ (s.configure p config).2 = s'.saveConfiguration) := by
  have happly := apply_does p s config
  rcases apply_outcome p s config with ⟨e, outside, heq⟩ | ⟨hvalid, d, outside, htakes⟩
  · rw [heq] at happly
    exact ⟨s.after outside, happly, .inl (by simp only [configure, heq])⟩
  · obtain ⟨events, heq⟩ := apply_of_takes hvalid htakes
    simp only [heq] at happly
    by_cases hstarted : s.controller.state = .started
    · rw [decide_eq_true hstarted] at heq
      obtain ⟨s', hlaunch, happlied, hdoes⟩ :=
        launch_outcome p (s := s.adopted ⟨config, d⟩ outside events) rfl rfl
      refine ⟨s', happly.trans hdoes, ?_⟩
      rw [configure_of_started heq hlaunch]
      split
      · exact .inl rfl
      · exact .inr rfl
    · rw [decide_eq_false hstarted] at heq
      exact ⟨_, happly, .inr (congrArg Prod.snd (configure_of_idle heq))⟩

/-- **A request to configure** is refused, and nothing but a driver has changed; or it is never
answered; or the configuration is in force and saved. -/
theorem configure_outcome (p : Provider σ) (hs : s.stuck = false) (config : PoolConfig) :
    (∃ e outside, s.configure p config = (.error e, s.after outside)) ∨
      (∃ s', s.configure p config = (.ok (), s') ∧ s'.stuck = true ∧ Does p s s') ∨
      ∃ d outside s', config.validate = .ok () ∧
        p.Takes config s.world.now s.world.outside d outside ∧
        s'.controller.applied = some ⟨config, d⟩ ∧ s'.stuck = false ∧ Does p s s' ∧
        s.configure p config = (.ok (), s'.saveConfiguration) := by
  have happly := apply_does p s config
  rcases apply_outcome p s config with ⟨e, outside, heq⟩ | ⟨hvalid, d, outside, htakes⟩
  · exact .inl ⟨e, outside, by simp only [configure, heq]⟩
  · obtain ⟨events, heq⟩ := apply_of_takes hvalid htakes
    simp only [heq] at happly
    by_cases hstarted : s.controller.state = .started
    · rw [decide_eq_true hstarted] at heq
      obtain ⟨s', hlaunch, happlied, hdoes⟩ :=
        launch_outcome p (s := s.adopted ⟨config, d⟩ outside events) rfl rfl
      have hconfigured := configure_of_started heq hlaunch
      by_cases hstuck : s'.stuck = true
      · rw [if_pos hstuck] at hconfigured
        exact .inr (.inl ⟨s', hconfigured, hstuck, happly.trans hdoes⟩)
      · rw [if_neg hstuck] at hconfigured
        rw [Bool.not_eq_true] at hstuck
        exact .inr (.inr
          ⟨d, outside, s', hvalid, htakes, happlied, hstuck, happly.trans hdoes, hconfigured⟩)
    · rw [decide_eq_false hstarted] at heq
      exact .inr (.inr ⟨d, outside, s.adopted ⟨config, d⟩ outside events, hvalid, htakes, rfl, hs,
        happly, configure_of_idle heq⟩)

variable (p s)

/-! ## Time -/

theorem refreshDue_does : Does p s (s.refreshDue p) := by
  unfold refreshDue
  split
  · exact .refl s
  · rename_i r hr
    have hrunning := running_of_working hr
    exact .one rfl (hrunning ▸ .refresh (LiveCache.settle_moves r.live s.world).moves)

theorem kept_does : Kept p (Does p s) where
  reconcile h := h.trans (reconcile_does p _)
  refreshDue h := h.trans (refreshDue_does p _)
  ticker hr _ h := h.trans (.one rfl (hr ▸ .ticker _ _ _))
  later d h := h.trans (.one rfl (.later _ _ _ (Instant.le_plus _ d)))

theorem settle_does (busySince : Instant) : Does p s (s.settle p busySince) :=
  (kept_does p s).settle (.refl s) busySince

theorem ask_does {request : Request} (h : ∀ config, request ≠ .configure config) :
    Does p s (s.ask p request).2 :=
  (kept_does p s).ask (.refl s) (respond_does p s h)

theorem advance_does (nanos : Nat) : Does p s (s.advance p nanos) :=
  (kept_does p s).advance (.refl s) nanos

end Station

/-! ## Saved configurations -/

/-- The saved configuration stays, and nothing comes in the way of a document or goes away. -/
structure Store.Intact (store : Store) (t t' : FileTree) : Prop where
  config : t'.file? (store.path Station.configFile) = t.file? (store.path Station.configFile)
  ready {name : String} : IsName name → (store.Ready name t' ↔ store.Ready name t)

theorem Store.Intact.refl (store : Store) (t : FileTree) : store.Intact t t := ⟨rfl, fun _ => .rfl⟩

theorem Store.Intact.trans {store : Store} {t t' t'' : FileTree} (h : store.Intact t t')
    (h' : store.Intact t' t'') : store.Intact t t'' :=
  ⟨h'.config.trans h.config, fun hn => (h'.ready hn).trans (h.ready hn)⟩

/-- A snapshot is no configuration. -/
theorem Store.intact_save (store : Store) (snapshot : Snapshot) (t : FileTree) :
    store.Intact t (store.save FileTree.system Snapshot.codec Snapshot.file snapshot t).2 where
  config := file?_save_of_ne Snapshot.codec (by decide) (by decide) (by decide) (by decide)
  ready hn := ready_save_iff Snapshot.codec (by decide) hn

namespace LiveCache

variable {ρ : Type} {f : Fetcher σ ρ} {forced : Bool} {a b : LiveCache ρ × World σ} {store : Store}

theorem Move.store_eq (h : Move f forced a b) : b.1.store = a.1.store := by
  cases h with
  | schedule _ hc _ => exact hc.store
  | later _ _ _ _ => rfl
  | wait _ _ => rfl
  | publish _ _ => rfl
  | crash _ _ _ => rfl
  | fail _ _ _ => rfl

theorem publish_intact {c : LiveCache ρ} (hs : c.store = some store)
    (result : Except FetchError Pool) (w : World σ) :
    store.Intact w.files (c.publish result w).2.files := by
  cases result with
  | ok pool =>
    simp only [publish_ok, save, hs]
    exact store.intact_save _ _
  | error e =>
    simp only [publish_error]
    split
    · exact .refl _ _
    · exact .refl _ _

theorem Move.intact (h : Move f forced a b) (hs : a.1.store = some store) :
    store.Intact a.2.files b.2.files := by
  cases h with
  | schedule _ _ _ => exact .refl _ _
  | later _ _ _ _ => exact .refl _ _
  | wait _ _ => exact .refl _ _
  | @publish c w result outside _ => exact publish_intact hs result { w with outside }
  | crash _ _ _ => exact .refl _ _
  | fail _ _ _ => exact .refl _ _

theorem Moves.store_eq (h : Moves f a b) : b.1.store = a.1.store := by
  induction h with
  | refl => rfl
  | tail _ hm ih =>
    obtain ⟨_, hm⟩ := hm
    exact hm.store_eq.trans ih

theorem Moves.intact (h : Moves f a b) (hs : a.1.store = some store) :
    store.Intact a.2.files b.2.files := by
  induction h with
  | refl => exact .refl _ _
  | tail h hm ih =>
    obtain ⟨_, hm⟩ := hm
    exact ih.trans (hm.intact ((Moves.store_eq h).trans hs))

end LiveCache

namespace Station

variable {p : Provider σ} {s s' : Station σ}

/-- The background work saves its snapshots where the station does. -/
def Housed (store : Option Store) (work : Option Running) : Prop :=
  ∀ r, work = some r → r.live.store = store

theorem Deed.housed {store : Option Store} {x y : Option Running × World σ}
    (h : Deed p store x y) (hx : Housed store x.1) : Housed store y.1 := by
  cases h with
  | tell _ _ _ => exact hx
  | later _ _ _ _ => exact hx
  | call _ _ => exact hx
  | refresh hmoves =>
    rintro _ ⟨⟩
    exact hmoves.store_eq.trans (hx _ rfl)
  | ticker r _ _ =>
    rintro _ ⟨⟩
    exact hx r rfl
  | wait _ _ => exact hx
  | launch _ _ hmoves =>
    rintro _ ⟨⟩
    exact hmoves.store_eq
  | halt _ _ =>
    rintro _ ⟨⟩

theorem Deed.intact {store : Store} {x y : Option Running × World σ}
    (h : Deed p (some store) x y) (hx : Housed (some store) x.1) :
    store.Intact x.2.files y.2.files := by
  cases h with
  | tell _ _ _ => exact .refl _ _
  | later _ _ _ _ => exact .refl _ _
  | call _ _ => exact .refl _ _
  | refresh hmoves => exact hmoves.intact (hx _ rfl)
  | ticker _ _ _ => exact .refl _ _
  | wait _ hmoves => exact hmoves.intact rfl
  | launch _ _ hmoves => exact hmoves.intact rfl
  | halt _ _ => exact .refl _ _

theorem housed_deeds {store : Option Store} {x y : Option Running × World σ}
    (h : Relation.ReflTransGen (Deed p store) x y) (hx : Housed store x.1) : Housed store y.1 := by
  induction h with
  | refl => exact hx
  | tail _ hd ih => exact hd.housed ih

theorem intact_deeds {store : Store} {x y : Option Running × World σ}
    (h : Relation.ReflTransGen (Deed p (some store)) x y) (hx : Housed (some store) x.1) :
    store.Intact x.2.files y.2.files := by
  induction h with
  | refl => exact .refl _ _
  | tail h hd ih => exact ih.trans (hd.intact (housed_deeds h hx))

theorem Does.housed (h : Does p s s') (hs : Housed s.store s.running) :
    Housed s'.store s'.running := by
  rw [h.store]
  exact housed_deeds h.deeds hs

/-- **The saved configuration stays as it is**, and nothing comes in its way. -/
theorem Does.intact (h : Does p s s') (hs : Housed s.store s.running) {store : Store}
    (hstore : s.store = some store) : store.Intact s.world.files s'.world.files := by
  have hdeeds := h.deeds
  rw [hstore] at hdeeds hs
  exact intact_deeds hdeeds hs

end Station

end PoolKeeper
