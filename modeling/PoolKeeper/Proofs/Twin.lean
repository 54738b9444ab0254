import PoolKeeper.Proofs.Alike
import PoolKeeper.Proofs.Deeds
import PoolKeeper.Proofs.Naming

/-!
# Twins

Two stations with pools of one name that differ only in what they noted of their last cycles, and
in what is saved of other pools, go the same way.

* `Store.Matches`, `World.Shared`: worlds that a cache for the pool cannot tell apart;
  `Store.Foreign`, `Store.Matches.of_foreign`: snapshots of other pools are the same to it as none;
* `Station.Twin`, `Station.Paired`: twins, and answers that twins give alike; one lemma per function
  of a station;
* `Station.twin_taking`: how stations become twins;
* **`Station.Twin.respond`**, **`Station.Twin.ask`**, **`Station.Twin.advance`**: twins answer alike
  apart from their notes, and stay twins as long as their pool keeps its name.
-/

namespace PoolKeeper

variable {σ : Type}

/-! ## Worlds -/

/-- Nothing tells two trees apart for the cache of a pool: the same snapshot of it was saved, and
something stands in the way of the next one in both or in neither. -/
structure Store.Matches (store : Store) (poolName : String) (t u : FileTree) : Prop where
  restored : Cache.restored FileTree.system store poolName t =
    Cache.restored FileTree.system store poolName u
  ready : store.Ready Snapshot.file t ↔ store.Ready Snapshot.file u

/-- The snapshot that was saved, if there is one that can be read, is of a pool of another name. -/
def Store.Foreign (store : Store) (poolName : String) (t : FileTree) : Prop :=
  ∀ s ∈ (t.file? (store.path Snapshot.file)).bind Snapshot.codec.ofText?, s.poolName ≠ poolName

instance (store : Store) (poolName : String) (t : FileTree) :
    Decidable (store.Foreign poolName t) :=
  inferInstanceAs (Decidable (∀ s : Snapshot, s ∈ _ → s.poolName ≠ poolName))

namespace Store.Matches

variable {store : Store} {poolName : String} {t u : FileTree}

/-- Snapshots of other pools do not tell trees apart. -/
theorem of_foreign (ht : store.Foreign poolName t) (hu : store.Foreign poolName u)
    (hready : store.Ready Snapshot.file t ↔ store.Ready Snapshot.file u) :
    store.Matches poolName t u where
  restored := by
    have hnone : ∀ {t : FileTree}, store.Foreign poolName t →
        Cache.restored FileTree.system store poolName t = none := by
      intro t h
      rw [Cache.restored_eq, Option.bind_eq_none_iff]
      exact fun s hs => if_neg (h s hs)
    rw [hnone ht, hnone hu]
  ready := hready

theorem save (h : store.Matches poolName t u) (snapshot : Snapshot) :
    store.Matches poolName
      (store.save FileTree.system Snapshot.codec Snapshot.file snapshot t).2
      (store.save FileTree.system Snapshot.codec Snapshot.file snapshot u).2 where
  restored := by
    rw [Cache.restored_eq, Cache.restored_eq, file?_save Snapshot.codec Snapshot.isName_file,
      file?_save Snapshot.codec Snapshot.isName_file]
    by_cases hready : store.Ready Snapshot.file t
    · rw [if_pos hready, if_pos (h.ready.1 hready)]
    · rw [if_neg hready, if_neg (fun hr => hready (h.ready.2 hr)), ← Cache.restored_eq,
        ← Cache.restored_eq, h.restored]
  ready := by
    rw [ready_save_iff Snapshot.codec Snapshot.isName_file Snapshot.isName_file,
      ready_save_iff Snapshot.codec Snapshot.isName_file Snapshot.isName_file, h.ready]

theorem saveConfig (h : store.Matches poolName t u) (config config' : PoolConfig) :
    store.Matches poolName
      (store.save FileTree.system PoolConfig.codec Station.configFile config t).2
      (store.save FileTree.system PoolConfig.codec Station.configFile config' u).2 where
  restored := by
    have hother : ∀ (config : PoolConfig) (t : FileTree),
        (store.save FileTree.system PoolConfig.codec Station.configFile config t).2.file?
          (store.path Snapshot.file) = t.file? (store.path Snapshot.file) := fun _ _ =>
      file?_save_of_ne PoolConfig.codec (by decide) (by decide) (by decide) (by decide)
    rw [Cache.restored_eq, Cache.restored_eq, hother, hother, ← Cache.restored_eq,
      ← Cache.restored_eq, h.restored]
  ready := by
    rw [ready_save_iff PoolConfig.codec (by decide) (by decide),
      ready_save_iff PoolConfig.codec (by decide) (by decide), h.ready]

end Store.Matches

/-- Worlds that differ in what was told before, and in files that a cache for the pool does not
read. -/
structure World.Shared (o : Origin σ) (store : Option Store) (v w : World σ) : Prop where
  now : v.now = w.now
  outside : v.outside = w.outside
  events : ∃ events, v.events = o.left.world.events ++ events ∧
    w.events = o.right.world.events ++ events
  files (st : Store) : store = some st → st.Matches o.poolName v.files w.files

namespace World.Shared

variable {o : Origin σ} {store : Option Store} {v w : World σ}

theorem atTime (h : Shared o store v w) (time : Instant) :
    Shared o store (v.atTime time) (w.atTime time) :=
  { h with now := rfl }

theorem tell (h : Shared o store v w) (events : List Event) :
    Shared o store (v.tell events) (w.tell events) where
  now := h.now
  outside := h.outside
  events := by
    obtain ⟨told, hv, hw⟩ := h.events
    exact ⟨told ++ events, by rw [World.tell, hv, List.append_assoc],
      by rw [World.tell, hw, List.append_assoc]⟩
  files := h.files

theorem withOutside (h : Shared o store v w) (outside : σ) :
    Shared o store { v with outside } { w with outside } :=
  { h with outside := rfl }

/-- Fetches do not tell such worlds apart. -/
theorem agree (o : Origin σ) (store : Option Store) (f : Fetcher σ Nat) :
    f.Agree f store (Shared o store) where
  now h := h.now
  later time h := h.atTime time
  tell events h := h.tell events
  save {v w c} pool hstore h := by
    unfold LiveCache.save
    split
    · exact h
    · rename_i st hst
      refine { h with files := fun st' hst' => ?_ }
      rw [← hstore, hst] at hst'
      cases hst'
      exact (h.files st (hstore.symm.trans hst)).save _
  begin {v w} h := by
    have hcall : f.begin v.now v.outside = f.begin w.now w.outside := by rw [h.now, h.outside]
    rw [hcall]
    exact ⟨rfl, h.withOutside _⟩
  resume {v w} point h := by
    have hcall : f.resume point v.now v.outside = f.resume point w.now w.outside := by
      rw [h.now, h.outside]
    rw [hcall]
    exact ⟨rfl, h.withOutside _⟩

end World.Shared

/-! ## Stations -/

namespace Station

/-- Two stations with pools of one name that differ in what was noted and told before, and in files
that a cache for the pool does not read. -/
structure Twin (o : Origin σ) (s t : Station σ) : Prop where
  controller : s.controller.Akin o t.controller
  running : s.running = t.running
  world : World.Shared o s.store s.world t.world
  store : s.store = t.store
  stuck : s.stuck = t.stuck
  housed : Housed s.store s.running
  name : s.poolName = some o.poolName

/-- The same answer, and twins that gave it. -/
structure Paired {α : Type} (o : Origin σ) (x y : α × Station σ) : Prop where
  answer : x.1 = y.1
  twin : Twin o x.2 y.2

variable {o : Origin σ} {s t : Station σ} {a : Applied} {α : Type}

theorem Paired.cases {ε : Type} {x y : Except ε α × Station σ} (h : Paired o x y) :
    (∃ e s t, x = (.error e, s) ∧ y = (.error e, t) ∧ Twin o s t) ∨
      ∃ a s t, x = (.ok a, s) ∧ y = (.ok a, t) ∧ Twin o s t := by
  obtain ⟨answer, s⟩ := x
  obtain ⟨_, t⟩ := y
  obtain ⟨rfl, h⟩ := h
  cases answer with
  | error e => exact .inl ⟨e, s, t, rfl, rfl, h⟩
  | ok a => exact .inr ⟨a, s, t, rfl, rfl, h⟩

namespace Twin

/-! ### Small steps -/

theorem changed (h : Twin o s t) {f : Controller → Controller × List Event}
    (hf : Controller.Blind f) :
    Twin o (s.changed (f s.controller)) (t.changed (f t.controller)) := by
  obtain ⟨hevents, hakin⟩ := h.controller.change hf
  refine { h with controller := hakin, world := ?_, name := ?_ }
  · simp only [Station.changed, ← hevents]
    exact h.world.tell _
  · rw [poolName, Station.changed, hf.applied]
    exact h.name

theorem working (h : Twin o s t) : s.working = t.working := by
  rw [Station.working, Station.working, h.stuck, h.running]

theorem become (h : Twin o s t) (state : Lifecycle) :
    Paired o (s.become state) (t.become state) := by
  have hstate := h.controller.state
  unfold Station.become Controller.become
  rw [hstate]
  by_cases hcan : (!s.controller.state.canBecome state) = true
  · simp only [if_pos hcan]
    exact ⟨rfl, h⟩
  · by_cases hsame : s.controller.state = state
    · simp only [if_neg hcan, if_pos hsame]
      exact ⟨rfl, h.changed Controller.blind_id⟩
    · simp only [if_neg hcan, if_neg hsame]
      exact ⟨rfl, h.changed (f := fun c => ({ c with state },
        [.controllerStateChanged s.controller.state.text state.text]))
        ⟨fun _ _ _ => rfl, fun _ => rfl⟩⟩

theorem after (h : Twin o s t) (outside : σ) : Twin o (s.after outside) (t.after outside) :=
  { h with world := h.world.withOutside outside }

theorem halt (h : Twin o s t) : Twin o s.halt t.halt :=
  { h with running := rfl, housed := fun _ hr => (by cases hr) }

/-! ### Going to work -/

theorem begun (h : Twin o s t) (ha : a.config.name = o.poolName) : t.begun a = s.begun a := by
  have hsnapshot : (t.store.bind fun st =>
      Cache.restored FileTree.system st a.config.name t.world.files) =
        s.store.bind fun st => Cache.restored FileTree.system st a.config.name s.world.files := by
    rw [← h.store, ha]
    cases hst : s.store with
    | none => rfl
    | some st => exact (h.world.files st hst).restored.symm
  unfold Station.begun LiveCache.begin
  rw [hsnapshot, h.store, h.world.now]

theorem opened (h : Twin o s t) (p : Provider σ) (ha : a.config.name = o.poolName) :
    LiveCache.Alike s.store (World.Shared o s.store) (s.opened p a) (t.opened p a) := by
  let f : Fetcher σ Nat := .retrying p a.driver a.config.fetch.retries.policy
  have hopened : ∀ s : Station σ, s.opened p a = (s.begun a).awaitFirst f s.world := fun _ => rfl
  rw [hopened, hopened, h.begun ha]
  exact .awaitFirst (World.Shared.agree o s.store f) rfl h.world

theorem beginWork (h : Twin o s t) (a : Applied) {x y : LiveCache Nat × World σ}
    (hx : LiveCache.Alike s.store (World.Shared o s.store) x y) :
    Paired o (s.beginWork a x) (t.beginWork a y) := by
  obtain ⟨live, v⟩ := x
  obtain ⟨_, w⟩ := y
  obtain ⟨rfl, hstore, hw⟩ := hx
  unfold Station.beginWork
  simp only
  split
  · let work (now : Instant) : Running := ⟨a, live, ⟨now, .ofSeconds a.config.updateInterval⟩⟩
    have hnow : v.now = w.now := hw.now
    have hbegun : Twin o { s with running := some (work v.now), world := v }
        { t with running := some (work w.now), world := w } :=
      { h with
        running := by rw [hnow]
        world := hw
        housed := by
          rintro _ ⟨⟩
          exact hstore }
    exact hbegun.become .started
  · exact ⟨rfl, { h with world := hw, stuck := rfl }⟩

theorem launch (h : Twin o s t) (p : Provider σ) : Paired o (s.launch p) (t.launch p) := by
  unfold Station.launch
  rw [h.controller.applied]
  split
  · exact ⟨rfl, h⟩
  · rename_i a ha
    have hname : a.config.name = o.poolName := by
      have hname := h.name
      rw [poolName, ha] at hname
      exact Option.some_inj.1 hname
    exact h.beginWork a (h.opened p hname)

theorem saveConfiguration (h : Twin o s t) : Twin o s.saveConfiguration t.saveConfiguration := by
  have hstore := h.store
  unfold Station.saveConfiguration
  rw [h.controller.applied, ← hstore]
  split
  · rename_i store a hst ha
    refine { h with store := rfl, world := { h.world with files := fun st hst' => ?_ } }
    cases hst.symm.trans hst'
    exact (h.world.files store hst).saveConfig _ _
  · exact h

/-! ### Views and cycles -/

theorem view (h : Twin o s t) : Paired o s.view t.view := by
  unfold Station.view
  rw [← h.running, ← h.world.now]
  split
  · exact ⟨rfl, h⟩
  · split
    · exact ⟨rfl, h⟩
    · rename_i pool _
      obtain ⟨hpool, hakin⟩ := h.controller.change (Controller.blind_view pool)
      exact ⟨congrArg Except.ok hpool, { h with controller := hakin, running := rfl }⟩

theorem startedView (h : Twin o s t) : Paired o s.startedView t.startedView := by
  unfold Station.startedView
  rw [h.controller.ensureStarted]
  split
  · exact ⟨rfl, h⟩
  · exact h.view

theorem noteError (h : Twin o s t) (message : String) :
    Twin o { s with controller := { s.controller with lastError := some message } }
      { t with controller := { t.controller with lastError := some message } } := by
  have hakin := h.controller
  exact { h with
    controller := ⟨by rw [hakin.rest]; rfl, hakin.lastReconciled, .inl rfl⟩ }

/-- **A cycle.** If it gives a report, the notes agree afterwards. -/
theorem reconcile (h : Twin o s t) (p : Provider σ) :
    Paired o (s.reconcile p) (t.reconcile p) ∧
      ((∃ report, (s.reconcile p).1 = .ok report) →
        (s.reconcile p).2.controller = (t.reconcile p).2.controller) := by
  unfold Station.reconcile
  rw [h.controller.ensureStarted, h.controller.applied]
  split
  · exact ⟨⟨rfl, h⟩, by rintro ⟨_, ⟨⟩⟩⟩
  · split
    · exact ⟨⟨rfl, h⟩, by rintro ⟨_, ⟨⟩⟩⟩
    · rename_i a _
      rcases h.view.cases with ⟨e, s, t, hs, ht, h⟩ | ⟨pool, s, t, hs, ht, h⟩
      · rw [hs, ht]
        exact ⟨⟨rfl, h.noteError e.message⟩, by rintro ⟨_, ⟨⟩⟩⟩
      · simp only [hs, ht, ← h.world.now, ← h.world.outside]
        rcases h.controller.reconcile_cases p a pool s.world.now s.world.outside with
          ⟨e, left, hs, ht⟩ | ⟨report, c, events, outside, happlied, hs, ht⟩
        · rw [hs, ht]
          refine ⟨⟨rfl, ?_⟩, by rintro ⟨_, ⟨⟩⟩⟩
          have hpruned := (h.after left).changed (f := fun c => (c.prune pool, []))
            ⟨fun _ _ _ => rfl, fun _ => rfl⟩
          exact { hpruned with stuck := congrArg (· || broke (.error e)) h.stuck }
        · rw [hs, ht]
          refine ⟨⟨rfl, { h with
            controller := .refl o c
            world := (h.world.withOutside outside).tell events
            stuck := congrArg (· || broke (.ok report)) h.stuck
            name := ?_ }⟩, fun _ => rfl⟩
          show c.applied.map _ = _
          rw [happlied]
          exact h.name

/-! ### Machines that leave and join -/

theorem refresh (h : Twin o s t) (p : Provider σ) : Twin o (s.refresh p) (t.refresh p) := by
  unfold Station.refresh
  rw [← h.working, ← h.stuck]
  split
  · exact h
  · rename_i r hwork
    have hr := running_of_working hwork
    obtain ⟨hanswer, hcache, hstore, hworld⟩ := LiveCache.Alike.force
      (World.Shared.agree o s.store (r.fetcher p)) (h.housed r hr) h.world
    simp only [← hanswer]
    exact { h with
      running := congrArg (fun live => some { r with live }) hcache
      world := hworld
      stuck := rfl
      housed := by
        rintro _ ⟨⟩
        exact hstore }

theorem noteAttached (h : Twin o s t) : Twin o s.noteAttached t.noteAttached := by
  have hraised := h.changed Controller.blind_raise
  rw [noteAttached_eq, noteAttached_eq, Controller.isNone_raiseDesired,
    Controller.isNone_raiseDesired, h.controller.desired]
  exact { hraised with stuck := congrArg (· || _) h.stuck }

theorem memberDriver (h : Twin o s t) (id : String) :
    Paired o (s.memberDriver id) (t.memberDriver id) := by
  unfold Station.memberDriver
  rcases h.startedView.cases with ⟨e, s, t, hs, ht, h⟩ | ⟨pool, s, t, hs, ht, h⟩
  · rw [hs, ht]
    exact ⟨rfl, h⟩
  · simp only [hs, ht, h.controller.applied]
    split
    · split
      · exact ⟨rfl, h⟩
      · exact ⟨rfl, h⟩
    · exact ⟨rfl, h⟩

theorem startedDriver (h : Twin o s t) : s.startedDriver = t.startedDriver := by
  rw [Station.startedDriver, Station.startedDriver, h.controller.ensureStarted,
    h.controller.applied]

theorem noteGone (h : Twin o s t) (id : String) (decrement : Bool) (events : List Event) :
    Twin o (s.noteGone id decrement events) (t.noteGone id decrement events) := by
  have hgone := h.changed (Controller.blind_gone id s.world.now events)
  have hwaited : t.controller.queue.contains id = s.controller.queue.contains id := by
    rw [h.controller.queue]
  unfold Station.noteGone
  simp only [hwaited, ← h.world.now]
  split
  · exact hgone.changed Controller.blind_lowerDesired
  · exact hgone

theorem removeBy {ε : Type} (h : Twin o s t) (p : Provider σ) (id : String) (decrement : Bool)
    (events : List Event) (call : DriverId → Instant → σ → Except ε Unit × σ)
    (why : ε → ControllerError) :
    Paired o (s.removeBy p id decrement events call why)
      (t.removeBy p id decrement events call why) := by
  unfold Station.removeBy
  rcases (h.memberDriver id).cases with ⟨e, s, t, hs, ht, h⟩ | ⟨d, s, t, hs, ht, h⟩
  · rw [hs, ht]
    exact ⟨rfl, h⟩
  · simp only [hs, ht, ← h.world.now, ← h.world.outside]
    split
    · exact ⟨rfl, h.after _⟩
    · exact ⟨rfl, ((h.after _).noteGone id decrement events).refresh p⟩

theorem machineCall (h : Twin o s t) (p : Provider σ) (id : String)
    (call : DriverId → Instant → σ → Except DriverError Unit × σ) {note : Station σ → Station σ}
    (hnote : ∀ {s t : Station σ}, Twin o s t → Twin o (note s) (note t)) :
    Paired o (s.machineCall p id call note) (t.machineCall p id call note) := by
  unfold Station.machineCall
  rw [← h.startedDriver, ← h.world.now, ← h.world.outside]
  split
  · exact ⟨rfl, h⟩
  · split
    · exact ⟨rfl, h.after _⟩
    · exact ⟨rfl, (hnote (h.after _)).refresh p⟩

theorem poolSize (h : Twin o s t) : Paired o s.poolSize t.poolSize := by
  unfold Station.poolSize
  rcases h.startedView.cases with ⟨e, s, t, hs, ht, h⟩ | ⟨pool, s, t, hs, ht, h⟩
  · rw [hs, ht]
    exact ⟨rfl, h⟩
  · simp only [hs, ht, h.controller.desired]
    split
    · exact ⟨rfl, h⟩
    · exact ⟨rfl, h⟩

end Twin

/-! ### Configurations -/

/-- **A configuration in force** makes twins of stations that agree in all that it leaves. -/
theorem twin_taking (hakin : (s.controller.placed a).Akin o (t.controller.placed a))
    (hworld : World.Shared o s.store s.world t.world) (hstore : s.store = t.store)
    (hstuck : s.stuck = t.stuck) (hname : a.config.name = o.poolName) (outside : σ) :
    Twin o (s.taking a outside) (t.taking a outside) := by
  -- once the configuration is in place, the rest is a blind change and a change of state
  let base (s : Station σ) : Station σ :=
    { (s.after outside).halt with controller := s.controller.placed a }
  have htaking : ∀ s : Station σ, s.taking a outside =
      (((base s).changed ((base s).controller.resize a.config.desiredSize)).become
        .stopped).2 := by
    intro s
    rw [taking, Controller.adopt_eq]
    rfl
  have hbase : Twin o (base s) (base t) :=
    { controller := hakin
      running := rfl
      world := hworld.withOutside outside
      store := hstore
      stuck := hstuck
      housed := fun _ hr => (by cases hr)
      name := congrArg some hname }
  rw [htaking, htaking]
  exact ((hbase.changed (Controller.blind_resize _)).become .stopped).twin

namespace Twin

theorem placed (h : Twin o s t) (ha : a.config.name = o.poolName) :
    (s.controller.placed a).Akin o (t.controller.placed a) := by
  have hakin := h.controller
  have hforget : ∀ {s : Station σ}, s.poolName = some o.poolName →
      s.controller.forgetOther a.config.name = s.controller := by
    intro s hname
    unfold Controller.forgetOther
    split
    · rename_i b hb
      rw [poolName, hb] at hname
      rw [if_pos ((Option.some_inj.1 hname).trans ha.symm)]
    · rfl
  have hname : t.poolName = some o.poolName := by
    rw [poolName, hakin.applied]
    exact h.name
  unfold Controller.placed
  rw [hforget h.name, hforget hname]
  exact ⟨by rw [hakin.rest]; rfl, hakin.lastReconciled, hakin.lastError⟩

theorem proceed (h : Twin o s t) (p : Provider σ) (wasStarted : Bool) :
    Paired o (s.proceed p wasStarted) (t.proceed p wasStarted) := by
  unfold Station.proceed
  cases wasStarted with
  | false => exact ⟨rfl, h.saveConfiguration⟩
  | true =>
    rcases (h.launch p).cases with ⟨e, s, t, hs, ht, h⟩ | ⟨_, s, t, hs, ht, h⟩
    · simp only [if_true, hs, ht]
      exact ⟨rfl, h⟩
    · simp only [if_true, hs, ht, ← h.stuck]
      split
      · exact ⟨rfl, h⟩
      · exact ⟨rfl, h.saveConfiguration⟩

theorem configure (h : Twin o s t) (p : Provider σ) {config : PoolConfig}
    (hname : (s.configure p config).2.poolName = some o.poolName) :
    Paired o (s.configure p config) (t.configure p config) := by
  rcases configure_alike p config h.world.now h.world.outside h.controller.state with
    ⟨e, outside, hs, ht⟩ | ⟨d, outside, wasStarted, hs, ht⟩
  · rw [hs, ht]
    exact ⟨rfl, h.after outside⟩
  · rw [hs, poolName_proceed, poolName_taking] at hname
    rw [hs, ht]
    have hsame : config.name = o.poolName := Option.some_inj.1 hname
    exact (twin_taking (h.placed hsame) h.world h.store h.stuck hsame outside).proceed p wasStarted

end Twin

/-! ## Requests -/

/-- The answer without the notes of the last cycle. -/
def unnoted (answer : Answer) : Answer :=
  answer.map fun reply =>
    match reply with
    | .status status => .status { status with lastReconciled := none, lastError := none }
    | other => other

theorem Paired.map {ε α β : Type} {x y : Except ε α × Station σ} (h : Paired o x y) (f : α → β) :
    Paired o (x.1.map f, x.2) (y.1.map f, y.2) :=
  ⟨congrArg (Except.map f) h.answer, h.twin⟩

/-- Alike with all notes means alike without them. -/
theorem Paired.unnoted {x y : Answer × Station σ} (h : Paired o x y) :
    unnoted x.1 = unnoted y.1 ∧ Twin o x.2 y.2 :=
  ⟨congrArg Station.unnoted h.answer, h.twin⟩

/-- **Twins answer alike**, and stay twins if their pool keeps its name. -/
theorem Twin.respond (h : Twin o s t) (p : Provider σ) {request : Request}
    (hname : (s.respond p request).2.poolName = some o.poolName) :
    unnoted (s.respond p request).1 = unnoted (t.respond p request).1 ∧
      Twin o (s.respond p request).2 (t.respond p request).2 := by
  cases request with
  | configure config => exact ((h.configure p hname).map _).unnoted
  | getConfiguration =>
    refine Paired.unnoted ?_
    unfold Station.respond
    simp only [h.controller.applied]
    split
    · exact ⟨rfl, h⟩
    · exact ⟨rfl, h⟩
  | start =>
    refine Paired.unnoted ?_
    unfold Station.respond
    simp only [h.controller.state]
    split
    · exact ⟨rfl, h⟩
    · exact ⟨rfl, h⟩
    · exact (h.launch p).map _
  | stop =>
    refine Paired.unnoted ?_
    unfold Station.respond
    simp only [h.controller.state]
    split
    · exact (h.halt.become .stopped).map _
    · exact ⟨rfl, h⟩
  | getStatus =>
    refine ⟨?_, h⟩
    simp only [Station.respond, Station.unnoted, Except.map, Controller.status, h.controller.state,
      h.controller.applied, h.controller.desired, h.controller.queue]
  | reconcile => exact ((h.reconcile p).1.map _).unnoted
  | getPool => exact (h.startedView.map _).unnoted
  | getPoolSize => exact (h.poolSize.map _).unnoted
  | setDesired size =>
    refine Paired.unnoted ?_
    unfold Station.respond
    simp only [h.controller.state]
    split
    · exact ⟨rfl, h⟩
    · exact ⟨rfl, h.changed (Controller.blind_setDesired size)⟩
  | terminate id decrement =>
    refine Paired.unnoted (Paired.map ?_ _)
    rw [terminate_eq_removeBy, terminate_eq_removeBy]
    exact h.removeBy p id decrement _ _ _
  | attach id =>
    exact ((h.machineCall p id _ fun h => h.noteAttached).map _).unnoted
  | detach id decrement =>
    refine Paired.unnoted (Paired.map ?_ _)
    rw [detach_eq_removeBy, detach_eq_removeBy]
    exact h.removeBy p id decrement _ _ _
  | setService id service => exact ((h.machineCall p id _ fun h => h).map _).unnoted
  | setMembership id membership => exact ((h.machineCall p id _ fun h => h).map _).unnoted

/-! ## Time -/

namespace Twin

theorem tick (h : Twin o s t) (p : Provider σ) (freeSince : Instant) :
    Twin o (s.tick p freeSince) (t.tick p freeSince) := by
  unfold Station.tick
  rw [← h.working, ← h.world.now]
  split
  · exact h
  · rename_i r hwork
    have hr := running_of_working hwork
    split
    · let work : Running := { r with ticker := r.ticker.fire (freeSince.latest r.ticker.due) }
      have hticked : Twin o { s with running := some work } { t with running := some work } :=
        { h with
          running := rfl
          housed := by
            rintro _ ⟨⟩
            exact h.housed r hr }
      exact (hticked.reconcile p).1.twin
    · exact h

theorem refreshDue (h : Twin o s t) (p : Provider σ) :
    Twin o (s.refreshDue p) (t.refreshDue p) := by
  unfold Station.refreshDue
  rw [← h.working]
  split
  · exact h
  · rename_i r hwork
    have hr := running_of_working hwork
    obtain ⟨hcache, hstore, hworld⟩ := LiveCache.Alike.settle
      (World.Shared.agree o s.store (r.fetcher p)) (h.housed r hr) h.world
    exact { h with
      running := congrArg (fun live => some { r with live }) hcache
      world := hworld
      housed := by
        rintro _ ⟨⟩
        exact hstore }

theorem settle (h : Twin o s t) (p : Provider σ) (busySince : Instant) :
    Twin o (s.settle p busySince) (t.settle p busySince) := by
  have hrefreshed := (h.tick p busySince).refreshDue p
  unfold Station.settle
  simp only [← hrefreshed.world.now]
  exact hrefreshed.tick p _

theorem later (h : Twin o s t) (time : Instant) :
    Twin o { s with world := s.world.atTime time } { t with world := t.world.atTime time } :=
  { h with world := h.world.atTime time }

/-- **Time passes for twins.** -/
theorem advance (h : Twin o s t) (p : Provider σ) (nanos : Nat) :
    Twin o (s.advance p nanos) (t.advance p nanos) := by
  induction nanos using Nat.strongRecOn generalizing s t with
  | ind nanos ih =>
    have hnext : t.nextTime = s.nextTime := by rw [nextTime, nextTime, h.working]
    unfold Station.advance
    rw [hnext]
    split
    · rw [← h.world.now]
      exact h.later _
    · rename_i time _
      simp only [← h.world.now]
      split
      · exact h.later _
      · have hpos := Nat.le_max_left 1 (time.since s.world.now).toNat
        exact ih _ (by omega) ((h.later _).settle p _)

end Twin

theorem ask_paired {β : Type} (p : Provider σ) (request : Request) (f : Answer → β)
    (hstuck : s.stuck = t.stuck) (hnow : s.world.now = t.world.now)
    (hanswer : f (s.respond p request).1 = f (t.respond p request).1)
    (htwin : Twin o (s.respond p request).2 (t.respond p request).2) :
    (s.ask p request).1.map f = (t.ask p request).1.map f ∧
      (¬ s.stuck = true → Twin o (s.ask p request).2 (t.ask p request).2) := by
  unfold ask
  rw [← hstuck, ← hnow]
  by_cases hs : s.stuck = true
  · rw [if_pos hs, if_pos hs]
    exact ⟨rfl, fun hnot => absurd hs hnot⟩
  · rw [if_neg hs, if_neg hs]
    simp only [← htwin.stuck]
    split
    · exact ⟨rfl, fun _ => htwin⟩
    · exact ⟨congrArg some hanswer, fun _ => htwin.settle p _⟩

/-- **Twins do what they are asked to** and stay twins, if their pool keeps its name. -/
theorem Twin.ask (h : Twin o s t) (p : Provider σ) {request : Request}
    (hname : (s.ask p request).2.poolName = some o.poolName) :
    (s.ask p request).1.map unnoted = (t.ask p request).1.map unnoted ∧
      Twin o (s.ask p request).2 (t.ask p request).2 := by
  by_cases hstuck : s.stuck = true
  · have hstuck' : t.stuck = true := h.stuck ▸ hstuck
    rw [Station.ask, Station.ask, if_pos hstuck, if_pos hstuck']
    exact ⟨rfl, h⟩
  · have hanswered : (s.respond p request).2.poolName = some o.poolName := by
      rw [Station.ask, if_neg hstuck] at hname
      simp only at hname
      split at hname
      · exact hname
      · rwa [poolName_settle] at hname
    obtain ⟨hanswer, htwin⟩ := h.respond p hanswered
    exact (ask_paired p request unnoted h.stuck h.world.now hanswer htwin).imp_right
      fun hnext => hnext hstuck

end Station

end PoolKeeper
