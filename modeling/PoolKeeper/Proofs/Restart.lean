import PoolKeeper.Proofs.Deeds
import PoolKeeper.Proofs.Document
import PoolKeeper.Provider.Fleet

/-!
# Restarts

A controller that begins again goes on with the last configuration that it took.

* `Provider.Constant`: what a provider takes once, it takes always; `Fleet.constant`;
* `Station.RunOver`: runs over one store, with restarts, and the last configuration that was taken;
* `Station.OnFile`: that configuration is the one on file, and can be applied again;
  **`Station.RunOver.onFile`**: it always is;
* **`Station.restart_restores`**: what a restart brings back, and what a refused configuration
  leaves alone.
-/

namespace PoolKeeper

variable {σ : Type}

/-- A configuration that the provider takes once is taken whenever it comes again. -/
def Provider.Constant (p : Provider σ) : Prop :=
  ∀ {config : PoolConfig} {now : Instant} {s : σ} {d : DriverId} {s' : σ},
    p.Takes config now s d s' → ∀ later t, ∃ d' t', p.Takes config later t d' t'

namespace Station

/-- The answer says that all went well. -/
def wentWell : Option Answer → Bool
  | some (.ok _) => true
  | _ => false

/-- The last configuration that was taken, after a request with its answer. -/
def lastTaken (request : Request) (answer : Option Answer) (last : Option PoolConfig) :
    Option PoolConfig :=
  match request with
  | .configure config => if wentWell answer then some config else last
  | _ => last

/-- Runs over one store that holds no configuration in the beginning, and the last configuration
that was taken. Its document can be read. Between two steps the clock may advance, events may be
taken, and everything may change outside; the files are left to the controller. -/
inductive RunOver (p : Provider σ) (store : Store) : Option PoolConfig → Station σ → Prop
  | boot (w : World σ) : store.Ready configFile w.files →
    w.files.file? (store.path configFile) = none → RunOver p store none (boot p (some store) w)
  | ask {last : Option PoolConfig} {s : Station σ} (request : Request) :
    (∀ config, request = .configure config → wentWell (s.ask p request).1 = true →
      config.Legible) → RunOver p store last s →
    RunOver p store (lastTaken request (s.ask p request).1 last) (s.ask p request).2
  | advance {last : Option PoolConfig} {s : Station σ} (nanos : Nat) : RunOver p store last s →
    RunOver p store last (s.advance p nanos)
  | restart {last : Option PoolConfig} {s : Station σ} : RunOver p store last s →
    RunOver p store last (s.restart p)
  | world {last : Option PoolConfig} {s : Station σ} (w : World σ) : s.world.now ≤ w.now →
    w.files = s.world.files → RunOver p store last s → RunOver p store last { s with world := w }

theorem RunOver.taken {p : Provider σ} {store : Store} {last : Option PoolConfig} {s : Station σ}
    (h : RunOver p store last s) {config : PoolConfig} (hlegible : config.Legible)
    (hwell : wentWell (s.ask p (.configure config)).1 = true) :
    RunOver p store (some config) (s.ask p (.configure config)).2 := by
  have hnext := h.ask (.configure config) (by rintro _ ⟨⟩ _; exact hlegible)
  rwa [lastTaken, if_pos hwell] at hnext

theorem RunOver.refused {p : Provider σ} {store : Store} {last : Option PoolConfig} {s : Station σ}
    (h : RunOver p store last s) {config : PoolConfig}
    (hbad : wentWell (s.ask p (.configure config)).1 = false) :
    RunOver p store last (s.ask p (.configure config)).2 := by
  have hnext := h.ask (.configure config) (by
    rintro _ ⟨⟩ hwell
    rw [hbad] at hwell
    cases hwell)
  rwa [lastTaken, hbad, if_neg (by decide)] at hnext

/-- A configuration that was saved and can be applied again. -/
structure Appliable (p : Provider σ) (config : PoolConfig) : Prop where
  legible : config.Legible
  valid : config.validate = .ok ()
  taken (now : Instant) (outside : σ) : ∃ d left, p.Takes config now outside d left

/-- The configuration that was taken last is on file, and nothing stands in the way of the next. -/
structure OnFile (p : Provider σ) (store : Store) (last : Option PoolConfig) (s : Station σ) :
    Prop where
  place : s.store = some store
  housed : Housed s.store s.running
  ready : store.Ready configFile s.world.files
  document : s.world.files.file? (store.path configFile) = last.map PoolConfig.codec.toText
  appliable : ∀ config, last = some config → Appliable p config

variable {p : Provider σ} {store : Store} {last : Option PoolConfig} {s s' : Station σ}

namespace OnFile

/-- Nothing but a saved configuration changes what is on file. -/
theorem does (h : OnFile p store last s) (hd : Does p s s') : OnFile p store last s' where
  place := hd.store.trans h.place
  housed := hd.housed h.housed
  ready := ((hd.intact h.housed h.place).ready (by decide)).2 h.ready
  document := (hd.intact h.housed h.place).config.trans h.document
  appliable := h.appliable

theorem saved (h : OnFile p store last s) {a : Applied} (ha : s.controller.applied = some a)
    (happliable : Appliable p a.config) : OnFile p store (some a.config) s.saveConfiguration := by
  have heq : s.saveConfiguration =
      { s with
        world :=
          { s.world with
            files := (store.save FileTree.system PoolConfig.codec configFile a.config
              s.world.files).2 } } := by
    rw [saveConfiguration, h.place, ha]
  rw [heq]
  refine ⟨h.place, h.housed, ?_, ?_, ?_⟩
  · exact (Store.ready_save_iff PoolConfig.codec (by decide) (by decide)).2 h.ready
  · exact (Store.file?_save PoolConfig.codec (by decide)).trans (if_pos h.ready)
  · rintro _ ⟨⟩
    exact happliable

/-- **A request to configure** that is answered well leaves its configuration on file, and any
other leaves there what there was. -/
theorem configure (h : OnFile p store last s) (hp : p.Constant) {config : PoolConfig}
    (hlegible : wentWell (s.ask p (.configure config)).1 = true → config.Legible) :
    OnFile p store (lastTaken (.configure config) (s.ask p (.configure config)).1 last)
      (s.ask p (.configure config)).2 := by
  by_cases hs : s.stuck = true
  · rw [ask, if_pos hs]
    exact h
  · have hrespond : s.respond p (.configure config) = plain (s.configure p config) := rfl
    rw [ask, if_neg hs, hrespond] at hlegible ⊢
    rw [Bool.not_eq_true] at hs
    rcases configure_outcome p hs config with
      ⟨e, outside, heq⟩ | ⟨s', heq, hstuck, hdoes⟩ |
      ⟨d, outside, s', hvalid, htakes, happlied, hstuck, hdoes, heq⟩
    · have hafter : OnFile p store last (s.after outside) :=
        ⟨h.place, h.housed, h.ready, h.document, h.appliable⟩
      simp only [heq, plain]
      rw [if_neg (by rw [after, hs]; decide)]
      exact hafter.does (settle_does p _ _)
    · simp only [heq, plain]
      rw [if_pos hstuck]
      exact h.does hdoes
    · have hnot : ¬ s'.saveConfiguration.stuck = true := by
        obtain ⟨files, hsaved⟩ := saveConfiguration_eq s'
        rw [hsaved, hstuck]
        decide
      simp only [heq, plain, if_neg hnot] at hlegible ⊢
      have happliable : Appliable p config := ⟨hlegible rfl, hvalid, hp htakes⟩
      exact ((h.does hdoes).saved happlied happliable).does (settle_does p _ s.world.now)

end OnFile

/-! ## Beginning again -/

theorem adopt_new (a : Applied) :
    (({} : Controller).adopt a).1 = { applied := some a, desired := a.config.desiredSize } := by
  rw [Controller.adopt]
  cases a.config.desiredSize with
  | none => rfl
  | some size => simp only [Controller.setDesired_fst, Controller.forgetOther]

/-- **A controller that begins** takes the configuration on file: it is stopped, and nobody
waits. -/
theorem boot_restores {w : World σ} (hready : store.Ready configFile w.files)
    (hdocument : w.files.file? (store.path configFile) = last.map PoolConfig.codec.toText)
    (happliable : ∀ config, last = some config → Appliable p config) :
    OnFile p store last (boot p (some store) w) ∧ (boot p (some store) w).running = none ∧
      (∀ config, last = some config → ∃ d, (boot p (some store) w).controller =
        { state := .stopped, applied := some ⟨config, d⟩, desired := config.desiredSize }) ∧
      (last = none → (boot p (some store) w).controller = {}) := by
  let new : Station σ := { world := w, store := some store }
  have hnew : OnFile p store last new :=
    ⟨rfl, fun _ hr => (by cases hr), hready, hdocument, happliable⟩
  have hload : (store.load FileTree.system PoolConfig.codec configFile w.files).toOption.join =
      last := by
    rw [Store.join_load, hdocument]
    cases last with
    | none => rfl
    | some config => exact (happliable config rfl).legible.ofText?_toText
  cases last with
  | none =>
    have hboot : boot p (some store) w = new := by rw [boot, Option.bind_some, hload]
    rw [hboot]
    exact ⟨hnew, rfl, fun _ hc => (by cases hc), fun _ => rfl⟩
  | some config =>
    have hboot : boot p (some store) w = (new.apply p config).2 := by
      rw [boot, Option.bind_some, hload]
    obtain ⟨_, hvalid, htaken⟩ := happliable config rfl
    obtain ⟨d, outside, htakes⟩ := htaken w.now w.outside
    obtain ⟨events, heq⟩ := apply_of_takes (s := new) hvalid htakes
    have hdoes := apply_does p new config
    rw [hboot]
    rw [heq] at hdoes ⊢
    refine ⟨hnew.does hdoes, rfl, ?_, fun hc => (by cases hc)⟩
    rintro _ ⟨⟩
    refine ⟨d, ?_⟩
    show { (({} : Controller).adopt ⟨config, d⟩).1 with state := Lifecycle.stopped } = _
    rw [adopt_new]

/-- **What is on file is always the last configuration that was taken.** -/
theorem RunOver.onFile (hp : p.Constant) (h : RunOver p store last s) : OnFile p store last s := by
  induction h with
  | boot w hready hnone =>
    have hdocument : w.files.file? (store.path configFile) =
        (none : Option PoolConfig).map PoolConfig.codec.toText := hnone
    exact (boot_restores hready hdocument fun _ hc => (by cases hc)).1
  | @ask last s request hlegible _ ih =>
    by_cases hc : ∃ config, request = .configure config
    · obtain ⟨config, rfl⟩ := hc
      exact ih.configure hp (hlegible config rfl)
    · have hother : ∀ config, request ≠ .configure config := fun config heq => hc ⟨config, heq⟩
      have hlast : lastTaken request (s.ask p request).1 last = last := by
        cases request with
        | configure config => exact absurd rfl (hother config)
        | _ => rfl
      rw [hlast]
      exact ih.does (ask_does p s hother)
  | advance nanos _ ih => exact ih.does (advance_does p _ nanos)
  | @restart last s _ ih =>
    rw [Station.restart, ih.place]
    exact (boot_restores (w := { s.world with events := [] }) ih.ready ih.document
      ih.appliable).1
  | world w _ hfiles _ ih =>
    exact ⟨ih.place, ih.housed, hfiles ▸ ih.ready, hfiles ▸ ih.document, ih.appliable⟩

/-- After a restart the controller has the last configuration that was taken, and nothing else. -/
theorem RunOver.restarted (hp : p.Constant) (h : RunOver p store last s) :
    (s.restart p).running = none ∧
      (s.restart p).controller.state = (if last.isSome then .stopped else .unconfigured) ∧
      (s.restart p).controller.applied.map Applied.config = last ∧
      (s.restart p).controller.desired = last.bind PoolConfig.desiredSize ∧
      (s.restart p).controller.queue = .empty := by
  have hfile := h.onFile hp
  have hrestart : s.restart p = Station.boot p (some store) { s.world with events := [] } := by
    rw [Station.restart, hfile.place]
  obtain ⟨_, hrunning, hsome, hnone⟩ := boot_restores (w := { s.world with events := [] })
    hfile.ready hfile.document hfile.appliable
  rw [← hrestart] at hrunning hsome hnone
  refine ⟨hrunning, ?_⟩
  cases last with
  | none =>
    rw [hnone rfl]
    exact ⟨rfl, rfl, rfl, rfl⟩
  | some config =>
    obtain ⟨d, hc⟩ := hsome config rfl
    rw [hc]
    exact ⟨rfl, rfl, rfl, rfl⟩

theorem getConfiguration_eq (p : Provider σ) (s : Station σ) :
    (s.respond p .getConfiguration).1 =
      (s.controller.applied.map Applied.config).elim (.error .notConfigured)
        fun config => .ok (.configuration config) := by
  rw [respond]
  cases s.controller.applied with
  | none => rfl
  | some a => rfl

theorem configure_refused {config : PoolConfig} {e : ControllerError}
    (h : (s.respond p (.configure config)).1 = .error e) :
    ∃ outside, (s.respond p (.configure config)).2 = s.after outside := by
  have hrespond : s.respond p (.configure config) = plain (s.configure p config) := rfl
  rw [hrespond] at h ⊢
  rcases apply_outcome p s config with ⟨e, outside, heq⟩ | ⟨hvalid, d, outside, htakes⟩
  · exact ⟨outside, by simp only [plain, configure, heq]⟩
  · obtain ⟨events, heq⟩ := apply_of_takes hvalid htakes
    by_cases hstarted : s.controller.state = .started
    · rw [decide_eq_true hstarted] at heq
      obtain ⟨s', hlaunch, _⟩ :=
        launch_outcome p (s := s.adopted ⟨config, d⟩ outside events) rfl rfl
      rw [configure_of_started heq hlaunch] at h
      cases h
    · rw [decide_eq_false hstarted] at heq
      rw [configure_of_idle heq] at h
      cases h

end Station

/-! ## Simulated providers -/

namespace Fleet

theorem create_ok_iff {config : DriverConfig} {f : Fleet} :
    (∃ d f', provider.create config f = (.ok d, f')) ↔ config.kind = Cloud.kind := by
  show (∃ d f', create config f = (.ok d, f')) ↔ _
  unfold create
  split
  · exact iff_of_true ⟨_, _, rfl⟩ ‹_›
  · exact iff_of_false (by rintro ⟨_, _, ⟨⟩⟩) ‹_›

theorem configure_ok_iff {d : DriverId} {name : String} {config : DriverConfig} {now : Instant}
    {f : Fleet} : (∃ f', provider.configure d name config now f = (.ok (), f')) ↔
      ∃ settings, CloudSettings.ofJson config.settings = .ok settings := by
  simp only [provider, call, Cloud.configure]
  cases CloudSettings.ofJson config.settings with
  | error e => exact iff_of_false (by rintro ⟨_, ⟨⟩⟩) (by rintro ⟨_, ⟨⟩⟩)
  | ok settings => exact iff_of_true ⟨_, rfl⟩ ⟨settings, rfl⟩

/-- Simulated providers look at nothing but the configuration. -/
theorem constant : provider.Constant := by
  rintro config now f d f' ⟨made, hcreate, hconfigure⟩ later t
  have hkind := create_ok_iff.1 ⟨_, _, hcreate⟩
  have hsettings := configure_ok_iff.1 ⟨_, hconfigure⟩
  obtain ⟨d', made', hcreate'⟩ := (create_ok_iff (f := t)).2 hkind
  have hconfigured : ∃ t', provider.configure d' config.name config.driver later made' =
      (.ok (), t') :=
    configure_ok_iff.2 hsettings
  obtain ⟨t', hconfigure'⟩ := hconfigured
  exact ⟨d', t', made', hcreate', hconfigure'⟩

/-- **The saved configuration is always the last one that was taken.** -/
theorem restart_restores {store : Store} {last : Option PoolConfig} {s : Station Fleet}
    (h : Station.RunOver provider store last s) :
    s.world.files.file? (store.path Station.configFile) = last.map PoolConfig.codec.toText ∧
      ((s.restart provider).respond provider .getConfiguration).1 =
        last.elim (.error .notConfigured) (fun config => .ok (.configuration config)) ∧
      (s.restart provider).controller.state = (if last.isSome then .stopped else .unconfigured) ∧
      (s.restart provider).controller.desired = last.bind PoolConfig.desiredSize ∧
      (s.restart provider).controller.queue = .empty ∧ (s.restart provider).running = none ∧
      ∀ config e, (s.respond provider (.configure config)).1 = .error e →
        (s.respond provider (.configure config)).2.world.files = s.world.files ∧
          (s.respond provider (.configure config)).2.controller = s.controller ∧
          (s.respond provider (.configure config)).2.running = s.running := by
  obtain ⟨hrunning, hstate, happlied, hdesired, hqueue⟩ := h.restarted constant
  refine ⟨(h.onFile constant).document, ?_, hstate, hdesired, hqueue, hrunning,
    fun config e he => ?_⟩
  · rw [Station.getConfiguration_eq, happlied]
  · obtain ⟨outside, heq⟩ := Station.configure_refused he
    rw [heq]
    exact ⟨rfl, rfl, rfl⟩

/-- A pool of two machines. -/
def twoMachines : PoolConfig :=
  { name := "web", driver := ⟨Cloud.kind, .array [.null, .nat 0, .nat 1]⟩, desiredSize := some 2 }

/-- The same pool with a short period; its size is learned. -/
def hurried : PoolConfig := { twoMachines with desiredSize := none, updateInterval := 5 }

set_option maxRecDepth 20000 in
theorem legible_twoMachines : twoMachines.Legible where
  fits :=
    { desiredSize := by rintro _ ⟨⟩; decide
      margin := by decide
      fetch := ⟨⟨by decide, by decide⟩, by decide, by decide⟩
      updateInterval := by decide
      settings := rfl }
  text := by
    rw [Codec.read?_toText]
    rfl

set_option maxRecDepth 20000 in
theorem legible_hurried : hurried.Legible where
  fits :=
    { desiredSize := by rintro _ ⟨⟩
      margin := by decide
      fetch := ⟨⟨by decide, by decide⟩, by decide, by decide⟩
      updateInterval := by decide
      settings := rfl }
  text := by
    rw [Codec.read?_toText]
    rfl

/-- A station at work that was configured and has its configuration in a store. -/
def atWorkOver (store : Store) : Station Fleet :=
  let new := Station.boot provider (some store)
    { now := ⟨0, 0⟩, outside := .new false, files := default }
  let configured := (new.ask provider (.configure twoMachines)).2
  (configured.ask provider .start).2

/-- It was configured anew at work, and then with a name that is blank. -/
def renamedBlank : Station Fleet :=
  let hurrying := ((atWorkOver ⟨["data"]⟩).ask provider (.configure hurried)).2
  let refused := (hurrying.ask provider (.configure { hurried with name := " " })).2
  refused.advance provider 7000000000

theorem restart_restores_renamedBlank :
    Station.RunOver provider ⟨["data"]⟩ (some hurried) renamedBlank ∧
      renamedBlank.controller.state = .started ∧
      ((renamedBlank.restart provider).respond provider .getConfiguration).1 =
        .ok (.configuration hurried) ∧
      (renamedBlank.restart provider).controller.state = .stopped ∧
      (renamedBlank.restart provider).controller.desired = none ∧
      (renamedBlank.restart provider).controller.queue = .empty := by
  have hnew : Station.RunOver provider ⟨["data"]⟩ none _ := .boot
    { now := ⟨0, 0⟩, outside := Fleet.new false, files := default } (by decide) rfl
  have hatWork : Station.RunOver provider ⟨["data"]⟩ (some twoMachines) (atWorkOver ⟨["data"]⟩) :=
    (hnew.taken legible_twoMachines (by decide +kernel)).ask .start (by rintro _ ⟨⟩)
  have hrun : Station.RunOver provider ⟨["data"]⟩ (some hurried) renamedBlank :=
    ((hatWork.taken legible_hurried (by decide +kernel)).refused (by decide +kernel)).advance
      7000000000
  obtain ⟨_, hconfiguration, hstate, hdesired, hqueue, _⟩ := restart_restores hrun
  exact ⟨hrun, by decide +kernel, hconfiguration, hstate, hdesired, hqueue⟩

end Fleet

end PoolKeeper
