import PoolKeeper.Proofs.Lifecycle
import PoolKeeper.Proofs.Sturdy
import PoolKeeper.Proofs.Transparency

/-!
# Stations that always answer

A controller waits for its fetches. Over a sturdy provider it never waits for ever.

* `Station.Sturdy`: all that was asked was answered, and the background refreshes go on;
  `Station.Sturdy.launch`, `Station.Sturdy.refresh`: whatever waits for a fetch keeps it;
  **`Station.Sturdy.respond`**: the next request is answered, too;
* `Station.Happening.config?`: the configuration that is applied when something happens;
  **`Station.Sturdy.happen`**: whatever happens, a station stays sturdy.
-/

namespace PoolKeeper

variable {σ : Type}

/-! ## Cycles -/

/-- A cycle in time that goes through leaves all outside as it should be. -/
theorem Turn.closing_sturdy {t : Turn σ} {timely : Instant → Prop} {fit : PoolConfig → Prop}
    {good : σ → Prop} (hp : t.provider.Sturdy timely fit good) (hnow : timely t.now)
    (hg : good t.outside) : good t.closing.outside := by
  have hmidway : good t.midway := by
    unfold midway
    split
    · exact hg
    · exact hp.start t.driver t.requested hnow hg
  rw [t.closing_outside]
  split
  · exact hmidway
  · exact hp.terminate t.driver t.due hmidway

theorem Controller.started_of_ready {c : Controller} {u : Unit} (h : c.ensureStarted = .ok u) :
    c.state = .started := by
  unfold ensureStarted at h
  split at h
  · assumption
  · cases h
  · cases h

/-! ## Stations -/

namespace Station

variable {p : Provider σ} {timely : Instant → Prop} {fit : PoolConfig → Prop} {good : σ → Prop}
  {s : Station σ}

/-- All that was asked was answered, and the background refreshes go on. The configuration in force
is valid and fit, and all outside is as it should be. -/
structure Sturdy (fit : PoolConfig → Prop) (good : σ → Prop) (s : Station σ) : Prop where
  answers : s.stuck = false
  outside : good s.world.outside
  applied {a : Applied} : s.controller.applied = some a → a.config.validate = .ok () ∧ fit a.config
  running {r : Running} : s.running = some r →
    fit r.applied.config ∧ r.live.ticker.isSome = true

namespace Sturdy

theorem new {world : World σ} (hg : good world.outside) (store : Option Store) :
    Sturdy fit good { world, store } :=
  ⟨rfl, hg, nofun, nofun⟩

theorem withController (h : s.Sturdy fit good) {controller : Controller}
    (hc : controller.applied = s.controller.applied) : Sturdy fit good { s with controller } where
  answers := h.answers
  outside := h.outside
  applied ha := h.applied (hc.symm.trans ha)
  running := h.running

theorem changed (h : s.Sturdy fit good) {change : Controller × List Event}
    (hc : change.1.applied = s.controller.applied) : (s.changed change).Sturdy fit good where
  answers := h.answers
  outside := h.outside
  applied ha := h.applied (hc.symm.trans ha)
  running := h.running

theorem after (h : s.Sturdy fit good) {outside : σ} (hg : good outside) :
    (s.after outside).Sturdy fit good :=
  ⟨h.answers, hg, h.applied, h.running⟩

theorem halt (h : s.Sturdy fit good) : s.halt.Sturdy fit good :=
  ⟨h.answers, h.outside, h.applied, nofun⟩

theorem become (h : s.Sturdy fit good) (state : Lifecycle) :
    (s.become state).2.Sturdy fit good := by
  unfold Station.become
  split
  · rename_i change hbecome
    refine h.changed ?_
    unfold Controller.become at hbecome
    split_ifs at hbecome
    · cases hbecome
      rfl
    · cases hbecome
      rfl
  · exact h

theorem saveConfiguration (h : s.Sturdy fit good) : s.saveConfiguration.Sturdy fit good := by
  obtain ⟨files, heq⟩ := saveConfiguration_eq s
  rw [heq]
  exact ⟨h.answers, h.outside, h.applied, h.running⟩

/-! ### Views and cycles -/

theorem view (h : s.Sturdy fit good) : s.view.2.Sturdy fit good := by
  rcases view_cases s with ⟨snapshot, _, heq⟩ | ⟨e, heq⟩
  · rw [heq]
    exact h.withController rfl
  · rw [heq]
    exact h

theorem startedView (h : s.Sturdy fit good) : s.startedView.2.Sturdy fit good := by
  unfold Station.startedView
  split
  · exact h
  · exact h.view

theorem reconcile (h : s.Sturdy fit good) (hp : p.Sturdy timely fit good)
    (hnow : timely s.world.now) (hgoes : s.GoesThrough p) :
    (s.reconcile p).2.Sturdy fit good := by
  cases hready : s.controller.ensureStarted with
  | error e =>
    simp only [Station.reconcile, hready]
    exact h
  | ok u =>
    cases ha : s.controller.applied with
    | none =>
      simp only [Station.reconcile, hready, ha]
      exact h
    | some a =>
      rcases view_cases s with ⟨snapshot, hs, _⟩ | ⟨e, heq⟩
      · have hworks : s.WorksOn a :=
          ⟨Controller.started_of_ready hready, ha, (h.applied ha).1⟩
        have hthrough : (s.turn p a snapshot).GoesThrough := hgoes a snapshot ha hs
        let change : Controller × List Event :=
          ((s.turn p a snapshot).closing.controller, (s.turn p a snapshot).closing.events)
        have hcontroller : change.1.applied = s.controller.applied := by
          show (s.turn p a snapshot).closing.controller.applied = _
          rw [Turn.closing_controller]
          rfl
        rw [reconcile_eq hworks hs hthrough]
        have hclosing : good (s.turn p a snapshot).closing.outside :=
          Turn.closing_sturdy hp hnow h.outside
        exact (h.after hclosing).changed hcontroller
      · simp only [Station.reconcile, hready, ha, heq]
        exact h.withController ha.symm

/-! ### Fetches that are asked for -/

theorem refresh (h : s.Sturdy fit good) (hp : p.Sturdy timely fit good) :
    (s.refresh p).Sturdy fit good := by
  unfold Station.refresh
  split
  · exact h
  · rename_i r hr
    obtain ⟨hfit, hticking⟩ := h.running (running_of_working hr)
    have hf : (r.fetcher p).Sturdy good := hp.retrying r.applied.driver hfit
    have hlive : LiveCache.Sturdy good (r.live, s.world) := ⟨h.outside, hticking⟩
    have hforced := (LiveCache.force_moves r.live s.world).sturdy hf hlive
    have hanswered := hlive.force hf
    generalize r.live.force (r.fetcher p) s.world = forced at hforced hanswered
    obtain ⟨result, live, world⟩ := forced
    refine ⟨?_, hforced.outside, h.applied, ?_⟩
    · have hsome : result.isSome = true := hanswered
      show (s.stuck || result.isNone) = false
      rw [Option.isNone_eq_false_iff.2 hsome, h.answers]
      rfl
    · rintro _ ⟨⟩
      exact ⟨hfit, hforced.ticking⟩

theorem refreshDue (h : s.Sturdy fit good) (hp : p.Sturdy timely fit good) :
    (s.refreshDue p).Sturdy fit good := by
  unfold Station.refreshDue
  split
  · exact h
  · rename_i r hr
    obtain ⟨hfit, hticking⟩ := h.running (running_of_working hr)
    have hsettled := (LiveCache.settle_moves (f := r.fetcher p) r.live s.world).moves.sturdy
      (hp.retrying r.applied.driver hfit) ⟨h.outside, hticking⟩
    refine ⟨h.answers, hsettled.outside, h.applied, ?_⟩
    rintro _ ⟨⟩
    exact ⟨hfit, hsettled.ticking⟩

/-- **Who starts is answered.** -/
theorem launch (h : s.Sturdy fit good) (hp : p.Sturdy timely fit good) :
    (s.launch p).2.Sturdy fit good := by
  rw [Station.launch]
  cases ha : s.controller.applied with
  | none => exact h
  | some a =>
    obtain ⟨hvalid, hfit⟩ := h.applied ha
    have hf := hp.retrying a.driver hfit
    have hinterval : (Span.ofSeconds a.config.fetch.refreshInterval).nanos ≠ 0 :=
      Nat.mul_ne_zero (Nat.ne_of_gt (periods_pos_of_validate hvalid).2) (by decide)
    have hticker : (s.begun a).ticker =
        some ⟨s.world.now, .ofSeconds a.config.fetch.refreshInterval⟩ := if_neg hinterval
    have hbegun : LiveCache.Sturdy good (s.begun a, s.world) := ⟨h.outside, by rw [hticker]; rfl⟩
    have hopened : LiveCache.Sturdy good (s.opened p a) :=
      (LiveCache.awaitFirst_moves _ _).moves.sturdy hf hbegun
    have hfetched : (s.opened p a).1.fetched = true :=
      hbegun.awaitFirst hf rfl rfl hticker (Instant.le_refl _)
    show (s.beginWork a (s.opened p a)).2.Sturdy fit good
    generalize s.opened p a = opened at hopened hfetched
    obtain ⟨live, world⟩ := opened
    unfold Station.beginWork
    simp only
    rw [if_pos hfetched]
    let ticker : Ticker := ⟨world.now, .ofSeconds a.config.updateInterval⟩
    have hworking : Sturdy fit good { s with running := some ⟨a, live, ticker⟩, world } := by
      refine ⟨h.answers, hopened.outside, h.applied, ?_⟩
      rintro _ ⟨⟩
      exact ⟨hfit, hopened.ticking⟩
    exact hworking.become .started

/-! ### Requests -/

theorem noteGone (h : s.Sturdy fit good) (id : String) (decrement : Bool) (events : List Event) :
    (s.noteGone id decrement events).Sturdy fit good := by
  unfold Station.noteGone
  simp only
  split
  · refine (h.changed rfl).changed ?_
    rw [Controller.lowerDesired_fst]
  · exact h.changed rfl

theorem removeBy {ε : Type} (h : s.Sturdy fit good) (hp : p.Sturdy timely fit good) (id : String)
    (decrement : Bool) (events : List Event) {call : DriverId → Instant → σ → Except ε Unit × σ}
    (why : ε → ControllerError)
    (hcall : ∀ d {now outside}, good outside → good (call d now outside).2) :
    (s.removeBy p id decrement events call why).2.Sturdy fit good := by
  have hmember : (s.memberDriver id).2.Sturdy fit good := by
    rw [memberDriver_snd]
    exact h.startedView
  unfold Station.removeBy
  split
  · rename_i heq
    rwa [heq] at hmember
  · rename_i d s' heq
    rw [heq] at hmember
    have hcalled : good (call d s'.world.now s'.world.outside).2 := hcall d hmember.outside
    split
    · rename_i hfailed
      rw [hfailed] at hcalled
      exact hmember.after hcalled
    · rename_i hdone
      rw [hdone] at hcalled
      exact ((hmember.after hcalled).noteGone id decrement events).refresh hp

theorem machineCall (h : s.Sturdy fit good) (hp : p.Sturdy timely fit good) (id : String)
    {call : DriverId → Instant → σ → Except DriverError Unit × σ} {note : Station σ → Station σ}
    (hcall : ∀ d {now outside}, good outside → good (call d now outside).2)
    (hnote : ∀ {s' : Station σ}, s'.controller = s.controller → s'.Sturdy fit good →
      (note s').Sturdy fit good) :
    (s.machineCall p id call note).2.Sturdy fit good := by
  unfold Station.machineCall
  split
  · exact h
  · rename_i d _
    have hcalled : good (call d s.world.now s.world.outside).2 := hcall d h.outside
    split
    · rename_i hfailed
      rw [hfailed] at hcalled
      exact h.after hcalled
    · rename_i outside hdone
      rw [hdone] at hcalled
      have hnoted : (note (s.after outside)).Sturdy fit good := hnote rfl (h.after hcalled)
      exact hnoted.refresh hp

theorem noteAttached (h : s.Sturdy fit good)
    (hroom : s.controller.raiseDesired.isSome = true) : s.noteAttached.Sturdy fit good := by
  have hgoes : (s.stuck || s.controller.raiseDesired.isNone) = s.stuck := by
    rw [Option.isNone_eq_false_iff.2 hroom, Bool.or_false]
  have hraised : (s.changed s.controller.raise).Sturdy fit good := by
    refine h.changed ?_
    rw [Controller.raise_fst]
    rfl
  rw [noteAttached_eq, hgoes]
  exact hraised

theorem apply (h : s.Sturdy fit good) (hp : p.Sturdy timely fit good) {config : PoolConfig}
    (hfit : fit config) (hnow : timely s.world.now) : (s.apply p config).2.Sturdy fit good := by
  unfold Station.apply
  split
  · exact h
  · rename_i hvalid
    have hcreated := hp.create config.driver h.outside
    split
    · rename_i heq
      rw [heq] at hcreated
      exact h.after hcreated
    · rename_i driver outside heq
      rw [heq] at hcreated
      have hconfigured := hp.configure driver hfit hnow hcreated
      split
      · rename_i heq'
        rw [heq'] at hconfigured
        exact h.after hconfigured
      · rename_i outside' heq'
        rw [heq'] at hconfigured
        have hadopted : Sturdy fit good ((s.after outside').halt.changed
            ((s.after outside').halt.controller.adopt ⟨config, driver⟩)) := by
          refine ⟨h.answers, hconfigured, fun {a} ha => ?_, nofun⟩
          have happlied : (s.controller.adopt ⟨config, driver⟩).1.applied =
              some ⟨config, driver⟩ := by
            rw [Controller.adopt_eq, (Controller.blind_resize _).applied]
            rfl
          cases happlied.symm.trans ha
          exact ⟨hvalid, hfit⟩
        have hstopped := hadopted.become .stopped
        simp only
        split
        · rename_i heq''
          rwa [heq''] at hstopped
        · rename_i heq''
          rwa [heq''] at hstopped

theorem proceed (h : s.Sturdy fit good) (hp : p.Sturdy timely fit good) (wasStarted : Bool) :
    (s.proceed p wasStarted).2.Sturdy fit good := by
  have hlaunched := h.launch hp
  unfold Station.proceed
  split
  · split
    · rename_i heq
      rwa [heq] at hlaunched
    · rename_i heq
      rw [heq] at hlaunched
      split
      · exact hlaunched
      · exact hlaunched.saveConfiguration
  · exact h.saveConfiguration

theorem configure (h : s.Sturdy fit good) (hp : p.Sturdy timely fit good) {config : PoolConfig}
    (hfit : fit config) (hnow : timely s.world.now) :
    (s.configure p config).2.Sturdy fit good := by
  have happlied := h.apply hp hfit hnow
  cases heq : s.apply p config with
  | mk answer s' =>
    rw [heq] at happlied
    cases answer with
    | error e =>
      simp only [Station.configure, heq]
      exact happlied
    | ok wasStarted =>
      rw [configure_of_apply heq]
      exact happlied.proceed hp wasStarted

/-- **Every request in time is answered**, if it asks for no configuration but a fit one, its cycle
goes through, and there is room for the machine that it attaches. -/
theorem respond (h : s.Sturdy fit good) (hp : p.Sturdy timely fit good) (hnow : timely s.world.now)
    {request : Request} (hfit : ∀ config, request = .configure config → fit config)
    (hgoes : request = .reconcile → s.GoesThrough p)
    (hroom : ∀ id, request = .attach id → s.controller.raiseDesired.isSome = true) :
    (s.respond p request).2.Sturdy fit good := by
  cases request with
  | configure config => exact h.configure hp (hfit config rfl) hnow
  | getConfiguration =>
    rw [Station.respond]
    split
    · exact h
    · exact h
  | start =>
    rw [Station.respond]
    split
    · exact h
    · exact h
    · exact h.launch hp
  | stop =>
    rw [Station.respond]
    split
    · exact h.halt.become .stopped
    · exact h
  | getStatus => exact h
  | reconcile => exact h.reconcile hp hnow (hgoes rfl)
  | getPool => exact h.startedView
  | getPoolSize =>
    show s.poolSize.2.Sturdy fit good
    rw [poolSize_snd]
    exact h.startedView
  | setDesired size =>
    rw [Station.respond]
    split
    · exact h
    · refine h.changed ?_
      rw [Controller.setDesired_fst]
  | terminate id decrement =>
    show (s.terminate p id decrement).2.Sturdy fit good
    rw [terminate_eq_removeBy]
    exact h.removeBy hp id decrement _ _ fun d => hp.terminate d [id]
  | attach id =>
    refine h.machineCall hp id (fun d => hp.attach d id) fun hsame hs => hs.noteAttached ?_
    rw [hsame]
    exact hroom id rfl
  | detach id decrement =>
    show (s.detach p id decrement).2.Sturdy fit good
    rw [detach_eq_removeBy]
    exact h.removeBy hp id decrement _ _ fun d => hp.detach d id
  | setService id service =>
    exact h.machineCall hp id (fun d => hp.setService d id service) fun _ hs => hs
  | setMembership id membership =>
    exact h.machineCall hp id (fun d => hp.setMembership d id membership) fun _ hs => hs

/-! ### Runs -/

theorem tick (h : s.Sturdy fit good) (hp : p.Sturdy timely fit good) (hnow : timely s.world.now)
    (hgoes : s.GoesThrough p) (freeSince : Instant) :
    (s.tick p freeSince).Sturdy fit good := by
  unfold Station.tick
  split
  · exact h
  · rename_i r hworking
    have hr := running_of_working hworking
    have hlive := h.running hr
    split
    · let ticker := r.ticker.fire (freeSince.latest r.ticker.due)
      have hfired : Sturdy fit good { s with running := some { r with ticker } } := by
        refine ⟨h.answers, h.outside, h.applied, ?_⟩
        rintro _ ⟨⟩
        exact hlive
      refine hfired.reconcile hp hnow fun a snapshot ha hs => hgoes a snapshot ha ?_
      obtain ⟨_, ⟨⟩, hserve⟩ := hs
      exact ⟨r, hr, hserve⟩
    · exact h

end Sturdy

/-- The configuration on file. -/
def onFile (store : Option Store) (files : FileTree) : Option PoolConfig :=
  store.bind fun store =>
    (store.load FileTree.system PoolConfig.codec configFile files).toOption.join

theorem boot_sturdy (hp : p.Sturdy timely fit good) {store : Option Store} {world : World σ}
    (hg : good world.outside) (hnow : timely world.now)
    (hfit : ∀ config, onFile store world.files = some config → fit config) :
    (boot p store world).Sturdy fit good := by
  unfold boot
  simp only
  split
  · rename_i config hsaved
    exact (Sturdy.new hg store).apply hp (hfit config hsaved) hnow
  · exact .new hg store

/-- The configuration that is applied when something happens. -/
def Happening.config? (what : Happening σ) (s : Station σ) : Option PoolConfig :=
  match what with
  | .message (.configure config) => some config
  | .restart => onFile s.store s.world.files
  | _ => none

/-- Whether a cycle is run then. -/
def Happening.cycles : Happening σ → Bool
  | .message .reconcile => true
  | .cycle _ => true
  | _ => false

/-- **Whatever happens in time**, if no configuration is applied but a fit one, cycles go through,
there is room for machines that are attached, and nothing changes outside but as it should. -/
theorem Sturdy.happen (h : s.Sturdy fit good) (hp : p.Sturdy timely fit good)
    (hnow : timely s.world.now) {what : Happening σ}
    (hfit : ∀ config, what.config? s = some config → fit config)
    (hgoes : what.cycles = true → s.GoesThrough p)
    (hroom : ∀ id, what = .message (.attach id) → s.controller.raiseDesired.isSome = true)
    (houtside : ∀ change, what = .outside change → good (change s.world.outside)) :
    (s.happen p what).2.Sturdy fit good := by
  cases what with
  | message request =>
    show (s.heed p request).2.Sturdy fit good
    rw [heed, if_neg (by rw [h.answers]; exact Bool.false_ne_true)]
    exact h.respond hp hnow (fun config hconfig => hfit config (by rw [hconfig]; rfl))
      (fun hcycle => hgoes (by rw [hcycle]; rfl)) fun id hattach => hroom id (by rw [hattach])
  | cycle freeSince => exact h.tick hp hnow (hgoes rfl) freeSince
  | refresh => exact h.refreshDue hp
  | later d => exact ⟨h.answers, h.outside, h.applied, h.running⟩
  | outside change => exact h.after (houtside change rfl)
  | restart => exact boot_sturdy hp h.outside hnow hfit

end Station

end PoolKeeper
