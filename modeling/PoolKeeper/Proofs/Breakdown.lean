import PoolKeeper.Proofs.Answering
import PoolKeeper.Proofs.Booting
import PoolKeeper.Proofs.Fleet

/-!
# Boots that are too long

A boot that ends past the end of time breaks the next listing down, and with it the background
refreshes and whoever waits for the first of them. No settings are refused for it.

* `Fleet.told`, `Fleet.Mild`: operations of the providers, and what keeps their boots in bounds;
  **`Fleet.sturdy`**: short boots make sturdy providers;
* `Station.Countable`: nothing else can break the controller down now;
  `Station.Happening.Within`, `Station.RunWithin`: what happens within those bounds;
  **`Station.RunWithin.sturdy`**: then every request is answered and the refreshes go on;
* `Station.launchedLast`, `Station.startedAgain`: a machine that boots a second longer, launched
  in the last second of the year 9999;
* **`Station.boots_safe_iff`**: how long boots may take; `Station.start_unanswered`: a boot too long
  to be told, without machines.
-/

namespace PoolKeeper

variable {b : Nat}

/-- Settings that are taken let boots last at most so many seconds, and the attempts of a fetch can
be counted. -/
structure PoolConfig.Within (b : Nat) (config : PoolConfig) : Prop where
  boots : ∀ s, CloudSettings.ofJson config.driver.settings = .ok s → s.bootSeconds ≤ b
  retries : config.fetch.retries.maxRetries + 1 < RetryPolicy.attemptLimit

/-! ## Providers -/

theorem brokenBy_eq_false_iff {answer : Starting} :
    brokenBy answer = false ↔ answer ≠ .error .crashed := by
  rcases answer with (e | _) | machines
  · exact iff_of_true rfl fun h => by cases h
  · exact iff_of_false (fun h => by cases h) fun h => h rfl
  · exact iff_of_true rfl fun h => by cases h

namespace Fleet

variable {f : Fleet} {d : DriverId}

/-- The provider of a driver after an operation. -/
def told (d : DriverId) (op : Cloud.Operation) (f : Fleet) : Fleet :=
  { f with clouds := f.clouds.set d (op.perform (f.cloud d)) }

/-- All providers keep their boots within bounds. -/
def Mild (b : Nat) (f : Fleet) : Prop := ∀ c ∈ f.clouds, c.Mild b

theorem mild_new (fresh : Bool) : (new fresh).Mild b := by
  intro c hc
  rw [List.mem_singleton.1 hc]
  exact .new b

theorem Mild.cloud (h : f.Mild b) (d : DriverId) : (f.cloud d).Mild b := by
  rw [Fleet.cloud, List.getD_eq_getElem?_getD]
  cases hd : f.clouds[d]? with
  | none => exact .new b
  | some c => exact h c (List.mem_of_getElem? hd)

theorem Mild.told (h : f.Mild b) (d : DriverId) (op : Cloud.Operation)
    (hop : op.Within b) : (f.told d op).Mild b := by
  intro c hc
  rcases List.mem_or_eq_of_mem_set hc with hc | rfl
  · exact h c hc
  · exact (h.cloud d).perform hop

theorem Mild.create (h : f.Mild b) (config : DriverConfig) :
    (f.create config).2.Mild b := by
  unfold Fleet.create
  split
  · simp only
    split
    · intro c hc
      rcases List.mem_append.1 hc with hc | hc
      · exact h c hc
      · rw [List.mem_singleton.1 hc]
        exact .new b
    · exact h
  · exact h

/-- **Short boots make sturdy providers.** -/
theorem sturdy (hb : b ≤ Cloud.longestSafeBoot) :
    provider.Sturdy Instant.FourDigit (PoolConfig.Within b) (Mild b) where
  create config _ hf := hf.create config
  configure d config now _ hfit hnow hf :=
    hf.told d (.configure config.name config.driver.settings now) ⟨hnow, hfit.boots⟩
  list d now f hf := by
    refine ⟨hf.told d (.list now) trivial, fun hcrashed => ?_⟩
    exact ((Cloud.list_crashed_iff _ now).1 hcrashed).2.2 ((hf.cloud d).foreseeable hb)
  start d count now _ hnow hf := hf.told d (.start count now) hnow
  terminate d ids _ _ hf := hf.told d (.terminate ids) trivial
  attach d id _ _ hf := hf.told d (.attach id) trivial
  detach d id _ _ hf := hf.told d (.detach id) trivial
  setService d id service _ _ hf := hf.told d (.setService id service) trivial
  setMembership d id membership _ _ hf := hf.told d (.setMembership id membership) trivial
  room hfit := hfit.retries

end Fleet

/-! ## Runs -/

namespace Station

/-- A cycle can be counted on: the pool is to have no more machines than a start has room for, and
the hours of the machines that it has end in time. -/
structure Countable (s : Station Fleet) : Prop where
  size : ∀ size, s.controller.desired = some size → size ≤ Cloud.largestStart
  hours : ∀ view, s.view.1 = .ok view → ∀ m ∈ view.machines, m.HourTold s.world.now

theorem countable_of_toOption {s : Station Fleet}
    (hsize : ∀ size ∈ s.controller.desired, size ≤ Cloud.largestStart)
    (hhours : ∀ view ∈ s.view.1.toOption, ∀ m ∈ view.machines, m.HourTold s.world.now) :
    s.Countable :=
  ⟨hsize, fun view hview => hhours view (by rw [hview]; rfl)⟩

/-- **Such a cycle goes through.** -/
theorem Countable.goesThrough {s : Station Fleet} (h : s.Countable) :
    s.GoesThrough Fleet.provider := by
  intro a snapshot _ hs
  let t := s.turn Fleet.provider a snapshot
  have hview : s.view.1 = .ok t.view := by rw [hs.view_eq]; rfl
  have hforesees : t.Foresees := Planner.foresees_of_told (h.hours t.view hview) t.desired
  by_cases hnone : t.requested = 0
  · exact t.goesThrough_of_foresees hforesees hnone
  · refine ⟨hforesees, ?_⟩
    cases hsize : s.controller.desired with
    | none => exact absurd (t.requested_of_learning hsize) hnone
    | some size =>
      have hdesired : t.desired = size := by
        show s.controller.desired.getD _ = size
        rw [hsize, Option.getD_some]
      have hfew : t.requested ≤ Cloud.largestStart :=
        (Nat.sub_le _ _).trans (hdesired ▸ h.size size hsize)
      have hstarts : (Fleet.provider.start t.driver t.requested t.now t.outside).1 ≠
          .error .crashed := fun hcrashed =>
        absurd (Cloud.start_crashed_iff.1 hcrashed).2 (Nat.not_lt.2 hfew)
      rw [Turn.breaks, Cycle.breaks, if_neg hnone]
      exact brokenBy_eq_false_iff.2 hstarts

/-- Something that happens within bounds: the clock shows a year from 0 to 9999, no configuration
beyond the bounds is applied, cycles can be counted on, the size has room for a machine that is
attached, and all that changes outside is that a provider is told to do something within the
bounds. -/
structure Happening.Within (b : Nat) (what : Happening Fleet) (s : Station Fleet) : Prop where
  now : s.world.now.FourDigit
  config : ∀ config, what.config? s = some config → config.Within b
  cycle : what.cycles = true → s.Countable
  attach : ∀ id, what = .message (.attach id) → ∀ size, s.controller.desired = some size →
    size + 1 < Controller.sizeLimit
  outside : ∀ change, what = .outside change → ∃ d op, Cloud.Operation.Within b op ∧
    change s.world.outside = s.world.outside.told d op

/-- All that happens is within bounds. -/
def RunWithin (b : Nat) : List (Happening Fleet) → Station Fleet → Prop
  | [], _ => True
  | what :: rest, s =>
    what.Within b s ∧ RunWithin b rest (s.happen Fleet.provider what).2

/-- **Every request of such a run is answered, and the background refreshes go on.** -/
theorem RunWithin.sturdy (hb : b ≤ Cloud.longestSafeBoot) {hs : List (Happening Fleet)}
    {s : Station Fleet} (hrun : RunWithin b hs s)
    (h : s.Sturdy (PoolConfig.Within b) (Fleet.Mild b)) :
    (s.happenAll Fleet.provider hs).Sturdy (PoolConfig.Within b) (Fleet.Mild b) := by
  induction hs generalizing s with
  | nil => exact h
  | cons what rest ih =>
    obtain ⟨hwhat, hrest⟩ := hrun
    have hroom : ∀ id, what = .message (.attach id) →
        s.controller.raiseDesired.isSome = true := by
      intro id hattach
      rw [← Option.isNone_eq_false_iff, Controller.isNone_raiseDesired]
      cases hsize : s.controller.desired with
      | none => rfl
      | some size =>
        exact decide_eq_false (Nat.not_le.2 (hwhat.attach id hattach size hsize))
    have houtside : ∀ change, what = .outside change → (change s.world.outside).Mild b := by
      intro change hchange
      obtain ⟨d, op, hop, heq⟩ := hwhat.outside change hchange
      rw [heq]
      exact h.outside.told d op hop
    exact ih hrest (h.happen (Fleet.sturdy hb) hwhat.now hwhat.config
      (fun hcycles => (hwhat.cycle hcycles).goesThrough) hroom houtside)

theorem runWithin_append {first rest : List (Happening Fleet)} {s : Station Fleet} :
    RunWithin b (first ++ rest) s ↔
      RunWithin b first s ∧ RunWithin b rest (s.happenAll Fleet.provider first) := by
  induction first generalizing s with
  | nil => exact (and_iff_right trivial).symm
  | cons what first ih =>
    rw [List.cons_append, RunWithin, RunWithin, ih, and_assoc]
    rfl

/-! ## Boots that are too long -/

/-- A pool of one machine, whose boot takes a second longer than the longest safe one. -/
def overlongBoot : PoolConfig where
  name := "web"
  driver := ⟨Cloud.kind, .array [.null, .nat (Cloud.longestSafeBoot + 1)]⟩
  desiredSize := some 1

/-- A new station half a minute before the end of the year 9999. -/
def lastMinute : Station Fleet :=
  { world := { now := ⟨Instant.fiveDigits - 31, 0⟩, outside := .new false, files := default } }

/-- The machine is launched in the last second of that year, and a refresh is due. -/
def launchedLast : List (Happening Fleet) :=
  [.message (.configure overlongBoot), .message .start, .later (.ofSeconds 30), .message .reconcile,
    .refresh]

/-- The controller is stopped, and starts again. -/
def startedAgain : List (Happening Fleet) := [.message .stop, .message .start]

theorem launchedLast_within (h : Cloud.longestSafeBoot < b) :
    RunWithin b (launchedLast ++ startedAgain) lastMinute := by
  have hconfig : overlongBoot.Within b := by
    refine ⟨fun s hs => ?_, by decide⟩
    cases hs
    exact h
  refine ⟨⟨by decide +kernel, ?_, nofun, nofun, nofun⟩,
    ⟨by decide +kernel, nofun, nofun, nofun, nofun⟩,
    ⟨by decide +kernel, nofun, nofun, nofun, nofun⟩,
    ⟨by decide +kernel, nofun,
      fun _ => countable_of_toOption (by decide +kernel) (by decide +kernel), nofun, nofun⟩,
    ⟨by decide +kernel, nofun, nofun, nofun, nofun⟩,
    ⟨by decide +kernel, nofun, nofun, nofun, nofun⟩,
    ⟨by decide +kernel, nofun, nofun, nofun, nofun⟩, trivial⟩
  rintro _ ⟨⟩
  exact hconfig

/-- The refresh breaks down, and no other follows. -/
theorem launchedLast_ends : ∃ r,
    (lastMinute.happenAll Fleet.provider launchedLast).running = some r ∧ r.live.ticker = none := by
  have hends : (lastMinute.happenAll Fleet.provider launchedLast).running.map
      (fun r => r.live.ticker) = some none := by decide +kernel
  obtain ⟨r, hr, hnone⟩ := Option.map_eq_some_iff.1 hends
  exact ⟨r, hr, hnone⟩

theorem startedAgain_stuck :
    (lastMinute.happenAll Fleet.provider (launchedLast ++ startedAgain)).stuck = true := by
  decide +kernel

/-- **How long boots may take.** No settings are refused for the length of a boot. A listing breaks
down exactly if the provider is configured and up and the end of a boot cannot be told. Whatever
happens to a new provider in the years 0 to 9999, that is never so exactly if no boot takes longer
than the longest safe one. As long as all that a controller counts stays within bounds, exactly then
every request to it over such providers is answered whatever happens, and exactly then its background
refreshes always go on. -/
theorem boots_safe_iff (b : Nat) :
    (∀ n, CloudSettings.ofJson (.object [("boot_secs", .nat n)]) = .ok { bootSeconds := n }) ∧
    (∀ (c : Cloud) now, (c.list now).1 = .error .crashed ↔
      c.poolName.isSome = true ∧ c.listFailures = 0 ∧ ¬ c.Foreseeable) ∧
    (b ≤ Cloud.longestSafeBoot ↔
      ∀ history : List Cloud.Operation, (∀ op ∈ history, op.Within b) →
        ∀ now, ((history.foldl Cloud.Operation.perform {}).list now).1 ≠ .error .crashed) ∧
    (b ≤ Cloud.longestSafeBoot ↔
      ∀ (store : Option Store) (world : World Fleet) fresh hs, world.outside = .new fresh →
        RunWithin b hs { world, store } →
          (happenAll Fleet.provider hs { world, store }).stuck = false) ∧
    (b ≤ Cloud.longestSafeBoot ↔
      ∀ (store : Option Store) (world : World Fleet) fresh hs, world.outside = .new fresh →
        RunWithin b hs { world, store } →
          ∀ r, (happenAll Fleet.provider hs { world, store }).running = some r →
            r.live.ticker.isSome = true) := by
  have hsturdy : ∀ {store} {world : World Fleet} {fresh hs}, b ≤ Cloud.longestSafeBoot →
      world.outside = .new fresh → RunWithin b hs { world, store } →
        Sturdy (PoolConfig.Within b) (Fleet.Mild b)
          (happenAll Fleet.provider hs { world, store }) := by
    intro store world fresh hs hb hnew hrun
    exact hrun.sturdy hb (.new (by rw [hnew]; exact Fleet.mild_new fresh) store)
  refine ⟨fun _ => rfl, Cloud.list_crashed_iff, Cloud.listing_safe_iff b, ?_, ?_⟩
  · refine ⟨fun hb _ _ _ _ hnew hrun => (hsturdy hb hnew hrun).answers, fun h => ?_⟩
    by_contra hb
    have hwithin : RunWithin b (launchedLast ++ startedAgain) lastMinute :=
      launchedLast_within (Nat.not_le.1 hb)
    have hanswered := h none lastMinute.world false _ rfl hwithin
    cases startedAgain_stuck.symm.trans hanswered
  · refine ⟨fun hb _ _ _ _ hnew hrun r hr => ((hsturdy hb hnew hrun).running hr).2, fun h => ?_⟩
    by_contra hb
    have hwithin : RunWithin b launchedLast lastMinute :=
      (runWithin_append.1 (launchedLast_within (Nat.not_le.1 hb))).1
    obtain ⟨r, hr, hends⟩ := launchedLast_ends
    have hgoes := h none lastMinute.world false _ rfl hwithin r hr
    rw [hends] at hgoes
    cases hgoes

/-- A pool without machines, whose boots take a second longer than a duration can. -/
def endlessBoot : PoolConfig where
  name := "web"
  driver := ⟨Cloud.kind, .object [("boot_secs", .nat (Cloud.longestBoot + 1))]⟩

/-- A new station at noon of 2024-01-01. -/
def atNoon : Station Fleet :=
  { world := { now := ⟨1704110400, 0⟩, outside := .new false, files := default } }

/-- The settings are taken and no machine boots, and yet the listing breaks down. Who starts the
controller is never answered. -/
theorem start_unanswered :
    (∃ c, ({} : Cloud).configure "web" endlessBoot.driver.settings atNoon.world.now = (.ok (), c) ∧
      c.machines = .empty ∧ (c.list atNoon.world.now).1 = .error .crashed) ∧
      ((atNoon.happenAll Fleet.provider [.message (.configure endlessBoot)]).happen Fleet.provider
        (.message .start)).1 = none ∧
      (atNoon.happenAll Fleet.provider
        [.message (.configure endlessBoot), .message .start]).stuck = true := by
  refine ⟨⟨_, rfl, rfl, rfl⟩, ?_, ?_⟩
  · decide +kernel
  · decide +kernel

end Station

end PoolKeeper
