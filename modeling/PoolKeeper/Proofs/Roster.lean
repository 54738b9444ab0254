import PoolKeeper.Proofs.Closing
import PoolKeeper.Proofs.Idle
import PoolKeeper.Proofs.Lifecycle
import PoolKeeper.Proofs.Restart

/-!
# Work that was ended

A station that was started, stopped and configured any number of times has begun and ended
background work each time. Whatever of it is still around, only the present work does anything, and
that ends with a controller that breaks down.

* `Work`, `Roster`: a station with all the background work that it has ended; `Roster.Step`,
  `Roster.Reachable`: it answers requests, and any work goes on whenever it wants to;
* `Roster.Orderly`, **`Roster.Reachable.orderly`**: ended work is closed for good, and the present
  work goes on;
* `Roster.Idles`, **`Roster.Idles.idle`**: without a start, a station that is not started calls a
  driver for nothing but to configure it;
* **`Roster.one_loop_each`**: all of that for every reachable roster.
-/

namespace PoolKeeper

variable {σ : Type}

/-! ## Work, present and former -/

/-- Background work that was begun at some time. -/
structure Work where
  /-- The configuration and the driver that it was begun for. -/
  applied : Applied
  live : LiveCache Nat
  /-- Its loop of cycles goes on. -/
  cycling : Bool

namespace Work

/-- How the work fetches the pool. -/
def fetcher (p : Provider σ) (w : Work) : Fetcher σ Nat :=
  .retrying p w.applied.driver w.applied.config.fetch.retries.policy

/-- Its loop of refreshes goes on. -/
def refreshing (w : Work) : Bool := w.live.ticker.isSome

/-- Work that was ended: the cache is closed, and there are no more cycles. -/
def ended (w : Work) : Work := { w with live := w.live.close, cycling := false }

/-- Nothing is left to do. -/
structure Over (w : Work) : Prop where
  closed : w.live.Closed
  still : w.cycling = false

theorem ended_over (w : Work) : w.ended.Over := ⟨.close w.live, rfl⟩

theorem Over.not_refreshing {w : Work} (h : w.Over) : w.refreshing = false := by
  rw [refreshing, h.closed.ticker]
  rfl

end Work

/-- A station and the background work that it has ended. -/
structure Roster (σ : Type) where
  station : Station σ
  former : List Work := []
  /-- The loop of cycles of the present work goes on. -/
  cycling : Bool := true

namespace Roster

/-- The present work, if there is any. -/
def present (h : Roster σ) : List Work :=
  (h.station.working.map fun r => ⟨r.applied, r.live, h.cycling⟩).toList

/-- All work that was ever begun. -/
def works (h : Roster σ) : List Work := h.present ++ h.former

/-- The request ends the present work: a stop, or a configuration that is put in force. -/
def ends (p : Provider σ) (request : Request) (s : Station σ) : Bool :=
  match request with
  | .stop => true
  | .configure config =>
    match (s.apply p config).1 with
    | .ok _ => true
    | .error _ => false
  | _ => false

/-- The work that was ended, with the present work if that is over now. -/
def left (ended : Bool) (h : Roster σ) : List Work :=
  if ended then h.former ++ h.present.map Work.ended else h.former

/-- The answer to a request. Work that it ends is no longer present, nor is any once the controller
has broken down, and work that it begins has a loop of cycles of its own. -/
def respond (p : Provider σ) (request : Request) (h : Roster σ) : Roster σ where
  station := (h.station.respond p request).2
  former := h.left (ends p request h.station || (h.station.respond p request).2.stuck)
  cycling := ends p request h.station || h.station.running.isNone || h.cycling

/-- A loop of cycles goes on unless it learns that the controller is not started. -/
def goesOn : Except ControllerError Report → Bool
  | .error .notStarted | .error .notConfigured => false
  | _ => true

/-- A cycle that a loop asks for. -/
def cycle (p : Provider σ) (h : Roster σ) : Roster σ :=
  let (answer, station) := h.station.reconcile p
  { station, former := h.left station.stuck, cycling := h.cycling && goesOn answer }

/-- The background work that is ready in work that was ended. -/
def settleFormer (p : Provider σ) (before : List Work) (w : Work) (after : List Work)
    (h : Roster σ) : Roster σ :=
  let (live, world) := w.live.settle (w.fetcher p) h.station.world
  { h with
    station := { h.station with world }
    former := before ++ { w with live } :: after }

/-- What can happen, and the request that is answered if it is that. The refreshes and the cycles
of all work go on whenever they want to, and everything else outside may change. -/
inductive Step (p : Provider σ) (h : Roster (Traced σ)) : Option Request → Roster (Traced σ) → Prop
  | respond (request : Request) : Step p h (some request) (h.respond p.traced request)
  | refresh : Step p h none { h with station := h.station.refreshDue p.traced }
  | ticker {r : Running} (ticker : Ticker) : h.station.running = some r →
    Step p h none { h with station := { h.station with running := some { r with ticker } } }
  | cycle : h.station.running.isSome = true → h.cycling = true →
    Step p h none (h.cycle p.traced)
  | formerRefresh {before after : List Work} {w : Work} : h.former = before ++ w :: after →
    Step p h none (h.settleFormer p.traced before w after)
  | formerCycle {w : Work} : w ∈ h.former → w.cycling = true →
    Step p h none (h.respond p.traced .reconcile)
  | world (world : World (Traced σ)) : h.station.world.now ≤ world.now →
    world.outside.calls = h.station.world.outside.calls →
    Step p h none { h with station := { h.station with world } }

/-- What comes about by such steps. -/
inductive Reachable (p : Provider σ) : Roster (Traced σ) → Prop
  | boot (store : Option Store) (world : World (Traced σ)) :
    Reachable p { station := .boot p.traced store world }
  | step {h h' : Roster (Traced σ)} {label : Option Request} : Reachable p h → Step p h label h' →
    Reachable p h'

/-- All former work is over, and the present work goes on unless a list call has broken down. -/
structure Orderly (p : Provider σ) (h : Roster (Traced σ)) : Prop where
  reachable : h.station.Reachable p.traced
  former : ∀ w ∈ h.former, w.Over
  cycling : h.station.running.isSome = true → h.cycling = true
  alive : Station.Alive h.station.running h.station.world

variable {p : Provider σ} {h h' : Roster (Traced σ)} {label : Option Request}

/-- A loop of cycles never learns that a controller at work is not started. -/
theorem goesOn_reconcile (p : Provider σ) {s : Station σ} (hs : s.Sound) {r : Running}
    (hr : s.running = some r) : goesOn (s.reconcile p).1 = true := by
  have hworks := hs.worksOn hr
  have hready : s.controller.ensureStarted = .ok () := by
    rw [Controller.ensureStarted, hworks.started]
  cases hserve : r.live.cache.serve s.world.now with
  | ok snapshot =>
    by_cases hgoes : (s.turn p r.applied snapshot).GoesThrough
    · rw [Station.reconcile_eq hworks ⟨r, hr, hserve⟩ hgoes]
      rfl
    · rw [Station.reconcile_of_not_goesThrough hworks ⟨r, hr, hserve⟩ hgoes]
      rfl
  | error e =>
    have hview : s.view = (.error (.fetch e), s) := by
      simp only [Station.view, hr, hserve]
    simp only [Station.reconcile, hready, hworks.applied, hview]
    rfl

theorem settleFormer_eq {before after : List Work} {w : Work} (hw : w.Over)
    (hformer : h.former = before ++ w :: after) : h.settleFormer p.traced before w after = h := by
  have hsame : before ++ { w with live := w.live } :: after = h.former := hformer.symm
  simp only [settleFormer, hw.closed.settle_eq, hsame]

theorem Orderly.left (ho : h.Orderly p) (ended : Bool) : ∀ w ∈ h.left ended, w.Over := by
  intro w hw
  unfold Roster.left at hw
  split at hw
  · rcases List.mem_append.1 hw with hold | hended
    · exact ho.former w hold
    · obtain ⟨present, _, rfl⟩ := List.mem_map.1 hended
      exact present.ended_over
  · exact ho.former w hw

theorem Orderly.respond (ho : h.Orderly p) (request : Request) :
    (h.respond p.traced request).Orderly p where
  reachable := ho.reachable.respond request
  former := ho.left _
  cycling _ := by
    simp only [Roster.respond, Bool.or_eq_true, Option.isNone_iff_eq_none]
    cases hr : h.station.running with
    | none => exact .inl (.inr rfl)
    | some r => exact .inr (ho.cycling (by rw [hr]; rfl))
  alive := Station.respond_alive p request ho.alive

theorem Orderly.cycle (ho : h.Orderly p) (hsome : h.station.running.isSome = true)
    (hcycling : h.cycling = true) : (h.cycle p.traced).Orderly p := by
  obtain ⟨r, hr⟩ := Option.isSome_iff_exists.1 hsome
  have hgoesOn := goesOn_reconcile p.traced ho.reachable.sound hr
  have hreconcile := ho.reachable.reconcile
  have halive := (Station.reconcile_does p.traced h.station).alive ho.alive
  unfold Roster.cycle
  generalize h.station.reconcile p.traced = result at hgoesOn hreconcile halive ⊢
  obtain ⟨answer, station⟩ := result
  refine ⟨hreconcile, ho.left _, fun _ => ?_, halive⟩
  show (h.cycling && goesOn answer) = true
  rw [hcycling, hgoesOn]
  rfl

theorem Orderly.step (ho : h.Orderly p) (hstep : Step p h label h') : h'.Orderly p := by
  cases hstep with
  | respond request => exact ho.respond request
  | refresh =>
    refine ⟨ho.reachable.refreshDue, ho.former, fun hsome => ho.cycling ?_,
      (Station.refreshDue_does p.traced _).alive ho.alive⟩
    unfold Station.refreshDue at hsome
    split at hsome
    · exact hsome
    · rename_i hr
      rw [Station.running_of_working hr]
      rfl
  | @ticker r ticker hr =>
    refine ⟨ho.reachable.ticker ticker hr, ho.former, fun _ => ho.cycling (by rw [hr]; rfl), ?_⟩
    rintro _ ⟨⟩
    exact ho.alive r hr
  | cycle hsome hcycling => exact ho.cycle hsome hcycling
  | @formerRefresh before after w hformer =>
    have hw : w ∈ h.former := by
      rw [hformer]
      exact List.mem_append_right _ List.mem_cons_self
    rw [settleFormer_eq (ho.former w hw) hformer]
    exact ho
  | formerCycle _ _ => exact ho.respond .reconcile
  | world world hnow hcalls =>
    have hgrows : h.station.world.outside.calls <+: world.outside.calls := by
      simp only [hcalls, List.prefix_rfl]
    exact ⟨ho.reachable.world world hnow, ho.former, ho.cycling, ho.alive.mono hgrows⟩

theorem Orderly.boot (p : Provider σ) (store : Option Store) (world : World (Traced σ)) :
    Orderly p { station := .boot p.traced store world } where
  reachable := .boot store world
  former _ hw := by cases hw
  cycling _ := rfl
  alive := (Station.boot_does p.traced store world).alive fun _ hr => by cases hr

/-- **Ended work is over for good, and the present work goes on.** -/
theorem Reachable.orderly (h : Reachable p h') : h'.Orderly p := by
  induction h with
  | boot store world => exact .boot p store world
  | step _ hstep ih => exact ih.step hstep

theorem kept_reachable (p : Provider σ) :
    Station.Kept p.traced fun s => ∃ h, Reachable p h ∧ h.station = s where
  reconcile := by
    rintro _ ⟨h, hreach, rfl⟩
    exact ⟨_, hreach.step (.respond .reconcile), rfl⟩
  refreshDue := by
    rintro _ ⟨h, hreach, rfl⟩
    exact ⟨_, hreach.step .refresh, rfl⟩
  ticker := by
    rintro _ _ ticker hr _ ⟨h, hreach, rfl⟩
    exact ⟨_, hreach.step (.ticker ticker hr), rfl⟩
  later := by
    rintro _ d ⟨h, hreach, rfl⟩
    exact ⟨_, hreach.step (.world (h.station.world.atTime (h.station.world.now.plus d))
      (Instant.le_plus _ d) rfl), rfl⟩

theorem Reachable.ask (hreach : Reachable p h) (request : Request) :
    ∃ h', Reachable p h' ∧ h'.station = (h.station.ask p.traced request).2 :=
  (kept_reachable p).ask ⟨h, hreach, rfl⟩ ⟨_, hreach.step (.respond request), rfl⟩

theorem Reachable.advance (hreach : Reachable p h) (nanos : Nat) :
    ∃ h', Reachable p h' ∧ h'.station = h.station.advance p.traced nanos :=
  (kept_reachable p).advance ⟨h, hreach, rfl⟩ nanos

/-! ## Loops -/

theorem filter_former (ho : h.Orderly p) :
    h.former.filter Work.refreshing = [] ∧ h.former.filter Work.cycling = [] := by
  constructor
  · exact List.filter_eq_nil_iff.2 fun w hw => by simp [(ho.former w hw).not_refreshing]
  · exact List.filter_eq_nil_iff.2 fun w hw => by simp [(ho.former w hw).still]

/-- **A started controller** has one loop of each kind, for the configuration in force. -/
theorem Orderly.started (ho : h.Orderly p) (hstarted : h.station.controller.state = .started)
    (hbroke : ¬ h.station.world.outside.Broke) (hstuck : h.station.stuck = false) :
    ∃ w, h.works.filter Work.refreshing = [w] ∧ h.works.filter Work.cycling = [w] ∧
      h.station.controller.applied = some w.applied := by
  have hsound := ho.reachable.sound
  have hrunning := hsound.started_iff.1 hstarted
  obtain ⟨r, hr⟩ := Option.isSome_iff_exists.1 hrunning
  have happlied := hsound.applied_of_running hr
  have hinterval := (Station.periods_pos_of_validate (hsound.controller.valid _ happlied)).2
  have hrefreshing : r.live.ticker.isSome = true :=
    ((ho.alive r hr).2 (Nat.ne_of_gt hinterval)).resolve_right hbroke
  have hpresent : h.present = [⟨r.applied, r.live, true⟩] := by
    have hworking : h.station.working = some r := by rw [Station.working, hstuck, hr]; rfl
    rw [present, hworking, ho.cycling hrunning]
    rfl
  obtain ⟨hrefreshes, hcycles⟩ := filter_former ho
  refine ⟨⟨r.applied, r.live, true⟩, ?_, ?_, happlied⟩
  · rw [works, List.filter_append, hrefreshes, hpresent, List.append_nil]
    exact List.filter_cons_of_pos hrefreshing
  · rw [works, List.filter_append, hcycles, hpresent, List.append_nil]
    rfl

theorem Orderly.present_eq_nil (ho : h.Orderly p) (hidle : h.station.controller.state ≠ .started) :
    h.station.running = none ∧ h.present = [] := by
  have hnone : h.station.running = none := by
    cases hr : h.station.running with
    | none => rfl
    | some r => exact absurd (ho.reachable.sound.started_iff.2 (by rw [hr]; rfl)) hidle
  refine ⟨hnone, ?_⟩
  rw [present, Station.working_of_none hnone]
  rfl

/-- **A controller that broke down** has none. -/
theorem Orderly.stuck (ho : h.Orderly p) (hstuck : h.station.stuck = true) :
    h.works.filter Work.refreshing = [] ∧ h.works.filter Work.cycling = [] := by
  have hnothing : h.present = [] := by
    rw [present, Station.working, if_pos hstuck]
    rfl
  rw [works, hnothing, List.nil_append]
  exact filter_former ho

/-- **A controller that is not started** has none. -/
theorem Orderly.idle (ho : h.Orderly p) (hidle : h.station.controller.state ≠ .started) :
    h.works.filter Work.refreshing = [] ∧ h.works.filter Work.cycling = [] := by
  rw [works, (ho.present_eq_nil hidle).2, List.nil_append]
  exact filter_former ho

/-! ## Without a start -/

/-- A step that is no start of a configured controller. -/
def Rests (p : Provider σ) (h h' : Roster (Traced σ)) : Prop :=
  ∃ label, Step p h label h' ∧ (label = some .start → h.station.controller.state = .unconfigured)

/-- Steps among which there is no start of a configured controller. -/
abbrev Idles (p : Provider σ) : Roster (Traced σ) → Roster (Traced σ) → Prop :=
  Relation.ReflTransGen (Rests p)

theorem Rests.idle (hrests : Rests p h h') (ho : h.Orderly p)
    (hidle : h.station.controller.state ≠ .started) :
    h'.station.controller.state ≠ .started ∧
      h.station.world.outside.SetUp h'.station.world.outside := by
  have hnone := (ho.present_eq_nil hidle).1
  obtain ⟨label, hstep, hstart⟩ := hrests
  cases hstep with
  | respond request =>
    exact Station.respond_idle p hidle fun heq => hstart (congrArg some heq)
  | refresh =>
    have hsame : h.station.refreshDue p.traced = h.station := by
      rw [Station.refreshDue, Station.working_of_none hnone]
    rw [hsame]
    exact ⟨hidle, .refl _⟩
  | ticker _ hr =>
    rw [hnone] at hr
    cases hr
  | cycle hsome _ =>
    rw [hnone] at hsome
    cases hsome
  | @formerRefresh before after w hformer =>
    have hw : w ∈ h.former := by
      rw [hformer]
      exact List.mem_append_right _ List.mem_cons_self
    rw [settleFormer_eq (ho.former w hw) hformer]
    exact ⟨hidle, .refl _⟩
  | formerCycle _ _ => exact Station.respond_idle p hidle fun heq => by cases heq
  | world world _ hcalls =>
    exact ⟨hidle, [], by rw [hcalls, List.append_nil], fun _ hc => by cases hc⟩

/-- **Without a start** nothing comes of it but that drivers are made and configured. -/
theorem Idles.idle (hidles : Idles p h h') (hreach : Reachable p h)
    (hidle : h.station.controller.state ≠ .started) :
    Reachable p h' ∧ h'.station.controller.state ≠ .started ∧
      h.station.world.outside.SetUp h'.station.world.outside := by
  induction hidles with
  | refl => exact ⟨hreach, hidle, .refl _⟩
  | tail _ hrests ih =>
    obtain ⟨hmid, hmidle, hsetup⟩ := ih
    obtain ⟨hlast, hmore⟩ := hrests.idle hmid.orderly hmidle
    obtain ⟨label, hstep, _⟩ := hrests
    exact ⟨hmid.step hstep, hlast, hsetup.trans hmore⟩

theorem settle_of_none {s : Station σ} (hr : s.running = none) (q : Provider σ)
    (busySince : Instant) : s.settle q busySince = s := by
  have hnothing := Station.working_of_none hr
  have htick : ∀ time, s.tick q time = s := fun time => by rw [Station.tick, hnothing]
  rw [Station.settle, htick, Station.refreshDue, hnothing]
  exact htick _

theorem ask_idles (hreach : Reachable p h) (hidle : h.station.controller.state ≠ .started)
    {request : Request} (hstart : request = .start → h.station.controller.state = .unconfigured) :
    ∃ h', Idles p h h' ∧ h'.station = (h.station.ask p.traced request).2 := by
  have hrests : Rests p h (h.respond p.traced request) :=
    ⟨_, .respond request, fun heq => hstart (Option.some.inj heq)⟩
  have hnone := ((hreach.orderly.respond request).present_eq_nil
    (hrests.idle hreach.orderly hidle).1).1
  unfold Station.ask
  split
  · exact ⟨h, .refl, rfl⟩
  · simp only
    split
    · exact ⟨_, .single hrests, rfl⟩
    · exact ⟨_, .single hrests, (settle_of_none hnone _ _).symm⟩

theorem advance_idles (hreach : Reachable p h) (hidle : h.station.controller.state ≠ .started)
    (nanos : Nat) : ∃ h', Idles p h h' ∧ h'.station = h.station.advance p.traced nanos := by
  have hnone := (hreach.orderly.present_eq_nil hidle).1
  have htime : h.station.nextTime = none := by
    rw [Station.nextTime, Station.working_of_none hnone, Option.map_none]
  have hlater : Step p h none _ := .world
    (h.station.world.atTime (h.station.world.now.plus ⟨nanos⟩)) (Instant.le_plus _ ⟨nanos⟩) rfl
  unfold Station.advance
  rw [htime]
  exact ⟨_, .single ⟨none, hlater, fun heq => (by cases heq)⟩, rfl⟩

/-! ## All of it -/

/-- **One loop of each kind, or none.** However a roster came about: while the controller is started
and no list call has broken down, exactly one loop of refreshes and one loop of cycles go on, and
both belong to the work for the configuration in force, unless the controller broke down itself;
then there are none. Nor are there any while it is not started: what is about the pool is refused,
and whatever comes, but for a start, makes and configures drivers at most. Work that a request ends is never at work again, even if it waited to repeat a fetch. -/
theorem one_loop_each (hreach : Reachable p h) :
    (h.station.controller.state = .started → ¬ h.station.world.outside.Broke →
      h.station.stuck = false →
        ∃ w, h.works.filter Work.refreshing = [w] ∧ h.works.filter Work.cycling = [w] ∧
          h.station.controller.applied = some w.applied) ∧
    (h.station.stuck = true →
      h.works.filter Work.refreshing = [] ∧ h.works.filter Work.cycling = []) ∧
    (h.station.controller.state ≠ .started →
      (h.works.filter Work.refreshing = [] ∧ h.works.filter Work.cycling = []) ∧
      (∀ request, request.manages = true → h.station.respond p.traced request =
        (.error (if h.station.controller.state = .unconfigured then .notConfigured
          else .notStarted), h.station)) ∧
      (∀ request, (request = .start → h.station.controller.state = .unconfigured) →
        ∃ h', Idles p h h' ∧ h'.station = (h.station.ask p.traced request).2) ∧
      (∀ nanos, ∃ h', Idles p h h' ∧ h'.station = h.station.advance p.traced nanos) ∧
      ∀ h', Idles p h h' → h'.station.controller.state ≠ .started ∧
        h.station.world.outside.SetUp h'.station.world.outside) ∧
    (∀ request, ends p.traced request h.station = true →
      ∀ w ∈ h.present, w.ended ∈ (h.respond p.traced request).former) ∧
    ∀ w ∈ h.former, w.cycling = false ∧ w.live.nextTime = none ∧
      ∀ (f : Fetcher (Traced σ) Nat) (world : World (Traced σ)),
        w.live.settle f world = (w.live, world) := by
  have ho := hreach.orderly
  refine ⟨ho.started, ho.stuck,
    fun hidle => ⟨ho.idle hidle, fun request hm => ?_, fun request hstart => ?_,
    advance_idles hreach hidle, fun h' hidles => (hidles.idle hreach hidle).2⟩,
    fun request hends w hw => ?_, fun w hw => ?_⟩
  · exact Station.respond_refused p.traced hidle hm
  · exact ask_idles hreach hidle hstart
  · simp only [respond, left, hends, Bool.true_or, if_true]
    exact List.mem_append_right _ (List.mem_map_of_mem hw)
  · have hover := ho.former w hw
    refine ⟨hover.still, ?_, hover.closed.settle_eq⟩
    simp only [LiveCache.nextTime, hover.closed.underway, hover.closed.ticker, Option.map_none]

end Roster

namespace Fleet

/-- A roster at work on two machines. -/
def twoAtWork : Roster (Traced Fleet) :=
  let new : World (Traced Fleet) := { now := ⟨0, 0⟩, outside := ⟨[], .new false⟩, files := default }
  let begun : Roster (Traced Fleet) := { station := .boot provider.traced none new }
  (begun.respond provider.traced (.configure twoMachines)).respond provider.traced .start

/-- The world half a minute later, when the next list call is to fail. -/
def outage : World (Traced Fleet) :=
  let world := twoAtWork.station.world.atTime ⟨30, 0⟩
  let fleet := world.outside.outside
  let broken := { fleet with clouds := fleet.clouds.map fun c => { c with listFailures := 1 } }
  { world with outside := { world.outside with outside := broken } }

/-- Its refresh waits to repeat the list call. -/
def backingOff : Roster (Traced Fleet) :=
  let failing := { twoAtWork with station := { twoAtWork.station with world := outage } }
  { failing with station := failing.station.refreshDue provider.traced }

/-- Meanwhile it is stopped, and started again. -/
def begunAgain : Roster (Traced Fleet) :=
  (backingOff.respond provider.traced .stop).respond provider.traced .start

theorem one_loop_each_begunAgain :
    backingOff.present.map (fun w => (w.refreshing, w.live.underway.isSome)) = [(true, true)] ∧
      (∃ w, begunAgain.works.filter Work.refreshing = [w] ∧
        begunAgain.works.filter Work.cycling = [w] ∧
        begunAgain.station.controller.applied = some w.applied) ∧
      begunAgain.former.length = 1 ∧
      ∀ w ∈ begunAgain.former, w.cycling = false ∧ w.live.nextTime = none ∧
        ∀ (f : Fetcher (Traced Fleet) Nat) (world : World (Traced Fleet)),
          w.live.settle f world = (w.live, world) := by
  have hatWork : Roster.Reachable provider twoAtWork :=
    ((Roster.Reachable.boot none _).step (.respond _)).step (.respond _)
  have hbackingOff : Roster.Reachable provider backingOff :=
    (hatWork.step (.world outage (by decide +kernel) rfl)).step .refresh
  have hagain : Roster.Reachable provider begunAgain :=
    (hbackingOff.step (.respond .stop)).step (.respond .start)
  obtain ⟨hstarted, _, _, _, hformer⟩ := Roster.one_loop_each hagain
  exact ⟨by decide +kernel, hstarted (by decide +kernel) (by decide +kernel) (by decide +kernel),
    by decide +kernel, hformer⟩

end Fleet

end PoolKeeper
