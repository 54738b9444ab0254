import PoolKeeper.Proofs.Reconcile

/-!
# A pool that is out of reach

While the last good snapshot is too old, or there never was one, nothing is done to the pool.

* `Cache.serve_of_outdated`, `Cache.serve_of_recent`: when a cache serves its snapshot;
* `Running.Sourced`, `Station.Sourced`, **`Station.Reachable.sourced`**: where the snapshot of a cache
  comes from;
* `Station.Withholds`: no snapshot can be served; what is answered then;
* `Station.afterRefreshes`, **`Station.outdated_pool`**: so it is, after any row of refreshes and at
  any time, exactly when the last good snapshot is too old.
-/

namespace PoolKeeper

namespace Cache

variable {c : Cache} {now : Instant}

theorem serve_of_recent {pool : Pool} (h : c.snapshot = some pool)
    (hage : pool.age now ≤ c.timeout.nanos) : c.serve now = .ok pool := by
  have hrecent : ¬ c.timeout < ⟨(pool.age now).toNat⟩ := by
    show ¬ c.timeout.nanos < (pool.age now).toNat
    omega
  simp only [serve, h, if_neg hrecent]

theorem serve_of_outdated (h : ∀ pool ∈ c.snapshot, (c.timeout.nanos : Int) < pool.age now) :
    ∃ e, c.serve now = .error e ∧
      ((c.snapshot = none ∧ e = .unreachable c.lastError) ∨
        ∃ pool, c.snapshot = some pool ∧
          e = .reachabilityTimeout ⟨(pool.age now).toNat⟩ c.timeout c.lastError) := by
  cases hs : c.snapshot with
  | none => exact ⟨_, by simp only [serve, hs], .inl ⟨rfl, rfl⟩⟩
  | some pool =>
    have hage := h pool hs
    have hold : c.timeout < ⟨(pool.age now).toNat⟩ := by
      show c.timeout.nanos < (pool.age now).toNat
      omega
    exact ⟨_, by simp only [serve, hs, if_pos hold], .inr ⟨pool, rfl, rfl⟩⟩

end Cache

/-! ## Where a snapshot comes from -/

/-- The cache has what refreshes gave since it began, with the snapshot that was saved for its pool
if there was one. -/
structure Running.Sourced {σ : Type} (p : Provider σ) (r : Running) (restored : Option Pool)
    (outcomes : List (Except FetchError Pool)) : Prop where
  saved : ∀ pool ∈ restored, ∃ store files,
    Cache.restored FileTree.system store r.applied.config.name files = some pool
  given : ∀ o ∈ outcomes, (r.fetcher p).Gives o
  cache : r.live.cache = outcomes.foldl Cache.publish
    { poolName := r.applied.config.name
      timeout := .ofSeconds r.applied.config.fetch.reachabilityTimeout
      snapshot := restored }

namespace Running.Sourced

variable {σ : Type} {p : Provider σ} {r : Running} {restored : Option Pool}
  {outcomes : List (Except FetchError Pool)}

theorem snapshot_eq (h : r.Sourced p restored outcomes) :
    r.live.cache.snapshot = Cache.lastGood restored outcomes := by
  rw [h.cache, Cache.snapshot_foldl_publish]

theorem timeout_eq (h : r.Sourced p restored outcomes) :
    r.live.cache.timeout = .ofSeconds r.applied.config.fetch.reachabilityTimeout := by
  rw [h.cache, Cache.timeout_foldl_publish]

end Running.Sourced

namespace Station

variable {σ : Type} {p : Provider σ} {s s' : Station σ} {r : Running}

/-- The snapshot of the cache was restored at the launch, or the provider gave it since. -/
def Sourced (p : Provider σ) (s : Station σ) : Prop :=
  ∀ r, s.running = some r → ∃ restored outcomes, r.Sourced p restored outcomes

theorem Sourced.move (hm : Moves p s s') (h : s.Sourced p) : s'.Sourced p := by
  unfold Sourced
  rcases hm.running_cases with hsame | hnone | ⟨r, live, hr, hr', hlive⟩ | ⟨r, world, hr', _, hlive⟩
  · rw [hsame]
    exact h
  · rw [hnone]
    exact fun _ hr => by cases hr
  · rw [hr']
    rintro _ ⟨⟩
    -- the history goes on with what the refreshes gave
    obtain ⟨restored, outcomes, hsourced⟩ := h r hr
    obtain ⟨more, hmore, hcache⟩ := hlive.cache
    refine ⟨restored, outcomes ++ more, hsourced.saved, fun o ho => ?_, ?_⟩
    · rcases List.mem_append.1 ho with ho | ho
      · exact hsourced.given o ho
      · exact hmore o ho
    · rw [List.foldl_append, ← hsourced.cache]
      exact hcache
  · rw [hr']
    rintro _ ⟨⟩
    -- a launch begins a history of its own
    obtain ⟨outcomes, hgiven, hcache⟩ := hlive.cache
    refine ⟨_, outcomes, fun pool hpool => ?_, hgiven, hcache⟩
    obtain ⟨store, _, hrestored⟩ := Option.bind_eq_some_iff.1 hpool
    exact ⟨store, _, hrestored⟩

/-- **In every reachable station the snapshot was restored or given.** -/
theorem Reachable.sourced (h : s.Reachable p) : s.Sourced p := by
  refine h.invariant ?_ (fun hm hs => hs.move hm) ?_ fun _ hs => hs
  · exact fun _ _ _ hr => by cases hr
  · rintro s r ticker hr hs _ ⟨⟩
    obtain ⟨restored, outcomes, hsourced⟩ := hs r hr
    exact ⟨restored, outcomes, hsourced.saved, hsourced.given, hsourced.cache⟩

/-! ## Answers without a snapshot -/

/-- No snapshot can be served, for a reason. -/
def Withholds (s : Station σ) (e : FetchError) : Prop :=
  ∃ r, s.running = some r ∧ r.live.cache.serve s.world.now = .error e

/-- The calls to drivers that a request leads to. -/
def requestCalls (p : Provider σ) (request : Request) (s : Station σ) : List Call :=
  ((s.traced []).respond p.traced request).2.world.outside.calls

namespace Withholds

variable {a : Applied} {e : FetchError}

theorem view_eq (h : s.Withholds e) : s.view = (.error (.fetch e), s) := by
  obtain ⟨r, hr, hserve⟩ := h
  simp only [view, hr, hserve]

theorem traced (h : s.Withholds e) (calls : List Call) : (s.traced calls).Withholds e := h

theorem reconcile_eq (h : s.Withholds e) (ha : s.WorksOn a) :
    s.reconcile p = (.error (.fetch e),
      { s with
        controller :=
          { s.controller with lastError := some (ControllerError.fetch e).message } }) := by
  have hready : s.controller.ensureStarted = .ok () := by rw [Controller.ensureStarted, ha.started]
  simp only [reconcile, hready, ha.applied, h.view_eq]

theorem cycleCalls_eq (h : s.Withholds e) (ha : s.WorksOn a) : s.cycleCalls p = [] := by
  have hworks : (s.traced []).WorksOn a := ⟨ha.started, ha.applied, ha.valid⟩
  rw [cycleCalls, (h.traced []).reconcile_eq hworks]
  rfl

theorem memberDriver_eq (h : s.Withholds e) (hstarted : s.controller.state = .started)
    (id : String) : s.memberDriver id = (.error (.fetch e), s) := by
  have hready : s.controller.ensureStarted = .ok () := by rw [Controller.ensureStarted, hstarted]
  simp only [memberDriver, startedView, hready, h.view_eq]

theorem removal_eq (h : s.Withholds e) (hstarted : s.controller.state = .started)
    {request : Request} {id : String} {decrement : Bool}
    (hr : request = .terminate id decrement ∨ request = .detach id decrement) :
    s.respond p request = (.error (.fetch e), s) := by
  have hmember := h.memberDriver_eq hstarted id
  rcases hr with rfl | rfl
  · simp only [respond, terminate, hmember]
    rfl
  · simp only [respond, detach, hmember]
    rfl

theorem requestCalls_removal (h : s.Withholds e) (hstarted : s.controller.state = .started)
    {request : Request} {id : String} {decrement : Bool}
    (hr : request = .terminate id decrement ∨ request = .detach id decrement) :
    s.requestCalls p request = [] := by
  rw [requestCalls, (h.traced []).removal_eq hstarted hr]
  rfl

end Withholds

/-- A station that is asked for a cycle or to make a machine leave answers that there is no
snapshot, notes that as the last error of its cycles, and does nothing else. -/
structure Refrains (p : Provider σ) (s : Station σ) (e : FetchError) : Prop where
  cycle : s.respond p .reconcile = (.error (.fetch e),
    { s with
      controller := { s.controller with lastError := some (ControllerError.fetch e).message } })
  cycleCalls : s.cycleCalls p = []
  removal {request : Request} {id : String} {decrement : Bool} :
    request = .terminate id decrement ∨ request = .detach id decrement →
    s.respond p request = (.error (.fetch e), s) ∧ s.requestCalls p request = []

theorem Withholds.refrains {a : Applied} {e : FetchError} (h : s.Withholds e) (ha : s.WorksOn a) :
    s.Refrains p e where
  cycle := by
    simp only [respond, h.reconcile_eq ha]
    rfl
  cycleCalls := h.cycleCalls_eq ha
  removal hr := ⟨h.removal_eq ha.started hr, h.requestCalls_removal ha.started hr⟩

/-- A station refrains while its snapshot is too old or it has none. -/
theorem refrains_of_outdated {a : Applied} (hr : s.running = some r) (ha : s.WorksOn a)
    (h : ∀ pool ∈ r.live.cache.snapshot, (r.live.cache.timeout.nanos : Int) < pool.age s.world.now) :
    ∃ e, s.Refrains p e ∧
      ((r.live.cache.snapshot = none ∧ ∃ why, e = .unreachable why) ∨
        ∃ pool why, r.live.cache.snapshot = some pool ∧
          e = .reachabilityTimeout ⟨(pool.age s.world.now).toNat⟩ r.live.cache.timeout why) := by
  obtain ⟨e, hserve, hwhy⟩ := Cache.serve_of_outdated h
  have hwithholds : s.Withholds e := ⟨r, hr, hserve⟩
  refine ⟨e, hwithholds.refrains ha, ?_⟩
  rcases hwhy with ⟨hnone, he⟩ | ⟨pool, hpool, he⟩
  · exact .inl ⟨hnone, _, he⟩
  · exact .inr ⟨pool, _, hpool, he⟩

/-- A cycle that calls the driver has a snapshot that is not too old. -/
theorem serves_of_call {a : Applied} (hr : s.running = some r) (ha : s.WorksOn a) {call : Call}
    (hcall : call ∈ s.cycleCalls p) :
    ∃ pool, r.live.cache.snapshot = some pool ∧ s.Serves pool ∧
      pool.age s.world.now ≤ r.live.cache.timeout.nanos := by
  by_cases hold : ∀ pool ∈ r.live.cache.snapshot,
      (r.live.cache.timeout.nanos : Int) < pool.age s.world.now
  · obtain ⟨e, hrefrains, _⟩ := refrains_of_outdated (p := p) hr ha hold
    rw [hrefrains.cycleCalls] at hcall
    cases hcall
  · simp only [not_forall, Int.not_lt] at hold
    obtain ⟨pool, hpool, hage⟩ := hold
    exact ⟨pool, hpool, ⟨r, hr, Cache.serve_of_recent hpool hage⟩, hage⟩

/-! ## Rows of refreshes -/

/-- The station once a refresh has come to its end at a time. -/
def afterRefresh (s : Station σ) (refresh : Instant × Except FetchError Pool) : Station σ :=
  match s.running with
  | none => s
  | some r =>
    let (live, world) := r.live.publish refresh.2 (s.world.atTime refresh.1)
    { s with running := some { r with live }, world }

/-- The station at a time, after refreshes that came to their ends one after the other. -/
def afterRefreshes (refreshes : List (Instant × Except FetchError Pool)) (now : Instant)
    (s : Station σ) : Station σ :=
  let s := refreshes.foldl afterRefresh s
  { s with world := s.world.atTime now }

theorem foldl_afterRefresh (hr : s.running = some r)
    (refreshes : List (Instant × Except FetchError Pool)) :
    (refreshes.foldl afterRefresh s).controller = s.controller ∧
      ∃ live : LiveCache Nat, (refreshes.foldl afterRefresh s).running = some { r with live } ∧
        live.cache = (refreshes.map Prod.snd).foldl Cache.publish r.live.cache := by
  induction refreshes generalizing s r with
  | nil => exact ⟨rfl, r.live, hr, rfl⟩
  | cons refresh rest ih =>
    have hone : ∃ live world, s.afterRefresh refresh =
          { s with running := some { r with live }, world } ∧
        live.cache = r.live.cache.publish refresh.2 := by
      simp only [afterRefresh, hr]
      exact ⟨_, _, rfl, rfl⟩
    obtain ⟨live, world, heq, hcache⟩ := hone
    obtain ⟨hc, last, hlast, hpublished⟩ := ih (s := s.afterRefresh refresh)
      (r := { r with live }) (by rw [heq])
    rw [List.foldl_cons, List.map_cons, List.foldl_cons]
    refine ⟨hc.trans (by rw [heq]), last, hlast, ?_⟩
    rw [hpublished, hcache]

/-- **A pool that is out of reach.** In every reachable station at work, whatever refreshes come to
and whenever: without a good snapshot, or with a last one that is older than the timeout in force, it
answers so and does nothing. A cycle that calls the driver has seen the last good snapshot, and that
is not too old. -/
theorem outdated_pool (h : s.Reachable p) (hstarted : s.controller.state = .started) :
    ∃ r restored past, s.running = some r ∧ s.controller.applied = some r.applied ∧
      r.Sourced p restored past ∧
      ∀ (refreshes : List (Instant × Except FetchError Pool)) (now : Instant),
        let t := s.afterRefreshes refreshes now
        let good := Cache.lastGood restored (past ++ refreshes.map Prod.snd)
        let timeout := Span.ofSeconds r.applied.config.fetch.reachabilityTimeout
        ((∀ pool ∈ good, (timeout.nanos : Int) < pool.age now) →
          ∃ e, t.Refrains p e ∧
            ((good = none ∧ ∃ why, e = .unreachable why) ∨
              ∃ pool why, good = some pool ∧
                e = .reachabilityTimeout ⟨(pool.age now).toNat⟩ timeout why)) ∧
        ∀ call ∈ t.cycleCalls p, ∃ pool, good = some pool ∧ t.Serves pool ∧
          pool.age now ≤ timeout.nanos := by
  have hsound := h.sound
  obtain ⟨r, hr⟩ := Option.isSome_iff_exists.1 (hsound.started_iff.1 hstarted)
  obtain ⟨restored, past, hsourced⟩ := h.sourced r hr
  refine ⟨r, restored, past, hr, hsound.applied_of_running hr, hsourced, fun refreshes now => ?_⟩
  intro t good timeout
  obtain ⟨hc, live, hlive, hcache⟩ := foldl_afterRefresh hr refreshes
  have hrunning : t.running = some { r with live } := hlive
  have hcontroller : t.controller = s.controller := hc
  have hworks : t.WorksOn r.applied := by
    have hbefore := hsound.worksOn hr
    exact ⟨hcontroller ▸ hbefore.started, hcontroller ▸ hbefore.applied, hbefore.valid⟩
  have hsnapshot : live.cache.snapshot = good := by
    rw [hcache, Cache.snapshot_foldl_publish, hsourced.snapshot_eq, ← Cache.lastGood_append]
  have htimeout : live.cache.timeout = timeout := by
    rw [hcache, Cache.timeout_foldl_publish, hsourced.timeout_eq]
  have hidle := refrains_of_outdated (p := p) hrunning hworks
  have hacts := fun call (hcall : call ∈ t.cycleCalls p) => serves_of_call hrunning hworks hcall
  simp only [hsnapshot, htimeout] at hidle hacts
  exact ⟨hidle, hacts⟩

/-- A simulated machine where two are asked for, and a snapshot of it is served for five minutes. -/
def lastSeen : Station Fleet :=
  Fleet.atWork
    { name := "web", driver := ⟨Cloud.kind, .array [.null, .nat 0, .nat 1]⟩, desiredSize := some 2 }

/-- That snapshot. -/
def lastSeenSnapshot : Pool where
  machines := [{ id := "web-0001", state := .running, launched := some ⟨0, 0⟩ }]
  takenAt := ⟨0, 0⟩

theorem outdated_pool_lastSeen :
    let refresh :=
      (Instant.mk 200 0, Except.error (FetchError.retriesExhausted 4 (.unavailable "down")))
    lastSeen.Reachable Fleet.provider ∧ lastSeen.controller.state = .started ∧
      (∃ e, (lastSeen.afterRefreshes [refresh] ⟨300, 1⟩).Refrains Fleet.provider e ∧
        ∃ why, e = .reachabilityTimeout ⟨300_000_000_001⟩ (.ofSeconds 300) why) ∧
      ∃ call ∈ (lastSeen.afterRefreshes [refresh] ⟨300, 0⟩).cycleCalls Fleet.provider,
        (lastSeen.afterRefreshes [refresh] ⟨300, 0⟩).Serves lastSeenSnapshot ∧
          call.requested = 1 := by
  intro refresh
  have hreach : lastSeen.Reachable Fleet.provider := Fleet.atWork_reachable _
  have hstarted : lastSeen.controller.state = .started := by decide +kernel
  obtain ⟨r, restored, past, hr, happlied, hsourced, hall⟩ := outdated_pool hreach hstarted
  have htimeout : r.applied.config.fetch.reachabilityTimeout = 300 := by
    have hknown : lastSeen.controller.applied.map (·.config.fetch.reachabilityTimeout) =
        some 300 := by decide +kernel
    rw [happlied] at hknown
    exact Option.some.inj hknown
  have hsnapshot : r.live.cache.snapshot = some lastSeenSnapshot := by
    have hknown : lastSeen.running.map (·.live.cache.snapshot) = some (some lastSeenSnapshot) := by
      with_unfolding_all rfl
    rw [hr] at hknown
    exact Option.some.inj hknown
  have hgood : Cache.lastGood restored (past ++ [refresh].map Prod.snd) = some lastSeenSnapshot := by
    rw [Cache.lastGood_append, ← hsourced.snapshot_eq, hsnapshot]
    rfl
  refine ⟨hreach, hstarted, ?_, ?_⟩
  · obtain ⟨e, hrefrains, hwhy⟩ := (hall [refresh] ⟨300, 1⟩).1 (by
      rw [hgood, htimeout]
      rintro _ ⟨⟩
      decide)
    rw [hgood, htimeout] at hwhy
    refine ⟨e, hrefrains, ?_⟩
    rcases hwhy with ⟨hnone, _⟩ | ⟨pool, why, hpool, he⟩
    · cases hnone
    · cases hpool
      exact ⟨why, he⟩
  · have hcalls : ((lastSeen.afterRefreshes [refresh] ⟨300, 0⟩).cycleCalls Fleet.provider).map
        Call.requested = [1] := by decide +kernel
    obtain ⟨call, hcall, hone⟩ := List.mem_map.1 (hcalls ▸ List.mem_singleton_self 1)
    obtain ⟨pool, hpool, hserves, _⟩ := (hall [refresh] ⟨300, 0⟩).2 call hcall
    rw [hgood] at hpool
    cases hpool
    exact ⟨call, hcall, hserves, hone⟩

end Station

end PoolKeeper
