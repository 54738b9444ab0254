import PoolKeeper.Proofs.Sound

/-!
# Cycles of a station

* `Station.Serves`, `Station.turn`: the snapshot that is served, and the cycle on it;
* `Station.GoesThrough`: nothing breaks down in a cycle; **`Station.reconcile_eq`**: then a cycle on a
  served snapshot gives a report, and **`Station.reconcile_brokeDown_iff`**: only then;
* `Station.traced`, `Station.cycleCalls`, `Station.cycleCalls_eq`: the calls that a cycle makes.
-/

namespace PoolKeeper

/-- The same world with the calls that led to it. -/
def World.traced {σ : Type} (calls : List Call) (w : World σ) : World (Traced σ) :=
  { now := w.now, outside := ⟨calls, w.outside⟩, files := w.files, events := w.events }

namespace Station

variable {σ : Type} {p : Provider σ} {s : Station σ} {snapshot : Pool} {a : Applied}

/-- The snapshot that a cycle would be served. -/
def Serves (s : Station σ) (snapshot : Pool) : Prop :=
  ∃ r, s.running = some r ∧ r.live.cache.serve s.world.now = .ok snapshot

theorem snapshot_of_serve {c : Cache} {now : Instant} {pool : Pool} (h : c.serve now = .ok pool) :
    c.snapshot = some pool := by
  unfold Cache.serve at h
  split at h
  · cases h
  · rename_i found hfound
    simp only at h
    split at h
    · cases h
    · cases h
      exact hfound

theorem Serves.view_eq (h : s.Serves snapshot) :
    s.view = (.ok (s.controller.view snapshot).1,
      { s with controller := (s.controller.view snapshot).2 }) := by
  obtain ⟨r, hr, hserve⟩ := h
  simp only [Station.view, hr, hserve]

theorem serves_of_view {view : Pool} (h : s.view.1 = .ok view) :
    ∃ snapshot, s.Serves snapshot ∧ view = (s.controller.view snapshot).1 := by
  cases hr : s.running with
  | none =>
    rw [Station.view, hr] at h
    cases h
  | some r =>
    cases hserve : r.live.cache.serve s.world.now with
    | error e =>
      simp only [Station.view, hr, hserve] at h
      cases h
    | ok snapshot =>
      have hs : s.Serves snapshot := ⟨r, hr, hserve⟩
      rw [hs.view_eq] at h
      cases h
      exact ⟨snapshot, hs, rfl⟩

theorem view_of_not_serves (h : ∀ snapshot, ¬ s.Serves snapshot) :
    ∃ e, s.view = (.error e, s) ∧ e ≠ .brokeDown := by
  cases hr : s.running with
  | none => exact ⟨.notStarted, by rw [Station.view, hr], by simp⟩
  | some r =>
    cases hserve : r.live.cache.serve s.world.now with
    | error e => exact ⟨.fetch e, by simp only [Station.view, hr, hserve], by simp⟩
    | ok snapshot => exact absurd ⟨r, hr, hserve⟩ (h snapshot)

/-- The cycle on a snapshot. -/
def turn (p : Provider σ) (a : Applied) (snapshot : Pool) (s : Station σ) : Turn σ where
  provider := p
  applied := a
  view := (s.controller.view snapshot).1
  now := s.world.now
  controller := (s.controller.view snapshot).2
  outside := s.world.outside

/-- The controller is started with a valid configuration. -/
structure WorksOn (s : Station σ) (a : Applied) : Prop where
  started : s.controller.state = .started
  applied : s.controller.applied = some a
  valid : a.config.validate = .ok ()

theorem Sound.worksOn (h : s.Sound) {r : Running} (hr : s.running = some r) :
    s.WorksOn r.applied where
  started := h.started_iff.2 (by rw [hr]; rfl)
  applied := h.applied_of_running hr
  valid := h.controller.valid _ (h.applied_of_running hr)

theorem Sound.serving (h : s.Sound) (hs : s.Serves snapshot) : ∃ a, s.WorksOn a := by
  obtain ⟨r, hr, _⟩ := hs
  exact ⟨r.applied, h.worksOn hr⟩

theorem WorksOn.valid_turn (h : s.WorksOn a) : (s.turn p a snapshot).Valid :=
  PoolConfig.margin_lt_of_validate h.valid

theorem reconcile_of_serves (h : s.WorksOn a) (hs : s.Serves snapshot) :
    s.reconcile p = ((s.turn p a snapshot).outcome.1,
      { s with
        controller := (s.turn p a snapshot).outcome.2.1
        world := World.tell { s.world with outside := (s.turn p a snapshot).outcome.2.2.2 }
          (s.turn p a snapshot).outcome.2.2.1
        stuck := s.stuck || broke (s.turn p a snapshot).outcome.1 }) := by
  have hready : s.controller.ensureStarted = .ok () := by rw [Controller.ensureStarted, h.started]
  simp only [reconcile, hready, h.applied, hs.view_eq]
  rfl

/-- Nothing breaks down in a cycle: the hours that its plan looks at end in time, and neither does
the start of machines, if it starts any. -/
def GoesThrough (p : Provider σ) (s : Station σ) : Prop :=
  ∀ a snapshot, s.controller.applied = some a → s.Serves snapshot →
    (s.turn p a snapshot).GoesThrough

theorem Serves.unique (hs : s.Serves snapshot) {snapshot' : Pool} (hs' : s.Serves snapshot') :
    snapshot = snapshot' := by
  obtain ⟨r, hr, hserve⟩ := hs
  obtain ⟨r', hr', hserve'⟩ := hs'
  cases hr.symm.trans hr'
  cases hserve.symm.trans hserve'
  rfl

theorem goesThrough_iff (h : s.WorksOn a) (hs : s.Serves snapshot) :
    s.GoesThrough p ↔ (s.turn p a snapshot).GoesThrough := by
  refine ⟨fun hgoes => hgoes a snapshot h.applied hs, fun hgoes a' snapshot' ha hs' => ?_⟩
  cases h.applied.symm.trans ha
  cases hs.unique hs'
  exact hgoes

/-- **A cycle on a served snapshot gives a report** if nothing breaks down. -/
theorem reconcile_eq (h : s.WorksOn a) (hs : s.Serves snapshot)
    (hgoes : (s.turn p a snapshot).GoesThrough) :
    s.reconcile p = (.ok (s.turn p a snapshot).closing.report,
      { s with
        controller := (s.turn p a snapshot).closing.controller
        world := World.tell { s.world with outside := (s.turn p a snapshot).closing.outside }
          (s.turn p a snapshot).closing.events }) := by
  rw [reconcile_of_serves h hs, Turn.outcome_of_goesThrough _ h.valid_turn hgoes]
  simp only [broke, Bool.or_false]

/-- A cycle that does not go through only drops terminations of machines that no longer count,
perhaps asks for machines, and breaks down. -/
theorem reconcile_of_not_goesThrough (h : s.WorksOn a) (hs : s.Serves snapshot)
    (hnot : ¬ (s.turn p a snapshot).GoesThrough) :
    s.reconcile p = (.error .brokeDown,
      { s with
        controller := (s.controller.view snapshot).2.prune (s.controller.view snapshot).1
        world := World.tell { s.world with outside := (s.turn p a snapshot).midway } []
        stuck := true }) := by
  rw [reconcile_of_serves h hs, Turn.outcome_of_not_goesThrough _ h.valid_turn hnot]
  simp only [broke, Bool.or_true]
  rfl

/-- **A cycle breaks down** exactly if its plan or its start does. -/
theorem reconcile_brokeDown_iff (h : s.Sound) :
    (s.reconcile p).1 = .error .brokeDown ↔ ¬ s.GoesThrough p := by
  by_cases hserved : ∃ snapshot, s.Serves snapshot
  · obtain ⟨snapshot, hs⟩ := hserved
    obtain ⟨a, ha⟩ := h.serving hs
    rw [goesThrough_iff ha hs]
    by_cases hgoes : (s.turn p a snapshot).GoesThrough
    · rw [reconcile_eq ha hs hgoes]
      exact iff_of_false (fun heq => by cases heq) (not_not_intro hgoes)
    · rw [reconcile_of_not_goesThrough ha hs hgoes]
      exact iff_of_true rfl hgoes
  · refine iff_of_false (fun heq => ?_) (not_not_intro fun a snapshot _ hs =>
      absurd ⟨snapshot, hs⟩ hserved)
    obtain ⟨e, hview, he⟩ := view_of_not_serves fun snapshot hs => hserved ⟨snapshot, hs⟩
    unfold reconcile Controller.ensureStarted at heq
    rw [hview] at heq
    cases hstate : s.controller.state with
    | unconfigured =>
      rw [hstate] at heq
      cases heq
    | stopped =>
      rw [hstate] at heq
      cases heq
    | started =>
      rw [hstate] at heq
      cases happlied : s.controller.applied with
      | none =>
        rw [happlied] at heq
        cases heq
      | some a =>
        rw [happlied] at heq
        exact he (Except.error.inj heq)

theorem goesThrough_of_isOk (h : s.Sound) (hok : (s.reconcile p).1.isOk = true) :
    s.GoesThrough p := by
  by_contra hnot
  rw [(reconcile_brokeDown_iff h).2 hnot] at hok
  cases hok

/-! ## The calls of a cycle -/

/-- The same station with the calls that led to it. -/
def traced (calls : List Call) (s : Station σ) : Station (Traced σ) where
  controller := s.controller
  running := s.running
  world := s.world.traced calls
  store := s.store
  stuck := s.stuck

/-- The calls that a cycle makes. -/
def cycleCalls (p : Provider σ) (s : Station σ) : List Call :=
  ((s.traced []).reconcile p.traced).2.world.outside.calls

theorem reconcile_traced_of_serves (h : s.WorksOn a) (hs : s.Serves snapshot)
    (calls : List Call) :
    (s.traced calls).reconcile p.traced = ((s.reconcile p).1,
      (s.reconcile p).2.traced (calls ++ (s.turn p a snapshot).calls)) := by
  have hturn : (s.traced calls).turn p.traced a snapshot = (s.turn p a snapshot).traced calls := rfl
  have hworks : (s.traced calls).WorksOn a := ⟨h.started, h.applied, h.valid⟩
  rw [reconcile_of_serves hworks hs, hturn, Turn.outcome_traced _ h.valid_turn,
    reconcile_of_serves h hs]
  rfl

theorem cycleCalls_eq (h : s.WorksOn a) (hs : s.Serves snapshot) :
    s.cycleCalls p = (s.turn p a snapshot).calls := by
  rw [cycleCalls, reconcile_traced_of_serves h hs]
  rfl

end Station

end PoolKeeper
