import PoolKeeper.Proofs.Overlay
import PoolKeeper.Proofs.Reachable

/-!
# What every reachable controller keeps

* `Controller.Sound`: the configuration in force is valid, no machine waits twice or is remembered
  twice, and who waits could be chosen;
* `Controller.Sound.reconcile`: a cycle keeps it;
* `Station.Sound`: besides, there is background work exactly while the controller is started;
* **`Station.Reachable.sound`**: every reachable station is so.
-/

namespace PoolKeeper

/-- A controller can work with what it knows. -/
structure Controller.Sound (c : Controller) : Prop where
  valid : ∀ a, c.applied = some a → a.config.validate = .ok ()
  queue : c.queue.Distinct
  /-- Machines that wait were evictable when they were chosen. -/
  evictable : ∀ e ∈ c.queue.entries, e.machine.isEvictable = true
  overlay : c.overlay.Distinct

theorem PoolConfig.margin_lt_of_validate {config : PoolConfig} (h : config.validate = .ok ()) :
    config.scaleIn.margin < Billing.period := by
  by_contra hmargin
  have hle : Billing.period ≤ config.scaleIn.margin := Nat.not_lt.1 hmargin
  rw [validate] at h
  split at h
  · cases h
  · rename_i hnone
    simp only [fault?, if_pos hle] at hnone
    split at hnone
    · cases hnone
    · split at hnone
      · cases hnone
      · cases hnone

/-! ## Cycles -/

namespace Turn

variable {σ : Type} (t : Turn σ)

theorem pruned_sublist : t.pruned.entries.Sublist t.controller.queue.entries :=
  TerminationQueue.retain_sublist _

/-- What waits in a cycle waited before or was scheduled. -/
theorem mem_waiting {e : Scheduled} (h : e ∈ t.waiting.entries) :
    e ∈ t.controller.queue.entries ∨ e ∈ t.scheduled :=
  (TerminationQueue.mem_of_mem_insertAll h).imp_left fun h =>
    ((TerminationQueue.spare_sublist _ _).trans t.pruned_sublist).subset h

theorem waiting_distinct (h : t.controller.queue.Distinct) : t.waiting.Distinct :=
  ((h.of_sublist t.pruned_sublist).spare _).insertAll _

theorem closing_queue_sublist :
    t.closing.controller.queue.entries.Sublist t.waiting.entries := by
  rw [t.closing_controller]
  exact (TerminationQueue.eraseAll_sublist _ _).trans (TerminationQueue.eraseAll_sublist _ _)

theorem machine_mem_eligible {e : Scheduled} (h : e ∈ t.scheduled) :
    e.machine ∈ t.planner.eligible :=
  Planner.machine_mem_eligible h

end Turn

namespace Controller

variable {c : Controller}

theorem sound_new : Sound {} where
  valid _ h := by cases h
  queue := TerminationQueue.distinct_empty
  evictable _ h := by cases h
  overlay := Overlay.distinct_empty

theorem Sound.forgetOther (h : c.Sound) (name : String) : (c.forgetOther name).Sound := by
  unfold Controller.forgetOther
  split
  · split
    · exact h
    · exact { sound_new with valid := h.valid }
  · exact h

theorem Sound.adopt (h : c.Sound) {a : Applied} (ha : a.config.validate = .ok ()) :
    (c.adopt a).1.Sound := by
  have hvalid : ∀ a', some a = some a' → a'.config.validate = .ok () := by
    rintro _ ⟨⟩
    exact ha
  have hforget := h.forgetOther a.config.name
  rw [Controller.adopt]
  cases a.config.desiredSize with
  | none => exact { hforget with valid := hvalid }
  | some size =>
    simp only [Controller.setDesired_fst]
    exact { hforget with valid := hvalid }

theorem Sound.view (h : c.Sound) (snapshot : Pool) : (c.view snapshot).2.Sound :=
  { h with overlay := h.overlay.forget snapshot.takenAt }

theorem Sound.prune (h : c.Sound) (view : Pool) : (c.prune view).Sound :=
  { h with
    queue := h.queue.of_sublist (TerminationQueue.retain_sublist _)
    evictable := fun e he => h.evictable e ((TerminationQueue.retain_sublist _).subset he) }

/-- **A cycle keeps a controller sound.** -/
theorem Sound.reconcile {σ : Type} (h : c.Sound) {a : Applied} (ha : c.applied = some a)
    (p : Provider σ) (view : Pool) (now : Instant) (outside : σ) :
    (c.reconcile p a view now outside).2.1.Sound := by
  let t : Turn σ := ⟨p, a, view, now, c, outside⟩
  have hvalid : t.Valid := PoolConfig.margin_lt_of_validate (h.valid a ha)
  show t.outcome.2.1.Sound
  rw [t.outcome_eq hvalid]
  split
  · have hqueue := t.closing_queue_sublist
    have hcontroller := t.closing_controller
    refine ⟨?_, (t.waiting_distinct h.queue).of_sublist hqueue, fun e he => ?_, ?_⟩
    · simp only [hcontroller]
      exact h.valid
    · rcases t.mem_waiting (hqueue.subset he) with hold | hnew
      · exact h.evictable e hold
      · exact (Planner.mem_eligible.1 (t.machine_mem_eligible hnew)).2.1
    · simp only [hcontroller]
      exact (h.overlay.recordStarted _ _).recordTerminated _ _
  · exact h.prune view

theorem applied_reconcile {σ : Type} (h : c.Sound) {a : Applied} (ha : c.applied = some a)
    (p : Provider σ) (view : Pool) (now : Instant) (outside : σ) :
    (c.reconcile p a view now outside).2.1.state = c.state ∧
      (c.reconcile p a view now outside).2.1.applied = c.applied := by
  let t : Turn σ := ⟨p, a, view, now, c, outside⟩
  have hvalid : t.Valid := PoolConfig.margin_lt_of_validate (h.valid a ha)
  show t.outcome.2.1.state = _ ∧ t.outcome.2.1.applied = _
  rw [t.outcome_eq hvalid, t.closing_controller]
  split
  · exact ⟨rfl, rfl⟩
  · exact ⟨rfl, rfl⟩

end Controller

/-! ## Stations -/

namespace Station

variable {σ : Type} {p : Provider σ} {s s' : Station σ}

/-- The configuration that the background work was begun for. -/
def atWorkOn (s : Station σ) : Option Applied := s.running.map Running.applied

/-- Besides, there is background work exactly while the controller is started, for the
configuration in force. -/
structure Sound (s : Station σ) : Prop where
  controller : s.controller.Sound
  started : s.controller.state = .started ↔ s.atWorkOn.isSome = true
  atWork : ∀ a, s.atWorkOn = some a → s.controller.applied = some a

theorem Sound.started_iff (h : s.Sound) :
    s.controller.state = .started ↔ s.running.isSome = true := by
  have hwork := h.started
  rwa [atWorkOn, Option.isSome_map] at hwork

theorem Sound.applied_of_running (h : s.Sound) {r : Running} (hr : s.running = some r) :
    s.controller.applied = some r.applied :=
  h.atWork r.applied (by rw [atWorkOn, hr, Option.map_some])

theorem sound_new (store : Option Store) (world : World σ) : Sound { world, store } where
  controller := Controller.sound_new
  started := ⟨fun h => (by cases h), fun h => (by cases h)⟩
  atWork _ h := by cases h

/-- A change of the controller that is not about its state or its configuration. -/
theorem Sound.of_controller (h : s.Sound) (hc : s'.controller.Sound)
    (hstate : s'.controller.state = s.controller.state)
    (happlied : s'.controller.applied = s.controller.applied) (hwork : s'.atWorkOn = s.atWorkOn) :
    s'.Sound where
  controller := hc
  started := by rw [hstate, hwork]; exact h.started
  atWork := by rw [happlied, hwork]; exact h.atWork

theorem Steady.atWorkOn_eq (h : Steady s s') : s'.atWorkOn = s.atWorkOn := by
  rw [atWorkOn, h.running, atWorkOn]

theorem Sound.move (hm : Moves p s s') (h : s.Sound) : s'.Sound := by
  have hc := h.controller
  cases hm with
  | quiet he hw =>
    exact h.of_controller (he ▸ hc) (by rw [he]) (by rw [he]) hw.atWorkOn_eq
  | refreshed r live hr hr' _ he =>
    have hw : s'.atWorkOn = s.atWorkOn := by
      rw [atWorkOn, atWorkOn, hr, hr']
      rfl
    exact h.of_controller (he ▸ hc) (by rw [he]) (by rw [he]) hw
  | configured a ha he hr =>
    have hw : s'.atWorkOn = none := by rw [atWorkOn, hr, Option.map_none]
    have hadopt := hc.adopt ha
    refine ⟨?_, ?_, ?_⟩
    · rw [he]
      exact { hadopt with }
    · rw [he, hw]
      exact ⟨fun h => (by cases h), fun h => (by cases h)⟩
    · rw [hw]
      exact fun _ h => (by cases h)
  | launched r _ _ ha he hr =>
    have hw : s'.atWorkOn = some r.applied := by rw [atWorkOn, hr, Option.map_some]
    refine ⟨?_, ?_, ?_⟩
    · rw [he]
      exact { hc with }
    · rw [he, hw]
      exact ⟨fun _ => rfl, fun _ => rfl⟩
    · rw [he, hw]
      rintro _ ⟨⟩
      exact ha
  | halted _ he hr =>
    have hw : s'.atWorkOn = none := by rw [atWorkOn, hr, Option.map_none]
    refine ⟨?_, ?_, ?_⟩
    · rw [he]
      exact { hc with }
    · rw [he, hw]
      exact ⟨fun h => (by cases h), fun h => (by cases h)⟩
    · rw [hw]
      exact fun _ h => (by cases h)
  | resized size he hw =>
    exact h.of_controller (by rw [he]; exact { hc with }) (by rw [he]) (by rw [he])
      hw.atWorkOn_eq
  | viewed snapshot he hw =>
    exact h.of_controller (he ▸ hc.view snapshot) (by rw [he]; rfl) (by rw [he]; rfl)
      hw.atWorkOn_eq
  | failed message he hw =>
    exact h.of_controller (by rw [he]; exact { hc with }) (by rw [he]) (by rw [he])
      hw.atWorkOn_eq
  | cycled a view now outside ha he hw =>
    obtain ⟨hstate, happlied⟩ := Controller.applied_reconcile hc ha p view now outside
    exact h.of_controller (he ▸ hc.reconcile ha p view now outside) (by rw [he]; exact hstate)
      (by rw [he]; exact happlied) hw.atWorkOn_eq
  | left id time he hw =>
    refine h.of_controller ?_ (by rw [he]) (by rw [he]) hw.atWorkOn_eq
    rw [he]
    exact
      { valid := hc.valid
        queue := hc.queue.erase id
        evictable := fun e hmem =>
          hc.evictable e ((TerminationQueue.erase_sublist id).subset hmem)
        overlay := hc.overlay.recordTerminated [id] time }

theorem Sound.leads (h : Leads p s s') (hs : s.Sound) : s'.Sound := by
  induction h with
  | refl => exact hs
  | tail _ hm ih => exact ih.move hm

/-- **Every reachable station is sound.** -/
theorem Reachable.sound (h : s.Reachable p) : s.Sound :=
  h.invariant sound_new (fun hm hs => hs.move hm)
    (fun ticker hr hs => hs.of_controller hs.controller rfl rfl (by rw [atWorkOn, atWorkOn, hr]; rfl))
    fun world hs => hs.of_controller hs.controller rfl rfl rfl

end Station

end PoolKeeper
