import PoolKeeper.Proofs.StaleCache

/-!
# Cycles that start machines

A cycle starts machines only when too few count, those included that wait for their termination.
Then it calls every termination off, and neither schedules nor terminates.

* `Turn.calls_of_missing`, `Turn.start_notMem_calls`: the calls of such a cycle, and of others;
* `Turn.toSpare_of_missing`, `Turn.mem_spared_iff`: it spares everybody who waits;
* **`Station.growth_alone`**: it does nothing else.
-/

namespace PoolKeeper

theorem TerminationQueue.mem_spared_all {q : TerminationQueue} {count : Nat}
    (h : q.entries.length ≤ count) {s : Scheduled} : s ∈ q.spared count ↔ s ∈ q.entries := by
  have hnone : (q.spare count).entries = [] := by
    refine List.eq_nil_of_length_eq_zero ?_
    rw [length_spare]
    omega
  have hperm := spared_append_spare q count
  rw [hnone, List.append_nil] at hperm
  exact hperm.mem_iff

namespace Turn

variable {σ : Type} {t : Turn σ}

/-! ## Too few machines -/

/-- When machines are missing the cycle makes one call, for as many as are missing. -/
theorem calls_of_missing (hv : t.view.Distinct) (hq : t.controller.queue.Distinct)
    (hd : t.view.effectiveCount < t.desired) :
    t.calls = [.start t.driver (t.desired - t.view.effectiveCount)
      (t.provider.start t.driver t.requested t.now t.outside).1] := by
  have hsome : t.requested ≠ 0 := Nat.sub_ne_zero_of_lt hd
  have hnobody : t.due = [] := by
    rw [due, TerminationQueue.due, waiting_nil hv hq hd]
    rfl
  rw [calls, if_neg hsome, hnobody, if_pos (.inr List.isEmpty_nil), List.append_nil]
  rfl

theorem toSpare_of_missing (hd : t.view.effectiveCount < t.desired) :
    t.toSpare = t.planner.scheduledCount := by
  have hsum : t.planner.netSize + t.planner.scheduledCount = t.view.effectiveCount :=
    Planner.netSize_add_scheduledCount _
  rw [toSpare]
  omega

theorem scheduled_of_missing (hd : t.view.effectiveCount < t.desired) : t.scheduled = [] := by
  have hsum : t.planner.netSize + t.planner.scheduledCount = t.view.effectiveCount :=
    Planner.netSize_add_scheduledCount _
  have hnone : t.planner.netSize - t.desired = 0 := by omega
  rw [scheduled, hnone, Planner.victims_zero]

/-- When machines are missing everybody is spared who waits and counts. -/
theorem mem_spared_iff (hv : t.view.Distinct) (hq : t.controller.queue.Distinct)
    (hd : t.view.effectiveCount < t.desired) {id : String} :
    id ∈ t.closing.report.spared ↔
      id ∈ t.controller.queue.ids ∧ ∃ m ∈ t.view.effective, m.id = id := by
  have hcount : t.pruned.entries.length = t.toSpare := by
    rw [toSpare_of_missing hd]
    exact (Planner.scheduledCount_eq hv (t.planner_pruned hq)).symm
  have hall : ∀ e, e ∈ t.pruned.spared t.toSpare ↔ e ∈ t.pruned.entries := fun e =>
    TerminationQueue.mem_spared_all (Nat.le_of_eq hcount)
  rw [t.closing_report]
  constructor
  · intro hid
    obtain ⟨e, he, rfl⟩ := List.mem_map.1 hid
    have hpruned := (hall e).1 he
    have hqueued := t.pruned_sublist.subset hpruned
    exact ⟨TerminationQueue.id_mem_ids hqueued, (t.mem_pruned_iff hv hqueued).1 hpruned⟩
  · rintro ⟨hid, hcounts⟩
    obtain ⟨e, he, rfl⟩ := List.mem_map.1 hid
    exact List.mem_map_of_mem ((hall e).2 ((t.mem_pruned_iff hv he).2 hcounts))

/-! ## Enough machines -/

theorem start_notMem_calls (hd : t.desired ≤ t.view.effectiveCount) (d : DriverId) (count : Nat)
    (answer : Starting) : .start d count answer ∉ t.calls := by
  have hnone : t.requested = 0 := Nat.sub_eq_zero_of_le hd
  rw [calls, if_pos hnone, List.nil_append]
  split
  · exact List.not_mem_nil
  · intro hmem
    cases List.mem_singleton.1 hmem

end Turn

namespace Station

variable {σ : Type} {p : Provider σ} {s : Station σ} {view : Pool}

/-- **A cycle that starts machines does nothing else.** It starts machines exactly if fewer count
than are asked for, all at once and just those that are missing, and terminates nobody. As long as
the provider answers, it then spares everybody who waits and counts, leaves nobody waiting, and does
not schedule. -/
theorem growth_alone (h : s.Reachable p) (hview : s.view.1 = .ok view) (hdistinct : view.Distinct) :
    ∃ desired a, s.controller.applied = some a ∧
      (∀ known, s.controller.desired = some known → desired = known) ∧
      (∀ report, (s.reconcile p).1 = .ok report → report.desiredSize = desired ∧
        report.desiredSize = s.controller.desired.getD report.netSize) ∧
      (view.effectiveCount < desired → ∃ answer,
        s.cycleCalls p = [.start a.driver (desired - view.effectiveCount) answer] ∧
        (brokenBy answer = false → ∃ report, (s.reconcile p).1 = .ok report ∧
          (s.reconcile p).2.controller.queue.entries = [] ∧
          (∀ id, id ∈ report.spared ↔
            id ∈ s.controller.queue.ids ∧ ∃ m ∈ view.effective, m.id = id) ∧
          report.scheduled = [])) ∧
      (desired ≤ view.effectiveCount →
        ∀ d count answer, .start d count answer ∉ s.cycleCalls p) := by
  obtain ⟨snapshot, hs, rfl⟩ := serves_of_view hview
  obtain ⟨a, ha⟩ := h.sound.serving hs
  let t := s.turn p a snapshot
  have hq : t.controller.queue.Distinct := h.sound.controller.queue
  refine ⟨t.desired, a, ha.applied, fun known hknown => ?_, fun report hreport => ?_, fun hd => ?_, ?_⟩
  · show s.controller.desired.getD _ = known
    rw [hknown, Option.getD_some]
  · have hgoes : t.GoesThrough := (goesThrough_iff ha hs).1
      (goesThrough_of_isOk h.sound (by rw [hreport]; rfl))
    rw [reconcile_eq ha hs hgoes] at hreport
    cases hreport
    rw [t.closing_report]
    exact ⟨rfl, rfl⟩
  · have hcalls := Turn.calls_of_missing hdistinct hq hd
    have hsome : t.requested ≠ 0 := Nat.sub_ne_zero_of_lt hd
    refine ⟨_, (cycleCalls_eq ha hs).trans hcalls, fun hanswers => ?_⟩
    have hgoes : t.GoesThrough := by
      refine ⟨t.foresees_of_requested hsome, ?_⟩
      rw [Turn.breaks, Cycle.breaks, if_neg hsome]
      exact hanswers
    have hwaiting : t.waiting.entries = [] := Turn.waiting_nil hdistinct hq hd
    rw [reconcile_eq ha hs hgoes]
    refine ⟨t.closing.report, rfl, ?_, fun id => Turn.mem_spared_iff hdistinct hq hd, ?_⟩
    · have hsub := t.closing_queue_sublist
      rw [hwaiting] at hsub
      exact List.sublist_nil.1 hsub
    · rw [t.closing_report]
      exact List.map_eq_nil_iff.2 (Turn.scheduled_of_missing hd)
  · rw [cycleCalls_eq ha hs]
    exact Turn.start_notMem_calls

/-- A simulated machine that was to go at the end of its hour, where two are asked for in the end. -/
def grownAgain : Station Fleet :=
  let chosen := ((Fleet.atWork
    { name := "web", driver := ⟨Cloud.kind, .array [.null, .nat 0, .nat 1]⟩, desiredSize := some 0
      scaleIn := { margin := 600 } }).respond Fleet.provider .reconcile).2
  (chosen.respond Fleet.provider (.setDesired 2)).2

/-- What a cycle sees of that machine. -/
def grownAgainView : Pool where
  machines := [{ id := "web-0001", state := .running, launched := some ⟨0, 0⟩ }]
  takenAt := ⟨0, 0⟩

theorem growth_alone_grownAgain :
    grownAgain.Reachable Fleet.provider ∧ grownAgain.view.1 = .ok grownAgainView ∧
      grownAgainView.Distinct ∧ grownAgain.controller.queue.ids = ["web-0001"] ∧
      ∃ report answer, (grownAgain.reconcile Fleet.provider).1 = .ok report ∧
        "web-0001" ∈ report.spared ∧ grownAgain.cycleCalls Fleet.provider = [.start 0 1 answer] := by
  have hreach : grownAgain.Reachable Fleet.provider :=
    ((Fleet.atWork_reachable _).respond _).respond _
  have hview : grownAgain.view.1 = .ok grownAgainView := by with_unfolding_all rfl
  have hdistinct : grownAgainView.Distinct := by decide
  have hqueue : grownAgain.controller.queue.ids = ["web-0001"] := by decide +kernel
  have hdesired : grownAgain.controller.desired = some 2 := by decide +kernel
  have hdriver : grownAgain.controller.applied.map Applied.driver = some 0 := by decide +kernel
  obtain ⟨desired, a, ha, hknown, _, hgrows, _⟩ := growth_alone hreach hview hdistinct
  obtain rfl := hknown 2 hdesired
  have hzero : a.driver = 0 := by
    rw [ha] at hdriver
    exact Option.some.inj hdriver
  obtain ⟨answer, hcalls, hanswered⟩ := hgrows (by decide)
  have hfair : ∀ call ∈ grownAgain.cycleCalls Fleet.provider, call.Fair grownAgainView := by
    decide +kernel
  obtain ⟨hanswers, _⟩ := hfair _ (hcalls ▸ List.mem_singleton_self _)
  obtain ⟨report, hreport, _, hspared, _⟩ := hanswered hanswers
  rw [hzero] at hcalls
  refine ⟨hreach, hview, hdistinct, hqueue, report, answer, hreport, ?_, hcalls⟩
  rw [hspared, hqueue]
  exact ⟨List.mem_singleton_self _, _, Pool.mem_effective.2 ⟨List.mem_cons_self, rfl⟩, rfl⟩

end Station

end PoolKeeper
