import PoolKeeper.Proofs.Reconcile
import PoolKeeper.Proofs.Replan

/-!
# Whom a cycle terminates

* `Turn.planner_pruned`: after pruning every machine that waits is effective, and counted once;
* `Turn.length_due_le`: so no more machines are due than are too many, and
  **`Station.length_condemned_le`**: no cycle takes the pool below its desired size;
* `Turn.mem_waiting_of_pruned`: who waits and is neither dropped nor spared goes on waiting;
* **`Station.condemned_evictable_iff`**: a cycle terminates a machine that may not go exactly if one
  that waits was kept for good since it was chosen;
  **`Station.condemned_kept_machine`**: this happens.
-/

namespace PoolKeeper

/-- The pool shows a machine with the identifier that may be chosen for automatic termination. -/
def Pool.ShowsEvictable (p : Pool) (id : String) : Prop :=
  ∃ m ∈ p.machines, m.id = id ∧ m.isEvictable = true

namespace Turn

variable {σ : Type} (t : Turn σ)

/-! ## Counting -/

theorem mem_pruned {e : Scheduled} :
    e ∈ t.pruned.entries ↔ e ∈ t.controller.queue.entries ∧
      ∃ m, t.view.get? e.id = some m ∧ m.isEffective = true := by
  rw [pruned, Controller.prune, TerminationQueue.retain, List.mem_filter]
  refine and_congr_right fun _ => ?_
  cases t.view.get? e.id with
  | none => simp
  | some m => simp

theorem mem_pruned_iff (hv : t.view.Distinct) {e : Scheduled}
    (he : e ∈ t.controller.queue.entries) :
    e ∈ t.pruned.entries ↔ ∃ m ∈ t.view.effective, m.id = e.id := by
  rw [t.mem_pruned, and_iff_right he]
  constructor
  · rintro ⟨m, hm, hcounts⟩
    obtain ⟨hmem, hid⟩ := Pool.mem_of_get? hm
    exact ⟨m, Pool.mem_effective.2 ⟨hmem, hcounts⟩, hid⟩
  · rintro ⟨m, hm, hid⟩
    obtain ⟨hmem, hcounts⟩ := Pool.mem_effective.1 hm
    exact ⟨m, hid ▸ Pool.get?_of_mem hv hmem, hcounts⟩

theorem planner_pruned (hq : t.controller.queue.Distinct) : t.planner.Pruned where
  distinct := hq.of_sublist t.pruned_sublist
  effective id hid := by
    obtain ⟨e, he, rfl⟩ := List.mem_map.1 hid
    obtain ⟨_, m, hm, heff⟩ := t.mem_pruned.1 he
    obtain ⟨hmem, hid⟩ := Pool.mem_of_get? hm
    exact ⟨m, Pool.mem_effective.2 ⟨hmem, heff⟩, hid⟩

theorem length_waiting_le (hv : t.view.Distinct) (hq : t.controller.queue.Distinct) :
    t.waiting.entries.length ≤ t.view.effectiveCount - t.desired :=
  Planner.length_replanner_le hv (t.planner_pruned hq) t.desired t.now

theorem length_due_le (hv : t.view.Distinct) (hq : t.controller.queue.Distinct) :
    t.due.length ≤ t.view.effectiveCount - t.desired := by
  rw [due, List.length_map]
  exact Nat.le_trans (List.length_filter_le _ _) (t.length_waiting_le hv hq)

/-! ## Who may go -/

theorem mem_due {id : String} :
    id ∈ t.due ↔ ∃ e ∈ t.waiting.entries, e.isDue t.now = true ∧ e.id = id := by
  simp only [due, TerminationQueue.due, List.mem_map, List.mem_filter, and_assoc]

theorem notMem_scheduled_of_pruned {e : Scheduled} (he : e ∈ t.pruned.entries) :
    e.id ∉ t.scheduled.map Scheduled.id :=
  Planner.notMem_victims (p := t.planner) he _ _

theorem mem_waiting_of_pruned {e : Scheduled} (he : e ∈ t.pruned.entries)
    (hspared : e.id ∉ (t.pruned.spared t.toSpare).map Scheduled.id) : e ∈ t.waiting.entries :=
  TerminationQueue.mem_insertAll_of_notMem (TerminationQueue.mem_spare_of_notMem he hspared)
    (t.notMem_scheduled_of_pruned he)

theorem showsEvictable_of_scheduled {e : Scheduled} (he : e ∈ t.scheduled) :
    t.view.ShowsEvictable e.id := by
  obtain ⟨heff, hev, _⟩ := Planner.mem_eligible.1 (t.machine_mem_eligible he)
  exact ⟨e.machine, (Pool.mem_effective.1 heff).1, rfl, hev⟩

/-- All who are due may go exactly if all those may who waited before and are due. -/
theorem due_evictable_iff (hq : t.controller.queue.Distinct) :
    (∀ id ∈ t.due, t.view.ShowsEvictable id) ↔
      ∀ e ∈ t.controller.queue.entries, e.isDue t.now = true →
        e.id ∉ (t.pruned.spared t.toSpare).map Scheduled.id →
        (∃ m, t.view.get? e.id = some m ∧ m.isEffective = true) →
        t.view.ShowsEvictable e.id := by
  constructor
  · intro h e he hdue hspared heff
    have hpruned := t.mem_pruned.2 ⟨he, heff⟩
    exact h e.id (t.mem_due.2 ⟨e, t.mem_waiting_of_pruned hpruned hspared, hdue, rfl⟩)
  · intro h id hid
    obtain ⟨e, he, hdue, rfl⟩ := t.mem_due.1 hid
    rcases TerminationQueue.mem_of_mem_insertAll he with hold | hnew
    · have hpruned := (TerminationQueue.spare_sublist _ _).subset hold
      have hspared := TerminationQueue.notMem_spared_of_mem_spare
        (hq.of_sublist t.pruned_sublist) hold
      obtain ⟨hmem, heff⟩ := t.mem_pruned.1 hpruned
      exact h e hmem hdue hspared heff
    · exact t.showsEvictable_of_scheduled hnew

end Turn

/-! ## Stations -/

namespace Station

variable {σ : Type} {p : Provider σ} {s : Station σ} {view : Pool}

/-- A cycle with a view, and what is in its report. -/
theorem exists_turn (h : s.Sound) (hview : s.view.1 = .ok view) :
    ∃ t : Turn σ, t.view = view ∧ t.now = s.world.now ∧ t.controller.queue = s.controller.queue ∧
      t.controller.desired = s.controller.desired ∧ s.cycleCalls p = t.calls ∧
      (s.GoesThrough p ↔ t.GoesThrough) ∧
      (t.GoesThrough → (s.reconcile p).1 = .ok t.closing.report) := by
  obtain ⟨snapshot, hs, rfl⟩ := serves_of_view hview
  obtain ⟨a, ha⟩ := h.serving hs
  refine ⟨s.turn p a snapshot, rfl, rfl, rfl, rfl, cycleCalls_eq ha hs, goesThrough_iff ha hs,
    fun hgoes => ?_⟩
  rw [reconcile_eq ha hs hgoes]

/-- **No cycle takes the pool below its desired size**, which is the one that is known. One that
learns the size, and one in which nothing breaks down, reports it. -/
theorem length_condemned_le (h : s.Reachable p) (hview : s.view.1 = .ok view)
    (hdistinct : view.Distinct) :
    ∃ desired, (∀ known, s.controller.desired = some known → desired = known) ∧
      ((s.cycleCalls p).flatMap Call.condemned).length ≤ view.effectiveCount - desired ∧
      (s.controller.desired = none ∨ s.GoesThrough p →
        ∃ report, (s.reconcile p).1 = .ok report ∧ report.desiredSize = desired ∧
          report.desiredSize = s.controller.desired.getD report.netSize) := by
  obtain ⟨t, rfl, _, hqueue, hdesired, hcalls, hgoes, hreport⟩ := exists_turn (p := p) h.sound hview
  have hq : t.controller.queue.Distinct := hqueue ▸ h.sound.controller.queue
  refine ⟨t.desired, fun known hknown => ?_, ?_, fun hup => ⟨t.closing.report, hreport ?_, ?_, ?_⟩⟩
  · rw [Turn.desired, hdesired, hknown, Option.getD_some]
  · rw [hcalls, t.condemned_calls]
    split
    · exact t.length_due_le hdistinct hq
    · exact Nat.zero_le _
  · rcases hup with hnone | hup
    · exact t.goesThrough_of_learning (hdesired.trans hnone)
    · exact hgoes.1 hup
  · rw [t.closing_report]
  · rw [t.closing_report, ← hdesired]
    rfl

/-- Two simulated machines, one of them too many. -/
def oneTooMany : Station Fleet :=
  Fleet.atWork
    { name := "web", driver := ⟨Cloud.kind, .array [.null, .nat 0, .nat 2]⟩, desiredSize := some 1 }

/-- What a cycle sees of the two machines. -/
def oneTooManyView : Pool where
  machines :=
    [{ id := "web-0001", state := .running, launched := some ⟨0, 0⟩ },
      { id := "web-0002", state := .running, launched := some ⟨0, 0⟩ }]
  takenAt := ⟨0, 0⟩

theorem length_condemned_le_oneTooMany :
    oneTooMany.Reachable Fleet.provider ∧ oneTooMany.view.1 = .ok oneTooManyView ∧
      oneTooManyView.Distinct ∧
      ((oneTooMany.cycleCalls Fleet.provider).flatMap Call.condemned).length ≤
        oneTooManyView.effectiveCount - 1 := by
  have hreachable : oneTooMany.Reachable Fleet.provider := Fleet.atWork_reachable _
  have hview : oneTooMany.view.1 = .ok oneTooManyView := by rfl
  have hdistinct : oneTooManyView.Distinct := by decide
  have hknown : oneTooMany.controller.desired = some 1 := by rfl
  obtain ⟨desired, hdesired, hlength, _⟩ := length_condemned_le hreachable hview hdistinct
  rw [hdesired 1 hknown] at hlength
  exact ⟨hreachable, hview, hdistinct, hlength⟩

/-- **When a cycle spares who may not go.** All that it terminates may go exactly if all may who
waited before and are due, count and are not spared. Everybody could go when chosen. A cycle in which
something breaks down terminates nobody. -/
theorem condemned_evictable_iff (h : s.Reachable p) (hview : s.view.1 = .ok view) :
    (s.GoesThrough p → ∃ report, (s.reconcile p).1 = .ok report ∧
      ((∀ id ∈ (s.cycleCalls p).flatMap Call.condemned, view.ShowsEvictable id) ↔
        ∀ e ∈ s.controller.queue.entries, e.isDue s.world.now = true → e.id ∉ report.spared →
          (∃ m, view.get? e.id = some m ∧ m.isEffective = true) → view.ShowsEvictable e.id) ∧
      (∀ id ∈ report.scheduled, view.ShowsEvictable id)) ∧
      (¬ s.GoesThrough p → (s.cycleCalls p).flatMap Call.condemned = []) ∧
      ∀ e ∈ s.controller.queue.entries, e.machine.isEvictable = true := by
  obtain ⟨t, rfl, hnow, hqueue, _, hcalls, hgoes, hreport⟩ := exists_turn (p := p) h.sound hview
  refine ⟨fun hup => ⟨t.closing.report, hreport (hgoes.1 hup), ?_, fun id hid => ?_⟩, fun hdown => ?_,
    h.sound.controller.evictable⟩
  · rw [hcalls, t.condemned_calls, if_pos (hgoes.1 hup), t.closing_report, ← hqueue, ← hnow]
    exact t.due_evictable_iff (hqueue ▸ h.sound.controller.queue)
  · rw [t.closing_report] at hid
    obtain ⟨e, he, rfl⟩ := List.mem_map.1 hid
    exact t.showsEvictable_of_scheduled he
  · rw [hcalls, t.condemned_calls, if_neg (mt hgoes.2 hdown)]

/-- A simulated machine that was scheduled half an hour before the end of its hour, was then to be
kept for good, and is due. -/
def keptTooLate : Station Fleet :=
  let chosen := ((Fleet.atWork
    { name := "web", driver := ⟨Cloud.kind, .array [.null, .nat 0, .nat 1]⟩, desiredSize := some 0
      scaleIn := { margin := 1800 }, fetch := { reachabilityTimeout := 3600 } }).respond
    Fleet.provider .reconcile).2
  let kept := (chosen.respond Fleet.provider (.setMembership "web-0001" .keptAlways)).2
  { kept with world := kept.world.atTime ⟨1800, 0⟩ }

/-- What a cycle sees of the machine. -/
def keptTooLateView : Pool where
  machines :=
    [{ id := "web-0001", state := .running, membership := .keptAlways, launched := some ⟨0, 0⟩ }]
  takenAt := ⟨0, 0⟩

theorem keptTooLate_reachable : keptTooLate.Reachable Fleet.provider :=
  Station.Reachable.world _ (by decide +kernel)
    (((Fleet.atWork_reachable _).respond _).respond _)

theorem view_keptTooLate : keptTooLate.view.1 = .ok keptTooLateView := by
  with_unfolding_all rfl

/-- **A machine that is to be kept for good is terminated.** -/
theorem condemned_kept_machine :
    keptTooLate.Reachable Fleet.provider ∧ keptTooLate.view.1 = .ok keptTooLateView ∧
      ∃ id ∈ (keptTooLate.cycleCalls Fleet.provider).flatMap Call.condemned,
        ¬ keptTooLateView.ShowsEvictable id := by
  refine ⟨keptTooLate_reachable, view_keptTooLate, "web-0001", by decide +kernel, ?_⟩
  rintro ⟨m, hm, _, hev⟩
  rw [List.mem_singleton.1 hm] at hev
  cases hev

theorem condemned_evictable_iff_keptTooLate :
    keptTooLate.Reachable Fleet.provider ∧ keptTooLate.view.1 = .ok keptTooLateView ∧
      keptTooLate.GoesThrough Fleet.provider ∧
      ∃ report, (keptTooLate.reconcile Fleet.provider).1 = .ok report ∧
        ((∀ id ∈ (keptTooLate.cycleCalls Fleet.provider).flatMap Call.condemned,
            keptTooLateView.ShowsEvictable id) ↔
          ∀ e ∈ keptTooLate.controller.queue.entries, e.isDue keptTooLate.world.now = true →
            e.id ∉ report.spared →
            (∃ m, keptTooLateView.get? e.id = some m ∧ m.isEffective = true) →
            keptTooLateView.ShowsEvictable e.id) ∧
        (∀ id ∈ report.scheduled, keptTooLateView.ShowsEvictable id) := by
  have hup : keptTooLate.GoesThrough Fleet.provider :=
    goesThrough_of_isOk keptTooLate_reachable.sound (by decide +kernel)
  exact ⟨keptTooLate_reachable, view_keptTooLate, hup,
    (condemned_evictable_iff keptTooLate_reachable view_keptTooLate).1 hup⟩

end Station

end PoolKeeper
