import PoolKeeper.Proofs.Departure
import PoolKeeper.Proofs.NetSize

/-!
# Machines that a termination does not find

A machine that waits and is not there any more leaves the queue. Unlike one whose end is confirmed
it is not remembered as gone, so it counts again for as long as the snapshot lists it.

* `Provider.obliging`, `Turn.obliged`: drivers that confirm the end of machines that are not there,
  and a cycle with them;
* `Call.lost`, `Turn.lost`: the machines that are not there;
* `Turn.counted_obliged`, `Turn.length_counted`: they make the difference for the next cycle;
* **`Station.lost_counted_again`**: it chooses nobody exactly if no machine was lost or nobody may
  go; **`Station.lost_chosen_again`**: it may choose a lost machine once more.
-/

namespace PoolKeeper

/-! ## Obliging drivers -/

/-- An answer that confirms the end of the machines that are not there. -/
def confirmMissing : Except TerminateError Unit → Except TerminateError Unit
  | .ok () => .ok ()
  | .error e =>
    .error
      { succeeded := e.succeeded ++ missingBy (.error e)
        failures := e.failures.filter fun _ cause => !cause.isNotFound }

theorem confirmedBy_confirmMissing (ids : List String) (answer : Except TerminateError Unit) :
    confirmedBy ids (confirmMissing answer) = confirmedBy ids answer ++ missingBy answer := by
  cases answer with
  | ok u => exact (List.append_nil ids).symm
  | error e => rfl

theorem missingBy_confirmMissing (answer : Except TerminateError Unit) :
    missingBy (confirmMissing answer) = [] := by
  cases answer with
  | ok u => rfl
  | error e =>
    show ((e.failures.entries.filter _).filter _).map Prod.fst = []
    rw [List.filter_filter, List.filter_eq_nil_iff.2 fun failure _ => by simp, List.map_nil]

theorem nodup_missingBy (answer : Except TerminateError Unit) : (missingBy answer).Nodup := by
  cases answer with
  | ok u => exact List.nodup_nil
  | error e => exact (List.filter_sublist.map Prod.fst).nodup e.failures.nodup_keys

/-- Drivers that do all that others do, and confirm the end of machines that are not there. -/
def Provider.obliging {σ : Type} (p : Provider σ) : Provider σ :=
  { p with
    terminate := fun d ids now outside =>
      (confirmMissing (p.terminate d ids now outside).1, (p.terminate d ids now outside).2) }

/-- The machines that a call does not find. -/
def Call.lost : Call → List String
  | .terminate _ ids answer =>
    (missingBy answer).filter fun id => !(confirmedBy ids answer).contains id
  | _ => []

namespace Turn

variable {σ : Type} {t t' u : Turn σ} {snapshot : Pool}

/-- The cycle with obliging drivers. -/
def obliged (t : Turn σ) : Turn σ := { t with provider := t.provider.obliging }

/-- The machines that are due and not there. -/
def lost (t : Turn σ) : List String := t.missing.filter fun id => !t.confirmed.contains id

theorem goesThrough_obliged (t : Turn σ) : t.obliged.GoesThrough ↔ t.GoesThrough :=
  ⟨fun h => ⟨h.foresees, h.starts⟩, fun h => ⟨h.foresees, h.starts⟩⟩

theorem lost_calls (hgoes : t.GoesThrough) : t.calls.flatMap Call.lost = t.lost := by
  rw [flatMap_calls_of_goesThrough t hgoes, lost, missing, confirmed]
  show (if t.requested = 0 then [] else []) ++ _ = _
  rw [ite_self, List.nil_append]
  split
  · rfl
  · rfl

theorem confirmed_obliged (t : Turn σ) : t.obliged.confirmed = t.confirmed ++ t.missing := by
  show (if t.due.isEmpty then _ else _) = _
  rw [confirmed, missing]
  split
  · rfl
  · exact confirmedBy_confirmMissing _ _

theorem missing_obliged (t : Turn σ) : t.obliged.missing = [] := by
  show (if t.due.isEmpty then _ else _) = _
  split
  · rfl
  · exact missingBy_confirmMissing _

theorem mem_lost {id : String} : id ∈ t.lost ↔ id ∈ t.missing ∧ id ∉ t.confirmed := by
  rw [lost, List.mem_filter]
  simp

theorem nodup_lost (t : Turn σ) : t.lost.Nodup := by
  refine List.Nodup.filter _ ?_
  rw [missing]
  split
  · exact List.nodup_nil
  · exact nodup_missingBy _

theorem Sees.obliged (h : t.Sees snapshot) : t.obliged.Sees snapshot :=
  ⟨h.view, h.recent, h.overlay, h.queue, h.later⟩

/-! ## Who counts afterwards -/

theorem queue_obliged (hq : t.controller.queue.Distinct) :
    t.obliged.closing.controller.queue = t.closing.controller.queue := by
  have hsame : t.obliged.closing.controller.queue.entries =
      t.closing.controller.queue.entries := by
    rw [entries_closing (t := t.obliged) hq, entries_closing hq, confirmed_obliged, missing_obliged]
    refine List.filter_congr fun e _ => ?_
    simp
  exact congrArg TerminationQueue.mk hsame

/-- A cycle with obliging drivers remembers the end of the machines that are not there as well. -/
theorem overlay_obliged (t : Turn σ) :
    t.obliged.closing.controller.overlay =
      t.closing.controller.overlay.recordTerminated t.missing t.now := by
  rw [closing_overlay, closing_overlay, confirmed_obliged]
  exact List.foldl_append

theorem effective_view_closing (h : t.Sees snapshot) :
    (t.closing.controller.view snapshot).1.effective =
      (t.closing.controller.overlay.overlay snapshot).effective :=
  congrArg (fun o : Overlay => (o.overlay snapshot).effective) h.recent_closing.forget_eq

/-- **The difference that obliging drivers make.** -/
theorem counted_obliged (h : t.Sees snapshot) :
    t.obliged.closing.controller.counted snapshot =
      (t.closing.controller.counted snapshot).filter fun m => !t.missing.contains m.id := by
  rw [Controller.counted, effective_view_closing h.obliged, overlay_obliged,
    Overlay.effective_recordTerminated, queue_obliged h.queue, Controller.counted,
    effective_view_closing h, List.filter_filter, List.filter_filter]
  exact List.filter_congr fun m _ => Bool.and_comm _ _

theorem mem_counted_closing (h : t.Sees snapshot) (hf : t.obliged.Fair) {m : Machine} :
    m ∈ t.closing.controller.counted snapshot ↔
      m ∈ t.view.effective ++ t.launched ∧ m.id ∉ t.confirmed ∧
        t.closing.controller.queue.contains m.id = false := by
  have heffective := effective_closing h hf.distinct hf.effective hf.fresh
  rw [Controller.mem_counted, effective_view_closing h, heffective, List.mem_filter, and_assoc]
  simp

theorem counts_of_missing (hgoes : t.GoesThrough) (h : t.Sees snapshot) (hf : t.obliged.Fair)
    {id : String} (hid : id ∈ t.missing) : ∃ m ∈ t.view.effective, m.id = id := by
  have hconfirmed : id ∈ t.obliged.confirmed := by
    rw [confirmed_obliged]
    exact List.mem_append_right _ hid
  obtain ⟨e, he, _, rfl⟩ := t.obliged.mem_due.1
    (hf.confirmed_due (t.goesThrough_obliged.2 hgoes) id hconfirmed)
  exact (replanner_pruned h.queue).effective e.id (TerminationQueue.id_mem_ids he)

/-- **Machines that are lost count in the next cycle**, each once. -/
theorem length_counted (hgoes : t.GoesThrough) (h : t.Sees snapshot) (hf : t.obliged.Fair)
    (hs : snapshot.Distinct) :
    (t.closing.controller.counted snapshot).length =
      (t.obliged.closing.controller.counted snapshot).length + t.lost.length := by
  have hoverlay : t.closing.controller.overlay.Distinct := by
    rw [closing_overlay]
    exact (h.overlay.recordStarted _ _).recordTerminated _ _
  have hperm : (((t.closing.controller.counted snapshot).filter fun m =>
      t.missing.contains m.id).map Machine.id).Perm t.lost := by
    refine (List.perm_ext_iff_of_nodup ((List.filter_sublist.map _).nodup
      (Controller.nodup_counted hoverlay hs)) t.nodup_lost).2 fun id => ?_
    rw [mem_lost]
    constructor
    · intro hid
      obtain ⟨m, hm, rfl⟩ := List.mem_map.1 hid
      obtain ⟨hm, hmissing⟩ := List.mem_filter.1 hm
      exact ⟨by simpa using hmissing, ((mem_counted_closing h hf).1 hm).2.1⟩
    · rintro ⟨hmissing, hconfirmed⟩
      obtain ⟨m, hm, rfl⟩ := counts_of_missing hgoes h hf hmissing
      refine List.mem_map_of_mem (List.mem_filter.2 ⟨?_, by simpa using hmissing⟩)
      refine (mem_counted_closing h hf).2 ⟨List.mem_append_left _ hm, hconfirmed, ?_⟩
      rw [← Bool.not_eq_true, TerminationQueue.contains_iff]
      intro hid
      obtain ⟨e, he, heq⟩ := List.mem_map.1 hid
      exact ((t.mem_closing_iff h.queue).1 he).2.2 (heq ▸ hmissing)
  have hsplit := List.length_eq_length_filter_add (l := t.closing.controller.counted snapshot)
    fun m => !t.missing.contains m.id
  simp only [Bool.not_not] at hsplit
  rw [hsplit, counted_obliged h, ← hperm.length_eq, List.length_map]

/-! ## The next cycle -/

theorem Next.remaining_planner (hn : Next snapshot t t') (h : t.Sees snapshot)
    (hs : snapshot.Distinct) :
    t'.planner.remaining = t.closing.controller.counted snapshot := by
  rw [Turn.remaining_planner t' ((hn.sees h).distinct hs), hn.view, hn.controller]
  rfl

theorem Next.netSize_planner (hn : Next snapshot t t') (h : t.Sees snapshot)
    (hs : snapshot.Distinct) :
    t'.planner.netSize = (t.closing.controller.counted snapshot).length := by
  rw [Planner.netSize_eq, hn.remaining_planner h hs]

/-- When a machine is lost enough others count. -/
theorem Next.desired_le_of_lost (hn : Next snapshot t.obliged u) (h : t.Sees snapshot)
    (hf : t.obliged.Fair) (hs : snapshot.Distinct) (hlost : t.lost ≠ []) :
    u.desired ≤ u.planner.netSize := by
  have hd : t.obliged.desired ≤ t.obliged.view.effectiveCount := by
    by_contra hfew
    have hnone := waiting_nil (h.distinct hs) h.queue (Nat.lt_of_not_le hfew)
    obtain ⟨id, hid⟩ := List.exists_mem_of_ne_nil _ hlost
    have hconfirmed : id ∈ t.obliged.confirmed := by
      rw [confirmed_obliged]
      exact List.mem_append_right _ (mem_lost.1 hid).1
    rw [confirmed_nil (t := t.obliged) hnone] at hconfirmed
    cases hconfirmed
  have henough := (replanner_settled (h.obliged.distinct hs) h.obliged.queue hd).1
  rw [hn.desired_eq, Planner.netSize_eq, hn.remaining_eq h.obliged hf hs (launched_nil hf hd),
    ← Planner.netSize_eq]
  exact henough

theorem Next.length_scheduled (hn : Next snapshot t t') (h : t.Sees snapshot)
    (hs : snapshot.Distinct) :
    t'.scheduled.length = min ((t.closing.controller.counted snapshot).length - t.desired)
      ((t.closing.controller.counted snapshot).filter Machine.isEvictable).length := by
  rw [scheduled, Planner.length_victims, hn.netSize_planner h hs, hn.desired_eq,
    Planner.eligible_eq, hn.remaining_planner h hs]

theorem Next.scheduled_obliged (hn : Next snapshot t.obliged u) (h : t.Sees snapshot)
    (hf : t.obliged.Fair) (hs : snapshot.Distinct) : u.scheduled = [] :=
  (hn.settled h.obliged hf hs).schedules_none _

/-- **When the next cycle chooses nobody.** -/
theorem Next.scheduled_eq_nil_iff (hn : Next snapshot t t') (hn' : Next snapshot t.obliged u)
    (h : t.Sees snapshot) (hf : t.obliged.Fair) (hs : snapshot.Distinct) :
    t'.scheduled = [] ↔
      t.lost = [] ∨ ∀ m ∈ t.closing.controller.counted snapshot, m.isEvictable = false := by
  have hcount := length_counted hn.goes h hf hs
  have hquiet := hn'.length_scheduled h.obliged hs
  rw [hn'.scheduled_obliged h hf hs] at hquiet
  by_cases hlost : t.lost = []
  · -- Nobody is lost, so the same machines count with obliging drivers.
    have hsame : t.obliged.closing.controller.counted snapshot =
        t.closing.controller.counted snapshot := by
      rw [hlost] at hcount
      rw [counted_obliged h] at hcount ⊢
      exact List.filter_sublist.eq_of_length hcount.symm
    rw [hsame] at hquiet
    refine iff_of_true (List.eq_nil_of_length_eq_zero ?_) (.inl hlost)
    rw [hn.length_scheduled h hs]
    exact hquiet.symm
  · have hsome := List.length_pos_iff.2 hlost
    have henough := hn'.desired_le_of_lost h hf hs hlost
    rw [hn'.netSize_planner h.obliged hs, hn'.desired_eq] at henough
    have hdesired : t.obliged.desired = t.desired := rfl
    have hnobody : ((t.closing.controller.counted snapshot).filter Machine.isEvictable).length = 0 ↔
        ∀ m ∈ t.closing.controller.counted snapshot, m.isEvictable = false := by
      simp only [List.length_eq_zero_iff, List.filter_eq_nil_iff, Bool.not_eq_true]
    rw [or_iff_right hlost, ← hnobody, ← List.length_eq_zero_iff, hn.length_scheduled h hs]
    omega

end Turn

/-! ## Stations -/

namespace Station

variable {σ : Type} {p : Provider σ} {s u v : Station σ} {snapshot : Pool}

/-- **Machines that are not there count again.** After a cycle that loses some, the next one on the
same snapshot reports a net size that is so much larger than if their end had been confirmed. Then
it would choose nobody; as it is, it chooses nobody exactly if none were lost or none of those that
count may go. Nothing is to break down in any of these cycles. -/
theorem lost_counted_again (h : s.Reachable p) (hs : s.Serves snapshot)
    (hdistinct : snapshot.Distinct) (htime : snapshot.takenAt ≤ s.world.now)
    (hfair : ∀ call ∈ s.cycleCalls p.obliging, call.Fair (s.controller.view snapshot).1)
    (hu : Follows p s u) (hus : u.Serves snapshot) (hv : Follows p.obliging s v)
    (hvs : v.Serves snapshot) (hgu : u.GoesThrough p) (hgv : v.GoesThrough p) :
    ∃ report confirmed, (u.reconcile p).1 = .ok report ∧ (v.reconcile p).1 = .ok confirmed ∧
      report.desiredSize = confirmed.desiredSize ∧
      report.netSize = confirmed.netSize + ((s.cycleCalls p).flatMap Call.lost).length ∧
      confirmed.scheduled = [] ∧
      (report.scheduled = [] ↔ (s.cycleCalls p).flatMap Call.lost = [] ∨
        ∀ m ∈ u.controller.counted snapshot, m.isEvictable = false) := by
  obtain ⟨a, ha⟩ := h.sound.serving hs
  have hsees := sees_turn (p := p) (a := a) h.sound htime
  have hobliged : s.turn p.obliging a snapshot = (s.turn p a snapshot).obliged := rfl
  rw [cycleCalls_eq ha hs, hobliged] at hfair
  have hf : (s.turn p a snapshot).obliged.Fair := Turn.fair_of_calls hfair
  have hn := hu.next ha hs
  have hua := hu.worksOn ha hs
  have hva := hv.worksOn ha hs
  have hn' : Turn.Next snapshot (s.turn p a snapshot).obliged (v.turn p a snapshot) := by
    obtain ⟨hgoes, hview, hcontroller, hlater⟩ := hv.next ha hs
    exact ⟨hgoes, hview, hcontroller, hlater⟩
  have hcontroller : u.controller = (s.turn p a snapshot).closing.controller := by
    rw [hu.controller, reconcile_eq ha hs hn.goes]
  refine ⟨(u.turn p a snapshot).closing.report, (v.turn p a snapshot).closing.report,
    by rw [reconcile_eq hua hus ((goesThrough_iff hua hus).1 hgu)],
    by rw [reconcile_eq hva hvs ((goesThrough_iff hva hvs).1 hgv)], ?_⟩
  rw [cycleCalls_eq ha hs, Turn.lost_calls hn.goes, hcontroller]
  rw [(u.turn p a snapshot).closing_report, (v.turn p a snapshot).closing_report]
  refine ⟨hn.desired_eq.trans hn'.desired_eq.symm, ?_, ?_, ?_⟩
  · show (u.turn p a snapshot).planner.netSize = (v.turn p a snapshot).planner.netSize + _
    rw [hn.netSize_planner hsees hdistinct, hn'.netSize_planner hsees.obliged hdistinct]
    exact Turn.length_counted hn.goes hsees hf hdistinct
  · exact List.map_eq_nil_iff.2 (hn'.scheduled_obliged hsees hf hdistinct)
  · exact List.map_eq_nil_iff.trans (hn.scheduled_eq_nil_iff hn' hsees hf hdistinct)

/-- A simulated machine that was taken out of the pool behind the controller's back, and is one too
many. -/
def vanished : Station Fleet :=
  let one := Fleet.atWork
    { name := "web", driver := ⟨Cloud.kind, .array [.null, .nat 0, .nat 1]⟩, desiredSize := some 1
      fetch := { reachabilityTimeout := 3600 } }
  let outside := (Fleet.provider.detach 0 "web-0001" one.world.now one.world.outside).2
  ({ one with world := { one.world with outside } }.respond Fleet.provider (.setDesired 0)).2

/-- The snapshot from before the machine was taken out. -/
def vanishedSnapshot : Pool where
  machines := [{ id := "web-0001", state := .running, launched := some ⟨0, 0⟩ }]
  takenAt := ⟨0, 0⟩

theorem vanished_reachable : vanished.Reachable Fleet.provider :=
  .respond _ (.world _ (Instant.le_refl _) (Fleet.atWork_reachable _))

/-- The station after a cycle, with some drivers. -/
def vanishedAfter (p : Provider Fleet) : Station Fleet := (vanished.reconcile p).2

theorem vanished_serves : vanished.Serves vanishedSnapshot :=
  ⟨_, by with_unfolding_all rfl, by with_unfolding_all rfl⟩

theorem vanishedAfter_serves : (vanishedAfter Fleet.provider).Serves vanishedSnapshot :=
  ⟨_, by with_unfolding_all rfl, by with_unfolding_all rfl⟩

theorem lost_counted_again_vanished :
    vanished.Reachable Fleet.provider ∧
      Follows Fleet.provider vanished (vanishedAfter Fleet.provider) ∧
      Follows Fleet.provider.obliging vanished (vanishedAfter Fleet.provider.obliging) ∧
      ∃ report confirmed, ((vanishedAfter Fleet.provider).reconcile Fleet.provider).1 = .ok report ∧
        ((vanishedAfter Fleet.provider.obliging).reconcile Fleet.provider).1 = .ok confirmed ∧
        report.netSize = confirmed.netSize +
          ((vanished.cycleCalls Fleet.provider).flatMap Call.lost).length ∧
        confirmed.scheduled = [] := by
  have hu : Follows Fleet.provider vanished (vanishedAfter Fleet.provider) :=
    ⟨goesThrough_of_isOk vanished_reachable.sound (by decide +kernel), rfl, by decide +kernel⟩
  have hv : Follows Fleet.provider.obliging vanished (vanishedAfter Fleet.provider.obliging) :=
    ⟨goesThrough_of_isOk vanished_reachable.sound (by decide +kernel), rfl, by decide +kernel⟩
  have hvs : (vanishedAfter Fleet.provider.obliging).Serves vanishedSnapshot :=
    ⟨_, by with_unfolding_all rfl, by with_unfolding_all rfl⟩
  have hgu : (vanishedAfter Fleet.provider).GoesThrough Fleet.provider :=
    goesThrough_of_isOk (vanished_reachable.respond .reconcile).sound (by decide +kernel)
  have hgv : (vanishedAfter Fleet.provider.obliging).GoesThrough Fleet.provider :=
    goesThrough_of_isOk (vanished_reachable.sound.leads (reconcile_leads _ _)) (by decide +kernel)
  obtain ⟨report, confirmed, hreport, hconfirmed, _, hnet, hnobody, _⟩ :=
    lost_counted_again vanished_reachable vanished_serves (by decide) (by decide +kernel)
      (by decide +kernel) hu vanishedAfter_serves hv hvs hgu hgv
  exact ⟨vanished_reachable, hu, hv, report, confirmed, hreport, hconfirmed, hnet, hnobody⟩

/-- **A machine that is not there is chosen once more**; had its end been confirmed, nobody would
be. -/
theorem lost_chosen_again :
    vanished.Reachable Fleet.provider ∧ vanished.Serves vanishedSnapshot ∧
      (vanishedAfter Fleet.provider).Serves vanishedSnapshot ∧
      (vanished.cycleCalls Fleet.provider).flatMap Call.lost = ["web-0001"] ∧
      ((vanishedAfter Fleet.provider).reconcile Fleet.provider).1.toOption.map Report.scheduled =
        some ["web-0001"] ∧
      ((vanishedAfter Fleet.provider.obliging).reconcile
        Fleet.provider).1.toOption.map Report.scheduled = some [] :=
  ⟨vanished_reachable, vanished_serves, vanishedAfter_serves, by decide +kernel, by decide +kernel,
    by decide +kernel⟩

end Station

end PoolKeeper
