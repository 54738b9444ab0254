import PoolKeeper.Proofs.Requests
import PoolKeeper.Proofs.StaleCache

/-!
# The net size when machines leave and join

A machine that leaves with the desired size lowered, or that joins, should leave as many machines
missing or too many as there were.

* `Controller.counted`: the machines that a cycle on a snapshot counts;
  `Station.report_of_serves`: their number is the net size that it reports;
* `Controller.counted_removed`: who counts once a machine has left;
  `Controller.counted_without`, `Controller.mem_counted_iff`: who counts besides one machine, and
  whether that does;
* **`Station.removal_neutral_iff`**: a removal is neutral exactly if the machine counted or waited;
  **`Station.removal_of_uncounted`**: it need not have;
* `Station.CountsIn`, **`Station.attach_counts_iff`**: a machine that joins counts exactly if the
  snapshot lists it and nothing is left of an earlier removal; **`Station.attach_uncounted`**:
  something may be.
-/

namespace PoolKeeper

/-! ## Who counts -/

theorem Machine.length_eq_filter_add {machines : List Machine}
    (h : (machines.map Machine.id).Nodup) (id : String) :
    machines.length = (machines.filter fun m => m.id != id).length +
      if id ∈ machines.map Machine.id then 1 else 0 := by
  have hone : (machines.filter fun m => m.id == id).length =
      (machines.map Machine.id).count id := by
    rw [← List.countP_eq_length_filter, List.count, List.countP_map]
    rfl
  rw [← h.count, ← hone, List.length_eq_length_filter_add fun m => m.id != id]
  simp only [bne, Bool.not_not]

/-- The machines that a cycle on a snapshot counts: those that count in its view and do not wait. -/
def Controller.counted (c : Controller) (snapshot : Pool) : List Machine :=
  (c.view snapshot).1.effective.filter fun m => !c.queue.contains m.id

/-- Terminations that are dropped are of machines that do not count anyway. -/
theorem Turn.remaining_planner {σ : Type} (t : Turn σ) (hv : t.view.Distinct) :
    t.planner.remaining = t.view.effective.filter fun m => !t.controller.queue.contains m.id := by
  refine List.filter_congr fun m hm => ?_
  have hpruned : m.id ∈ t.pruned.ids ↔ m.id ∈ t.controller.queue.ids := by
    refine ⟨fun hid => (t.pruned_sublist.map _).subset hid, fun hid => ?_⟩
    obtain ⟨e, he, heq⟩ := List.mem_map.1 hid
    exact List.mem_map.2 ⟨e, (t.mem_pruned_iff hv he).2 ⟨m, hm, heq.symm⟩, heq⟩
  rw [← TerminationQueue.contains_iff, ← TerminationQueue.contains_iff, ← Bool.eq_iff_iff]
    at hpruned
  exact congrArg _ hpruned

theorem Turn.requested_of_netSize {σ : Type} (t : Turn σ) (h : t.planner.netSize = t.desired) :
    t.requested = 0 := by
  have hsum : t.planner.netSize + t.planner.scheduledCount = t.view.effectiveCount :=
    Planner.netSize_add_scheduledCount _
  rw [requested]
  omega

namespace Controller

variable {c : Controller} {snapshot : Pool}

theorem mem_counted {m : Machine} : m ∈ c.counted snapshot ↔
    m ∈ (c.view snapshot).1.effective ∧ c.queue.contains m.id = false := by
  rw [counted, List.mem_filter, Bool.not_eq_true']

theorem nodup_counted (h : c.overlay.Distinct) (hs : snapshot.Distinct) :
    ((c.counted snapshot).map Machine.id).Nodup :=
  (List.filter_sublist.map Machine.id).nodup
    (Pool.nodup_effective_ids (Overlay.distinct_overlay hs (h.forget _)))

end Controller

namespace Station

variable {σ : Type} {p : Provider σ} {s : Station σ} {snapshot : Pool}

/-- What a cycle reports about sizes if nothing breaks down; when they are equal nothing does, and it
does nothing about them. -/
theorem report_of_serves (h : s.Sound) (hs : s.Serves snapshot) (hdistinct : snapshot.Distinct)
    {size : Nat} (hsize : s.controller.desired = some size)
    (hup : s.GoesThrough p ∨ (s.controller.counted snapshot).length = size) :
    ∃ report, (s.reconcile p).1 = .ok report ∧ report.desiredSize = size ∧
      report.netSize = (s.controller.counted snapshot).length ∧
      (report.netSize = size →
        s.requestedIn p = 0 ∧ report.scheduled = [] ∧ report.spared = []) := by
  obtain ⟨a, ha⟩ := h.serving hs
  have hv : (s.turn p a snapshot).view.Distinct :=
    Overlay.distinct_overlay hdistinct (h.controller.overlay.forget _)
  have hdesired : (s.turn p a snapshot).desired = size := by
    show s.controller.desired.getD _ = size
    rw [hsize]
    rfl
  have hcounted : (s.turn p a snapshot).planner.netSize = (s.controller.counted snapshot).length := by
    rw [Planner.netSize_eq, Turn.remaining_planner _ hv]
    rfl
  have hgoes : (s.turn p a snapshot).GoesThrough := by
    rcases hup with hup | heq
    · exact (goesThrough_iff ha hs).1 hup
    · have hnet := (hcounted.trans heq).trans hdesired.symm
      exact Turn.goesThrough_of_foresees _ (Planner.foresees_of_le (Nat.le_of_eq hnet) _)
        (Turn.requested_of_netSize _ hnet)
  refine ⟨(s.turn p a snapshot).closing.report, by rw [reconcile_eq ha hs hgoes], ?_, ?_,
    fun heq => ?_⟩
  · rw [Turn.closing_report]
    exact hdesired
  · rw [Turn.closing_report]
    exact hcounted
  · rw [Turn.closing_report] at heq
    have hnet : (s.turn p a snapshot).planner.netSize = (s.turn p a snapshot).desired :=
      heq.trans hdesired.symm
    rw [requestedIn_eq ha hs]
    exact ⟨(s.turn p a snapshot).requested_of_netSize hnet,
      Turn.quiet_report (.inr ⟨Nat.le_of_eq hnet.symm, .inl hnet⟩)⟩

end Station

/-! ## Machines that leave -/

namespace Controller

variable {c : Controller} {snapshot other : Pool} {now : Instant}

/-- **Who has left counts no longer**, and all others as before, on any snapshot up to now that is
not older than the one seen last. -/
theorem counted_removed (h : c.Sound) (id : String) (decrement : Bool)
    (hold : snapshot.takenAt ≤ other.takenAt) (hnow : other.takenAt ≤ now) :
    ((c.view snapshot).2.removed id decrement now).counted other =
      (c.counted other).filter fun m => m.id != id := by
  have hview : (((c.view snapshot).2.removed id decrement now).view other).1 =
      ((c.overlay.forget other.takenAt).recordTermination now id).overlay other :=
    Overlay.overlay_forget_recordTermination hold hnow other
  have hqueue : ∀ x, ((c.view snapshot).2.removed id decrement now).queue.contains x =
      (x != id && c.queue.contains x) :=
    fun x => TerminationQueue.contains_erase h.queue id x
  rw [counted, hview, Overlay.effective_recordTermination, List.filter_filter, counted,
    List.filter_filter]
  refine List.filter_congr fun m _ => ?_
  rw [hqueue]
  cases hid : m.id != id with
  | false => simp
  | true => simp

end Controller

namespace Station

variable {σ : Type} {p : Provider σ} {s : Station σ} {snapshot other : Pool} {id : String}
  {request : Request}

theorem desired_removal (hs : s.Serves snapshot) {size : Nat}
    (hsize : s.controller.desired = some (size + 1))
    (hr : request = .terminate id true ∨ request = .detach id true)
    (hok : (s.respond p request).1 = .ok .done) :
    (s.respond p request).2.controller.desired =
      some (if s.controller.queue.contains id then size + 1 else size) := by
  rw [controller_removal hr hs hok]
  show (if true ∧ ¬ s.controller.queue.contains id then s.controller.desired.map (· - 1)
    else s.controller.desired) = _
  rw [hsize]
  cases s.controller.queue.contains id with
  | false => rfl
  | true => rfl

/-- **When a removal that lowers the desired size is neutral.** The desired size is lowered unless
the machine waited for its termination. On any snapshot up to now that is not older than the one
seen, as many machines are missing or too many as before exactly if the machine counted or waited; a
cycle in which nothing breaks down reports just these sizes, and nothing does when they are equal. -/
theorem removal_neutral_iff (h : s.Reachable p) (hs : s.Serves snapshot) {size : Nat}
    (hsize : s.controller.desired = some (size + 1))
    (hr : request = .terminate id true ∨ request = .detach id true)
    (hok : (s.respond p request).1 = .ok .done) (hdistinct : other.Distinct)
    (hold : snapshot.takenAt ≤ other.takenAt) (hnow : other.takenAt ≤ s.world.now) :
    ∃ left, (s.respond p request).2.controller.desired = some left ∧
      left = (if s.controller.queue.contains id then size + 1 else size) ∧
      ((left : Int) - ((s.respond p request).2.controller.counted other).length =
          (size + 1 : Int) - (s.controller.counted other).length ↔
        (∃ m ∈ s.controller.counted other, m.id = id) ∨ s.controller.queue.contains id = true) ∧
      ((s.respond p request).2.Serves other →
        (s.respond p request).2.GoesThrough p ∨
          ((s.respond p request).2.controller.counted other).length = left →
        ∃ report, ((s.respond p request).2.reconcile p).1 = .ok report ∧
          report.desiredSize = left ∧
          report.netSize = ((s.respond p request).2.controller.counted other).length ∧
          (report.netSize = left → (s.respond p request).2.requestedIn p = 0 ∧
            report.scheduled = [] ∧ report.spared = [])) := by
  have hc := controller_removal hr hs hok
  have hleft := desired_removal hs hsize hr hok
  have hcounted := Controller.counted_removed h.sound.controller id true hold hnow
  have hlength := Machine.length_eq_filter_add
    (Controller.nodup_counted h.sound.controller.overlay hdistinct) id
  refine ⟨_, hleft, rfl, ?_,
    fun hs' hup => report_of_serves (h.respond request).sound hs' hdistinct hleft hup⟩
  rw [hc, hcounted, ← List.mem_map]
  by_cases hid : id ∈ (s.controller.counted other).map Machine.id
  · have hfree : s.controller.queue.contains id = false := by
      obtain ⟨m, hm, rfl⟩ := List.mem_map.1 hid
      exact (Controller.mem_counted.1 hm).2
    rw [if_pos hid] at hlength
    simp only [hfree, hid, Bool.false_eq_true, if_false, or_false, iff_true]
    omega
  · rw [if_neg hid] at hlength
    cases hqueue : s.controller.queue.contains id with
    | false =>
      simp only [hid, Bool.false_eq_true, if_false, or_false, iff_false]
      omega
    | true =>
      simp only [if_true, or_true, iff_true]
      omega

/-- Two simulated machines, as many as are asked for. -/
def pair : Station Fleet :=
  Fleet.atWork
    { name := "web", driver := ⟨Cloud.kind, .array [.null, .nat 0, .nat 2]⟩, desiredSize := some 2
      fetch := { reachabilityTimeout := 3600 } }

/-- The snapshot of the two machines. -/
def pairSnapshot : Pool where
  machines :=
    [{ id := "web-0001", state := .running, launched := some ⟨0, 0⟩ },
      { id := "web-0002", state := .running, launched := some ⟨0, 0⟩ }]
  takenAt := ⟨0, 0⟩

theorem removal_neutral_iff_pair :
    pair.Reachable Fleet.provider ∧ pair.Serves pairSnapshot ∧
      (pair.respond Fleet.provider (.terminate "web-0001" true)).1 = .ok .done ∧
      ∃ left, (pair.respond Fleet.provider (.terminate "web-0001" true)).2.controller.desired =
        some left ∧ left = if pair.controller.queue.contains "web-0001" then 2 else 1 := by
  have hreach : pair.Reachable Fleet.provider := Fleet.atWork_reachable _
  have hserves : pair.Serves pairSnapshot :=
    ⟨_, by with_unfolding_all rfl, by with_unfolding_all rfl⟩
  have hok : (pair.respond Fleet.provider (.terminate "web-0001" true)).1 = .ok .done := by
    with_unfolding_all rfl
  have hsize : pair.controller.desired = some (1 + 1) := by decide +kernel
  have hdistinct : pairSnapshot.Distinct := by decide
  obtain ⟨left, hdesired, hleft, _⟩ := removal_neutral_iff hreach hserves hsize (.inl rfl) hok
    hdistinct (Instant.le_refl _) (by decide +kernel)
  exact ⟨hreach, hserves, hok, left, hdesired, hleft⟩

/-- One of the two machines is out of service, and the other is all that is asked for. -/
def outOfService : Station Fleet :=
  let told := (pair.respond Fleet.provider (.setService "web-0001" .outOfService)).2
  (told.respond Fleet.provider (.setDesired 1)).2

/-- The snapshot that shows it. -/
def outOfServiceSnapshot : Pool where
  machines :=
    [{ id := "web-0001", state := .running, service := .outOfService, launched := some ⟨0, 0⟩ },
      { id := "web-0002", state := .running, launched := some ⟨0, 0⟩ }]
  takenAt := ⟨0, 0⟩

/-- **The desired size is lowered for a machine that does not count**, and the next cycle terminates
one that does. -/
theorem removal_of_uncounted :
    outOfService.Reachable Fleet.provider ∧ outOfService.Serves outOfServiceSnapshot ∧
      outOfService.controller.desired = some 1 ∧
      ((outOfService.controller.view outOfServiceSnapshot).1.contains "web-0001" = true ∧
        ¬ ∃ m ∈ outOfService.controller.counted outOfServiceSnapshot, m.id = "web-0001") ∧
      (outOfService.respond Fleet.provider (.terminate "web-0001" true)).1 = .ok .done ∧
      (outOfService.respond Fleet.provider (.terminate "web-0001" true)).2.controller.desired =
        some 0 ∧
      (((outOfService.respond Fleet.provider (.terminate "web-0001" true)).2.reconcile
        Fleet.provider).1.toOption.map Report.terminated) = some ["web-0002"] :=
  ⟨((Fleet.atWork_reachable _).respond _).respond _,
    ⟨_, by with_unfolding_all rfl, by with_unfolding_all rfl⟩, by decide +kernel,
    ⟨by decide +kernel, by decide +kernel⟩, by with_unfolding_all rfl, by decide +kernel,
    by decide +kernel⟩

end Station

/-! ## Machines that join -/

namespace Controller

variable {c : Controller} {snapshot : Pool} {id : String}

theorem counted_without (h : id ∉ c.overlay.startedIds) :
    c.counted (snapshot.without id) = (c.counted snapshot).filter fun m => m.id != id := by
  have hview : (c.view (snapshot.without id)).1.effective =
      (c.view snapshot).1.effective.filter fun m => m.id != id :=
    Overlay.effective_without fun hid => h (Overlay.startedIds_forget_subset hid)
  rw [counted, hview, counted, List.filter_filter, List.filter_filter]
  exact List.filter_congr fun m _ => Bool.and_comm _ _

/-- A machine that was not started lately counts if the snapshot lists it so, unless it has ended
since or waits. -/
theorem mem_counted_iff (h : id ∉ c.overlay.startedIds) :
    (∃ m ∈ c.counted snapshot, m.id = id) ↔
      (∃ m ∈ snapshot.effective, m.id = id) ∧ ¬ c.overlay.EndedSince id snapshot.takenAt ∧
        c.queue.contains id = false := by
  have hview : (∃ m ∈ (c.view snapshot).1.effective, m.id = id) ↔
      (∃ m ∈ snapshot.effective, m.id = id) ∧
        (c.overlay.forget snapshot.takenAt).terminated.contains id = false :=
    Overlay.mem_effective_iff fun hid => h (Overlay.startedIds_forget_subset hid)
  rw [← Overlay.contains_forget_iff, Bool.not_eq_true, ← and_assoc, ← hview]
  constructor
  · rintro ⟨m, hm, rfl⟩
    obtain ⟨hm, hfree⟩ := mem_counted.1 hm
    exact ⟨⟨m, hm, rfl⟩, hfree⟩
  · rintro ⟨⟨m, hm, rfl⟩, hfree⟩
    exact ⟨m, mem_counted.2 ⟨hm, hfree⟩, rfl⟩

end Controller

namespace Station

variable {σ : Type} {p : Provider σ} {s : Station σ} {snapshot : Pool} {id : String}

/-- A machine that is attached counts for the next cycle: the snapshot lists it so, no end of it is
remembered since, and it does not wait. -/
def CountsIn (s : Station σ) (id : String) (snapshot : Pool) : Prop :=
  (∃ m ∈ snapshot.effective, m.id = id) ∧ ¬ s.controller.overlay.EndedSince id snapshot.takenAt ∧
    s.controller.queue.contains id = false

/-- **When a machine that joins is counted.** The desired size grows by one. The net size, against the
pool without the machine, grows by one if the machine counts, and not at all if it does not. The next
cycle reports both if nothing breaks down in it. A pool that is left with its desired size is left
alone. -/
theorem attach_counts_iff (h : s.Reachable p) {size : Nat}
    (hsize : s.controller.desired = some size) (hlimit : size + 1 < Controller.sizeLimit)
    (hnew : id ∉ s.controller.overlay.startedIds)
    (hok : (s.respond p (.attach id)).1 = .ok .done)
    (hs : (s.respond p (.attach id)).2.Serves snapshot) (hdistinct : snapshot.Distinct) :
    ∃ net, (s.respond p (.attach id)).2.controller.desired = some (size + 1) ∧
      (s.CountsIn id snapshot → net = (s.controller.counted (snapshot.without id)).length + 1) ∧
      (¬ s.CountsIn id snapshot → net = (s.controller.counted (snapshot.without id)).length) ∧
      ((s.respond p (.attach id)).2.GoesThrough p ∨ net = size + 1 →
        ∃ report, ((s.respond p (.attach id)).2.reconcile p).1 = .ok report ∧
          report.desiredSize = size + 1 ∧ report.netSize = net ∧
          (net = size + 1 → (s.respond p (.attach id)).2.requestedIn p = 0 ∧
            report.scheduled = [] ∧ report.spared = [])) := by
  have hc := controller_attach hok
  have hraised : (s.respond p (.attach id)).2.controller.desired = some (size + 1) := by
    rw [hc]
    show s.controller.desired.map _ = _
    rw [hsize]
    exact congrArg some (if_neg (Nat.not_le.2 hlimit))
  have hcounted : (s.respond p (.attach id)).2.controller.counted snapshot =
      s.controller.counted snapshot := by
    rw [hc]
    rfl
  have hlength := Machine.length_eq_filter_add
    (Controller.nodup_counted h.sound.controller.overlay hdistinct) id
  have hcounts : s.CountsIn id snapshot ↔
      id ∈ (s.controller.counted snapshot).map Machine.id := by
    rw [List.mem_map]
    exact (Controller.mem_counted_iff hnew).symm
  refine ⟨(s.controller.counted snapshot).length, hraised, fun hin => ?_, fun hout => ?_,
    fun hup => ?_⟩
  · rw [Controller.counted_without hnew, hlength, if_pos (hcounts.1 hin)]
  · rw [Controller.counted_without hnew, hlength, if_neg fun hin => hout (hcounts.2 hin)]
    rfl
  · rw [← hcounted] at hup ⊢
    obtain ⟨report, hreport, hdesired, hnet, hquiet⟩ :=
      report_of_serves (h.respond (.attach id)).sound hs hdistinct hraised hup
    exact ⟨report, hreport, hdesired, hnet, hnet ▸ hquiet⟩

/-- One of the two machines was detached and the other is all that is asked for. -/
def detached : Station Fleet :=
  (pair.respond Fleet.provider (.detach "web-0001" true)).2

theorem detached_reachable : detached.Reachable Fleet.provider :=
  (Fleet.atWork_reachable _).respond _

/-- One of the two machines was detached an hour ago. -/
def detachedLongAgo : Station Fleet :=
  { detached with world := detached.world.atTime ⟨3600, 0⟩ }

theorem attach_counts_iff_detachedLongAgo :
    detachedLongAgo.Reachable Fleet.provider ∧ detachedLongAgo.controller.desired = some 1 ∧
      (detachedLongAgo.respond Fleet.provider (.attach "web-0001")).1 = .ok .done ∧
      (detachedLongAgo.respond Fleet.provider (.attach "web-0001")).2.Serves
        { pairSnapshot with takenAt := ⟨3600, 0⟩ } ∧
      ∃ report, ((detachedLongAgo.respond Fleet.provider (.attach "web-0001")).2.reconcile
        Fleet.provider).1 = .ok report ∧ report.desiredSize = 2 ∧ report.netSize = 2 := by
  have hreach : detachedLongAgo.Reachable Fleet.provider :=
    .world _ (by decide +kernel) detached_reachable
  have hsize : detachedLongAgo.controller.desired = some 1 := by decide +kernel
  have hok : (detachedLongAgo.respond Fleet.provider (.attach "web-0001")).1 = .ok .done := by
    with_unfolding_all rfl
  have hserves : (detachedLongAgo.respond Fleet.provider (.attach "web-0001")).2.Serves
      { pairSnapshot with takenAt := ⟨3600, 0⟩ } :=
    ⟨_, by with_unfolding_all rfl, by with_unfolding_all rfl⟩
  obtain ⟨net, _, hin, _, hreports⟩ := attach_counts_iff hreach hsize (by decide)
    (by decide +kernel) hok hserves (by decide)
  have hcounts : detachedLongAgo.CountsIn "web-0001" { pairSnapshot with takenAt := ⟨3600, 0⟩ } := by
    refine ⟨by decide +kernel, ?_⟩
    rw [← Overlay.contains_forget_iff]
    exact ⟨by decide +kernel, by decide +kernel⟩
  obtain rfl : net = 2 := (hin hcounts).trans (by decide +kernel)
  obtain ⟨report, hreport, hdesired, hnet, _⟩ := hreports (.inr rfl)
  exact ⟨hreach, hsize, hok, hserves, report, hreport, hdesired, hnet⟩

/-- **A machine that was detached at the same instant is not counted**, and the next cycle starts
another. -/
theorem attach_uncounted :
    detached.Reachable Fleet.provider ∧ detached.controller.desired = some 1 ∧
      (detached.respond Fleet.provider (.attach "web-0001")).1 = .ok .done ∧
      (detached.respond Fleet.provider (.attach "web-0001")).2.Serves pairSnapshot ∧
      (detached.reconcile Fleet.provider).1.toOption.map Report.netSize = some 1 ∧
      ((detached.respond Fleet.provider (.attach "web-0001")).2.reconcile
        Fleet.provider).1.toOption.map Report.netSize = some 1 ∧
      ((detached.respond Fleet.provider (.attach "web-0001")).2.reconcile
        Fleet.provider).1.toOption.map Report.started = some ["web-0003"] :=
  ⟨detached_reachable, by decide +kernel, by with_unfolding_all rfl,
    ⟨_, by with_unfolding_all rfl, by with_unfolding_all rfl⟩, by decide +kernel, by decide +kernel,
    by decide +kernel⟩

end Station

end PoolKeeper
