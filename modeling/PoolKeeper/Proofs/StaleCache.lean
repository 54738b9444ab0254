import PoolKeeper.Proofs.Termination

/-!
# Cycles on the same snapshot

* `Turn.Fair`: drivers start at most as many new machines as they are asked to, and lose none;
* **`Turn.Next.settled`**: after any cycle on a snapshot the next one on it is settled, and asks for
  what is still missing;
* **`Turn.run_settled`**: so it is along any run of cycles on one snapshot.
-/

namespace PoolKeeper

namespace Turn

variable {σ : Type} {t t' : Turn σ} {snapshot : Pool}

/-! ## After planning -/

/-- The planner once terminations are spared and scheduled. -/
def replanner (t : Turn σ) : Planner := { t.planner with queue := t.waiting }

theorem replanner_pruned (hq : t.controller.queue.Distinct) : t.replanner.Pruned :=
  Planner.replanner_pruned (t.planner_pruned hq) t.desired t.now

/-- When enough machines are there, no more than are too many wait, or nobody else may go. -/
theorem replanner_settled (hv : t.view.Distinct) (hq : t.controller.queue.Distinct)
    (hd : t.desired ≤ t.view.effectiveCount) :
    t.desired ≤ t.replanner.netSize ∧
      (t.replanner.netSize = t.desired ∨ t.replanner.eligible = []) :=
  (Planner.replanner_settled hv (t.planner_pruned hq) t.desired t.now).enough hd

/-! ## The next cycle -/

/-- Drivers start at most as many machines as they are asked to, new ones that count, and lose none:
who is not terminated is not said to be missing. A start does not break down. -/
structure Fair (t : Turn σ) : Prop where
  starts : t.breaks = false
  started_le : t.launched.length ≤ t.requested
  distinct : (t.launched.map Machine.id).Nodup
  effective : ∀ m ∈ t.launched, m.isEffective = true
  fresh : ∀ m ∈ t.launched, t.view.contains m.id = false
  confirmed_due : t.GoesThrough → ∀ id ∈ t.confirmed, id ∈ t.due
  none_missing : t.GoesThrough → t.missing = []

/-- The cycle sees a snapshot with the recent actions on it, and nothing else is remembered. -/
structure Sees (t : Turn σ) (snapshot : Pool) : Prop where
  view : t.view = t.controller.overlay.overlay snapshot
  recent : t.controller.overlay.Recent snapshot.takenAt
  overlay : t.controller.overlay.Distinct
  queue : t.controller.queue.Distinct
  later : snapshot.takenAt ≤ t.now

/-- The next cycle on a snapshot, after one that went through. -/
structure Next (snapshot : Pool) (t t' : Turn σ) : Prop where
  goes : t.GoesThrough
  view : t'.view = (t.closing.controller.view snapshot).1
  controller : t'.controller = (t.closing.controller.view snapshot).2
  later : t.now ≤ t'.now

theorem Sees.distinct (h : t.Sees snapshot) (hs : snapshot.Distinct) : t.view.Distinct :=
  h.view ▸ Overlay.distinct_overlay hs h.overlay

theorem closing_overlay (t : Turn σ) :
    t.closing.controller.overlay =
      (t.controller.overlay.recordStarted t.launched t.now).recordTerminated t.confirmed t.now := by
  rw [t.closing_controller]

theorem Sees.recent_closing (h : t.Sees snapshot) :
    t.closing.controller.overlay.Recent snapshot.takenAt := by
  rw [closing_overlay]
  exact (h.recent.recordStarted h.later _).recordTerminated h.later _

theorem Next.overlay_eq (hn : Next snapshot t t') (h : t.Sees snapshot) :
    t'.controller.overlay = t.closing.controller.overlay := by
  rw [hn.controller]
  exact h.recent_closing.forget_eq

theorem Next.queue_eq (hn : Next snapshot t t') :
    t'.controller.queue = t.closing.controller.queue := by
  rw [hn.controller]
  rfl

theorem Next.view_eq (hn : Next snapshot t t') (h : t.Sees snapshot) :
    t'.view = t.closing.controller.overlay.overlay snapshot := by
  rw [hn.view]
  exact congrArg (fun o : Overlay => o.overlay snapshot) h.recent_closing.forget_eq

theorem Next.sees (hn : Next snapshot t t') (h : t.Sees snapshot) : t'.Sees snapshot where
  view := by rw [hn.view_eq h, hn.overlay_eq h]
  recent := hn.overlay_eq h ▸ h.recent_closing
  overlay := by
    rw [hn.overlay_eq h, closing_overlay]
    exact (h.overlay.recordStarted _ _).recordTerminated _ _
  queue := by
    rw [hn.queue_eq]
    exact (t.waiting_distinct h.queue).of_sublist t.closing_queue_sublist
  later := Instant.le_trans h.later hn.later

theorem Next.desired_eq (hn : Next snapshot t t') : t'.desired = t.desired := by
  have hknown : t'.controller.desired = some t.desired := by
    rw [hn.controller]
    show t.closing.controller.desired = _
    rw [t.closing_controller]
  rw [desired, hknown]
  rfl

theorem effective_closing (h : t.Sees snapshot) (hnodup : (t.launched.map Machine.id).Nodup)
    (heffective : ∀ m ∈ t.launched, m.isEffective = true)
    (hfresh : ∀ m ∈ t.launched, t.view.contains m.id = false) :
    (t.closing.controller.overlay.overlay snapshot).effective =
      (t.view.effective ++ t.launched).filter fun m => !t.confirmed.contains m.id := by
  have hjoined : ((t.controller.overlay.recordStarted t.launched t.now).overlay snapshot).machines =
      (t.controller.overlay.overlay snapshot).machines ++ t.launched :=
    Overlay.machines_recordStarted hnodup (h.view ▸ hfresh)
  rw [closing_overlay, Overlay.effective_recordTerminated, Pool.effective, hjoined,
    List.filter_append, List.filter_eq_self.2 heffective, h.view]
  rfl

theorem Next.effective_eq (hn : Next snapshot t t') (h : t.Sees snapshot) (hf : t.Fair) :
    t'.view.effective =
      (t.view.effective ++ t.launched).filter fun m => !t.confirmed.contains m.id := by
  rw [hn.view_eq h]
  exact effective_closing h hf.distinct hf.effective hf.fresh

theorem entries_closing (hq : t.controller.queue.Distinct) :
    t.closing.controller.queue.entries = t.waiting.entries.filter fun e =>
      !t.confirmed.contains e.id && !t.missing.contains e.id := by
  have hw := t.waiting_distinct hq
  rw [t.closing_controller]
  rw [TerminationQueue.entries_eraseAll (hw.of_sublist (TerminationQueue.eraseAll_sublist _ _)),
    TerminationQueue.entries_eraseAll hw, List.filter_filter]

theorem Next.entries_eq (hn : Next snapshot t t') (h : t.Sees snapshot) (hf : t.Fair) :
    t'.controller.queue.entries =
      t.waiting.entries.filter fun e => !t.confirmed.contains e.id := by
  rw [hn.queue_eq, entries_closing h.queue, hf.none_missing hn.goes]
  exact List.filter_congr fun e _ => Bool.and_true _

theorem Next.confirmed_waits (hn : Next snapshot t t') (hf : t.Fair) {id : String}
    (hid : id ∈ t.confirmed) : id ∈ t.waiting.ids := by
  obtain ⟨e, he, _, rfl⟩ := t.mem_due.1 (hf.confirmed_due hn.goes id hid)
  exact TerminationQueue.id_mem_ids he

theorem Next.pruned_eq (hn : Next snapshot t t') (h : t.Sees snapshot) (hf : t.Fair)
    (hs : snapshot.Distinct) : t'.pruned.entries = t'.controller.queue.entries := by
  refine List.filter_eq_self.2 fun e he => ?_
  rw [hn.entries_eq h hf, List.mem_filter] at he
  obtain ⟨m, hm, hid⟩ :=
    (replanner_pruned h.queue).effective e.id (TerminationQueue.id_mem_ids he.1)
  have heff : m ∈ t'.view.effective := by
    rw [hn.effective_eq h hf]
    exact List.mem_filter.2 ⟨List.mem_append_left _ hm, hid ▸ he.2⟩
  obtain ⟨hmem, hm⟩ := Pool.mem_effective.1 heff
  have hget : t'.view.get? e.id = some m :=
    hid ▸ Pool.get?_of_mem ((hn.sees h).distinct hs) hmem
  simp only [hget, hm]

/-! ### Enough machines -/

theorem launched_nil (hf : t.Fair) (hd : t.desired ≤ t.view.effectiveCount) : t.launched = [] := by
  have hnone : t.requested = 0 := Nat.sub_eq_zero_of_le hd
  exact List.eq_nil_of_length_eq_zero (Nat.le_zero.1 (hnone ▸ hf.started_le))

/-- When nobody is started, those who count and do not wait are the same in the next cycle. -/
theorem Next.remaining_eq (hn : Next snapshot t t') (h : t.Sees snapshot) (hf : t.Fair)
    (hs : snapshot.Distinct) (hnone : t.launched = []) :
    t'.planner.remaining = t.replanner.remaining := by
  have hwaits : ∀ id, t'.pruned.contains id = (t.waiting.contains id && !t.confirmed.contains id) := by
    intro id
    rw [TerminationQueue.contains, hn.pruned_eq h hf hs, hn.entries_eq h hf, List.any_filter,
      Bool.eq_iff_iff, Bool.and_eq_true, TerminationQueue.contains_iff, List.any_eq_true]
    constructor
    · rintro ⟨e, he, hid⟩
      obtain ⟨hfree, hid⟩ := Bool.and_eq_true_iff.1 hid
      rw [beq_iff_eq] at hid
      exact ⟨hid ▸ TerminationQueue.id_mem_ids he, hid ▸ hfree⟩
    · rintro ⟨hid, hfree⟩
      obtain ⟨e, he, rfl⟩ := List.mem_map.1 hid
      exact ⟨e, he, Bool.and_eq_true_iff.2 ⟨hfree, beq_self_eq_true _⟩⟩
  show (t'.view.effective.filter fun m => !t'.pruned.contains m.id) =
    t.view.effective.filter fun m => !t.waiting.contains m.id
  rw [hn.effective_eq h hf, hnone, List.append_nil, List.filter_filter]
  refine List.filter_congr fun m _ => ?_
  rw [hwaits]
  by_cases hc : m.id ∈ t.confirmed
  · have hw : t.waiting.contains m.id = true :=
      TerminationQueue.contains_iff.2 (hn.confirmed_waits hf hc)
    simp [hw, hc]
  · simp [hc]

/-! ### Machines missing -/

theorem waiting_nil (hv : t.view.Distinct) (hq : t.controller.queue.Distinct)
    (hd : t.view.effectiveCount < t.desired) : t.waiting.entries = [] :=
  List.eq_nil_of_length_eq_zero (Nat.le_zero.1 (by
    have hle := t.length_waiting_le hv hq
    omega))

theorem confirmed_nil (hnone : t.waiting.entries = []) : t.confirmed = [] := by
  have hdue : t.due.isEmpty = true := by
    rw [due, TerminationQueue.due, hnone]
    rfl
  rw [confirmed, if_pos hdue]

theorem Next.effectiveCount_eq (hn : Next snapshot t t') (h : t.Sees snapshot) (hf : t.Fair)
    (hnone : t.waiting.entries = []) :
    t'.view.effectiveCount = t.view.effectiveCount + t.launched.length := by
  have hall : (t.view.effective ++ t.launched).filter (fun m => !t.confirmed.contains m.id) =
      t.view.effective ++ t.launched :=
    List.filter_eq_self.2 fun m _ => by rw [confirmed_nil hnone]; rfl
  rw [Pool.effectiveCount, hn.effective_eq h hf, hall, List.length_append]
  rfl

/-! ### Runs -/

/-- **The next cycle on a snapshot is settled.** -/
theorem Next.settled (hn : Next snapshot t t') (h : t.Sees snapshot) (hf : t.Fair)
    (hs : snapshot.Distinct) : t'.planner.Settled t'.desired := by
  rw [hn.desired_eq]
  by_cases hd : t.desired ≤ t.view.effectiveCount
  · have hremaining := hn.remaining_eq h hf hs (launched_nil hf hd)
    refine .inr ?_
    rw [Planner.netSize_eq, Planner.eligible_eq, hremaining, ← Planner.eligible_eq,
      ← Planner.netSize_eq]
    exact replanner_settled (h.distinct hs) h.queue hd
  · have hnone := waiting_nil (h.distinct hs) h.queue (Nat.lt_of_not_le hd)
    refine .inl ⟨?_, ?_⟩
    · show t'.pruned.entries = []
      rw [hn.pruned_eq h hf hs, hn.entries_eq h hf, hnone]
      rfl
    · have hcount := hn.effectiveCount_eq h hf hnone
      have hstarted : t.launched.length ≤ t.desired - t.view.effectiveCount := hf.started_le
      show t'.view.effectiveCount ≤ t.desired
      omega

/-- The next cycle asks for what is still missing. -/
theorem Next.requested_eq (hn : Next snapshot t t') (h : t.Sees snapshot) (hf : t.Fair)
    (hs : snapshot.Distinct) : t'.requested = t.requested - t.launched.length := by
  rw [requested, requested, hn.desired_eq]
  by_cases hd : t.desired ≤ t.view.effectiveCount
  · have hremaining := hn.remaining_eq h hf hs (launched_nil hf hd)
    have henough := (replanner_settled (h.distinct hs) h.queue hd).1
    have hnet : t'.planner.netSize = t.replanner.netSize := by
      rw [Planner.netSize_eq, Planner.netSize_eq, hremaining]
    have hsum : t'.planner.netSize + t'.planner.scheduledCount = t'.view.effectiveCount :=
      Planner.netSize_add_scheduledCount _
    omega
  · have hnone := waiting_nil (h.distinct hs) h.queue (Nat.lt_of_not_le hd)
    have hcount := hn.effectiveCount_eq h hf hnone
    omega

/-- **Any run of cycles on one snapshot.** No more machines are started than are missing at first,
every cycle asks for those still missing, and none but the first spares or schedules. -/
theorem run_settled (hs : snapshot.Distinct) {rest : List (Turn σ)} (h : t.Sees snapshot)
    (hrun : List.IsChain (Next snapshot) (t :: rest)) (hfair : ∀ u ∈ t :: rest, u.Fair) :
    ((t :: rest).flatMap launched).length ≤ t.requested ∧
      ∀ before u after, t :: rest = before ++ u :: after →
        u.desired = t.desired ∧ u.requested = t.requested - (before.flatMap launched).length ∧
          (before ≠ [] → u.planner.Settled u.desired) := by
  induction rest generalizing t with
  | nil =>
    have hstarted := (hfair t List.mem_cons_self).started_le
    refine ⟨by simpa using hstarted, fun before u after heq => ?_⟩
    obtain ⟨rfl, h'⟩ | ⟨bs, rfl, h'⟩ := List.cons_eq_append_iff.1 heq
    · cases h'
      exact ⟨rfl, rfl, fun hne => absurd rfl hne⟩
    · simp at h'
  | cons t' rest ih =>
    obtain ⟨hn, hrest⟩ := List.isChain_cons_cons.1 hrun
    have hf := hfair t List.mem_cons_self
    have hstarted := hf.started_le
    have hrequested := hn.requested_eq h hf hs
    obtain ⟨htotal, heach⟩ := ih (hn.sees h) hrest fun u hu => hfair u (List.mem_cons_of_mem _ hu)
    constructor
    · rw [List.flatMap_cons, List.length_append]
      omega
    · intro before u after heq
      obtain ⟨rfl, h'⟩ | ⟨bs, rfl, h'⟩ := List.cons_eq_append_iff.1 heq
      · cases h'
        exact ⟨rfl, rfl, fun hne => absurd rfl hne⟩
      · obtain ⟨hdesired, hmissing, hsettled⟩ := heach bs u after h'
        refine ⟨hdesired.trans hn.desired_eq, ?_, fun _ => ?_⟩
        · rw [List.flatMap_cons, List.length_append]
          omega
        · by_cases hbs : bs = []
          · subst hbs
            cases h'
            exact hn.settled h hf hs
          · exact hsettled hbs

/-- A settled cycle goes through. -/
theorem Fair.goesThrough (hf : t.Fair) (h : t.planner.Settled t.desired) : t.GoesThrough :=
  ⟨h.foresees t.now, hf.starts⟩

theorem quiet_report (h : t.planner.Settled t.desired) :
    t.closing.report.scheduled = [] ∧ t.closing.report.spared = [] := by
  have hspare : t.toSpare = 0 := h.spares_none
  have hscheduled : t.scheduled = [] := h.schedules_none _
  rw [closing_report]
  simp only [hspare, hscheduled, TerminationQueue.spared_zero, List.map_nil]
  exact ⟨trivial, trivial⟩

end Turn

/-! ## Stations -/

/-- A driver answers a request for machines, and starts at most as many as it is asked to, new ones
that count. Of those to terminate it confirms some, and says of none that it is not there. -/
def Call.Fair (view : Pool) : Call → Prop
  | .start _ count answer =>
    brokenBy answer = false ∧ (launchedBy answer).length ≤ count ∧
      ((launchedBy answer).map Machine.id).Nodup ∧
      ∀ m ∈ launchedBy answer, m.isEffective = true ∧ view.contains m.id = false
  | .terminate _ ids answer =>
    (∀ id ∈ confirmedBy ids answer, id ∈ ids) ∧ missingBy answer = []
  | _ => True

instance (view : Pool) : (call : Call) → Decidable (call.Fair view)
  | .start .. => inferInstanceAs (Decidable (_ ∧ _ ∧ _ ∧ _))
  | .terminate .. => inferInstanceAs (Decidable (_ ∧ _))
  | .create .. | .configure .. | .list .. | .attach .. | .detach .. | .setService ..
  | .setMembership .. => inferInstanceAs (Decidable True)

theorem Turn.fair_of_calls {σ : Type} {t : Turn σ} (h : ∀ call ∈ t.calls, call.Fair t.view) :
    t.Fair := by
  have hstart : t.breaks = false ∧ t.launched.length ≤ t.requested ∧
      (t.launched.map Machine.id).Nodup ∧
        ∀ m ∈ t.launched, m.isEffective = true ∧ t.view.contains m.id = false := by
    have hlaunched : t.launched = if t.requested = 0 then []
        else launchedBy (t.provider.start t.driver t.requested t.now t.outside).1 := rfl
    have hbreaks : t.breaks = if t.requested = 0 then false
        else brokenBy (t.provider.start t.driver t.requested t.now t.outside).1 := rfl
    rw [hlaunched, hbreaks]
    split
    · exact ⟨rfl, Nat.zero_le _, List.nodup_nil, fun m hm => absurd hm List.not_mem_nil⟩
    · rename_i hsome
      exact h _ (t.start_mem_calls hsome)
  have hterminate (hgoes : t.GoesThrough) :
      (∀ id ∈ t.confirmed, id ∈ t.due) ∧ t.missing = [] := by
    rw [confirmed, missing]
    split
    · exact ⟨fun id hid => absurd hid List.not_mem_nil, rfl⟩
    · rename_i hsome
      exact h _ (t.terminate_mem_calls hgoes hsome)
  obtain ⟨hbreaks, hle, hnodup, hnew⟩ := hstart
  exact ⟨hbreaks, hle, hnodup, fun m hm => (hnew m hm).1, fun m hm => (hnew m hm).2,
    fun hgoes => (hterminate hgoes).1, fun hgoes => (hterminate hgoes).2⟩

namespace Station

variable {σ : Type} {p : Provider σ} {snapshot : Pool} {a : Applied}

/-- A station some time after a cycle of another that went through, while the controller did nothing
else. -/
structure Follows (p : Provider σ) (s s' : Station σ) : Prop where
  goes : s.GoesThrough p
  controller : s'.controller = (s.reconcile p).2.controller
  later : s.world.now ≤ s'.world.now

/-- The machines that are started in a cycle. -/
def launchedIn (p : Provider σ) (s : Station σ) : List Machine :=
  (s.cycleCalls p).flatMap Call.launched

/-- The number of machines that are asked for in a cycle. -/
def requestedIn (p : Provider σ) (s : Station σ) : Nat :=
  ((s.cycleCalls p).map Call.requested).sum

theorem launchedIn_eq {s : Station σ} (ha : s.WorksOn a) (hs : s.Serves snapshot) :
    s.launchedIn p = (s.turn p a snapshot).launched := by
  rw [launchedIn, cycleCalls_eq ha hs, Turn.launched_calls]

theorem requestedIn_eq {s : Station σ} (ha : s.WorksOn a) (hs : s.Serves snapshot) :
    s.requestedIn p = (s.turn p a snapshot).requested := by
  rw [requestedIn, cycleCalls_eq ha hs, Turn.sum_requested_calls]

theorem flatMap_launchedIn {stations : List (Station σ)} (ha : ∀ s ∈ stations, s.WorksOn a)
    (hs : ∀ s ∈ stations, s.Serves snapshot) :
    stations.flatMap (launchedIn p) =
      (stations.map (turn p a snapshot)).flatMap Turn.launched := by
  rw [List.flatMap_map]
  exact List.flatMap_congr fun s hmem => launchedIn_eq (ha s hmem) (hs s hmem)

theorem Follows.worksOn {s s' : Station σ} (h : Follows p s s') (ha : s.WorksOn a)
    (hs : s.Serves snapshot) : s'.WorksOn a := by
  have hc : s'.controller = (s.turn p a snapshot).closing.controller := by
    rw [h.controller, reconcile_eq ha hs ((goesThrough_iff ha hs).1 h.goes)]
  rw [Turn.closing_controller] at hc
  exact ⟨by rw [hc]; exact ha.started, by rw [hc]; exact ha.applied, ha.valid⟩

theorem Follows.next {s s' : Station σ} (h : Follows p s s') (ha : s.WorksOn a)
    (hs : s.Serves snapshot) :
    Turn.Next snapshot (s.turn p a snapshot) (s'.turn p a snapshot) := by
  have hgoes := (goesThrough_iff ha hs).1 h.goes
  have hc : s'.controller = (s.turn p a snapshot).closing.controller := by
    rw [h.controller, reconcile_eq ha hs hgoes]
  exact ⟨hgoes, by rw [← hc]; rfl, by rw [← hc]; rfl, h.later⟩

theorem chain_turns {s : Station σ} {rest : List (Station σ)} (ha : s.WorksOn a)
    (hrun : List.IsChain (Follows p) (s :: rest)) (hserved : ∀ u ∈ s :: rest, u.Serves snapshot) :
    List.IsChain (Turn.Next snapshot) ((s :: rest).map (turn p a snapshot)) ∧
      ∀ u ∈ s :: rest, u.WorksOn a := by
  induction rest generalizing s with
  | nil => exact ⟨List.IsChain.singleton _, fun u hu => List.mem_singleton.1 hu ▸ ha⟩
  | cons s' rest ih =>
    obtain ⟨hstep, hrest⟩ := List.isChain_cons_cons.1 hrun
    have hs := hserved s List.mem_cons_self
    obtain ⟨hchain, hall⟩ := ih (hstep.worksOn ha hs) hrest
      fun u hu => hserved u (List.mem_cons_of_mem _ hu)
    refine ⟨List.isChain_cons_cons.2 ⟨hstep.next ha hs, hchain⟩, fun u hu => ?_⟩
    rcases List.mem_cons.1 hu with rfl | hu
    · exact ha
    · exact hall u hu

theorem sees_turn {s : Station σ} (h : s.Sound) (htime : snapshot.takenAt ≤ s.world.now) :
    (s.turn p a snapshot).Sees snapshot where
  view := rfl
  recent := Overlay.recent_forget _ _
  overlay := h.controller.overlay.forget _
  queue := h.controller.queue
  later := htime

/-- **A stale cache makes nobody start too many machines or choose more victims.** However many
cycles see one snapshot, no more machines are started than the first one misses, every cycle asks
for those still missing, and none but the first schedules or spares. Nor can any but the first break
down. -/
theorem stale_run {first : Station σ} {rest : List (Station σ)} (hreach : first.Reachable p)
    (hrun : List.IsChain (Follows p) (first :: rest))
    (hserved : ∀ s ∈ first :: rest, s.Serves snapshot) (hdistinct : snapshot.Distinct)
    (htime : snapshot.takenAt ≤ first.world.now)
    (hfair : ∀ s ∈ first :: rest, ∀ call ∈ s.cycleCalls p,
      call.Fair (s.controller.view snapshot).1) :
    ∃ desired, (∀ known, first.controller.desired = some known → desired = known) ∧
      ((first :: rest).flatMap (launchedIn p)).length ≤
        desired - (first.controller.view snapshot).1.effectiveCount ∧
      ∀ before s after, first :: rest = before ++ s :: after →
        s.requestedIn p =
            desired - (first.controller.view snapshot).1.effectiveCount -
              (before.flatMap (launchedIn p)).length ∧
          (before ≠ [] ∨ first.GoesThrough p →
            ∃ report, (s.reconcile p).1 = .ok report ∧ report.desiredSize = desired ∧
              (before ≠ [] → report.scheduled = [] ∧ report.spared = [])) := by
  have hsound := hreach.sound
  have hfirst := hserved first List.mem_cons_self
  obtain ⟨a, ha⟩ := hsound.serving hfirst
  obtain ⟨hchain, hworks⟩ := chain_turns ha hrun hserved
  have hfairs : ∀ t ∈ (first :: rest).map (turn p a snapshot), t.Fair := by
    intro t ht
    obtain ⟨s, hs, rfl⟩ := List.mem_map.1 ht
    exact Turn.fair_of_calls (cycleCalls_eq (hworks s hs) (hserved s hs) ▸ hfair s hs)
  obtain ⟨htotal, heach⟩ := Turn.run_settled hdistinct (sees_turn hsound htime) hchain hfairs
  refine ⟨(first.turn p a snapshot).desired, ?_, ?_, ?_⟩
  · intro known hknown
    show first.controller.desired.getD _ = known
    rw [hknown]
    rfl
  · rw [flatMap_launchedIn hworks hserved]
    exact htotal
  · intro before s after heq
    have hs : s ∈ first :: rest := by rw [heq]; simp
    have hbefore : ∀ u ∈ before, u ∈ first :: rest := by
      intro u hu
      rw [heq]
      exact List.mem_append_left _ hu
    obtain ⟨hdesired, hrequested, hsettled⟩ := heach (before.map (turn p a snapshot))
      (s.turn p a snapshot) (after.map (turn p a snapshot)) (by
        rw [← List.map_cons, heq, List.map_append, List.map_cons])
    refine ⟨?_, fun hup => ⟨(s.turn p a snapshot).closing.report, ?_, ?_,
      fun hne => Turn.quiet_report (hsettled (by simpa using hne))⟩⟩
    · rw [requestedIn_eq (hworks s hs) (hserved s hs), hrequested, flatMap_launchedIn
        (fun u hu => hworks u (hbefore u hu)) fun u hu => hserved u (hbefore u hu)]
      rfl
    · have hgoes : (s.turn p a snapshot).GoesThrough := by
        by_cases hne : before = []
        · subst hne
          cases heq
          exact (goesThrough_iff ha hfirst).1 (hup.resolve_left (not_not_intro rfl))
        · exact (hfairs _ (List.mem_map_of_mem hs)).goesThrough (hsettled (by simpa using hne))
      rw [reconcile_eq (hworks s hs) (hserved s hs) hgoes]
    · rw [Turn.closing_report]
      exact hdesired

/-- One simulated machine where three are asked for and a quota allows two. -/
def shortOfTwo : Station Fleet :=
  Fleet.atWork
    { name := "web", driver := ⟨Cloud.kind, .array [.nat 2, .nat 0, .nat 1]⟩, desiredSize := some 3 }

/-- The snapshot from before the first cycle. -/
def shortOfTwoSnapshot : Pool where
  machines := [{ id := "web-0001", state := .running, launched := some ⟨0, 0⟩ }]
  takenAt := ⟨0, 0⟩

/-- The station after the first cycle. -/
def shortOfOne : Station Fleet := (shortOfTwo.reconcile Fleet.provider).2

theorem stale_run_shortOfTwo :
    shortOfTwo.Reachable Fleet.provider ∧
      List.IsChain (Follows Fleet.provider) [shortOfTwo, shortOfOne] ∧
      (∀ s ∈ [shortOfTwo, shortOfOne], s.Serves shortOfTwoSnapshot) ∧
      ∃ desired, ([shortOfTwo, shortOfOne].flatMap (launchedIn Fleet.provider)).length ≤
        desired - (shortOfTwo.controller.view shortOfTwoSnapshot).1.effectiveCount := by
  have hreach : shortOfTwo.Reachable Fleet.provider := Fleet.atWork_reachable _
  have hrun : List.IsChain (Follows Fleet.provider) [shortOfTwo, shortOfOne] :=
    List.isChain_cons_cons.2
      ⟨⟨goesThrough_of_isOk hreach.sound (by decide +kernel), rfl, by decide +kernel⟩, .singleton _⟩
  have hserved : ∀ s ∈ [shortOfTwo, shortOfOne], s.Serves shortOfTwoSnapshot := by
    intro s hs
    rcases List.mem_cons.1 hs with rfl | hs
    · exact ⟨_, by with_unfolding_all rfl, by with_unfolding_all rfl⟩
    · rw [List.mem_singleton.1 hs]
      exact ⟨_, by with_unfolding_all rfl, by with_unfolding_all rfl⟩
  obtain ⟨desired, _, htotal, _⟩ := stale_run hreach hrun hserved (by decide) (by decide +kernel)
    (by decide +kernel)
  exact ⟨hreach, hrun, hserved, desired, htotal⟩

end Station

end PoolKeeper
