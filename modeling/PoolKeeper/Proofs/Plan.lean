import PoolKeeper.Plan
import PoolKeeper.Proofs.Preference
import PoolKeeper.Proofs.Queue

/-!
# Plans in numbers

What a plan asks for, in terms of the effective machines and of those that wait.

* `Pool.get?_of_mem`: the machine with an identifier, in a pool without repetitions;
* `Planner.netSize_eq`: the net size counts the effective machines that do not wait;
* `Planner.leaves`, `Planner.terminationTime_eq`: when a victim goes, and when that can be told;
* `Planner.ranking`: whom a plan chooses from, and in which order; `Planner.victims`: the first of
  them;
* `Planner.Chooses`, **`Planner.scaleIn_eq`**: a plan schedules just these, if it can tell the hours
  that it looks at;
* `Planner.Foresees`, **`Planner.plan_eq`**: when there is a plan, and what it is;
* `Planner.Pruned`, `Planner.scheduledCount_eq`: when only effective machines wait, each of them is
  counted once.
-/

namespace PoolKeeper

namespace Pool

variable {p : Pool} {m : Machine} {id : String}

theorem mem_of_get? (h : p.get? id = some m) : m ∈ p.machines ∧ m.id = id :=
  ⟨List.mem_of_find?_eq_some h, by simpa using List.find?_some h⟩

theorem eq_of_id_eq (hp : p.Distinct) {a b : Machine} (ha : a ∈ p.machines) (hb : b ∈ p.machines)
    (h : a.id = b.id) : a = b :=
  List.inj_on_of_nodup_map hp ha hb h

theorem get?_of_mem (hp : p.Distinct) (hm : m ∈ p.machines) : p.get? m.id = some m := by
  cases h : p.get? m.id with
  | none =>
    rw [get?, List.find?_eq_none] at h
    simpa using h m hm
  | some m' =>
    obtain ⟨hm', hid⟩ := mem_of_get? h
    rw [eq_of_id_eq hp hm' hm hid]

theorem contains_iff : p.contains id = true ↔ ∃ m ∈ p.machines, m.id = id := by
  simp only [contains, List.any_eq_true, beq_iff_eq]

theorem effective_sublist (p : Pool) : p.effective.Sublist p.machines := List.filter_sublist

theorem mem_effective : m ∈ p.effective ↔ m ∈ p.machines ∧ m.isEffective = true := List.mem_filter

theorem nodup_effective_ids (hp : p.Distinct) : (p.effective.map Machine.id).Nodup :=
  (p.effective_sublist.map Machine.id).nodup hp

end Pool

namespace ResizePlan

theorem make_nil (toRequest toSpare : Nat) :
    make toRequest toSpare [] = .ok ⟨toRequest, toSpare, []⟩ := by
  rw [make, if_neg (by simp)]

theorem make_zero (toTerminate : List Scheduled) :
    make 0 0 toTerminate = .ok ⟨0, 0, toTerminate⟩ := by
  rw [make, if_neg (by simp)]

end ResizePlan

namespace Planner

variable {p : Planner} {now : Instant} {desired : Nat}

/-! ## The net size -/

/-- The effective machines that do not wait. -/
def remaining (p : Planner) : List Machine := p.pool.effective.filter fun m => !p.queue.contains m.id

theorem remaining_add_scheduledCount (p : Planner) :
    p.remaining.length + p.scheduledCount = p.pool.effectiveCount := by
  have h := List.length_eq_length_filter_add (l := p.pool.effective) fun m => p.queue.contains m.id
  simp only [remaining, scheduledCount, Pool.effectiveCount]
  omega

theorem netSize_eq (p : Planner) : p.netSize = p.remaining.length := by
  have h := p.remaining_add_scheduledCount
  rw [netSize]
  omega

theorem netSize_add_scheduledCount (p : Planner) :
    p.netSize + p.scheduledCount = p.pool.effectiveCount := by
  rw [netSize_eq, remaining_add_scheduledCount]

/-! ## Victims -/

theorem mem_eligible {m : Machine} :
    m ∈ p.eligible ↔ m ∈ p.pool.effective ∧ m.isEvictable = true ∧ p.queue.contains m.id = false := by
  simp [eligible]

theorem eligible_eq (p : Planner) : p.eligible = p.remaining.filter Machine.isEvictable := by
  rw [eligible, remaining, List.filter_filter]

theorem length_eligible_le (p : Planner) : p.eligible.length ≤ p.netSize := by
  rw [netSize_eq, eligible_eq]
  exact List.length_filter_le _ _

theorem nodup_eligible_ids (hp : p.pool.Distinct) (test : Machine → Bool) :
    ((p.eligible.filter test).map Machine.id).Nodup :=
  ((List.filter_sublist.trans List.filter_sublist).map Machine.id).nodup
    (Pool.nodup_effective_ids hp)

/-- The time at which a victim goes, whether or not time ends before its hour does. -/
def leaves (p : Planner) (m : Machine) (now : Instant) : Instant :=
  match m.launched with
  | none => now
  | some launched =>
    if p.margin = 0 then now
    else now.latest ((Billing.hourEnd launched now).addSeconds (-p.margin))

theorem leaves_of_no_margin (h : p.margin = 0) (m : Machine) (now : Instant) :
    p.leaves m now = now := by
  unfold leaves
  split
  · rfl
  · exact if_pos h

/-- The time at which a victim goes can be told without a margin, and with one if its hour ends in
time. -/
theorem terminationTime_eq (p : Planner) (m : Machine) (now : Instant) :
    p.terminationTime m now =
      if p.margin = 0 ∨ m.HourTold now then some (p.leaves m now) else none := by
  unfold terminationTime
  split
  · rename_i hmargin
    rw [if_pos (.inl hmargin), leaves_of_no_margin hmargin]
  · rename_i hlaunched _
    rw [if_pos (.inr fun launched h => by cases hlaunched.symm.trans h), leaves, hlaunched]
  · rename_i launched hlaunched hmargin
    have hleaves : p.leaves m now =
        now.latest ((Billing.hourEnd launched now).addSeconds (-p.margin)) := by
      rw [leaves, hlaunched]
      exact if_neg hmargin
    by_cases h : Billing.hourEnd launched now < Instant.endOfTime
    · have htold : m.HourTold now := fun launched' heq => by
        cases hlaunched.symm.trans heq
        exact h
      rw [if_pos (.inr htold), hleaves]
      exact congrArg (Option.map _) (Billing.nextBoundary_eq_hourEnd h)
    · have hnot : ¬ (p.margin = 0 ∨ m.HourTold now) :=
        not_or.2 ⟨hmargin, fun htold => h (htold launched hlaunched)⟩
      rw [if_neg hnot]
      exact congrArg (Option.map _) (Billing.nextBoundary_eq_none_iff.2 h)

/-- The eligible machines that are not launched yet, the best victims first. -/
def requestedFirst (p : Planner) (now : Instant) : List Machine :=
  p.policy.order now (p.eligible.filter (·.state = .requested))

/-- The other eligible machines, the best victims first. -/
def launchedFirst (p : Planner) (now : Instant) : List Machine :=
  p.policy.order now (p.eligible.filter fun m => !(m.state = .requested))

/-- The terminations that a plan chooses from, in the order in which it does: machines that are not
launched yet, at once, before the others at their time. -/
def ranking (p : Planner) (now : Instant) : List Scheduled :=
  ((p.requestedFirst now).map fun m => ⟨m, now⟩) ++
    (p.launchedFirst now).map fun m => ⟨m, p.leaves m now⟩

theorem map_machine_ranking (p : Planner) (now : Instant) :
    (p.ranking now).map Scheduled.machine = p.requestedFirst now ++ p.launchedFirst now := by
  simp only [ranking, List.map_append, List.map_map]
  congr 1
  · exact List.map_id _
  · exact List.map_id _

theorem ranking_perm (p : Planner) (now : Instant) :
    ((p.ranking now).map Scheduled.machine).Perm p.eligible := by
  rw [map_machine_ranking]
  exact ((VictimPolicy.order_perm _ _ _).append (VictimPolicy.order_perm _ _ _)).trans
    (List.filter_append_perm _ _)

theorem length_ranking (p : Planner) (now : Instant) :
    (p.ranking now).length = p.eligible.length := by
  rw [← (p.ranking_perm now).length_eq, List.length_map]

theorem nodup_ranking_ids (hp : p.pool.Distinct) (now : Instant) :
    ((p.ranking now).map Scheduled.id).Nodup := by
  have hids : (p.ranking now).map Scheduled.id =
      ((p.ranking now).map Scheduled.machine).map Machine.id := by
    rw [List.map_map]
    rfl
  rw [hids]
  exact ((p.ranking_perm now).map Machine.id).nodup_iff.2
    ((List.filter_sublist.map Machine.id).nodup (Pool.nodup_effective_ids hp))

/-- The first of the ranking. -/
def victims (p : Planner) (excess : Nat) (now : Instant) : List Scheduled :=
  (p.ranking now).take excess

theorem victims_sublist (p : Planner) (excess : Nat) (now : Instant) :
    (p.victims excess now).Sublist (p.ranking now) :=
  List.take_sublist _ _

theorem machine_mem_eligible {excess : Nat} {s : Scheduled} (h : s ∈ p.victims excess now) :
    s.machine ∈ p.eligible :=
  (p.ranking_perm now).subset (List.mem_map_of_mem ((p.victims_sublist excess now).subset h))

theorem length_victims (p : Planner) (excess : Nat) (now : Instant) :
    (p.victims excess now).length = min excess p.eligible.length := by
  rw [victims, List.length_take, length_ranking]

@[simp] theorem victims_zero (p : Planner) (now : Instant) : p.victims 0 now = [] := rfl

theorem mem_victims_of_le {excess : Nat} (h : p.eligible.length ≤ excess) {m : Machine}
    (hm : m ∈ p.eligible) : m.id ∈ (p.victims excess now).map Scheduled.id := by
  rw [victims, List.take_of_length_le (Nat.le_trans (Nat.le_of_eq (p.length_ranking now)) h)]
  obtain ⟨s, hs, rfl⟩ := List.mem_map.1 ((p.ranking_perm now).mem_iff.2 hm)
  exact List.mem_map_of_mem hs

theorem nodup_victims_ids (hp : p.pool.Distinct) (excess : Nat) (now : Instant) :
    ((p.victims excess now).map Scheduled.id).Nodup :=
  ((p.victims_sublist excess now).map Scheduled.id).nodup (nodup_ranking_ids hp now)

/-! ## Hours that a plan looks at -/

/-- So many victims can be chosen: the machines that are compared can be, and the hours that the
victims leave in can be told, if there is a margin to keep. -/
def Chooses (p : Planner) (excess : Nat) (now : Instant) : Prop :=
  p.policy.Sortable now (p.requestedFirst now) ∧
    ((p.requestedFirst now).length < excess →
      p.policy.Sortable now (p.launchedFirst now) ∧
        (p.margin = 0 ∨ ∀ m ∈ (p.launchedFirst now).take (excess - (p.requestedFirst now).length),
          m.HourTold now))

instance (p : Planner) (excess : Nat) (now : Instant) : Decidable (p.Chooses excess now) :=
  inferInstanceAs (Decidable (_ ∧ (_ → _ ∧ (_ ∨ ∀ m ∈ _, Machine.HourTold m now))))

theorem chooses_of_eligible_nil (h : p.eligible = []) (excess : Nat) (now : Instant) :
    p.Chooses excess now := by
  have hnone : ∀ l : List Machine, l ⊆ p.eligible → p.policy.order now l = [] := fun l hl =>
    List.subset_nil.1 (h ▸ List.Subset.trans (p.policy.order_perm now l).subset hl)
  have hrequested : p.requestedFirst now = [] := hnone _ (List.filter_subset_self _)
  have hlaunched : p.launchedFirst now = [] := hnone _ (List.filter_subset_self _)
  rw [Chooses, hrequested, hlaunched]
  exact ⟨.inl (by decide), fun _ => ⟨.inl (by decide), .inr fun m hm => by simp at hm⟩⟩

theorem chooses_of_told (h : ∀ m ∈ p.eligible, m.HourTold now) (excess : Nat) :
    p.Chooses excess now := by
  have htold : ∀ test, ∀ m ∈ p.policy.order now (p.eligible.filter test), m.HourTold now :=
    fun test m hm =>
      h m (List.mem_filter.1 ((p.policy.order_perm now (p.eligible.filter test)).subset hm)).1
  exact ⟨.inr fun m hm _ => htold _ m hm, fun _ =>
    ⟨.inr fun m hm _ => htold _ m hm, .inr fun m hm => htold _ m (List.mem_of_mem_take hm)⟩⟩

theorem select_eligible (p : Planner) (test : Machine → Bool) (count : Nat) (now : Instant) :
    p.policy.select now p.queue (p.eligible.filter test) count =
      if p.policy.Sortable now (p.policy.order now (p.eligible.filter test)) then
        some ((p.policy.order now (p.eligible.filter test)).take count)
      else none := by
  have hfree : (p.eligible.filter test).filter (fun m => !p.queue.contains m.id) =
      p.eligible.filter test := by
    refine List.filter_eq_self.2 fun m hm => ?_
    rw [(mem_eligible.1 (List.mem_filter.1 hm).1).2.2]
    rfl
  simp only [VictimPolicy.select_eq, hfree,
    VictimPolicy.sortable_of_perm (p.policy.order_perm now (p.eligible.filter test))]

theorem mapM_termination (p : Planner) (now : Instant) (l : List Machine) :
    l.mapM (p.termination now) =
      if p.margin = 0 ∨ ∀ m ∈ l, m.HourTold now then some (l.map fun m => ⟨m, p.leaves m now⟩)
      else none := by
  have htold : ∀ m, p.termination now m =
      if p.margin = 0 ∨ m.HourTold now then some ⟨m, p.leaves m now⟩ else none := fun m => by
    rw [termination, terminationTime_eq]
    exact apply_ite (Option.map _) _ _ _
  induction l with
  | nil => exact (if_pos (.inr fun m hm => by cases hm)).symm
  | cons m l ih =>
    rw [List.mapM_cons, ih, htold]
    by_cases hm : p.margin = 0 ∨ m.HourTold now
    · by_cases hl : p.margin = 0 ∨ ∀ m ∈ l, m.HourTold now
      · have hall : p.margin = 0 ∨ ∀ x ∈ m :: l, x.HourTold now :=
          or_iff_not_imp_left.2 fun hmargin => List.forall_mem_cons.2
            ⟨hm.resolve_left hmargin, hl.resolve_left hmargin⟩
        rw [if_pos hm, if_pos hl, if_pos hall]
        rfl
      · have hnot : ¬ (p.margin = 0 ∨ ∀ x ∈ m :: l, x.HourTold now) := fun hall =>
          hl (hall.imp_right fun h x hx => h x (List.mem_cons_of_mem m hx))
        rw [if_pos hm, if_neg hl, if_neg hnot]
        rfl
    · have hnot : ¬ (p.margin = 0 ∨ ∀ x ∈ m :: l, x.HourTold now) := fun hall =>
        hm (hall.imp_right fun h => h m List.mem_cons_self)
      rw [if_neg hm, if_neg hnot]
      rfl

/-- **A plan schedules the first of the ranking**, if that many victims can be chosen. -/
theorem scaleIn_eq (p : Planner) (excess : Nat) (now : Instant) :
    p.scaleIn excess now =
      if p.Chooses excess now then some (p.victims excess now) else none := by
  have hrequested : p.policy.select now p.queue (p.eligible.filter (·.state = .requested)) excess =
      if p.policy.Sortable now (p.requestedFirst now) then
        some ((p.requestedFirst now).take excess) else none :=
    p.select_eligible _ excess now
  have hlaunched : ∀ count,
      p.policy.select now p.queue (p.eligible.filter fun m => !(m.state = .requested)) count =
        if p.policy.Sortable now (p.launchedFirst now) then
          some ((p.launchedFirst now).take count) else none :=
    fun count => p.select_eligible _ count now
  unfold scaleIn
  simp only [hrequested, hlaunched, Chooses, victims, ranking]
  by_cases hfirst : p.policy.Sortable now (p.requestedFirst now)
  · by_cases hfew : (p.requestedFirst now).length < excess
    · have htake : (p.requestedFirst now).take excess = p.requestedFirst now :=
        List.take_of_length_le (Nat.le_of_lt hfew)
      by_cases hsecond : p.policy.Sortable now (p.launchedFirst now)
      · simp only [hfirst, hsecond, hfew, htake, if_pos, true_and, forall_const, Option.bind_eq_bind,
          Option.bind_some, if_neg (Nat.not_le.2 hfew), mapM_termination]
        split
        · simp [List.take_append, ← List.map_take, htake]
        · rfl
      · simp [hfirst, hsecond, hfew, htake, Nat.not_le.2 hfew]
    · have hmany := Nat.not_lt.1 hfew
      simp [hfirst, hfew, List.take_append, hmany]
  · simp [hfirst]

/-! ## The plan -/

/-- The hours that a plan looks at end in time. Only a plan that shrinks the pool looks at any. -/
def Foresees (p : Planner) (desired : Nat) (now : Instant) : Prop :=
  desired < p.netSize → p.Chooses (p.netSize - desired) now

instance (p : Planner) (desired : Nat) (now : Instant) : Decidable (p.Foresees desired now) :=
  inferInstanceAs (Decidable (_ → _))

/-- A plan crashes only for hours past the end of time. -/
theorem foresees_of_told (h : ∀ m ∈ p.pool.machines, m.HourTold now) (desired : Nat) :
    p.Foresees desired now := fun _ =>
  chooses_of_told (fun m hm => h m (p.pool.effective_sublist.subset (mem_eligible.1 hm).1)) _

theorem foresees_of_le (h : p.netSize ≤ desired) (now : Instant) : p.Foresees desired now :=
  fun hlt => absurd hlt (Nat.not_lt.2 h)

/-- **There is a plan if its hours can be told.** What is missing in the pool is requested, who waits
is spared as far as the net size falls short, and what the net size has too many is scheduled. -/
theorem plan_eq (p : Planner) (desired : Nat) (now : Instant) :
    p.plan desired now =
      if p.Foresees desired now then
        .ok ⟨desired - p.pool.effectiveCount, min p.scheduledCount (desired - p.netSize),
          p.victims (p.netSize - desired) now⟩
      else .error .crashed := by
  have hsum := p.netSize_add_scheduledCount
  unfold plan
  split
  · rename_i hgrows
    have hnone : p.netSize - desired = 0 := by omega
    have hmissing : desired - p.netSize - min p.scheduledCount (desired - p.netSize) =
        desired - p.pool.effectiveCount := by omega
    simp only [if_pos (foresees_of_le (Nat.le_of_lt hgrows) now), ResizePlan.make_nil, hnone,
      victims_zero, hmissing]
    rfl
  · have hrequest : desired - p.pool.effectiveCount = 0 := by omega
    have hspare : min p.scheduledCount (desired - p.netSize) = 0 := by omega
    rw [hrequest, hspare]
    split
    · rename_i hshrinks
      by_cases hchooses : p.Chooses (p.netSize - desired) now
      · simp only [scaleIn_eq, if_pos hchooses, ResizePlan.make_zero,
          if_pos (show p.Foresees desired now from fun _ => hchooses)]
        rfl
      · simp only [scaleIn_eq, if_neg hchooses,
          if_neg (show ¬ p.Foresees desired now from fun h => hchooses (h hshrinks))]
    · have hnone : p.netSize - desired = 0 := by omega
      rw [if_pos (foresees_of_le (by omega) now), hnone, victims_zero]
      rfl

theorem plan_of_foresees (h : p.Foresees desired now) :
    p.plan desired now =
      .ok ⟨desired - p.pool.effectiveCount, min p.scheduledCount (desired - p.netSize),
        p.victims (p.netSize - desired) now⟩ := by
  rw [plan_eq, if_pos h]

theorem plan_crashed_iff : p.plan desired now = .error .crashed ↔ ¬ p.Foresees desired now := by
  rw [plan_eq]
  split
  · rename_i h
    exact iff_of_false (fun hcrashed => by cases hcrashed) (not_not_intro h)
  · rename_i h
    exact iff_of_true rfl h

/-! ## Pruned queues -/

/-- Only effective machines wait, and none twice. -/
structure Pruned (p : Planner) : Prop where
  distinct : p.queue.Distinct
  effective : ∀ id ∈ p.queue.ids, ∃ m ∈ p.pool.effective, m.id = id

/-- When only effective machines wait, each of them is counted once. -/
theorem scheduledCount_eq (hp : p.pool.Distinct) (h : p.Pruned) :
    p.scheduledCount = p.queue.entries.length := by
  have hnodup : ((p.pool.effective.filter fun m => p.queue.contains m.id).map Machine.id).Nodup :=
    (List.filter_sublist.map Machine.id).nodup (Pool.nodup_effective_ids hp)
  have hperm : ((p.pool.effective.filter fun m => p.queue.contains m.id).map Machine.id).Perm
      p.queue.ids := by
    refine (List.perm_ext_iff_of_nodup hnodup h.distinct).2 fun id => ?_
    constructor
    · intro hid
      obtain ⟨m, hm, rfl⟩ := List.mem_map.1 hid
      exact TerminationQueue.contains_iff.1 (List.mem_filter.1 hm).2
    · intro hid
      obtain ⟨m, hm, rfl⟩ := h.effective id hid
      exact List.mem_map_of_mem (List.mem_filter.2 ⟨hm, TerminationQueue.contains_iff.2 hid⟩)
  have hlen := hperm.length_eq
  rwa [List.length_map, TerminationQueue.ids, List.length_map] at hlen

end Planner

end PoolKeeper
