import PoolKeeper.Proofs.Plan

/-!
# Planning again

Once a plan has been applied to the queue, planning again for the same size asks for the same
machines and for nothing else.

* `Planner.plan?`: the plan, unless a size falls below zero on the way; `Planner.plan?_eq`: none does;
* `Planner.replanner`: the planner once its plan has been applied to the queue;
* `Planner.Settled`: nothing is left to spare or to schedule;
* **`Planner.replanner_settled`**: so it is once a plan has been applied;
* **`Planner.plan_converges`**: when there is a plan, what it asks for, the net size that it leads
  to, and the next plan; `Planner.plan_lastHour`: a pool that none is made for.
-/

namespace PoolKeeper

/-- What is left of a size; nothing when it falls below zero. -/
def minus? (a b : Nat) : Option Nat := if b ≤ a then some (a - b) else none

theorem minus?_eq {a b : Nat} (h : b ≤ a) : minus? a b = some (a - b) := if_pos h

namespace Planner

variable {p : Planner} {desired : Nat} {now : Instant}

/-! ## Sizes that stay above zero -/

def netSize? (p : Planner) : Option Nat := minus? p.pool.effectiveCount p.scheduledCount

def scaleIn? (p : Planner) (excess : Nat) (now : Instant) : Option (Option (List Scheduled)) :=
  let isRequested (m : Machine) : Bool := m.state = .requested
  match p.policy.select now p.queue (p.eligible.filter isRequested) excess with
  | none => some none
  | some requested =>
    let atOnce := requested.map fun m => ⟨m, now⟩
    (minus? excess atOnce.length).map fun rest =>
      if rest = 0 then some atOnce
      else do
        let launched ←
          p.policy.select now p.queue (p.eligible.filter fun m => !isRequested m) rest
        return atOnce ++ (← launched.mapM (p.termination now))

/-- The plan towards a desired size; nothing when a size falls below zero. -/
def plan? (p : Planner) (desired : Nat) (now : Instant) : Option (Except PlanFailure ResizePlan) :=
  p.netSize?.bind fun netSize =>
    if netSize < desired then
      (minus? desired netSize).bind fun missing =>
        let toSpare := min p.scheduledCount missing
        (minus? missing toSpare).map fun toRequest =>
          (ResizePlan.make toRequest toSpare []).mapError .refused
    else if desired < netSize then
      (minus? netSize desired).bind fun excess => (p.scaleIn? excess now).map fun
        | some terminations => (ResizePlan.make 0 0 terminations).mapError .refused
        | none => .error .crashed
    else some (.ok .nothing)

theorem netSize?_eq (p : Planner) : p.netSize? = some p.netSize := by
  have hsum := p.netSize_add_scheduledCount
  exact minus?_eq (by omega)

theorem scaleIn?_eq (p : Planner) (excess : Nat) (now : Instant) :
    p.scaleIn? excess now = some (p.scaleIn excess now) := by
  have hfew : ∀ candidates requested,
      p.policy.select now p.queue candidates excess = some requested →
        requested.length ≤ excess := fun candidates requested h => by
    obtain ⟨_, _, rfl⟩ := Option.map_eq_some_iff.1 h
    exact List.length_take_le _ _
  unfold scaleIn? scaleIn
  cases hselect : p.policy.select now p.queue (p.eligible.filter fun m => m.state = .requested)
      excess with
  | none =>
    simp only [hselect]
    rfl
  | some requested =>
    simp only [hselect, List.length_map, minus?_eq (hfew _ _ hselect), Option.map_some,
      Nat.sub_eq_zero_iff_le]
    rfl

theorem plan?_eq (p : Planner) (desired : Nat) (now : Instant) :
    p.plan? desired now = some (p.plan desired now) := by
  unfold plan? plan
  rw [netSize?_eq, Option.bind_some]
  split
  · rename_i hlt
    rw [minus?_eq (Nat.le_of_lt hlt), Option.bind_some]
    simp only [minus?_eq (Nat.min_le_right _ _), Option.map_some]
  · split
    · rename_i hlt
      rw [minus?_eq (Nat.le_of_lt hlt), Option.bind_some, scaleIn?_eq]
      rfl
    · rfl

/-! ## Settled planners -/

/-- Nothing is left to spare or to schedule: nobody waits and none are too many, or none are missing
and nobody of those that are too many may go. -/
def Settled (p : Planner) (desired : Nat) : Prop :=
  p.queue.entries = [] ∧ p.pool.effectiveCount ≤ desired ∨
    desired ≤ p.netSize ∧ (p.netSize = desired ∨ p.eligible = [])

theorem scheduledCount_of_empty (h : p.queue.entries = []) : p.scheduledCount = 0 := by
  have hfree : ∀ m ∈ p.pool.effective, ¬ p.queue.contains m.id = true := by
    intro m _
    rw [TerminationQueue.contains, h]
    exact Bool.false_ne_true
  rw [scheduledCount, List.filter_eq_nil_iff.2 hfree, List.length_nil]

theorem Settled.spares_none (h : p.Settled desired) :
    min p.scheduledCount (desired - p.netSize) = 0 := by
  rcases h with ⟨hempty, _⟩ | ⟨hle, _⟩
  · rw [scheduledCount_of_empty hempty, Nat.zero_min]
  · rw [Nat.sub_eq_zero_of_le hle, Nat.min_zero]

theorem Settled.schedules_none (h : p.Settled desired) (now : Instant) :
    p.victims (p.netSize - desired) now = [] := by
  refine List.eq_nil_of_length_eq_zero ?_
  rw [length_victims]
  have hsum := p.netSize_add_scheduledCount
  rcases h with ⟨_, hle⟩ | ⟨_, heq | hnone⟩
  · omega
  · omega
  · rw [hnone, List.length_nil, Nat.min_zero]

theorem Settled.enough (h : p.Settled desired) (hd : desired ≤ p.pool.effectiveCount) :
    desired ≤ p.netSize ∧ (p.netSize = desired ∨ p.eligible = []) := by
  rcases h with ⟨hempty, hle⟩ | h
  · have hsum := p.netSize_add_scheduledCount
    have hnone := scheduledCount_of_empty hempty
    have hexact : p.netSize = desired := by omega
    exact ⟨Nat.le_of_eq hexact.symm, .inl hexact⟩
  · exact h

/-- No hour is looked at. -/
theorem Settled.foresees (h : p.Settled desired) (now : Instant) : p.Foresees desired now := by
  intro hlt
  rcases h with ⟨hempty, hle⟩ | ⟨_, heq | hnone⟩
  · have hsum := p.netSize_add_scheduledCount
    have hwait := scheduledCount_of_empty hempty
    omega
  · omega
  · exact chooses_of_eligible_nil hnone _ now

theorem Settled.plan_eq (h : p.Settled desired) (now : Instant) :
    p.plan desired now = .ok ⟨desired - p.pool.effectiveCount, 0, []⟩ := by
  rw [Planner.plan_eq, if_pos (h.foresees now), h.spares_none, h.schedules_none]

/-! ## Applying a plan -/

/-- The planner once the plan towards a size has been applied to the queue. -/
def replanner (p : Planner) (desired : Nat) (now : Instant) : Planner :=
  { p with
    queue := (p.queue.spare (min p.scheduledCount (desired - p.netSize))).insertAll
      (p.victims (p.netSize - desired) now) }

theorem notMem_victims {e : Scheduled} (he : e ∈ p.queue.entries) (excess : Nat) (now : Instant) :
    e.id ∉ (p.victims excess now).map Scheduled.id := by
  intro hid
  obtain ⟨s, hs, heq⟩ := List.mem_map.1 hid
  have hfree := (mem_eligible.1 (machine_mem_eligible hs)).2.2
  have hwaits : p.queue.contains s.machine.id = true := by
    rw [TerminationQueue.contains_iff]
    exact List.mem_map.2 ⟨e, he, heq.symm⟩
  rw [hwaits] at hfree
  cases hfree

theorem replanner_pruned (h : p.Pruned) (desired : Nat) (now : Instant) :
    (p.replanner desired now).Pruned where
  distinct := (h.distinct.spare _).insertAll _
  effective id hid := by
    obtain ⟨e, he, rfl⟩ := List.mem_map.1 hid
    rcases TerminationQueue.mem_of_mem_insertAll he with hold | hnew
    · have hmem := (TerminationQueue.spare_sublist _ _).subset hold
      exact h.effective _ (TerminationQueue.id_mem_ids hmem)
    · exact ⟨e.machine, (mem_eligible.1 (machine_mem_eligible hnew)).1, rfl⟩

theorem length_replanner (hp : p.pool.Distinct) (desired : Nat) (now : Instant) :
    (p.replanner desired now).queue.entries.length =
      p.queue.entries.length - min p.scheduledCount (desired - p.netSize) +
        (p.victims (p.netSize - desired) now).length := by
  have hnew : ∀ e ∈ p.victims (p.netSize - desired) now,
      e.id ∉ (p.queue.spare (min p.scheduledCount (desired - p.netSize))).ids := by
    intro e he hid
    obtain ⟨s, hs, heq⟩ := List.mem_map.1 hid
    have hmem := (TerminationQueue.spare_sublist _ _).subset hs
    have hid : s.id ∈ (p.victims (p.netSize - desired) now).map Scheduled.id :=
      List.mem_map.2 ⟨e, he, heq.symm⟩
    exact notMem_victims hmem _ now hid
  rw [replanner, TerminationQueue.entries_insertAll (nodup_victims_ids hp _ _) hnew,
    List.length_append, TerminationQueue.length_spare]

theorem length_replanner_le (hp : p.pool.Distinct) (h : p.Pruned) (desired : Nat) (now : Instant) :
    (p.replanner desired now).queue.entries.length ≤ p.pool.effectiveCount - desired := by
  have hcount : p.scheduledCount = p.queue.entries.length := scheduledCount_eq hp h
  have hsum := p.netSize_add_scheduledCount
  have hlength := length_replanner hp desired now
  have hscheduled := length_victims p (p.netSize - desired) now
  omega

/-- Whoever could be scheduled is, when more are too many. -/
theorem replanner_eligible (h : p.eligible.length ≤ p.netSize - desired)
    (hspare : min p.scheduledCount (desired - p.netSize) = 0) :
    (p.replanner desired now).eligible = [] := by
  refine List.filter_eq_nil_iff.2 fun m hm hev => ?_
  obtain ⟨hmay, hfree⟩ := Bool.and_eq_true_iff.1 hev
  have hqueue : (p.replanner desired now).queue =
      p.queue.insertAll (p.victims (p.netSize - desired) now) := by
    rw [replanner, hspare, TerminationQueue.spare_zero]
  have hnot : m.id ∉ (p.replanner desired now).queue.ids := by
    rw [← TerminationQueue.contains_iff]
    exact Bool.eq_false_iff.1 (Bool.not_eq_true' _ ▸ hfree)
  rw [hqueue, TerminationQueue.mem_ids_insertAll, not_or] at hnot
  have hold : p.queue.contains m.id = false := by
    rw [← Bool.not_eq_true, TerminationQueue.contains_iff]
    exact hnot.1
  exact hnot.2 (mem_victims_of_le h (mem_eligible.2 ⟨hm, hmay, hold⟩))

/-- The net size and what is requested come to the desired size, or to what is left when all have
gone who may. -/
theorem netSize_replanner (hp : p.pool.Distinct) (h : p.Pruned) (desired : Nat) (now : Instant) :
    (p.replanner desired now).netSize + (desired - p.pool.effectiveCount) =
      max desired (p.netSize - p.eligible.length) := by
  have hbefore : p.scheduledCount = p.queue.entries.length := scheduledCount_eq hp h
  have hafter : (p.replanner desired now).scheduledCount =
      (p.replanner desired now).queue.entries.length :=
    scheduledCount_eq hp (replanner_pruned h desired now)
  have hsum := p.netSize_add_scheduledCount
  have hsum' : (p.replanner desired now).netSize + (p.replanner desired now).scheduledCount =
      p.pool.effectiveCount := netSize_add_scheduledCount _
  have hlength := length_replanner hp desired now
  have hscheduled := length_victims p (p.netSize - desired) now
  have heligible := p.length_eligible_le
  omega

/-- **Once a plan has been applied nothing is left to spare or to schedule.** -/
theorem replanner_settled (hp : p.pool.Distinct) (h : p.Pruned) (desired : Nat) (now : Instant) :
    (p.replanner desired now).Settled desired := by
  have hbefore : p.scheduledCount = p.queue.entries.length := scheduledCount_eq hp h
  have hsum := p.netSize_add_scheduledCount
  have hnet := netSize_replanner hp h desired now
  have hlength := length_replanner hp desired now
  have hscheduled := length_victims p (p.netSize - desired) now
  by_cases hmissing : p.pool.effectiveCount < desired
  · refine .inl ⟨List.eq_nil_of_length_eq_zero ?_, Nat.le_of_lt hmissing⟩
    omega
  · by_cases hfew : p.eligible.length < p.netSize - desired
    · refine .inr ⟨?_, .inr (replanner_eligible (Nat.le_of_lt hfew) ?_)⟩
      · omega
      · omega
    · have hexact : (p.replanner desired now).netSize = desired := by omega
      exact .inr ⟨Nat.le_of_eq hexact.symm, .inl hexact⟩

/-- **Planning converges in one step, as long as the hours that it looks at end in time.** In a pool
without repetitions, where only machines that count wait, no size falls below zero on the way to a
plan. There is one exactly if these hours can be told. It asks for what is missing, spares who waits
as far as machines are missing besides, and schedules who may go as far as there are too many.
Planning again for the size asks for the same machines and nothing else. -/
theorem plan_converges {pool : Pool} {queue : TerminationQueue} {margin : Nat}
    (hp : pool.Distinct) (hq : queue.Distinct)
    (hcount : ∀ id ∈ queue.ids, ∃ m ∈ pool.effective, m.id = id) (hm : margin < Billing.period)
    (policy : VictimPolicy) (desired : Nat) (now later : Instant) :
    ∃ p, make pool queue policy margin = .ok p ∧
      p.netSize + queue.entries.length = pool.effectiveCount ∧
      p.plan? desired now = some (p.plan desired now) ∧
      (p.plan desired now = .error .crashed ↔ ¬ p.Foresees desired now) ∧
      ((∀ m ∈ pool.machines, m.HourTold now) → p.Foresees desired now) ∧
      (p.Foresees desired now → ∃ plan again, p.plan desired now = .ok plan ∧
        plan.toRequest = desired - pool.effectiveCount ∧
        plan.toSpare = min queue.entries.length (desired - p.netSize) ∧
        plan.toTerminate.length = min (p.netSize - desired)
          (pool.effective.filter fun m => m.isEvictable && !queue.contains m.id).length ∧
        make pool ((queue.spare plan.toSpare).insertAll plan.toTerminate) policy margin =
          .ok again ∧
        (p.netSize ≤ desired → again.netSize + plan.toRequest = desired) ∧
        (desired < p.netSize → again.netSize + plan.toRequest = max desired (p.netSize -
          (pool.effective.filter fun m => m.isEvictable && !queue.contains m.id).length)) ∧
        again.plan? desired later = some (.ok ⟨plan.toRequest, 0, []⟩)) := by
  let p : Planner := ⟨pool, queue, policy, margin⟩
  have hpruned : p.Pruned := ⟨hq, hcount⟩
  have hmake : ∀ queue, make pool queue policy margin = .ok ⟨pool, queue, policy, margin⟩ :=
    fun queue => by rw [make, if_neg (Nat.not_le.2 hm)]
  have hwait : p.scheduledCount = queue.entries.length := scheduledCount_eq hp hpruned
  have hsum : p.netSize + p.scheduledCount = pool.effectiveCount := p.netSize_add_scheduledCount
  have hnet := netSize_replanner hp hpruned desired now
  have hsettled := replanner_settled hp hpruned desired now
  refine ⟨p, hmake queue, hwait ▸ hsum, p.plan?_eq desired now, plan_crashed_iff,
    fun htold => foresees_of_told htold desired, fun hforesees =>
    ⟨_, p.replanner desired now, plan_of_foresees hforesees, rfl, hwait ▸ rfl,
      length_victims p _ now, hmake _, fun hle => ?_, fun _ => hnet, ?_⟩⟩
  · exact hnet.trans (Nat.max_eq_left (by omega))
  · rw [plan?_eq, hsettled.plan_eq]
    rfl

/-- A pool of three machines, one of which may not go. -/
def threeMachines : Pool where
  machines :=
    [{ id := "a", state := .running }, { id := "b", state := .requested },
      { id := "c", state := .running, membership := .keptAlways }]
  takenAt := ⟨0, 0⟩

/-- The first of them waits. -/
def oneWaits : TerminationQueue := ⟨[⟨{ id := "a", state := .running }, ⟨0, 0⟩⟩]⟩

theorem plan_converges_threeMachines :
    threeMachines.Distinct ∧ oneWaits.Distinct ∧
      (∀ id ∈ oneWaits.ids, ∃ m ∈ threeMachines.effective, m.id = id) ∧
      600 < Billing.period ∧ ∃ p plan again, make threeMachines oneWaits .oldest 600 = .ok p ∧
        p.plan 0 ⟨0, 0⟩ = .ok plan ∧ plan.toTerminate.length = min (p.netSize - 0) 1 ∧
        make threeMachines ((oneWaits.spare plan.toSpare).insertAll plan.toTerminate) .oldest 600 =
          .ok again ∧
        again.plan? 0 ⟨60, 0⟩ = some (.ok ⟨plan.toRequest, 0, []⟩) := by
  have hp : threeMachines.Distinct := by decide
  have hq : oneWaits.Distinct := List.nodup_singleton _
  have hcount : ∀ id ∈ oneWaits.ids, ∃ m ∈ threeMachines.effective, m.id = id := by
    intro id hid
    rw [List.mem_singleton.1 hid]
    exact ⟨_, Pool.mem_effective.2 ⟨List.mem_cons_self, rfl⟩, rfl⟩
  have hm : 600 < Billing.period := by decide
  obtain ⟨p, hmake, _, _, _, htold, hplans⟩ :=
    plan_converges hp hq hcount hm .oldest 0 ⟨0, 0⟩ ⟨60, 0⟩
  obtain ⟨plan, again, hplan, _, _, hlength, hagain, _, _, hquiet⟩ :=
    hplans (htold (by decide +kernel))
  exact ⟨hp, hq, hcount, hm, p, plan, again, hmake, hplan, hlength, hagain, hquiet⟩

/-- A pool of one machine, which was launched half an hour before the end of time. -/
def lastHour : Planner where
  pool :=
    { machines :=
        [{ id := "a", state := .running, launched := some (Instant.endOfTime.addSeconds (-1800)) }]
      takenAt := ⟨0, 0⟩ }
  queue := .empty
  policy := .oldest
  margin := 600

/-- Nobody waits in it, and yet there is no plan that shrinks it. -/
theorem plan_lastHour :
    lastHour.pool.Distinct ∧ lastHour.Pruned ∧ lastHour.margin < Billing.period ∧
      lastHour.plan 0 ⟨0, 0⟩ = .error .crashed :=
  ⟨by decide, ⟨List.nodup_nil, nofun⟩, by decide,
    plan_crashed_iff.2 (by decide +kernel)⟩

end Planner

end PoolKeeper
