import PoolKeeper.Proofs.Replan

/-!
# Whom a plan chooses

* **`Planner.victims_preferred`**: the victims are the best of those who may go, machines that are
  not launched yet before all others;
* `Planner.Relisted`: the same pool and queue, listed in another order;
  **`Planner.choice_of_listing`**: the victims are the same, in the same order;
* `Planner.scheduling`: a planner once terminations are scheduled; `Planner.ranking_scheduling`: the
  choice goes on where it stopped;
  **`Planner.scaleIn_stepwise`**: a pool that shrinks in two steps ends as one that shrinks at once;
* `Planner.lastPair`, `Planner.lastStep`: machines whose hours end past the end of time, of which no
  victim is chosen.
-/

namespace PoolKeeper

namespace Planner

variable {p p' : Planner} {desired : Nat} {now : Instant}

/-! ## The best of those who may go -/

/-- The machine counts, may be chosen and does not wait. -/
def mayGo (p : Planner) (m : Machine) : Bool :=
  m.isEffective && m.isEvictable && !p.queue.contains m.id

theorem eligible_eq_filter (p : Planner) : p.eligible = p.pool.machines.filter p.mayGo := by
  rw [eligible, Pool.effective, List.filter_filter]
  refine List.filter_congr fun m _ => ?_
  rw [mayGo, Bool.and_comm, Bool.and_assoc]

theorem of_mem_eligible {m : Machine} (h : m ∈ p.eligible) :
    m ∈ p.pool.machines ∧ m.state.isAllocated = true ∧ m.service ≠ .outOfService ∧
      m.membership.active = true ∧ m.membership.evictable = true ∧ m.id ∉ p.queue.ids := by
  obtain ⟨hcounts, hevictable, hfree⟩ := mem_eligible.1 h
  obtain ⟨hmem, hcounts⟩ := Pool.mem_effective.1 hcounts
  simp only [Machine.isEffective, Machine.isOutOfService, Bool.and_eq_true, Bool.not_eq_true',
    decide_eq_false_iff_not] at hcounts
  obtain ⟨⟨halive, hserves⟩, hactive⟩ := hcounts
  rw [← Bool.not_eq_true, TerminationQueue.contains_iff] at hfree
  exact ⟨hmem, halive, hserves, hactive, hevictable, hfree⟩

theorem requested_chosen {excess : Nat} {s : Scheduled} (hs : s ∈ p.victims excess now)
    (hlaunched : s.machine.state ≠ .requested) {m : Machine} (hm : m ∈ p.eligible)
    (hrequested : m.state = .requested) : m.id ∈ (p.victims excess now).map Scheduled.id := by
  rw [victims, ranking, List.take_append] at *
  rcases List.mem_append.1 hs with hs | hs
  · obtain ⟨other, hother, rfl⟩ := List.mem_map.1 (List.mem_of_mem_take hs)
    have hstate := (List.mem_filter.1 ((VictimPolicy.order_perm _ _ _).subset hother)).2
    exact absurd (of_decide_eq_true hstate) hlaunched
  · have hall : ((p.requestedFirst now).map fun m => Scheduled.mk m now).length ≤ excess := by
      by_contra hfew
      rw [Nat.sub_eq_zero_of_le (Nat.le_of_not_le hfew), List.take_zero] at hs
      cases hs
    rw [List.take_of_length_le hall, List.map_append, List.mem_append, List.map_map]
    exact .inl (List.mem_map_of_mem ((VictimPolicy.order_perm _ _ _).mem_iff.2
      (List.mem_filter.2 ⟨hm, decide_eq_true hrequested⟩)))

/-- A plan that need not grow the pool only schedules. -/
theorem plan_of_le (h : desired ≤ p.netSize) (now : Instant) :
    p.plan desired now =
      if p.Foresees desired now then .ok ⟨0, 0, p.victims (p.netSize - desired) now⟩
      else .error .crashed := by
  have hsum := p.netSize_add_scheduledCount
  rw [plan_eq, Nat.sub_eq_zero_of_le (by omega : desired ≤ p.pool.effectiveCount),
    Nat.sub_eq_zero_of_le h, Nat.min_zero]

/-- The victims of a plan leave at once if they are not launched yet, and at their time if they
are. -/
theorem time_of_mem_victims {excess : Nat} (h : p.Chooses excess now) {s : Scheduled}
    (hs : s ∈ p.victims excess now) :
    some s.time = if s.machine.state = .requested then some now
      else p.terminationTime s.machine now := by
  rw [victims, ranking, List.take_append, ← List.map_take, ← List.map_take, List.length_map] at hs
  rcases List.mem_append.1 hs with hs | hs
  · obtain ⟨m, hm, rfl⟩ := List.mem_map.1 hs
    have hstate := (List.mem_filter.1
      ((VictimPolicy.order_perm _ _ _).subset (List.mem_of_mem_take hm))).2
    rw [if_pos (of_decide_eq_true hstate)]
  · obtain ⟨m, hm, rfl⟩ := List.mem_map.1 hs
    have hstate := (List.mem_filter.1
      ((VictimPolicy.order_perm _ _ _).subset (List.mem_of_mem_take hm))).2
    have hfew : (p.requestedFirst now).length < excess := by
      by_contra hmany
      rw [Nat.sub_eq_zero_of_le (Nat.not_lt.1 hmany), List.take_zero] at hm
      cases hm
    have htold : p.margin = 0 ∨ m.HourTold now := (h.2 hfew).2.imp_right fun h => h m hm
    have hlaunched : m.state ≠ .requested := by simpa using hstate
    rw [if_neg hlaunched, terminationTime_eq, if_pos htold]

/-- **The victims are the best of those who may go**: as many as are too many, or all of them. Those
that are not launched yet go first, at once, and then the others at their time, each kind in the order
of the policy, which is how machines compare wherever they are compared. So it is planned if the
hours can be told that this looks at, and otherwise there is no plan. -/
theorem victims_preferred (hp : p.pool.Distinct) (h : desired < p.netSize) (now : Instant) :
    ∃ (requested launched : List Machine) (victims : List Scheduled),
      requested.Perm (p.pool.machines.filter fun m => p.mayGo m && m.state = .requested) ∧
      launched.Perm (p.pool.machines.filter fun m => p.mayGo m && m.state ≠ .requested) ∧
      p.policy.Ordered now requested ∧ p.policy.Ordered now launched ∧
      p.plan desired now =
        (if p.Foresees desired now then .ok ⟨0, 0, victims⟩ else .error .crashed) ∧
      ((∀ m ∈ p.pool.machines, m.HourTold now) → p.Foresees desired now) ∧
      (p.Foresees desired now →
        (requested.Pairwise fun a b => p.policy.compare a b now = some .lt) ∧
        (requested.length < p.netSize - desired →
          launched.Pairwise fun a b => p.policy.compare a b now = some .lt)) ∧
      victims.map Scheduled.machine = (requested ++ launched).take (p.netSize - desired) ∧
      (p.Foresees desired now → ∀ s ∈ victims,
        some s.time = if s.machine.state = .requested then some now
          else p.terminationTime s.machine now) ∧
      (victims.map Scheduled.id).Nodup ∧
      (∀ s ∈ victims, s.machine ∈ p.pool.machines ∧ s.machine.state.isAllocated = true ∧
        s.machine.service ≠ .outOfService ∧ s.machine.membership.active = true ∧
        s.machine.membership.evictable = true ∧ s.id ∉ p.queue.ids) ∧
      ((∃ s ∈ victims, s.machine.state ≠ .requested) →
        ∀ m ∈ requested, m.id ∈ victims.map Scheduled.id) := by
  have hamong : ∀ test, p.eligible.filter test =
      p.pool.machines.filter fun m => p.mayGo m && test m := fun test => by
    rw [eligible_eq_filter, List.filter_filter]
    exact List.filter_congr fun m _ => Bool.and_comm _ _
  have hfirst : p.policy.Ordered now (p.requestedFirst now) :=
    VictimPolicy.ordered_order (nodup_eligible_ids hp _)
  have hnext : p.policy.Ordered now (p.launchedFirst now) :=
    VictimPolicy.ordered_order (nodup_eligible_ids hp _)
  refine ⟨p.requestedFirst now, p.launchedFirst now, p.victims (p.netSize - desired) now, ?_, ?_,
    hfirst, hnext, plan_of_le (Nat.le_of_lt h) now, fun htold => foresees_of_told htold desired,
    fun hforesees => ⟨hfirst.compare (hforesees h).1, fun hfew =>
      hnext.compare ((hforesees h).2 hfew).1⟩,
    ?_, fun hforesees _ => time_of_mem_victims (hforesees h), nodup_victims_ids hp _ _,
    fun s hs => of_mem_eligible (machine_mem_eligible hs), ?_⟩
  · rw [← hamong]
    exact VictimPolicy.order_perm _ _ _
  · simp only [ne_eq, decide_not]
    rw [← hamong]
    exact VictimPolicy.order_perm _ _ _
  · rw [victims, List.map_take, map_machine_ranking]
  · rintro ⟨s, hs, hlaunched⟩ m hm
    obtain ⟨hm, hrequested⟩ := List.mem_filter.1 ((VictimPolicy.order_perm _ _ _).subset hm)
    exact requested_chosen hs hlaunched hm (of_decide_eq_true hrequested)

/-- Six machines: two are not launched yet, two are running, one is to be kept for good and one
waits. -/
def sixMachines : Planner where
  pool :=
    { machines :=
        [{ id := "a", state := .running, launched := some ⟨0, 0⟩ },
          { id := "b", state := .requested },
          { id := "c", state := .running, launched := some ⟨600, 0⟩ },
          { id := "d", state := .running, membership := .keptAlways, launched := some ⟨0, 0⟩ },
          { id := "e", state := .requested },
          { id := "f", state := .running, launched := some ⟨0, 0⟩ }]
      takenAt := ⟨1800, 0⟩ }
  queue := ⟨[⟨{ id := "f", state := .running, launched := some ⟨0, 0⟩ }, ⟨3000, 0⟩⟩]⟩
  policy := .newest
  margin := 600

theorem victims_preferred_sixMachines :
    sixMachines.pool.Distinct ∧ 2 < sixMachines.netSize ∧
      ∃ victims, sixMachines.plan 2 ⟨1800, 0⟩ = .ok ⟨0, 0, victims⟩ ∧
        victims.map Scheduled.id = ["b", "e", "c"] ∧
        victims.map (fun s => some s.time) =
          [some ⟨1800, 0⟩, some ⟨1800, 0⟩, some ⟨3600, 0⟩] := by
  have hp : sixMachines.pool.Distinct := by decide
  have hnet : 2 < sixMachines.netSize := by decide
  obtain ⟨requested, launched, victims, hrequested, hlaunched, hfirst, hnext, hplan, htold, _,
    hvictims, htimes, _⟩ := victims_preferred hp hnet ⟨1800, 0⟩
  have hforesees : sixMachines.Foresees 2 ⟨1800, 0⟩ := htold (by decide +kernel)
  rw [if_pos hforesees] at hplan
  have hsoon := hfirst.eq_of_perm (by decide +kernel) hrequested
  have hlater := hnext.eq_of_perm (by decide +kernel)
    (hlaunched.trans (List.reverse_perm _).symm)
  rw [hsoon, hlater] at hvictims
  have hids : victims.map Scheduled.id = ["b", "e", "c"] := by
    have hsame := congrArg (List.map Machine.id) hvictims
    rw [List.map_map] at hsame
    exact hsame.trans (by decide +kernel)
  have hleave : victims.map (fun s => some s.time) =
      (victims.map Scheduled.machine).map fun m =>
        if m.state = .requested then some ⟨1800, 0⟩ else sixMachines.terminationTime m ⟨1800, 0⟩ := by
    rw [List.map_map]
    exact List.map_congr_left (htimes hforesees)
  rw [hvictims] at hleave
  exact ⟨hp, hnet, victims, hplan, hids, hleave.trans (by decide +kernel)⟩

/-- Two machines that were launched in the last hour before the end of time. -/
def lastPair : Planner where
  pool :=
    { machines :=
        [{ id := "a", state := .running, launched := some (Instant.endOfTime.addSeconds (-1800)) },
          { id := "b", state := .running, launched := some (Instant.endOfTime.addSeconds (-600)) }]
      takenAt := ⟨0, 0⟩ }
  queue := .empty
  policy := .closestToHour
  margin := 0

/-- Both may go, and no victim is chosen. -/
theorem victims_lastPair :
    lastPair.pool.Distinct ∧ 1 < lastPair.netSize ∧
      (∀ m ∈ lastPair.pool.machines, lastPair.mayGo m = true) ∧
      lastPair.plan 1 ⟨0, 0⟩ = .error .crashed := by
  have hnet : 1 < lastPair.netSize := by decide
  have hlaunched : (lastPair.requestedFirst ⟨0, 0⟩).length < 1 := by
    rw [Planner.requestedFirst, (VictimPolicy.order_perm _ _ _).length_eq]
    decide
  have hnot : ¬ lastPair.policy.Sortable ⟨0, 0⟩
      (lastPair.eligible.filter fun m => !(m.state = .requested)) := by decide +kernel
  refine ⟨by decide, hnet, by decide, plan_crashed_iff.2 fun h => hnot ?_⟩
  exact ((h hnet).2 hlaunched).1.of_perm (VictimPolicy.order_perm _ _ _)

/-! ## Listings -/

/-- The same pool and the same queue, perhaps listed in another order. -/
structure Relisted (p p' : Planner) : Prop where
  machines : p.pool.machines.Perm p'.pool.machines
  entries : p.queue.entries.Perm p'.queue.entries
  policy : p.policy = p'.policy
  margin : p.margin = p'.margin

namespace Relisted

variable (h : p.Relisted p')

include h

theorem contains_eq (id : String) : p.queue.contains id = p'.queue.contains id := by
  rw [Bool.eq_iff_iff, TerminationQueue.contains_iff, TerminationQueue.contains_iff]
  exact (h.entries.map Scheduled.id).mem_iff

theorem effective_perm : p.pool.effective.Perm p'.pool.effective :=
  h.machines.filter Machine.isEffective

theorem netSize_eq : p.netSize = p'.netSize := by
  have hperm : p.remaining.Perm p'.remaining := by
    rw [remaining, remaining]
    simp only [h.contains_eq]
    exact h.effective_perm.filter _
  rw [Planner.netSize_eq, Planner.netSize_eq, hperm.length_eq]

theorem eligible_perm : p.eligible.Perm p'.eligible := by
  rw [eligible, eligible]
  simp only [h.contains_eq]
  exact h.effective_perm.filter _

theorem leaves_eq (m : Machine) (now : Instant) : p.leaves m now = p'.leaves m now := by
  rw [leaves, leaves, h.margin]

theorem requestedFirst_eq (hp : p.pool.Distinct) (now : Instant) :
    p.requestedFirst now = p'.requestedFirst now := by
  rw [requestedFirst, requestedFirst, ← h.policy]
  exact VictimPolicy.order_of_perm (nodup_eligible_ids hp _) (h.eligible_perm.filter _)

theorem launchedFirst_eq (hp : p.pool.Distinct) (now : Instant) :
    p.launchedFirst now = p'.launchedFirst now := by
  rw [launchedFirst, launchedFirst, ← h.policy]
  exact VictimPolicy.order_of_perm (nodup_eligible_ids hp _) (h.eligible_perm.filter _)

/-- **Those to choose from are ranked alike.** -/
theorem ranking_eq (hp : p.pool.Distinct) (now : Instant) : p.ranking now = p'.ranking now := by
  simp only [ranking, h.requestedFirst_eq hp, h.launchedFirst_eq hp, h.leaves_eq]

theorem foresees_iff (hp : p.pool.Distinct) (desired : Nat) (now : Instant) :
    p.Foresees desired now ↔ p'.Foresees desired now := by
  rw [Foresees, Foresees, Chooses, Chooses, h.requestedFirst_eq hp, h.launchedFirst_eq hp,
    h.netSize_eq, h.policy, h.margin]

/-- **The plan is the same.** -/
theorem plan_eq (hp : p.pool.Distinct) (desired : Nat) (now : Instant) :
    p.plan desired now = p'.plan desired now := by
  have hcount : p.pool.effectiveCount = p'.pool.effectiveCount := h.effective_perm.length_eq
  have hnet := h.netSize_eq
  have hwait : p.scheduledCount = p'.scheduledCount := by
    have hsum := p.netSize_add_scheduledCount
    have hsum' := p'.netSize_add_scheduledCount
    omega
  simp only [Planner.plan_eq, h.foresees_iff hp, hcount, hnet, hwait, victims, h.ranking_eq hp]

end Relisted

/-- **The choice does not depend on the listing.** Machines can be compared exactly if the policy
does not look at their hours or their hours end in time; two machines or more can be sorted exactly
if all of them can be compared. Each policy orders such machines totally, and no two with different
identifiers are alike to it. In whatever order the machines of a pool and its queue are listed, what
comes of planning is the same, also if it is no plan, and in whatever order candidates are listed,
the same are selected. -/
theorem choice_of_listing (policy : VictimPolicy) (now : Instant) :
    (∀ a b, (policy.compare a b now).isSome = true ↔
        policy.Told now a ∧ policy.Told now b) ∧
      (∀ a b, (policy.compare a b now).map Ordering.swap = policy.compare b a now) ∧
      (∀ a b c ab bc, policy.compare a b now = some ab → policy.compare b c now = some bc →
        ab.isLE = true → bc.isLE = true →
          ∃ ac, policy.compare a c now = some ac ∧ ac.isLE = true) ∧
      (∀ a b : Machine, a.id ≠ b.id → policy.compare a b now ≠ some .eq) ∧
      (∀ p p' : Planner, p.policy = policy → p.pool.Distinct → p.Relisted p' → ∀ desired,
        p.plan desired now = p'.plan desired now ∧
          ((∃ plan, p.plan desired now = .ok plan) ↔ p.Foresees desired now)) ∧
      ∀ (queue : TerminationQueue) (candidates candidates' : List Machine) (count : Nat),
        (candidates.map Machine.id).Nodup → candidates.Perm candidates' →
          policy.select now queue candidates count = policy.select now queue candidates' count ∧
          ((policy.select now queue candidates count).isSome = true ↔
            policy.Sortable now (candidates.filter fun m => !queue.contains m.id)) := by
  refine ⟨policy.isSome_compare now, policy.map_swap_compare now,
    fun a b c ab bc hab hbc => policy.compare_trans now hab hbc,
    fun a b => policy.compare_ne_eq now, fun p p' _ hp h desired =>
      ⟨h.plan_eq hp desired now, ?_⟩, fun queue candidates candidates' count hl h =>
      ⟨VictimPolicy.select_of_perm queue hl h count, ?_⟩⟩
  · rw [p.plan_eq]
    split
    · rename_i hforesees
      exact iff_of_true ⟨_, rfl⟩ hforesees
    · rename_i hnot
      exact iff_of_false (fun ⟨_, hplan⟩ => by cases hplan) hnot
  · rw [VictimPolicy.select_eq]
    simp only
    split
    · rename_i hsortable
      exact iff_of_true rfl hsortable
    · rename_i hnot
      exact iff_of_false Bool.false_ne_true hnot

/-- The six machines listed backwards. -/
def sixBackwards : Planner :=
  { sixMachines with
    pool := { sixMachines.pool with machines := sixMachines.pool.machines.reverse } }

theorem choice_of_listing_sixBackwards :
    sixMachines.pool.Distinct ∧ sixMachines.Relisted sixBackwards ∧
      sixMachines.plan 2 ⟨1800, 0⟩ = sixBackwards.plan 2 ⟨1800, 0⟩ ∧
      (∃ plan, sixMachines.plan 2 ⟨1800, 0⟩ = .ok plan) ∧
      VictimPolicy.newest.select ⟨1800, 0⟩ sixMachines.queue sixMachines.pool.machines 3 =
        VictimPolicy.newest.select ⟨1800, 0⟩ sixMachines.queue sixBackwards.pool.machines 3 := by
  have hp : sixMachines.pool.Distinct := by decide
  have hperm : sixMachines.pool.machines.Perm sixBackwards.pool.machines :=
    (List.reverse_perm _).symm
  have h : sixMachines.Relisted sixBackwards := ⟨hperm, .refl _, rfl, rfl⟩
  obtain ⟨_, _, _, _, hplan, hselect⟩ := choice_of_listing .newest ⟨1800, 0⟩
  obtain ⟨hsame, hforesees⟩ := hplan _ _ rfl hp h 2
  have htold : ∀ m ∈ sixMachines.pool.machines, m.HourTold ⟨1800, 0⟩ := by decide +kernel
  exact ⟨hp, h, hsame, hforesees.2 (foresees_of_told htold 2), (hselect _ _ _ 3 hp hperm).1⟩

/-- The two machines launched last are not compared. -/
theorem compare_lastPair :
    (lastPair.pool.machines.map Machine.id).Nodup ∧
      ∀ a ∈ lastPair.pool.machines, ∀ b ∈ lastPair.pool.machines,
        lastPair.policy.compare a b ⟨0, 0⟩ = none :=
  ⟨by decide, by decide +kernel⟩

/-! ## Steps -/

/-- The planner once terminations are scheduled. -/
def scheduling (p : Planner) (terminations : List Scheduled) : Planner :=
  { p with queue := p.queue.insertAll terminations }

variable {terminations : List Scheduled}

theorem contains_scheduling (p : Planner) (terminations : List Scheduled) (id : String) :
    (p.scheduling terminations).queue.contains id =
      (p.queue.contains id || (terminations.map Scheduled.id).contains id) := by
  rw [Bool.eq_iff_iff, Bool.or_eq_true, TerminationQueue.contains_iff,
    TerminationQueue.contains_iff, List.contains_iff_mem]
  exact TerminationQueue.mem_ids_insertAll

theorem remaining_scheduling (p : Planner) (terminations : List Scheduled) :
    (p.scheduling terminations).remaining =
      p.remaining.filter fun m => !(terminations.map Scheduled.id).contains m.id := by
  rw [remaining, remaining, List.filter_filter]
  refine List.filter_congr fun m _ => ?_
  rw [contains_scheduling, Bool.not_or, Bool.and_comm]

theorem eligible_scheduling (p : Planner) (terminations : List Scheduled) :
    (p.scheduling terminations).eligible =
      p.eligible.filter fun m => !(terminations.map Scheduled.id).contains m.id := by
  rw [eligible_eq, remaining_scheduling, eligible_eq, List.filter_filter, List.filter_filter]
  exact List.filter_congr fun m _ => Bool.and_comm _ _

theorem ranking_filter (hp : p.pool.Distinct) (terminations : List Scheduled) (now : Instant) :
    (p.scheduling terminations).ranking now =
      (p.ranking now).filter fun s => !(terminations.map Scheduled.id).contains s.id := by
  have horder : ∀ test, p.policy.order now ((p.scheduling terminations).eligible.filter test) =
      (p.policy.order now (p.eligible.filter test)).filter fun m =>
        !(terminations.map Scheduled.id).contains m.id := fun test => by
    rw [← VictimPolicy.order_filter (nodup_eligible_ids hp test), eligible_scheduling,
      List.filter_filter, List.filter_filter]
    exact congrArg _ (List.filter_congr fun m _ => Bool.and_comm _ _)
  rw [ranking, ranking, List.filter_append, List.filter_map, List.filter_map]
  exact congrArg₂ _ (congrArg _ (horder _)) (congrArg _ (horder _))

/-- **The choice goes on where it stopped.** -/
theorem ranking_scheduling (hp : p.pool.Distinct) (count : Nat) (now : Instant) :
    (p.scheduling (p.victims count now)).ranking now = (p.ranking now).drop count := by
  rw [ranking_filter hp]
  exact TerminationQueue.filter_take_keys (nodup_ranking_ids hp now) count

theorem netSize_scheduling (hp : p.pool.Distinct) (count : Nat) (now : Instant) :
    (p.scheduling (p.victims count now)).netSize + (p.victims count now).length = p.netSize := by
  have hperm : ((p.remaining.filter fun m =>
      ((p.victims count now).map Scheduled.id).contains m.id).map Machine.id).Perm
        ((p.victims count now).map Scheduled.id) := by
    refine (List.perm_ext_iff_of_nodup ((List.filter_sublist.trans List.filter_sublist).map
      Machine.id |>.nodup (Pool.nodup_effective_ids hp)) (nodup_victims_ids hp count now)).2
      fun id => ?_
    constructor
    · intro hid
      obtain ⟨m, hm, rfl⟩ := List.mem_map.1 hid
      simpa using (List.mem_filter.1 hm).2
    · intro hid
      obtain ⟨s, hs, rfl⟩ := List.mem_map.1 hid
      have heligible := machine_mem_eligible hs
      rw [eligible_eq] at heligible
      refine List.mem_map_of_mem (List.mem_filter.2 ⟨(List.mem_filter.1 heligible).1, ?_⟩)
      exact List.contains_iff_mem.2 hid
  have hsplit := List.length_eq_length_filter_add (l := p.remaining) fun m =>
    ((p.victims count now).map Scheduled.id).contains m.id
  have hlength := hperm.length_eq
  rw [List.length_map, List.length_map] at hlength
  rw [netSize_eq, netSize_eq, remaining_scheduling]
  omega

theorem requestedFirst_scheduling (hp : p.pool.Distinct) (count : Nat) (now : Instant) :
    (p.scheduling (p.victims count now)).requestedFirst now = (p.requestedFirst now).drop count ∧
      (p.scheduling (p.victims count now)).launchedFirst now =
        (p.launchedFirst now).drop (count - (p.requestedFirst now).length) := by
  have hrequested : ∀ q : Planner, ∀ m ∈ q.requestedFirst now, decide (m.state = .requested) = true :=
    fun q m hm => (List.mem_filter.1 ((VictimPolicy.order_perm _ _ _).subset hm)).2
  have hlaunched : ∀ q : Planner, ∀ m ∈ q.launchedFirst now, decide (m.state = .requested) = false :=
    fun q m hm => by
      simpa using (List.mem_filter.1 ((VictimPolicy.order_perm _ _ _).subset hm)).2
  have hmachines := congrArg (List.map Scheduled.machine) (ranking_scheduling hp count now)
  rw [List.map_drop, map_machine_ranking, map_machine_ranking, List.drop_append] at hmachines
  -- the machines of each kind are those of the list that are or are not launched yet
  have hsplit : ∀ {l l' k k' : List Machine}, l ++ l' = k ++ k' →
      (∀ m ∈ l, decide (m.state = .requested) = true) →
      (∀ m ∈ l', decide (m.state = .requested) = false) →
      (∀ m ∈ k, decide (m.state = .requested) = true) →
      (∀ m ∈ k', decide (m.state = .requested) = false) → l = k ∧ l' = k' := by
    intro l l' k k' h hl hl' hk hk'
    have hfirst := congrArg (List.filter fun m => decide (m.state = .requested)) h
    have hnone : ∀ {l : List Machine}, (∀ m ∈ l, decide (m.state = .requested) = false) →
        l.filter (fun m => decide (m.state = .requested)) = [] := fun h =>
      List.filter_eq_nil_iff.2 fun m hm => by rw [h m hm]; exact Bool.false_ne_true
    rw [List.filter_append, List.filter_append, List.filter_eq_self.2 hl, List.filter_eq_self.2 hk,
      hnone hl', hnone hk', List.append_nil, List.append_nil] at hfirst
    subst hfirst
    exact ⟨rfl, List.append_cancel_left h⟩
  exact hsplit hmachines (hrequested _) (hlaunched _)
    (fun m hm => hrequested p m (List.mem_of_mem_drop hm))
    fun m hm => hlaunched p m (List.mem_of_mem_drop hm)

/-- So many and then some more victims can be chosen if all of them can. -/
theorem chooses_add (hp : p.pool.Distinct) (first more : Nat) (now : Instant) :
    p.Chooses (first + more) now ↔
      p.Chooses first now ∧
        (0 < more → (p.scheduling (p.victims first now)).Chooses more now) := by
  obtain ⟨hrequested, hlaunched⟩ := requestedFirst_scheduling hp first now
  simp only [Chooses, hrequested, hlaunched, List.length_drop]
  show _ ↔ _ ∧ (0 < more → p.policy.Sortable now _ ∧ (_ → p.policy.Sortable now _ ∧
    (p.margin = 0 ∨ _)))
  generalize p.requestedFirst now = requested
  generalize p.launchedFirst now = launched
  by_cases hmany : first ≤ requested.length
  · -- the first are all among those that are not launched yet
    have hnone : first - requested.length = 0 := Nat.sub_eq_zero_of_le hmany
    have hfew : requested.length - first < more ↔ requested.length < first + more := by omega
    have hrest : more - (requested.length - first) = first + more - requested.length := by omega
    rw [hnone, List.drop_zero, hfew, hrest]
    constructor
    · rintro ⟨hsoon, hlater⟩
      exact ⟨⟨hsoon, fun h => absurd h (Nat.not_lt.2 hmany)⟩,
        fun _ => ⟨hsoon.sublist (List.drop_sublist _ _), hlater⟩⟩
    · rintro ⟨⟨hsoon, -⟩, hnext⟩
      exact ⟨hsoon, fun h => (hnext (by omega)).2 h⟩
  · have hless : requested.length < first := Nat.not_le.1 hmany
    have hall : requested.length < first + more := by omega
    have htake : launched.take (first + more - requested.length) =
        launched.take (first - requested.length) ++
          (launched.drop (first - requested.length)).take more := by
      rw [← List.take_add]
      congr 1
      omega
    have hrest : more - (requested.length - first) = more := by omega
    rw [htake, List.forall_mem_append, hrest]
    constructor
    · rintro ⟨hsoon, hlater⟩
      obtain ⟨hsortable, htold⟩ := hlater hall
      exact ⟨⟨hsoon, fun _ => ⟨hsortable, htold.imp_right And.left⟩⟩,
        fun _ => ⟨hsoon.sublist (List.drop_sublist _ _),
          fun _ => ⟨hsortable.sublist (List.drop_sublist _ _), htold.imp_right And.right⟩⟩⟩
    · rintro ⟨⟨hsoon, hlater⟩, hnext⟩
      obtain ⟨hsortable, htold⟩ := hlater hless
      refine ⟨hsoon, fun _ => ⟨hsortable, or_iff_not_imp_left.2 fun hmargin =>
        ⟨htold.resolve_left hmargin, ?_⟩⟩⟩
      rcases Nat.eq_zero_or_pos more with rfl | hmore
      · intro m hm
        rw [List.take_zero] at hm
        cases hm
      · exact ((hnext hmore).2 (by omega)).2.resolve_left hmargin

/-- **A pool can shrink in two steps if it can at once.** -/
theorem foresees_stepwise {smaller : Nat} (hp : p.pool.Distinct) (hsmaller : smaller ≤ desired)
    (hdesired : desired ≤ p.netSize) (now : Instant) :
    p.Foresees smaller now ↔ p.Foresees desired now ∧
      (p.scheduling (p.victims (p.netSize - desired) now)).Foresees smaller now := by
  have hnet := netSize_scheduling hp (p.netSize - desired) now
  have hlength := p.length_victims (p.netSize - desired) now
  rcases Nat.eq_or_lt_of_le hdesired with heq | hlt
  · have hnone : p.scheduling (p.victims (p.netSize - desired) now) = p := by
      rw [heq, Nat.sub_self, victims_zero]
      rfl
    rw [hnone, and_iff_right (foresees_of_le (Nat.le_of_eq heq.symm) now)]
  · by_cases hfew : p.eligible.length < p.netSize - desired
    · -- everybody goes in the first step, and nobody is left to choose from in the second
      have hnobody : (p.scheduling (p.victims (p.netSize - desired) now)).eligible = [] := by
        refine List.eq_nil_of_length_eq_zero ?_
        rw [← length_ranking _ now, ranking_scheduling hp, List.length_drop, length_ranking]
        omega
      have hsecond : (p.scheduling (p.victims (p.netSize - desired) now)).Foresees smaller now :=
        fun _ => chooses_of_eligible_nil hnobody _ now
      have hsum : p.netSize - smaller = (p.netSize - desired) + (desired - smaller) := by omega
      have hadd := chooses_add hp (p.netSize - desired) (desired - smaller) now
      rw [← hsum] at hadd
      rw [and_iff_left hsecond]
      exact ⟨fun h _ => (hadd.1 (h (by omega))).1,
        fun h _ => hadd.2 ⟨h hlt, fun _ => chooses_of_eligible_nil hnobody _ now⟩⟩
    · have hrest : (p.scheduling (p.victims (p.netSize - desired) now)).netSize - smaller =
          desired - smaller := by omega
      have hsum : p.netSize - smaller = (p.netSize - desired) + (desired - smaller) := by omega
      have hadd := chooses_add hp (p.netSize - desired) (desired - smaller) now
      rw [← hsum] at hadd
      simp only [Foresees, hrest]
      constructor
      · intro h
        obtain ⟨hfirst, hsecond⟩ := hadd.1 (h (by omega))
        exact ⟨fun _ => hfirst, fun hlt => hsecond (by omega)⟩
      · rintro ⟨hfirst, hsecond⟩ _
        exact hadd.2 ⟨hfirst hlt, fun hlt => hsecond (by omega)⟩

/-- **Choosing twice comes to choosing once.** -/
theorem victims_append {smaller : Nat} (hp : p.pool.Distinct) (hsmaller : smaller ≤ desired)
    (hdesired : desired ≤ p.netSize) (now : Instant) :
    p.victims (p.netSize - desired) now ++
        (p.scheduling (p.victims (p.netSize - desired) now)).victims
          ((p.scheduling (p.victims (p.netSize - desired) now)).netSize - smaller) now =
      p.victims (p.netSize - smaller) now := by
  have hnet := netSize_scheduling hp (p.netSize - desired) now
  have hlength := p.length_victims (p.netSize - desired) now
  have hall := p.length_ranking now
  have hvictims : ∀ excess, p.victims excess now = (p.ranking now).take excess := fun _ => rfl
  rw [victims.eq_1 (p.scheduling _), ranking_scheduling hp]
  by_cases hfew : p.eligible.length ≤ p.netSize - desired
  · -- Everybody goes in the first step.
    have hnobody : (p.ranking now).drop (p.netSize - desired) = [] :=
      List.drop_eq_nil_of_le (by omega)
    rw [hnobody, List.take_nil, List.append_nil, hvictims, hvictims,
      List.take_of_length_le (by omega), List.take_of_length_le (by omega)]
  · have hrest : (p.scheduling (p.victims (p.netSize - desired) now)).netSize - smaller =
        desired - smaller := by omega
    have hsum : p.netSize - smaller = (p.netSize - desired) + (desired - smaller) := by omega
    rw [hrest, hvictims, hvictims, hsum, List.take_add]

/-- **A pool that shrinks in two steps ends as one that shrinks at once**, if the hours can be told
that this looks at. Then planning for a size and, once its terminations are scheduled, for a smaller
one leaves the same queue as planning for the smaller one directly. Otherwise there is no plan for
the smaller one, neither at once nor in the second step, if there is one for the first. -/
theorem scaleIn_stepwise {smaller : Nat} (hp : p.pool.Distinct) (hsmaller : smaller ≤ desired)
    (hdesired : desired ≤ p.netSize) (now : Instant) :
    ((∀ m ∈ p.pool.machines, m.HourTold now) → p.Foresees smaller now) ∧
      (p.Foresees smaller now → ∃ first second direct, p.plan desired now = .ok ⟨0, 0, first⟩ ∧
        (p.scheduling first).plan smaller now = .ok ⟨0, 0, second⟩ ∧
        p.plan smaller now = .ok ⟨0, 0, direct⟩ ∧
        ((p.scheduling first).scheduling second).queue = (p.scheduling direct).queue) ∧
      (¬ p.Foresees smaller now → p.plan smaller now = .error .crashed ∧
        (p.plan desired now = .error .crashed ∨ ∃ first, p.plan desired now = .ok ⟨0, 0, first⟩ ∧
          (p.scheduling first).plan smaller now = .error .crashed)) := by
  have hnet := netSize_scheduling hp (p.netSize - desired) now
  have hlength := p.length_victims (p.netSize - desired) now
  have hsteps := foresees_stepwise hp hsmaller hdesired now
  have hfirst := plan_of_le hdesired now
  have hsecond := plan_of_le (p := p.scheduling (p.victims (p.netSize - desired) now))
    (by omega : smaller ≤ _) now
  have hdirect := plan_of_le (Nat.le_trans hsmaller hdesired) now
  refine ⟨fun htold => foresees_of_told htold smaller, fun h => ?_, fun h => ?_⟩
  · obtain ⟨hone, htwo⟩ := hsteps.1 h
    rw [if_pos hone] at hfirst
    rw [if_pos htwo] at hsecond
    rw [if_pos h] at hdirect
    refine ⟨_, _, _, hfirst, hsecond, hdirect, ?_⟩
    rw [← victims_append hp hsmaller hdesired]
    exact (TerminationQueue.insertAll_append _ _ _).symm
  · rw [if_neg h] at hdirect
    refine ⟨hdirect, ?_⟩
    by_cases hone : p.Foresees desired now
    · rw [if_pos hone] at hfirst
      exact .inr ⟨_, hfirst, plan_crashed_iff.2 fun htwo => h (hsteps.2 ⟨hone, htwo⟩)⟩
    · exact .inl (plan_crashed_iff.2 hone)

/-- In the second step more of the six machines are too many than may go. -/
theorem scaleIn_stepwise_sixMachines :
    sixMachines.pool.Distinct ∧ 0 ≤ 3 ∧ 3 ≤ sixMachines.netSize ∧
      ∃ first second direct, sixMachines.plan 3 ⟨1800, 0⟩ = .ok ⟨0, 0, first⟩ ∧
        (sixMachines.scheduling first).plan 0 ⟨1800, 0⟩ = .ok ⟨0, 0, second⟩ ∧
        sixMachines.plan 0 ⟨1800, 0⟩ = .ok ⟨0, 0, direct⟩ ∧
        ((sixMachines.scheduling first).scheduling second).queue =
          (sixMachines.scheduling direct).queue := by
  have hp : sixMachines.pool.Distinct := by decide
  have hnet : 3 ≤ sixMachines.netSize := by decide
  obtain ⟨htold, hsame, _⟩ := scaleIn_stepwise hp (Nat.zero_le 3) hnet ⟨1800, 0⟩
  exact ⟨hp, Nat.zero_le 3, hnet, hsame (htold (by decide +kernel))⟩

/-- A machine that is not launched yet beside one that was launched in the last hour. -/
def lastStep : Planner :=
  { lastHour with
    pool :=
      { lastHour.pool with
        machines := { id := "b", state := .requested } :: lastHour.pool.machines } }

/-- The first step goes, and the second does not; nor do both at once. -/
theorem scaleIn_lastStep :
    lastStep.pool.Distinct ∧ 1 ≤ lastStep.netSize ∧
      (∃ first, lastStep.plan 1 ⟨0, 0⟩ = .ok ⟨0, 0, first⟩ ∧
        (lastStep.scheduling first).plan 0 ⟨0, 0⟩ = .error .crashed) ∧
      lastStep.plan 0 ⟨0, 0⟩ = .error .crashed := by
  have hone : lastStep.Foresees 1 ⟨0, 0⟩ := by decide +kernel
  have hfirst := plan_of_le (by decide : 1 ≤ lastStep.netSize) ⟨0, 0⟩
  rw [if_pos hone] at hfirst
  exact ⟨by decide, by decide, ⟨_, hfirst, plan_crashed_iff.2 (by decide +kernel)⟩,
    plan_crashed_iff.2 (by decide +kernel)⟩

end Planner

end PoolKeeper
