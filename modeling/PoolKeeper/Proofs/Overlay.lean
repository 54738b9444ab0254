import Mathlib.Data.List.Nodup
import PoolKeeper.Overlay
import PoolKeeper.Proofs.IdMap
import PoolKeeper.Proofs.Plan

/-!
# Snapshots with recent actions on them

* `Overlay.Distinct`: no start is remembered twice; every operation keeps it;
* **`Overlay.distinct_overlay`**: then a view shows no machine twice;
* `Overlay.Recent`: nothing is remembered from before a time, so there is nothing to forget;
* `Overlay.EndedSince`, `Overlay.StartedSince`: what is remembered from a time or later, and which
  operations keep it; `Overlay.count_overlay`, `Overlay.count_overlay_of_started`: such a machine is
  shown once;
* `Overlay.machines_recordStarted`, **`Overlay.effective_recordTerminated`**: what is noted changes
  the view as if the machines were there, and as if they were gone;
* `Overlay.overlay_forget_recordTermination`: what is noted outlasts any snapshot up to then;
* `Overlay.effective_without`, `Overlay.mem_effective_iff`: one machine of a view.
-/

namespace PoolKeeper

/-- The pool without a machine. -/
def Pool.without (p : Pool) (id : String) : Pool :=
  { p with machines := p.machines.filter fun m => m.id != id }

namespace Overlay

variable {o : Overlay} {p : Pool} {m : Machine} {time t : Instant} {id : String}

/-- The machines whose start is remembered. -/
def startedIds (o : Overlay) : List String := o.started.map fun e => e.1.id

/-- No start is remembered twice. -/
def Distinct (o : Overlay) : Prop := o.startedIds.Nodup

theorem distinct_empty : Distinct .empty := List.nodup_nil

/-! ## Remembering -/

theorem mem_recordStart {e : Machine × Instant} :
    e ∈ (o.recordStart time m).started ↔ e ∈ o.started ∧ e.1.id ≠ m.id ∨ e = (m, time) := by
  rw [recordStart, List.mem_append, List.mem_filter, bne_iff_ne, List.mem_singleton]

theorem mem_recordTermination {e : Machine × Instant} :
    e ∈ (o.recordTermination time id).started ↔ e ∈ o.started ∧ e.1.id ≠ id := by
  rw [recordTermination, List.mem_filter, bne_iff_ne]

theorem Distinct.of_sublist {o' : Overlay} (h : o.Distinct) (hs : o'.started.Sublist o.started) :
    o'.Distinct := by
  rw [Distinct, startedIds]
  exact (hs.map _).nodup h

theorem Distinct.recordStart (h : o.Distinct) (time : Instant) (m : Machine) :
    (o.recordStart time m).Distinct := by
  rw [Distinct, startedIds, Overlay.recordStart, List.map_append, List.map_singleton]
  refine List.nodup_append.2 ⟨(List.filter_sublist.map _).nodup h, List.nodup_singleton _, ?_⟩
  intro a ha b hb
  obtain ⟨e, he, rfl⟩ := List.mem_map.1 ha
  rw [List.mem_singleton.1 hb]
  simpa using (List.mem_filter.1 he).2

theorem Distinct.recordStarted (h : o.Distinct) (machines : List Machine) (time : Instant) :
    (o.recordStarted machines time).Distinct := by
  induction machines generalizing o with
  | nil => exact h
  | cons m rest ih => exact ih (h.recordStart time m)

theorem Distinct.recordTermination (h : o.Distinct) (time : Instant) (id : String) :
    (o.recordTermination time id).Distinct :=
  h.of_sublist List.filter_sublist

theorem Distinct.recordTerminated (h : o.Distinct) (ids : List String) (time : Instant) :
    (o.recordTerminated ids time).Distinct := by
  induction ids generalizing o with
  | nil => exact h
  | cons id rest ih => exact ih (h.recordTermination time id)

theorem Distinct.forget (h : o.Distinct) (takenAt : Instant) : (o.forget takenAt).Distinct :=
  h.of_sublist List.filter_sublist

/-! ## Forgetting -/

/-- Nothing is remembered from before a time. -/
structure Recent (o : Overlay) (t : Instant) : Prop where
  started : ∀ e ∈ o.started, t ≤ e.2
  terminated : ∀ e ∈ o.terminated.entries, t ≤ e.2

theorem recent_forget (o : Overlay) (t : Instant) : (o.forget t).Recent t where
  started e he := by simpa using (List.mem_filter.1 he).2
  terminated e he := by simpa using (IdMap.mem_filter.1 he).2

theorem Recent.forget_eq (h : o.Recent t) : o.forget t = o := by
  obtain ⟨started, terminated, sorted⟩ := o
  have hs : started.filter (fun e => t ≤ e.2) = started :=
    List.filter_eq_self.2 fun e he => by simpa using h.started e he
  have ht : terminated.filter (fun e => t ≤ e.2) = terminated :=
    List.filter_eq_self.2 fun e he => by simpa using h.terminated e he
  simp only [Overlay.forget, IdMap.filter, hs, ht]

theorem Recent.recordStart (h : o.Recent t) (ht : t ≤ time) (m : Machine) :
    (o.recordStart time m).Recent t where
  started e he := by
    rcases mem_recordStart.1 he with ⟨he, _⟩ | rfl
    · exact h.started e he
    · exact ht
  terminated e he := h.terminated e (IdMap.mem_erase.1 he).1

theorem Recent.recordStarted (h : o.Recent t) (ht : t ≤ time) (machines : List Machine) :
    (o.recordStarted machines time).Recent t := by
  induction machines generalizing o with
  | nil => exact h
  | cons m rest ih => exact ih (h.recordStart ht m)

theorem Recent.recordTermination (h : o.Recent t) (ht : t ≤ time) (id : String) :
    (o.recordTermination time id).Recent t where
  started e he := h.started e (mem_recordTermination.1 he).1
  terminated e he := by
    rcases IdMap.mem_insert.1 he with rfl | ⟨he, _⟩
    · exact ht
    · exact h.terminated e he

theorem Recent.recordTerminated (h : o.Recent t) (ht : t ≤ time) (ids : List String) :
    (o.recordTerminated ids time).Recent t := by
  induction ids generalizing o with
  | nil => exact h
  | cons id rest ih => exact ih (h.recordTermination ht id)

/-! ## Views -/

@[simp] theorem id_showMachine (o : Overlay) (m : Machine) : (o.showMachine m).id = m.id := by
  unfold showMachine
  split
  · rfl
  · rfl

theorem ids_overlay (o : Overlay) (p : Pool) :
    (o.overlay p).machines.map Machine.id =
      p.machines.map Machine.id ++ (o.unlisted p).map Machine.id := by
  rw [overlay, List.map_append, List.map_map]
  refine congrArg (· ++ _) (List.map_congr_left fun m _ => ?_)
  exact id_showMachine o m

theorem mem_unlisted : m ∈ o.unlisted p ↔ (∃ t, (m, t) ∈ o.started) ∧ p.contains m.id = false := by
  rw [unlisted, List.mem_filter, List.mem_map, Bool.not_eq_true']
  refine and_congr_left fun _ => ⟨?_, ?_⟩
  · rintro ⟨⟨_, t⟩, he, rfl⟩
    exact ⟨t, he⟩
  · rintro ⟨t, he⟩
    exact ⟨(m, t), he, rfl⟩

theorem unlisted_sublist (o : Overlay) (p : Pool) :
    (o.unlisted p).Sublist (o.started.map Prod.fst) :=
  List.filter_sublist

/-- **A view shows no machine twice.** -/
theorem distinct_overlay (hp : p.Distinct) (ho : o.Distinct) : (o.overlay p).Distinct := by
  rw [Pool.Distinct, ids_overlay]
  refine List.nodup_append.2 ⟨hp, ?_, ?_⟩
  · have hsub := (o.unlisted_sublist p).map Machine.id
    rw [List.map_map] at hsub
    exact hsub.nodup ho
  · intro a ha b hb hab
    obtain ⟨m, hm, rfl⟩ := List.mem_map.1 ha
    obtain ⟨m', hm', rfl⟩ := List.mem_map.1 hb
    have hfree := (mem_unlisted.1 hm').2
    rw [← Bool.not_eq_true, Pool.contains_iff] at hfree
    exact hfree ⟨m, hm, hab⟩

theorem not_mem_started_of_not_contains (h : (o.overlay p).contains id = false) :
    p.contains id = false ∧ id ∉ o.startedIds := by
  simp only [← Bool.not_eq_true, Pool.contains_iff] at h
  have hp : p.contains id = false := by
    rw [← Bool.not_eq_true, Pool.contains_iff]
    rintro ⟨m, hm, rfl⟩
    exact h ⟨o.showMachine m, List.mem_append_left _ (List.mem_map_of_mem hm), id_showMachine o m⟩
  refine ⟨hp, fun hid => ?_⟩
  obtain ⟨e, he, rfl⟩ := List.mem_map.1 hid
  exact h ⟨e.1, List.mem_append_right _ (mem_unlisted.2 ⟨⟨e.2, he⟩, hp⟩), rfl⟩

/-! ## Views after an action -/

theorem started_recordStart (h : m.id ∉ o.startedIds) :
    (o.recordStart time m).started = o.started ++ [(m, time)] := by
  have hfree : o.started.filter (fun e => e.1.id != m.id) = o.started :=
    List.filter_eq_self.2 fun e he =>
      bne_iff_ne.2 fun heq => h (heq ▸ List.mem_map_of_mem (f := fun e => e.1.id) he)
  rw [recordStart, hfree]

theorem showMachine_recordStart {x : Machine} (h : x.id ≠ m.id) :
    (o.recordStart time m).showMachine x = o.showMachine x := by
  have hc : (o.recordStart time m).terminated.contains x.id = o.terminated.contains x.id := by
    rw [recordStart, IdMap.contains_erase, bne_iff_ne.2 h, Bool.true_and]
  rw [showMachine, showMachine, hc]

theorem machines_recordStart (h : (o.overlay p).contains m.id = false) :
    ((o.recordStart time m).overlay p).machines = (o.overlay p).machines ++ [m] := by
  obtain ⟨hp, ho⟩ := not_mem_started_of_not_contains h
  have hlisted : p.machines.map (o.recordStart time m).showMachine = p.machines.map o.showMachine :=
    List.map_congr_left fun x hx => showMachine_recordStart fun heq => by
      rw [← Bool.not_eq_true, Pool.contains_iff] at hp
      exact hp ⟨x, hx, heq⟩
  have hunlisted : (o.recordStart time m).unlisted p = o.unlisted p ++ [m] := by
    rw [unlisted, started_recordStart ho, List.map_append, List.filter_append, unlisted]
    simp [hp]
  rw [overlay, hlisted, hunlisted, overlay, List.append_assoc]

theorem machines_recordStarted {machines : List Machine} (hnodup : (machines.map Machine.id).Nodup)
    (h : ∀ m ∈ machines, (o.overlay p).contains m.id = false) :
    ((o.recordStarted machines time).overlay p).machines = (o.overlay p).machines ++ machines := by
  induction machines generalizing o with
  | nil => exact (List.append_nil _).symm
  | cons m rest ih =>
    rw [List.map_cons, List.nodup_cons] at hnodup
    have hm : ((o.recordStart time m).overlay p).machines = (o.overlay p).machines ++ [m] :=
      machines_recordStart (h m List.mem_cons_self)
    show (((o.recordStart time m).recordStarted rest time).overlay p).machines = _
    rw [ih hnodup.2, hm, List.append_assoc, List.singleton_append]
    intro x hx
    have hne : m.id ≠ x.id := fun heq => hnodup.1 (heq ▸ List.mem_map_of_mem hx)
    have hfree := h x (List.mem_cons_of_mem _ hx)
    rw [Pool.contains] at hfree ⊢
    rw [hm, List.any_append, hfree]
    simpa using hne

theorem not_effective_of_terminated {x : Machine} (h : o.terminated.contains x.id = true) :
    (o.showMachine x).isEffective = false := by
  unfold showMachine
  split
  · rfl
  · rename_i hfree
    have halloc : x.isAllocated = false := by simpa [h] using hfree
    rw [Machine.isEffective, halloc]
    rfl

theorem showMachine_recordTermination {x : Machine} (h : x.id ≠ id) :
    (o.recordTermination time id).showMachine x = o.showMachine x := by
  have hc : (o.recordTermination time id).terminated.contains x.id = o.terminated.contains x.id := by
    rw [recordTermination, IdMap.contains_insert, beq_eq_false_iff_ne.2 h, Bool.false_or]
  rw [showMachine, showMachine, hc]

theorem contains_recordTermination (o : Overlay) (time : Instant) (id : String) :
    (o.recordTermination time id).terminated.contains id = true := by
  rw [recordTermination, IdMap.contains_insert, beq_self_eq_true, Bool.true_or]

theorem effective_recordTermination (o : Overlay) (time : Instant) (id : String) (p : Pool) :
    ((o.recordTermination time id).overlay p).effective =
      (o.overlay p).effective.filter fun m => m.id != id := by
  have hlisted : ∀ machines : List Machine,
      (machines.map (o.recordTermination time id).showMachine).filter Machine.isEffective =
        ((machines.map o.showMachine).filter Machine.isEffective).filter fun m => m.id != id := by
    intro machines
    induction machines with
    | nil => rfl
    | cons x rest ih =>
      rw [List.map_cons, List.map_cons]
      by_cases hx : x.id = id
      · have hgone : ((o.recordTermination time id).showMachine x).isEffective = false :=
          not_effective_of_terminated (hx ▸ contains_recordTermination o time x.id)
        rw [List.filter_cons_of_neg (by simp [hgone]), ih, List.filter_cons]
        split
        · rw [List.filter_cons_of_neg (by simp [hx])]
        · rfl
      · rw [showMachine_recordTermination hx, List.filter_cons, List.filter_cons, ih]
        split
        · rw [List.filter_cons_of_pos (by simpa using hx)]
        · rfl
  have hunlisted : (o.recordTermination time id).unlisted p =
      (o.unlisted p).filter fun m => m.id != id := by
    simp only [unlisted, recordTermination, List.filter_map, List.filter_filter]
    exact congrArg _ (List.filter_congr fun e _ => Bool.and_comm _ _)
  rw [Pool.effective, overlay, List.filter_append, hlisted, hunlisted, Pool.effective, overlay,
    List.filter_append, List.filter_append]
  have hcomm : ((o.unlisted p).filter fun m => m.id != id).filter Machine.isEffective =
      ((o.unlisted p).filter Machine.isEffective).filter fun m => m.id != id := by
    rw [List.filter_filter, List.filter_filter]
    exact List.filter_congr fun m _ => Bool.and_comm _ _
  rw [hcomm]

/-- **Machines that are gone count no longer.** -/
theorem effective_recordTerminated (o : Overlay) (ids : List String) (time : Instant) (p : Pool) :
    ((o.recordTerminated ids time).overlay p).effective =
      (o.overlay p).effective.filter fun m => !ids.contains m.id := by
  induction ids generalizing o with
  | nil => exact (List.filter_eq_self.2 fun _ _ => rfl).symm
  | cons id rest ih =>
    show (((o.recordTermination time id).recordTerminated rest time).overlay p).effective = _
    rw [ih, effective_recordTermination, List.filter_filter]
    refine List.filter_congr fun m _ => ?_
    rw [List.contains_cons, Bool.not_or, Bool.and_comm]
    rfl

/-! ## Since when -/

/-- A machine's end is remembered, from a time or later. -/
def EndedSince (o : Overlay) (id : String) (t : Instant) : Prop :=
  ∃ e ∈ o.terminated.entries, e.1 = id ∧ t ≤ e.2

/-- A machine's start is remembered, from a time or later. -/
def StartedSince (o : Overlay) (id : String) (t : Instant) : Prop :=
  ∃ e ∈ o.started, e.1.id = id ∧ t ≤ e.2

theorem EndedSince.recordStarted {machines : List Machine} (h : o.EndedSince id t)
    (hne : ∀ m ∈ machines, m.id ≠ id) : (o.recordStarted machines time).EndedSince id t := by
  induction machines generalizing o with
  | nil => exact h
  | cons m rest ih =>
    obtain ⟨e, he, rfl, ht⟩ := h
    have hm : e.1 ≠ m.id := fun heq => hne m List.mem_cons_self heq.symm
    exact ih ⟨e, IdMap.mem_erase.2 ⟨he, hm⟩, rfl, ht⟩ fun x hx => hne x (List.mem_cons_of_mem _ hx)

theorem EndedSince.recordTerminated {ids : List String} (h : o.EndedSince id t) (ht : t ≤ time) :
    (o.recordTerminated ids time).EndedSince id t := by
  induction ids generalizing o with
  | nil => exact h
  | cons i rest ih =>
    refine ih ?_
    obtain ⟨e, he, rfl, hle⟩ := h
    by_cases hi : e.1 = i
    · exact ⟨(i, time), IdMap.mem_insert.2 (.inl rfl), hi.symm, ht⟩
    · exact ⟨e, IdMap.mem_insert.2 (.inr ⟨he, hi⟩), rfl, hle⟩

theorem endedSince_recordTerminated {ids : List String} (hid : id ∈ ids) (ht : t ≤ time) :
    (o.recordTerminated ids time).EndedSince id t := by
  induction ids generalizing o with
  | nil => cases hid
  | cons i rest ih =>
    rcases List.mem_cons.1 hid with rfl | hid
    · have hnow : (o.recordTermination time id).EndedSince id t :=
        ⟨(id, time), IdMap.mem_insert.2 (.inl rfl), rfl, ht⟩
      exact hnow.recordTerminated ht
    · exact ih hid

theorem EndedSince.forget {takenAt : Instant} (h : o.EndedSince id t) (hle : takenAt ≤ t) :
    (o.forget takenAt).EndedSince id t := by
  obtain ⟨e, he, hid, ht⟩ := h
  exact ⟨e, IdMap.mem_filter.2 ⟨he, by simpa using Instant.le_trans hle ht⟩, hid, ht⟩

theorem EndedSince.contains (h : o.EndedSince id t) : o.terminated.contains id = true := by
  obtain ⟨e, he, hid, _⟩ := h
  exact IdMap.contains_iff.2 ⟨e, he, hid⟩

theorem StartedSince.recordTerminated {ids : List String} (h : o.StartedSince id t)
    (hid : id ∉ ids) : (o.recordTerminated ids time).StartedSince id t := by
  induction ids generalizing o with
  | nil => exact h
  | cons i rest ih =>
    rw [List.mem_cons, not_or] at hid
    obtain ⟨e, he, rfl, ht⟩ := h
    exact ih ⟨e, mem_recordTermination.2 ⟨he, hid.1⟩, rfl, ht⟩ hid.2

theorem StartedSince.recordStarted {machines : List Machine} (h : o.StartedSince id t)
    (ht : t ≤ time) : (o.recordStarted machines time).StartedSince id t := by
  induction machines generalizing o with
  | nil => exact h
  | cons m rest ih =>
    refine ih ?_
    obtain ⟨e, he, rfl, hle⟩ := h
    by_cases hm : e.1.id = m.id
    · exact ⟨(m, time), mem_recordStart.2 (.inr rfl), hm.symm, ht⟩
    · exact ⟨e, mem_recordStart.2 (.inl ⟨he, hm⟩), rfl, hle⟩

theorem startedSince_recordStarted {machines : List Machine} (hm : m ∈ machines) (ht : t ≤ time) :
    (o.recordStarted machines time).StartedSince m.id t := by
  induction machines generalizing o with
  | nil => cases hm
  | cons x rest ih =>
    rcases List.mem_cons.1 hm with rfl | hm
    · have hnow : (o.recordStart time m).StartedSince m.id t :=
        ⟨(m, time), mem_recordStart.2 (.inr rfl), rfl, ht⟩
      exact hnow.recordStarted ht
    · exact ih hm

theorem StartedSince.forget {takenAt : Instant} (h : o.StartedSince id t) (hle : takenAt ≤ t) :
    (o.forget takenAt).StartedSince id t := by
  obtain ⟨e, he, hid, ht⟩ := h
  exact ⟨e, List.mem_filter.2 ⟨he, by simpa using Instant.le_trans hle ht⟩, hid, ht⟩

theorem StartedSince.mem_startedIds (h : o.StartedSince id t) : id ∈ o.startedIds := by
  obtain ⟨e, he, hid, _⟩ := h
  exact List.mem_map.2 ⟨e, he, hid⟩

theorem notMem_startedIds_recordStarted {machines : List Machine} (h : id ∉ o.startedIds)
    (hne : ∀ m ∈ machines, m.id ≠ id) : id ∉ (o.recordStarted machines time).startedIds := by
  induction machines generalizing o with
  | nil => exact h
  | cons m rest ih =>
    refine ih (fun hid => ?_) fun x hx => hne x (List.mem_cons_of_mem _ hx)
    obtain ⟨e, he, rfl⟩ := List.mem_map.1 hid
    rcases mem_recordStart.1 he with ⟨he, _⟩ | rfl
    · exact h (List.mem_map.2 ⟨e, he, rfl⟩)
    · exact hne m List.mem_cons_self rfl

theorem startedIds_recordTerminated_subset {ids : List String}
    (hid : id ∈ (o.recordTerminated ids time).startedIds) : id ∈ o.startedIds ∧ id ∉ ids := by
  induction ids generalizing o with
  | nil => exact ⟨hid, List.not_mem_nil⟩
  | cons i rest ih =>
    obtain ⟨hid, hrest⟩ := ih hid
    obtain ⟨e, he, rfl⟩ := List.mem_map.1 hid
    obtain ⟨he, hne⟩ := mem_recordTermination.1 he
    exact ⟨List.mem_map.2 ⟨e, he, rfl⟩, fun hmem => (List.mem_cons.1 hmem).elim hne hrest⟩

theorem startedIds_forget_subset {takenAt : Instant} (hid : id ∈ (o.forget takenAt).startedIds) :
    id ∈ o.startedIds :=
  (List.filter_sublist.map _).subset hid

/-! ## What a view shows -/

/-- A machine that a snapshot does not show as allocated, or whose end is remembered, is not shown
as allocated, unless its start is remembered. -/
theorem not_isAllocated_overlay
    (h : (∀ x ∈ p.machines, x.id = id → x.isAllocated = false) ∨ o.terminated.contains id = true)
    (hs : id ∉ o.startedIds) (hm : m ∈ (o.overlay p).machines) (hid : m.id = id) :
    m.isAllocated = false := by
  rcases List.mem_append.1 hm with hm | hm
  · obtain ⟨x, hx, rfl⟩ := List.mem_map.1 hm
    rw [id_showMachine] at hid
    unfold showMachine
    split
    · rfl
    · rename_i hfree
      rcases h with h | h
      · exact h x hx hid
      · simpa [hid, h] using hfree
  · obtain ⟨⟨t, he⟩, _⟩ := mem_unlisted.1 hm
    exact absurd (List.mem_map.2 ⟨(m, t), he, hid⟩) hs

theorem count_overlay_of_started (ho : o.Distinct) (hp : p.contains id = false)
    (h : id ∈ o.startedIds) : ((o.overlay p).machines.map Machine.id).count id = 1 := by
  have hlisted : id ∉ p.machines.map Machine.id := by
    intro hid
    obtain ⟨m, hm, rfl⟩ := List.mem_map.1 hid
    rw [← Bool.not_eq_true, Pool.contains_iff] at hp
    exact hp ⟨m, hm, rfl⟩
  have hnodup : ((o.unlisted p).map Machine.id).Nodup := by
    have hsub := (o.unlisted_sublist p).map Machine.id
    rw [List.map_map] at hsub
    exact hsub.nodup ho
  obtain ⟨e, he, rfl⟩ := List.mem_map.1 h
  rw [ids_overlay, List.count_append, List.count_eq_zero.2 hlisted, Nat.zero_add]
  exact List.count_eq_one_of_mem hnodup (List.mem_map_of_mem (mem_unlisted.2 ⟨⟨e.2, he⟩, hp⟩))

theorem count_overlay (hp : p.Distinct) (ho : o.Distinct)
    (h : p.contains id = true ∨ id ∈ o.startedIds) :
    ((o.overlay p).machines.map Machine.id).count id = 1 := by
  refine List.count_eq_one_of_mem (distinct_overlay hp ho) ?_
  by_contra hnot
  have hfree : (o.overlay p).contains id = false := by
    rw [← Bool.not_eq_true, Pool.contains_iff]
    rintro ⟨m, hm, rfl⟩
    exact hnot (List.mem_map_of_mem hm)
  obtain ⟨hlisted, hstarted⟩ := not_mem_started_of_not_contains hfree
  rw [hlisted] at h
  rcases h with h | h
  · cases h
  · exact hstarted h

/-! ## Views and forgetting -/

/-- What is shown depends on the starts and on who has ended. -/
theorem overlay_congr {o' : Overlay} (hs : o.started = o'.started)
    (ht : ∀ id, o.terminated.contains id = o'.terminated.contains id) (p : Pool) :
    o.overlay p = o'.overlay p := by
  have hshow : o.showMachine = o'.showMachine := funext fun m => by
    rw [showMachine, showMachine, ht]
  rw [overlay, overlay, hshow, unlisted, unlisted, hs]

theorem contains_forget_iff :
    (o.forget t).terminated.contains id = true ↔ o.EndedSince id t := by
  rw [IdMap.contains_iff]
  refine exists_congr fun e => ?_
  rw [forget, IdMap.mem_filter, decide_eq_true_iff]
  exact and_right_comm.trans and_assoc

/-- Forgetting twice forgets what is older than the later time; what is remembered at that time or
after stays. -/
theorem overlay_forget_recordTermination {t' : Instant} (h : t ≤ t') (ht : t' ≤ time) (p : Pool) :
    (((o.forget t).recordTermination time id).forget t').overlay p =
      ((o.forget t').recordTermination time id).overlay p := by
  have hle : ∀ {x : Instant}, t' ≤ x → t ≤ x := fun hx => Instant.le_trans h hx
  refine overlay_congr ?_ (fun x => ?_) p
  · simp only [forget, recordTermination, List.filter_filter]
    refine List.filter_congr fun e _ => ?_
    by_cases he : t' ≤ e.2
    · simp [he, hle he]
    · simp [he]
  · rw [Bool.eq_iff_iff, contains_forget_iff]
    simp only [recordTermination, IdMap.contains_insert, Bool.or_eq_true, beq_iff_eq,
      contains_forget_iff]
    constructor
    · rintro ⟨e, he, rfl, hx⟩
      rcases IdMap.mem_insert.1 he with rfl | ⟨he, _⟩
      · exact .inl rfl
      · exact .inr ⟨e, (IdMap.mem_filter.1 he).1, rfl, hx⟩
    · intro hx
      by_cases hid : x = id
      · exact ⟨(id, time), IdMap.mem_insert.2 (.inl rfl), hid.symm, ht⟩
      · obtain ⟨e, he, rfl, hlate⟩ := hx.resolve_left hid
        have hkept : e ∈ (o.forget t).terminated.entries :=
          IdMap.mem_filter.2 ⟨he, by simpa using hle hlate⟩
        exact ⟨e, IdMap.mem_insert.2 (.inr ⟨hkept, hid⟩), rfl, hlate⟩

/-! ## Views without a machine -/

theorem effective_without (h : id ∉ o.startedIds) :
    (o.overlay (p.without id)).effective = (o.overlay p).effective.filter fun m => m.id != id := by
  have hlisted : (p.without id).machines.map o.showMachine =
      (p.machines.map o.showMachine).filter fun m => m.id != id := by
    rw [List.filter_map]
    refine congrArg _ (List.filter_congr fun m _ => ?_)
    rw [Function.comp_apply, id_showMachine]
  have hunlisted : o.unlisted (p.without id) = (o.unlisted p).filter fun m => m.id != id := by
    rw [unlisted, unlisted, List.filter_filter]
    refine List.filter_congr fun m hm => ?_
    obtain ⟨e, he, rfl⟩ := List.mem_map.1 hm
    have hne : e.1.id ≠ id := fun heq => h (heq ▸ List.mem_map_of_mem (f := fun e => e.1.id) he)
    have hsame : (p.without id).contains e.1.id = p.contains e.1.id := by
      rw [Pool.contains, Pool.without, List.any_filter, Pool.contains]
      refine List.any_congr rfl fun x => ?_
      by_cases hx : x.id = e.1.id
      · simp [hx, hne]
      · simp [hx]
    rw [hsame, bne_iff_ne.2 hne, Bool.true_and]
  rw [Pool.effective, overlay, hlisted, hunlisted, ← List.filter_append, List.filter_filter,
    Pool.effective, overlay, List.filter_filter]
  exact List.filter_congr fun m _ => Bool.and_comm _ _

theorem mem_effective_iff (h : id ∉ o.startedIds) :
    (∃ m ∈ (o.overlay p).effective, m.id = id) ↔
      (∃ m ∈ p.effective, m.id = id) ∧ o.terminated.contains id = false := by
  constructor
  · rintro ⟨m, hm, rfl⟩
    obtain ⟨hm, hcounts⟩ := Pool.mem_effective.1 hm
    rcases List.mem_append.1 hm with hm | hm
    · obtain ⟨x, hx, rfl⟩ := List.mem_map.1 hm
      cases hended : o.terminated.contains x.id with
      | true =>
        rw [not_effective_of_terminated hended] at hcounts
        cases hcounts
      | false =>
        have hshow : o.showMachine x = x := by rw [showMachine, hended]; rfl
        rw [hshow] at hcounts ⊢
        exact ⟨⟨x, Pool.mem_effective.2 ⟨hx, hcounts⟩, rfl⟩, hended⟩
    · obtain ⟨⟨time, he⟩, _⟩ := mem_unlisted.1 hm
      exact absurd (List.mem_map_of_mem (f := fun e => e.1.id) he) h
  · rintro ⟨⟨m, hm, rfl⟩, hended⟩
    obtain ⟨hm, hcounts⟩ := Pool.mem_effective.1 hm
    have hshow : o.showMachine m = m := by rw [showMachine, hended]; rfl
    have hmem : m ∈ (o.overlay p).machines :=
      List.mem_append_left _ (List.mem_map.2 ⟨m, hm, hshow⟩)
    exact ⟨m, Pool.mem_effective.2 ⟨hmem, hcounts⟩, rfl⟩

end Overlay

end PoolKeeper
