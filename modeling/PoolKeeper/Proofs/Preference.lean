import Mathlib.Data.List.Basic
import PoolKeeper.Victim

/-!
# The order of victims

Machines are ordered as if time never ended. The order is told where the hours it looks at end in
time.

* `VictimPolicy.rank`: the order; `VictimPolicy.rank_swap`, `VictimPolicy.rank_trans`,
  `VictimPolicy.rank_ne_eq`: it is total, and no two machines with different identifiers are equally
  good victims;
* `Machine.HourTold`, `VictimPolicy.Told`: the end of its hour can be told, where that matters;
  **`VictimPolicy.compare_eq`**: machines compare as they rank, or cannot be compared;
* `VictimPolicy.Ordered`: machines, the best victims first;
  **`VictimPolicy.Ordered.eq_of_perm`**: they can be ordered so in one way only;
* `VictimPolicy.order`: the machines of a list so ordered; `VictimPolicy.Sortable`,
  `VictimPolicy.Ordered.compare`, **`VictimPolicy.sort?_eq`**: when a list is sorted so, as its
  machines compare;
* `VictimPolicy.select_eq`, **`VictimPolicy.select_of_perm`**: who is selected, in whatever order
  the candidates are listed.
-/

namespace PoolKeeper

namespace Instant

variable {a b : Instant}

theorem compare_swap (a b : Instant) : (a.compare b).swap = b.compare a := by
  rw [Instant.compare, Instant.compare]
  by_cases hlt : a < b
  · have hnot : ¬ b < a := by rw [lt_def] at *; omega
    rw [if_pos hlt, if_neg hnot, if_pos hlt]
    rfl
  · rw [if_neg hlt, if_neg hlt]
    split
    · rfl
    · rfl

theorem isLE_compare : (a.compare b).isLE = true ↔ a ≤ b := by
  rw [Instant.compare]
  split
  · rename_i hlt
    refine iff_of_true rfl ?_
    rw [lt_def] at hlt
    rw [le_def]
    omega
  · split
    · rename_i hgt
      exact iff_of_false Bool.false_ne_true (not_le.2 hgt)
    · rename_i hgt
      exact iff_of_true rfl (Decidable.not_not.1 fun h => hgt (not_le.1 h))

theorem compare_trans {c : Instant} (h : (a.compare b).isLE = true)
    (h' : (b.compare c).isLE = true) : (a.compare c).isLE = true :=
  isLE_compare.2 (le_trans (isLE_compare.1 h) (isLE_compare.1 h'))

end Instant

namespace VictimPolicy

variable {policy : VictimPolicy} {now : Instant} {l l' : List Machine}

/-! ## A total order -/

theorem compareLaunch_swap (a b : Option Instant) :
    (compareLaunch a b).swap = compareLaunch b a := by
  cases a with
  | none => cases b with
    | none => rfl
    | some b => rfl
  | some a => cases b with
    | none => rfl
    | some b => exact a.compare_swap b

theorem compareLaunch_trans {a b c : Option Instant} (h : (compareLaunch a b).isLE = true)
    (h' : (compareLaunch b c).isLE = true) : (compareLaunch a c).isLE = true := by
  cases c with
  | none => cases a with
    | none => rfl
    | some a => rfl
  | some c => cases b with
    | none => cases h'
    | some b => cases a with
      | none => cases h
      | some a => exact Instant.compare_trans h h'

instance : Std.TransCmp compareLaunch where
  eq_swap := (compareLaunch_swap _ _).symm
  isLE_trans := compareLaunch_trans

theorem transCmp_of_key {α β : Type} (cmp : β → β → Ordering) [Std.TransCmp cmp] (key : α → β) :
    Std.TransCmp fun a b => cmp (key a) (key b) where
  eq_swap := Std.OrientedCmp.eq_swap
  isLE_trans := Std.TransCmp.isLE_trans

/-- Nanoseconds until the hour of a machine ends, whether or not time ends before. -/
def hourLeft (m : Machine) (now : Instant) : Int :=
  match m.launched with
  | some t => (Billing.hourEnd t now).since now
  | none => 0

/-- Which of two machines ranks as the better victim, identifiers apart. -/
def rankMachines (policy : VictimPolicy) (a b : Machine) (now : Instant) : Ordering :=
  match policy with
  | oldest => compareLaunch a.launched b.launched
  | newest => compareLaunch b.launched a.launched
  | closestToHour => Ord.compare (hourLeft a now) (hourLeft b now)

/-- Which of two machines ranks as the better victim. -/
def rank (policy : VictimPolicy) (a b : Machine) (now : Instant) : Ordering :=
  (policy.rankMachines a b now).then (Ord.compare a.id b.id)

instance (policy : VictimPolicy) (now : Instant) :
    Std.TransCmp fun a b => policy.rankMachines a b now := by
  cases policy with
  | oldest => exact transCmp_of_key compareLaunch Machine.launched
  | newest => exact transCmp_of_key (fun a b => compareLaunch b a) Machine.launched
  | closestToHour => exact transCmp_of_key Ord.compare (hourLeft · now)

instance (policy : VictimPolicy) (now : Instant) :
    Std.TransCmp fun a b => policy.rank a b now :=
  inferInstanceAs (Std.TransCmp
    (compareLex (fun a b => policy.rankMachines a b now) (compareOn Machine.id)))

section Total

variable (policy : VictimPolicy) (now : Instant) {a b c : Machine}

theorem rank_swap (a b : Machine) : (policy.rank a b now).swap = policy.rank b a now := by
  have h : policy.rank b a now = (policy.rank a b now).swap :=
    (inferInstance : Std.TransCmp fun a b => policy.rank a b now).eq_swap
  exact h.symm

theorem rank_trans (h : (policy.rank a b now).isLE = true)
    (h' : (policy.rank b c now).isLE = true) : (policy.rank a c now).isLE = true :=
  (inferInstance : Std.TransCmp fun a b => policy.rank a b now).isLE_trans h h'

theorem rank_ne_eq (h : a.id ≠ b.id) : policy.rank a b now ≠ .eq := by
  intro heq
  have hid : Ord.compare a.id b.id = .eq := (Ordering.then_eq_eq.1 heq).2
  exact h (Std.LawfulEqCmp.eq_of_compare hid)

end Total

end VictimPolicy

/-! ## Hours that end in time -/

/-- The hour of a machine that was launched ends before time does. -/
def Machine.HourTold (m : Machine) (now : Instant) : Prop :=
  ∀ launched, m.launched = some launched → Billing.hourEnd launched now < Instant.endOfTime

instance (m : Machine) (now : Instant) : Decidable (m.HourTold now) :=
  decidable_of_iff (m.launched.all fun t => decide (Billing.hourEnd t now < Instant.endOfTime))
    (by simp only [Option.all_eq_true, decide_eq_true_eq, Machine.HourTold])

theorem Billing.nextBoundary_eq_hourEnd {launched now : Instant}
    (h : Billing.hourEnd launched now < Instant.endOfTime) :
    Billing.nextBoundary launched now = some (Billing.hourEnd launched now) :=
  if_neg fun hle => Instant.not_le.2 h hle

theorem Billing.nextBoundary_eq_none_iff {launched now : Instant} :
    Billing.nextBoundary launched now = none ↔
      ¬ Billing.hourEnd launched now < Instant.endOfTime := by
  rw [← Instant.not_le, Decidable.not_not, Billing.nextBoundary]
  simp only [ite_eq_left_iff, reduceCtorEq, imp_false, Decidable.not_not]

namespace VictimPolicy

variable {policy : VictimPolicy} {now : Instant} {l l' : List Machine} {a b m : Machine}

/-- All that the policy looks at can be told. -/
def Told (policy : VictimPolicy) (now : Instant) (m : Machine) : Prop :=
  policy = closestToHour → m.HourTold now

instance (policy : VictimPolicy) (now : Instant) (m : Machine) : Decidable (policy.Told now m) :=
  inferInstanceAs (Decidable (_ → _))

theorem timeLeft_eq (m : Machine) (now : Instant) :
    timeLeft m now = if m.HourTold now then some (hourLeft m now) else none := by
  unfold timeLeft hourLeft
  cases hm : m.launched with
  | none =>
    have htold : m.HourTold now := fun launched h => by cases hm.symm.trans h
    rw [if_pos htold]
  | some t =>
    by_cases h : Billing.hourEnd t now < Instant.endOfTime
    · have htold : m.HourTold now := fun launched heq => by
        cases hm.symm.trans heq
        exact h
      rw [if_pos htold]
      exact congrArg (Option.map _) (Billing.nextBoundary_eq_hourEnd h)
    · rw [if_neg fun htold => h (htold t hm)]
      exact congrArg (Option.map _) (Billing.nextBoundary_eq_none_iff.2 h)

/-- **Machines compare as they rank**, unless their hours matter and the end of one cannot be
told. -/
theorem compare_eq (policy : VictimPolicy) (a b : Machine) (now : Instant) :
    policy.compare a b now =
      if policy.Told now a ∧ policy.Told now b then some (policy.rank a b now) else none := by
  cases policy with
  | oldest => exact (if_pos ⟨nofun, nofun⟩).symm
  | newest => exact (if_pos ⟨nofun, nofun⟩).symm
  | closestToHour =>
    simp only [compare, compareMachines, timeLeft_eq, Told, forall_const]
    by_cases ha : a.HourTold now
    · by_cases hb : b.HourTold now
      · simp only [if_pos ha, if_pos hb, if_pos (And.intro ha hb)]
        rfl
      · simp only [if_pos ha, if_neg hb, if_neg fun h : _ ∧ _ => hb h.2]
        rfl
    · simp only [if_neg ha, if_neg fun h : _ ∧ _ => ha h.1]
      rfl

section Compare

variable (policy : VictimPolicy) (now : Instant)

theorem isSome_compare (a b : Machine) :
    (policy.compare a b now).isSome = true ↔ policy.Told now a ∧ policy.Told now b := by
  rw [compare_eq]
  split
  · rename_i h
    exact iff_of_true rfl h
  · rename_i h
    exact iff_of_false Bool.false_ne_true h

theorem map_swap_compare (a b : Machine) :
    (policy.compare a b now).map Ordering.swap = policy.compare b a now := by
  rw [compare_eq, compare_eq]
  by_cases h : policy.Told now a ∧ policy.Told now b
  · rw [if_pos h, if_pos h.symm, Option.map_some, rank_swap]
  · rw [if_neg h, if_neg fun h' => h h'.symm]
    rfl

variable {c : Machine} {ab bc : Ordering}

theorem compare_eq_some (h : policy.compare a b now = some ab) :
    (policy.Told now a ∧ policy.Told now b) ∧ policy.rank a b now = ab := by
  rw [compare_eq] at h
  split at h
  · rename_i htold
    exact ⟨htold, Option.some.inj h⟩
  · cases h

theorem compare_trans (hab : policy.compare a b now = some ab)
    (hbc : policy.compare b c now = some bc) (h : ab.isLE = true) (h' : bc.isLE = true) :
    ∃ ac, policy.compare a c now = some ac ∧ ac.isLE = true := by
  obtain ⟨⟨ha, -⟩, rfl⟩ := policy.compare_eq_some now hab
  obtain ⟨⟨-, hc⟩, rfl⟩ := policy.compare_eq_some now hbc
  exact ⟨policy.rank a c now, by rw [compare_eq, if_pos ⟨ha, hc⟩], rank_trans policy now h h'⟩

/-- Machines with different identifiers are never equally good victims. -/
theorem compare_ne_eq (h : a.id ≠ b.id) : policy.compare a b now ≠ some .eq :=
  fun heq => rank_ne_eq policy now h (policy.compare_eq_some now heq).2

end Compare

theorem isSome_compare_self : (policy.compare m m now).isSome = true ↔ policy.Told now m := by
  rw [isSome_compare, and_self_iff]

/-! ## Machines in order -/

/-- The best victims first: every machine is a better victim than those behind it. -/
def Ordered (policy : VictimPolicy) (now : Instant) (l : List Machine) : Prop :=
  l.Pairwise fun a b => policy.rank a b now = .lt

instance : Decidable (policy.Ordered now l) := inferInstanceAs (Decidable (List.Pairwise _ _))

/-- **Machines can be ordered in one way only.** -/
theorem Ordered.eq_of_perm (h : policy.Ordered now l) (h' : policy.Ordered now l')
    (hperm : l.Perm l') : l = l' := by
  refine hperm.eq_of_pairwise (fun a b _ _ hab hba => ?_) h h'
  rw [← rank_swap, hab] at hba
  cases hba

theorem Ordered.filter (h : policy.Ordered now l) (test : Machine → Bool) :
    policy.Ordered now (l.filter test) :=
  List.Pairwise.filter test h

/-- The first machine ranks no worse than the second. -/
def ranksBefore (policy : VictimPolicy) (now : Instant) (a b : Machine) : Bool :=
  (policy.rank a b now).isLE

/-- The machines of a list, the best victims first. -/
def order (policy : VictimPolicy) (now : Instant) (l : List Machine) : List Machine :=
  l.mergeSort (policy.ranksBefore now)

theorem order_perm (policy : VictimPolicy) (now : Instant) (l : List Machine) :
    (policy.order now l).Perm l :=
  List.mergeSort_perm _ _

theorem ranksBefore_total (a b : Machine) :
    (policy.ranksBefore now a b || policy.ranksBefore now b a) = true := by
  rw [Bool.or_eq_true, ranksBefore, ranksBefore, ← rank_swap policy now a b]
  cases policy.rank a b now with
  | lt => exact .inl rfl
  | eq => exact .inl rfl
  | gt => exact .inr rfl

theorem ordered_order (hl : (l.map Machine.id).Nodup) :
    policy.Ordered now (policy.order now l) := by
  have htrans (a b c : Machine) : policy.ranksBefore now a b = true →
      policy.ranksBefore now b c = true → policy.ranksBefore now a c = true := rank_trans policy now
  have hsorted : (policy.order now l).Pairwise fun a b => policy.ranksBefore now a b = true :=
    List.pairwise_mergeSort htrans ranksBefore_total l
  have hids : ((policy.order now l).map Machine.id).Nodup :=
    ((policy.order_perm now l).map Machine.id).nodup_iff.2 hl
  refine (hsorted.and (List.pairwise_map.1 hids)).imp fun {a b} h => ?_
  have hle : (policy.rank a b now).isLE = true := h.1
  have hne := rank_ne_eq policy now h.2
  cases hab : policy.rank a b now with
  | lt => rfl
  | eq => exact absurd hab hne
  | gt =>
    rw [hab] at hle
    cases hle

theorem order_of_perm (hl : (l.map Machine.id).Nodup) (h : l.Perm l') :
    policy.order now l = policy.order now l' :=
  (ordered_order hl).eq_of_perm (ordered_order ((h.map Machine.id).nodup_iff.1 hl))
    ((policy.order_perm now l).trans (h.trans (policy.order_perm now l').symm))

/-- The best victims of some machines are the best victims that are among them. -/
theorem order_filter (hl : (l.map Machine.id).Nodup) (test : Machine → Bool) :
    policy.order now (l.filter test) = (policy.order now l).filter test :=
  (ordered_order ((List.filter_sublist.map Machine.id).nodup hl)).eq_of_perm
    ((ordered_order hl).filter test)
    ((policy.order_perm now _).trans ((policy.order_perm now l).symm.filter test))

/-! ## Sorting -/

/-- The machines can be sorted: there are none to compare, or all can be. -/
def Sortable (policy : VictimPolicy) (now : Instant) (l : List Machine) : Prop :=
  l.length < 2 ∨ ∀ m ∈ l, policy.Told now m

instance : Decidable (policy.Sortable now l) := inferInstanceAs (Decidable (_ ∨ _))

theorem Sortable.sublist (h : l'.Sublist l) (hl : policy.Sortable now l) : policy.Sortable now l' :=
  hl.imp (fun hlt => Nat.lt_of_le_of_lt h.length_le hlt) fun htold m hm => htold m (h.subset hm)

theorem Sortable.of_perm (h : l.Perm l') (hl : policy.Sortable now l) : policy.Sortable now l' :=
  hl.imp (fun hlt => h.length_eq ▸ hlt) fun htold m hm => htold m (h.mem_iff.2 hm)

theorem sortable_of_perm (h : l.Perm l') : policy.Sortable now l ↔ policy.Sortable now l' :=
  ⟨.of_perm h, .of_perm h.symm⟩

/-- Machines that are in order and can be sorted are compared so. -/
theorem Ordered.compare (h : policy.Ordered now l) (hs : policy.Sortable now l) :
    l.Pairwise fun a b => policy.compare a b now = some .lt := by
  rcases hs with hshort | htold
  · match l, hshort with
    | [], _ => exact .nil
    | [m], _ => exact List.pairwise_singleton _ m
  · refine List.Pairwise.imp_of_mem (fun {a b} ha hb hab => ?_) h
    rw [compare_eq, if_pos ⟨htold a ha, htold b hb⟩, hab]

theorem prefers_eq (ha : policy.Told now a) (hb : policy.Told now b) :
    policy.prefers now a b = policy.ranksBefore now a b := by
  rw [prefers, compare_eq, if_pos ⟨ha, hb⟩, ranksBefore]
  cases policy.rank a b now with
  | lt => rfl
  | eq => rfl
  | gt => rfl

/-- Sorting looks at no more than how the machines of the list compare. -/
theorem mergeSort_prefers (h : policy.Sortable now l) :
    l.mergeSort (policy.prefers now) = policy.order now l := by
  rcases h with hshort | htold
  · match l, hshort with
    | [], _ => rw [order, List.mergeSort_nil, List.mergeSort_nil]
    | [m], _ => rw [order, List.mergeSort_singleton, List.mergeSort_singleton]
  · have hsame : ∀ a ∈ l, ∀ b ∈ l, policy.prefers now a b = policy.ranksBefore now (id a) (id b) :=
      fun a ha b hb => prefers_eq (htold a ha) (htold b hb)
    have hmap := List.map_mergeSort hsame
    rwa [List.map_id, List.map_id] at hmap

/-- **A list is sorted as its machines rank**, if they can be sorted. -/
theorem sort?_eq (policy : VictimPolicy) (now : Instant) (l : List Machine) :
    policy.sort? now l = if policy.Sortable now l then some (policy.order now l) else none := by
  have hiff : (l.length < 2 ∨ (l.all fun m => (policy.compare m m now).isSome) = true) ↔
      policy.Sortable now l := by
    simp only [List.all_eq_true, isSome_compare_self, Sortable]
  rw [sort?]
  by_cases h : policy.Sortable now l
  · rw [if_pos (hiff.2 h), if_pos h, mergeSort_prefers h]
  · rw [if_neg (mt hiff.1 h), if_neg h]

/-! ## Selection -/

theorem select_eq (queue : TerminationQueue) (candidates : List Machine) (count : Nat) :
    policy.select now queue candidates count =
      let free := candidates.filter fun m => !queue.contains m.id
      if policy.Sortable now free then some ((policy.order now free).take count) else none := by
  rw [select, sort?_eq]
  exact apply_ite (Option.map _) _ _ _

/-- **In whatever order candidates are listed, the same are selected.** -/
theorem select_of_perm (queue : TerminationQueue) {candidates candidates' : List Machine}
    (hl : (candidates.map Machine.id).Nodup) (h : candidates.Perm candidates') (count : Nat) :
    policy.select now queue candidates count = policy.select now queue candidates' count := by
  have hfree := h.filter fun m => !queue.contains m.id
  simp only [select_eq, sortable_of_perm hfree,
    order_of_perm ((List.filter_sublist.map Machine.id).nodup hl) hfree]

end VictimPolicy

end PoolKeeper
