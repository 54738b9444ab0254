import PoolKeeper.Proofs.Launching

/-!
# Identifiers of machines

A simulated provider numbers the machines that it launches, and knows others that were registered
with it under any identifier.

* `Inventory`: the machines inside and outside the pool; `Inventory.Knows`, `Inventory.Has`,
  `Inventory.Apart`;
* `Cloud.Operation`: what the provider can be told; `Operation.handsOut`, `Operation.registers`: the
  identifiers that come in with it;
* `Inventory.Effect`, **`Cloud.effect_perform`**: all that an operation can do to the machines;
* `Inventory.Accounted`: every known identifier was registered or has a number that is used up;
  `Inventory.Accounted.knows_iff`: so only registered ones are ever handed out again;
* `Operation.Harmless`: nothing is overwritten; **`Cloud.harmless_iff`**: that is so just as long as
  no registered identifier is handed out, and **`Cloud.start_overwrites`**: it can be.
-/

namespace PoolKeeper

/-- The machines that a provider knows, and how many it has launched. -/
structure Inventory where
  machines : IdMap Machine
  unmanaged : IdMap Machine
  launches : Nat

namespace Inventory

/-- An identifier is known, inside the pool or outside. -/
def Knows (i : Inventory) (id : String) : Prop :=
  i.machines.contains id = true ∨ i.unmanaged.contains id = true

instance (i : Inventory) (id : String) : Decidable (i.Knows id) :=
  inferInstanceAs (Decidable (_ ∨ _))

/-- A machine is there as it stands, inside the pool or outside. -/
def Has (i : Inventory) (id : String) (m : Machine) : Prop :=
  i.machines.get? id = some m ∨ i.unmanaged.get? id = some m

/-- No identifier is both inside the pool and outside. -/
def Apart (i : Inventory) : Prop :=
  ∀ id, i.machines.contains id = true → i.unmanaged.contains id = false

end Inventory

namespace Cloud

/-- The machines that the provider knows. -/
def inventory (c : Cloud) : Inventory := ⟨c.machines, c.unmanaged, c.launches⟩

/-- What a simulated provider can be told. -/
inductive Operation where
  | configure (poolName : String) (settings : Json) (now : Instant)
  | register (m : Machine)
  | list (now : Instant)
  | start (count : Nat) (now : Instant)
  | terminate (ids : List String)
  | attach (id : String)
  | detach (id : String)
  | setService (id : String) (service : ServiceState)
  | setMembership (id : String) (membership : Membership)
  | failLists (count : Nat)
  | failTerminations (count : Nat)

namespace Operation

/-- The provider after an operation. -/
def perform (c : Cloud) : Operation → Cloud
  | configure poolName settings now => (c.configure poolName settings now).2
  | register m => c.addUnmanaged m
  | list now => (c.list now).2
  | start count now => (c.start count now).2
  | terminate ids => (c.terminate ids).2
  | attach id => (c.attach id).2
  | detach id => (c.detach id).2
  | setService id service => (c.setService id service).2
  | setMembership id membership => (c.setMembership id membership).2
  | failLists count => { c with listFailures := count }
  | failTerminations count => { c with terminateFailures := count }

/-- The identifiers of the machines that an operation launches: those that a start reports, and all
in the pool after the first configuration. -/
def handsOut (c : Cloud) : Operation → List String
  | configure poolName settings now =>
    if c.poolName.isNone then (c.configure poolName settings now).2.machines.keys else []
  | start count now => (launchedBy (c.start count now).1).map Machine.id
  | _ => []

/-- The identifiers that are registered from outside. -/
def registers : Operation → List String
  | register m => [m.id]
  | _ => []

/-- The operation is there to change machines where they are: time passes for them, or their state
or status is set. -/
def revises : Operation → Bool
  | list _ | terminate _ | setService _ _ | setMembership _ _ => true
  | _ => false

/-- Nothing is overwritten by an operation: no identifier is inside the pool and outside then, those
handed out were unknown, and every machine is still there, as it stood unless the operation is there
to change it. -/
structure Harmless (op : Operation) (c : Cloud) : Prop where
  apart : (op.perform c).inventory.Apart
  fresh : ∀ id ∈ op.handsOut c, ¬ c.inventory.Knows id
  kept : op.revises = false → ∀ id m, c.inventory.Has id m → (op.perform c).inventory.Has id m

end Operation

end Cloud

/-! ## Effects -/

namespace Inventory

/-- All that an operation can do to the machines inside and outside the pool, by whether it is there
to change them, and the identifiers that it hands out and registers. -/
inductive Effect (i : Inventory) : Bool → List String → List String → Inventory → Prop where
  | still (revises : Bool) : Effect i revises [] [] i
  | revised (machines : IdMap Machine) (hkeys : machines.keys = i.machines.keys) :
      Effect i true [] [] { i with machines }
  | launched (name : String) (ids : List String) (ms : List Machine)
      (hids : ∀ id, id ∈ ids ↔ id ∈ ms.map Machine.id)
      (hnumbered : ms.map Machine.id =
        (List.range' (i.launches + 1) ms.length).map (Cloud.machineId name)) :
      Effect i false ids []
        { i with machines := i.machines.enroll ms, launches := i.launches + ms.length }
  | registered (m : Machine) :
      Effect i false [] [m.id] { i with unmanaged := i.unmanaged.insert m.id m }
  | attached (id : String) (m : Machine) (hm : i.unmanaged.get? id = some m) :
      Effect i false [] []
        { i with machines := i.machines.insert id m, unmanaged := i.unmanaged.erase id }
  | detached (id : String) (m : Machine) (hm : i.machines.get? id = some m) :
      Effect i false [] []
        { i with machines := i.machines.erase id, unmanaged := i.unmanaged.insert id m }

variable {i i' : Inventory} {revises : Bool} {handed registered : List String} {id : String}
  {m : Machine}

theorem Effect.knows_iff (h : Effect i revises handed registered i') :
    i'.Knows id ↔ i.Knows id ∨ id ∈ handed ∨ id ∈ registered := by
  simp only [Knows]
  cases h with
  | still => simp
  | revised machines hkeys => simp only [← IdMap.mem_keys, hkeys, List.not_mem_nil, or_false]
  | launched name ids ms hids =>
    rw [IdMap.contains_enroll, ← hids]
    simp only [List.not_mem_nil, or_false]
    exact or_right_comm
  | registered m =>
    simp only [IdMap.contains_insert, Bool.or_eq_true, beq_iff_eq, List.not_mem_nil, false_or,
      List.mem_singleton]
    rw [or_comm (a := id = m.id), or_assoc]
  | attached key m hm =>
    -- the machine that moves was known, and is
    have hkey : i.unmanaged.contains key = true := by
      rw [IdMap.contains_eq, hm]
      rfl
    by_cases hid : id = key
    · simp [hid, hkey, IdMap.contains_insert]
    · simp [hid, IdMap.contains_insert, IdMap.contains_erase]
  | detached key m hm =>
    have hkey : i.machines.contains key = true := by
      rw [IdMap.contains_eq, hm]
      rfl
    by_cases hid : id = key
    · simp [hid, hkey, IdMap.contains_insert]
    · simp [hid, IdMap.contains_insert, IdMap.contains_erase]

theorem knows_of_has (h : i.Has id m) : i.Knows id := by
  rw [Knows, IdMap.contains_eq, IdMap.contains_eq]
  rcases h with h | h
  · exact .inl (by rw [h]; rfl)
  · exact .inr (by rw [h]; rfl)

theorem Effect.numbered (h : Effect i revises handed registered i') (hid : id ∈ handed) :
    ∃ name n, i.launches < n ∧ n ≤ i'.launches ∧ id = Cloud.machineId name n := by
  cases h with
  | launched name ids ms hids hnumbered =>
    rw [hids, hnumbered] at hid
    obtain ⟨n, hn, rfl⟩ := List.mem_map.1 hid
    obtain ⟨hlow, hhigh⟩ := List.mem_range'_1.1 hn
    exact ⟨name, n, by omega, by simp only; omega, rfl⟩
  | _ => cases hid

theorem Effect.launches_le (h : Effect i revises handed registered i') :
    i.launches ≤ i'.launches := by
  cases h with
  | launched => exact Nat.le_add_right _ _
  | _ => exact Nat.le_refl _

/-- Identifiers that come in unknown leave the others apart. -/
theorem Effect.apart (h : Effect i revises handed registered i') (hapart : i.Apart)
    (hhanded : ∀ id ∈ handed, ¬ i.Knows id) (hregistered : ∀ id ∈ registered, ¬ i.Knows id) :
    i'.Apart := by
  intro id hinside
  cases h with
  | still => exact hapart id hinside
  | revised machines hkeys =>
    simp only [← IdMap.mem_keys, hkeys] at hinside
    exact hapart id (IdMap.mem_keys.1 hinside)
  | launched name ids ms hids =>
    rcases IdMap.contains_enroll.1 hinside with hold | hnew
    · exact hapart id hold
    · exact Bool.eq_false_iff.2 fun hout => hhanded id ((hids id).2 hnew) (.inr hout)
  | registered m =>
    have hne : id ≠ m.id := by
      rintro rfl
      exact hregistered m.id List.mem_cons_self (.inl hinside)
    simpa [IdMap.contains_insert, hne] using hapart id hinside
  | attached key m hm =>
    by_cases hid : id = key
    · simp [hid, IdMap.contains_erase]
    · simp only [IdMap.contains_insert, beq_eq_false_iff_ne.2 hid, Bool.false_or] at hinside
      simp [IdMap.contains_erase, hapart id hinside]
  | detached key m hm =>
    simp only [IdMap.contains_erase, Bool.and_eq_true, bne_iff_ne] at hinside
    simp [IdMap.contains_insert, hinside.1, hapart id hinside.2]

theorem Apart.unique (h : i.Apart) {m' : Machine} (hm : i.Has id m) (hm' : i.Has id m') :
    m = m' := by
  have hdisjoint : ∀ m m' : Machine, i.machines.get? id = some m →
      i.unmanaged.get? id ≠ some m' := by
    intro m m' hin hout
    have hempty := h id (by rw [IdMap.contains_eq, hin]; rfl)
    rw [IdMap.contains_eq, hout] at hempty
    cases hempty
  rcases hm with hm | hm
  · exact Option.some.inj (hm.symm.trans (hm'.resolve_right (hdisjoint _ _ hm)))
  · exact Option.some.inj (hm.symm.trans (hm'.resolve_left fun hin => hdisjoint _ _ hin hm))

theorem Effect.has (h : Effect i revises handed registered i') (hapart : i.Apart)
    (hhanded : ∀ id ∈ handed, ¬ i.Knows id) (hregistered : ∀ id ∈ registered, ¬ i.Knows id)
    (hsame : revises = false) (hm : i.Has id m) : i'.Has id m := by
  cases h with
  | still => exact hm
  | revised => cases hsame
  | launched name ids ms hids =>
    have hnew : id ∉ ms.map Machine.id := fun hnew =>
      hhanded id ((hids id).2 hnew) (knows_of_has hm)
    rw [Has, IdMap.get?_enroll_of_notMem hnew]
    exact hm
  | registered m' =>
    have hnew : id ≠ m'.id := by
      rintro rfl
      exact hregistered m'.id List.mem_cons_self (knows_of_has hm)
    rw [Has, IdMap.get?_insert_of_ne hnew]
    exact hm
  | attached key moved hmoved =>
    by_cases hid : id = key
    · subst hid
      rw [hapart.unique hm (.inr hmoved)]
      exact .inl IdMap.get?_insert_self
    · rw [Has, IdMap.get?_insert_of_ne hid, IdMap.get?_erase_of_ne hid]
      exact hm
  | detached key moved hmoved =>
    by_cases hid : id = key
    · subst hid
      rw [hapart.unique hm (.inl hmoved)]
      exact .inr IdMap.get?_insert_self
    · rw [Has, IdMap.get?_erase_of_ne hid, IdMap.get?_insert_of_ne hid]
      exact hm

/-! ## Accounts -/

/-- Every identifier that is known was registered, or has a number that is used up; and those that
were registered are still known. -/
structure Accounted (i : Inventory) (ids : List String) : Prop where
  registered : ∀ id ∈ ids, i.Knows id
  numbered : ∀ id, i.Knows id →
    id ∈ ids ∨ ∃ name n, n ≤ i.launches ∧ id = Cloud.machineId name n

variable {ids : List String}

theorem Accounted.effect (h : i.Accounted ids) (he : Effect i revises handed registered i') :
    i'.Accounted (registered ++ ids) where
  registered id hid := by
    rw [he.knows_iff]
    rcases List.mem_append.1 hid with hid | hid
    · exact .inr (.inr hid)
    · exact .inl (h.registered id hid)
  numbered id hid := by
    rw [List.mem_append]
    rcases he.knows_iff.1 hid with hold | hhanded | hregistered
    · rcases h.numbered id hold with hid | ⟨name, n, hn, heq⟩
      · exact .inl (.inr hid)
      · exact .inr ⟨name, n, hn.trans he.launches_le, heq⟩
    · obtain ⟨name, n, _, hn, heq⟩ := he.numbered hhanded
      exact .inr ⟨name, n, hn, heq⟩
    · exact .inl (.inl hregistered)

/-- An identifier that is handed out is known before only if it was registered. -/
theorem Accounted.knows_iff (h : i.Accounted ids) (he : Effect i revises handed registered i')
    (hid : id ∈ handed) : i.Knows id ↔ id ∈ ids := by
  refine ⟨fun hknown => (h.numbered id hknown).resolve_right ?_, h.registered id⟩
  rintro ⟨name, n, hn, rfl⟩
  obtain ⟨name', n', hlow, _, heq⟩ := he.numbered hid
  have hsame : n = n' := (Cloud.machineId_inj.1 heq).2
  omega

end Inventory

/-! ## Operations -/

namespace Cloud

variable {c : Cloud} {now : Instant} {ids : List String} {id : String} {op : Operation}

open Inventory (Effect)

theorem effect_boot (c : Cloud) (now : Instant) :
    c.inventory.Effect true [] [] (c.boot now).1.inventory := by
  unfold boot
  split
  · exact .still true
  · simp only
    split
    · exact .revised _ (IdMap.keys_map _ _)
    · exact .revised _ (IdMap.keys_map _ _)

theorem effect_list (c : Cloud) (now : Instant) :
    c.inventory.Effect true [] [] (c.list now).2.inventory := by
  rw [list]
  simp only
  split
  · exact .still true
  · split
    · exact .still true
    · exact effect_boot { c with listCalls := c.listCalls + 1 } now

theorem keys_foldl_terminated (machines : IdMap Machine) (ids : List String) :
    (ids.foldl (fun machines id => machines.modify id terminated) machines).keys =
      machines.keys := by
  induction ids generalizing machines with
  | nil => rfl
  | cons id ids ih => rw [List.foldl_cons, ih, IdMap.keys_modify]

theorem effect_terminate (c : Cloud) (ids : List String) :
    c.inventory.Effect true [] [] (c.terminate ids).2.inventory := by
  rw [terminate]
  split
  · exact .still true
  · split
    · exact .still true
    · exact .revised _ (keys_foldl_terminated c.machines _)

theorem effect_change (c : Cloud) (id : String) (f : Machine → Machine) :
    c.inventory.Effect true [] [] (c.change id f).2.inventory := by
  rw [change]
  split
  · exact .still true
  · split
    · exact .revised _ (IdMap.keys_modify c.machines id f)
    · exact .still true

theorem effect_attach (c : Cloud) (id : String) :
    c.inventory.Effect false [] [] (c.attach id).2.inventory := by
  rw [attach]
  split
  · exact .still false
  · split
    · exact .still false
    · rename_i m hm
      exact .attached id m hm

theorem effect_detach (c : Cloud) (id : String) :
    c.inventory.Effect false [] [] (c.detach id).2.inventory := by
  rw [detach]
  split
  · exact .still false
  · split
    · exact .still false
    · rename_i m hm
      exact .detached id m hm

theorem effect_launchAll (c : Cloud) (state : MachineState) (now : Instant) (count : Nat)
    (h : ∀ id, id ∈ ids ↔ id ∈ (c.batch state now count).map Machine.id) :
    c.inventory.Effect false ids [] (c.launchAll (c.batch state now count)).inventory := by
  rw [launchAll_eq]
  refine .launched (c.poolName.getD "sim") ids _ h ?_
  rw [ids_batch, length_batch]
  rfl

theorem effect_start (c : Cloud) (count : Nat) (now : Instant) :
    c.inventory.Effect false ((launchedBy (c.start count now).1).map Machine.id) []
      (c.start count now).2.inventory := by
  by_cases hname : c.poolName.isSome = true
  · obtain ⟨k, hstarted, hafter, _⟩ := start_cases hname count now
    rw [hstarted, hafter]
    exact effect_launchAll c .pending now k fun id => Iff.rfl
  · rw [start, if_pos (by simpa [Option.isSome_iff_ne_none] using hname)]
    exact .still false

theorem effect_configure (hempty : c.poolName = none → c.machines.keys = []) (poolName : String)
    (settings : Json) (now : Instant) :
    c.inventory.Effect false ((Operation.configure poolName settings now).handsOut c) []
      (c.configure poolName settings now).2.inventory := by
  rw [Operation.handsOut, configure]
  cases CloudSettings.ofJson settings with
  | error e =>
    by_cases hname : c.poolName = none
    · simp only [hname, Option.isNone_none, if_true, hempty hname]
      exact .still false
    · simp only [Option.isNone_iff_eq_none, hname, if_false]
      exact .still false
  | ok settings =>
    by_cases hname : c.poolName = none
    · simp only [hname, Option.isNone_none, if_true, populate_eq]
      refine effect_launchAll { c with poolName := some poolName } .running now _ fun id => ?_
      rw [IdMap.mem_keys, launchAll_eq, IdMap.contains_enroll, ← IdMap.mem_keys]
      simp only [hempty hname, List.not_mem_nil, false_or]
    · simp only [Option.isNone_iff_eq_none, hname, if_false]
      exact .still false

/-- **All that an operation can do.** -/
theorem effect_perform (hempty : c.poolName = none → c.machines.keys = []) (op : Operation) :
    c.inventory.Effect op.revises (op.handsOut c) op.registers (op.perform c).inventory := by
  cases op with
  | configure poolName settings now => exact effect_configure hempty poolName settings now
  | register m => exact .registered m
  | list now => exact effect_list c now
  | start count now => exact effect_start c count now
  | terminate ids => exact effect_terminate c ids
  | attach id => exact effect_attach c id
  | detach id => exact effect_detach c id
  | setService id service => exact effect_change c id _
  | setMembership id membership => exact effect_change c id _
  | failLists count => exact .still false
  | failTerminations count => exact .still false

theorem poolName_boot (c : Cloud) (now : Instant) : (c.boot now).1.poolName = c.poolName := by
  unfold boot
  split
  · rfl
  · simp only
    split
    · rfl
    · rfl

theorem unnamed_of_named {c' : Cloud} (hname : ¬ c.poolName.isNone = true)
    (hsame : c'.poolName = c.poolName) (h : c'.poolName = none) :
    c.poolName = none ∧ c'.machines = c.machines :=
  absurd (by rw [← hsame, h]; rfl) hname

theorem unnamed_change {f : Machine → Machine} : (c.change id f).2.poolName = none →
    c.poolName = none ∧ (c.change id f).2.machines = c.machines := by
  rw [change]
  split
  · exact fun h => ⟨h, rfl⟩
  · rename_i hname
    split
    · exact unnamed_of_named hname rfl
    · exact unnamed_of_named hname rfl

/-- Only a configuration gives a pool its name, and before it there are no machines. -/
theorem unnamed_perform : (op.perform c).poolName = none →
    c.poolName = none ∧ (op.perform c).machines = c.machines := by
  cases op with
  | configure poolName settings now =>
    simp only [Operation.perform, configure]
    cases CloudSettings.ofJson settings with
    | error e => exact fun h => ⟨h, rfl⟩
    | ok settings =>
      simp only [populate_eq, launchAll_eq]
      split
      · exact fun h => nomatch h
      · exact fun h => nomatch h
  | register m => exact fun h => ⟨h, rfl⟩
  | list now =>
    simp only [Operation.perform, list]
    split
    · exact fun h => ⟨h, rfl⟩
    · rename_i hname
      split
      · exact unnamed_of_named hname rfl
      · exact unnamed_of_named hname (poolName_boot _ now)
  | start count now =>
    by_cases hname : c.poolName.isNone = true
    · rw [Operation.perform, start, if_pos hname]
      exact fun h => ⟨h, rfl⟩
    · obtain ⟨k, _, hafter, _⟩ :=
        start_cases (by simpa [Option.isSome_iff_ne_none] using hname) count now
      refine unnamed_of_named hname ?_
      rw [Operation.perform, hafter, launchAll_eq]
  | terminate ids =>
    simp only [Operation.perform, terminate]
    split
    · exact fun h => ⟨h, rfl⟩
    · rename_i hname
      split
      · exact unnamed_of_named hname rfl
      · exact unnamed_of_named hname rfl
  | attach id =>
    simp only [Operation.perform, attach]
    split
    · exact fun h => ⟨h, rfl⟩
    · rename_i hname
      split
      · exact unnamed_of_named hname rfl
      · exact unnamed_of_named hname rfl
  | detach id =>
    simp only [Operation.perform, detach]
    split
    · exact fun h => ⟨h, rfl⟩
    · rename_i hname
      split
      · exact unnamed_of_named hname rfl
      · exact unnamed_of_named hname rfl
  | setService id service => exact unnamed_change
  | setMembership id membership => exact unnamed_change
  | failLists count => exact fun h => ⟨h, rfl⟩
  | failTerminations count => exact fun h => ⟨h, rfl⟩

/-! ## Histories -/

namespace Operation

/-- Something holds of every operation of a history: of the provider before it, and of the
identifiers registered so far. -/
def AtEach (p : Cloud → List String → Operation → Prop) :
    Cloud → List String → List Operation → Prop
  | _, _, [] => True
  | c, ids, op :: rest => p c ids op ∧ AtEach p (op.perform c) (op.registers ++ ids) rest

instance AtEach.decidable (p : Cloud → List String → Operation → Prop)
    [∀ c ids op, Decidable (p c ids op)] :
    ∀ c ids history, Decidable (AtEach p c ids history)
  | _, _, [] => inferInstanceAs (Decidable True)
  | c, ids, op :: rest =>
    have : Decidable (AtEach p (op.perform c) (op.registers ++ ids) rest) :=
      AtEach.decidable p _ _ rest
    inferInstanceAs (Decidable (_ ∧ _))

/-- It holds of every operation from the beginning. -/
def Throughout (p : Cloud → List String → Operation → Prop) (history : List Operation) : Prop :=
  AtEach p {} [] history

instance (p : Cloud → List String → Operation → Prop) [∀ c ids op, Decidable (p c ids op)]
    (history : List Operation) : Decidable (Throughout p history) :=
  AtEach.decidable p _ _ history

/-- Only machines that are unknown are registered. -/
def RegistersUnknown (c : Cloud) (_ : List String) (op : Operation) : Prop :=
  ∀ id ∈ op.registers, ¬ c.inventory.Knows id

instance (c : Cloud) (ids : List String) (op : Operation) :
    Decidable (RegistersUnknown c ids op) :=
  inferInstanceAs (Decidable (∀ _ ∈ _, _))

/-- No identifier that was registered is handed out. -/
def AvoidsRegistered (c : Cloud) (ids : List String) (op : Operation) : Prop :=
  ∀ id ∈ op.handsOut c, id ∉ ids

instance (c : Cloud) (ids : List String) (op : Operation) :
    Decidable (AvoidsRegistered c ids op) :=
  inferInstanceAs (Decidable (∀ _ ∈ _, _))

end Operation

open Operation

/-- What holds of a provider at any time. -/
structure InOrder (c : Cloud) (ids : List String) : Prop where
  accounted : c.inventory.Accounted ids
  empty : c.poolName = none → c.machines.keys = []

theorem inOrder_new : InOrder {} [] where
  accounted :=
    { registered := fun _ hid => nomatch hid
      numbered := fun _ hknown => hknown.elim nofun nofun }
  empty _ := rfl

theorem InOrder.perform (h : c.InOrder ids) (op : Operation) :
    (op.perform c).InOrder (op.registers ++ ids) where
  accounted := h.accounted.effect (effect_perform h.empty op)
  empty hname := by
    obtain ⟨hname, hsame⟩ := unnamed_perform hname
    rw [hsame]
    exact h.empty hname

/-- An operation is harmless to machines that are apart if it hands out none that was registered,
and only then. -/
theorem InOrder.harmless_iff_avoids (h : c.InOrder ids) (hapart : c.inventory.Apart)
    (hunknown : RegistersUnknown c ids op) : op.Harmless c ↔ AvoidsRegistered c ids op := by
  have heffect := effect_perform h.empty op
  constructor
  · intro hharmless id hid hregistered
    exact hharmless.fresh id hid (h.accounted.registered id hregistered)
  · intro havoids
    have hfresh : ∀ id ∈ op.handsOut c, ¬ c.inventory.Knows id := fun id hid hknown =>
      havoids id hid ((h.accounted.knows_iff heffect hid).1 hknown)
    exact ⟨heffect.apart hapart hfresh hunknown, hfresh, fun hsame id m =>
      heffect.has hapart hfresh hunknown hsame⟩

theorem InOrder.atEach_knows (h : c.InOrder ids) (history : List Operation) :
    AtEach (fun c ids op => ∀ id ∈ op.handsOut c, c.inventory.Knows id ↔ id ∈ ids)
      c ids history := by
  induction history generalizing c ids with
  | nil => trivial
  | cons op rest ih =>
    exact ⟨fun id hid => h.accounted.knows_iff (effect_perform h.empty op) hid,
      ih (h.perform op)⟩

theorem InOrder.atEach_harmless_iff (h : c.InOrder ids) (hapart : c.inventory.Apart)
    {history : List Operation} (hunknown : AtEach RegistersUnknown c ids history) :
    AtEach (fun c _ op => op.Harmless c) c ids history ↔
      AtEach AvoidsRegistered c ids history := by
  induction history generalizing c ids with
  | nil => exact Iff.rfl
  | cons op rest ih =>
    obtain ⟨hop, hrest⟩ := hunknown
    rw [AtEach, AtEach, h.harmless_iff_avoids hapart hop]
    -- only while all are apart does the next operation come under the same law
    refine and_congr_right fun havoids => ih (h.perform op) ?_ hrest
    exact ((h.harmless_iff_avoids hapart hop).2 havoids).apart

/-- **When the provider overwrites nothing.** Machines are registered under unknown identifiers only.
Then an identifier that is handed out is known just if it was registered once; and no operation is
harmful just if none ever is. -/
theorem harmless_iff (history : List Operation) (h : Throughout RegistersUnknown history) :
    Throughout (fun c ids op => ∀ id ∈ op.handsOut c, c.inventory.Knows id ↔ id ∈ ids) history ∧
      (Throughout (fun c _ op => op.Harmless c) history ↔
        Throughout AvoidsRegistered history) :=
  ⟨inOrder_new.atEach_knows history, inOrder_new.atEach_harmless_iff (fun _ => nofun) h⟩

/-- A pool takes in a machine, is renamed and grows. -/
theorem harmless_iff_renamed :
    let legacy : Machine := { id := "i-legacy", state := .running, launched := some ⟨0, 0⟩ }
    let history : List Operation :=
      [.configure "web" (.object [("initial_machines", Json.nat 1)]) ⟨0, 0⟩, .register legacy,
        .attach "i-legacy", .configure "api" .null ⟨5, 0⟩, .start 2 ⟨9, 0⟩, .detach "web-0001"]
    Throughout RegistersUnknown history ∧ Throughout (fun c _ op => op.Harmless c) history := by
  intro legacy history
  have hunknown : Throughout RegistersUnknown history := by decide +kernel
  exact ⟨hunknown, (harmless_iff history hunknown).2.2 (by decide +kernel)⟩

/-- **A launch can overwrite a machine**: one is registered under an identifier that the provider
comes to hand out, and taken into the pool. The start reports it as launched, and what ran there is
gone. -/
theorem start_overwrites :
    let legacy : Machine :=
      { id := "web-0001", state := .running, membership := .keptAlways, launched := some ⟨0, 0⟩ }
    let history : List Operation :=
      [.configure "web" .null ⟨0, 0⟩, .register legacy, .attach "web-0001"]
    let c := history.foldl perform {}
    let start : Operation := .start 1 ⟨9, 0⟩
    Throughout RegistersUnknown (history ++ [start]) ∧ c.inventory.Has "web-0001" legacy ∧
      start.handsOut c = ["web-0001"] ∧
      ¬ (start.perform c).inventory.Has "web-0001" legacy ∧ ¬ start.Harmless c := by
  intro legacy history c start
  have hthere : c.inventory.Has "web-0001" legacy := .inl rfl
  have hpending : ((start.perform c).inventory.machines.get? "web-0001").map Machine.state =
      some .pending := by decide +kernel
  have hnowhere : (start.perform c).inventory.unmanaged.get? "web-0001" = none := rfl
  have hgone : ¬ (start.perform c).inventory.Has "web-0001" legacy := by
    rintro (h | h)
    · rw [h] at hpending
      cases hpending
    · rw [hnowhere] at h
      cases h
  exact ⟨by decide +kernel, hthere, by decide +kernel, hgone,
    fun h => hgone (h.kept rfl _ _ hthere)⟩

end Cloud

end PoolKeeper
