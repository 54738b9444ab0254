import Mathlib.Data.List.Nodup
import Mathlib.Data.List.TakeWhile
import PoolKeeper.Proofs.Digits
import PoolKeeper.Proofs.IdMap
import PoolKeeper.Provider.Cloud
import PoolKeeper.Provider.Trace

/-!
# Launching machines

A simulated provider launches machines one by one and counts, before each, those that hold capacity.

* `Cloud.machineId_inj`: an identifier tells the pool and the number;
* `IdMap.enroll`: machines put into a map under their identifiers, one after the other;
* `Cloud.batch`, `Cloud.launchAll`: machines with consecutive numbers, and a cloud that launches
  them; `Cloud.populate_eq`, **`Cloud.launchUpTo_eq`**: all launches are of that kind;
* `Cloud.allocatedCount_launch_le`, **`Cloud.allocatedCount_launchUpTo_le`**: how many machines hold
  capacity then;
* `Cloud.start_crashed_iff`: when a start breaks down; `Cloud.start_cases`,
  **`Cloud.start_within_quota`**: what a start answers and what it leaves.
-/

namespace PoolKeeper

/-! ## Machines under their identifiers -/

namespace IdMap

variable {machines : IdMap Machine} {ms : List Machine} {m : Machine} {id : String}

/-- The map with machines put in under their identifiers, one after the other. -/
def enroll (machines : IdMap Machine) (ms : List Machine) : IdMap Machine :=
  ms.foldl (fun machines m => machines.insert m.id m) machines

@[simp] theorem enroll_nil (machines : IdMap Machine) : machines.enroll [] = machines := rfl

@[simp] theorem enroll_cons (machines : IdMap Machine) (m : Machine) (ms : List Machine) :
    machines.enroll (m :: ms) = (machines.insert m.id m).enroll ms := rfl

theorem get?_enroll_of_notMem (h : id ∉ ms.map Machine.id) :
    (machines.enroll ms).get? id = machines.get? id := by
  induction ms generalizing machines with
  | nil => rfl
  | cons m ms ih =>
    rw [List.map_cons, List.mem_cons, not_or] at h
    rw [enroll_cons, ih h.2, get?_insert_of_ne h.1]

theorem get?_enroll_of_mem (hnodup : (ms.map Machine.id).Nodup) (h : m ∈ ms) :
    (machines.enroll ms).get? m.id = some m := by
  induction ms generalizing machines with
  | nil => cases h
  | cons first ms ih =>
    rw [List.map_cons, List.nodup_cons] at hnodup
    rw [enroll_cons]
    rcases List.mem_cons.1 h with rfl | h
    · rw [get?_enroll_of_notMem hnodup.1, get?_insert_self]
    · exact ih hnodup.2 h

theorem contains_enroll :
    (machines.enroll ms).contains id = true ↔
      machines.contains id = true ∨ id ∈ ms.map Machine.id := by
  induction ms generalizing machines with
  | nil => simp
  | cons m ms ih =>
    rw [enroll_cons, ih, contains_insert, Bool.or_eq_true, beq_iff_eq, List.map_cons,
      List.mem_cons, or_assoc, or_left_comm]

end IdMap

namespace Cloud

variable {c : Cloud} {now : Instant} {state : MachineState} {m : Machine} {ms : List Machine}

/-! ## Identifiers -/

/-- **An identifier tells the pool and the number**: the digits end at the last hyphen. -/
theorem machineId_inj {name name' : String} {n n' : Nat} :
    machineId name n = machineId name' n' ↔ name = name' ∧ n = n' := by
  refine ⟨fun h => ?_, fun h => by rw [h.1, h.2]⟩
  have hdigits : ∀ (name : String) (n : Nat),
      (machineId name n).toList.reverse.takeWhile Char.isDigit = (padded 4 n).toList.reverse := by
    intro name n
    have hall : ∀ c ∈ (padded 4 n).toList.reverse, c.isDigit = true := fun c hc =>
      padded_isDigit 4 n c (List.mem_reverse.1 hc)
    have hspelled : (machineId name n).toList.reverse =
        (padded 4 n).toList.reverse ++ '-' :: name.toList.reverse := by
      simp [machineId, String.toList_append]
    rw [hspelled, takeWhile_append_of_head (by simp), List.takeWhile_eq_self_iff.2 hall]
  have hnumber : (padded 4 n).toList = (padded 4 n').toList :=
    List.reverse_injective (by rw [← hdigits name n, h, hdigits name' n'])
  have hn : n = n' := by
    rw [← Instant.digitsValue_padded 4 n, hnumber, Instant.digitsValue_padded]
  subst hn
  rw [machineId, machineId, String.append_left_inj, String.append_left_inj] at h
  exact ⟨h, rfl⟩

/-! ## Batches -/

/-- The next machines to be launched. -/
def batch (c : Cloud) (state : MachineState) (now : Instant) (count : Nat) : List Machine :=
  (List.range' (c.launches + 1) count).map fun n =>
    { id := machineId (c.poolName.getD "sim") n, state, launched := some now }

/-- Launches machines one after the other. -/
def launchAll (c : Cloud) (ms : List Machine) : Cloud := ms.foldl launch c

theorem batch_succ (c : Cloud) (state : MachineState) (now : Instant) (count : Nat) :
    c.batch state now (count + 1) = c.nextMachine state now ::
      (c.launch (c.nextMachine state now)).batch state now count := by
  rw [batch, List.range'_succ]
  rfl

@[simp] theorem length_batch (c : Cloud) (state : MachineState) (now : Instant) (count : Nat) :
    (c.batch state now count).length = count := by
  rw [batch, List.length_map, List.length_range']

theorem ids_batch (c : Cloud) (state : MachineState) (now : Instant) (count : Nat) :
    (c.batch state now count).map Machine.id =
      (List.range' (c.launches + 1) count).map (machineId (c.poolName.getD "sim")) := by
  rw [batch, List.map_map]
  rfl

theorem nodup_ids_batch (c : Cloud) (state : MachineState) (now : Instant) (count : Nat) :
    ((c.batch state now count).map Machine.id).Nodup := by
  rw [ids_batch]
  exact (List.nodup_range' ..).map fun n n' h => (machineId_inj.1 h).2

theorem of_mem_batch {count : Nat} (h : m ∈ c.batch state now count) :
    m.state = state ∧ m.launched = some now := by
  obtain ⟨n, _, rfl⟩ := List.mem_map.1 h
  exact ⟨rfl, rfl⟩

theorem launchAll_eq (c : Cloud) (ms : List Machine) :
    c.launchAll ms =
      { c with launches := c.launches + ms.length, machines := c.machines.enroll ms } := by
  induction ms generalizing c with
  | nil => rfl
  | cons m ms ih =>
    have hcount : c.launches + 1 + ms.length = c.launches + (m :: ms).length := by
      rw [List.length_cons]
      omega
    show (c.launch m).launchAll ms = _
    rw [ih, launch, IdMap.enroll_cons, ← hcount]

theorem populate_eq (now : Instant) (count : Nat) (c : Cloud) :
    populate now count c = c.launchAll (c.batch .running now count) := by
  induction count generalizing c with
  | zero => rfl
  | succ n ih =>
    rw [populate, ih, batch_succ]
    rfl

/-- **A start launches the next machines, and fewer than asked for only if the quota is used up.** -/
theorem launchUpTo_eq (now : Instant) (count : Nat) (c : Cloud) :
    ∃ k ≤ count, (k < count → (c.launchAll (c.batch .pending now k)).isFull = true) ∧
      c.launchUpTo now count =
        (c.batch .pending now k, count - k, c.launchAll (c.batch .pending now k)) := by
  induction count generalizing c with
  | zero => exact ⟨0, Nat.le_refl 0, fun h => absurd h (Nat.lt_irrefl 0), rfl⟩
  | succ n ih =>
    by_cases hfull : c.isFull = true
    · refine ⟨0, Nat.zero_le _, fun _ => hfull, ?_⟩
      rw [launchUpTo, if_pos hfull]
      rfl
    · obtain ⟨k, hk, hrest, heq⟩ := ih (c.launch (c.nextMachine .pending now))
      refine ⟨k + 1, Nat.succ_le_succ hk, fun hlt => ?_, ?_⟩
      · rw [batch_succ]
        exact hrest (Nat.lt_of_succ_lt_succ hlt)
      · rw [launchUpTo, if_neg hfull, batch_succ]
        simp only [heq, Nat.add_sub_add_right]
        rfl

/-! ## Capacity -/

theorem countP_insertEntry_le (p : String × Machine → Bool) (key : String) (value : Machine)
    (entries : List (String × Machine)) :
    (IdMap.insertEntry key value entries).countP p ≤ entries.countP p + 1 := by
  induction entries with
  | nil => exact List.countP_le_length
  | cons e rest ih =>
    obtain ⟨k, v⟩ := e
    have hnew : [(key, value)].countP p ≤ 1 := List.countP_le_length
    rw [List.countP_cons, List.countP_nil] at hnew
    rw [IdMap.insertEntry]
    split
    · simp only [List.countP_cons]
      omega
    · split
      · simp only [List.countP_cons]
        omega
      · simp only [List.countP_cons]
        omega

theorem allocatedCount_eq (c : Cloud) :
    c.allocatedCount = c.machines.entries.countP fun e => e.2.isAllocated := by
  rw [allocatedCount, IdMap.values, ← List.countP_eq_length_filter, List.countP_map]
  rfl

/-- A launch adds at most one machine that holds capacity: none, if it takes the place of one. -/
theorem allocatedCount_launch_le (c : Cloud) (m : Machine) :
    (c.launch m).allocatedCount ≤ c.allocatedCount + 1 := by
  rw [allocatedCount_eq, allocatedCount_eq]
  exact countP_insertEntry_le _ m.id m c.machines.entries

/-- Launching stops at the quota: a pool that is above it does not grow. -/
theorem allocatedCount_launchUpTo_le {quota : Nat} (hquota : c.settings.quota = some quota)
    (count : Nat) : (c.launchUpTo now count).2.2.allocatedCount ≤ max quota c.allocatedCount := by
  induction count generalizing c with
  | zero => exact Nat.le_max_right _ _
  | succ n ih =>
    rw [launchUpTo]
    split
    · exact Nat.le_max_right _ _
    · rename_i hroom
      have hbelow : c.allocatedCount < quota := by
        rw [isFull, hquota, decide_eq_true_eq] at hroom
        exact Nat.lt_of_not_le hroom
      have hgrown := allocatedCount_launch_le c (c.nextMachine .pending now)
      exact (ih (c := c.launch (c.nextMachine .pending now)) hquota).trans (by omega)

theorem isFull_iff : c.isFull = true ↔ ∃ quota, c.settings.quota = some quota ∧
    quota ≤ c.allocatedCount := by
  rw [isFull]
  cases c.settings.quota with
  | none => simp
  | some quota => simp

/-! ## Starting -/

/-- **A start breaks down** exactly if a configured provider has no room for so many machines, and
then nothing has happened. -/
theorem start_crashed_iff : (c.start count now).1 = .error .crashed ↔
    c.poolName.isSome = true ∧ largestStart < count := by
  unfold start
  cases hname : c.poolName with
  | none => exact iff_of_false (fun h => by cases h) (fun h => by cases h.1)
  | some poolName =>
    rw [if_neg (by simp)]
    by_cases hcount : largestStart < count
    · rw [if_pos hcount]
      exact iff_of_true rfl ⟨rfl, hcount⟩
    · rw [if_neg hcount]
      refine iff_of_false (fun h => ?_) (fun h => hcount h.2)
      simp only at h
      split at h
      · cases h
      · cases h

theorem start_of_tooMany (hname : c.poolName.isSome = true) (hcount : largestStart < count) :
    c.start count now = (.error .crashed, c) := by
  rw [start, if_neg (by simpa [Option.isSome_iff_ne_none] using hname), if_pos hcount]

theorem start_snd (hname : c.poolName.isSome = true) (hcount : count ≤ largestStart) :
    (c.start count now).2 = (c.launchUpTo now count).2.2 := by
  rw [start, if_neg (by simpa [Option.isSome_iff_ne_none] using hname),
    if_neg (Nat.not_lt.2 hcount)]
  simp only
  split
  · rfl
  · rfl

/-- A start of a pool with a name launches the next machines. It answers with them if those are all,
and tells of the quota if they are fewer; it breaks down before the first if there is no room for so
many. -/
theorem start_cases (hname : c.poolName.isSome = true) (count : Nat) (now : Instant) :
    ∃ k, launchedBy (c.start count now).1 = c.batch .pending now k ∧
      (c.start count now).2 = c.launchAll (c.batch .pending now k) ∧
      (largestStart < count ∧ k = 0 ∨
        (c.start count now).1 = .ok (c.batch .pending now k) ∧ k = count ∨
        ∃ quota, c.settings.quota = some quota ∧ k < count ∧
          quota ≤ (c.launchAll (c.batch .pending now k)).allocatedCount ∧
          (c.start count now).1 = .error (.refused ⟨count, c.batch .pending now k,
            .capacityExceeded s!"quota of {quota} machines reached"⟩)) := by
  by_cases hmany : largestStart < count
  · rw [start_of_tooMany hname hmany]
    exact ⟨0, rfl, rfl, .inl ⟨hmany, rfl⟩⟩
  · obtain ⟨k, hk, hfull, heq⟩ := launchUpTo_eq now count c
    have hname' : ¬ c.poolName.isNone = true := by
      simpa [Option.isSome_iff_ne_none] using hname
    refine ⟨k, ?_⟩
    by_cases hall : count - k = 0
    · have hstart : c.start count now =
          (.ok (c.batch .pending now k), c.launchAll (c.batch .pending now k)) := by
        rw [start, if_neg hname', if_neg hmany, heq]
        simp only [if_pos hall]
      rw [hstart]
      exact ⟨rfl, rfl, .inr (.inl ⟨rfl, by omega⟩)⟩
    · have hfewer : k < count := by omega
      obtain ⟨quota, hquota, hreached⟩ := isFull_iff.1 (hfull hfewer)
      have hsame : c.settings.quota = some quota := by
        rw [launchAll_eq] at hquota
        exact hquota
      have hstart : c.start count now =
          (.error (.refused ⟨count, c.batch .pending now k,
            .capacityExceeded s!"quota of {quota} machines reached"⟩),
            c.launchAll (c.batch .pending now k)) := by
        rw [start, if_neg hname', if_neg hmany, heq]
        simp only [if_neg hall, hquota, Option.getD_some]
      rw [hstart]
      exact ⟨rfl, rfl, .inr (.inr ⟨quota, hsame, hfewer, hreached, rfl⟩)⟩

theorem allocatedCount_start_le (hname : c.poolName.isSome = true) {quota : Nat}
    (hquota : c.settings.quota = some quota) (count : Nat) (now : Instant) :
    (c.start count now).2.allocatedCount ≤ max quota c.allocatedCount := by
  by_cases hmany : largestStart < count
  · rw [start_of_tooMany hname hmany]
    exact Nat.le_max_right quota _
  · rw [start_snd hname (Nat.not_lt.1 hmany)]
    exact allocatedCount_launchUpTo_le hquota count

/-- **What a start answers, and what it leaves.** Of a pool with a name, it answers with all the
machines that were asked for, or it stops below that because the quota is used up. Those that it
reports have different identifiers and are in the pool, booting since now. Nothing else changes, and
no more machines hold capacity than the quota allows or held it before. A start breaks down, and
leaves the pool as it was, exactly if it has no room for so many machines; the quota is not looked
at then. -/
theorem start_within_quota (hname : c.poolName.isSome = true) (count : Nat) (now : Instant) :
    let answer := (c.start count now).1
    let after := (c.start count now).2
    let started := launchedBy answer
    (answer = .error .crashed ↔ largestStart < count) ∧
    (largestStart < count → started = [] ∧ after = c) ∧
    (count ≤ largestStart → (answer = .ok started ∧ started.length = count ∨
      ∃ quota, c.settings.quota = some quota ∧ started.length < count ∧
        quota ≤ after.allocatedCount ∧ answer = .error (.refused
          ⟨count, started, .capacityExceeded s!"quota of {quota} machines reached"⟩))) ∧
    (started.map Machine.id).Nodup ∧
    (∀ m ∈ started, m.state = .pending ∧ m.launched = some now ∧
      after.machines.get? m.id = some m) ∧
    (∀ id ∉ started.map Machine.id, after.machines.get? id = c.machines.get? id) ∧
    after = { c with launches := c.launches + started.length, machines := after.machines } ∧
    ∀ quota, c.settings.quota = some quota →
      after.allocatedCount ≤ max quota c.allocatedCount := by
  intro answer after started
  obtain ⟨k, hstarted, hafter, hanswer⟩ := start_cases hname count now
  have hlength : started.length = k := (congrArg List.length hstarted).trans (length_batch ..)
  have hleft : after = { c with
      launches := c.launches + started.length
      machines := c.machines.enroll started } := by
    rw [show after = _ from hafter, show started = _ from hstarted, launchAll_eq]
  have hnodup : (started.map Machine.id).Nodup := by
    rw [show started = _ from hstarted]
    exact nodup_ids_batch c .pending now k
  refine ⟨start_crashed_iff.trans (and_iff_right hname), fun hmany => ?_, fun hcount => ?_, hnodup,
    fun m hm => ?_, fun id hid => ?_, ?_, fun quota hquota => ?_⟩
  · have hstart : c.start count now = (.error .crashed, c) := start_of_tooMany hname hmany
    exact ⟨congrArg (fun x => launchedBy x.1) hstart, congrArg Prod.snd hstart⟩
  · rw [← hafter, ← hstarted, ← hlength] at hanswer
    exact hanswer.resolve_left fun hmany => absurd hmany.1 (Nat.not_lt.2 hcount)
  · rw [hleft, IdMap.get?_enroll_of_mem hnodup hm]
    rw [show started = _ from hstarted] at hm
    exact ⟨(of_mem_batch hm).1, (of_mem_batch hm).2, rfl⟩
  · rw [hleft, IdMap.get?_enroll_of_notMem hid]
  · rw [hleft]
  · exact allocatedCount_start_le hname hquota count now

/-- The identifier of the first machine was taken by one that ran already: two machines are launched,
though the pool had room for one. -/
theorem start_within_quota_idTaken :
    let c : Cloud :=
      { poolName := some "web"
        settings := { quota := some 2 }
        machines := IdMap.empty.insert "web-0001" { id := "web-0001", state := .running } }
    c.poolName.isSome = true ∧
      (launchedBy (c.start 4 ⟨0, 0⟩).1).map Machine.id = ["web-0001", "web-0002"] ∧
      (c.start 4 ⟨0, 0⟩).2.allocatedCount ≤ max 2 c.allocatedCount := by
  intro c
  exact ⟨rfl, by decide +kernel,
    (start_within_quota (c := c) rfl 4 ⟨0, 0⟩).2.2.2.2.2.2.2 2 rfl⟩

/-- There is room for one machine in an empty pool. Who asks for as many as a word counts gets no
machine and no answer. -/
theorem start_mostMachines :
    let c : Cloud := { poolName := some "web", settings := { quota := some 1 } }
    c.start 0xFFFF_FFFF_FFFF_FFFF ⟨0, 0⟩ = (.error .crashed, c) ∧ c.allocatedCount = 0 := by
  intro c
  exact ⟨rfl, rfl⟩

end Cloud

end PoolKeeper
