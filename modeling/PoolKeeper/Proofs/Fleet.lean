import PoolKeeper.Proofs.Machines
import PoolKeeper.Proofs.Period
import PoolKeeper.Provider.Fleet

/-!
# Simulated providers do what they say

* `Cloud.Keyed`: machines are kept under their identifiers; every call keeps it;
* `Cloud.holds_launchUpTo`, `Cloud.not_holds_terminate`, `Cloud.not_holds_detach`: who was launched
  is there, and who was terminated or detached is not;
* **`Fleet.truthful`**: the drivers of simulated providers are truthful.
-/

namespace PoolKeeper

/-- Every machine is kept under its identifier. -/
def IdMap.Keyed (machines : IdMap Machine) : Prop := ∀ e ∈ machines.entries, e.2.id = e.1

instance (machines : IdMap Machine) : Decidable machines.Keyed :=
  inferInstanceAs (Decidable (∀ _ ∈ _, _))

namespace IdMap

variable {machines : IdMap Machine} {id : String} {m : Machine}

theorem Keyed.nodup_ids (h : machines.Keyed) : (machines.values.map Machine.id).Nodup := by
  have hkeys : machines.values.map Machine.id = machines.keys := by
    rw [values, keys, List.map_map]
    exact List.map_congr_left h
  rw [hkeys]
  exact machines.nodup_keys

theorem holds_values : Holds machines.values id ↔
    ∃ e ∈ machines.entries, e.2.id = id ∧ e.2.isAllocated = true := by
  constructor
  · rintro ⟨m, hm, h⟩
    obtain ⟨e, he, rfl⟩ := List.mem_map.1 hm
    exact ⟨e, he, h⟩
  · rintro ⟨e, he, h⟩
    exact ⟨e.2, List.mem_map_of_mem he, h⟩

end IdMap

namespace Cloud

variable {c : Cloud} {now : Instant} {id : String} {m : Machine}

/-- Machines are kept under their identifiers. -/
structure Keyed (c : Cloud) : Prop where
  machines : c.machines.Keyed
  unmanaged : c.unmanaged.Keyed

theorem Keyed.every (h : c.Keyed) : c.Every fun id m => m.id = id := ⟨h.machines, h.unmanaged⟩

theorem keyed_of_every (h : c.Every fun id m => m.id = id) : c.Keyed := ⟨h.machines, h.unmanaged⟩

theorem lasting_id : Lasting fun id m => m.id = id := fun hkin hid => hkin.id.trans hid

/-! ## Listing -/

theorem Keyed.list (h : c.Keyed) (now : Instant) : (c.list now).2.Keyed :=
  keyed_of_every (h.every.list lasting_id now)

/-- A list call answers with the machines that are there. -/
theorem listed {found : List Machine} (h : (c.list now).1 = .ok found) :
    found = (c.list now).2.machines.values := by
  rw [Cloud.list] at h ⊢
  simp only at h ⊢
  split at h
  · cases h
  · rename_i hname
    rw [if_neg hname]
    split at h
    · cases h
    · rename_i hfail
      rw [if_neg hfail]
      simp only at h
      split at h
      · cases h
      · cases h
        rfl

/-! ## Starting -/

theorem Keyed.launch (h : c.Keyed) (m : Machine) : (c.launch m).Keyed :=
  keyed_of_every ⟨h.every.machines.insert rfl, h.unmanaged⟩

theorem holds_launch (hc : c.Keyed) (hm : m.isAllocated = true)
    (h : Holds c.machines.values id ∨ m.id = id) : Holds (c.launch m).machines.values id := by
  rw [IdMap.holds_values] at h ⊢
  by_cases hid : m.id = id
  · exact ⟨(m.id, m), IdMap.mem_insert.2 (.inl rfl), hid, hm⟩
  · obtain ⟨e, he, rfl, halloc⟩ := h.resolve_right hid
    have hkey : e.1 ≠ m.id := fun heq => hid (heq.symm.trans (hc.machines e he).symm)
    exact ⟨e, IdMap.mem_insert.2 (.inr ⟨he, hkey⟩), rfl, halloc⟩

theorem holds_launchUpTo_of_holds (hc : c.Keyed) (h : Holds c.machines.values id) (count : Nat) :
    Holds (c.launchUpTo now count).2.2.machines.values id := by
  induction count generalizing c with
  | zero => exact h
  | succ n ih =>
    unfold launchUpTo
    split
    · exact h
    · exact ih (hc.launch _) (holds_launch hc rfl (.inl h))

theorem holds_launchUpTo (hc : c.Keyed) {count : Nat} (h : m ∈ (c.launchUpTo now count).1) :
    Holds (c.launchUpTo now count).2.2.machines.values m.id := by
  induction count generalizing c with
  | zero => cases h
  | succ n ih =>
    rw [launchUpTo] at h ⊢
    split at h
    · cases h
    · rename_i hroom
      rw [if_neg hroom]
      have hlaunched := hc.launch (c.nextMachine .pending now)
      rcases List.mem_cons.1 h with rfl | h
      · exact holds_launchUpTo_of_holds hlaunched (holds_launch hc rfl (.inr rfl)) n
      · exact ih hlaunched h

theorem Keyed.start (h : c.Keyed) (count : Nat) (now : Instant) : (c.start count now).2.Keyed :=
  keyed_of_every (h.every.start count fun _ _ => rfl)

theorem holds_start (hc : c.Keyed) {count : Nat} (h : m ∈ launchedBy (c.start count now).1) :
    Holds (c.start count now).2.machines.values m.id := by
  rw [start] at h ⊢
  split at h
  · cases h
  · rename_i hname
    rw [if_neg hname]
    split at h
    · cases h
    · rename_i hroom
      rw [if_neg hroom]
      simp only at h ⊢
      split at h
      · rename_i hall
        rw [if_pos hall]
        exact holds_launchUpTo hc h
      · rename_i hsome
        rw [if_neg hsome]
        exact holds_launchUpTo hc h

/-! ## Terminating -/

theorem Keyed.terminate (h : c.Keyed) (ids : List String) : (c.terminate ids).2.Keyed :=
  keyed_of_every (h.every.terminate lasting_id ids)

/-- Nobody under the identifier holds capacity. -/
def Vacant (machines : IdMap Machine) (id : String) : Prop :=
  ∀ e ∈ machines.entries, e.1 = id → e.2.isAllocated = false

theorem Vacant.not_holds {machines : IdMap Machine} (h : Vacant machines id)
    (hk : machines.Keyed) : ¬ Holds machines.values id := by
  rw [IdMap.holds_values]
  rintro ⟨e, he, hid, halloc⟩
  rw [h e he ((hk e he).symm.trans hid)] at halloc
  cases halloc

theorem Vacant.modify {machines : IdMap Machine} (h : Vacant machines id) (key : String) :
    Vacant (machines.modify key terminated) id := by
  intro e he hid
  obtain ⟨old, hold, hkey, hvalue⟩ := IdMap.mem_modify he
  rw [hvalue]
  split
  · rfl
  · exact h old hold (hkey ▸ hid)

theorem vacant_modify (machines : IdMap Machine) (id : String) :
    Vacant (machines.modify id terminated) id := by
  intro e he hid
  obtain ⟨old, hold, hkey, hvalue⟩ := IdMap.mem_modify he
  rw [hvalue, if_pos (hkey ▸ hid)]
  rfl

theorem vacant_foldl_terminated {machines : IdMap Machine} {ids : List String}
    (h : Vacant machines id ∨ id ∈ ids) :
    Vacant (ids.foldl (fun machines id => machines.modify id terminated) machines) id := by
  induction ids generalizing machines with
  | nil => exact h.resolve_right List.not_mem_nil
  | cons key rest ih =>
    refine ih ?_
    rcases h with h | h
    · exact .inl (h.modify key)
    · rcases List.mem_cons.1 h with rfl | h
      · exact .inl (vacant_modify machines id)
      · exact .inr h

theorem not_holds_terminate (hc : c.Keyed) {ids : List String}
    (h : id ∈ confirmedBy ids (c.terminate ids).1) :
    ¬ Holds (c.terminate ids).2.machines.values id := by
  rw [terminate] at h ⊢
  split at h
  · cases h
  · rename_i hname
    rw [if_neg hname]
    split at h
    · cases h
    · rename_i hfail
      rw [if_neg hfail]
      have hknown : id ∈ ids.filter c.machines.contains := by
        simp only at h
        split at h
        · rename_i hnone
          refine List.mem_filter.2 ⟨h, ?_⟩
          have hall := List.filter_eq_nil_iff.1 (List.isEmpty_iff.1 hnone) id h
          simpa using hall
        · exact h
      exact (vacant_foldl_terminated (.inr hknown)).not_holds
        (all_foldl_terminated hc.every.machines lasting_id _)

/-! ## Attaching and detaching -/

theorem Keyed.attach (h : c.Keyed) (id : String) : (c.attach id).2.Keyed :=
  keyed_of_every (h.every.attach id)

theorem Keyed.detach (h : c.Keyed) (id : String) : (c.detach id).2.Keyed :=
  keyed_of_every (h.every.detach id)

theorem not_holds_detach (hc : c.Keyed) (h : (c.detach id).1 = .ok ()) :
    ¬ Holds (c.detach id).2.machines.values id := by
  rw [detach] at h ⊢
  split at h
  · cases h
  · rename_i hname
    rw [if_neg hname]
    split at h
    · cases h
    · rw [IdMap.holds_values]
      rintro ⟨e, he, hid, _⟩
      obtain ⟨he, hne⟩ := IdMap.mem_erase.1 he
      exact hne ((hc.machines e he).symm.trans hid)

theorem Keyed.change (h : c.Keyed) (id : String) {f : Machine → Machine}
    (hf : ∀ m, Machine.Kin m (f m)) : (c.change id f).2.Keyed :=
  keyed_of_every (h.every.change lasting_id id hf)

end Cloud

namespace Fleet

variable {f : Fleet} {d : DriverId}

/-- The provider of a driver. -/
def cloud (d : DriverId) (f : Fleet) : Cloud := f.clouds.getD d {}

/-- The driver was made, and its provider keeps its machines under their identifiers. -/
structure Good (d : DriverId) (f : Fleet) : Prop where
  made : d < f.clouds.length
  keyed : (f.cloud d).Keyed

theorem cloud_call {α : Type} (h : d < f.clouds.length) (act : Cloud → α × Cloud) :
    (call d act f).2.cloud d = (act (f.cloud d)).2 := by
  simp only [cloud, call, List.getD_eq_getElem?_getD, List.getElem?_set_self h, Option.getD_some]

theorem Good.call {α : Type} (h : f.Good d) {act : Cloud → α × Cloud}
    (hact : (act (f.cloud d)).2.Keyed) : (call d act f).2.Good d where
  made := by
    have hmade := h.made
    simp only [Fleet.call, List.length_set]
    exact hmade
  keyed := by
    rw [cloud_call h.made]
    exact hact

theorem keeps (d : DriverId) : provider.Keeps d (Good d) where
  list h := h.call (h.keyed.list _)
  start h := h.call (h.keyed.start _ _)
  terminate h := h.call (h.keyed.terminate _)
  attach h := h.call (h.keyed.attach _)
  detach h := h.call (h.keyed.detach _)
  setService h := h.call (h.keyed.change _ fun _ => ⟨rfl, rfl⟩)
  setMembership h := h.call (h.keyed.change _ fun _ => ⟨rfl, rfl⟩)

/-- **The drivers of simulated providers are truthful.** -/
theorem truthful (d : DriverId) :
    provider.Truthful d (fun f => (f.cloud d).machines.values) (Good d) where
  keeps := keeps d
  distinct h := h.keyed.machines.nodup_ids
  listed h hok := by
    simp only [provider, cloud_call h.made]
    exact Cloud.listed hok
  started h hm := by
    simp only [provider, cloud_call h.made]
    exact Cloud.holds_start h.keyed hm
  terminated h hid := by
    simp only [provider, cloud_call h.made]
    exact Cloud.not_holds_terminate h.keyed hid
  detached h hok := by
    simp only [provider, cloud_call h.made]
    exact Cloud.not_holds_detach h.keyed hok

end Fleet

end PoolKeeper
