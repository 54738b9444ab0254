import PoolKeeper.Proofs.Launching

/-!
# What holds of every machine

The calls to a simulated provider move machines into the pool and out of it, and change their state
and status. What depends on nothing but the identifier and the launch of a machine goes on to hold.

* `IdMap.All`: something holds of every machine of a map, and how that is kept;
* `Machine.Kin`: machines with the same identifier and launch; `Cloud.kin_bootMachine`: time makes
  nothing else of a machine;
* `Cloud.Every`: something holds of every machine inside the pool and outside; `Cloud.Every.list`,
  `Cloud.Every.start`, `Cloud.Every.terminate` and others: every call keeps it.
-/

namespace PoolKeeper

/-- Something holds of every machine and the identifier that it is kept under. -/
def IdMap.All (machines : IdMap Machine) (P : String → Machine → Prop) : Prop :=
  ∀ e ∈ machines.entries, P e.1 e.2

namespace IdMap.All

variable {machines : IdMap Machine} {P : String → Machine → Prop} {id : String} {m : Machine}

theorem insert (h : machines.All P) (hm : P id m) : (machines.insert id m).All P := by
  intro e he
  rcases mem_insert.1 he with rfl | ⟨he, _⟩
  · exact hm
  · exact h e he

theorem erase (h : machines.All P) (id : String) : (machines.erase id).All P :=
  fun e he => h e (mem_erase.1 he).1

theorem map (h : machines.All P) {f : String → Machine → Machine}
    (hf : ∀ id m, P id m → P id (f id m)) : (machines.map f).All P := by
  intro e he
  obtain ⟨old, hold, rfl⟩ := List.mem_map.1 he
  exact hf _ _ (h old hold)

theorem modify (h : machines.All P) (id : String) {f : Machine → Machine}
    (hf : ∀ id m, P id m → P id (f m)) : (machines.modify id f).All P := by
  refine h.map fun key m hm => ?_
  split
  · exact hf key m hm
  · exact hm

theorem enroll (h : machines.All P) {ms : List Machine} (hms : ∀ m ∈ ms, P m.id m) :
    (machines.enroll ms).All P := by
  induction ms generalizing machines with
  | nil => exact h
  | cons m ms ih =>
    exact ih (h.insert (hms m List.mem_cons_self)) fun m' hm' =>
      hms m' (List.mem_cons_of_mem m hm')

theorem of_get? (h : machines.All P) (hm : machines.get? id = some m) : P id m :=
  h _ (get?_eq_some hm)

end IdMap.All

/-- Two machines have the same identifier and launch. -/
structure Machine.Kin (m m' : Machine) : Prop where
  id : m'.id = m.id
  launched : m'.launched = m.launched

theorem Machine.Kin.refl (m : Machine) : m.Kin m := ⟨rfl, rfl⟩

namespace Cloud

variable {c : Cloud} {now : Instant} {m : Machine} {P : String → Machine → Prop}

/-! ## Machines that boot -/

theorem kin_bootMachine {seconds : Nat} {m' : Machine} (h : bootMachine seconds now m = some m') :
    m.Kin m' := by
  rw [bootMachine] at h
  split at h
  · simp only at h
    split at h
    · cases h
    · cases h
      split
      · exact ⟨rfl, rfl⟩
      · exact .refl m
  · cases h
    exact .refl m

theorem kin_booted (seconds : Nat) (now : Instant) (m : Machine) :
    m.Kin ((bootMachine seconds now m).getD m) := by
  cases h : bootMachine seconds now m with
  | none => exact .refl m
  | some m' => exact kin_bootMachine h

/-! ## Calls -/

/-- Something holds of every machine, inside the pool and outside. -/
structure Every (P : String → Machine → Prop) (c : Cloud) : Prop where
  machines : c.machines.All P
  unmanaged : c.unmanaged.All P

/-- It depends on nothing but the identifier and the launch. -/
def Lasting (P : String → Machine → Prop) : Prop :=
  ∀ {id m m'}, Machine.Kin m m' → P id m → P id m'

theorem all_foldl_terminated {machines : IdMap Machine} (h : machines.All P) (hP : Lasting P)
    (ids : List String) :
    (ids.foldl (fun machines id => machines.modify id terminated) machines).All P := by
  induction ids generalizing machines with
  | nil => exact h
  | cons id rest ih => exact ih (h.modify id fun _ _ => hP ⟨rfl, rfl⟩)

namespace Every

theorem boot (h : c.Every P) (hP : Lasting P) (now : Instant) : (c.boot now).1.Every P := by
  have hbooted : ∀ id m, P id m → P id ((bootMachine c.settings.bootSeconds now m).getD m) :=
    fun _ m => hP (kin_booted _ now m)
  unfold Cloud.boot
  split
  · exact h
  · simp only
    split
    · exact ⟨h.machines.map hbooted, h.unmanaged⟩
    · refine ⟨h.machines.map fun id m hm => ?_, h.unmanaged⟩
      split
      · exact hbooted id m hm
      · exact hm

theorem list (h : c.Every P) (hP : Lasting P) (now : Instant) : (c.list now).2.Every P := by
  have hcounted : Every P { c with listCalls := c.listCalls + 1 } := ⟨h.machines, h.unmanaged⟩
  rw [Cloud.list]
  simp only
  split
  · exact hcounted
  · split
    · exact ⟨h.machines, h.unmanaged⟩
    · exact hcounted.boot hP now

theorem launchAll (h : c.Every P) (state : MachineState) (count : Nat)
    (hnew : ∀ m : Machine, m.launched = some now → P m.id m) :
    (c.launchAll (c.batch state now count)).Every P := by
  rw [launchAll_eq]
  exact ⟨h.machines.enroll fun m hm => hnew m (of_mem_batch hm).2, h.unmanaged⟩

theorem start (h : c.Every P) (count : Nat)
    (hnew : ∀ m : Machine, m.launched = some now → P m.id m) : (c.start count now).2.Every P := by
  obtain ⟨k, _, _, heq⟩ := launchUpTo_eq now count c
  rw [Cloud.start, heq]
  split
  · exact h
  · split
    · exact h
    · simp only
      split
      · exact h.launchAll .pending k hnew
      · exact h.launchAll .pending k hnew

theorem configure (h : c.Every P) (poolName : String) (settings : Json)
    (hnew : ∀ m : Machine, m.launched = some now → P m.id m) :
    (c.configure poolName settings now).2.Every P := by
  have hnamed : Every P { c with poolName := some poolName } := ⟨h.machines, h.unmanaged⟩
  unfold Cloud.configure
  split
  · exact h
  · rename_i accepted _
    simp only
    split
    · have hpopulated := hnamed.launchAll .running accepted.initialMachines hnew
      rw [populate_eq]
      exact ⟨hpopulated.machines, hpopulated.unmanaged⟩
    · exact ⟨h.machines, h.unmanaged⟩

theorem terminate (h : c.Every P) (hP : Lasting P) (ids : List String) :
    (c.terminate ids).2.Every P := by
  unfold Cloud.terminate
  split
  · exact h
  · split
    · exact ⟨h.machines, h.unmanaged⟩
    · exact ⟨all_foldl_terminated h.machines hP _, h.unmanaged⟩

theorem attach (h : c.Every P) (id : String) : (c.attach id).2.Every P := by
  unfold Cloud.attach
  split
  · exact h
  · split
    · exact h
    · rename_i m hm
      exact ⟨h.machines.insert (h.unmanaged.of_get? hm), h.unmanaged.erase id⟩

theorem detach (h : c.Every P) (id : String) : (c.detach id).2.Every P := by
  unfold Cloud.detach
  split
  · exact h
  · split
    · exact h
    · rename_i m hm
      exact ⟨h.machines.erase id, h.unmanaged.insert (h.machines.of_get? hm)⟩

theorem change (h : c.Every P) (hP : Lasting P) (id : String) {f : Machine → Machine}
    (hf : ∀ m, Machine.Kin m (f m)) : (c.change id f).2.Every P := by
  unfold Cloud.change
  split
  · exact h
  · split
    · exact ⟨h.machines.modify id fun _ m => hP (hf m), h.unmanaged⟩
    · exact h

theorem addUnmanaged (h : c.Every P) {m : Machine} (hm : P m.id m) :
    (c.addUnmanaged m).Every P :=
  ⟨h.machines, h.unmanaged.insert hm⟩

end Every

end Cloud

end PoolKeeper
