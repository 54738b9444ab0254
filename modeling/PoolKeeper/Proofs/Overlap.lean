import PoolKeeper.Proofs.Fleet

/-!
# No action is lost to a refresh

A snapshot is as old as the beginning of its list call, and an action is noted after it has taken
effect. So a snapshot that may miss an action is no younger than the note of it.

* `Period.Hidden`, `Period.Hidden.step`: every snapshot around that shows a machine whose end was
  noted is older than the note;
* `Period.Shown`, `Period.Shown.step`: the same for the start of a machine;
* **`Period.no_action_lost`**: every view shows what was done.
-/

namespace PoolKeeper

namespace Period

variable {σ : Type} {p : Provider σ} {a : Applied} {good : σ → Prop} {machines : σ → List Machine}
  {s t : Period σ} {snapshot : Pool} {id : String}

theorem While.invariant (hp : p.Truthful a.driver machines good) {holds inv : Period σ → Prop}
    (hstep : ∀ {s t}, s.Sound good → inv s → Step p a good s t → holds t → inv t)
    (hs : s.Sound good) (h : While p a good holds s t) (hi : inv s) : inv t ∧ t.Sound good := by
  induction h with
  | refl _ => exact ⟨hi, hs⟩
  | step _ hstep' ht ih => exact ⟨hstep ih.2 ih.1 hstep' ht, ih.2.step hp hstep'⟩

/-! ## Machines that are gone -/

/-- Every snapshot that shows the machine as allocated is no younger than what is remembered of its
end, and nobody says any more that it was started. -/
structure Hidden (id : String) (s : Period σ) : Prop where
  source : ∀ snapshot, s.Source snapshot →
    ¬ Holds snapshot.machines id ∨ s.controller.overlay.EndedSince id snapshot.takenAt
  started : id ∉ s.controller.overlay.startedIds
  pending : ∀ found, s.pending = some (.started found) → ∀ m ∈ found, m.id ≠ id

/-- A step that is not about the refresh and forgets nothing. -/
theorem Hidden.of_same (h : s.Hidden id) (hc : t.live.cache = s.live.cache)
    (hl : t.listing = s.listing) (ho : t.controller.overlay = s.controller.overlay)
    (hpending : ∀ found, t.pending = some (.started found) → ∀ m ∈ found, m.id ≠ id) :
    t.Hidden id where
  source snapshot hs := ho ▸ h.source snapshot (hs.of_eq (by rw [hc]) hl)
  started := ho ▸ h.started
  pending := hpending

theorem Hidden.view (hs : s.Sound good) (h : s.Hidden id)
    (hp : s.live.cache.snapshot = some snapshot) :
    Hidden id { s with controller := (s.controller.view snapshot).2 } where
  source other ho := by
    have ho : s.Source other := ho
    exact (h.source other ho).imp_right fun hended => hended.forget (hs.published_le hp ho)
  started hid := h.started (Overlay.startedIds_forget_subset hid)
  pending := h.pending

theorem Hidden.note (hs : s.Sound good) (h : s.Hidden id) : s.note.Hidden id := by
  unfold Period.note
  split
  · exact h
  · rename_i found hfound
    have hne := h.pending found hfound
    exact
      { source := fun snapshot ho => (h.source snapshot ho).imp_right fun he => he.recordStarted hne
        started := Overlay.notMem_startedIds_recordStarted h.started hne
        pending := fun _ hp => by cases hp }
  · exact
      { source := fun snapshot ho =>
          (h.source snapshot ho).imp_right fun he => he.recordTerminated (hs.source snapshot ho).2
        started := fun hid => h.started (Overlay.startedIds_recordTerminated_subset hid).1
        pending := fun _ hp => by cases hp }

/-- **As long as a machine is not there, it stays hidden.** -/
theorem Hidden.step (hp : p.Truthful a.driver machines good) (hs : s.Sound good)
    (h : s.Hidden id) (hstep : Step p a good s t) (haway : ¬ Holds (machines t.world.outside) id) :
    t.Hidden id := by
  cases hstep with
  | world world _ _ => exact h.of_same rfl rfl rfl h.pending
  | think controller ho => exact h.of_same rfl rfl ho h.pending
  | schedule live hc _ => exact h.of_same hc rfl rfl h.pending
  | view snapshot hsnapshot => exact h.view hs hsnapshot
  | start count _ =>
    refine h.of_same rfl rfl rfl fun found hfound m hm hid => ?_
    cases hfound
    exact haway (hid ▸ hp.started hs.good hm)
  | terminate ids _ => exact h.of_same rfl rfl rfl fun _ hfound => by cases hfound
  | detach i _ _ => exact h.of_same rfl rfl rfl fun _ hfound => by cases hfound
  | note => exact h.note hs
  | ignore => exact h.of_same rfl rfl rfl fun _ hfound => by cases hfound
  | begin _ _ =>
    exact ⟨fun snapshot ho => h.source snapshot (source_beginList ho), h.started, h.pending⟩
  | resume _ attempt _ _ _ =>
    exact ⟨fun snapshot ho => h.source snapshot (source_beginList ho), h.started, h.pending⟩
  | list call hl _ =>
    refine ⟨fun snapshot ho => ?_, h.started, h.pending⟩
    rcases source_list hp hs.good ho with ho | rfl
    · exact h.source snapshot (.inl ho)
    · exact .inl haway
  | reply call answer hl ha =>
    exact ⟨fun snapshot ho => h.source snapshot (source_reply hl ha ho), h.started, h.pending⟩

theorem hidden_note (hs : s.Sound good) {ids : List String} (hp : s.pending = some (.ended ids))
    (hid : id ∈ ids) : s.note.Hidden id := by
  simp only [Period.note, hp]
  exact
    { source := fun snapshot ho =>
        .inr (Overlay.endedSince_recordTerminated hid (hs.source snapshot ho).2)
      started := fun hmem => (Overlay.startedIds_recordTerminated_subset hmem).2 hid
      pending := fun _ hfound => by cases hfound }

theorem Hidden.not_isAllocated (hs : s.Sound good) (h : s.Hidden id)
    (hp : s.live.cache.snapshot = some snapshot) {m : Machine}
    (hm : m ∈ (s.controller.view snapshot).1.machines) (hid : m.id = id) :
    m.isAllocated = false := by
  have hview := h.view hs hp
  refine Overlay.not_isAllocated_overlay ?_ hview.started hm hid
  rcases hview.source snapshot (.inl hp) with hfree | hended
  · refine .inl fun x hx hxid => ?_
    by_contra halloc
    exact hfree ⟨x, hx, hxid, by simpa using halloc⟩
  · exact .inr hended.contains

/-! ## Machines that are there -/

/-- Every snapshot that does not list the machine is no younger than what is remembered of its
start, and nobody says any more that it was terminated. -/
structure Shown (id : String) (s : Period σ) : Prop where
  source : ∀ snapshot, s.Source snapshot →
    snapshot.contains id = true ∨ s.controller.overlay.StartedSince id snapshot.takenAt
  pending : ∀ ids, s.pending = some (.ended ids) → id ∉ ids

theorem Shown.of_same (h : s.Shown id) (hc : t.live.cache = s.live.cache)
    (hl : t.listing = s.listing) (ho : t.controller.overlay = s.controller.overlay)
    (hpending : ∀ ids, t.pending = some (.ended ids) → id ∉ ids) : t.Shown id where
  source snapshot hs := ho ▸ h.source snapshot (hs.of_eq (by rw [hc]) hl)
  pending := hpending

theorem Shown.view (hs : s.Sound good) (h : s.Shown id)
    (hp : s.live.cache.snapshot = some snapshot) :
    Shown id { s with controller := (s.controller.view snapshot).2 } where
  source other ho := by
    have ho : s.Source other := ho
    exact (h.source other ho).imp_right fun hstarted => hstarted.forget (hs.published_le hp ho)
  pending := h.pending

theorem Shown.note (hs : s.Sound good) (h : s.Shown id) : s.note.Shown id := by
  unfold Period.note
  split
  · exact h
  · exact
      { source := fun snapshot ho =>
          (h.source snapshot ho).imp_right fun he => he.recordStarted (hs.source snapshot ho).2
        pending := fun _ hp => by cases hp }
  · rename_i ids hids
    have hid := h.pending ids hids
    exact
      { source := fun snapshot ho =>
          (h.source snapshot ho).imp_right fun he => he.recordTerminated hid
        pending := fun _ hp => by cases hp }

theorem contains_of_holds {pool : Pool} (h : Holds pool.machines id) : pool.contains id = true := by
  obtain ⟨m, hm, hid, _⟩ := h
  exact Pool.contains_iff.2 ⟨m, hm, hid⟩

/-- **As long as a machine is there, it stays shown.** -/
theorem Shown.step (hp : p.Truthful a.driver machines good) (hs : s.Sound good)
    (h : s.Shown id) (hstep : Step p a good s t) (hthere : Holds (machines t.world.outside) id) :
    t.Shown id := by
  cases hstep with
  | world world _ _ => exact h.of_same rfl rfl rfl h.pending
  | think controller ho => exact h.of_same rfl rfl ho h.pending
  | schedule live hc _ => exact h.of_same hc rfl rfl h.pending
  | view snapshot hsnapshot => exact h.view hs hsnapshot
  | start count _ => exact h.of_same rfl rfl rfl fun _ hids => by cases hids
  | terminate ids _ =>
    refine h.of_same rfl rfl rfl fun confirmed hids hid => ?_
    cases hids
    exact hp.terminated hs.good hid hthere
  | detach i _ hok =>
    refine h.of_same rfl rfl rfl fun ended hids hid => ?_
    cases hids
    rw [List.mem_singleton] at hid
    subst hid
    exact hp.detached hs.good hok hthere
  | note => exact h.note hs
  | ignore => exact h.of_same rfl rfl rfl fun _ hids => by cases hids
  | begin _ _ => exact ⟨fun snapshot ho => h.source snapshot (source_beginList ho), h.pending⟩
  | resume _ attempt _ _ _ =>
    exact ⟨fun snapshot ho => h.source snapshot (source_beginList ho), h.pending⟩
  | list call hl _ =>
    refine ⟨fun snapshot ho => ?_, h.pending⟩
    rcases source_list hp hs.good ho with ho | rfl
    · exact h.source snapshot (.inl ho)
    · exact .inl (contains_of_holds hthere)
  | reply call answer hl ha =>
    exact ⟨fun snapshot ho => h.source snapshot (source_reply hl ha ho), h.pending⟩

theorem shown_note (hs : s.Sound good) {found : List Machine} {m : Machine}
    (hp : s.pending = some (.started found)) (hm : m ∈ found) : s.note.Shown m.id := by
  simp only [Period.note, hp]
  exact
    { source := fun snapshot ho =>
        .inr (Overlay.startedSince_recordStarted hm (hs.source snapshot ho).2)
      pending := fun _ hids => by cases hids }

theorem Shown.count_view (hs : s.Sound good) (h : s.Shown id)
    (hp : s.live.cache.snapshot = some snapshot) :
    ((s.controller.view snapshot).1.machines.map Machine.id).count id = 1 := by
  have hview := h.view hs hp
  refine Overlay.count_overlay (hs.source snapshot (.inl hp)).1 (hs.overlay.forget _) ?_
  exact (hview.source snapshot (.inl hp)).imp_right fun hstarted => hstarted.mem_startedIds

/-! ## Views -/

/-- **No action is lost to a refresh.** Once the controller has noted the end of a machine, no view
shows it as allocated as long as it is not in the pool again; once it has noted the start of a
machine, every view shows it exactly once as long as it is not terminated or detached. -/
theorem no_action_lost (hp : p.Truthful a.driver machines good) (h : Reachable p a good s) :
    (∀ ids id t snapshot, s.pending = some (.ended ids) → id ∈ ids →
      While p a good (fun u => ¬ Holds (machines u.world.outside) id) s.note t →
      t.live.cache.snapshot = some snapshot →
      ∀ m ∈ (t.controller.view snapshot).1.machines, m.id = id → m.isAllocated = false) ∧
    ∀ found m t snapshot, s.pending = some (.started found) → m ∈ found →
      While p a good (fun u => Holds (machines u.world.outside) m.id) s.note t →
      t.live.cache.snapshot = some snapshot →
      ((t.controller.view snapshot).1.machines.map Machine.id).count m.id = 1 := by
  have hs := h.sound hp
  constructor
  · intro ids id t snapshot hpending hid hrun hsnapshot m hm hmid
    obtain ⟨hhidden, ht⟩ := hrun.invariant hp
      (fun hs hi hstep haway => hi.step hp hs hstep haway) hs.note (hidden_note hs hpending hid)
    exact hhidden.not_isAllocated ht hsnapshot hm hmid
  · intro found m t snapshot hpending hm hrun hsnapshot
    obtain ⟨hshown, ht⟩ := hrun.invariant hp
      (fun hs hi hstep hthere => hi.step hp hs hstep hthere) hs.note (shown_note hs hpending hm)
    exact hshown.count_view ht hsnapshot

/-! ### A list call that begins before an action and returns after it -/

/-- The configuration of a pool of one simulated machine. -/
def single : Applied :=
  ⟨{ name := "web", driver := ⟨Cloud.kind, .array [.null, .nat 0, .nat 1]⟩ }, 0⟩

/-- The machine has been listed, and the call has not returned. -/
def listedEarly : Period Fleet :=
  let world : World Fleet :=
    { now := ⟨0, 0⟩
      outside := (Fleet.provider.configure 0 "web" single.config.driver ⟨0, 0⟩ (.new false)).2
      files := default }
  let idle : Period Fleet :=
    { controller := {}, live := .begin "web" ⟨0⟩ ⟨0⟩ none true world, world }
  (idle.beginList 1).list Fleet.provider single ⟨1, ⟨0, 0⟩, none⟩

/-- What the call has listed. -/
def listedMachines : List Machine :=
  [{ id := "web-0001", state := .running, launched := some ⟨0, 0⟩ }]

/-- The controller notes an action, and then the list call returns. -/
def returnedLate (s : Period Fleet) : Period Fleet :=
  s.note.reply single ⟨1, ⟨0, 0⟩, some (.ok listedMachines)⟩ (.ok listedMachines)

/-- Another machine has been started meanwhile. -/
def startedMeanwhile : Period Fleet :=
  listedEarly.did (Fleet.provider.start 0 1 ⟨0, 0⟩ listedEarly.world.outside).2
    (.started [{ id := "web-0002", state := .pending, launched := some ⟨0, 0⟩ }])

/-- The machine has been terminated meanwhile. -/
def terminatedMeanwhile : Period Fleet :=
  listedEarly.did (Fleet.provider.terminate 0 ["web-0001"] ⟨0, 0⟩ listedEarly.world.outside).2
    (.ended ["web-0001"])

theorem listedEarly_reachable : Reachable Fleet.provider single (Fleet.Good 0) listedEarly := by
  have hgood : (Fleet.provider.configure 0 "web" single.config.driver ⟨0, 0⟩ (.new false)).2.Good 0 :=
    ⟨by decide, by decide +kernel, by decide +kernel⟩
  refine .step (.step (.begins ⟨hgood, ?_, ?_, rfl, rfl⟩) (.begin rfl rfl)) (.list _ rfl rfl)
  · exact Overlay.distinct_empty
  · exact fun _ h => by cases h

theorem no_action_lost_returnedLate :
    ¬ Holds listedMachines "web-0002" ∧
      ((startedMeanwhile.returnedLate.controller.view ⟨listedMachines, ⟨0, 0⟩⟩).1.machines.map
        Machine.id).count "web-0002" = 1 ∧
      Holds listedMachines "web-0001" ∧
      ∀ m ∈ (terminatedMeanwhile.returnedLate.controller.view ⟨listedMachines, ⟨0, 0⟩⟩).1.machines,
        m.id = "web-0001" → m.isAllocated = false := by
  have hstarted : Reachable Fleet.provider single (Fleet.Good 0) startedMeanwhile :=
    listedEarly_reachable.step (.start 1 rfl)
  have hterminated : Reachable Fleet.provider single (Fleet.Good 0) terminatedMeanwhile :=
    listedEarly_reachable.step (.terminate ["web-0001"] rfl)
  have hthere : While Fleet.provider single (Fleet.Good 0)
      (fun u => Holds (u.world.outside.cloud 0).machines.values "web-0002")
      startedMeanwhile.note startedMeanwhile.returnedLate :=
    .step (.refl (by decide +kernel)) (.reply _ _ rfl rfl) (by decide +kernel)
  have haway : While Fleet.provider single (Fleet.Good 0)
      (fun u => ¬ Holds (u.world.outside.cloud 0).machines.values "web-0001")
      terminatedMeanwhile.note terminatedMeanwhile.returnedLate :=
    .step (.refl (by decide +kernel)) (.reply _ _ rfl rfl) (by decide +kernel)
  refine ⟨by decide, ?_, by decide, ?_⟩
  · exact (no_action_lost (Fleet.truthful 0) hstarted).2 _ _ _ _ rfl (List.mem_singleton_self _)
      hthere rfl
  · exact (no_action_lost (Fleet.truthful 0) hterminated).1 _ _ _ _ rfl (List.mem_singleton_self _)
      haway rfl

end Period

end PoolKeeper
