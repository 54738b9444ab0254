import PoolKeeper.Proofs.Requests
import PoolKeeper.Proofs.StaleCache

/-!
# How terminations leave the queue

* `Turn.mem_waiting_iff`, `Turn.mem_closing_iff`: who still waits at the end of a cycle;
* `Station.TakesTurn`: the cycle that a station goes through when it is asked for one;
* `Station.Step`, `Station.Runs`: what one controller does, as long as no snapshot lists a machine
  twice;
* `Departure`, `Station.Departs`: why a termination leaves the queue in a step;
* `Station.Accounted`: a termination stays as it is, or leaves for exactly one reason;
  **`Station.Step.accounted`**: so it is in every step;
* **`Station.kept_until_departure`**: so it is over any run, and nobody goes before their time.
-/

namespace PoolKeeper

/-! ## Cycles -/

namespace Turn

variable {σ : Type} (t : Turn σ) {e e' : Scheduled}

theorem eq_of_id_eq (hq : t.controller.queue.Distinct) (he : e ∈ t.controller.queue.entries)
    (he' : e' ∈ t.controller.queue.entries) (h : e'.id = e.id) : e' = e :=
  List.inj_on_of_nodup_map hq he' he h

theorem notMem_scheduled_of_queued (hv : t.view.Distinct) (he : e ∈ t.controller.queue.entries) :
    e.id ∉ t.scheduled.map Scheduled.id := by
  intro hid
  obtain ⟨new, hnew, heq⟩ := List.mem_map.1 hid
  have heff := (Planner.mem_eligible.1 (t.machine_mem_eligible hnew)).1
  have hpruned : e ∈ t.pruned.entries := (t.mem_pruned_iff hv he).2 ⟨new.machine, heff, heq⟩
  exact t.notMem_scheduled_of_pruned hpruned hid

theorem eq_of_mem_waiting (hv : t.view.Distinct) (hq : t.controller.queue.Distinct)
    (he : e ∈ t.controller.queue.entries) (he' : e' ∈ t.waiting.entries) (h : e'.id = e.id) :
    e' = e := by
  rcases t.mem_waiting he' with hold | hnew
  · exact t.eq_of_id_eq hq he hold h
  · exact absurd (List.mem_map.2 ⟨e', hnew, h⟩) (t.notMem_scheduled_of_queued hv he)

theorem mem_pruned_of_spared (hq : t.controller.queue.Distinct)
    (he : e ∈ t.controller.queue.entries)
    (h : e.id ∈ (t.pruned.spared t.toSpare).map Scheduled.id) : e ∈ t.pruned.entries := by
  obtain ⟨other, hother, hid⟩ := List.mem_map.1 h
  have hpruned : other ∈ t.pruned.entries :=
    (TerminationQueue.spared_append_spare _ _).subset (List.mem_append_left _ hother)
  exact t.eq_of_id_eq hq he (t.pruned_sublist.subset hpruned) hid ▸ hpruned

/-- **Who waited before still waits** unless dropped or spared. -/
theorem mem_waiting_iff (hv : t.view.Distinct) (hq : t.controller.queue.Distinct)
    (he : e ∈ t.controller.queue.entries) :
    e ∈ t.waiting.entries ↔
      (∃ m ∈ t.view.effective, m.id = e.id) ∧ e.id ∉ t.closing.report.spared := by
  rw [← t.mem_pruned_iff hv he, t.closing_report]
  constructor
  · intro h
    rcases TerminationQueue.mem_of_mem_insertAll h with hold | hnew
    · exact ⟨(TerminationQueue.spare_sublist _ _).subset hold,
        TerminationQueue.notMem_spared_of_mem_spare (hq.of_sublist t.pruned_sublist) hold⟩
    · exact absurd (List.mem_map_of_mem hnew) (t.notMem_scheduled_of_queued hv he)
  · rintro ⟨hpruned, hspared⟩
    exact t.mem_waiting_of_pruned hpruned hspared

/-- **Who waits goes on waiting** unless the driver confirms the end of the machine or does not
find it. -/
theorem mem_closing_iff (hq : t.controller.queue.Distinct) :
    e ∈ t.closing.controller.queue.entries ↔
      e ∈ t.waiting.entries ∧ e.id ∉ t.confirmed ∧ e.id ∉ t.missing := by
  rw [entries_closing hq, List.mem_filter]
  simp only [Bool.and_eq_true, Bool.not_eq_true', List.contains_eq_mem, decide_eq_false_iff_not]

/-- Who does not go on waiting is off the queue for good: nobody takes the place. -/
theorem notMem_ids_closing (hv : t.view.Distinct) (hq : t.controller.queue.Distinct)
    (he : e ∈ t.controller.queue.entries) (h : e ∉ t.closing.controller.queue.entries) :
    e.id ∉ t.closing.controller.queue.ids := by
  intro hid
  obtain ⟨e', he', heq⟩ := List.mem_map.1 hid
  have hsame := t.eq_of_mem_waiting hv hq he (t.closing_queue_sublist.subset he') heq
  exact h (hsame ▸ he')

end Turn

/-! ## Stations -/

/-- Why a termination leaves the queue. -/
inductive Departure where
  /-- A cycle calls it off. -/
  | spared
  /-- A cycle sees no machine with the identifier that counts. -/
  | dropped
  /-- In a cycle the driver confirms the end of the machine, or does not find it. -/
  | settled
  /-- The machine is terminated or taken out of the pool by request. -/
  | removed
  /-- A configuration for a pool of another name is put in force. -/
  | renamed
deriving DecidableEq, Repr

namespace Station

variable {σ : Type} {p : Provider σ} {s s' : Station σ} {e : Scheduled} {request : Option Request}

/-- The cycle that a station goes through when it is asked for one. -/
def TakesTurn (p : Provider σ) (s : Station σ) (t : Turn σ) : Prop :=
  ∃ a snapshot, s.WorksOn a ∧ s.Serves snapshot ∧ t = s.turn p a snapshot

/-- A snapshot that is served lists no machine twice. -/
def SeesDistinct (s : Station σ) : Prop := ∀ snapshot, s.Serves snapshot → snapshot.Distinct

/-- What a controller does, with the request that it answers if it answers one. Cycles in the
background are answers to a request for one; between two steps the ticker may move, the clock may
advance and everything else in the world may change. -/
inductive Step (p : Provider σ) : Option Request → Station σ → Station σ → Prop
  | respond (s : Station σ) (request : Request) : Step p (some request) s (s.respond p request).2
  | refreshDue (s : Station σ) : Step p none s (s.refreshDue p)
  | ticker {s : Station σ} {r : Running} (ticker : Ticker) : s.running = some r →
    Step p none s { s with running := some { r with ticker } }
  | world {s : Station σ} (world : World σ) : s.world.now ≤ world.now →
    Step p none s { s with world }

/-- Why a termination leaves the queue when a request is answered. One that is dropped or spared
waits no more when the driver is called. A cycle that breaks down only drops. -/
inductive Departs (p : Provider σ) (s : Station σ) (e : Scheduled) :
    Option Request → Departure → Prop
  | spared {t : Turn σ} : s.TakesTurn p t → t.GoesThrough → e.id ∈ t.closing.report.spared →
    Departs p s e (some .reconcile) .spared
  | dropped {t : Turn σ} : s.TakesTurn p t → (¬ ∃ m ∈ t.view.effective, m.id = e.id) →
    Departs p s e (some .reconcile) .dropped
  | settled {t : Turn σ} : s.TakesTurn p t → t.GoesThrough → e ∈ t.waiting.entries →
    e.id ∈ t.confirmed ∨ e.id ∈ t.missing → Departs p s e (some .reconcile) .settled
  | terminated {decrement : Bool} : (s.respond p (.terminate e.id decrement)).1 = .ok .done →
    Departs p s e (some (.terminate e.id decrement)) .removed
  | detached {decrement : Bool} : (s.respond p (.detach e.id decrement)).1 = .ok .done →
    Departs p s e (some (.detach e.id decrement)) .removed
  | renamed {config : PoolConfig} {a : Applied} {wasStarted : Bool} :
    s.controller.applied = some a → a.config.name ≠ config.name →
    (s.apply p config).1 = .ok wasStarted → Departs p s e (some (.configure config)) .renamed

/-- A termination stays as it is, or leaves for exactly one reason. -/
def Accounted (p : Provider σ) (e : Scheduled) (request : Option Request) (s s' : Station σ) :
    Prop :=
  (e ∈ s'.controller.queue.entries ∧ ∀ d, ¬ s.Departs p e request d) ∨
    (e.id ∉ s'.controller.queue.ids ∧ ∃! d, s.Departs p e request d)

/-- A run of one controller whose snapshots list no machine twice: the requests that it answers,
each with the station afterwards. -/
def Runs (p : Provider σ) : Station σ → List (Option Request × Station σ) → Prop
  | _, [] => True
  | s, (request, s') :: rest => s.SeesDistinct ∧ Step p request s s' ∧ s'.Runs p rest

/-- Along a run a termination waits until it leaves, and it leaves for exactly one reason. -/
def KeptUntilDeparture (p : Provider σ) (e : Scheduled) :
    Station σ → List (Option Request × Station σ) → Prop
  | s, [] => e ∈ s.controller.queue.entries
  | s, (request, s') :: rest =>
    e ∈ s.controller.queue.entries ∧
      ((∀ d, ¬ s.Departs p e request d) ∧ s'.KeptUntilDeparture p e rest ∨
        (∃! d, s.Departs p e request d) ∧ e.id ∉ s'.controller.queue.ids)

/-! ### Cycles -/

namespace TakesTurn

variable {t t' : Turn σ}

theorem unique (h : s.TakesTurn p t) (h' : s.TakesTurn p t') : t = t' := by
  obtain ⟨a, snapshot, ha, hs, rfl⟩ := h
  obtain ⟨a', snapshot', ha', hs', rfl⟩ := h'
  have happlied : some a = some a' := ha.applied.symm.trans ha'.applied
  cases happlied
  rw [hs.unique hs']

theorem controller_reconcile (h : s.TakesTurn p t) (hgoes : t.GoesThrough) :
    (s.reconcile p).2.controller = t.closing.controller := by
  obtain ⟨a, snapshot, ha, hs, rfl⟩ := h
  rw [reconcile_eq ha hs hgoes]

theorem queue_reconcile (h : s.TakesTurn p t) (hnot : ¬ t.GoesThrough) :
    (s.reconcile p).2.controller.queue = t.pruned := by
  obtain ⟨a, snapshot, ha, hs, rfl⟩ := h
  rw [reconcile_of_not_goesThrough ha hs hnot]
  rfl

theorem calls_eq (h : s.TakesTurn p t) : s.cycleCalls p = t.calls := by
  obtain ⟨a, snapshot, ha, hs, rfl⟩ := h
  exact cycleCalls_eq ha hs

theorem queue_eq (h : s.TakesTurn p t) : t.controller.queue = s.controller.queue := by
  obtain ⟨a, snapshot, _, _, rfl⟩ := h
  rfl

theorem now_eq (h : s.TakesTurn p t) : t.now = s.world.now := by
  obtain ⟨a, snapshot, _, _, rfl⟩ := h
  rfl

theorem distinct_view (h : s.TakesTurn p t) (hs : s.Sound) (hd : s.SeesDistinct) :
    t.view.Distinct := by
  obtain ⟨a, snapshot, _, hserves, rfl⟩ := h
  exact Overlay.distinct_overlay (hd snapshot hserves) (hs.controller.overlay.forget _)

end TakesTurn

/-- A station goes through a cycle, or gives an error and the queue is as it was. -/
theorem takesTurn_cases (p : Provider σ) (h : s.Sound) :
    (∃ t, s.TakesTurn p t) ∨
      (∀ t, ¬ s.TakesTurn p t) ∧ (s.reconcile p).2.controller.queue = s.controller.queue := by
  rcases view_cases s with ⟨snapshot, hs, _⟩ | ⟨e, heq⟩
  · obtain ⟨a, ha⟩ := h.serving hs
    exact .inl ⟨_, a, snapshot, ha, hs, rfl⟩
  · refine .inr ⟨?_, ?_⟩
    · rintro t ⟨a, snapshot, _, hs, _⟩
      rw [hs.view_eq] at heq
      cases heq
    · unfold reconcile
      split
      · rfl
      · split
        · rfl
        · rw [heq]

/-! ### Why a termination leaves -/

theorem departs_reconcile {t : Turn σ} {d : Departure} (ht : s.TakesTurn p t) :
    s.Departs p e (some .reconcile) d ↔
      d = .spared ∧ t.GoesThrough ∧ e.id ∈ t.closing.report.spared ∨
        d = .dropped ∧ (¬ ∃ m ∈ t.view.effective, m.id = e.id) ∨
          d = .settled ∧ t.GoesThrough ∧ e ∈ t.waiting.entries ∧
            (e.id ∈ t.confirmed ∨ e.id ∈ t.missing) := by
  constructor
  · rintro (⟨ht', hgoes, h⟩ | ⟨ht', h⟩ | ⟨ht', hgoes, hw, h⟩)
    · exact .inl ⟨rfl, ht.unique ht' ▸ ⟨hgoes, h⟩⟩
    · exact .inr (.inl ⟨rfl, ht.unique ht' ▸ h⟩)
    · exact .inr (.inr ⟨rfl, ht.unique ht' ▸ ⟨hgoes, hw, h⟩⟩)
  · rintro (⟨rfl, hgoes, h⟩ | ⟨rfl, h⟩ | ⟨rfl, hgoes, hw, h⟩)
    · exact .spared ht hgoes h
    · exact .dropped ht h
    · exact .settled ht hgoes hw h

theorem departs_removal {r : Request} {id : String} {decrement : Bool} {d : Departure}
    (h : r = .terminate id decrement ∨ r = .detach id decrement) :
    s.Departs p e (some r) d ↔ d = .removed ∧ id = e.id ∧ (s.respond p r).1 = .ok .done := by
  constructor
  · intro hd
    rcases h with rfl | rfl
    · cases hd with
      | terminated hok => exact ⟨rfl, rfl, hok⟩
    · cases hd with
      | detached hok => exact ⟨rfl, rfl, hok⟩
  · rintro ⟨rfl, rfl, hok⟩
    rcases h with rfl | rfl
    · exact .terminated hok
    · exact .detached hok

theorem departs_configure {config : PoolConfig} {d : Departure} :
    s.Departs p e (some (.configure config)) d ↔
      d = .renamed ∧ (∃ a, s.controller.applied = some a ∧ a.config.name ≠ config.name) ∧
        ∃ wasStarted, (s.apply p config).1 = .ok wasStarted := by
  constructor
  · intro hd
    cases hd with
    | renamed ha hname hok => exact ⟨rfl, ⟨_, ha, hname⟩, _, hok⟩
  · rintro ⟨rfl, ⟨_, ha, hname⟩, _, hok⟩
    exact .renamed ha hname hok

/-! ### Steps -/

theorem Step.reachable (hs : Step p request s s') (h : s.Reachable p) : s'.Reachable p := by
  cases hs with
  | respond _ request => exact h.respond request
  | refreshDue _ => exact h.refreshDue
  | ticker ticker hr => exact h.ticker ticker hr
  | world world hle => exact h.world world hle

theorem accounted_of_queue_eq (he : e ∈ s.controller.queue.entries)
    (hq : s'.controller.queue = s.controller.queue) (hd : ∀ d, ¬ s.Departs p e request d) :
    s.Accounted p e request s' :=
  .inl ⟨hq ▸ he, hd⟩

/-- A cycle that breaks down only drops terminations of machines that no longer count. -/
theorem accounted_of_not_goesThrough {t : Turn σ} (ht : s.TakesTurn p t) (hnot : ¬ t.GoesThrough)
    (hv : t.view.Distinct) (hq : t.controller.queue.Distinct)
    (he : e ∈ t.controller.queue.entries) : s.Accounted p e (some .reconcile) (s.reconcile p).2 := by
  have hpruned := t.mem_pruned_iff hv he
  simp only [Accounted, ht.queue_reconcile hnot, departs_reconcile ht, hnot, false_and, and_false,
    false_or, or_false]
  by_cases hcounts : ∃ m ∈ t.view.effective, m.id = e.id
  · exact .inl ⟨hpruned.2 hcounts, fun d hd => hd.2 hcounts⟩
  · refine .inr ⟨fun hid => ?_, .dropped, ⟨rfl, hcounts⟩, fun d hd => hd.1⟩
    obtain ⟨e', he', heq⟩ := List.mem_map.1 hid
    have hsame : e' = e := t.eq_of_id_eq hq he (t.pruned_sublist.subset he') heq
    exact hcounts (hpruned.1 (hsame ▸ he'))

theorem accounted_reconcile (h : s.Sound) (hd : s.SeesDistinct)
    (he : e ∈ s.controller.queue.entries) :
    s.Accounted p e (some .reconcile) (s.reconcile p).2 := by
  rcases takesTurn_cases p h with ⟨t, ht⟩ | ⟨hnone, hqueue⟩
  · have hv := ht.distinct_view h hd
    have hq : t.controller.queue.Distinct := ht.queue_eq ▸ h.controller.queue
    have he' : e ∈ t.controller.queue.entries := ht.queue_eq ▸ he
    by_cases hgoes : t.GoesThrough
    swap
    · exact accounted_of_not_goesThrough ht hgoes hv hq he'
    have hwaits := t.mem_waiting_iff hv hq he'
    have hcloses := t.mem_closing_iff (e := e) hq
    simp only [Accounted, ht.controller_reconcile hgoes, departs_reconcile ht, hgoes, true_and]
    by_cases hcounts : ∃ m ∈ t.view.effective, m.id = e.id
    · by_cases hspared : e.id ∈ t.closing.report.spared
      · have hout : e ∉ t.waiting.entries := fun hw => (hwaits.1 hw).2 hspared
        refine .inr ⟨t.notMem_ids_closing hv hq he' fun hc => hout (hcloses.1 hc).1, .spared, ?_⟩
        simp [hspared, hcounts, hout]
      · have hw : e ∈ t.waiting.entries := hwaits.2 ⟨hcounts, hspared⟩
        by_cases hsettled : e.id ∈ t.confirmed ∨ e.id ∈ t.missing
        · refine .inr ⟨t.notMem_ids_closing hv hq he' fun hc => ?_, .settled, ?_⟩
          · obtain ⟨_, hconfirmed, hmissing⟩ := hcloses.1 hc
            exact hsettled.elim hconfirmed hmissing
          · simp [hspared, hcounts, hw, hsettled]
        · refine .inl ⟨hcloses.2 ⟨hw, not_or.1 hsettled⟩, fun d => ?_⟩
          simp [hspared, hcounts, hsettled]
    · have hspared : e.id ∉ t.closing.report.spared := by
        intro hspared
        rw [t.closing_report] at hspared
        exact hcounts ((t.mem_pruned_iff hv he').1 (t.mem_pruned_of_spared hq he' hspared))
      have hout : e ∉ t.waiting.entries := fun hw => hcounts (hwaits.1 hw).1
      refine .inr ⟨t.notMem_ids_closing hv hq he' fun hc => hout (hcloses.1 hc).1, .dropped, ?_⟩
      simp [hspared, hcounts, hout]
  · refine accounted_of_queue_eq he hqueue ?_
    rintro _ (⟨ht, _, _⟩ | ⟨ht, _⟩ | ⟨ht, _, _⟩)
    · exact hnone _ ht
    · exact hnone _ ht
    · exact hnone _ ht

theorem accounted_removal (h : s.Sound) (he : e ∈ s.controller.queue.entries) {r : Request}
    {id : String} {decrement : Bool}
    (hr : r = .terminate id decrement ∨ r = .detach id decrement) :
    s.Accounted p e (some r) (s.respond p r).2 := by
  simp only [Accounted, departs_removal hr]
  rcases removal_cases p s hr with ⟨snapshot, _, _, hok, hc⟩ | ⟨_, herror, hqueue⟩
  · have hentries : (s.respond p r).2.controller.queue.entries =
        s.controller.queue.entries.filter fun e => e.id != id := by
      rw [hc]
      exact TerminationQueue.entries_erase h.controller.queue id
    by_cases hid : id = e.id
    · refine .inr ⟨?_, .removed, ?_⟩
      · intro hmem
        obtain ⟨e', he', heq⟩ := List.mem_map.1 hmem
        rw [hentries, List.mem_filter, bne_iff_ne] at he'
        exact he'.2 (heq.trans hid.symm)
      · simp [hid, hok]
    · refine .inl ⟨?_, fun d => ?_⟩
      · rw [hentries, List.mem_filter, bne_iff_ne]
        exact ⟨he, fun heq => hid heq.symm⟩
      · simp [hid]
  · refine .inl ⟨hqueue ▸ he, fun d => ?_⟩
    simp [herror]

theorem accounted_configure (he : e ∈ s.controller.queue.entries) (config : PoolConfig) :
    s.Accounted p e (some (.configure config)) (s.configure p config).2 := by
  simp only [Accounted, departs_configure, queue_configure]
  rcases apply_cases p s config with ⟨wasStarted, hok, hqueue⟩ | ⟨_, herror, hqueue⟩
  · rw [hqueue, Controller.forgetOther]
    cases ha : s.controller.applied with
    | none => exact .inl ⟨he, by simp⟩
    | some a =>
      by_cases hname : a.config.name = config.name
      · simp only [if_pos hname]
        exact .inl ⟨he, by simp [hname]⟩
      · simp only [if_neg hname]
        exact .inr ⟨List.not_mem_nil, .renamed, by simp [hname, hok]⟩
  · exact .inl ⟨hqueue ▸ he, by simp [herror]⟩

/-- **In a step** a termination stays as it is, or leaves for exactly one reason. -/
theorem Step.accounted (h : s.Sound) (hd : s.SeesDistinct) (he : e ∈ s.controller.queue.entries)
    (hs : Step p request s s') : s.Accounted p e request s' := by
  have hquiet : ∀ {r : Request}, (s.respond p r).2.controller.queue = s.controller.queue →
      (∀ d, ¬ s.Departs p e (some r) d) → s.Accounted p e (some r) (s.respond p r).2 :=
    fun hq => accounted_of_queue_eq he hq
  cases hs with
  | refreshDue _ =>
    exact accounted_of_queue_eq he (by rw [controller_refreshDue]) fun d hd => by cases hd
  | ticker _ _ => exact accounted_of_queue_eq he rfl fun d hd => by cases hd
  | world _ _ => exact accounted_of_queue_eq he rfl fun d hd => by cases hd
  | respond _ r =>
    cases r with
    | reconcile => exact accounted_reconcile h hd he
    | configure config => exact accounted_configure he config
    | terminate id decrement => exact accounted_removal h he (.inl rfl)
    | detach id decrement => exact accounted_removal h he (.inr rfl)
    | _ =>
      exact hquiet (queue_respond p s (by simp) (by simp) (by simp) (by simp)) fun d hd => by
        cases hd

/-! ### Runs -/

theorem Runs.keptUntilDeparture {steps : List (Option Request × Station σ)} (h : s.Reachable p)
    (hrun : s.Runs p steps) (he : e ∈ s.controller.queue.entries) :
    s.KeptUntilDeparture p e steps := by
  induction steps generalizing s with
  | nil => exact he
  | cons step rest ih =>
    obtain ⟨request, s'⟩ := step
    obtain ⟨hd, hs, hrest⟩ := hrun
    refine ⟨he, ?_⟩
    rcases hs.accounted h.sound hd he with ⟨hstays, hnone⟩ | ⟨hgone, hone⟩
    · exact .inl ⟨hnone, ih (hs.reachable h) hrest hstays⟩
    · exact .inr ⟨hone, hgone⟩

theorem TakesTurn.condemned {t : Turn σ} (ht : s.TakesTurn p t) (h : s.Sound) {id : String}
    (hid : id ∈ (s.cycleCalls p).flatMap Call.condemned) :
    (∃ m ∈ t.view.effective, m.id = id) ∧
      ∃ e ∈ t.waiting.entries, e.id = id ∧ e.time ≤ s.world.now := by
  rw [ht.calls_eq] at hid
  obtain ⟨e, he, hdue, rfl⟩ := t.mem_due.1 (t.mem_due_of_condemned hid).2
  have hq : t.controller.queue.Distinct := ht.queue_eq ▸ h.controller.queue
  have hcounts := (Turn.replanner_pruned hq).effective e.id (TerminationQueue.id_mem_ids he)
  refine ⟨hcounts, e, he, rfl, ?_⟩
  rw [← ht.now_eq]
  simpa [Scheduled.isDue] using hdue

/-- **Terminations are neither lost nor moved nor executed early.** Over any run a termination waits
until it leaves for exactly one reason. Whom a cycle terminates counts in its view and waits for a
time that has come; who is neither confirmed nor missing goes on waiting, unless the cycle breaks
down. -/
theorem kept_until_departure (h : s.Reachable p) :
    (∀ steps, s.Runs p steps → ∀ e ∈ s.controller.queue.entries,
      s.KeptUntilDeparture p e steps) ∧
    ∀ t, s.TakesTurn p t →
      (∀ id ∈ (s.cycleCalls p).flatMap Call.condemned,
        (∃ m ∈ t.view.effective, m.id = id) ∧
          ∃ e ∈ t.waiting.entries, e.id = id ∧ e.time ≤ s.world.now) ∧
      (t.GoesThrough → ∀ e ∈ t.waiting.entries, e.id ∉ t.confirmed → e.id ∉ t.missing →
        e ∈ (s.reconcile p).2.controller.queue.entries) := by
  refine ⟨fun steps hrun e he => hrun.keptUntilDeparture h he, fun t ht => ?_⟩
  refine ⟨fun id hid => ht.condemned h.sound hid, fun hgoes e he hconfirmed hmissing => ?_⟩
  rw [ht.controller_reconcile hgoes]
  have hq : t.controller.queue.Distinct := ht.queue_eq ▸ h.sound.controller.queue
  exact (t.mem_closing_iff hq).2 ⟨he, hconfirmed, hmissing⟩

/-- A simulated machine that was scheduled half an hour before the end of its hour, and is due. -/
def dueAtLast : Station Fleet :=
  let chosen := ((Fleet.atWork
    { name := "web", driver := ⟨Cloud.kind, .array [.null, .nat 0, .nat 1]⟩, desiredSize := some 0
      scaleIn := { margin := 1800 }, fetch := { reachabilityTimeout := 3600 } }).respond
    Fleet.provider .reconcile).2
  { chosen with world := chosen.world.atTime ⟨1800, 0⟩ }

/-- The snapshot that shows the machine. -/
def dueAtLastSnapshot : Pool where
  machines := [{ id := "web-0001", state := .running, launched := some ⟨0, 0⟩ }]
  takenAt := ⟨0, 0⟩

theorem kept_until_departure_dueAtLast :
    dueAtLast.Reachable Fleet.provider ∧
      dueAtLast.Runs Fleet.provider
        [(some .reconcile, (dueAtLast.respond Fleet.provider .reconcile).2)] ∧
      (∃ e ∈ dueAtLast.controller.queue.entries,
        dueAtLast.KeptUntilDeparture Fleet.provider e
          [(some .reconcile, (dueAtLast.respond Fleet.provider .reconcile).2)]) ∧
      ∃ t, dueAtLast.TakesTurn Fleet.provider t ∧
        "web-0001" ∈ (dueAtLast.cycleCalls Fleet.provider).flatMap Call.condemned ∧
        ∃ m ∈ t.view.effective, m.id = "web-0001" := by
  have hreach : dueAtLast.Reachable Fleet.provider :=
    Station.Reachable.world _ (by decide +kernel) ((Fleet.atWork_reachable _).respond _)
  have hserves : dueAtLast.Serves dueAtLastSnapshot :=
    ⟨_, by with_unfolding_all rfl, by with_unfolding_all rfl⟩
  have hdistinct : dueAtLast.SeesDistinct := fun snapshot hs => by
    rw [hs.unique hserves]
    decide
  have hrun : dueAtLast.Runs Fleet.provider
      [(some .reconcile, (dueAtLast.respond Fleet.provider .reconcile).2)] :=
    ⟨hdistinct, .respond _ _, trivial⟩
  have hwaits : 0 < dueAtLast.controller.queue.entries.length := by decide +kernel
  have hcondemned : "web-0001" ∈ (dueAtLast.cycleCalls Fleet.provider).flatMap Call.condemned := by
    decide +kernel
  obtain ⟨hkept, hcycle⟩ := kept_until_departure hreach
  obtain ⟨a, ha⟩ := hreach.sound.serving hserves
  have ht : dueAtLast.TakesTurn Fleet.provider
      (dueAtLast.turn Fleet.provider a dueAtLastSnapshot) :=
    ⟨a, dueAtLastSnapshot, ha, hserves, rfl⟩
  exact ⟨hreach, hrun, ⟨_, List.getElem_mem hwaits, hkept _ hrun _ (List.getElem_mem hwaits)⟩, _,
    ht, hcondemned, ((hcycle _ ht).1 _ hcondemned).1⟩

end Station

end PoolKeeper
