import PoolKeeper.Proofs.Departure

/-!
# What a cycle accounts for

* `Turn.started_told`, `Turn.terminated_told`, `Turn.alerts_told`: what a cycle tells;
* `Turn.Proper`: drivers start new machines, and say of each machine that they were to terminate at
  most one thing;
* `Turn.failed_waits`, `Turn.confirmed_left`: who waits afterwards and who does not;
* `Turn.launched_shown`, `Turn.confirmed_gone`: who is shown afterwards;
* **`Station.cycle_accounts`**: what the driver did is what is reported, told, remembered and shown.
-/

namespace PoolKeeper

theorem nodup_failedBy (answer : Except TerminateError Unit) :
    ((failedBy answer).map Prod.fst).Nodup := by
  cases answer with
  | ok u => exact List.nodup_nil
  | error e => exact (List.filter_sublist.map Prod.fst).nodup e.failures.nodup_keys

/-- No machine fails for two reasons. -/
theorem notMem_missingBy {answer : Except TerminateError Unit} {failure : String × DriverError}
    (h : failure ∈ failedBy answer) : failure.1 ∉ missingBy answer := by
  cases answer with
  | ok u => exact List.not_mem_nil
  | error e =>
    intro hmissing
    obtain ⟨other, hother, hid⟩ := List.mem_map.1 hmissing
    obtain ⟨hother, hgone⟩ := List.mem_filter.1 hother
    obtain ⟨hmem, hthere⟩ := List.mem_filter.1 h
    rw [List.inj_on_of_nodup_map e.failures.nodup_keys hother hmem hid] at hgone
    simp [hgone] at hthere

namespace Event

/-- The machines that the event tells the start of. -/
def started? : Event → Option (List String)
  | machinesStarted ids => some ids
  | _ => none

/-- The machines that the event tells the end of. -/
def terminated? : Event → Option (List String)
  | machinesTerminated ids => some ids
  | _ => none

def isAlert : Event → Bool
  | alert .. => true
  | _ => false

section

variable {event : List String → Event} {ids : List String}

theorem filterMap_ofMachines {f : Event → Option (List String)} (h : f (event ids) = some ids) :
    (ofMachines event ids).filterMap f = if ids = [] then [] else [ids] := by
  rw [ofMachines]
  split
  · rfl
  · rw [List.filterMap_cons, h]
    rfl

theorem filter_ofMachines {f : Event → Bool} (h : f (event ids) = false) :
    (ofMachines event ids).filter f = [] := by
  rw [ofMachines]
  split
  · rfl
  · exact List.filter_cons_of_neg (by rw [h]; exact Bool.false_ne_true)

end

end Event

namespace Turn

variable {σ : Type} {t : Turn σ} {snapshot : Pool}

/-! ## What is told -/

/-- Only starts and ends are not an alert, a new size or a termination that is scheduled. -/
theorem filterMap_closing_events {α : Type} {f : Event → Option α} (t : Turn σ)
    (hsize : ∀ before after, f (.desiredSizeChanged before after) = none)
    (halert : ∀ topic severity message time, f (.alert topic severity message time) = none)
    (hscheduled : ∀ id time, f (.terminationScheduled id time) = none) :
    t.closing.events.filterMap f =
      (Event.ofMachines .machinesStarted (t.launched.map Machine.id)).filterMap f ++
        (Event.ofMachines .machinesTerminated t.confirmed).filterMap f := by
  have hopening : t.opening.events.filterMap f = [] := by
    rw [opening]
    simp only
    split
    · rw [List.filterMap_cons, hsize]
      rfl
    · rfl
  rw [closing, Cycle.filterMap_through _ _ _ _ _ halert hscheduled, hopening, List.nil_append,
    ← ready_confirmed]
  rfl

theorem started_told (t : Turn σ) :
    t.closing.events.filterMap Event.started? =
      if t.launched.map Machine.id = [] then [] else [t.launched.map Machine.id] := by
  rw [t.filterMap_closing_events (fun _ _ => rfl) (fun _ _ _ _ => rfl) fun _ _ => rfl,
    Event.filterMap_ofMachines rfl, Event.filterMap_ofMachines_of_none rfl, List.append_nil]

theorem terminated_told (t : Turn σ) :
    t.closing.events.filterMap Event.terminated? =
      if t.confirmed = [] then [] else [t.confirmed] := by
  rw [t.filterMap_closing_events (fun _ _ => rfl) (fun _ _ _ _ => rfl) fun _ _ => rfl,
    Event.filterMap_ofMachines_of_none rfl, List.nil_append, Event.filterMap_ofMachines rfl]

theorem alerts_told (t : Turn σ) :
    t.closing.events.filter Event.isAlert =
      t.refusals.map (Event.ofRefusal t.now) ++ t.failed.map (Event.ofFailure t.now) := by
  have hopening : t.opening.events.filter Event.isAlert = [] := by
    rw [opening]
    simp only
    split
    · rfl
    · rfl
  have hstarted : (Event.ofMachines .machinesStarted (t.launched.map Machine.id)).filter
      Event.isAlert = [] := Event.filter_ofMachines rfl
  have hrefusals : (t.refusals.map (Event.ofRefusal t.now)).filter Event.isAlert =
      t.refusals.map (Event.ofRefusal t.now) :=
    List.filter_eq_self.2 (List.forall_mem_map.2 fun _ _ => rfl)
  have hscheduled : (t.scheduled.map Event.ofScheduled).filter Event.isAlert = [] :=
    List.filter_eq_nil_iff.2 (List.forall_mem_map.2 fun _ _ => Bool.false_ne_true)
  have hfailed : (t.failed.map (Event.ofFailure t.now)).filter Event.isAlert =
      t.failed.map (Event.ofFailure t.now) :=
    List.filter_eq_self.2 (List.forall_mem_map.2 fun _ _ => rfl)
  have hterminated : (Event.ofMachines .machinesTerminated t.confirmed).filter Event.isAlert = [] :=
    Event.filter_ofMachines rfl
  rw [closing_events]
  simp only [List.filter_append, hopening, hstarted, hrefusals, hscheduled, hfailed, hterminated,
    List.nil_append, List.append_nil]

/-! ## What is remembered -/

/-- Drivers start new machines, and of those that they were to terminate they confirm some and fail
for others. -/
structure Proper (t : Turn σ) : Prop where
  distinct : (t.launched.map Machine.id).Nodup
  fresh : ∀ m ∈ t.launched, t.view.contains m.id = false
  confirmed_due : ∀ id ∈ t.confirmed, id ∈ t.due
  failed_due : ∀ failure ∈ t.failed, failure.1 ∈ t.due ∧ failure.1 ∉ t.confirmed

theorem nodup_failed (t : Turn σ) : (t.failed.map Prod.fst).Nodup := by
  rw [failed]
  split
  · exact List.nodup_nil
  · exact nodup_failedBy _

theorem notMem_missing {failure : String × DriverError} (h : failure ∈ t.failed) :
    failure.1 ∉ t.missing := by
  rw [failed] at h
  rw [missing]
  split at h
  · cases h
  · rename_i hdue
    rw [if_neg hdue]
    exact notMem_missingBy h

theorem failed_waits (hq : t.controller.queue.Distinct) (hproper : t.Proper)
    {failure : String × DriverError} (h : failure ∈ t.failed) :
    failure.1 ∈ t.closing.controller.queue.ids := by
  obtain ⟨hdue, hconfirmed⟩ := hproper.failed_due failure h
  obtain ⟨e, he, _, hid⟩ := t.mem_due.1 hdue
  rw [← hid] at hconfirmed ⊢
  exact TerminationQueue.id_mem_ids
    ((t.mem_closing_iff hq).2 ⟨he, hconfirmed, hid ▸ notMem_missing h⟩)

theorem confirmed_left (hq : t.controller.queue.Distinct) {id : String} (h : id ∈ t.confirmed) :
    id ∉ t.closing.controller.queue.ids := by
  intro hid
  obtain ⟨e, he, rfl⟩ := List.mem_map.1 hid
  exact ((t.mem_closing_iff hq).1 he).2.1 h

/-! ## What is shown -/

theorem Sees.view_closing (h : t.Sees snapshot) :
    (t.closing.controller.view snapshot).1 = t.closing.controller.overlay.overlay snapshot :=
  congrArg (fun o : Overlay => o.overlay snapshot) h.recent_closing.forget_eq

theorem confirmed_gone (h : t.Sees snapshot) {id : String} (hid : id ∈ t.confirmed) {m : Machine}
    (hm : m ∈ (t.closing.controller.view snapshot).1.machines) (heq : m.id = id) :
    m.isAllocated = false := by
  rw [h.view_closing, closing_overlay] at hm
  have hended : ((t.controller.overlay.recordStarted t.launched t.now).recordTerminated t.confirmed
      t.now).EndedSince id t.now :=
    Overlay.endedSince_recordTerminated hid (Instant.le_refl _)
  refine Overlay.not_isAllocated_overlay (.inr hended.contains) (fun hstarted => ?_) hm heq
  exact (Overlay.startedIds_recordTerminated_subset hstarted).2 hid

/-- Nobody who is started is due. -/
theorem notMem_confirmed_of_launched (h : t.Sees snapshot) (hproper : t.Proper) {m : Machine}
    (hm : m ∈ t.launched) : m.id ∉ t.confirmed := by
  intro hid
  obtain ⟨e, he, _, heq⟩ := t.mem_due.1 (hproper.confirmed_due _ hid)
  obtain ⟨m', hm', hid'⟩ :=
    (replanner_pruned h.queue).effective e.id (TerminationQueue.id_mem_ids he)
  have hfree := hproper.fresh m hm
  rw [← Bool.not_eq_true, Pool.contains_iff] at hfree
  exact hfree ⟨m', (Pool.mem_effective.1 hm').1, hid'.trans heq⟩

theorem launched_shown (h : t.Sees snapshot) (hproper : t.Proper) {m : Machine}
    (hm : m ∈ t.launched) :
    ((t.closing.controller.view snapshot).1.machines.map Machine.id).count m.id = 1 := by
  have hfresh := hproper.fresh m hm
  rw [h.view] at hfresh
  have hstarted : ((t.controller.overlay.recordStarted t.launched t.now).recordTerminated
      t.confirmed t.now).StartedSince m.id t.now :=
    (Overlay.startedSince_recordStarted hm (Instant.le_refl _)).recordTerminated
      (notMem_confirmed_of_launched h hproper hm)
  rw [h.view_closing, closing_overlay]
  exact Overlay.count_overlay_of_started ((h.overlay.recordStarted _ _).recordTerminated _ _)
    (Overlay.not_mem_started_of_not_contains hfresh).1 hstarted.mem_startedIds

end Turn

/-! ## Stations -/

namespace Call

/-- The machines whose end a call confirms. -/
def confirmed : Call → List String
  | .terminate _ ids answer => confirmedBy ids answer
  | _ => []

/-- The starts that stop part-way in a call. -/
def refusals : Call → List StartError
  | .start _ _ answer => refusedBy answer
  | _ => []

/-- The terminations that fail in a call. -/
def failed : Call → List (String × DriverError)
  | .terminate _ _ answer => failedBy answer
  | _ => []

/-- A driver starts new machines, each once. Of those that it is to terminate it confirms some and
fails for others. -/
def Proper (view : Pool) : Call → Prop
  | .start _ _ answer =>
    ((launchedBy answer).map Machine.id).Nodup ∧
      ∀ m ∈ launchedBy answer, view.contains m.id = false
  | .terminate _ ids answer =>
    (∀ id ∈ confirmedBy ids answer, id ∈ ids) ∧
      ∀ failure ∈ failedBy answer, failure.1 ∈ ids ∧ failure.1 ∉ confirmedBy ids answer
  | _ => True

instance (view : Pool) : (call : Call) → Decidable (call.Proper view)
  | .start .. => inferInstanceAs (Decidable (_ ∧ _))
  | .terminate .. => inferInstanceAs (Decidable (_ ∧ _))
  | .create .. | .configure .. | .list .. | .attach .. | .detach .. | .setService ..
  | .setMembership .. => inferInstanceAs (Decidable True)

end Call

namespace Turn

variable {σ : Type} {t : Turn σ}

theorem confirmed_calls (hgoes : t.GoesThrough) :
    t.calls.flatMap Call.confirmed = t.confirmed := by
  rw [flatMap_calls_of_goesThrough t hgoes, confirmed]
  show (if t.requested = 0 then [] else []) ++ _ = _
  rw [ite_self, List.nil_append]
  rfl

theorem failed_calls (hgoes : t.GoesThrough) : t.calls.flatMap Call.failed = t.failed := by
  rw [flatMap_calls_of_goesThrough t hgoes, failed]
  show (if t.requested = 0 then [] else []) ++ _ = _
  rw [ite_self, List.nil_append]
  rfl

theorem refusals_calls (hgoes : t.GoesThrough) :
    t.calls.flatMap Call.refusals = t.refusals := by
  rw [flatMap_calls_of_goesThrough t hgoes, refusals]
  show _ ++ (if t.due.isEmpty then [] else []) = _
  rw [ite_self, List.append_nil]
  rfl

theorem proper_of_calls (hgoes : t.GoesThrough) (h : ∀ call ∈ t.calls, call.Proper t.view) :
    t.Proper := by
  have hstart : (t.launched.map Machine.id).Nodup ∧
      ∀ m ∈ t.launched, t.view.contains m.id = false := by
    have hlaunched : t.launched = if t.requested = 0 then []
        else launchedBy (t.provider.start t.driver t.requested t.now t.outside).1 := rfl
    rw [hlaunched]
    split
    · exact ⟨List.nodup_nil, fun m hm => absurd hm List.not_mem_nil⟩
    · rename_i hsome
      exact h _ (t.start_mem_calls hsome)
  have hterminate : (∀ id ∈ t.confirmed, id ∈ t.due) ∧
      ∀ failure ∈ t.failed, failure.1 ∈ t.due ∧ failure.1 ∉ t.confirmed := by
    rw [confirmed, failed]
    split
    · exact ⟨fun id hid => absurd hid List.not_mem_nil,
        fun failure hf => absurd hf List.not_mem_nil⟩
    · rename_i hsome
      exact h _ (t.terminate_mem_calls hgoes hsome)
  exact ⟨hstart.1, hstart.2, hterminate.1, hterminate.2⟩

end Turn

namespace Station

variable {σ : Type} {p : Provider σ} {s : Station σ} {snapshot : Pool}

/-- What a cycle reports, tells, remembers and shows on the snapshot is what the driver did. -/
structure Accounts (p : Provider σ) (s : Station σ) (snapshot : Pool) (report : Report)
    (told : List Event) : Prop where
  started : report.started = ((s.cycleCalls p).flatMap Call.launched).map Machine.id
  started_told :
    told.filterMap Event.started? = if report.started = [] then [] else [report.started]
  started_shown : ∀ id ∈ report.started,
    (((s.reconcile p).2.controller.view snapshot).1.machines.map Machine.id).count id = 1
  terminated : report.terminated = (s.cycleCalls p).flatMap Call.confirmed
  terminated_told :
    told.filterMap Event.terminated? = if report.terminated = [] then [] else [report.terminated]
  terminated_gone : ∀ id ∈ report.terminated, id ∉ (s.reconcile p).2.controller.queue.ids ∧
    ∀ m ∈ ((s.reconcile p).2.controller.view snapshot).1.machines, m.id = id →
      m.isAllocated = false
  failed_once : (((s.cycleCalls p).flatMap Call.failed).map Prod.fst).Nodup
  failed_waits : ∀ failure ∈ (s.cycleCalls p).flatMap Call.failed,
    failure.1 ∈ (s.reconcile p).2.controller.queue.ids
  alerts :
    told.filter Event.isAlert =
      ((s.cycleCalls p).flatMap Call.refusals).map (Event.ofRefusal s.world.now) ++
        ((s.cycleCalls p).flatMap Call.failed).map (Event.ofFailure s.world.now)
  failures :
    report.failures =
      ((s.cycleCalls p).flatMap Call.refusals).map StartError.message ++
        ((s.cycleCalls p).flatMap Call.failed).map failureText
  lastError_iff :
    (s.reconcile p).2.controller.lastError.isSome = true ↔ report.failures ≠ []

/-- **A cycle accounts exactly for what the driver did.** One that breaks down has nothing to account
for: nobody is started and no end is asked for, and it reports and tells nothing. -/
theorem cycle_accounts (h : s.Reachable p) (hs : s.Serves snapshot)
    (htime : snapshot.takenAt ≤ s.world.now)
    (hproper : ∀ call ∈ s.cycleCalls p, call.Proper (s.controller.view snapshot).1) :
    (s.GoesThrough p → ∃ report told, (s.reconcile p).1 = .ok report ∧
      (s.reconcile p).2.world.events = s.world.events ++ told ∧
      s.Accounts p snapshot report told) ∧
    (¬ s.GoesThrough p → (s.reconcile p).1 = .error .brokeDown ∧
      (s.reconcile p).2.world.events = s.world.events ∧ s.launchedIn p = [] ∧
      (s.cycleCalls p).flatMap Call.condemned = []) := by
  obtain ⟨a, ha⟩ := h.sound.serving hs
  have hsees := sees_turn (p := p) (a := a) h.sound htime
  have hq : s.controller.queue.Distinct := h.sound.controller.queue
  have hcalls : s.cycleCalls p = (s.turn p a snapshot).calls := cycleCalls_eq ha hs
  rw [goesThrough_iff ha hs]
  refine ⟨fun hgoes => ?_, fun hdown => ?_⟩
  swap
  · rw [reconcile_of_not_goesThrough ha hs hdown, launchedIn_eq ha hs, hcalls, Turn.condemned_calls,
      if_neg hdown]
    exact ⟨rfl, List.append_nil _, Turn.launched_of_not_goesThrough hdown, rfl⟩
  rw [hcalls] at hproper
  have ht : (s.turn p a snapshot).Proper := Turn.proper_of_calls hgoes hproper
  have heq := reconcile_eq (p := p) ha hs hgoes
  have hafter : (s.reconcile p).2.controller = (s.turn p a snapshot).closing.controller := by
    rw [heq]
  refine ⟨(s.turn p a snapshot).closing.report, (s.turn p a snapshot).closing.events, by rw [heq],
    by rw [heq]; rfl, ?_⟩
  have hstarted : (s.turn p a snapshot).closing.report.started =
      (s.turn p a snapshot).launched.map Machine.id := by
    rw [Turn.closing_report]
  have hterminated : (s.turn p a snapshot).closing.report.terminated =
      (s.turn p a snapshot).confirmed := by
    rw [Turn.closing_report]
  exact
    { started := by rw [hcalls, Turn.launched_calls, hstarted]
      started_told := by rw [hstarted, Turn.started_told]
      started_shown := by
        rw [hstarted, hafter]
        exact List.forall_mem_map.2 fun m hm => Turn.launched_shown hsees ht hm
      terminated := by rw [hcalls, Turn.confirmed_calls hgoes, hterminated]
      terminated_told := by rw [hterminated, Turn.terminated_told]
      terminated_gone := by
        rw [hterminated, hafter]
        exact fun id hid => ⟨Turn.confirmed_left hq hid, fun m => Turn.confirmed_gone hsees hid⟩
      failed_once := by
        rw [hcalls, Turn.failed_calls hgoes]
        exact Turn.nodup_failed _
      failed_waits := by
        rw [hcalls, Turn.failed_calls hgoes, hafter]
        exact fun failure => Turn.failed_waits hq ht
      alerts := by
        rw [hcalls, Turn.refusals_calls hgoes, Turn.failed_calls hgoes]
        exact Turn.alerts_told _
      failures := by
        rw [hcalls, Turn.refusals_calls hgoes, Turn.failed_calls hgoes, Turn.closing_report]
      lastError_iff := by
        rw [hafter, Turn.closing_controller, Report.hasFailures]
        cases (s.turn p a snapshot).closing.report.failures with
        | nil => simp
        | cons text rest => simp }

theorem cycle_accounts_shortOfTwo :
    shortOfTwo.Reachable Fleet.provider ∧ shortOfTwo.Serves shortOfTwoSnapshot ∧
      shortOfTwoSnapshot.takenAt ≤ shortOfTwo.world.now ∧
      (∀ call ∈ shortOfTwo.cycleCalls Fleet.provider,
        call.Proper (shortOfTwo.controller.view shortOfTwoSnapshot).1) ∧
      shortOfTwo.GoesThrough Fleet.provider ∧
      ∃ report told, (shortOfTwo.reconcile Fleet.provider).1 = .ok report ∧
        (shortOfTwo.reconcile Fleet.provider).2.world.events = shortOfTwo.world.events ++ told ∧
        shortOfTwo.Accounts Fleet.provider shortOfTwoSnapshot report told := by
  have hreach : shortOfTwo.Reachable Fleet.provider := Fleet.atWork_reachable _
  have hserves : shortOfTwo.Serves shortOfTwoSnapshot :=
    ⟨_, by with_unfolding_all rfl, by with_unfolding_all rfl⟩
  have htime : shortOfTwoSnapshot.takenAt ≤ shortOfTwo.world.now := by decide
  have hproper : ∀ call ∈ shortOfTwo.cycleCalls Fleet.provider,
      call.Proper (shortOfTwo.controller.view shortOfTwoSnapshot).1 := by decide +kernel
  have hup : shortOfTwo.GoesThrough Fleet.provider :=
    goesThrough_of_isOk hreach.sound (by decide +kernel)
  exact ⟨hreach, hserves, htime, hproper, hup, (cycle_accounts hreach hserves htime hproper).1 hup⟩

end Station

end PoolKeeper
