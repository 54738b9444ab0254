import PoolKeeper.Proofs.Deeds
import PoolKeeper.Proofs.Forgetting

/-!
# Requests that fail

A request that is answered with an error leaves the controller as it was, cycles apart, which note
their error.

* `Station.Undisturbed`: nothing has happened, but that drivers were called and that some recent
  actions were forgotten, which no snapshot from now on is shown with;
* `Station.startedView_undisturbed`, `Station.removeBy_failed`, `Station.machineCall_failed`,
  `Station.configure_failed`: looks at the pool, and failures of each kind;
* **`Station.failure_undisturbed`**: a failed request, whatever it is.
-/

namespace PoolKeeper

namespace Station

variable {σ : Type}

/-- Nothing has happened to a station, but that drivers were called and that recent actions were
forgotten. The controller's state, configuration and driver, size, queue and notes, the background
work, the clock, the files and the events are the same, and so is every view of a snapshot that is
not older than the one that is served. -/
structure Undisturbed (s s' : Station σ) : Prop where
  rest : s' = { s with
    controller := { s.controller with overlay := s'.controller.overlay }
    world := { s.world with outside := s'.world.outside } }
  view (snapshot : Pool) : (∀ served, s.Serves served → served.takenAt ≤ snapshot.takenAt) →
    s'.controller.view snapshot = s.controller.view snapshot

variable {s s' : Station σ} {snapshot : Pool}

namespace Undisturbed

theorem refl (s : Station σ) : Undisturbed s s := ⟨rfl, fun _ _ => rfl⟩

theorem after (h : Undisturbed s s') (outside : σ) : Undisturbed s (s'.after outside) where
  rest := by
    rw [h.rest]
    rfl
  view := h.view

theorem forgetting (h : s.Serves snapshot) : Undisturbed s (s.forgetting snapshot.takenAt) where
  rest := rfl
  view later hlater := by
    have hforget := s.controller.overlay.forget_forget (hlater snapshot h)
    simp only [Station.forgetting, Controller.view, Overlay.apply, hforget]

theorem serves_iff (h : Undisturbed s s') : s'.Serves snapshot ↔ s.Serves snapshot := by
  rw [h.rest]
  rfl

/-- The pool looks as before. -/
theorem view_eq (h : Undisturbed s s') : s'.view.1 = s.view.1 := by
  rcases view_cases s with ⟨snapshot, hs, heq⟩ | ⟨e, heq⟩
  · have hsame := h.view snapshot fun served hserved => by
      rw [hserved.unique hs]
      exact Instant.le_refl _
    rw [(h.serves_iff.2 hs).view_eq, heq, hsame]
  · have hrunning : s'.running = s.running := by rw [h.rest]
    have hnow : s'.world.now = s.world.now := by rw [h.rest]
    rw [view_error_of_running heq hrunning hnow, heq]

end Undisturbed

/-! ## Looking at the pool -/

theorem startedView_undisturbed (s : Station σ) : Undisturbed s s.startedView.2 := by
  rcases startedView_forgetting s with heq | ⟨snapshot, hs, heq⟩
  · rw [heq]
    exact .refl s
  · rw [heq]
    exact .forgetting hs

theorem memberDriver_undisturbed (s : Station σ) (id : String) :
    Undisturbed s (s.memberDriver id).2 := by
  rw [memberDriver_snd]
  exact startedView_undisturbed s

theorem poolSize_undisturbed (s : Station σ) : Undisturbed s s.poolSize.2 := by
  rw [poolSize_snd]
  exact startedView_undisturbed s

/-! ## Failures -/

variable {e : ControllerError}

theorem plain_eq_error {r : Except ControllerError Unit × Station σ} (h : (plain r).1 = .error e) :
    r.1 = .error e := by
  obtain ⟨answer, s⟩ := r
  cases answer with
  | error e' =>
    cases h
    rfl
  | ok u => cases h

theorem removeBy_failed {ε : Type} {p : Provider σ} {id : String} {decrement : Bool}
    {events : List Event} {call : DriverId → Instant → σ → Except ε Unit × σ}
    {why : ε → ControllerError} (h : (s.removeBy p id decrement events call why).1 = .error e) :
    Undisturbed s (s.removeBy p id decrement events call why).2 := by
  have hmember := memberDriver_undisturbed s id
  unfold removeBy at h ⊢
  split
  · rename_i heq
    rwa [heq] at hmember
  · rename_i d s' heq
    rw [heq] at hmember
    simp only [heq] at h
    split
    · exact hmember.after _
    · rename_i hcall
      simp only [hcall] at h
      cases h

theorem machineCall_failed {p : Provider σ} {id : String}
    {call : DriverId → Instant → σ → Except DriverError Unit × σ} {note : Station σ → Station σ}
    (h : (s.machineCall p id call note).1 = .error e) :
    Undisturbed s (s.machineCall p id call note).2 := by
  unfold machineCall at h ⊢
  split
  · exact .refl s
  · rename_i d hd
    simp only [hd] at h
    split
    · exact (Undisturbed.refl s).after _
    · rename_i hcall
      simp only [hcall] at h
      cases h

theorem launch_failed {p : Provider σ} (hstopped : s.controller.state = .stopped)
    (h : (s.launch p).1 = .error e) : Undisturbed s (s.launch p).2 := by
  cases ha : s.controller.applied with
  | none =>
    rw [launch, ha]
    exact .refl s
  | some a =>
    obtain ⟨s', heq, _⟩ := launch_outcome p hstopped ha
    rw [heq] at h
    cases h

/-- A configuration is refused. The background work is not ended before that. -/
theorem configure_failed {p : Provider σ} {config : PoolConfig}
    (h : (s.configure p config).1 = .error e) : Undisturbed s (s.configure p config).2 := by
  rcases apply_outcome p s config with ⟨e', outside, heq⟩ | ⟨hvalid, d, outside, htakes⟩
  · have hrefused : s.configure p config = (.error e', s.after outside) := by
      simp only [configure, heq]
    rw [hrefused]
    exact (Undisturbed.refl s).after outside
  · -- once the provider has taken the configuration, nothing can fail any more
    obtain ⟨events, heq⟩ := apply_of_takes hvalid htakes
    by_cases hstarted : s.controller.state = .started
    · rw [decide_eq_true hstarted] at heq
      obtain ⟨s', hlaunch, _⟩ :=
        launch_outcome p (s := s.adopted ⟨config, d⟩ outside events) rfl rfl
      rw [configure_of_started heq hlaunch] at h
      cases h
    · rw [decide_eq_false hstarted] at heq
      rw [configure_of_idle heq] at h
      cases h

theorem respond_failed {p : Provider σ} {request : Request} (hcycle : request ≠ .reconcile)
    (h : (s.respond p request).1 = .error e) : Undisturbed s (s.respond p request).2 := by
  cases request with
  | configure config => exact configure_failed (plain_eq_error h)
  | getConfiguration =>
    rw [respond]
    split
    · exact .refl s
    · exact .refl s
  | start =>
    unfold respond at h ⊢
    simp only at h ⊢
    split
    · exact .refl s
    · exact .refl s
    · rename_i hstopped
      simp only [hstopped] at h
      exact launch_failed hstopped (plain_eq_error h)
  | stop =>
    unfold respond at h ⊢
    simp only at h ⊢
    split
    · rename_i hstarted
      obtain ⟨events, heq, _⟩ := become_stopped s.halt.controller
      rw [if_pos hstarted] at h
      simp only [plain, become, heq] at h
      cases h
    · exact .refl s
  | getStatus => exact .refl s
  | reconcile => exact absurd rfl hcycle
  | getPool => exact startedView_undisturbed s
  | getPoolSize => exact poolSize_undisturbed s
  | setDesired size =>
    unfold respond at h ⊢
    simp only at h ⊢
    split
    · exact .refl s
    · rename_i hconfigured
      rw [if_neg hconfigured] at h
      cases h
  | terminate id decrement =>
    have hremove : s.respond p (.terminate id decrement) = plain _ :=
      congrArg plain (terminate_eq_removeBy p s id decrement)
    rw [hremove] at h ⊢
    exact removeBy_failed (plain_eq_error h)
  | attach id => exact machineCall_failed (plain_eq_error h)
  | detach id decrement =>
    have hremove : s.respond p (.detach id decrement) = plain _ :=
      congrArg plain (detach_eq_removeBy p s id decrement)
    rw [hremove] at h ⊢
    exact removeBy_failed (plain_eq_error h)
  | setService id service => exact machineCall_failed (plain_eq_error h)
  | setMembership id membership => exact machineCall_failed (plain_eq_error h)

/-- **A request that fails leaves the controller as it was**, unless it is one for a cycle. The pool
looks as before, and what follows is the work that was ready anyway. -/
theorem failure_undisturbed (p : Provider σ) {s : Station σ} {request : Request}
    {e : ControllerError} (hcycle : request ≠ .reconcile)
    (h : (s.ask p request).1 = some (.error e)) :
    (s.respond p request).1 = .error e ∧ s.Undisturbed (s.respond p request).2 ∧
      (s.respond p request).2.view.1 = s.view.1 ∧
      (s.ask p request).2 = (s.respond p request).2.settle p s.world.now := by
  unfold ask at h ⊢
  by_cases hstuck : s.stuck = true
  · rw [if_pos hstuck] at h
    cases h
  · rw [if_neg hstuck] at h ⊢
    by_cases hafter : (s.respond p request).2.stuck = true
    · simp only [if_pos hafter] at h
      cases h
    · simp only [if_neg hafter] at h
      have hfailed : (s.respond p request).1 = .error e := Option.some.inj h
      have hundisturbed := respond_failed hcycle hfailed
      refine ⟨hfailed, hundisturbed, hundisturbed.view_eq, ?_⟩
      simp only [if_neg hafter]

/-- A machine of two was detached a second ago, and the pool has been fetched since. -/
def lately : Station Fleet :=
  let config : PoolConfig :=
    { name := "web", driver := ⟨Cloud.kind, .array [.null, .nat 0, .nat 2]⟩ }
  let atWork := (Fleet.atWork config).advance Fleet.provider 1000000000
  ((atWork.ask Fleet.provider (.detach "web-0001" false)).2).advance Fleet.provider 30000000000

/-- A detached machine is unknown. What was remembered of it is forgotten when it is asked for. -/
theorem failure_undisturbed_detached :
    Request.terminate "web-0001" true ≠ .reconcile ∧
      (lately.ask Fleet.provider (.terminate "web-0001" true)).1 =
        some (.error (.machineNotFound "web-0001")) ∧
      lately.controller.overlay.isEmpty = false ∧
      (lately.respond Fleet.provider (.terminate "web-0001" true)).2.controller.overlay.isEmpty =
        true ∧
      lately.Undisturbed (lately.respond Fleet.provider (.terminate "web-0001" true)).2 := by
  have hcycle : Request.terminate "web-0001" true ≠ .reconcile := by rintro ⟨⟩
  have hfailed : (lately.ask Fleet.provider (.terminate "web-0001" true)).1 =
      some (.error (.machineNotFound "web-0001")) := by with_unfolding_all rfl
  exact ⟨hcycle, hfailed, by decide +kernel, by decide +kernel,
    (failure_undisturbed Fleet.provider hcycle hfailed).2.1⟩

end Station

end PoolKeeper
