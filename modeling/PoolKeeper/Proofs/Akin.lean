import PoolKeeper.Controller.Station
import PoolKeeper.Proofs.Requests

/-!
# Controllers that differ in their notes

What a controller noted of its last cycle is told when it is asked for, and nothing else depends on
it.

* `Lingers`, `Origin`: what is the same on both sides, or as it was on both at some time;
* `Controller.Akin`: controllers that differ in their notes at most;
* `Controller.Blind`, `Controller.Akin.change`: changes that do not look at the notes give the same
  on both sides;
* **`Controller.reconcile_cases`**, **`Controller.Akin.reconcile_cases`**: a cycle does not look
  there, either; it overwrites the notes, or it gives an error.
-/

namespace PoolKeeper

variable {σ : Type}

/-- A value is the same on both sides, or as it was on both. -/
def Lingers {α : Type} (old old' new new' : α) : Prop := new = new' ∨ new = old ∧ new' = old'

/-- Two stations at some time, and the name that their pools have from then on. -/
structure Origin (σ : Type) where
  left : Station σ
  right : Station σ
  poolName : String

/-! ## Controllers -/

namespace Controller

variable {o : Origin σ} {c d : Controller} {α : Type}

/-- The controller with other notes of its last cycle. -/
def noting (c : Controller) (time : Option Instant) (error : Option String) : Controller :=
  { c with lastReconciled := time, lastError := error }

/-- Controllers that differ in their notes at most, and there only as long as both have their old
ones. -/
structure Akin (o : Origin σ) (c d : Controller) : Prop where
  rest : d = c.noting d.lastReconciled d.lastError
  lastReconciled : Lingers o.left.controller.lastReconciled o.right.controller.lastReconciled
    c.lastReconciled d.lastReconciled
  lastError : Lingers o.left.controller.lastError o.right.controller.lastError
    c.lastError d.lastError

theorem Akin.refl (o : Origin σ) (c : Controller) : Akin o c c := ⟨rfl, .inl rfl, .inl rfl⟩

theorem Akin.state (h : Akin o c d) : d.state = c.state :=
  (congrArg Controller.state h.rest).trans rfl

theorem Akin.applied (h : Akin o c d) : d.applied = c.applied :=
  (congrArg Controller.applied h.rest).trans rfl

theorem Akin.desired (h : Akin o c d) : d.desired = c.desired :=
  (congrArg Controller.desired h.rest).trans rfl

theorem Akin.queue (h : Akin o c d) : d.queue = c.queue :=
  (congrArg Controller.queue h.rest).trans rfl

theorem Akin.eq_of_eq (h : Akin o c d) (hold : o.left.controller = o.right.controller) : c = d := by
  have hlingers : ∀ {α : Type} {old new new' : α}, Lingers old old new new' → new = new' :=
    fun h => h.elim id fun hold => hold.1.trans hold.2.symm
  have hreconciled := h.lastReconciled
  have herror := h.lastError
  rw [hold] at hreconciled herror
  rw [h.rest, ← hlingers hreconciled, ← hlingers herror]
  rfl

theorem Akin.ensureStarted (h : Akin o c d) : d.ensureStarted = c.ensureStarted := by
  rw [Controller.ensureStarted, Controller.ensureStarted, h.state]

/-- A change that neither looks at the notes nor touches them, and keeps the configuration. -/
structure Blind (f : Controller → Controller × α) : Prop where
  noting (c : Controller) (time : Option Instant) (error : Option String) :
    f (c.noting time error) = ((f c).1.noting time error, (f c).2)
  applied (c : Controller) : (f c).1.applied = c.applied

/-- A blind change gives the same on both sides. -/
theorem Akin.change (h : Akin o c d) {f : Controller → Controller × α} (hf : Blind f) :
    (f c).2 = (f d).2 ∧ Akin o (f c).1 (f d).1 := by
  -- `c` with its own notes is `c`, so `f` hands them on
  have hleft := hf.noting c c.lastReconciled c.lastError
  have hright := hf.noting c d.lastReconciled d.lastError
  rw [← h.rest] at hright
  have hreconciled : (f c).1.lastReconciled = c.lastReconciled :=
    congrArg (fun x => x.1.lastReconciled) hleft
  have herror : (f c).1.lastError = c.lastError := congrArg (fun x => x.1.lastError) hleft
  rw [hright]
  refine ⟨rfl, rfl, ?_, ?_⟩
  · rw [hreconciled]
    exact h.lastReconciled
  · rw [herror]
    exact h.lastError

/-! ### Blind changes -/

theorem blind_id : Blind fun c => (c, ([] : List Event)) := ⟨fun _ _ _ => rfl, fun _ => rfl⟩

theorem blind_setDesired (size : Nat) : Blind fun c => c.setDesired size where
  noting c time error := by
    unfold setDesired noting
    simp only
    split
    · rfl
    · rfl
  applied c := by rw [setDesired_fst]

theorem blind_lowerDesired : Blind lowerDesired where
  noting c time error := by
    obtain ⟨_, _, known, _, _, _, _⟩ := c
    cases known with
    | none => rfl
    | some size => exact (blind_setDesired (size - 1)).noting _ time error
  applied c := by rw [lowerDesired_fst]

theorem blind_raise : Blind raise where
  noting c time error := by
    have hsame : (c.noting time error).desired = c.desired := rfl
    cases hdesired : c.desired with
    | none => rw [raise_of_none hdesired, raise_of_none (hsame.trans hdesired)]
    | some size =>
      rw [raise_of_some hdesired, raise_of_some (hsame.trans hdesired)]
      split
      · rfl
      · exact (blind_setDesired (size + 1)).noting c time error
  applied c := by
    rw [raise_fst]
    rfl

theorem blind_view (snapshot : Pool) : Blind fun c => ((c.view snapshot).2, (c.view snapshot).1) :=
  ⟨fun _ _ _ => rfl, fun _ => rfl⟩

theorem blind_gone (id : String) (now : Instant) (events : List Event) :
    Blind fun c =>
      ({ c with
          queue := c.queue.erase id
          overlay := c.overlay.recordTerminated [id] now }, events) :=
  ⟨fun _ _ _ => rfl, fun _ => rfl⟩

end Controller

/-! ## Cycles -/

namespace Cycle

variable (p : Provider σ) (d : DriverId) (now : Instant) (c : Cycle σ) (time : Option Instant)
  (error : Option String)

/-- A cycle under way of a controller with other notes. -/
def noting : Cycle σ := { c with controller := c.controller.noting time error }

theorem start_noting (count : Nat) :
    (c.noting time error).start p d now count = (c.start p d now count).noting time error := by
  rw [start_eq, start_eq]
  rfl

theorem schedule_noting (terminations : List Scheduled) :
    (c.noting time error).schedule terminations =
      (c.schedule terminations).noting time error := by
  rw [schedule_eq, schedule_eq]
  rfl

theorem terminate_noting :
    (c.noting time error).terminate p d now = (c.terminate p d now).noting time error := by
  rw [terminate_eq, terminate_eq]
  rfl

/-- **A whole cycle overwrites the notes**, and does not look at them. -/
theorem through_noting (plan : ResizePlan) :
    (c.noting time error).through p d now plan = c.through p d now plan := by
  simp only [through]
  rw [start_noting]
  show finish now (terminate p d now (schedule plan.toTerminate
    ((spare plan.toSpare (c.start p d now plan.toRequest)).noting time error))) = _
  rw [schedule_noting, terminate_noting]
  rfl

end Cycle

namespace Controller

variable {o : Origin σ} {c d : Controller}

/-- **A cycle does not look at the notes.** It overwrites them, or it gives an error. -/
theorem reconcile_cases (p : Provider σ) (a : Applied) (pool : Pool) (now : Instant)
    (c : Controller) (outside : σ) :
    (∃ e left, ∀ time error, (c.noting time error).reconcile p a pool now outside =
      (.error e, (c.prune pool).noting time error, [], left)) ∨
    ∃ report c' events left, c'.applied = c.applied ∧ ∀ time error,
      (c.noting time error).reconcile p a pool now outside = (.ok report, c', events, left) := by
  let t : Turn σ := ⟨p, a, pool, now, c, outside⟩
  let noted (time : Option Instant) (error : Option String) : Turn σ :=
    { t with controller := c.noting time error }
  by_cases hvalid : t.Valid
  · by_cases hgoes : t.GoesThrough
    · refine .inr ⟨t.closing.report, t.closing.controller, t.closing.events, t.closing.outside,
        by rw [t.closing_controller], fun time error => ?_⟩
      have hclosing : (noted time error).closing = t.closing :=
        t.opening.through_noting p t.driver now time error t.plan
      rw [← hclosing]
      exact (noted time error).outcome_of_goesThrough hvalid ⟨hgoes.foresees, hgoes.starts⟩
    · exact .inl ⟨.brokeDown, t.midway, fun time error =>
        (noted time error).outcome_of_not_goesThrough hvalid fun h => hgoes ⟨h.foresees, h.starts⟩⟩
  · exact .inl ⟨.plan (.invalidMargin a.config.scaleIn.margin), outside, fun time error =>
      (noted time error).outcome_of_not_valid hvalid⟩

/-- **Cycles of controllers that are akin** do the same. They overwrite the notes, or give an error. -/
theorem Akin.reconcile_cases (h : Akin o c d) (p : Provider σ) (a : Applied) (pool : Pool)
    (now : Instant) (outside : σ) :
    (∃ e left, c.reconcile p a pool now outside = (.error e, c.prune pool, [], left) ∧
      d.reconcile p a pool now outside = (.error e, d.prune pool, [], left)) ∨
    ∃ report c' events left, c'.applied = c.applied ∧
      c.reconcile p a pool now outside = (.ok report, c', events, left) ∧
      d.reconcile p a pool now outside = (.ok report, c', events, left) := by
  rw [h.rest]
  rcases c.reconcile_cases p a pool now outside with
    ⟨e, left, herror⟩ | ⟨report, c', events, left, happlied, hok⟩
  · exact .inl ⟨e, left, herror c.lastReconciled c.lastError, herror _ _⟩
  · exact .inr ⟨report, c', events, left, happlied, hok c.lastReconciled c.lastError, hok _ _⟩

end Controller

end PoolKeeper
