import PoolKeeper.Proofs.Akin
import PoolKeeper.Proofs.Reachable

/-!
# Pools and their names

A pool has the name that its last configuration gave it.

* `Controller.placed`, `Controller.adopt_eq`: a configuration in force, before the size is set;
* `Station.taking`: a station that is configured, before it goes back to work;
  **`Station.configure_alike`**: two stations in the same world are refused the same configurations,
  and take the others in the same way;
* `Station.poolName`: the name; `Station.poolName_taking`, **`Station.poolName_settle`**: what gives
  it, and what leaves it.
-/

namespace PoolKeeper

variable {σ : Type}

/-! ## Configurations -/

namespace Controller

/-- The controller with a configuration in force, before its size is set. -/
def placed (a : Applied) (c : Controller) : Controller :=
  { c.forgetOther a.config.name with applied := some a }

/-- Sets the desired size, if there is one to set. -/
def resize (size : Option Nat) (c : Controller) : Controller × List Event :=
  match size with
  | some size => c.setDesired size
  | none => (c, [])

theorem blind_resize (size : Option Nat) : Blind (resize size) := by
  cases size with
  | none => exact blind_id
  | some size => exact blind_setDesired size

theorem adopt_eq (c : Controller) (a : Applied) :
    c.adopt a = (c.placed a).resize a.config.desiredSize := by
  unfold adopt resize
  cases a.config.desiredSize with
  | none => rfl
  | some size =>
    unfold setDesired placed
    simp only
    split
    · rfl
    · rfl

end Controller

namespace Station

variable {s t : Station σ}

/-- The station with a configuration in force that a provider took, and no background work. -/
def taking (a : Applied) (outside : σ) (s : Station σ) : Station σ :=
  (((s.after outside).halt.changed (s.controller.adopt a)).become .stopped).2

theorem apply_alike (p : Provider σ) (config : PoolConfig) (hnow : s.world.now = t.world.now)
    (houtside : s.world.outside = t.world.outside) :
    (∃ e outside, s.apply p config = (.error e, s.after outside) ∧
      t.apply p config = (.error e, t.after outside)) ∨
    ∃ d outside,
      s.apply p config = (.ok (s.controller.state = .started), s.taking ⟨config, d⟩ outside) ∧
      t.apply p config = (.ok (t.controller.state = .started), t.taking ⟨config, d⟩ outside) := by
  unfold apply
  rw [← hnow, ← houtside]
  split
  · refine .inl ⟨_, s.world.outside, rfl, ?_⟩
    rw [houtside]
    rfl
  · split
    · exact .inl ⟨_, _, rfl, rfl⟩
    · split
      · exact .inl ⟨_, _, rfl, rfl⟩
      · rename_i d made _ _ outside _
        obtain ⟨told, hs, _⟩ := become_stopped (s.controller.adopt ⟨config, d⟩).1
        obtain ⟨told', ht, _⟩ := become_stopped (t.controller.adopt ⟨config, d⟩).1
        refine .inr ⟨d, outside, ?_, ?_⟩
        · simp only [taking, become, changed, halt, after, hs]
        · simp only [taking, become, changed, halt, after, ht]

theorem configure_alike (p : Provider σ) (config : PoolConfig) (hnow : s.world.now = t.world.now)
    (houtside : s.world.outside = t.world.outside)
    (hstate : t.controller.state = s.controller.state) :
    (∃ e outside, s.configure p config = (.error e, s.after outside) ∧
      t.configure p config = (.error e, t.after outside)) ∨
    ∃ d outside wasStarted,
      s.configure p config = (s.taking ⟨config, d⟩ outside).proceed p wasStarted ∧
      t.configure p config = (t.taking ⟨config, d⟩ outside).proceed p wasStarted := by
  rcases apply_alike p config hnow houtside with ⟨e, outside, hs, ht⟩ | ⟨d, outside, hs, ht⟩
  · exact .inl ⟨e, outside, by simp only [configure, hs], by simp only [configure, ht]⟩
  · rw [hstate] at ht
    exact .inr ⟨d, outside, _, configure_of_apply hs, configure_of_apply ht⟩

/-! ## Names -/

/-- The name of the pool. -/
def poolName (s : Station σ) : Option String := s.controller.applied.map (·.config.name)

theorem poolName_taking (s : Station σ) (a : Applied) (outside : σ) :
    (s.taking a outside).poolName = some a.config.name := by
  obtain ⟨_, hc⟩ :=
    controller_become ((s.after outside).halt.changed (s.controller.adopt a)) .stopped
  rw [poolName, taking, hc, changed, Controller.adopt_eq, (Controller.blind_resize _).applied]
  rfl

theorem poolName_proceed (p : Provider σ) (wasStarted : Bool) (s : Station σ) :
    (s.proceed p wasStarted).2.poolName = s.poolName := by
  obtain ⟨_, hc⟩ := controller_proceed p wasStarted s
  rw [poolName, hc, poolName]

theorem poolName_reconcile (p : Provider σ) (s : Station σ) :
    (s.reconcile p).2.poolName = s.poolName := by
  unfold reconcile
  split
  · rfl
  · split
    · rfl
    · rename_i a _
      have hview : s.view.2.poolName = s.poolName := by rw [poolName, applied_view, poolName]
      split
      · rename_i heq
        rwa [heq] at hview
      · rename_i pool s' heq
        rw [heq] at hview
        refine Eq.trans ?_ hview
        have happlied := (Controller.Akin.refl (Origin.mk s s "") s'.controller).reconcile_cases p a
          pool s'.world.now s'.world.outside
        rcases happlied with ⟨e, left, hc, _⟩ | ⟨report, c, events, outside, happlied, hc, _⟩
        · simp only [hc]
          rfl
        · simp only [hc]
          exact congrArg (Option.map (·.config.name)) happlied

theorem kept_poolName (p : Provider σ) (name : Option String) :
    Kept p fun s => s.poolName = name where
  reconcile h := (poolName_reconcile p _).trans h
  refreshDue h := by
    rw [poolName, controller_refreshDue]
    exact h
  ticker _ _ h := h
  later _ h := h

theorem poolName_settle (p : Provider σ) (s : Station σ) (busySince : Instant) :
    (s.settle p busySince).poolName = s.poolName :=
  (kept_poolName p s.poolName).settle rfl busySince

end Station

end PoolKeeper
