import PoolKeeper.Proofs.Requests

/-!
# What is forgotten

Forgetting what a snapshot shows itself makes no difference to later snapshots.

* **`Overlay.forget_forget`**: only the latest time matters;
* `Station.forgetting`: a station that has forgotten all before a time;
  **`Station.startedView_forgetting`**: a look at the pool leaves such a station.
-/

namespace PoolKeeper

namespace Overlay

variable (o : Overlay) {t t' : Instant}

/-- **Only the latest time matters.** -/
theorem forget_forget (h : t ≤ t') : (o.forget t).forget t' = o.forget t' := by
  have hlate : ∀ {x : Instant}, (decide (t' ≤ x) && decide (t ≤ x)) = decide (t' ≤ x) := by
    intro x
    by_cases hx : t' ≤ x
    · simp [hx, Instant.le_trans h hx]
    · simp [hx]
  simp only [forget, IdMap.filter, List.filter_filter, hlate]

theorem forget_empty : Overlay.empty.forget t = .empty := rfl

end Overlay

namespace Station

variable {σ : Type} {s : Station σ} {snapshot : Pool}

/-- The station once all that was done before a time is forgotten. -/
def forgetting (t : Instant) (s : Station σ) : Station σ :=
  { s with controller := { s.controller with overlay := s.controller.overlay.forget t } }

/-- A look at the pool forgets what the snapshot shows itself, and changes nothing else. -/
theorem Serves.view_forgetting (h : s.Serves snapshot) :
    s.view = (.ok (s.controller.view snapshot).1, s.forgetting snapshot.takenAt) :=
  h.view_eq

theorem startedView_forgetting (s : Station σ) :
    s.startedView.2 = s ∨
      ∃ snapshot, s.Serves snapshot ∧ s.startedView.2 = s.forgetting snapshot.takenAt := by
  unfold startedView
  split
  · exact .inl rfl
  · rcases view_cases s with ⟨snapshot, hs, _⟩ | ⟨e, heq⟩
    · exact .inr ⟨snapshot, hs, by rw [hs.view_forgetting]⟩
    · exact .inl (by rw [heq])

end Station

end PoolKeeper
