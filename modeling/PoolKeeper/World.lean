import PoolKeeper.Event
import PoolKeeper.Storage.FileTree
import PoolKeeper.Time.Instant

/-!
# The world around a controller

* `World`: the clock, all that is outside, the files, and the events that were told so far.
-/

namespace PoolKeeper

/-- What a controller and its cache act on. -/
structure World (σ : Type) where
  now : Instant
  /-- What the drivers act on. -/
  outside : σ
  files : FileTree
  /-- The events in the order in which they were told. -/
  events : List Event := []

namespace World

variable {σ : Type}

/-- Tells events. -/
def tell (w : World σ) (events : List Event) : World σ := { w with events := w.events ++ events }

/-- The same at a later time. -/
def atTime (w : World σ) (time : Instant) : World σ := { w with now := time }

end World

end PoolKeeper
