import PoolKeeper.IdMap
import PoolKeeper.Pool

/-!
# Recent actions

A snapshot can be older than what was done since. The overlay remembers machines that were started
and terminated, shows them on any snapshot taken before, and forgets them once a later snapshot
has been seen.

* `Overlay`, `Overlay.recordStarted`, `Overlay.recordTerminated`: what to remember;
* `Overlay.forget`: the overlay once a snapshot has been seen;
* `Overlay.overlay`: a snapshot with the recent actions on it.
-/

namespace PoolKeeper

/-- Actions that a snapshot may not show yet, with their times. -/
structure Overlay where
  started : List (Machine × Instant)
  terminated : IdMap Instant

namespace Overlay

/-- No recent actions. -/
def empty : Overlay := ⟨[], .empty⟩

instance : Inhabited Overlay := ⟨empty⟩

def isEmpty (o : Overlay) : Bool := o.started.isEmpty && o.terminated.isEmpty

/-- Remembers the start of a machine in place of all else about it. -/
def recordStart (time : Instant) (o : Overlay) (m : Machine) : Overlay :=
  ⟨o.started.filter (fun e => e.1.id != m.id) ++ [(m, time)], o.terminated.erase m.id⟩

/-- Remembers the start of machines. -/
def recordStarted (o : Overlay) (machines : List Machine) (time : Instant) : Overlay :=
  machines.foldl (recordStart time) o

/-- Remembers the end of a machine in place of all else about it. -/
def recordTermination (time : Instant) (o : Overlay) (id : String) : Overlay :=
  ⟨o.started.filter (fun e => e.1.id != id), o.terminated.insert id time⟩

/-- Remembers the end of machines. -/
def recordTerminated (o : Overlay) (ids : List String) (time : Instant) : Overlay :=
  ids.foldl (recordTermination time) o

/-- The overlay once a snapshot taken at a time has been seen: what was done before is in it. -/
def forget (o : Overlay) (takenAt : Instant) : Overlay :=
  ⟨o.started.filter fun e => takenAt ≤ e.2, o.terminated.filter fun _ time => takenAt ≤ time⟩

/-- A machine as it is after the recent terminations. -/
def showMachine (o : Overlay) (m : Machine) : Machine :=
  if o.terminated.contains m.id && m.isAllocated then { m with state := .terminating } else m

/-- The recently started machines that a snapshot does not list. -/
def unlisted (o : Overlay) (p : Pool) : List Machine :=
  (o.started.map Prod.fst).filter fun m => !p.contains m.id

/-- A snapshot with the remembered actions on it. -/
def overlay (o : Overlay) (p : Pool) : Pool :=
  ⟨p.machines.map o.showMachine ++ o.unlisted p, p.takenAt⟩

/-- A snapshot with the actions on it that it need not show, and the overlay that is left. -/
def apply (o : Overlay) (p : Pool) : Pool × Overlay :=
  let recent := o.forget p.takenAt
  (recent.overlay p, recent)

end Overlay

end PoolKeeper
