import PoolKeeper.Billing
import PoolKeeper.Termination

/-!
# Victims

Which machines go first when a pool shrinks.

* `VictimPolicy`: by age or by the time left that is paid for;
* `VictimPolicy.compare`: the preferred victim is the lesser, ties are broken by identifier; it
  breaks down when the end of an hour cannot be told;
* `VictimPolicy.sort?`: machines in this order;
* `VictimPolicy.select`: the preferred machines among those that do not wait already.
-/

namespace PoolKeeper

/-- The order in which machines go. -/
inductive VictimPolicy where
  /-- The earliest launched first. -/
  | oldest
  /-- The latest launched first. -/
  | newest
  /-- The one with the least time left in its hour first. -/
  | closestToHour
deriving DecidableEq, Repr

namespace VictimPolicy

/-- The policies and their names. -/
def table : List (String × VictimPolicy) :=
  [("oldest_instance", oldest), ("newest_instance", newest),
    ("closest_to_instance_hour", closestToHour)]

def text : VictimPolicy → String
  | oldest => "oldest_instance"
  | newest => "newest_instance"
  | closestToHour => "closest_to_instance_hour"

/-- Which of two launches came first; a machine yet to be launched comes last. -/
def compareLaunch : Option Instant → Option Instant → Ordering
  | some a, some b => a.compare b
  | some _, none => .lt
  | none, some _ => .gt
  | none, none => .eq

/-- The time paid for that a machine has left, if it can be told; none before its launch. -/
def timeLeft (m : Machine) (now : Instant) : Option Int :=
  match m.launched with
  | some t => Billing.remaining t now
  | none => some 0

/-- Which of two machines is the better victim, identifiers apart. -/
def compareMachines (policy : VictimPolicy) (a b : Machine) (now : Instant) : Option Ordering :=
  match policy with
  | oldest => some (compareLaunch a.launched b.launched)
  | newest => some (compareLaunch b.launched a.launched)
  | closestToHour => do return Ord.compare (← timeLeft a now) (← timeLeft b now)

/-- Which of two machines is the better victim, if that can be told. -/
def compare (policy : VictimPolicy) (a b : Machine) (now : Instant) : Option Ordering :=
  (policy.compareMachines a b now).map (·.then (Ord.compare a.id b.id))

/-- The first machine is no worse a victim than the second. -/
def prefers (policy : VictimPolicy) (now : Instant) (a b : Machine) : Bool :=
  policy.compare a b now != some .gt

/-- Machines, the best victims first. Each is compared with another one, if there is one; nothing if
one cannot be. -/
def sort? (policy : VictimPolicy) (now : Instant) (ms : List Machine) : Option (List Machine) :=
  if ms.length < 2 ∨ ms.all fun m => (policy.compare m m now).isSome then
    some (ms.mergeSort (policy.prefers now))
  else none

/-- Up to `count` of the candidates that do not wait in the queue, the best victims first. -/
def select (policy : VictimPolicy) (now : Instant) (queue : TerminationQueue)
    (candidates : List Machine) (count : Nat) : Option (List Machine) :=
  (policy.sort? now (candidates.filter fun m => !queue.contains m.id)).map (·.take count)

end VictimPolicy

end PoolKeeper
