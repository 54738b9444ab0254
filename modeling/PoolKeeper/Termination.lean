import PoolKeeper.Pool

/-!
# Scheduled terminations

Machines chosen to go wait in a queue until their time, usually shortly before the end of an hour
that is paid for. While it waits a machine no longer counts, and a pool that grows again spares a
waiting machine before it asks for a new one.

* `Scheduled`: a machine and the time of its termination;
* `TerminationQueue`: the waiting machines, in the order in which they were queued;
* `TerminationQueue.insert`, `erase`, `retain`, `due`: its operations;
* `TerminationQueue.spare`: takes the entries with the latest times off the queue.
-/

namespace PoolKeeper

/-- A machine and the time of its termination. -/
structure Scheduled where
  machine : Machine
  time : Instant
deriving Repr

namespace Scheduled

/-- The identifier of the machine. -/
def id (s : Scheduled) : String := s.machine.id

/-- The time has come. -/
def isDue (s : Scheduled) (now : Instant) : Bool := s.time ≤ now

end Scheduled

/-- Machines that wait for their termination. -/
structure TerminationQueue where
  entries : List Scheduled
deriving Repr

namespace TerminationQueue

/-- The queue without entries. -/
def empty : TerminationQueue := ⟨[]⟩

instance : Inhabited TerminationQueue := ⟨empty⟩

/-- The identifiers of the waiting machines. -/
def ids (q : TerminationQueue) : List String := q.entries.map Scheduled.id

/-- The machine waits. -/
def contains (q : TerminationQueue) (id : String) : Bool := q.entries.any (·.id == id)

/-- The entry of a machine. -/
def get? (q : TerminationQueue) (id : String) : Option Scheduled := q.entries.find? (·.id == id)

/-- An entry at the end of the queue, or in place of the one that the machine has. -/
def insert (q : TerminationQueue) (s : Scheduled) : TerminationQueue :=
  if q.contains s.id then ⟨q.entries.map fun old => if old.id == s.id then s else old⟩
  else ⟨q.entries ++ [s]⟩

/-- The queue without the entry of a machine. -/
def erase (q : TerminationQueue) (id : String) : TerminationQueue :=
  ⟨q.entries.eraseP (·.id == id)⟩

/-- The entries whose time has come, in queue order. -/
def due (q : TerminationQueue) (now : Instant) : List Scheduled := q.entries.filter (·.isDue now)

/-- The entries that a test accepts. -/
def retain (q : TerminationQueue) (keep : Scheduled → Bool) : TerminationQueue :=
  ⟨q.entries.filter keep⟩

/-- The entries that a test rejects. -/
def rejected (q : TerminationQueue) (keep : Scheduled → Bool) : List Scheduled :=
  q.entries.filter fun s => !keep s

/-- Of two entries and their positions, the first is spared no later than the second: its time is
later, or it stands behind at the same time. -/
def sparedFirst (a b : Scheduled × Nat) : Bool :=
  b.1.time < a.1.time || (a.1.time == b.1.time && b.2 ≤ a.2)

/-- The entries with their positions, those spared first in front. -/
def ranked (q : TerminationQueue) : List (Scheduled × Nat) :=
  q.entries.zipIdx.mergeSort sparedFirst

/-- The entries to spare when `count` are asked for: those furthest from their time. -/
def spared (q : TerminationQueue) (count : Nat) : List Scheduled :=
  (q.ranked.take count).map Prod.fst

/-- The queue without the entries to spare. -/
def spare (q : TerminationQueue) (count : Nat) : TerminationQueue :=
  let taken := (q.ranked.take count).map Prod.snd
  ⟨(q.entries.zipIdx.filter fun e => !taken.contains e.2).map Prod.fst⟩

end TerminationQueue

end PoolKeeper
