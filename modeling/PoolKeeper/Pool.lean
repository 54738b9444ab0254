import PoolKeeper.Machine

/-!
# Pool snapshots

* `Pool`: the machines of a pool at one time; `Pool.get?`, `Pool.contains`: look-up by identifier;
* `Pool.allocated`, `Pool.effective`, `Pool.outOfService`: the machines of a kind, in pool order;
* `PoolSize`: the sizes that an operator asks for.
-/

namespace PoolKeeper

/-- The machines of a pool at one time. -/
structure Pool where
  machines : List Machine
  takenAt : Instant
deriving Repr

namespace Pool

instance : Inhabited Pool := ⟨⟨[], default⟩⟩

/-- The first machine with an identifier. -/
def get? (p : Pool) (id : String) : Option Machine := p.machines.find? (·.id == id)

/-- Some machine has the identifier. -/
def contains (p : Pool) (id : String) : Bool := p.machines.any (·.id == id)

/-- The machines that hold capacity. -/
def allocated (p : Pool) : List Machine := p.machines.filter Machine.isAllocated

/-- The machines that count towards the size of the pool. -/
def effective (p : Pool) : List Machine := p.machines.filter Machine.isEffective

/-- The machines that hold capacity without being in service. -/
def outOfService (p : Pool) : List Machine :=
  p.machines.filter fun m => m.isAllocated && m.isOutOfService

/-- The number of machines that count. -/
def effectiveCount (p : Pool) : Nat := p.effective.length

/-- The number of machines that hold capacity. -/
def allocatedCount (p : Pool) : Nat := p.allocated.length

/-- How long ago the snapshot was taken, in nanoseconds; negative for one from the future. -/
def age (p : Pool) (now : Instant) : Int := now.since p.takenAt

/-- No two machines share an identifier. -/
def Distinct (p : Pool) : Prop := (p.machines.map Machine.id).Nodup

instance (p : Pool) : Decidable p.Distinct := inferInstanceAs (Decidable (List.Nodup _))

end Pool

/-- The sizes of a pool. -/
structure PoolSize where
  /-- The size that the pool converges to. -/
  desired : Nat
  allocated : Nat
  effective : Nat
deriving DecidableEq, Repr

end PoolKeeper
