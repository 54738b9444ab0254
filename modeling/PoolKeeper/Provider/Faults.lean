import PoolKeeper.Provider.Basic

/-!
# Arranged faults

Drivers in front of others that fail by arrangement: each call takes the next fault of its method,
and passes through when there is none.

* `Fault`, `Method`, `Faults`: what is arranged;
* `Provider.withFaults`: the drivers.
-/

namespace PoolKeeper

/-- An arranged failure. -/
structure Fault where
  error : DriverError
  /-- The machines that a termination fails for; without it, those asked for. -/
  ids : Option (List String) := none
deriving Repr

/-- The calls that can fail by arrangement. -/
inductive Method where
  | configure
  | list
  | start
  | terminate
  | attach
  | detach
  | setService
  | setMembership
deriving DecidableEq, Repr

/-- The arranged failures of each method, the next one first. -/
structure Faults where
  arranged : Method → List Fault

namespace Faults

/-- Nothing fails. -/
def none : Faults := ⟨fun _ => []⟩

instance : Inhabited Faults := ⟨none⟩

/-- The faults with those of one method replaced. -/
def set (f : Faults) (method : Method) (faults : List Fault) : Faults :=
  ⟨fun m => if m = method then faults else f.arranged m⟩

/-- The next fault of a method, and the faults without it. -/
def next (f : Faults) (method : Method) : Option Fault × Faults :=
  (f.arranged method |>.head?, f.set method (f.arranged method).tail)

end Faults

namespace Provider

variable {σ : Type}

/-- A call that fails by arrangement or is passed on. -/
def orFault {ε α : Type} (method : Method) (fail : DriverError → ε) (act : σ → Except ε α × σ)
    (s : Faults × σ) : Except ε α × Faults × σ :=
  match s.1.next method with
  | (some fault, faults) => (.error (fail fault.error), faults, s.2)
  | (none, faults) =>
    let (answer, inner) := act s.2
    (answer, faults, inner)

/-- A termination that fails for the arranged machines; the others asked for are passed on. -/
def terminateOrFault (act : List String → σ → Except TerminateError Unit × σ) (ids : List String)
    (s : Faults × σ) : Except TerminateError Unit × Faults × σ :=
  match s.1.next .terminate with
  | (none, faults) =>
    let (answer, inner) := act ids s.2
    (answer, faults, inner)
  | (some fault, faults) =>
    let failing := fault.ids.getD ids
    let failed := failing.map fun id => (id, fault.error)
    let others := ids.filter fun id => !failing.contains id
    if others.isEmpty then (.error ⟨[], .ofList failed⟩, faults, s.2)
    else
      match act others s.2 with
      | (.ok (), inner) => (.error ⟨others, .ofList failed⟩, faults, inner)
      | (.error e, inner) =>
        (.error ⟨e.succeeded, .ofList (failed ++ e.failures.entries)⟩, faults, inner)

/-- Drivers that fail by arrangement. -/
def withFaults (p : Provider σ) : Provider (Faults × σ) where
  create config s :=
    let (answer, inner) := p.create config s.2
    (answer, s.1, inner)
  configure d name config now := orFault .configure id (p.configure d name config now)
  list d now := orFault .list .refused (p.list d now)
  start d count now := orFault .start (.refused ∘ .beforeAny count) (p.start d count now)
  terminate d ids now := terminateOrFault (fun ids => p.terminate d ids now) ids
  attach d machine now := orFault .attach id (p.attach d machine now)
  detach d machine now := orFault .detach id (p.detach d machine now)
  setService d machine service now := orFault .setService id (p.setService d machine service now)
  setMembership d machine membership now :=
    orFault .setMembership id (p.setMembership d machine membership now)

end Provider

end PoolKeeper
