import PoolKeeper.Provider.Basic

/-!
# Fetching a pool

A fetch takes steps: it answers at once, or it waits and goes on later.

* `Fetcher`: how a fetch begins and how it goes on;
* `Fetcher.retrying`: a fetch that lists machines and repeats failures that may pass;
* `Fetcher.run`: a fetch to its end, while nothing else happens;
* `Script`, `Fetcher.scripted`: a fetch that answers as it is told to.
-/

namespace PoolKeeper

/-- A way to fetch a pool from a `σ`; a fetch that waits goes on from some point `ρ`. -/
structure Fetcher (σ ρ : Type) where
  begin : Instant → σ → FetchStep ρ × σ
  resume : ρ → Instant → σ → FetchStep ρ × σ

namespace Fetcher

variable {σ ρ : Type}

/-- One attempt to list the machines, and what follows it. -/
def attempt (p : Provider σ) (d : DriverId) (policy : RetryPolicy) (n : Nat) (now : Instant)
    (s : σ) : FetchStep Nat × σ :=
  let (listing, s) := p.list d now s
  (policy.after n now listing, s)

/-- Lists machines through a driver and repeats failures that may pass. -/
def retrying (p : Provider σ) (d : DriverId) (policy : RetryPolicy) : Fetcher σ Nat :=
  ⟨attempt p d policy 1, attempt p d policy⟩

/-- How far a fetch came: its last step, when, and what it left outside. -/
structure Progress (σ ρ : Type) where
  step : FetchStep ρ
  time : Instant
  outside : σ

/-- Goes on from a step until the end, through at most so many waits. -/
def finish (f : Fetcher σ ρ) : Nat → FetchStep ρ → Instant → σ → Progress σ ρ
  | waits + 1, .wait wake point, now, s =>
    let time := now.latest wake
    let (step, s) := f.resume point time s
    finish f waits step time s
  | _, step, now, s => ⟨step, now, s⟩

/-- A fetch that still waits after so many waits, as many as a 32-bit word counts, never ends. -/
def patience : Nat := 0x1_0000_0000

/-- A fetch from beginning to end. -/
def run (f : Fetcher σ ρ) (now : Instant) (s : σ) : Progress σ ρ :=
  let (step, s) := f.begin now s
  f.finish patience step now s

end Fetcher

/-- How a scripted fetch behaves. -/
structure Behaviour where
  /-- The machines and perhaps the time of the snapshot to answer with, or an error. -/
  answer : Except FetchError (List Machine × Option Instant)
  /-- How long to wait first. -/
  wait : Span := ⟨0⟩

/-- A script: the behaviour of fetches that begin now, and how many have begun. -/
structure Script where
  behaviour : Behaviour
  calls : Nat := 0

namespace Behaviour

/-- The answer at a time. -/
def result (b : Behaviour) (now : Instant) : Except FetchError Pool :=
  match b.answer with
  | .ok (machines, takenAt) => .ok ⟨machines, takenAt.getD now⟩
  | .error e => .error e

end Behaviour

/-- Answers as the script says when the fetch begins. -/
def Fetcher.scripted : Fetcher Script Behaviour where
  begin now s :=
    let b := s.behaviour
    (if b.wait.nanos = 0 then .done (b.result now) else .wait (now.plus b.wait) b,
      { s with calls := s.calls + 1 })
  resume b now s := (.done (b.result now), s)

end PoolKeeper
