import PoolKeeper.Time.Date
import PoolKeeper.Time.Span

/-!
# Instants

A point in time on the UTC scale: a count of seconds since 1970-01-01T00:00:00Z and the
nanoseconds since that second began. A leap second has no count of its own: it is the second
billion of nanoseconds of the second before it, so instants are ordered as they happen.

* `Instant`, its order, and `Instant.compare`;
* `Instant.since`: the signed distance in nanoseconds;
* `Instant.addSeconds`, `Instant.plus`: moving by whole seconds and by a span;
* `Instant.date`, `Instant.secondOfDay`: the calendar reading.
-/

namespace PoolKeeper

/-- A point in time. -/
structure Instant where
  second : Int
  nano : Nat
deriving DecidableEq, Repr

namespace Instant

instance : Inhabited Instant := ⟨⟨0, 0⟩⟩

instance : LE Instant :=
  ⟨fun a b => a.second < b.second ∨ a.second = b.second ∧ a.nano ≤ b.nano⟩

instance : LT Instant :=
  ⟨fun a b => a.second < b.second ∨ a.second = b.second ∧ a.nano < b.nano⟩

instance (a b : Instant) : Decidable (a ≤ b) := inferInstanceAs (Decidable (_ ∨ _))
instance (a b : Instant) : Decidable (a < b) := inferInstanceAs (Decidable (_ ∨ _))

theorem le_def {a b : Instant} :
    a ≤ b ↔ a.second < b.second ∨ a.second = b.second ∧ a.nano ≤ b.nano := Iff.rfl

theorem lt_def {a b : Instant} :
    a < b ↔ a.second < b.second ∨ a.second = b.second ∧ a.nano < b.nano := Iff.rfl

theorem not_le {a b : Instant} : ¬ a ≤ b ↔ b < a := by
  rw [le_def, lt_def]; omega

theorem le_refl (a : Instant) : a ≤ a := by
  rw [le_def]; omega

theorem le_trans {a b c : Instant} (h : a ≤ b) (h' : b ≤ c) : a ≤ c := by
  rw [le_def] at *; omega

theorem le_total (a b : Instant) : a ≤ b ∨ b ≤ a := by
  rw [le_def, le_def]; omega

/-- Which of two instants comes first. -/
protected def compare (a b : Instant) : Ordering :=
  if a < b then .lt else if b < a then .gt else .eq

/-- The later of two instants. -/
def latest (a b : Instant) : Instant := if a ≤ b then b else a

theorem le_latest (a b : Instant) : a ≤ a.latest b := by
  unfold latest
  split
  · assumption
  · exact le_refl a

theorem le_latest_right (a b : Instant) : b ≤ a.latest b := by
  unfold latest
  split
  · exact le_refl b
  · rename_i h
    exact (le_total a b).resolve_left h

/-- The later of two instants is one of them. -/
theorem latest_cases {P : Instant → Prop} {a b : Instant} (ha : P a) (hb : P b) :
    P (a.latest b) := by
  unfold latest
  split
  · exact hb
  · exact ha

/-- The earlier of two instants. -/
def earliest (a b : Instant) : Instant := if a ≤ b then a else b

/-- The instant lies in an ordinary second, not in a leap second. -/
def Ordinary (t : Instant) : Prop := t.nano < 1_000_000_000

instance (t : Instant) : Decidable t.Ordinary := inferInstanceAs (Decidable (_ < _))

/-- Nanoseconds from `b` to `a`. A leap second on the way counts when the two times of day lie on
either side of it. -/
def since (a b : Instant) : Int :=
  let leap : Int :=
    if b.second % 86400 < a.second % 86400 ∧ 1_000_000_000 ≤ b.nano then 1
    else if a.second % 86400 < b.second % 86400 ∧ 1_000_000_000 ≤ a.nano then -1
    else 0
  (a.second - b.second + leap) * 1_000_000_000 + ((a.nano : Int) - b.nano)

/-- The instant `n` seconds later. Leaving a leap second costs the billion that marks it. -/
def addSeconds (t : Instant) (n : Int) : Instant :=
  if t.nano < 1_000_000_000 ∨ n = 0 then ⟨t.second + n, t.nano⟩
  else if 0 < n then ⟨t.second + n, t.nano - 1_000_000_000⟩
  else ⟨t.second + 1 + n, t.nano - 1_000_000_000⟩

/-- The instant a span later, read by a clock that knows no leap seconds. -/
def plus (t : Instant) (d : Span) : Instant :=
  ⟨t.second + ((t.nano + d.nanos) / 1_000_000_000 : Nat), (t.nano + d.nanos) % 1_000_000_000⟩

theorem le_plus (t : Instant) (d : Span) : t ≤ t.plus d := by
  rw [le_def, plus]; simp only; omega

theorem ordinary_plus (t : Instant) (d : Span) : (t.plus d).Ordinary :=
  Nat.mod_lt _ (by decide)

theorem plus_zero {t : Instant} (ht : t.Ordinary) : t.plus ⟨0⟩ = t := by
  rw [plus, Nat.add_zero, Nat.div_eq_of_lt ht, Nat.mod_eq_of_lt ht, Int.natCast_zero, Int.add_zero]

theorem plus_plus (t : Instant) (a b : Span) :
    (t.plus a).plus b = t.plus ⟨a.nanos + b.nanos⟩ := by
  simp only [plus, mk.injEq]
  omega

theorem latest_plus (t : Instant) (d : Span) : t.latest (t.plus d) = t.plus d :=
  if_pos (le_plus t d)

/-- The UTC date of an instant. -/
def date (t : Instant) : Date := Date.ofDays (t.second / 86400)

/-- Seconds since midnight, UTC. -/
def secondOfDay (t : Instant) : Nat := (t.second % 86400).toNat

/-- The first instant past the last day that can be handled, the end of the year 262142. -/
def endOfTime : Instant := ⟨Date.toDays ⟨262143, 1, 1⟩ * 86400, 0⟩

end Instant

end PoolKeeper
