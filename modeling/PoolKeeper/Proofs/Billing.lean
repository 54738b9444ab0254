import PoolKeeper.Proofs.Calendar
import PoolKeeper.Proofs.Plan

/-!
# Hours that are paid for

On a clock without leap seconds an instant is a count of nanoseconds, and billing is arithmetic on
these counts.

* `Instant.nanos`: the count; `Instant.le_iff_nanos`, `Instant.since_eq`,
  `Instant.nanos_addSeconds`, `Instant.nanos_latest`: order, distances and moves in terms of it;
* `Billing.InHour`: how many hours of a machine are over; `Billing.exists_inHour`: there is always
  such a number, and `Billing.InHour.hourEnd_eq`: the present hour ends one later;
* `Billing.hourEnd_told`: in the years 0 to 9999 every hour ends before time does;
* `Planner.leaves_eq_latest`: when a victim goes;
* **`Planner.leaves_within_hour`**: it goes as late as it can in the hour that is paid for already,
  and no later look at the clock up to then changes that.
-/

namespace PoolKeeper

namespace Instant

/-- Nanoseconds since 1970, on a clock without leap seconds. -/
def nanos (t : Instant) : Int := t.second * 1_000_000_000 + t.nano

variable {a b t : Instant}

theorem le_iff_nanos (ha : a.Ordinary) (hb : b.Ordinary) : a ≤ b ↔ a.nanos ≤ b.nanos := by
  rw [le_def]
  unfold nanos Ordinary at *
  omega

theorem lt_iff_nanos (ha : a.Ordinary) (hb : b.Ordinary) : a < b ↔ a.nanos < b.nanos := by
  rw [lt_def]
  unfold nanos Ordinary at *
  omega

theorem since_eq (ha : a.Ordinary) (hb : b.Ordinary) : a.since b = a.nanos - b.nanos := by
  unfold Ordinary at *
  have hb' : ¬ 1_000_000_000 ≤ b.nano := by omega
  have ha' : ¬ 1_000_000_000 ≤ a.nano := by omega
  simp only [since, hb', ha', and_false, if_false, nanos]
  omega

theorem ordinary_addSeconds (ht : t.Ordinary) (n : Int) : (t.addSeconds n).Ordinary := by
  rw [addSeconds, if_pos (.inl ht)]
  exact ht

theorem nanos_addSeconds (ht : t.Ordinary) (n : Int) :
    (t.addSeconds n).nanos = t.nanos + n * 1_000_000_000 := by
  rw [addSeconds, if_pos (.inl ht)]
  simp only [nanos]
  omega

theorem ordinary_latest (ha : a.Ordinary) (hb : b.Ordinary) : (a.latest b).Ordinary :=
  latest_cases ha hb

theorem nanos_latest (ha : a.Ordinary) (hb : b.Ordinary) :
    (a.latest b).nanos = max a.nanos b.nanos := by
  have hle := le_iff_nanos ha hb
  unfold latest
  split
  · rename_i h
    rw [Int.max_eq_right (hle.1 h)]
  · rename_i h
    rw [Int.max_eq_left (Int.le_of_lt (Int.not_le.1 (mt hle.2 h)))]

theorem lt_of_le_of_lt {c : Instant} (h : a ≤ b) (h' : b < c) : a < c := by
  rw [le_def] at h
  rw [lt_def] at *
  omega

theorem eq_of_nanos (ha : a.Ordinary) (hb : b.Ordinary) (h : a.nanos = b.nanos) : a = b := by
  obtain ⟨second, nano⟩ := a
  obtain ⟨second', nano'⟩ := b
  simp only [nanos, Ordinary] at *
  obtain ⟨rfl, rfl⟩ : second = second' ∧ nano = nano' := by omega
  rfl

end Instant

namespace Billing

variable {launched now t : Instant} {hours : Nat}

/-- So many hours of a machine are over. A machine that is yet to be launched is in its first. -/
structure InHour (launched now : Instant) (hours : Nat) : Prop where
  begun : hours = 0 ∨ launched.addSeconds (hours * period : Nat) ≤ now
  ends : now < launched.addSeconds ((hours + 1) * period : Nat)

theorem InHour.until (h : InHour launched now hours) (hle : now ≤ t)
    (ht : t < launched.addSeconds ((hours + 1) * period : Nat)) : InHour launched t hours where
  begun := h.begun.imp_right fun hbegun => Instant.le_trans hbegun hle
  ends := ht

section Ordinary

variable (hl : launched.Ordinary) (hn : now.Ordinary)

include hl hn

theorem inHour_iff : InHour launched now hours ↔
    (hours = 0 ∨ hours * 3_600_000_000_000 ≤ now.nanos - launched.nanos) ∧
      now.nanos - launched.nanos < (hours + 1) * 3_600_000_000_000 := by
  have hle := Instant.le_iff_nanos (Instant.ordinary_addSeconds hl (hours * period : Nat)) hn
  have hends := Instant.lt_iff_nanos hn
    (Instant.ordinary_addSeconds hl ((hours + 1) * period : Nat))
  rw [Instant.nanos_addSeconds hl] at hle hends
  unfold period at hle hends
  constructor
  · rintro ⟨hbegun, hend⟩
    exact ⟨hbegun.imp_right fun h => by have := hle.1 h; omega, by have := hends.1 hend; omega⟩
  · rintro ⟨hbegun, hend⟩
    exact ⟨hbegun.imp_right fun h => hle.2 (by omega), hends.2 (by omega)⟩

/-- **The present hour ends one hour later than those that are over.** -/
theorem InHour.hourEnd_eq (h : InHour launched now hours) :
    hourEnd launched now = launched.addSeconds ((hours + 1) * period : Nat) := by
  obtain ⟨hbegun, hends⟩ := (inHour_iff hl hn).1 h
  have hhours : (now.since launched).toNat / 1_000_000_000 / period = hours := by
    rw [Instant.since_eq hn hl, period]
    omega
  rw [hourEnd, hhours]

theorem exists_inHour : ∃ hours, InHour launched now hours := by
  refine ⟨(now.nanos - launched.nanos).toNat / 3_600_000_000_000, (inHour_iff hl hn).2 ?_⟩
  omega

theorem ordinary_hourEnd : (hourEnd launched now).Ordinary := by
  obtain ⟨hours, h⟩ := exists_inHour hl hn
  rw [h.hourEnd_eq hl hn]
  exact Instant.ordinary_addSeconds hl _

theorem lt_hourEnd : now < hourEnd launched now := by
  obtain ⟨hours, h⟩ := exists_inHour hl hn
  rw [h.hourEnd_eq hl hn]
  exact h.ends

theorem hourEnd_le (h : launched ≤ now) :
    hourEnd launched now ≤ now.addSeconds period := by
  obtain ⟨hours, hin⟩ := exists_inHour hl hn
  have hbegun := ((inHour_iff hl hn).1 hin).1
  rw [Instant.le_iff_nanos hl hn] at h
  rw [hin.hourEnd_eq hl hn, Instant.le_iff_nanos (Instant.ordinary_addSeconds hl _)
    (Instant.ordinary_addSeconds hn _), Instant.nanos_addSeconds hl, Instant.nanos_addSeconds hn]
  unfold period
  omega

theorem hourEnd_of_lt (h : now < launched) :
    hourEnd launched now = launched.addSeconds period := by
  rw [Instant.lt_iff_nanos hn hl] at h
  have hin : InHour launched now 0 := (inHour_iff hl hn).2 ⟨.inl rfl, by omega⟩
  rw [hin.hourEnd_eq hl hn, Nat.zero_add, Nat.one_mul]

/-- **The end of an hour is the same all through the hour.** -/
theorem hourEnd_until (ht : t.Ordinary) (hle : now ≤ t) (hlt : t < hourEnd launched now) :
    hourEnd launched t = hourEnd launched now := by
  obtain ⟨hours, hin⟩ := exists_inHour hl hn
  rw [hin.hourEnd_eq hl hn] at hlt ⊢
  exact (hin.until hle hlt).hourEnd_eq hl ht

/-- An hour of a machine launched in the years 0 to 9999, looked at in these years, ends before time
does. -/
theorem hourEnd_told (hl' : launched.FourDigit) (hn' : now.FourDigit) :
    hourEnd launched now < Instant.endOfTime := by
  have hroom : Instant.fiveDigits + 3600 < Instant.endOfTime.second := by decide
  have hlaunched := hl'.second_lt
  have hnow := hn'.second_lt
  by_cases hle : launched ≤ now
  · have hend := hourEnd_le hl hn hle
    rw [Instant.le_def, Instant.second_addSeconds, period] at hend
    rw [Instant.lt_def]
    omega
  · rw [hourEnd_of_lt hl hn (Instant.not_le.1 hle), Instant.lt_def, Instant.second_addSeconds,
      period]
    omega

end Ordinary

end Billing

namespace Planner

variable {p : Planner} {m : Machine} {launched now : Instant}

theorem leaves_eq_latest (hm : m.launched = some launched) (now : Instant) :
    p.leaves m now =
      if p.margin = 0 then now
      else now.latest ((Billing.hourEnd launched now).addSeconds (-p.margin)) := by
  rw [leaves, hm]

theorem leaves_of_pos (hp : 0 < p.margin) (hm : m.launched = some launched)
    (now : Instant) : p.leaves m now =
      now.latest ((Billing.hourEnd launched now).addSeconds (-p.margin)) := by
  rw [leaves_eq_latest hm, if_neg (Nat.ne_of_gt hp)]

theorem terminationTime_of_told (hm : m.launched = some launched)
    (h : Billing.hourEnd launched now < Instant.endOfTime) :
    p.terminationTime m now = some (p.leaves m now) := by
  have htold : m.HourTold now := fun launched' heq => by
    cases hm.symm.trans heq
    exact h
  rw [terminationTime_eq, if_pos (.inr htold)]

section Ordinary

variable (hl : launched.Ordinary) (hn : now.Ordinary) (hm : m.launched = some launched)

include hl hn hm

theorem ordinary_leaves : (p.leaves m now).Ordinary := by
  rw [leaves_eq_latest hm]
  split
  · exact hn
  · exact Instant.ordinary_latest hn
      (Instant.ordinary_addSeconds (Billing.ordinary_hourEnd hl hn) _)

theorem leaves_lt : p.leaves m now < Billing.hourEnd launched now := by
  have hlt := Billing.lt_hourEnd hl hn
  have hend := Billing.ordinary_hourEnd hl hn
  rcases Nat.eq_zero_or_pos p.margin with hzero | hpos
  · rw [leaves_eq_latest hm, if_pos hzero]
    exact hlt
  · rw [Instant.lt_iff_nanos hn hend] at hlt
    rw [Instant.lt_iff_nanos (ordinary_leaves hl hn hm) hend,
      leaves_of_pos hpos hm,
      Instant.nanos_latest hn (Instant.ordinary_addSeconds hend _), Instant.nanos_addSeconds hend]
    omega

/-- With a margin, the time at which a victim goes is the same at every time up to then. -/
theorem leaves_stable (hp : 0 < p.margin) {later : Instant} (hlater : later.Ordinary)
    (hle : now ≤ later) (h : later ≤ p.leaves m now) :
    p.leaves m later = p.leaves m now := by
  have hleaves := ordinary_leaves (p := p) hl hn hm
  have hlt := leaves_lt (p := p) hl hn hm
  have hsame : Billing.hourEnd launched later = Billing.hourEnd launched now :=
    Billing.hourEnd_until hl hn hlater hle (Instant.lt_of_le_of_lt h hlt)
  have hgoal : (Billing.hourEnd launched now |>.addSeconds (-p.margin)).Ordinary :=
    Instant.ordinary_addSeconds (Billing.ordinary_hourEnd hl hn) _
  rw [Instant.le_iff_nanos hn hlater] at hle
  rw [Instant.le_iff_nanos hlater hleaves] at h
  rw [leaves_of_pos hp hm] at h ⊢
  rw [leaves_of_pos hp hm, hsame]
  refine Instant.eq_of_nanos (Instant.ordinary_latest hlater hgoal)
    (Instant.ordinary_latest hn hgoal) ?_
  rw [Instant.nanos_latest hn hgoal] at h ⊢
  rw [Instant.nanos_latest hlater hgoal]
  omega

end Ordinary

/-- **A victim goes as late as it can in the hour that is paid for already.** Its hour ends a whole
number of hours after its launch, and within an hour from now unless it is yet to be launched. It
goes before that, and not in the past; with a margin, whoever looks at the clock again until then
finds the same time. All this can be told if the hour ends before time does, as it does in the years
0 to 9999. -/
theorem leaves_within_hour (hl : launched.Ordinary) (hn : now.Ordinary)
    (hm : m.launched = some launched) :
    let hourEnd := Billing.hourEnd launched now
    let leaves := p.leaves m now
    (∃ hours : Nat, 0 < hours ∧ hourEnd.since launched = hours * 3600 * 1_000_000_000) ∧
      now < hourEnd ∧
      (launched ≤ now → hourEnd ≤ now.addSeconds 3600) ∧
      (now < launched → hourEnd = launched.addSeconds 3600) ∧
      now ≤ leaves ∧ leaves < hourEnd ∧
      leaves = (if p.margin = 0 then now else now.latest (hourEnd.addSeconds (-p.margin))) ∧
      (launched.FourDigit → now.FourDigit → hourEnd < Instant.endOfTime) ∧
      (hourEnd < Instant.endOfTime →
        Billing.nextBoundary launched now = some hourEnd ∧ p.terminationTime m now = some leaves ∧
          Billing.nextBoundary launched leaves = some hourEnd ∧
          (0 < p.margin → ∀ later : Instant, later.Ordinary → now ≤ later → later ≤ leaves →
            p.terminationTime m later = some leaves)) := by
  intro hourEnd leaves
  have hlt : leaves < hourEnd := leaves_lt hl hn hm
  have heq : leaves = if p.margin = 0 then now else now.latest (hourEnd.addSeconds (-p.margin)) :=
    leaves_eq_latest hm now
  have hle : now ≤ leaves := by
    rw [heq]
    split
    · exact Instant.le_refl now
    · exact Instant.le_latest now _
  have hsame : ∀ t : Instant, t.Ordinary → now ≤ t → t < hourEnd →
      Billing.hourEnd launched t = hourEnd := fun t ht hle hlt =>
    Billing.hourEnd_until hl hn ht hle hlt
  refine ⟨?_, Billing.lt_hourEnd hl hn, Billing.hourEnd_le hl hn, Billing.hourEnd_of_lt hl hn, hle,
    hlt, heq, Billing.hourEnd_told hl hn, fun htold => ⟨Billing.nextBoundary_eq_hourEnd htold,
      terminationTime_of_told hm htold, ?_, fun hpos later hlater hle' hbefore => ?_⟩⟩
  · obtain ⟨hours, hin⟩ := Billing.exists_inHour hl hn
    refine ⟨hours + 1, Nat.succ_pos hours, ?_⟩
    rw [Instant.since_eq (Billing.ordinary_hourEnd hl hn) hl, hin.hourEnd_eq hl hn,
      Instant.nanos_addSeconds hl, Billing.period]
    omega
  · have hend := hsame leaves (ordinary_leaves hl hn hm) hle hlt
    rw [Billing.nextBoundary_eq_hourEnd (hend ▸ htold), hend]
  · have hend := hsame later hlater hle' (Instant.lt_of_le_of_lt hbefore hlt)
    rw [terminationTime_of_told hm (hend ▸ htold), leaves_stable hl hn hm hpos hlater hle' hbefore]

/-- A machine that was launched half a second into a minute, looked at in its second hour. -/
theorem leaves_within_hour_halfSecond :
    let launched : Instant := ⟨30, 500_000_000⟩
    let now : Instant := ⟨5000, 200_000_000⟩
    let m : Machine := { id := "web-0001", state := .running, launched := some launched }
    let p : Planner := ⟨⟨[m], now⟩, .empty, .oldest, 600⟩
    launched.Ordinary ∧ now.Ordinary ∧ m.launched = some launched ∧
      p.terminationTime m now = some ⟨6630, 500_000_000⟩ ∧
      Billing.nextBoundary launched ⟨6630, 500_000_000⟩ = some ⟨7230, 500_000_000⟩ ∧
      p.terminationTime m ⟨6630, 0⟩ = some ⟨6630, 500_000_000⟩ := by
  intro launched now m p
  have hl : launched.Ordinary := by decide
  have hn : now.Ordinary := by decide
  have hm : m.launched = some launched := rfl
  have hleaves : p.leaves m now = ⟨6630, 500_000_000⟩ := by decide
  have hend : Billing.hourEnd launched now = ⟨7230, 500_000_000⟩ := by decide
  obtain ⟨_, _, _, _, _, _, _, hyears, htold⟩ := leaves_within_hour (p := p) hl hn hm
  obtain ⟨_, hgoes, hsame, hstable⟩ := htold (hyears (by decide) (by decide))
  rw [hleaves, hend] at hsame
  rw [hleaves] at hgoes hstable
  have hlater : p.terminationTime m ⟨6630, 0⟩ = some ⟨6630, 500_000_000⟩ :=
    hstable (by decide) ⟨6630, 0⟩ (by decide) (by decide) (by decide)
  exact ⟨hl, hn, hm, hgoes, hsame, hlater⟩

end Planner

end PoolKeeper
