import PoolKeeper.Time.Instant

/-!
# Day numbers and dates

* `Date.Place`: a place in an era of 400 years, by century, group of four years, year and day;
  `Date.exists_place`: every day of an era has one;
* `Date.Place.ofEra_eq`, `Date.ofDays_eq`: the year of the era, and the date;
* **`Date.toDays_ofDays`**: the date of a day number has that day number;
* **`Date.isReal_ofDays`**: it is in the calendar;
* `Instant.FourDigit`: the years 0 to 9999; `Instant.FourDigit.second_lt`: where they end.
-/

namespace PoolKeeper.Date

/-- A day of an era. Only the last year of a group has a leap day, and of the groups at the end of
a century only the last one. -/
structure Place (dayOfEra : Int) where
  century : Int
  /-- The group of four years in the century. -/
  group : Int
  /-- The year in the group. -/
  year : Int
  /-- The day of the year, which begins on 1 March. -/
  day : Nat
  century_range : 0 ≤ century ∧ century ≤ 3
  group_range : 0 ≤ group ∧ group ≤ 24
  year_range : 0 ≤ year ∧ year ≤ 3
  day_range : day ≤ 365
  sum : dayOfEra = 36524 * century + 1461 * group + 365 * year + day
  leap : day = 365 → year = 3 ∧ (group ≠ 24 ∨ century = 3)

theorem exists_place {dayOfEra : Int} (h : 0 ≤ dayOfEra ∧ dayOfEra < 146097) :
    Nonempty (Place dayOfEra) := by
  let century := min 3 (dayOfEra / 36524)
  let ofCentury := dayOfEra - 36524 * century
  let group := ofCentury / 1461
  let ofGroup := ofCentury - 1461 * group
  let year := min 3 (ofGroup / 365)
  have hcentury : century = min 3 (dayOfEra / 36524) := rfl
  have hofCentury : ofCentury = dayOfEra - 36524 * century := rfl
  have hgroup : group = ofCentury / 1461 := rfl
  have hofGroup : ofGroup = ofCentury - 1461 * group := rfl
  have hyear : year = min 3 (ofGroup / 365) := rfl
  refine ⟨century, group, year, (ofGroup - 365 * year).toNat, ?_, ?_, ?_, ?_, ?_, ?_⟩
  all_goals omega

namespace Place

variable {dayOfEra : Int} (p : Place dayOfEra)

/-- The year of the era. -/
def ofEra : Int := 100 * p.century + 4 * p.group + p.year

/-- The month, counted from March. -/
def fromMarch : Nat := (5 * p.day + 2) / 153

/-- The month. -/
def month : Nat := if p.fromMarch < 10 then p.fromMarch + 3 else p.fromMarch - 9

/-- The day of the month. -/
def ofMonth : Nat := p.day - (153 * p.fromMarch + 2) / 5 + 1

/-- The date in an era. -/
def date (era : Int) : Date where
  year := p.ofEra + era * 400 + (if p.month ≤ 2 then 1 else 0)
  month := p.month
  day := p.ofMonth

/-- The year of the era is found from the day of the era. -/
theorem ofEra_eq :
    (dayOfEra - dayOfEra / 1460 + dayOfEra / 36524 - dayOfEra / 146096) / 365 = p.ofEra := by
  obtain ⟨century, group, year, day, hcentury, hgroup, hyear, hday, hsum, hleap⟩ := p
  show _ = 100 * century + 4 * group + year
  by_cases hlast : dayOfEra = 146096
  · subst hlast
    omega
  · have hcenturies : dayOfEra / 36524 = century := by omega
    have heras : dayOfEra / 146096 = 0 := by omega
    by_cases hcarry : 1460 ≤ 24 * century + group + 365 * year + day
    · have hgroups : dayOfEra / 1460 = 25 * century + group + 1 := by omega
      omega
    · have hgroups : dayOfEra / 1460 = 25 * century + group := by omega
      omega

theorem day_eq : dayOfEra = p.ofEra * 365 + p.ofEra / 4 - p.ofEra / 100 + p.day := by
  obtain ⟨century, group, year, day, hcentury, hgroup, hyear, hday, hsum, hleap⟩ := p
  simp only [ofEra]
  have hfours : (100 * century + 4 * group + year) / 4 = 25 * century + group := by omega
  have hhundreds : (100 * century + 4 * group + year) / 100 = century := by omega
  omega

theorem ofEra_range : 0 ≤ p.ofEra ∧ p.ofEra < 400 := by
  obtain ⟨century, group, year, day, hcentury, hgroup, hyear, hday, hsum, hleap⟩ := p
  simp only [ofEra]
  omega

theorem fromMarch_le : p.fromMarch ≤ 11 := by
  have hday := p.day_range
  rw [fromMarch]
  omega

theorem fromMarch_eq : (p.month + 9) % 12 = p.fromMarch := by
  have hle := p.fromMarch_le
  unfold month
  split
  · omega
  · omega

theorem isLeapYear (h : p.day = 365) (era : Int) :
    isLeapYear (p.ofEra + era * 400 + 1) = true := by
  obtain ⟨century, group, year, day, hcentury, hgroup, hyear, hday, hsum, hleap⟩ := p
  obtain ⟨rfl, hgroups⟩ := hleap h
  have hyear : 100 * century + 4 * group + 3 + era * 400 + 1 =
      4 * (25 * century + group + 1 + era * 100) := by omega
  simp only [ofEra, Date.isLeapYear, Bool.and_eq_true, Bool.or_eq_true, beq_iff_eq, bne_iff_ne,
    ne_eq]
  omega

end Place

/-- The date of a day number, by its place in an era. -/
theorem ofDays_eq {days : Int} (p : Place ((days + 719468) % 146097)) :
    ofDays days = p.date ((days + 719468) / 146097) := by
  have hday : (days + 719468) % 146097 - (365 * p.ofEra + p.ofEra / 4 - p.ofEra / 100) = p.day := by
    have hsum := p.day_eq
    omega
  simp only [ofDays, p.ofEra_eq, hday, Int.toNat_natCast]
  rfl

/-- **The date of a day number has that day number.** -/
theorem toDays_ofDays (days : Int) : (ofDays days).toDays = days := by
  have hday : 0 ≤ (days + 719468) % 146097 ∧ (days + 719468) % 146097 < 146097 := by omega
  obtain ⟨p⟩ := exists_place hday
  have hrange := p.ofEra_range
  have hsum := p.day_eq
  have hofMonth : (153 * p.fromMarch + 2) / 5 + p.ofMonth - 1 = p.day := by
    rw [Place.ofMonth, Place.fromMarch]
    omega
  rw [ofDays_eq p]
  simp only [toDays, Place.date, p.fromMarch_eq, hofMonth]
  omega

theorem daysInMonth_fromMarch (year : Int) : (m : Nat) → m < 11 →
    daysInMonth year (if m < 10 then m + 3 else m - 9) = (153 * (m + 1) + 2) / 5 - (153 * m + 2) / 5
  | 0, _ | 1, _ | 2, _ | 3, _ | 4, _ | 5, _ | 6, _ | 7, _ | 8, _ | 9, _ | 10, _ => rfl

theorem le_daysInMonth_february (year : Int) : 28 ≤ daysInMonth year 2 := by
  simp only [daysInMonth]
  split
  · decide
  · decide

/-- **The date of a day number is in the calendar.** -/
theorem isReal_ofDays (days : Int) : (ofDays days).IsReal := by
  have hday : 0 ≤ (days + 719468) % 146097 ∧ (days + 719468) % 146097 < 146097 := by omega
  obtain ⟨p⟩ := exists_place hday
  have hrange := p.day_range
  have hle := p.fromMarch_le
  have hfrom : (5 * p.day + 2) / 153 = p.fromMarch := rfl
  have hofMonth : p.ofMonth = p.day - (153 * p.fromMarch + 2) / 5 + 1 := rfl
  rw [ofDays_eq p]
  refine ⟨Nat.le_add_left 1 _, ?_⟩
  show p.ofMonth ≤ daysInMonth (p.date _).year p.month
  by_cases hlast : p.fromMarch = 11
  · -- the year ends with February
    have hmonth : p.month = 2 := by rw [Place.month, hlast]; rfl
    rw [hmonth]
    by_cases hday : p.day = 365
    · have hleap := p.isLeapYear hday ((days + 719468) / 146097)
      have hlength : daysInMonth (p.date ((days + 719468) / 146097)).year 2 = 29 := by
        simp only [Place.date, hmonth, daysInMonth, Nat.le_refl, if_true, hleap]
      omega
    · have hlength := le_daysInMonth_february (p.date ((days + 719468) / 146097)).year
      omega
  · have hlength := daysInMonth_fromMarch (p.date ((days + 719468) / 146097)).year p.fromMarch
      (by omega)
    rw [Place.month, hlength]
    omega

theorem daysInMonth_le (year : Int) (month : Nat) : daysInMonth year month ≤ 31 := by
  have hfebruary : (if isLeapYear year = true then 29 else 28) ≤ 31 := by
    split
    · decide
    · decide
  unfold daysInMonth
  split
  all_goals omega

theorem IsReal.day_le {d : Date} (h : d.IsReal) : d.day ≤ 31 :=
  Nat.le_trans h.2 (daysInMonth_le d.year d.month)

theorem IsReal.month_le {d : Date} (h : d.IsReal) : d.month ≤ 12 := by
  by_cases hle : d.month ≤ 12
  · exact hle
  · have hnone : daysInMonth d.year d.month = 0 := by
      unfold daysInMonth
      split
      all_goals omega
    have hfirst := h.1
    have hlast := h.2
    omega

/-! ## Years -/

/-- A day in a year of at most four digits comes before the first day of the year 10000. -/
theorem toDays_lt {d : Date} (hreal : d.IsReal) (hyear : d.year ≤ 9999) :
    d.toDays < toDays ⟨10000, 1, 1⟩ := by
  have hlast : Date.toDays ⟨10000, 1, 1⟩ = 2932897 := rfl
  have hday := hreal.day_le
  have hmonth := hreal.month_le
  rw [hlast]
  simp only [toDays]
  split
  · omega
  · -- the months after February leave at most 306 days of a year
    have hofYear : (153 * ((d.month + 9) % 12) + 2) / 5 + d.day - 1 ≤ 305 := by omega
    have hofEra : d.year % 400 * 365 + d.year % 400 / 4 - d.year % 400 / 100 ≤ 145731 := by omega
    omega

end PoolKeeper.Date

namespace PoolKeeper.Instant

/-- The time lies in the years 0 to 9999. -/
def FourDigit (t : Instant) : Prop := 0 ≤ t.date.year ∧ t.date.year ≤ 9999

instance (t : Instant) : Decidable t.FourDigit := inferInstanceAs (Decidable (_ ∧ _))

/-- The first second of the year 10000. -/
def fiveDigits : Int := Date.toDays ⟨10000, 1, 1⟩ * 86400

theorem FourDigit.second_lt {t : Instant} (h : t.FourDigit) : t.second < fiveDigits := by
  have hdays := Date.toDays_lt (Date.isReal_ofDays (t.second / 86400)) h.2
  rw [Date.toDays_ofDays] at hdays
  rw [fiveDigits]
  omega

theorem second_addSeconds (t : Instant) (n : Nat) : (t.addSeconds n).second = t.second + n := by
  unfold addSeconds
  split
  · rfl
  · split
    · rfl
    · omega

end PoolKeeper.Instant
