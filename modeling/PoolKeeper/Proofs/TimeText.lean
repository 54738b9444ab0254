import PoolKeeper.Proofs.Calendar
import PoolKeeper.Proofs.Digits

/-!
# Written times are read again

* `Instant.number?_padded`, `Instant.field?_padded`, `Instant.mark?_cons`: fields and marks;
* `Instant.year?_yearText`, `Instant.fraction?_fractionText`: years and fractions;
* `Instant.Proper`: the times that the calendar has; **`Instant.ofText?_toText`**: such a time is read
  as it was written if its year is in range, and is not read at all otherwise.
-/

namespace PoolKeeper

/-! ## Fields -/

theorem Text.isBlank_of_isDigit {c : Char} (h : c.isDigit = true) : Text.isBlank c = false := by
  have hrange := Char.isDigit_iff_toNat.1 h
  have hlow : '0'.toNat = 48 := rfl
  have hhigh : '9'.toNat = 57 := rfl
  simp only [Text.isBlank, Bool.or_eq_false_iff, Bool.and_eq_false_iff, decide_eq_false_iff_not,
    beq_eq_false_iff_ne]
  omega

theorem Text.dropBlank_cons {c : Char} (h : Text.isBlank c = false) (cs : List Char) :
    Text.dropBlank (c :: cs) = c :: cs := by
  rw [Text.dropBlank, List.dropWhile_cons_of_neg (by simp [h])]

namespace Instant

variable {ds rest : List Char}

/-- A number is read up to its last digit, or up to as many as it may have. -/
theorem number?_append {most : Nat} (hne : ds ≠ []) (hds : ∀ c ∈ ds, c.isDigit = true)
    (hlen : ds.length ≤ most)
    (hrest : ∀ c ∈ (rest.take (most - ds.length)).head?, c.isDigit = false) :
    number? most (ds ++ rest) = some (digitsValue ds, rest) := by
  have htake : (ds ++ rest).take most = ds ++ rest.take (most - ds.length) := by
    rw [List.take_append, List.take_of_length_le hlen]
  have hdigits : ((ds ++ rest).take most).takeWhile Char.isDigit = ds := by
    have hall : (ds ++ []).takeWhile Char.isDigit = ds ++ [].takeWhile Char.isDigit :=
      List.takeWhile_append_of_pos hds
    simp only [List.append_nil, List.takeWhile_nil] at hall
    rw [htake, takeWhile_append_of_head hrest, hall]
  simp only [number?, hdigits, List.isEmpty_eq_false_iff.2 hne, Bool.false_eq_true, if_false,
    List.drop_left]

theorem number?_padded {width n : Nat} (hpos : 0 < width) (h : n < 10 ^ width) (rest : List Char) :
    number? width ((padded width n).toList ++ rest) = some (n, rest) := by
  have hlen := length_padded hpos h
  rw [number?_append (padded_ne_nil width n) (padded_isDigit width n) (Nat.le_of_eq hlen),
    digitsValue_padded]
  rw [hlen, Nat.sub_self, List.take_zero]
  intro c hc
  cases hc

theorem dropBlank_padded (width n : Nat) (rest : List Char) :
    Text.dropBlank ((padded width n).toList ++ rest) = (padded width n).toList ++ rest := by
  have hdigits := padded_isDigit width n
  cases hds : (padded width n).toList with
  | nil => exact absurd hds (padded_ne_nil width n)
  | cons c ds =>
    rw [hds] at hdigits
    exact Text.dropBlank_cons (Text.isBlank_of_isDigit (hdigits c List.mem_cons_self)) _

theorem field?_padded {width n : Nat} (hpos : 0 < width) (h : n < 10 ^ width) (rest : List Char) :
    field? width ((padded width n).toList ++ rest) = some (n, rest) := by
  rw [field?, dropBlank_padded, number?_padded hpos h]

theorem mark?_cons {mark : Char} (h : Text.isBlank mark = false) (rest : List Char) :
    mark? mark (mark :: rest) = some rest := by
  rw [mark?, Text.dropBlank_cons h]
  simp

/-! ## Years and fractions -/

theorem year?_yearText (year : Int) (rest : List Char) :
    year? ((yearText year).toList ++ '-' :: rest) = some (year, '-' :: rest) := by
  have hsigned : ∀ n : Nat, number? ((padded 4 n).toList ++ '-' :: rest).length
      ((padded 4 n).toList ++ '-' :: rest) = some (n, '-' :: rest) := by
    intro n
    rw [number?_append (padded_ne_nil 4 n) (padded_isDigit 4 n), digitsValue_padded]
    · rw [List.length_append]
      omega
    · intro c hc
      rw [List.length_append, Nat.add_sub_cancel_left, List.take_length] at hc
      cases hc
      rfl
  unfold yearText
  split
  · have hn : year.toNat < 10 ^ 4 := by omega
    have hvalue : (year.toNat : Int) = year := by omega
    have hnumber := number?_padded (by decide) hn ('-' :: rest)
    have hhead : ∀ c tail, (padded 4 year.toNat).toList ++ '-' :: rest = c :: tail →
        c.isDigit = true := by
      intro c tail heq
      have hdigits := padded_isDigit 4 year.toNat
      cases hds : (padded 4 year.toNat).toList with
      | nil => exact absurd hds (padded_ne_nil 4 _)
      | cons d ds =>
        rw [hds] at heq hdigits
        cases heq
        exact hdigits c List.mem_cons_self
    rw [year?, dropBlank_padded]
    split
    · rename_i heq
      exact absurd (hhead _ _ heq) (by decide)
    · rename_i heq
      exact absurd (hhead _ _ heq) (by decide)
    · rw [hnumber]
      simp only [Option.map_some, hvalue]
  · have hsign : ∀ sign : String, (sign ++ padded 4 year.natAbs).toList ++ '-' :: rest =
        sign.toList ++ ((padded 4 year.natAbs).toList ++ '-' :: rest) := by
      intro sign
      rw [String.toList_append, List.append_assoc]
    rw [hsign]
    generalize hdigits : (padded 4 year.natAbs).toList ++ '-' :: rest = cs
    have hnumber := hsigned year.natAbs
    rw [hdigits] at hnumber
    split
    · have hvalue : -(year.natAbs : Int) = year := by omega
      show year? ('-' :: cs) = _
      rw [year?, Text.dropBlank_cons rfl]
      simp only [hnumber, Option.map_some, hvalue]
    · have hvalue : (year.natAbs : Int) = year := by omega
      show year? ('+' :: cs) = _
      rw [year?, Text.dropBlank_cons rfl]
      simp only [hnumber, Option.map_some, hvalue]

theorem fraction?_fractionText {nano : Nat} (h : nano < 1_000_000_000) :
    fraction? ((fractionText nano).toList ++ ['Z']) = some (nano, ['Z']) := by
  -- the digits that are left out are zeros
  have hdigits : ∀ width n : Nat, 0 < width → width ≤ 9 → n < 10 ^ width →
      n * 10 ^ (9 - width) = nano →
      fraction? (("." ++ padded width n).toList ++ ['Z']) = some (nano, ['Z']) := by
    intro width n hpos hle hn hvalue
    have hlen := length_padded hpos hn
    have hnumber : number? 9 ((padded width n).toList ++ ['Z']) = some (n, ['Z']) := by
      rw [number?_append (padded_ne_nil width n) (padded_isDigit width n) (by omega),
        digitsValue_padded]
      intro c hc
      cases hk : 9 - (padded width n).toList.length with
      | zero =>
        rw [hk] at hc
        cases hc
      | succ k =>
        rw [hk] at hc
        cases hc
        rfl
    have htext : ("." ++ padded width n).toList ++ ['Z'] =
        '.' :: ((padded width n).toList ++ ['Z']) := by
      rw [String.toList_append]
      rfl
    rw [htext, fraction?, hnumber]
    simp only [Option.bind_eq_bind, Option.bind_some, List.length_append, List.length_singleton,
      Nat.add_sub_cancel, hlen]
    show some (n * 10 ^ (9 - width), _) = _
    rw [hvalue]
    rfl
  unfold fractionText
  split
  · subst nano
    rfl
  · split
    · exact hdigits 3 _ (by decide) (by decide) (by omega) (by omega)
    · split
      · exact hdigits 6 _ (by decide) (by decide) (by omega) (by omega)
      · exact hdigits 9 _ (by decide) (by decide) (by omega) (by omega)

/-! ## Times -/

/-- A time that the calendar has: a leap second comes at the end of a minute. -/
def Proper (t : Instant) : Prop := t.Ordinary ∨ t.nano < 2_000_000_000 ∧ t.second % 60 = 59

/-- The leap second that a time is in. -/
def leap (t : Instant) : Nat := if t.nano < 1_000_000_000 then 0 else 1

theorem toList_toText (t : Instant) :
    t.toText.toList = (yearText t.date.year).toList ++ '-' :: ((padded 2 t.date.month).toList ++
      '-' :: ((padded 2 t.date.day).toList ++ 'T' :: ((padded 2 (t.secondOfDay / 3600)).toList ++
      ':' :: ((padded 2 (t.secondOfDay / 60 % 60)).toList ++
      ':' :: ((padded 2 (t.secondOfDay % 60 + t.leap)).toList ++
      ((fractionText (t.nano - t.leap * 1_000_000_000)).toList ++ ['Z'])))))) := by
  have hdash : "-".toList = ['-'] := rfl
  have hcolon : ":".toList = [':'] := rfl
  have ht : "T".toList = ['T'] := rfl
  have hz : "Z".toList = ['Z'] := rfl
  show (_ ++ _ : String).toList = _
  simp only [String.toList_append, List.append_assoc, hdash, hcolon, ht, hz, List.cons_append,
    List.nil_append]
  rfl

/-- **A time that the calendar has is read as it was written**, if its year is in range. -/
theorem ofText?_toText {t : Instant} (h : t.Proper) :
    ofText? t.toText = if yearInRange t.date.year then some t else none := by
  have hofDay : (t.secondOfDay : Int) = t.second % 86400 := by
    rw [secondOfDay]
    omega
  -- the sixtieth second of a minute is a leap second
  obtain ⟨hleap, hone, hnano, hback⟩ : (if t.secondOfDay % 60 + t.leap = 60 then 1 else 0) = t.leap ∧
      t.secondOfDay % 60 + t.leap ≤ 60 ∧ t.nano - t.leap * 1_000_000_000 < 1_000_000_000 ∧
      t.nano - t.leap * 1_000_000_000 + t.leap * 1_000_000_000 = t.nano := by
    unfold leap
    by_cases hn : t.nano < 1_000_000_000
    · rw [if_pos hn, if_neg (by omega)]
      omega
    · obtain ⟨hlow, hlast⟩ := h.resolve_left hn
      rw [if_neg hn, if_pos (by omega)]
      omega
  have hreal : t.date.IsReal := Date.isReal_ofDays _
  have hmonth : t.date.month < 10 ^ 2 := by
    have hle := hreal.month_le
    omega
  have hday : t.date.day < 10 ^ 2 := by
    have hle := hreal.day_le
    omega
  have hdays : t.date.toDays = t.second / 86400 := Date.toDays_ofDays _
  have hdash : ∀ rest, mark? '-' ('-' :: rest) = some rest := mark?_cons rfl
  have hcolon : ∀ rest, mark? ':' (':' :: rest) = some rest := mark?_cons rfl
  have hfield : ∀ n < 10 ^ 2, ∀ rest, field? 2 ((padded 2 n).toList ++ rest) = some (n, rest) :=
    fun n hn => field?_padded (by decide) hn
  have hmonths := hfield _ hmonth
  have hdays' := hfield _ hday
  have hhours := hfield (t.secondOfDay / 3600) (by omega)
  have hminutes := hfield (t.secondOfDay / 60 % 60) (by omega)
  have hseconds := hfield (t.secondOfDay % 60 + t.leap) (by omega)
  have hzone : offset? (Text.dropBlank ['Z']) = some (0, []) := rfl
  have hdate : (⟨t.date.year, t.date.month, t.date.day⟩ : Date) = t.date := rfl
  have hvalue : (⟨t.date.toDays * 86400 + (t.secondOfDay / 3600 : Nat) * 3600 +
      (t.secondOfDay / 60 % 60 : Nat) * 60 + (t.secondOfDay % 60 + t.leap - t.leap : Nat) - 0,
      t.nano - t.leap * 1_000_000_000 + t.leap * 1_000_000_000⟩ : Instant) = t := by
    have hsum : t.second / 86400 * 86400 + (t.secondOfDay / 3600 : Nat) * 3600 +
        (t.secondOfDay / 60 % 60 : Nat) * 60 + (t.secondOfDay % 60 : Nat) - 0 = t.second := by
      omega
    rw [hdays, Nat.add_sub_cancel, hsum, hback]
  rw [ofText?, toList_toText]
  dsimp only [Option.bind_eq_bind]
  -- the date, then the time of the day
  rw [year?_yearText, Option.bind_some, hdash, Option.bind_some, hmonths, Option.bind_some, hdash,
    Option.bind_some, hdays', Option.bind_some]
  dsimp only
  rw [if_pos (.inl rfl), Option.bind_some, hhours, Option.bind_some, hcolon, Option.bind_some,
    hminutes, Option.bind_some, hcolon, Option.bind_some, hseconds, Option.bind_some,
    fraction?_fractionText hnano, Option.bind_some, hzone, Option.bind_some]
  simp only [hleap, hdate, hvalue]
  have hfields : List.isEmpty ([] : List Char) = true ∧ yearInRange t.date.year = true ∧
      t.date.IsReal ∧ t.secondOfDay / 3600 ≤ 23 ∧ t.secondOfDay / 60 % 60 ≤ 59 ∧
      t.secondOfDay % 60 + t.leap ≤ 60 ∧ (0 : Int).natAbs < 86400 ↔
        yearInRange t.date.year = true :=
    ⟨fun h => h.2.1, fun hyear => ⟨rfl, hyear, hreal, by omega, by omega, hone, by decide⟩⟩
  by_cases hyear : yearInRange t.date.year = true
  · rw [if_pos (hfields.2 hyear), if_pos hyear]
  · rw [if_neg (fun h => hyear (hfields.1 h)), if_neg hyear]

end Instant

end PoolKeeper
