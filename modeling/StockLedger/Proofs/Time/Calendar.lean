import Mathlib.Tactic.Common
import Mathlib.Tactic.IntervalCases
import StockLedger.Time.Calendar

/-!
# Day numbers and dates

The date with a given day number exists and has that day number.

* `CalendarDate.valid_ofDayNumber` : the day exists;
* `CalendarDate.dayNumber_ofDayNumber` : its number is the given one;
* `CalendarDate.year_ofDayNumber_mem` : the days of instants fall into the years of instants.

An era is 400 years of 146097 days. A day of an era is split into centuries, groups of four years,
years and days; only the last year of a group may have a 366th day.
-/

namespace StockLedger
namespace CalendarDate

/-! ## Days of an era -/

/-- The year of an era in which a day of the era falls. -/
def yearOfEra (day : Nat) : Nat :=
  (day - day / 1460 + day / 36524 - day / 146096) / 365

/-- Days of an era before a year of it. -/
def daysBefore (year : Nat) : Nat :=
  365 * year + year / 4 - year / 100

/-- The day, counted from the first of March. -/
def dayOfYear (day : Nat) : Nat :=
  day - daysBefore (yearOfEra day)

/-- A day of an era by century, group of four years, year and day. -/
theorem exists_split {day : Nat} (h : day < 146097) :
    ∃ c q y d, c ≤ 3 ∧ q ≤ 24 ∧ y ≤ 3 ∧ day = 36524 * c + 1461 * q + 365 * y + d ∧
      (d ≤ 364 ∨ d = 365 ∧ y = 3 ∧ (q < 24 ∨ c = 3)) := by
  let c := min (day / 36524) 3
  let q := min ((day - 36524 * c) / 1461) 24
  let y := min ((day - 36524 * c - 1461 * q) / 365) 3
  refine ⟨c, q, y, day - 36524 * c - 1461 * q - 365 * y, ?_, ?_, ?_, ?_, ?_⟩ <;> omega

theorem yearOfEra_split {c q y d : Nat} (hc : c ≤ 3) (hq : q ≤ 24) (hy : y ≤ 3)
    (hd : d ≤ 364 ∨ d = 365 ∧ y = 3 ∧ (q < 24 ∨ c = 3)) :
    yearOfEra (36524 * c + 1461 * q + 365 * y + d) = 100 * c + 4 * q + y := by
  obtain ⟨day, hday⟩ : ∃ day, day = 36524 * c + 1461 * q + 365 * y + d := ⟨_, rfl⟩
  rw [← hday, yearOfEra]
  by_cases hlast : day = 146096
  · subst hlast
    omega
  · -- the first quotient may run ahead by one late in the last year of a group
    have h4 : day / 1460 = 25 * c + q ∧ 24 * c + q + 365 * y + d < 1460 ∨
        day / 1460 = 25 * c + q + 1 ∧ 1460 ≤ 24 * c + q + 365 * y + d := by omega
    have h100 : day / 36524 = c := by omega
    have h400 : day / 146096 = 0 := by omega
    rw [h100, h400]
    rcases h4 with ⟨h4, _⟩ | ⟨h4, _⟩ <;> rw [h4] <;> omega

theorem daysBefore_split {c q y : Nat} (hq : q ≤ 24) (hy : y ≤ 3) :
    daysBefore (100 * c + 4 * q + y) = 36524 * c + 1461 * q + 365 * y := by
  have h4 : (100 * c + 4 * q + y) / 4 = 25 * c + q := by omega
  have h100 : (100 * c + 4 * q + y) / 100 = c := by omega
  rw [daysBefore, h4, h100]
  omega

/-- The year of a day is one of 400, the day falls into it, and a 366th day makes a leap year. -/
theorem yearOfEra_spec {day : Nat} (h : day < 146097) :
    yearOfEra day < 400 ∧ daysBefore (yearOfEra day) ≤ day ∧ dayOfYear day ≤ 365 ∧
      (dayOfYear day = 365 → (yearOfEra day + 1) % 4 = 0 ∧
        ((yearOfEra day + 1) % 100 ≠ 0 ∨ (yearOfEra day + 1) % 400 = 0)) := by
  obtain ⟨c, q, y, d, hc, hq, hy, rfl, hd⟩ := exists_split h
  rw [dayOfYear, yearOfEra_split hc hq hy hd, daysBefore_split hq hy]
  omega

/-! ## The date of a day number -/

/-- The day of the era of a day number. -/
def dayOfEra (n : Int) : Nat :=
  ((n + 719468) % 146097).toNat

theorem dayOfEra_lt (n : Int) : dayOfEra n < 146097 := by
  unfold dayOfEra
  omega

/-- The months are counted from March, five of them after another have 153 days. -/
theorem ofDayNumber_eq (n : Int) :
    ofDayNumber n =
      let month := (5 * dayOfYear (dayOfEra n) + 2) / 153
      let year := (n + 719468) / 146097 * 400 + yearOfEra (dayOfEra n)
      { year := if month < 10 then year else year + 1
        month := if month < 10 then month + 3 else month - 9
        day := dayOfYear (dayOfEra n) - (153 * month + 2) / 5 + 1 } :=
  rfl

theorem isLeapYear_iff (year : Int) :
    isLeapYear year = true ↔ year % 4 = 0 ∧ (year % 100 ≠ 0 ∨ year % 400 = 0) := by
  simp [isLeapYear]

/-- The day with a given number exists. -/
theorem valid_ofDayNumber (n : Int) : (ofDayNumber n).Valid := by
  obtain ⟨hy, -, hd, hleap⟩ := yearOfEra_spec (dayOfEra_lt n)
  rw [ofDayNumber_eq]
  generalize dayOfYear (dayOfEra n) = d at *
  generalize yearOfEra (dayOfEra n) = y at *
  generalize (n + 719468) / 146097 = e at *
  have hfeb : d = 365 → isLeapYear (e * 400 + y + 1) = true := by
    intro h
    have := hleap h
    rw [isLeapYear_iff]
    omega
  obtain ⟨m, hm⟩ : ∃ m, m = (5 * d + 2) / 153 := ⟨_, rfl⟩
  have hm11 : m ≤ 11 := by omega
  simp only [Valid, ← hm]
  interval_cases m <;> simp [monthLength] <;> try omega
  by_cases h365 : d = 365
  · simp [hfeb h365]
    omega
  · split <;> omega

/-- The date with a given day number has that day number. -/
theorem dayNumber_ofDayNumber (n : Int) : (ofDayNumber n).dayNumber = n := by
  obtain ⟨hy, hle, hd, -⟩ := yearOfEra_spec (dayOfEra_lt n)
  have hera : (dayOfEra n : Int) = (n + 719468) % 146097 := by
    unfold dayOfEra
    omega
  have hday : dayOfEra n = daysBefore (yearOfEra (dayOfEra n)) + dayOfYear (dayOfEra n) := by
    unfold dayOfYear
    omega
  rw [ofDayNumber_eq]
  generalize dayOfYear (dayOfEra n) = d at *
  generalize yearOfEra (dayOfEra n) = y at *
  obtain ⟨e, he⟩ : ∃ e, e = (n + 719468) / 146097 := ⟨_, rfl⟩
  have hn : n = e * 146097 + dayOfEra n - 719468 := by omega
  obtain ⟨m, hm⟩ : ∃ m, m = (5 * d + 2) / 153 := ⟨_, rfl⟩
  have hm11 : m ≤ 11 := by omega
  have hmonth : (153 * m + 2) / 5 ≤ d := by omega
  simp only [dayNumber, ← hm, ← he]
  have hyear : (if (if m < 10 then m + 3 else m - 9) ≤ 2 then
      (if m < 10 then e * 400 + y else e * 400 + y + 1) - 1
      else (if m < 10 then e * 400 + (y : Int) else e * 400 + y + 1)) = e * 400 + y := by
    split <;> split <;> omega
  have hback : ((if m < 10 then m + 3 else m - 9) + 9) % 12 = m := by
    split <;> omega
  rw [hyear, hback]
  have h400 : (e * 400 + (y : Int)) / 400 = e := by omega
  have hmod : (e * 400 + (y : Int)) % 400 = y := by omega
  rw [h400, hmod]
  unfold daysBefore at hday
  omega

/-- The day numbers of instants fall into the years of instants. -/
theorem year_ofDayNumber_mem {n : Int} (hlo : -96465292 ≤ n) (hhi : n ≤ 95026236) :
    -262143 ≤ (ofDayNumber n).year ∧ (ofDayNumber n).year ≤ 262142 := by
  obtain ⟨hy, hle, hd, -⟩ := yearOfEra_spec (dayOfEra_lt n)
  have hera : (dayOfEra n : Int) = (n + 719468) % 146097 := by
    unfold dayOfEra
    omega
  have hday : dayOfEra n = daysBefore (yearOfEra (dayOfEra n)) + dayOfYear (dayOfEra n) := by
    unfold dayOfYear
    omega
  rw [ofDayNumber_eq]
  generalize dayOfYear (dayOfEra n) = d at *
  generalize yearOfEra (dayOfEra n) = y at *
  obtain ⟨e, he⟩ : ∃ e, e = (n + 719468) / 146097 := ⟨_, rfl⟩
  have hn : n = e * 146097 + dayOfEra n - 719468 := by omega
  unfold daysBefore at hday
  -- the first and the last year begin and end inside an era
  have hfirst : e < -656 ∨ e = -656 ∨ -656 < e := by omega
  have hlast : e < 655 ∨ e = 655 ∨ 655 < e := by omega
  simp only [← he]
  split <;> constructor
  all_goals
    rcases hfirst with h | rfl | h <;> rcases hlast with h' | h' | h' <;> omega

end CalendarDate
end StockLedger
