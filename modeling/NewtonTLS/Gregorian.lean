/-
# The Gregorian calendar

The proleptic Gregorian calendar from year 0 on, by counting: the days of the years before a
date, of the months before it, and of its own month (`Date.number`).  The day after a date has
the next number (`Date.number_next`), no two dates have one number (`Date.number_injective`),
and a second since an epoch is one time of one date (`DateTime.secondsSince_injective`).

The closed forms at the end are those that conversions compute with: leap years as quotients
by 4, 100 and 400, and years that begin in March (`Date.number_march`).
-/
import Mathlib.Logic.Function.Basic
import Mathlib.Order.Monotone.Basic
import Mathlib.Algebra.Ring.Int.Defs
import Mathlib.Algebra.Ring.Nat

namespace Gregorian

/-! ## Years and months -/

/-- Every fourth year is a leap year, but of the hundredth years only every fourth. -/
def IsLeap (y : ℕ) : Prop := y % 4 = 0 ∧ (y % 100 ≠ 0 ∨ y % 400 = 0)

instance (y : ℕ) : Decidable (IsLeap y) := inferInstanceAs (Decidable (_ ∧ _))

/-- The days of a year. -/
def yearLength (y : ℕ) : ℕ := if IsLeap y then 366 else 365

/-- The days of the month `m`, counted from 1. -/
def monthLength (y m : ℕ) : ℕ :=
  if m = 2 then if IsLeap y then 29 else 28
  else if m = 4 ∨ m = 6 ∨ m = 9 ∨ m = 11 then 30
  else 31

/-- The days of the years before `y`, year by year. -/
def daysBeforeYear : ℕ → ℕ
  | 0 => 0
  | y + 1 => daysBeforeYear y + yearLength y

/-- The days of the first `m` months of `y`, month by month. -/
def daysOfMonths (y : ℕ) : ℕ → ℕ
  | 0 => 0
  | m + 1 => daysOfMonths y m + monthLength y (m + 1)

/-- The months of a year are all of its days. -/
theorem daysOfMonths_twelve (y : ℕ) : daysOfMonths y 12 = yearLength y := by
  by_cases hleap : IsLeap y <;> simp [daysOfMonths, monthLength, yearLength, hleap]

theorem monthLength_pos (y m : ℕ) : 0 < monthLength y m := by
  unfold monthLength
  repeat' split
  all_goals omega

/-- No month has more than 31 days. -/
theorem monthLength_le (y m : ℕ) : monthLength y m ≤ 31 := by
  unfold monthLength
  repeat' split
  all_goals omega

theorem yearLength_pos (y : ℕ) : 0 < yearLength y := by
  unfold yearLength
  split <;> omega

/-- The days before a year grow with it. -/
theorem daysBeforeYear_strictMono : StrictMono daysBeforeYear :=
  strictMono_nat_of_lt_succ fun y => Nat.lt_add_of_pos_right (yearLength_pos y)

/-- The days of the months grow with their number. -/
theorem daysOfMonths_strictMono (y : ℕ) : StrictMono (daysOfMonths y) :=
  strictMono_nat_of_lt_succ fun m => Nat.lt_add_of_pos_right (monthLength_pos y (m + 1))

/-! ## Dates -/

/-- A day of the calendar. -/
@[ext]
structure Date : Type where
  year : ℕ
  month : ℕ
  day : ℕ
  month_mem : 1 ≤ month ∧ month ≤ 12
  day_mem : 1 ≤ day ∧ day ≤ monthLength year month
  deriving DecidableEq

/-- January is a month. -/
theorem january : 1 ≤ 1 ∧ 1 ≤ 12 := by decide

namespace Date

/-- The number of days before a date, from the first of January of year 0. -/
def number (d : Date) : ℕ := daysBeforeYear d.year + daysOfMonths d.year (d.month - 1) + (d.day - 1)

/-- The day after: the next of the month, the first of the next month, or the first of the
next year. -/
def next (d : Date) : Date :=
  if hday : d.day < monthLength d.year d.month then
    ⟨d.year, d.month, d.day + 1, d.month_mem, Nat.le_add_left 1 d.day, hday⟩
  else if hmonth : d.month < 12 then
    ⟨d.year, d.month + 1, 1, ⟨Nat.le_add_left 1 d.month, hmonth⟩, le_refl 1, monthLength_pos _ _⟩
  else
    ⟨d.year + 1, 1, 1, by decide, le_refl 1, monthLength_pos _ _⟩

/-- **Counting.**  The day after has the next number. -/
theorem number_next (d : Date) : d.next.number = d.number + 1 := by
  obtain ⟨hmonth, hmonth'⟩ := d.month_mem
  obtain ⟨hday, hday'⟩ := d.day_mem
  have hmonths : daysOfMonths d.year d.month =
      daysOfMonths d.year (d.month - 1) + monthLength d.year d.month := by
    obtain ⟨m, hm⟩ : ∃ m, d.month = m + 1 := ⟨d.month - 1, by omega⟩
    rw [hm, Nat.add_sub_cancel, daysOfMonths]
  unfold next
  split
  · simp only [number]
    omega
  · split
    · simp only [number, Nat.add_sub_cancel, hmonths]
      omega
    · -- the last day of the year
      have hyear := daysOfMonths_twelve d.year
      have hlast : d.month = 12 := by omega
      have hend : d.day = monthLength d.year d.month := by omega
      rw [← hlast, hmonths] at hyear
      rw [number, number, daysBeforeYear, ← hyear, hend]
      show _ + 0 + 0 = _
      omega

/-- The days of a date's year that have passed are days of that year. -/
theorem dayOfMonths_lt (d : Date) :
    daysOfMonths d.year (d.month - 1) + (d.day - 1) < daysOfMonths d.year (d.month - 1 + 1) := by
  obtain ⟨hmonth, hmonth'⟩ := d.month_mem
  obtain ⟨hday, hday'⟩ := d.day_mem
  rw [daysOfMonths, Nat.sub_add_cancel hmonth]
  omega

/-- The number of days of its year before a date. -/
def dayOfYear (d : Date) : ℕ := daysOfMonths d.year (d.month - 1) + (d.day - 1)

/-- A date is one of the days of its year. -/
theorem dayOfYear_lt (d : Date) : d.dayOfYear < yearLength d.year := by
  have hmonths := d.dayOfMonths_lt
  have hyear : daysOfMonths d.year (d.month - 1 + 1) ≤ daysOfMonths d.year 12 :=
    (daysOfMonths_strictMono d.year).monotone (by have := d.month_mem; omega)
  rw [daysOfMonths_twelve] at hyear
  exact hmonths.trans_le hyear

/-- A date lies before the next year. -/
theorem number_lt (d : Date) : d.number < daysBeforeYear (d.year + 1) := by
  have hday := d.dayOfYear_lt
  rw [dayOfYear] at hday
  rw [number, daysBeforeYear]
  omega

/-- What lies between two values of a strictly monotone function lies between one pair of
neighbours only. -/
theorem eq_of_between {f : ℕ → ℕ} (hf : StrictMono f) {a b n : ℕ} (ha : f a ≤ n)
    (ha' : n < f (a + 1)) (hb : f b ≤ n) (hb' : n < f (b + 1)) : a = b := by
  have hab : a < b + 1 := hf.lt_iff_lt.mp (ha.trans_lt hb')
  have hba : b < a + 1 := hf.lt_iff_lt.mp (hb.trans_lt ha')
  omega

/-- A number is that of at most one date. -/
theorem number_injective : Function.Injective number := by
  intro d e h
  have hyear : d.year = e.year := by
    refine eq_of_between daysBeforeYear_strictMono (n := d.number) ?_ d.number_lt ?_ ?_
    · rw [number]
      omega
    · rw [h, number]
      omega
    · rw [h]
      exact e.number_lt
  have hd := d.dayOfMonths_lt
  have he := e.dayOfMonths_lt
  simp only [number, hyear] at h hd
  have hmonth : d.month - 1 = e.month - 1 :=
    eq_of_between (daysOfMonths_strictMono e.year) (Nat.le_add_right _ _) hd (by omega) (by omega)
  obtain ⟨hmd, -⟩ := d.month_mem
  obtain ⟨hme, -⟩ := e.month_mem
  obtain ⟨hdd, -⟩ := d.day_mem
  obtain ⟨hde, -⟩ := e.day_mem
  rw [hmonth] at h
  exact Date.ext hyear (by omega) (by omega)

/-- The day of the week, from Sunday as 0: the first date is a Saturday, and then day by day. -/
def weekdayOfNumber : ℕ → ℕ
  | 0 => 6
  | n + 1 => (weekdayOfNumber n + 1) % 7

/-- The day of the week of a date, 0 for Sunday. -/
def weekday (d : Date) : ℕ := weekdayOfNumber d.number

/-- Seven weekdays, one after the other. -/
theorem weekdayOfNumber_eq (n : ℕ) : weekdayOfNumber n = (n + 6) % 7 := by
  induction n with
  | zero => rfl
  | succ n ih =>
    rw [weekdayOfNumber, ih]
    omega

/-! ## Closed forms -/

/-- Leap years as quotients. -/
theorem daysBeforeYear_eq (y : ℕ) :
    daysBeforeYear y + (y + 99) / 100 = 365 * y + (y + 3) / 4 + (y + 399) / 400 := by
  induction y with
  | zero => rfl
  | succ y ih =>
    rw [daysBeforeYear, yearLength]
    split
    · next hleap =>
      obtain ⟨hfour, hcentury⟩ := hleap
      omega
    · next hcommon =>
      -- not a fourth year, or a century that is no fourth one
      rcases not_and_or.mp hcommon with hfour | hcentury
      · omega
      · omega

/-- The months from March on have 153 days in five. -/
theorem daysOfMonths_march (y : ℕ) {m : ℕ} (hm : m ≤ 10) :
    daysOfMonths y (m + 2) = daysOfMonths y 2 + (153 * m + 2) / 5 := by
  induction m with
  | zero => rfl
  | succ m ih =>
    have hlength : monthLength y (m + 3) = if m = 1 ∨ m = 3 ∨ m = 6 ∨ m = 8 then 30 else 31 := by
      rw [monthLength, if_neg (by omega)]
      exact if_congr (by omega) rfl rfl
    have hquotient : ∀ m < 10, (153 * (m + 1) + 2) / 5 =
        (153 * m + 2) / 5 + if m = 1 ∨ m = 3 ∨ m = 6 ∨ m = 8 then 30 else 31 := by decide
    rw [daysOfMonths, ih (by omega), hlength, hquotient m (by omega), Nat.add_assoc]

/-- The days of January and February. -/
theorem daysOfMonths_two (y : ℕ) : daysOfMonths y 2 = yearLength y - 306 := by
  have hyear := daysOfMonths_march y (le_refl 10)
  rw [daysOfMonths_twelve] at hyear
  omega

/-- The day of the year by the days from the last first of March on: that of the year before, for
January and February. -/
theorem dayOfYear_march (d : Date) {mp : ℕ}
    (hmp : mp = if d.month ≤ 2 then d.month + 9 else d.month - 3) :
    (153 * mp + 2) / 5 + (d.day - 1) = if d.month ≤ 2 then d.dayOfYear + 306
      else d.dayOfYear - daysOfMonths d.year 2 := by
  obtain ⟨hmonth, hmonth'⟩ := d.month_mem
  unfold dayOfYear
  by_cases hwinter : d.month ≤ 2
  · rw [if_pos hwinter] at hmp ⊢
    obtain h | h : d.month = 1 ∨ d.month = 2 := by omega
    · rw [h] at hmp ⊢
      show _ = 0 + (d.day - 1) + 306
      omega
    · rw [h] at hmp ⊢
      show _ = 31 + (d.day - 1) + 306
      omega
  · rw [if_neg hwinter] at hmp ⊢
    have hmonths := daysOfMonths_march d.year (show mp ≤ 10 by omega)
    rw [show mp + 2 = d.month - 1 by omega] at hmonths
    omega

/-- The days from the first of March of year 0 to that of year `y`. -/
def daysToMarch (y : ℤ) : ℤ := 365 * y + y / 4 - y / 100 + y / 400

/-- January begins 306 days after March of the year before. -/
theorem daysBeforeYear_march (y : ℕ) : (daysBeforeYear y : ℤ) = daysToMarch (y - 1) + 366 := by
  have hclosed := daysBeforeYear_eq y
  have hfour : (((y : ℤ) - 1) / 4 + 1 : ℤ) = ((y + 3) / 4 : ℕ) := by omega
  have hcentury : (((y : ℤ) - 1) / 100 + 1 : ℤ) = ((y + 99) / 100 : ℕ) := by omega
  have hera : (((y : ℤ) - 1) / 400 + 1 : ℤ) = ((y + 399) / 400 : ℕ) := by omega
  rw [daysToMarch]
  omega

/-- March begins after January and February. -/
theorem daysBeforeMarch (y : ℕ) :
    (daysBeforeYear y + daysOfMonths y 2 : ℤ) = daysToMarch y + 60 := by
  have hnext := daysBeforeYear_march (y + 1)
  have hyear : 365 ≤ yearLength y := by
    unfold yearLength
    split <;> omega
  have hcast : ((y + 1 : ℕ) - 1 : ℤ) = y := by omega
  rw [daysBeforeYear, hcast] at hnext
  rw [daysOfMonths_two]
  omega

/-- **Years from March.**  The number of a date by its year and month from the first of March. -/
theorem number_march (d : Date) {y : ℤ} {mp : ℕ} (hy : y = d.year - if d.month ≤ 2 then 1 else 0)
    (hmp : mp = if d.month ≤ 2 then d.month + 9 else d.month - 3) :
    (d.number : ℤ) = daysToMarch y + (153 * mp + 2) / 5 + d.day + 59 := by
  obtain ⟨hmonth, hmonth'⟩ := d.month_mem
  obtain ⟨hday, -⟩ := d.day_mem
  rw [number]
  by_cases hwinter : d.month ≤ 2
  · -- January and February end the year before
    rw [if_pos hwinter] at hy hmp
    have hyear := daysBeforeYear_march d.year
    have hmonths : daysOfMonths d.year (d.month - 1) = 31 * (d.month - 1) := by
      obtain h | h : d.month = 1 ∨ d.month = 2 := by omega
      · rw [h]
        rfl
      · rw [h]
        rfl
    rw [← hy] at hyear
    omega
  · -- from March on the leap day of the year is past
    rw [if_neg hwinter, Int.sub_zero] at hy
    rw [if_neg hwinter] at hmp
    have hyear := daysBeforeMarch d.year
    have hmonths := daysOfMonths_march d.year (show mp ≤ 10 by omega)
    rw [show mp + 2 = d.month - 1 by omega] at hmonths
    rw [← hy] at hyear
    omega

/-- The years of a date in eras of 400. -/
theorem number_era (d : Date) {era : ℤ} {yoe mp : ℕ} (hyoe : yoe < 400)
    (hy : 400 * era + yoe = d.year - if d.month ≤ 2 then 1 else 0)
    (hmp : mp = if d.month ≤ 2 then d.month + 9 else d.month - 3) :
    (d.number : ℤ) =
      146097 * era + (365 * yoe + yoe / 4 - yoe / 100 + (153 * mp + 2) / 5 + d.day + 59 : ℤ) := by
  have hfour : (400 * era + yoe : ℤ) / 4 = 100 * era + yoe / 4 := by omega
  have hcentury : (400 * era + yoe : ℤ) / 100 = 4 * era + yoe / 100 := by omega
  have hera : (400 * era + yoe : ℤ) / 400 = era := by omega
  rw [number_march d hy hmp, daysToMarch, hfour, hcentury, hera]
  omega

end Date

/-! ## Times of day -/

/-- A second of a day, without leap seconds. -/
@[ext]
structure DateTime : Type where
  date : Date
  hour : ℕ
  min : ℕ
  sec : ℕ
  hour_lt : hour < 24
  min_lt : min < 60
  sec_lt : sec < 60
  deriving DecidableEq

namespace DateTime

/-- Midnight at the beginning of a date. -/
def midnight (d : Date) : DateTime := ⟨d, 0, 0, 0, by decide, by decide, by decide⟩

/-- The seconds from the beginning of `epoch`. -/
def secondsSince (epoch : Date) (t : DateTime) : ℤ :=
  86400 * ((t.date.number : ℤ) - epoch.number) + 3600 * t.hour + 60 * t.min + t.sec

/-- The whole minutes from the beginning of `epoch`. -/
def minutesSince (epoch : Date) (t : DateTime) : ℤ := t.secondsSince epoch / 60

/-- A second is that of at most one date and time of day. -/
theorem secondsSince_injective (epoch : Date) : Function.Injective (secondsSince epoch) := by
  intro t u h
  have ht := t.hour_lt
  have ht' := t.min_lt
  have ht'' := t.sec_lt
  have hu := u.hour_lt
  have hu' := u.min_lt
  have hu'' := u.sec_lt
  simp only [secondsSince] at h
  have hdate : t.date = u.date := Date.number_injective (by omega)
  rw [hdate] at h
  exact DateTime.ext hdate (by omega) (by omega) (by omega)

/-- The minutes, by days, hours and minutes. -/
theorem minutesSince_eq (epoch : Date) (t : DateTime) :
    t.minutesSince epoch =
      1440 * ((t.date.number : ℤ) - epoch.number) + 60 * t.hour + t.min := by
  have hsec := t.sec_lt
  rw [minutesSince, secondsSince]
  omega

/-- Later seconds are not in earlier minutes. -/
theorem minutesSince_mono (epoch : Date) {t u : DateTime}
    (h : t.secondsSince epoch ≤ u.secondsSince epoch) :
    t.minutesSince epoch ≤ u.minutesSince epoch := by
  rw [minutesSince, minutesSince]
  omega

end DateTime

end Gregorian
