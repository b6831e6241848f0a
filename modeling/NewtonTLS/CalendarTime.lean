/-
# The time that certificates are checked against

`mbedtls_platform_gmtime_r` and `TimeToLocal1904Minutes` of `Protocol/NewtonBindings.cpp`,
the two conversions between seconds and dates.  Both count the days of a 400-year era from
the 1st of March, and on days they are inverse to each other (`daysOfDate_dateOfDays`).  On
seconds they are not: `NEWTON_EPOCH_DELTA` is 3039 seconds less than there are between 1904
and 1970, and every time comes out by that much ahead (`utcSeconds_gmtime`).
-/
import Mathlib.Algebra.Ring.Int.Defs
import Mathlib.Algebra.Ring.Nat

namespace NewtonTLS

namespace CalendarTime

/-! ## From seconds to a date -/

/-- `struct tm`. -/
structure Tm : Type where
  tm_sec : ℤ
  tm_min : ℤ
  tm_hour : ℤ
  tm_mday : ℤ
  tm_mon : ℤ
  tm_year : ℤ
  tm_wday : ℤ
  tm_yday : ℤ
  tm_isdst : Bool
  deriving DecidableEq, Repr

/-- The value of `x` as an `unsigned`. -/
def toUnsigned (x : ℤ) : ℕ := (x % 2 ^ 32).toNat

/-- What `mbedtls_platform_gmtime_r` takes for the seconds between 1904 and 1970. -/
def NEWTON_EPOCH_DELTA : ℤ := 2082841761

/-- A day of the calendar, as the local variables of the conversion hold it: the civil year,
the month from 0 and the day of the month, and the day of the year from the 1st of March. -/
structure CivilDate : Type where
  civil_y : ℕ
  m : ℕ
  d : ℕ
  doy : ℕ
  deriving DecidableEq, Repr

/-- The year of the era, for the day of the era. -/
def yearOfEra (doe : ℕ) : ℕ := (doe - doe / 1460 + doe / 36524 - doe / 146096) / 365

/-- The days before the year of the era. -/
def daysBefore (yoe : ℕ) : ℕ := 365 * yoe + yoe / 4 - yoe / 100

/-- `mbedtls_platform_gmtime_r` from `gmt_day` on. -/
def dateOfDays (gmt_day : ℕ) : CivilDate :=
  let gmt_shift : ℤ := gmt_day + 719468
  let era : ℤ := (if 0 ≤ gmt_shift then gmt_shift else gmt_shift - 146096).tdiv 146097
  let doe := toUnsigned (gmt_shift - era * 146097)
  let yoe := yearOfEra doe
  let y : ℤ := yoe + era * 400
  let doy := doe - daysBefore yoe
  let mp := (5 * doy + 2) / 153
  let d := doy - (153 * mp + 2) / 5 + 1
  let m := toUnsigned (mp + if mp < 10 then 2 else -10)
  let civil_y := toUnsigned (y + if m ≤ 1 then 1 else 0)
  ⟨civil_y, m, d, doy⟩

/-- `mbedtls_platform_gmtime_r`, when the clock shows `tt` and `gmtdelta` is the offset of the
time zone. -/
def mbedtlsPlatformGmtimeR (tt gmtdelta : ℤ) : Tm :=
  let gmt_sec := toUnsigned (tt - gmtdelta - NEWTON_EPOCH_DELTA)
  let gmt_min := gmt_sec / 60
  let gmt_hour := gmt_min / 60
  let gmt_day := gmt_hour / 24
  let date := dateOfDays gmt_day
  let wday : ℤ := if (gmt_day : ℤ) ≥ -4 then ((gmt_day : ℤ) + 4).tmod 7
    else ((gmt_day : ℤ) + 5).tmod 7 + 6
  { tm_sec := (gmt_sec % 60 : ℕ)
    tm_min := (gmt_min % 60 : ℕ)
    tm_hour := (gmt_hour % 24 : ℕ)
    tm_mday := date.d
    tm_mon := date.m
    tm_year := (date.civil_y : ℤ) - 1900
    tm_wday := toUnsigned wday
    tm_yday := date.doy
    tm_isdst := false }

/-! ## From a date to minutes -/

/-- `mbedtls_x509_time`. -/
structure X509Time : Type where
  year : ℤ
  mon : ℤ
  day : ℤ
  hour : ℤ
  min : ℤ
  sec : ℤ
  deriving DecidableEq, Repr

/-- The days between March 1 of the year 0 and January 1, 1904. -/
def NEWTON_000301_DELTA_DAYS : ℤ := 695361

/-- `TimeToLocal1904Minutes`: the hour and the minutes of the time are not read. -/
def timeToLocal1904Minutes (time : X509Time) : ℤ :=
  let m := time.mon
  let y := time.year - if m ≤ 2 then 1 else 0
  let d := time.day
  let era := (if 0 ≤ y then y else y - 399).tdiv 400
  let yoe := toUnsigned (y - era * 400)
  let doy := toUnsigned ((153 * (m + if m > 2 then -3 else 9) + 2).tdiv 5 + d - 1)
  let doe := yoe * 365 + yoe / 4 - yoe / 100 + doy
  let days000301 := era * 146097 + doe
  let days19040101 := days000301 - NEWTON_000301_DELTA_DAYS
  days19040101 * 1440

/-! ## Days -/

theorem toUnsigned_of_nonneg {x : ℤ} (h₀ : 0 ≤ x) (h : x < 2 ^ 32) : (toUnsigned x : ℤ) = x := by
  rw [toUnsigned, Int.emod_eq_of_lt h₀ h, Int.toNat_of_nonneg h₀]

/-- The year of the era has begun on the day, and has 365 days, or 366 if the February at its
end is one of a leap year. -/
theorem yearOfEra_spec {doe : ℕ} (h : doe < 146097) :
    yearOfEra doe < 400 ∧ daysBefore (yearOfEra doe) ≤ doe ∧
      doe ≤ daysBefore (yearOfEra doe) + 365 ∧
      (doe = daysBefore (yearOfEra doe) + 365 →
        (yearOfEra doe + 1) % 4 = 0 ∧ ((yearOfEra doe + 1) % 100 ≠ 0 ∨ yearOfEra doe = 399)) := by
  by_cases hlast : doe = 146096
  · subst hlast
    decide
  -- a day of the era is day `r` of leap cycle `q` of century `c`
  obtain ⟨c, q, r, hq, hr, hqr, hc, rfl⟩ : ∃ c q r, q < 25 ∧ r < 1461 ∧ 1461 * q + r < 36524 ∧
      c < 4 ∧ doe = 36524 * c + (1461 * q + r) :=
    ⟨doe / 36524, doe % 36524 / 1461, doe % 36524 % 1461, by omega, by omega, by omega, by omega,
      by omega⟩
  have hcentury : (36524 * c + (1461 * q + r)) / 36524 = c := by omega
  have hera : (36524 * c + (1461 * q + r)) / 146096 = 0 := by omega
  have hcycle : (36524 * c + (1461 * q + r)) / 1460 = 25 * c + q + (24 * c + q + r) / 1460 := by
    omega
  -- and it falls into year `k` of that cycle
  obtain ⟨k, hk⟩ : ∃ k, k = (r - (24 * c + q + r) / 1460) / 365 := ⟨_, rfl⟩
  have hk4 : k < 4 ∧ 365 * k ≤ r ∧ r ≤ 365 * k + 365 := by omega
  have hyear : yearOfEra (36524 * c + (1461 * q + r)) = 100 * c + 4 * q + k := by
    rw [yearOfEra, hcentury, hera, hcycle, hk]
    omega
  have hfour : (100 * c + 4 * q + k) / 4 = 25 * c + q := by omega
  have hhundred : (100 * c + 4 * q + k) / 100 = c := by omega
  have hlong : r = 365 * k + 365 → k = 3 ∧ q < 24 := by omega
  rw [hyear, daysBefore, hfour, hhundred]
  clear hyear hcycle hera hcentury hk
  refine ⟨by omega, by omega, by omega, fun hlast => ?_⟩
  obtain ⟨hthree, hq24⟩ := hlong (by omega)
  omega

/-- The month of a day of the year has begun, and the next one has not. -/
theorem month_spec {doy : ℕ} (h : doy ≤ 365) :
    (5 * doy + 2) / 153 < 12 ∧ (153 * ((5 * doy + 2) / 153) + 2) / 5 ≤ doy ∧
      doy < (153 * ((5 * doy + 2) / 153 + 1) + 2) / 5 := by
  omega

/-- Midnight of the day of a date. -/
def midnight (tm : Tm) : X509Time := ⟨tm.tm_year + 1900, tm.tm_mon + 1, tm.tm_mday, 0, 0, 0⟩

/-- `era` and `doe` of a day. -/
theorem era_spec {n era doe : ℕ} (h : n + 719468 = 146097 * era + doe) (hdoe : doe < 146097) :
    (if (0 : ℤ) ≤ (n : ℤ) + 719468 then (n : ℤ) + 719468
      else (n : ℤ) + 719468 - 146096).tdiv 146097 = era ∧
      toUnsigned ((n : ℤ) + 719468 - era * 146097) = doe := by
  have hshift : (n : ℤ) + 719468 = 146097 * era + doe := by omega
  rw [if_pos (by omega), Int.tdiv_eq_ediv_of_nonneg (by omega), toUnsigned, hshift]
  omega

/-- The month from 0, for the month from March. -/
theorem toUnsigned_month {mp : ℕ} (h : mp < 12) :
    toUnsigned ((mp : ℤ) + if mp < 10 then 2 else -10) = if mp < 10 then mp + 2 else mp - 10 := by
  unfold toUnsigned
  split <;> omega

/-- The civil year begins in the month from March that is the tenth. -/
theorem toUnsigned_year {yoe era mp : ℕ} (hyoe : yoe < 400) (hera : era < 2 ^ 14) (hmp : mp < 12) :
    toUnsigned ((yoe : ℤ) + era * 400 +
      if (if mp < 10 then mp + 2 else mp - 10) ≤ 1 then 1 else 0) =
      yoe + 400 * era + if mp < 10 then 0 else 1 := by
  unfold toUnsigned
  by_cases h : mp < 10
  · rw [if_pos h, if_pos h, if_neg (by omega)]
    omega
  · rw [if_neg h, if_neg h, if_pos (by omega)]
    omega

/-- The parts of the date of a day, without wrapping and signs. -/
theorem dateOfDays_spec {n : ℕ} (hn : n < 2 ^ 30) :
    ∃ era yoe doy mp, n + 719468 = 146097 * era + daysBefore yoe + doy ∧ yoe < 400 ∧ mp < 12 ∧
      (153 * mp + 2) / 5 ≤ doy ∧ doy < (153 * (mp + 1) + 2) / 5 ∧ doy ≤ 365 ∧
      (doy = 365 → (yoe + 1) % 4 = 0 ∧ ((yoe + 1) % 100 ≠ 0 ∨ yoe = 399)) ∧ era < 2 ^ 14 ∧
      dateOfDays n = ⟨yoe + 400 * era + if mp < 10 then 0 else 1,
        if mp < 10 then mp + 2 else mp - 10,
        doy - (153 * mp + 2) / 5 + 1, doy⟩ := by
  obtain ⟨era, doe, hsplit, hdoe, hera⟩ : ∃ era doe, n + 719468 = 146097 * era + doe ∧
      doe < 146097 ∧ era < 2 ^ 14 :=
    ⟨(n + 719468) / 146097, (n + 719468) % 146097, by omega, by omega, by omega⟩
  obtain ⟨hyoe, hbegun, hended, hleap⟩ := yearOfEra_spec hdoe
  obtain ⟨hera', hdoe'⟩ := era_spec hsplit hdoe
  simp only [dateOfDays, hera', hdoe']
  generalize yearOfEra doe = yoe at hyoe hbegun hended hleap ⊢
  obtain ⟨doy, hdoy⟩ : ∃ doy, doy = doe - daysBefore yoe := ⟨_, rfl⟩
  have hlast : doy ≤ 365 := by omega
  obtain ⟨hmp, hday, hnext⟩ := month_spec hlast
  rw [← hdoy]
  generalize (5 * doy + 2) / 153 = mp at hmp hday hnext ⊢
  refine ⟨era, yoe, doy, mp, by omega, hyoe, hmp, hday, hnext, hlast, fun h => hleap (by omega),
    hera, ?_⟩
  rw [toUnsigned_month hmp, toUnsigned_year hyoe hera hmp]

/-- **Days there and back.**  The minutes of midnight of the date of a day are those of the days
since 1904. -/
theorem timeToLocal1904Minutes_dateOfDays {n : ℕ} (hn : n < 2 ^ 30) (tm : Tm)
    (hyear : tm.tm_year = (dateOfDays n).civil_y - 1900) (hmon : tm.tm_mon = (dateOfDays n).m)
    (hday : tm.tm_mday = (dateOfDays n).d) :
    timeToLocal1904Minutes (midnight tm) = (n + 24107) * 1440 := by
  obtain ⟨era, yoe, doy, mp, hdays, hyoe, hmp, hle, -, hdoy, -, hera, hdate⟩ := dateOfDays_spec hn
  simp only [hdate] at hyear hmon hday
  have hy : (midnight tm).year - (if (midnight tm).mon ≤ 2 then 1 else 0) =
      (yoe : ℤ) + 400 * era := by
    simp only [midnight, hyear, hmon]
    split <;> split <;> omega
  have hyearEra : (if (0 : ℤ) ≤ (yoe : ℤ) + 400 * era then (yoe : ℤ) + 400 * era
      else (yoe : ℤ) + 400 * era - 399).tdiv 400 = era := by
    rw [if_pos (by omega), Int.tdiv_eq_ediv_of_nonneg (by omega)]
    omega
  have hyoe' : toUnsigned ((yoe : ℤ) + 400 * era - era * 400) = yoe := by
    unfold toUnsigned
    omega
  have hmp' : (midnight tm).mon + (if (midnight tm).mon > 2 then -3 else 9) = (mp : ℤ) := by
    simp only [midnight, hmon]
    split <;> split <;> omega
  have hdoy' : toUnsigned ((153 * (mp : ℤ) + 2).tdiv 5 + (midnight tm).day - 1) = doy := by
    have hmonth : (153 * (mp : ℤ) + 2).tdiv 5 = ((153 * mp + 2) / 5 : ℕ) := by
      rw [Int.tdiv_eq_ediv_of_nonneg (by omega)]
      omega
    rw [hmonth]
    simp only [midnight, hday]
    unfold toUnsigned
    omega
  simp only [timeToLocal1904Minutes, hy, hyearEra, hyoe', hmp', hdoy', NEWTON_000301_DELTA_DAYS]
  rw [daysBefore] at hdays
  omega

/-! ## Seconds -/

/-- The seconds since 1904 that a date stands for. -/
def utcSeconds (tm : Tm) : ℤ :=
  60 * timeToLocal1904Minutes (midnight tm) + 3600 * tm.tm_hour + 60 * tm.tm_min + tm.tm_sec

/-- The seconds from 1904 to 1970. -/
def secondsTo1970 : ℤ := 24107 * 86400

/-- The date is that of a time 3039 seconds ahead. -/
theorem utcSeconds_gmtime {tt gmtdelta : ℤ} (h₀ : secondsTo1970 ≤ tt - gmtdelta)
    (h : tt - gmtdelta < 2 ^ 32) :
    utcSeconds (mbedtlsPlatformGmtimeR tt gmtdelta) = tt - gmtdelta + 3039 := by
  unfold secondsTo1970 at h₀
  have hsec : (toUnsigned (tt - gmtdelta - NEWTON_EPOCH_DELTA) : ℤ) =
      tt - gmtdelta - 2082841761 := by
    apply toUnsigned_of_nonneg <;> unfold NEWTON_EPOCH_DELTA <;> omega
  have hdays := timeToLocal1904Minutes_dateOfDays
    (n := toUnsigned (tt - gmtdelta - NEWTON_EPOCH_DELTA) / 60 / 60 / 24) (by omega)
    (mbedtlsPlatformGmtimeR tt gmtdelta) rfl rfl rfl
  rw [utcSeconds, hdays]
  simp only [mbedtlsPlatformGmtimeR]
  omega

example : mbedtlsPlatformGmtimeR 3029529600 0 = ⟨39, 50, 0, 1, 0, 100, 6, 306, false⟩ := by
  decide +kernel

/-- **The conversions never agree.**  From 1970 to the overflow of the clock, the date is not that
of the time. -/
theorem never_true_time (tt gmtdelta : ℤ) (h₀ : secondsTo1970 ≤ tt - gmtdelta)
    (h : tt - gmtdelta < 2 ^ 32) :
    utcSeconds (mbedtlsPlatformGmtimeR tt gmtdelta) ≠ tt - gmtdelta := by
  rw [utcSeconds_gmtime h₀ h]
  omega

/-- At the beginning of 2000 in a time zone one hour ahead. -/
theorem never_true_time_2000 :
    secondsTo1970 ≤ 3029533200 - 3600 ∧ (3029533200 : ℤ) - 3600 < 2 ^ 32 ∧
      utcSeconds (mbedtlsPlatformGmtimeR 3029533200 3600) ≠ 3029533200 - 3600 :=
  ⟨by decide, by decide, never_true_time 3029533200 3600 (by decide) (by decide)⟩

/-- The beginning of 1970 comes out as 0:50:39. -/
theorem not_true_time :
    ¬ ∀ tt gmtdelta : ℤ, secondsTo1970 ≤ tt - gmtdelta → tt - gmtdelta < 2 ^ 32 →
      utcSeconds (mbedtlsPlatformGmtimeR tt gmtdelta) = tt - gmtdelta := by
  intro hall
  exact absurd (hall 2082844800 0 (by decide) (by decide)) (by decide)

end CalendarTime

end NewtonTLS
