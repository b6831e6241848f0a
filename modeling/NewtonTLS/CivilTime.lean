/-
# Dates of the clock in 32 bits

`mbedtls_platform_gmtime_r` of `Protocol/NewtonBindings.cpp` from `gmt_sec` on, in the types of
the source: `unsigned` wraps and `int` must not overflow.  No expression overflows, the result is
that of `mbedtlsPlatformGmtimeR` (`gmtimeR32_gmtSec`), and it is the date, the time of day and
the weekday of the Gregorian calendar (`gmtime_civil`).  The day of the year is not: it is counted
from March (`yday_never`).
-/
import NewtonTLS.CalendarTime
import NewtonTLS.Gregorian
import NewtonTLS.MachineInt

namespace NewtonTLS

namespace CivilTime

open CalendarTime MachineInt Gregorian

/-! ## The conversion -/

/-- `gmt_sec`. -/
def gmtSec (tt gmtdelta : ℤ) : UInt32 := unsigned (tt - gmtdelta - NEWTON_EPOCH_DELTA)

/-- `x >= 0 ? x : x - n`, so that dividing by `n + 1` rounds down. -/
def shiftDown32 (n x : ℤ) : Option ℤ := if 0 ≤ x then pure x else int32 (x - n)

/-- A number that is not negative is not shifted. -/
theorem shiftDown32_of_nonneg (n : ℤ) {x : ℤ} (h : 0 ≤ x) : shiftDown32 n x = some x := if_pos h

/-- The year of the era from its day, in unsigned arithmetic. -/
def yearOfEra32 (doe : UInt32) : UInt32 := (doe - doe / 1460 + doe / 36524 - doe / 146096) / 365

/-- The local variables of the conversion that the result is made of. -/
structure CivilDate32 : Type where
  civil_y : UInt32
  m : UInt32
  d : UInt32
  doy : UInt32
  deriving DecidableEq

/-- `doy` and what follows from it: the day of the month and the month from 0. -/
def dayOfYear32 (doe yoe : UInt32) : UInt32 := doe - (365 * yoe + yoe / 4 - yoe / 100)

/-- The day of the month from the day of the year and the month, both counted from March. -/
def dayOfMonth32 (doy mp : UInt32) : UInt32 := doy - (153 * mp + 2) / 5 + 1

/-- The month from 0, of a month that is counted from March. -/
def month32 (mp : UInt32) : UInt32 := mp + if mp < 10 then 2 else unsigned (-10)

/-- `mbedtls_platform_gmtime_r` from `gmt_day` to `civil_y`. -/
def dateOfDays32 (gmt_day : ℤ) : Option CivilDate32 := do
  let gmt_shift ← int32 (gmt_day + 719468)
  let shifted ← shiftDown32 146096 gmt_shift
  let era := shifted.tdiv 146097
  let eraDays ← int32 (era * 146097)
  let doe := unsigned (← int32 (gmt_shift - eraDays))
  let yoe := yearOfEra32 doe
  let y ← int32 ((← int32 yoe.toNat) + (← int32 (era * 400)))
  let doy := dayOfYear32 doe yoe
  let mp := (5 * doy + 2) / 153
  let d := dayOfMonth32 doy mp
  let m := month32 mp
  let civil_y := unsigned (← int32 (y + if m ≤ 1 then 1 else 0))
  pure ⟨civil_y, m, d, doy⟩

/-- `wday`. -/
def weekdayOfDays32 (gmt_day : ℤ) : Option UInt32 := do
  if gmt_day ≥ -4 then
    pure (unsigned ((← int32 (gmt_day + 4)).tmod 7))
  else
    pure (unsigned (← int32 ((← int32 (gmt_day + 5)).tmod 7 + 6)))

/-- `mbedtls_platform_gmtime_r` from `gmt_sec` on. -/
def gmtimeR32 (gmt_sec : UInt32) : Option Tm := do
  let gmt_min := gmt_sec / 60
  let gmt_hour := gmt_min / 60
  let gmt_day ← int32 (gmt_hour / 24).toNat
  let date ← dateOfDays32 gmt_day
  let wday ← weekdayOfDays32 gmt_day
  pure {
    tm_sec := ← int32 (gmt_sec % 60).toNat
    tm_min := ← int32 (gmt_min % 60).toNat
    tm_hour := ← int32 (gmt_hour % 24).toNat
    tm_mday := ← int32 date.d.toNat
    tm_mon := ← int32 date.m.toNat
    tm_year := ← int32 (date.civil_y - 1900).toNat
    tm_wday := ← int32 wday.toNat
    tm_yday := ← int32 date.doy.toNat
    tm_isdst := false }

/-! ## No wrapping in `unsigned` -/

/-- The year of the era, without a carry. -/
theorem toNat_yearOfEra32 {doe : UInt32} {n : ℕ} (hdoe : doe.toNat = n) (h : n < 146097) :
    (yearOfEra32 doe).toNat = yearOfEra n := by
  have hcycle : (doe / 1460).toNat = n / 1460 := toNat_div hdoe rfl
  have hcentury : (doe / 36524).toNat = n / 36524 := toNat_div hdoe rfl
  have hera : (doe / 146096).toNat = n / 146096 := toNat_div hdoe rfl
  have hcommon := toNat_sub hdoe hcycle (by omega)
  have hplus := toNat_add hcommon hcentury (by omega)
  have hminus := toNat_sub hplus hera (by omega)
  exact toNat_div hminus rfl

theorem toNat_dayOfYear32 {doe yoe : UInt32} {n k : ℕ} (hdoe : doe.toNat = n) (hyoe : yoe.toNat = k)
    (hk : k < 400) (hbegun : daysBefore k ≤ n) :
    (dayOfYear32 doe yoe).toNat = n - daysBefore k := by
  have hdays : (365 * yoe).toNat = 365 * k := toNat_mul rfl hyoe (by omega)
  have hfour : (yoe / 4).toNat = k / 4 := toNat_div hyoe rfl
  have hcentury : (yoe / 100).toNat = k / 100 := toNat_div hyoe rfl
  have hplus := toNat_add hdays hfour (by omega)
  have hminus := toNat_sub hplus hcentury (by omega)
  exact toNat_sub hdoe hminus hbegun

/-- The month, counted from March. -/
theorem toNat_monthFromMarch32 {doy : UInt32} {n : ℕ} (hdoy : doy.toNat = n) (h : n ≤ 365) :
    ((5 * doy + 2) / 153).toNat = (5 * n + 2) / 153 := by
  have hdays : (5 * doy).toNat = 5 * n := toNat_mul rfl hdoy (by omega)
  exact toNat_div (toNat_add hdays rfl (by omega)) rfl

theorem toNat_dayOfMonth32 {doy mp : UInt32} {n k : ℕ} (hdoy : doy.toNat = n) (hmp : mp.toNat = k)
    (h : n ≤ 365) (hk : k < 12) (hbegun : (153 * k + 2) / 5 ≤ n) :
    (dayOfMonth32 doy mp).toNat = n - (153 * k + 2) / 5 + 1 := by
  have hdays : (153 * mp).toNat = 153 * k := toNat_mul rfl hmp (by omega)
  have hbefore : ((153 * mp + 2) / 5).toNat = (153 * k + 2) / 5 :=
    toNat_div (toNat_add hdays rfl (by omega)) rfl
  exact toNat_add (toNat_sub hdoy hbefore hbegun) rfl (by omega)

/-- Here `unsigned` wraps: ten are taken away by adding `-10`. -/
theorem toNat_month32 {mp : UInt32} {k : ℕ} (hmp : mp.toNat = k) (hk : k < 12) :
    (month32 mp).toNat = if k < 10 then k + 2 else k - 10 := by
  have hlt : mp < 10 ↔ k < 10 := by
    rw [UInt32.lt_iff_toNat_lt, hmp]
    rfl
  unfold month32
  by_cases h : k < 10
  · rw [if_pos (hlt.mpr h), if_pos h]
    exact toNat_add hmp rfl (by omega)
  · rw [if_neg (mt hlt.mp h), if_neg h, UInt32.toNat_add, hmp]
    show (k + 4294967286) % 4294967296 = k - 10
    omega

/-! ## No overflow in `int` -/

/-- The date in 32 bits is the date. -/
theorem dateOfDays32_eq {n : ℕ} (hn : n < 2 ^ 30) :
    ∃ date, dateOfDays32 n = some date ∧ date.civil_y.toNat = (dateOfDays n).civil_y ∧
      date.m.toNat = (dateOfDays n).m ∧ date.d.toNat = (dateOfDays n).d ∧
      date.doy.toNat = (dateOfDays n).doy := by
  obtain ⟨era, doe, hsplit, hdoe, hera⟩ : ∃ era doe, n + 719468 = 146097 * era + doe ∧
      doe < 146097 ∧ era < 2 ^ 14 :=
    ⟨(n + 719468) / 146097, (n + 719468) % 146097, by omega, by omega, by omega⟩
  obtain ⟨hyoe, hbegun, hended, -⟩ := yearOfEra_spec hdoe
  obtain ⟨hera', hdoe'⟩ := era_spec hsplit hdoe
  -- the signed expressions in the order of the source
  have hshift : int32 ((n : ℤ) + 719468) = some ((n : ℤ) + 719468) :=
    int32_of_mem (by omega) (by omega)
  have hpos : (0 : ℤ) ≤ (n : ℤ) + 719468 := by omega
  rw [if_pos hpos] at hera'
  have heraDays : int32 ((era : ℤ) * 146097) = some ((era : ℤ) * 146097) :=
    int32_of_mem (by omega) (by omega)
  have hrest : int32 ((n : ℤ) + 719468 - (era : ℤ) * 146097) = some (doe : ℤ) := by
    rw [int32_of_mem (by omega) (by omega)]
    exact congrArg some (by omega)
  have hyears : int32 ((era : ℤ) * 400) = some ((era : ℤ) * 400) :=
    int32_of_mem (by omega) (by omega)
  have hdoe32 : (unsigned (doe : ℤ)).toNat = doe := by
    have := toNat_unsigned_of_mem (x := doe) (by omega) (by omega)
    omega
  have hyoe32 := toNat_yearOfEra32 hdoe32 hdoe
  have hdoy32 := toNat_dayOfYear32 hdoe32 hyoe32 hyoe hbegun
  have hyoeInt : int32 ((yearOfEra32 (unsigned (doe : ℤ))).toNat : ℤ) =
      some (yearOfEra doe : ℤ) := by
    rw [hyoe32]
    exact int32_of_mem (by omega) (by omega)
  have hy : int32 ((yearOfEra doe : ℤ) + (era : ℤ) * 400) =
      some ((yearOfEra doe : ℤ) + (era : ℤ) * 400) := int32_of_mem (by omega) (by omega)
  have hdate : dateOfDays n =
      let doy := doe - daysBefore (yearOfEra doe)
      let mp := (5 * doy + 2) / 153
      let m := toUnsigned ((mp : ℤ) + if mp < 10 then 2 else -10)
      ⟨toUnsigned ((yearOfEra doe : ℤ) + (era : ℤ) * 400 + if m ≤ 1 then 1 else 0), m,
        doy - (153 * mp + 2) / 5 + 1, doy⟩ := by
    simp only [dateOfDays, if_pos hpos, hera', hdoe']
  have hdoy : doe - daysBefore (yearOfEra doe) ≤ 365 := by omega
  -- no `int` of these overflows, so that the conversion goes on
  rw [dateOfDays32, bind_of_eq_some hshift, bind_of_eq_some (shiftDown32_of_nonneg _ hpos)]
  dsimp only
  rw [hera', bind_of_eq_some heraDays, bind_of_eq_some hrest]
  rw [bind_of_eq_some hyoeInt, bind_of_eq_some hyears, bind_of_eq_some hy, hdate]
  dsimp only
  -- only the values of the unsigned parts matter from here on
  generalize yearOfEra32 (unsigned (doe : ℤ)) = yoe32 at hdoy32 ⊢
  generalize dayOfYear32 (unsigned (doe : ℤ)) yoe32 = doy32 at hdoy32 ⊢
  generalize doe - daysBefore (yearOfEra doe) = doy at hdoy32 hdoy ⊢
  obtain ⟨hmp, hday, -⟩ := month_spec hdoy
  have hmp32 := toNat_monthFromMarch32 hdoy32 hdoy
  have hd32 := toNat_dayOfMonth32 hdoy32 hmp32 hdoy hmp hday
  have hm32 := toNat_month32 hmp32 hmp
  generalize (5 * doy32 + 2) / 153 = mp32 at hmp32 hd32 hm32 ⊢
  generalize (5 * doy + 2) / 153 = mp at hmp hmp32 hd32 hm32 ⊢
  have hm : month32 mp32 ≤ 1 ↔ (if mp < 10 then mp + 2 else mp - 10) ≤ 1 := by
    rw [UInt32.le_iff_toNat_le, hm32]
    rfl
  -- January and February belong to the year that begins before the next March
  have hyear : int32 ((yearOfEra doe : ℤ) + (era : ℤ) * 400 + if month32 mp32 ≤ 1 then 1 else 0) =
      some ((yearOfEra doe : ℤ) + (era : ℤ) * 400 + if month32 mp32 ≤ 1 then 1 else 0) := by
    apply int32_of_mem <;> split <;> omega
  have hcivil := toUnsigned_year hyoe hera hmp
  rw [bind_of_eq_some hyear, toUnsigned_month hmp, hcivil]
  refine ⟨_, rfl, ?_, hm32, hd32, hdoy32⟩
  have hunsigned := toNat_unsigned
    ((yearOfEra doe : ℤ) + (era : ℤ) * 400 + if month32 mp32 ≤ 1 then 1 else 0)
  rw [toUnsigned, if_congr hm.symm rfl rfl] at hcivil
  show (unsigned _).toNat = _
  omega

theorem weekdayOfDays32_eq {n : ℕ} (hn : n < 2 ^ 30) :
    ∃ wday, weekdayOfDays32 n = some wday ∧ wday.toNat = (n + 4) % 7 := by
  have hplus : int32 ((n : ℤ) + 4) = some ((n : ℤ) + 4) := int32_of_mem (by omega) (by omega)
  have hmod : ((n : ℤ) + 4).tmod 7 = ((n + 4) % 7 : ℕ) := by
    rw [Int.tmod_eq_emod_of_nonneg (by omega)]
    omega
  rw [weekdayOfDays32, if_pos (by omega), bind_of_eq_some hplus, hmod]
  refine ⟨_, rfl, ?_⟩
  have hunsigned := toNat_unsigned_of_mem (x := ((n + 4) % 7 : ℕ)) (by omega) (by omega)
  omega

/-! ## The calendar -/

/-- The length of the month that is the one `mp` months after March. -/
theorem monthLength_fromMarch {y mp : ℕ} (hmp : mp < 11) :
    monthLength y (if mp < 10 then mp + 3 else mp - 9) =
      (153 * (mp + 1) + 2) / 5 - (153 * mp + 2) / 5 := by
  have hmonths : ∀ mp < 11, (if mp < 10 then mp + 3 else mp - 9) ≠ 2 ∧
      (if (if mp < 10 then mp + 3 else mp - 9) = 4 ∨ (if mp < 10 then mp + 3 else mp - 9) = 6 ∨
        (if mp < 10 then mp + 3 else mp - 9) = 9 ∨ (if mp < 10 then mp + 3 else mp - 9) = 11
        then 30 else 31) = (153 * (mp + 1) + 2) / 5 - (153 * mp + 2) / 5 := by decide
  obtain ⟨htwo, hlength⟩ := hmonths mp hmp
  rw [monthLength, if_neg htwo, hlength]

/-- **Days.**  The date of a day is the date of the calendar with the number of that day. -/
theorem dateOfDays_isDate {n : ℕ} (hn : n < 2 ^ 30) :
    ∃ d : Date, (dateOfDays n).civil_y = d.year ∧ (dateOfDays n).m + 1 = d.month ∧
      (dateOfDays n).d = d.day ∧ d.number = n + 719528 := by
  obtain ⟨era, yoe, doy, mp, hdays, hyoe, hmp, hbegun, hnext, hlast, hleap, hera, hdate⟩ :=
    dateOfDays_spec hn
  have hlength : doy - (153 * mp + 2) / 5 + 1 ≤
      monthLength (yoe + 400 * era + if mp < 10 then 0 else 1)
        (if mp < 10 then mp + 3 else mp - 9) := by
    by_cases hfebruary : mp < 11
    · rw [monthLength_fromMarch hfebruary]
      omega
    · -- the last day is there only in a leap year
      obtain rfl : mp = 11 := by omega
      rw [if_neg (by decide), if_neg (by decide), monthLength, if_pos rfl]
      split
      · omega
      · next hcommon =>
        have hshort : doy ≠ 365 := by
          intro hlong
          obtain ⟨hfour, hcentury⟩ := hleap hlong
          refine hcommon ⟨by omega, ?_⟩
          omega
        omega
  obtain ⟨d, hyear, hmonth, hday⟩ : ∃ d : Date,
      d.year = (yoe + 400 * era + if mp < 10 then 0 else 1) ∧
        d.month = (if mp < 10 then mp + 3 else mp - 9) ∧ d.day = doy - (153 * mp + 2) / 5 + 1 := by
    refine ⟨⟨_, _, _, ?_, Nat.le_add_left 1 _, hlength⟩, rfl, rfl, rfl⟩
    split <;> omega
  have hmarch : mp = if d.month ≤ 2 then d.month + 9 else d.month - 3 := by
    -- the year of the conversion begins in March: back to that year for the number
    rw [hmonth]
    split <;> split <;> omega
  have hyears : 400 * (era : ℤ) + yoe = d.year - if d.month ≤ 2 then 1 else 0 := by
    rw [hmonth, hyear]
    split <;> split <;> omega
  have hnumber := d.number_era hyoe hyears hmarch
  rw [daysBefore] at hdays
  rw [hdate]
  refine ⟨d, hyear.symm, ?_, hday.symm, by omega⟩
  rw [hmonth]
  show (if mp < 10 then mp + 2 else mp - 10) + 1 = _
  split <;> omega

/-! ## The time of the clock -/

/-- `mbedtls_platform_gmtime_r` from `gmt_sec` on, without wrapping and overflow. -/
def gmtimeOfSeconds (gmt_sec : ℕ) : Tm :=
  let date := dateOfDays (gmt_sec / 60 / 60 / 24)
  { tm_sec := (gmt_sec % 60 : ℕ)
    tm_min := (gmt_sec / 60 % 60 : ℕ)
    tm_hour := (gmt_sec / 60 / 60 % 24 : ℕ)
    tm_mday := date.d
    tm_mon := date.m
    tm_year := (date.civil_y : ℤ) - 1900
    tm_wday := ((gmt_sec / 60 / 60 / 24 + 4) % 7 : ℕ)
    tm_yday := date.doy
    tm_isdst := false }

/-- The years of the days that 32 bits can count. -/
theorem civil_y_mem {n : ℕ} (hn : n < 2 ^ 30) :
    1970 ≤ (dateOfDays n).civil_y ∧ (dateOfDays n).civil_y ≤ n + 2000 := by
  obtain ⟨d, hyear, -, -, hnumber⟩ := dateOfDays_isDate hn
  have hbegun : daysBeforeYear d.year ≤ d.number := by
    rw [Date.number]
    omega
  have hepoch := Date.daysBeforeYear_eq 1970
  have hended : daysBeforeYear 1970 < daysBeforeYear (d.year + 1) :=
    lt_of_le_of_lt (by omega) d.number_lt
  have hlo : 1970 < d.year + 1 := daysBeforeYear_strictMono.lt_iff_lt.mp hended
  have hyears := Date.daysBeforeYear_eq d.year
  have hquotients : (d.year + 99) / 100 ≤ (d.year + 3) / 4 := by omega
  rw [hyear]
  omega

/-- The whole conversion is that of naturals, and nothing overflows. -/
theorem gmtimeR32_eq (gmt_sec : UInt32) :
    gmtimeR32 gmt_sec = some (gmtimeOfSeconds gmt_sec.toNat) := by
  obtain ⟨n, hn⟩ : ∃ n, gmt_sec.toNat = n := ⟨_, rfl⟩
  have hlt : n < 4294967296 := hn ▸ gmt_sec.toNat_lt
  have hmin : (gmt_sec / 60).toNat = n / 60 := toNat_div hn rfl
  have hhour : (gmt_sec / 60 / 60).toNat = n / 60 / 60 := toNat_div hmin rfl
  have hday : (gmt_sec / 60 / 60 / 24).toNat = n / 60 / 60 / 24 := toNat_div hhour rfl
  have hdays : n / 60 / 60 / 24 < 2 ^ 30 := by omega
  obtain ⟨date, hdate, hy, hm, hd, hdoy⟩ := dateOfDays32_eq hdays
  obtain ⟨wday, hwday, hw⟩ := weekdayOfDays32_eq hdays
  obtain ⟨hyear, hyear'⟩ := civil_y_mem hdays
  obtain ⟨d, -, hmonth, hday', -⟩ := dateOfDays_isDate hdays
  have hdayMax := d.day_mem.2.trans (monthLength_le d.year d.month)
  have hmonthMax := d.month_mem.2
  -- the year is after 1900, so that the unsigned difference does not wrap
  have hsince : (date.civil_y - 1900).toNat = (dateOfDays (n / 60 / 60 / 24)).civil_y - 1900 :=
    toNat_sub hy rfl (by omega)
  have hdoyMax : (dateOfDays (n / 60 / 60 / 24)).doy < 2147483648 := by
    obtain ⟨_, _, doy, _, -, -, -, -, -, hdoy', -, -, hparts⟩ := dateOfDays_spec hdays
    rw [hparts]
    show doy < _
    omega
  have hnat : ∀ k : ℕ, k < 2147483648 → int32 (k : ℤ) = some (k : ℤ) :=
    fun k hk => int32_of_mem (by omega) (by omega)
  have hsec : (gmt_sec % 60).toNat = n % 60 := toNat_mod hn rfl
  have hmin' : (gmt_sec / 60 % 60).toNat = n / 60 % 60 := toNat_mod hmin rfl
  have hhour' : (gmt_sec / 60 / 60 % 24).toNat = n / 60 / 60 % 24 := toNat_mod hhour rfl
  -- every field of the result is an `int`
  rw [gmtimeR32, hday, bind_of_eq_some (hnat _ (by omega)), bind_of_eq_some hdate,
    bind_of_eq_some hwday, hsec, hmin', hhour', hd, hm, hsince, hw, hdoy,
    bind_of_eq_some (hnat _ (by omega)), bind_of_eq_some (hnat _ (by omega)),
    bind_of_eq_some (hnat _ (by omega)), bind_of_eq_some (hnat _ (by omega)),
    bind_of_eq_some (hnat _ (by omega)), bind_of_eq_some (hnat _ (by omega)),
    bind_of_eq_some (hnat _ (by omega)), bind_of_eq_some (hnat _ hdoyMax), hn,
    Nat.cast_sub (by omega)]
  rfl

/-- From the clock on, the conversion in 32 bits is the conversion. -/
theorem gmtimeR32_gmtSec (tt gmtdelta : ℤ) :
    gmtimeR32 (gmtSec tt gmtdelta) = some (mbedtlsPlatformGmtimeR tt gmtdelta) := by
  have hsec : (gmtSec tt gmtdelta).toNat = toUnsigned (tt - gmtdelta - NEWTON_EPOCH_DELTA) := by
    have hunsigned := toNat_unsigned (tt - gmtdelta - NEWTON_EPOCH_DELTA)
    rw [gmtSec, toUnsigned]
    omega
  have hwday : ∀ k : ℕ, (toUnsigned (if (k : ℤ) ≥ -4 then ((k : ℤ) + 4).tmod 7
      else ((k : ℤ) + 5).tmod 7 + 6) : ℤ) = ((k + 4) % 7 : ℕ) := by
    intro k
    rw [if_pos (by omega), Int.tmod_eq_emod_of_nonneg (by omega), toUnsigned]
    omega
  rw [gmtimeR32_eq, hsec]
  simp only [mbedtlsPlatformGmtimeR, gmtimeOfSeconds, hwday]

/-- The first day that the clock of the conversion counts. -/
def epoch1970 : Date := ⟨1970, 1, 1, january, by decide⟩

/-- The number of January 1, 1970. -/
theorem number_epoch1970 : epoch1970.number = 719528 := by
  have hyears := Date.daysBeforeYear_eq 1970
  simp only [Date.number, epoch1970, Nat.sub_self, daysOfMonths, Nat.add_zero]
  omega

/-- The fields of `tm` are those of a time of the calendar. -/
structure Shows (tm : Tm) (t : DateTime) : Prop where
  year : tm.tm_year + 1900 = t.date.year
  month : tm.tm_mon + 1 = t.date.month
  day : tm.tm_mday = t.date.day
  hour : tm.tm_hour = t.hour
  min : tm.tm_min = t.min
  sec : tm.tm_sec = t.sec
  weekday : tm.tm_wday = t.date.weekday

/-- The seconds of a time that is shown. -/
theorem shows_gmtimeOfSeconds {n : ℕ} (hn : n < 2 ^ 32) :
    ∃ t, Shows (gmtimeOfSeconds n) t ∧ t.secondsSince epoch1970 = n := by
  obtain ⟨d, hyear, hmonth, hday, hnumber⟩ :=
    dateOfDays_isDate (n := n / 60 / 60 / 24) (by omega)
  refine ⟨⟨d, n / 60 / 60 % 24, n / 60 % 60, n % 60, by omega, by omega, by omega⟩, ?_, ?_⟩
  · refine ⟨?_, ?_, ?_, rfl, rfl, rfl, ?_⟩
    · simp only [gmtimeOfSeconds, hyear]
      omega
    · simp only [gmtimeOfSeconds, ← hmonth]
      rfl
    · simp only [gmtimeOfSeconds, hday]
    · -- the first day was a Thursday
      simp only [gmtimeOfSeconds, Date.weekday, hnumber, Date.weekdayOfNumber_eq]
      omega
  · rw [DateTime.secondsSince, hnumber, number_epoch1970]
    dsimp only
    omega

/-- **The civil date.**  For every `gmt_sec` no expression overflows, and the fields are those of
the one date and time of day of the calendar that is so many seconds after 1970 began. -/
theorem gmtime_civil (gmt_sec : UInt32) :
    ∃ tm t, gmtimeR32 gmt_sec = some tm ∧ Shows tm t ∧
      t.secondsSince epoch1970 = gmt_sec.toNat ∧
      ∀ t' : DateTime, t'.secondsSince epoch1970 = gmt_sec.toNat → t' = t := by
  obtain ⟨t, hshows, hsec⟩ := shows_gmtimeOfSeconds gmt_sec.toNat_lt
  refine ⟨_, t, gmtimeR32_eq gmt_sec, hshows, hsec, fun t' ht' => ?_⟩
  exact DateTime.secondsSince_injective epoch1970 (ht'.trans hsec.symm)

/-! ## The day of the year -/

/-- The day that the conversion takes for that of the year is counted from the last first of
March. -/
theorem doy_eq {n : ℕ} (hn : n < 2 ^ 30) {d : Date} (hmonth : (dateOfDays n).m + 1 = d.month)
    (hday : (dateOfDays n).d = d.day) :
    (dateOfDays n).doy = if d.month ≤ 2 then d.dayOfYear + 306
      else d.dayOfYear - daysOfMonths d.year 2 := by
  obtain ⟨era, yoe, doy, mp, -, -, hmp, hbegun, -, -, -, -, hdate⟩ := dateOfDays_spec hn
  have hmarch : mp = if d.month ≤ 2 then d.month + 9 else d.month - 3 := by
    rw [← hmonth, hdate]
    dsimp only
    split <;> split <;> omega
  rw [← d.dayOfYear_march hmarch, ← hday, hdate]
  dsimp only
  omega

/-- `tm_yday` is the number of days from January 1 of the year that is reported to the date. -/
def YdayRight (tm : Tm) : Prop :=
  ∃ d : Date, tm.tm_year + 1900 = d.year ∧ tm.tm_mon + 1 = d.month ∧ tm.tm_mday = d.day ∧
    tm.tm_yday = d.dayOfYear

/-- **The day of the year is never right.**  For every `gmt_sec` the fields are those of a date, and
`tm_yday` is another number than that of its day in its year. -/
theorem yday_never (gmt_sec : UInt32) :
    ∃ tm t, gmtimeR32 gmt_sec = some tm ∧ Shows tm t ∧ ¬ YdayRight tm := by
  obtain ⟨t, hshows, -⟩ := shows_gmtimeOfSeconds gmt_sec.toNat_lt
  refine ⟨_, t, gmtimeR32_eq gmt_sec, hshows, ?_⟩
  rintro ⟨d, hyear, hmonth, hday, hyday⟩
  have hdays : gmt_sec.toNat / 60 / 60 / 24 < 2 ^ 30 := by
    have := gmt_sec.toNat_lt
    omega
  have hmonth' : ((dateOfDays (gmt_sec.toNat / 60 / 60 / 24)).m : ℤ) + 1 = d.month := hmonth
  have hday' : ((dateOfDays (gmt_sec.toNat / 60 / 60 / 24)).d : ℤ) = d.day := hday
  have hyday' : ((dateOfDays (gmt_sec.toNat / 60 / 60 / 24)).doy : ℤ) = d.dayOfYear := hyday
  have hdoy := doy_eq hdays (d := d) (by omega) (by omega)
  by_cases hwinter : d.month ≤ 2
  · rw [if_pos hwinter] at hdoy
    omega
  · -- January and February are days of the year too
    rw [if_neg hwinter] at hdoy
    have hwinterDays : 0 < daysOfMonths d.year 2 := daysOfMonths_strictMono d.year Nat.two_pos
    have hpassed : daysOfMonths d.year 2 ≤ daysOfMonths d.year (d.month - 1) :=
      (daysOfMonths_strictMono d.year).monotone (by omega)
    have hlate : daysOfMonths d.year (d.month - 1) ≤ d.dayOfYear := Nat.le_add_right _ _
    omega

/-- 1970 begins with the day 306 of the year. -/
theorem not_yday_right :
    ¬ ∀ gmt_sec : UInt32, ∃ tm, gmtimeR32 gmt_sec = some tm ∧ YdayRight tm := by
  intro hall
  obtain ⟨tm, htm, d, hyear, hmonth, hday, hyday⟩ := hall 0
  have hfirst : some (gmtimeOfSeconds 0) = some tm := (gmtimeR32_eq 0).symm.trans htm
  rw [← Option.some.inj hfirst] at hyear hmonth hday hyday
  have hshown : (gmtimeOfSeconds 0).tm_year + 1900 = 1970 ∧ (gmtimeOfSeconds 0).tm_mon + 1 = 1 ∧
      (gmtimeOfSeconds 0).tm_mday = 1 := by decide
  have hepoch : d = epoch1970 :=
    Date.ext (Int.ofNat.inj (hyear.symm.trans hshown.1))
      (Int.ofNat.inj (hmonth.symm.trans hshown.2.1)) (Int.ofNat.inj (hday.symm.trans hshown.2.2))
  rw [hepoch] at hyday
  exact absurd hyday (by decide)

end CivilTime

end NewtonTLS
