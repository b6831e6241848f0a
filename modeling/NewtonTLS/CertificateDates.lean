/-
# The dates of certificates

`TimeToLocal1904Minutes` of `Protocol/NewtonBindings.cpp` with the integers of the source, and
`X509CrtGetIssueDate` and `X509CrtGetExpirationDate` of `Protocol/PMbedTLS.cpp`, which make a
NewtonScript integer of its result.

The days are counted exactly (`days_counted`).  The hour and the minute are not read, and a
NewtonScript integer has 30 bits, so that the minutes are exact only at midnight and for about a
thousand years before and after 1904 (`dates_exact_iff`).
-/
import NewtonTLS.CivilTime

namespace NewtonTLS

namespace CertificateDates

open CalendarTime CivilTime MachineInt Gregorian

/-! ## `TimeToLocal1904Minutes` -/

/-- `TimeToLocal1904Minutes`, where `int` and `long` have 32 bits. -/
def timeToLocal1904Minutes32 (time : X509Time) : Option ℤ := do
  let m := time.mon
  let y ← int32 (time.year - if m ≤ 2 then 1 else 0)
  let d := time.day
  let shifted ← shiftDown32 399 y
  let era := shifted.tdiv 400
  let eraYears ← int32 (era * 400)
  let yoe := unsigned (← int32 (y - eraYears))
  let mp ← int32 (m + if m > 2 then -3 else 9)
  let months ← int32 (153 * mp)
  let months ← int32 (months + 2)
  let day ← int32 (months.tdiv 5 + d)
  let doy := unsigned (← int32 (day - 1))
  let doe := yoe * 365 + yoe / 4 - yoe / 100 + doy
  let eraDays ← int32 (era * 146097)
  let days000301 ← int32 (eraDays + (← int32 doe.toNat))
  let days19040101 ← int32 (days000301 - NEWTON_000301_DELTA_DAYS)
  int32 (days19040101 * 1440)

/-- The time of a certificate, as mbedTLS stores one that it accepts. -/
def x509Time (t : DateTime) : X509Time :=
  ⟨t.date.year, t.date.month, t.date.day, t.hour, t.min, t.sec⟩

/-- The day from which the minutes are counted. -/
def epoch1904 : Date := ⟨1904, 1, 1, january, by decide⟩

/-- The number of January 1, 1904. -/
theorem number_epoch1904 : epoch1904.number = 695421 := by
  have hyears := Date.daysBeforeYear_eq 1904
  simp only [Date.number, epoch1904, Nat.sub_self, daysOfMonths, Nat.add_zero]
  omega

/-- The parts that a time is taken to: its year in eras from March, its month from March, and
its day of that year. -/
theorem x509Time_parts {t : DateTime} (hyear : t.date.year ≤ 9999) :
    ∃ (era : ℤ) (yoe mp doy : ℕ),
      (x509Time t).year - (if (x509Time t).mon ≤ 2 then 1 else 0) = 400 * era + yoe ∧
      (x509Time t).mon + (if (x509Time t).mon > 2 then -3 else 9) = mp ∧
      ((153 * mp + 2) / 5 : ℕ) + (x509Time t).day - 1 = doy ∧
      yoe < 400 ∧ mp < 12 ∧ doy < 400 ∧ -1 ≤ era ∧ era < 25 ∧
      (t.date.number : ℤ) = 146097 * era + 365 * yoe + yoe / 4 - yoe / 100 + doy + 60 := by
  obtain ⟨hmonth, hmonth'⟩ := t.date.month_mem
  obtain ⟨hday, hday'⟩ := t.date.day_mem
  have hday31 := hday'.trans (monthLength_le _ _)
  obtain ⟨y, hy⟩ : ∃ y : ℤ, y = t.date.year - if t.date.month ≤ 2 then 1 else 0 := ⟨_, rfl⟩
  obtain ⟨mp, hmp⟩ : ∃ mp, mp = if t.date.month ≤ 2 then t.date.month + 9 else t.date.month - 3 :=
    ⟨_, rfl⟩
  -- January and February of year 0 belong to the year -1 from March on
  obtain ⟨hylo, hyhi⟩ : -1 ≤ y ∧ y < 10000 := by
    rw [hy]
    split <;> omega
  have hmp12 : mp < 12 := by
    rw [hmp]
    split <;> omega
  have hsplit : 400 * (y / 400) + ((y % 400).toNat : ℤ) = y := by omega
  have hnumber := t.date.number_era (show (y % 400).toNat < 400 by omega) (hsplit.trans hy) hmp
  have hyear' : (x509Time t).year - (if (x509Time t).mon ≤ 2 then 1 else 0) = y := by
    rw [hy, if_congr (show (x509Time t).mon ≤ 2 ↔ t.date.month ≤ 2 from by
      show (t.date.month : ℤ) ≤ 2 ↔ _
      omega) rfl rfl]
    rfl
  have hmonths : (x509Time t).mon + (if (x509Time t).mon > 2 then -3 else 9) = (mp : ℤ) := by
    show (t.date.month : ℤ) + (if (t.date.month : ℤ) > 2 then -3 else 9) = mp
    rw [hmp]
    split <;> split <;> omega
  have hdoy : ((153 * mp + 2) / 5 : ℕ) + (x509Time t).day - 1 =
      ((153 * mp + 2) / 5 + t.date.day - 1 : ℕ) := by
    simp only [x509Time]
    omega
  exact ⟨y / 400, (y % 400).toNat, mp, (153 * mp + 2) / 5 + t.date.day - 1,
    hyear'.trans hsplit.symm,
    hmonths, hdoy, by omega, hmp12, by omega, by omega, by omega, by omega⟩

/-- Rounding down to eras, for January and February of year 0 too. -/
theorem era_of_year {era : ℤ} {yoe : ℕ} (hera : -1 ≤ era) (hyoe : yoe < 400)
    (hy : -1 ≤ 400 * era + yoe) :
    (if 0 ≤ 400 * era + yoe then 400 * era + yoe
      else 400 * era + yoe - 399 : ℤ).tdiv 400 = era := by
  split
  · next hpos =>
    rw [Int.tdiv_eq_ediv_of_nonneg hpos]
    omega
  · next hneg =>
    obtain rfl : era = -1 := by omega
    obtain rfl : yoe = 399 := by omega
    rfl

/-- The division of the months rounds towards zero, like that of naturals. -/
theorem months_tdiv (mp : ℕ) : (153 * (mp : ℤ) + 2).tdiv 5 = ((153 * mp + 2) / 5 : ℕ) := by
  rw [Int.tdiv_eq_ediv_of_nonneg (by omega)]
  omega

/-- The minutes are those of the days. -/
theorem timeToLocal1904Minutes_x509Time {t : DateTime} (hyear : t.date.year ≤ 9999) :
    timeToLocal1904Minutes (x509Time t) = 1440 * ((t.date.number : ℤ) - epoch1904.number) := by
  obtain ⟨era, yoe, mp, doy, hy, hmp, hdoy, hyoe, -, hdoy400, hera, -, hnumber⟩ :=
    x509Time_parts hyear
  have hylo : -1 ≤ 400 * era + yoe := by
    rw [← hy]
    show -1 ≤ (t.date.year : ℤ) - _
    split <;> omega
  have hyears : toUnsigned (400 * era + yoe - era * 400) = yoe := by
    unfold toUnsigned
    omega
  have hday : toUnsigned (doy : ℤ) = doy := by
    unfold toUnsigned
    omega
  simp only [timeToLocal1904Minutes, hy, era_of_year hera hyoe hylo, hmp, months_tdiv, hdoy, hyears,
    hday, NEWTON_000301_DELTA_DAYS, number_epoch1904]
  omega

/-- The same in 32 bits, unless the product overflows. -/
theorem timeToLocal1904Minutes32_eq {t : DateTime} (hyear : t.date.year ≤ 9999) :
    timeToLocal1904Minutes32 (x509Time t) = int32 (timeToLocal1904Minutes (x509Time t)) := by
  obtain ⟨era, yoe, mp, doy, hy, hmp, hdoy, hyoe, hmp12, hdoy400, hera, heraMax, hnumber⟩ :=
    x509Time_parts hyear
  have hylo : -1 ≤ 400 * era + yoe := by
    rw [← hy]
    show -1 ≤ (t.date.year : ℤ) - _
    split <;> omega
  -- the signed expressions are in the order of the source; each of them fits
  have hshifted : shiftDown32 399 (400 * era + yoe) =
      some (if 0 ≤ 400 * era + yoe then 400 * era + yoe else 400 * era + yoe - 399) := by
    unfold shiftDown32
    split
    · rfl
    · exact int32_of_mem (by omega) (by omega)
  have hday : -2147483648 ≤ ((153 * mp + 2) / 5 : ℕ) + (x509Time t).day ∧
      ((153 * mp + 2) / 5 : ℕ) + (x509Time t).day ≤ 2147483647 := by omega
  have hyears : 400 * era + yoe - era * 400 = yoe := by omega
  -- the day of the era, which `unsigned` holds
  have hyoe32 : (unsigned (yoe : ℤ)).toNat = yoe := by
    have := toNat_unsigned_of_mem (x := yoe) (by omega) (by omega)
    omega
  have hdoy32 : (unsigned (doy : ℤ)).toNat = doy := by
    have := toNat_unsigned_of_mem (x := doy) (by omega) (by omega)
    omega
  have hdays : (unsigned (yoe : ℤ) * 365).toNat = yoe * 365 := toNat_mul hyoe32 rfl (by omega)
  have hfour : (unsigned (yoe : ℤ) / 4).toNat = yoe / 4 := toNat_div hyoe32 rfl
  have hcentury : (unsigned (yoe : ℤ) / 100).toNat = yoe / 100 := toNat_div hyoe32 rfl
  have hplus := toNat_add hdays hfour (by omega)
  have hminus := toNat_sub hplus hcentury (by omega)
  have hdoe := toNat_add hminus hdoy32 (by omega)
  rw [timeToLocal1904Minutes32]
  dsimp only
  rw [hy, bind_of_eq_some (int32_of_mem (by omega) (by omega)), bind_of_eq_some hshifted,
    era_of_year hera hyoe hylo, bind_of_eq_some (int32_of_mem (by omega) (by omega)), hyears,
    bind_of_eq_some (int32_of_mem (by omega) (by omega)), hmp,
    bind_of_eq_some (int32_of_mem (by omega) (by omega)),
    bind_of_eq_some (int32_of_mem (by omega) (by omega)),
    bind_of_eq_some (int32_of_mem (by omega) (by omega)), months_tdiv,
    bind_of_eq_some (int32_of_mem hday.1 hday.2), hdoy,
    bind_of_eq_some (int32_of_mem (by omega) (by omega)), hdoe,
    bind_of_eq_some (int32_of_mem (by omega) (by omega)),
    bind_of_eq_some (int32_of_mem (by omega) (by omega)),
    bind_of_eq_some (int32_of_mem (by omega) (by omega)), NEWTON_000301_DELTA_DAYS,
    bind_of_eq_some (int32_of_mem (by omega) (by omega)), timeToLocal1904Minutes_x509Time hyear,
    number_epoch1904]
  exact congrArg int32 (by omega)

/-- Up to the beginning of 5987 the product does not overflow. -/
theorem timeToLocal1904Minutes32_of_le {t : DateTime}
    (hnumber : t.date.number ≤ daysBeforeYear 5987) :
    timeToLocal1904Minutes32 (x509Time t) =
      some (1440 * ((t.date.number : ℤ) - epoch1904.number)) := by
  have hbegun : daysBeforeYear t.date.year ≤ daysBeforeYear 5987 := by
    refine le_trans ?_ hnumber
    rw [Date.number, Nat.add_assoc]
    exact Nat.le_add_right _ _
  have hyear : t.date.year ≤ 5987 := daysBeforeYear_strictMono.le_iff_le.mp hbegun
  have hyears := Date.daysBeforeYear_eq 5987
  rw [timeToLocal1904Minutes32_eq (by omega), timeToLocal1904Minutes_x509Time (by omega),
    number_epoch1904]
  exact int32_of_mem (by omega) (by omega)

/-- **Days are counted exactly.**  Up to year 5986 the minutes of midnight are those of the days
since 1904, the next day is 1440 minutes later, and the first one is 0. -/
theorem days_counted (d : Date) (hyear : d.year ≤ 5986) :
    timeToLocal1904Minutes32 (x509Time (.midnight d)) =
        some (1440 * ((d.number : ℤ) - epoch1904.number)) ∧
      timeToLocal1904Minutes32 (x509Time (.midnight d.next)) =
        some (1440 * ((d.number : ℤ) - epoch1904.number) + 1440) ∧
      timeToLocal1904Minutes32 (x509Time (.midnight epoch1904)) = some 0 := by
  have hended : d.number < daysBeforeYear 5987 :=
    d.number_lt.trans_le (daysBeforeYear_strictMono.monotone (by omega))
  have hnext := timeToLocal1904Minutes32_of_le (t := .midnight d.next)
    (d.number_next.trans_le hended)
  have hstep : 1440 * ((d.next.number : ℤ) - epoch1904.number) =
      1440 * ((d.number : ℤ) - epoch1904.number) + 1440 := by
    rw [d.number_next]
    omega
  refine ⟨timeToLocal1904Minutes32_of_le (t := .midnight d) hended.le, ?_, ?_⟩
  · rw [← hstep]
    exact hnext
  · have hyears := Date.daysBeforeYear_eq 5987
    have hle : epoch1904.number ≤ daysBeforeYear 5987 := by
      rw [number_epoch1904]
      omega
    have hfirst := timeToLocal1904Minutes32_of_le (t := .midnight epoch1904) hle
    rw [hfirst]
    show some (1440 * ((epoch1904.number : ℤ) - epoch1904.number)) = some 0
    rw [Int.sub_self, Int.mul_zero]

/-- The last day of an era. -/
def leapDay2000 : Date := ⟨2000, 2, 29, by decide, by decide⟩

theorem days_counted_2000 :
    leapDay2000.year ≤ 5986 ∧ leapDay2000.next = ⟨2000, 3, 1, by decide, by decide⟩ ∧
      timeToLocal1904Minutes32 (x509Time (.midnight leapDay2000)) =
        some (1440 * ((leapDay2000.number : ℤ) - epoch1904.number)) ∧
      timeToLocal1904Minutes32 (x509Time (.midnight leapDay2000.next)) =
        some (1440 * ((leapDay2000.number : ℤ) - epoch1904.number) + 1440) ∧
      timeToLocal1904Minutes32 (x509Time (.midnight epoch1904)) = some 0 :=
  ⟨by decide, by decide, days_counted leapDay2000 (by decide)⟩

/-! ## `X509CrtGetIssueDate` and `X509CrtGetExpirationDate` -/

/-- `mbedtls_x509_crt`: whether `raw.p` is NULL, what `mbedtls_x509_dn_gets` returns for the
subject, and the dates. -/
structure X509Crt : Type where
  rawIsNull : Bool
  subjectGets : ℤ
  valid_from : X509Time
  valid_to : X509Time
  deriving DecidableEq

/-- `ThrowBadTypeWithFrameData(kNSErrOutOfBounds, inIndex)` and
`Throw(exMbedTLSException, (void*) r)`. -/
inductive Thrown : Type where
  | outOfBounds (inIndex : ℤ)
  | mbedTLS (r : ℤ)
  deriving DecidableEq

/-- `while (index != 0)`: the certificate `index` places further in the chain. -/
def crtAt : X509Crt → List X509Crt → ℤ → Option X509Crt
  | crt, [], index => if index = 0 then some crt else none
  | crt, next :: rest, index => if index = 0 then some crt else crtAt next rest (index - 1)

/-- The integer of `MAKEINT(TimeToLocal1904Minutes(time))`, unless the product overflows. -/
def minutesRef (makeInt : ℤ → ℤ) (time : X509Time) : Option ℤ :=
  (timeToLocal1904Minutes32 time).map makeInt

/-- The two functions, which differ in the date that they read. -/
def x509CrtGetDate (result : X509Crt → X509Time) (makeInt : ℤ → ℤ) (crt : X509Crt)
    (next : List X509Crt) (inIndex : ℤ) : Except Thrown (Option ℤ) :=
  if crt.rawIsNull then .error (.outOfBounds inIndex)
  else
    match crtAt crt next inIndex with
    | none => .error (.outOfBounds inIndex)
    | some crt =>
      if crt.subjectGets < 0 then .error (.mbedTLS crt.subjectGets)
      else .ok (minutesRef makeInt (result crt))

/-- `X509CrtGetIssueDate`. -/
def x509CrtGetIssueDate (makeInt : ℤ → ℤ) (crt : X509Crt) (next : List X509Crt) (inIndex : ℤ) :
    Except Thrown (Option ℤ) := x509CrtGetDate X509Crt.valid_from makeInt crt next inIndex

/-- `X509CrtGetExpirationDate`. -/
def x509CrtGetExpirationDate (makeInt : ℤ → ℤ) (crt : X509Crt) (next : List X509Crt)
    (inIndex : ℤ) : Except Thrown (Option ℤ) :=
  x509CrtGetDate X509Crt.valid_to makeInt crt next inIndex

/-- `MAKEINT` makes a signed integer of the low 30 bits. -/
structure Makes30Bits (makeInt : ℤ → ℤ) : Prop where
  lo : ∀ x, -536870912 ≤ makeInt x
  hi : ∀ x, makeInt x ≤ 536870911
  bits : ∀ x, makeInt x % 1073741824 = x % 1073741824

/-- The object `crt` is a certificate, `c` is the one at the index, and its subject can be read. -/
def Reads (crt : X509Crt) (next : List X509Crt) (inIndex : ℤ) (c : X509Crt) : Prop :=
  crt.rawIsNull = false ∧ crtAt crt next inIndex = some c ∧ 0 ≤ c.subjectGets

/-- The dates that come out exactly: midnights whose minutes have 30 bits. -/
def ExactDate (t : DateTime) : Prop :=
  t.hour = 0 ∧ t.min = 0 ∧ -536870912 ≤ t.minutesSince epoch1904 ∧
    t.minutesSince epoch1904 ≤ 536870911

section dates

variable {makeInt : ℤ → ℤ} {crt c : X509Crt} {next : List X509Crt} {inIndex : ℤ} {t u : DateTime}

/-- A certificate that is read gives its date. -/
theorem x509CrtGetDate_of_reads (h : Reads crt next inIndex c) (result : X509Crt → X509Time) :
    x509CrtGetDate result makeInt crt next inIndex = .ok (minutesRef makeInt (result c)) := by
  obtain ⟨hraw, hat, hsubject⟩ := h
  rw [x509CrtGetDate, hraw, hat]
  exact if_neg (not_lt.mpr hsubject)

/-- The integer is that of the whole minutes exactly for the midnights that fit. -/
theorem minutesRef_eq_iff (hmake : Makes30Bits makeInt) (hyear : t.date.year ≤ 9999) :
    minutesRef makeInt (x509Time t) = some (t.minutesSince epoch1904) ↔ ExactDate t := by
  have hhour := t.hour_lt
  have hmin := t.min_lt
  have hminutes := t.minutesSince_eq epoch1904
  have hdays := timeToLocal1904Minutes32_eq hyear
  rw [timeToLocal1904Minutes_x509Time hyear] at hdays
  generalize 1440 * ((t.date.number : ℤ) - epoch1904.number) = days at hminutes hdays
  constructor
  · intro h
    obtain ⟨x, hx, hmade⟩ := Option.map_eq_some_iff.mp h
    obtain ⟨rfl, -, -⟩ := int32_eq_some.mp (hdays.symm.trans hx)
    have hbits := hmake.bits days
    have hlo := hmake.lo days
    have hhi := hmake.hi days
    rw [hmade] at hbits hlo hhi
    -- the minutes of one day do not differ by a multiple of 2^30
    obtain ⟨k, hk⟩ : ∃ k, k = 60 * t.hour + t.min := ⟨_, rfl⟩
    have hsame : k = 0 := by omega
    exact ⟨by omega, by omega, hlo, hhi⟩
  · rintro ⟨hhour', hmin', hlo, hhi⟩
    have hsame : t.minutesSince epoch1904 = days := by omega
    rw [hsame] at hlo hhi
    have hbits := hmake.bits days
    have hmadeLo := hmake.lo days
    have hmadeHi := hmake.hi days
    have hmade : makeInt days = days := by omega
    rw [minutesRef, hdays, int32_of_mem (by omega) (by omega), Option.map_some, hmade, hsame]

/-- **Which dates are exact.**  The integer returned for an issue or an expiration date is the
whole minutes since 1904 if and only if the time is at midnight and the minutes have 30 bits, and
of two such dates the later one is not the smaller integer. -/
theorem dates_exact_iff (hmake : Makes30Bits makeInt) (hreads : Reads crt next inIndex c) :
    (t.date.year ≤ 9999 → c.valid_from = x509Time t →
      (x509CrtGetIssueDate makeInt crt next inIndex = .ok (some (t.minutesSince epoch1904)) ↔
        ExactDate t)) ∧
    (t.date.year ≤ 9999 → c.valid_to = x509Time t →
      (x509CrtGetExpirationDate makeInt crt next inIndex = .ok (some (t.minutesSince epoch1904)) ↔
        ExactDate t)) ∧
    (t.date.year ≤ 9999 → u.date.year ≤ 9999 → ExactDate t → ExactDate u →
      t.secondsSince epoch1904 ≤ u.secondsSince epoch1904 →
      ∃ m m', minutesRef makeInt (x509Time t) = some m ∧ minutesRef makeInt (x509Time u) = some m' ∧
        m ≤ m') := by
  have hiff : ∀ result : X509Crt → X509Time, t.date.year ≤ 9999 → result c = x509Time t →
      (x509CrtGetDate result makeInt crt next inIndex = .ok (some (t.minutesSince epoch1904)) ↔
        ExactDate t) := by
    intro result hyear hdate
    rw [x509CrtGetDate_of_reads hreads, hdate, Except.ok.injEq]
    exact minutesRef_eq_iff hmake hyear
  refine ⟨hiff _, hiff _, fun ht hu hexact hexact' hle => ?_⟩
  exact ⟨_, _, (minutesRef_eq_iff hmake ht).mpr hexact, (minutesRef_eq_iff hmake hu).mpr hexact',
    DateTime.minutesSince_mono epoch1904 hle⟩

end dates

/-- The low 30 bits, as a signed integer. -/
def low30 (x : ℤ) : ℤ := (x + 536870912) % 1073741824 - 536870912

theorem makes30Bits_low30 : Makes30Bits low30 where
  lo := fun x => by unfold low30; omega
  hi := fun x => by unfold low30; omega
  bits := fun x => by unfold low30; omega

/-- The first and the last minute of 2038. -/
def newYear2038 : DateTime := .midnight ⟨2038, 1, 1, january, by decide⟩

/-- The last second of 2038. -/
def yearEnd2038 : DateTime :=
  ⟨⟨2038, 12, 31, by decide, by decide⟩, 23, 59, 59, by decide, by decide, by decide⟩

/-- A root that is valid in 2038. -/
def root2038 : X509Crt := ⟨false, 0, x509Time newYear2038, x509Time yearEnd2038⟩

theorem dates_exact_iff_newYear2038 :
    Makes30Bits low30 ∧ Reads root2038 [] 0 root2038 ∧ newYear2038.date.year ≤ 9999 ∧
      root2038.valid_from = x509Time newYear2038 ∧
      x509CrtGetIssueDate low30 root2038 [] 0 =
        .ok (some (newYear2038.minutesSince epoch1904)) := by
  have hreads : Reads root2038 [] 0 root2038 := ⟨rfl, rfl, le_refl 0⟩
  have hminutes := newYear2038.minutesSince_eq epoch1904
  have hyears := Date.daysBeforeYear_eq 2038
  have hnumber : newYear2038.date.number = 744365 := by
    simp only [Date.number, newYear2038, DateTime.midnight, Nat.sub_self, daysOfMonths,
      Nat.add_zero]
    omega
  rw [hnumber, number_epoch1904] at hminutes
  have hexact : ExactDate newYear2038 := by
    refine ⟨rfl, rfl, ?_, ?_⟩ <;> rw [hminutes] <;> decide
  exact ⟨makes30Bits_low30, hreads, by decide, rfl,
    ((dates_exact_iff makes30Bits_low30 hreads (t := newYear2038) (u := newYear2038)).1
      (by decide) rfl).mpr hexact⟩

/-- The last minute of 2038 comes out as the first one of its day. -/
theorem not_dates_exact : ¬ ∀ (makeInt : ℤ → ℤ) (crt c : X509Crt) (next : List X509Crt)
    (inIndex : ℤ) (t : DateTime), Makes30Bits makeInt → Reads crt next inIndex c →
      t.date.year ≤ 9999 → c.valid_to = x509Time t →
      x509CrtGetExpirationDate makeInt crt next inIndex =
        .ok (some (t.minutesSince epoch1904)) := by
  intro hall
  have hreads : Reads root2038 [] 0 root2038 := ⟨rfl, rfl, le_refl 0⟩
  have h := hall low30 root2038 root2038 [] 0 yearEnd2038 makes30Bits_low30 hreads (by decide) rfl
  rw [x509CrtGetExpirationDate, x509CrtGetDate_of_reads hreads, Except.ok.injEq] at h
  have hexact := (minutesRef_eq_iff makes30Bits_low30 (by decide)).mp h
  exact absurd hexact.1 (by decide)

end CertificateDates

end NewtonTLS
