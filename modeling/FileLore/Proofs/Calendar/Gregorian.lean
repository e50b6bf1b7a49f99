import FileLore.Calendar
import Mathlib.Algebra.Ring.Nat

/-!
# The calendar

Dates are counted here from their years and months: the days of the years before,
those of the months before, and the day of the month. An instant is shown as a
valid date and time whose count of seconds is the instant again
(`ofInstant_isValid`), on both sides of 1970 and of the year 0.

Reading off a date goes by eras of four hundred years that begin in March, and the
year of an era is found by leaving out its leap days. What is left of them grows
with the day, so it is enough to look at the first and the last day of every year
(`commonDays_ends`).
-/

namespace FileLore.DateTime

/-! ## Counting days -/

/-- Whether a year has a leap day. -/
def isLeapYear (year : Int) : Bool :=
  year % 4 == 0 && (year % 100 != 0 || year % 400 == 0)

/-- The days of the months, in a leap year or in another one. -/
def monthLengths (leap : Bool) : List Nat :=
  [31, if leap then 29 else 28, 31, 30, 31, 30, 31, 31, 30, 31, 30, 31]

/-- The days of a month. -/
def monthLength (leap : Bool) (month : Nat) : Nat :=
  (monthLengths leap).getD (month - 1) 0

/-- The days of a year before a month. -/
def daysBeforeMonth (leap : Bool) (month : Nat) : Nat :=
  ((monthLengths leap).take (month - 1)).sum

/-- The days from the first of January of the year 1 to that of another year. -/
def daysBefore (year : Int) : Int :=
  365 * (year - 1) + (year - 1) / 4 - (year - 1) / 100 + (year - 1) / 400

/-- The number of a date, counted from the first of January of the year 1. -/
def dayNumber (year : Int) (month day : Nat) : Int :=
  daysBefore year + daysBeforeMonth (isLeapYear year) month + day

/-- The seconds from the start of 1970 to a date and time. -/
def secondsOf (t : DateTime) : Int :=
  86400 * (dayNumber t.year t.month t.day - dayNumber 1970 1 1) +
    (3600 * t.hour + 60 * t.minute + t.second : Nat)

/-- Whether a date and time exists: the month has that day, the day that time. -/
structure IsValid (t : DateTime) : Prop where
  month : 1 ≤ t.month ∧ t.month ≤ 12
  day : 1 ≤ t.day ∧ t.day ≤ monthLength (isLeapYear t.year) t.month
  hour : t.hour < 24
  minute : t.minute < 60
  second : t.second < 60

theorem sum_monthLengths (leap : Bool) :
    (monthLengths leap).sum = if leap = true then 366 else 365 := by
  cases leap <;> rfl

/-- Every year adds its days. -/
theorem daysBefore_succ (year : Int) :
    daysBefore (year + 1) = daysBefore year + (monthLengths (isLeapYear year)).sum := by
  rw [sum_monthLengths]
  simp only [daysBefore, isLeapYear, Bool.and_eq_true, Bool.or_eq_true, beq_iff_eq, bne_iff_ne]
  split <;> omega

/-! ## The year of an era -/

/-- The days of an era before the day `n` without leap days, of which there is one after every 1460
days, but for the ends of the first three centuries. -/
def commonDays (n : Nat) : Nat := n - n / 1460 + n / 36524 - n / 146096

theorem commonDays_mono {m n : Nat} (hle : m ≤ n) (h : n < daysOfEra) :
    commonDays m ≤ commonDays n := by
  induction n, hle using Nat.le_induction with
  | base => exact Nat.le_refl _
  | succ n hle ih =>
    have hstep : commonDays n ≤ commonDays (n + 1) := by
      simp only [commonDays, daysOfEra] at h ⊢
      omega
    exact Nat.le_trans (ih (Nat.lt_of_succ_lt h)) hstep

/-- The first day of a year of an era, and the last one of the year before. -/
theorem commonDays_ends : ∀ year ≤ 399, 365 * year ≤ commonDays (daysBeforeYear year) ∧
    (year = 0 ∨ commonDays (daysBeforeYear year - 1) < 365 * year) := by
  decide +kernel

theorem daysBeforeYear_lt {year : Nat} (h : year ≤ 399) : daysBeforeYear year < daysOfEra := by
  simp only [daysBeforeYear, daysOfEra]
  omega

theorem yearOfEra_le {n : Nat} (h : n < daysOfEra) : yearOfEra n ≤ 399 := by
  simp only [yearOfEra, daysOfEra] at *
  omega

theorem daysBeforeYear_le {n : Nat} (h : n < daysOfEra) : daysBeforeYear (yearOfEra n) ≤ n := by
  refine Nat.le_of_not_lt fun hless => ?_
  -- A day before its year would leave too few days for the year.
  have hyear := yearOfEra_le h
  have hbefore := commonDays_mono (Nat.le_sub_one_of_lt hless)
    (Nat.lt_of_le_of_lt (Nat.sub_le _ 1) (daysBeforeYear_lt hyear))
  have hdef : yearOfEra n = commonDays n / 365 := rfl
  obtain ⟨-, hzero | hend⟩ := commonDays_ends _ hyear
  · rw [hzero] at hless
    exact Nat.not_lt_zero n hless
  · omega

theorem lt_daysBeforeYear {n : Nat} (h : n < daysOfEra) (hyear : yearOfEra n + 1 ≤ 399) :
    n < daysBeforeYear (yearOfEra n + 1) := by
  refine Nat.lt_of_not_le fun hless => ?_
  have hafter := commonDays_mono hless h
  have hdef : yearOfEra n = commonDays n / 365 := rfl
  obtain ⟨hstart, -⟩ := commonDays_ends _ hyear
  omega

/-- A year that begins in March has the leap day of the calendar year that begins in it. -/
theorem daysBeforeYear_succ : ∀ year : Nat, year ≤ 398 →
    daysBeforeYear (year + 1) =
      daysBeforeYear year + (if isLeapYear (year + 1) = true then 366 else 365) := by
  decide +kernel

/-- Leap years come again after four hundred years. -/
theorem isLeapYear_add (year era : Int) : isLeapYear (year + era * 400) = isLeapYear year := by
  have hfour : (year + era * 400) % 4 = year % 4 := by omega
  have hcentury : (year + era * 400) % 100 = year % 100 := by omega
  have hera : (year + era * 400) % 400 = year % 400 := by omega
  rw [isLeapYear, isLeapYear, hfour, hcentury, hera]

/-- A year that begins in March has 365 days, and one more only if there is a leap day. -/
theorem dayOfYear_le {n : Nat} (h : n < daysOfEra) :
    n - daysBeforeYear (yearOfEra n) ≤ 365 ∧
      (n - daysBeforeYear (yearOfEra n) = 365 → isLeapYear (yearOfEra n + 1) = true) := by
  have hhigh := lt_daysBeforeYear h
  have hyear := yearOfEra_le h
  have hera : n < 146097 := h
  by_cases hlast : yearOfEra n = 399
  · have hstart : daysBeforeYear 399 = 145731 := rfl
    rw [hlast, hstart]
    exact ⟨by omega, fun _ => by decide⟩
  · have hnext := daysBeforeYear_succ (yearOfEra n) (by omega)
    have hbefore := hhigh (by omega)
    split at hnext
    · next hleap => exact ⟨by omega, fun _ => hleap⟩
    · exact ⟨by omega, fun hday => by omega⟩

/-! ## The day of a month -/

/-- The month that holds a day, counted from March on. -/
def monthFromMarch (day : Nat) : Nat := (5 * day + 2) / 153

/-- The day of its month. -/
def dayOfMonth (day : Nat) : Nat := day - (153 * monthFromMarch day + 2) / 5 + 1

/-- From March to December, the days before the month make up the day with those from March on. -/
theorem month_of_march : ∀ day ≤ 365, ∀ leap : Bool, monthFromMarch day < 10 →
    dayOfMonth day ≤ monthLength leap (monthFromMarch day + 3) ∧
      daysBeforeMonth leap (monthFromMarch day + 3) + dayOfMonth day + 305 =
        day + if leap = true then 366 else 365 := by
  decide +kernel

/-- January and February follow; only a leap year has the last of these days. -/
theorem month_of_january : ∀ day ≤ 365, ∀ leap : Bool, (day = 365 → leap = true) →
    10 ≤ monthFromMarch day →
      monthFromMarch day ≤ 11 ∧ dayOfMonth day ≤ monthLength leap (monthFromMarch day - 9) ∧
        daysBeforeMonth leap (monthFromMarch day - 9) + dayOfMonth day + 305 = day := by
  decide +kernel

/-- Whether a date exists and has the number `number`. -/
structure IsDate (year : Int) (month day : Nat) (number : Int) : Prop where
  monthInYear : 1 ≤ month ∧ month ≤ 12
  dayInMonth : 1 ≤ day ∧ day ≤ monthLength (isLeapYear year) month
  counted : dayNumber year month day = number

/-- A day of a year that begins in March, as a date of the calendar year. -/
theorem isDate_of_march (year : Int) {day : Nat} (h : day ≤ 365)
    (hleap : day = 365 → isLeapYear (year + 1) = true) :
    let month := if monthFromMarch day < 10 then monthFromMarch day + 3 else monthFromMarch day - 9
    IsDate (if month ≤ 2 then year + 1 else year) month (dayOfMonth day)
      (daysBefore (year + 1) + day - 305) := by
  intro month
  by_cases hmarch : monthFromMarch day < 10
  · obtain ⟨hlength, hcount⟩ := month_of_march day h (isLeapYear year) hmarch
    have hmonth : month = monthFromMarch day + 3 := if_pos hmarch
    have hyear : (if month ≤ 2 then year + 1 else year) = year := if_neg (by omega)
    rw [hyear, hmonth]
    refine ⟨by omega, ⟨Nat.le_add_left 1 _, hlength⟩, ?_⟩
    -- The calendar year began in the March year before.
    rw [dayNumber, daysBefore_succ, sum_monthLengths]
    omega
  · obtain ⟨hwithin, hlength, hcount⟩ :=
      month_of_january day h (isLeapYear (year + 1)) hleap (Nat.le_of_not_lt hmarch)
    have hmonth : month = monthFromMarch day - 9 := if_neg hmarch
    have hyear : (if month ≤ 2 then year + 1 else year) = year + 1 := if_pos (by omega)
    rw [hyear, hmonth]
    refine ⟨by omega, ⟨Nat.le_add_left 1 _, hlength⟩, ?_⟩
    rw [dayNumber]
    omega

/-! ## Reading off a date -/

/-- The days before a year that begins in March, by its era. -/
theorem daysBefore_ofEra {year : Nat} (h : year ≤ 399) (era : Int) :
    daysBefore (year + era * 400 + 1) = daysBeforeYear year + era * 146097 := by
  simp only [daysBefore, daysBeforeYear]
  omega

/-- **The date of a day exists and has the number of the day.** -/
theorem isDate_ofDays (days : Int) :
    IsDate (ofDays days).1 (ofDays days).2.1 (ofDays days).2.2
      (days + dayNumber 1970 1 1) := by
  have hera : Int.fdiv (days + daysToEpoch) daysOfEra = (days + daysToEpoch) / 146097 :=
    Int.fdiv_eq_ediv_of_nonneg _ (by decide)
  have hsplit : ∃ (era : Int) (n : Nat), (days + daysToEpoch) / 146097 = era ∧
      (days + daysToEpoch - era * 146097).toNat = n ∧ n < 146097 ∧
      days + daysToEpoch = era * 146097 + n :=
    ⟨_, _, rfl, rfl, by omega, by omega⟩
  obtain ⟨era, n, hfloor, hday, hn, hsum⟩ := hsplit
  obtain ⟨hlength, hlast⟩ := dayOfYear_le hn
  have hleap : n - daysBeforeYear (yearOfEra n) = 365 →
      isLeapYear (yearOfEra n + era * 400 + 1) = true := by
    intro hend
    rw [Int.add_right_comm, isLeapYear_add]
    exact hlast hend
  have hdate := isDate_of_march (yearOfEra n + era * 400) hlength hleap
  have hnumber : daysBefore (yearOfEra n + era * 400 + 1) +
      (n - daysBeforeYear (yearOfEra n) : Nat) - 305 = days + dayNumber 1970 1 1 := by
    have hbefore := daysBeforeYear_le hn
    have hepoch : dayNumber 1970 1 1 + 305 = daysToEpoch := by decide
    rw [daysBefore_ofEra (yearOfEra_le hn)]
    omega
  rw [hnumber] at hdate
  unfold ofDays
  dsimp only
  rw [hera, hfloor]
  have hcast : (daysOfEra : Int) = 146097 := rfl
  rw [hcast, hday]
  exact hdate

/-- An instant is some days and the seconds of a day from the start of 1970. -/
theorem exists_split (instant : Int) : ∃ (days : Int) (seconds : Nat),
    Int.fdiv instant 86400 = days ∧ (instant - days * 86400).toNat = seconds ∧ seconds < 86400 ∧
      instant = days * 86400 + seconds := by
  have hfloor : Int.fdiv instant 86400 = instant / 86400 :=
    Int.fdiv_eq_ediv_of_nonneg _ (by decide)
  exact ⟨_, _, hfloor, rfl, by omega, by omega⟩

/-- **An instant is shown as a date and time that exists and counts its seconds.** -/
theorem ofInstant_isValid (instant : Int) :
    (ofInstant instant).IsValid ∧ secondsOf (ofInstant instant) = instant := by
  obtain ⟨days, seconds, hdays, hseconds, hday, hinstant⟩ := exists_split instant
  have hdate := isDate_ofDays days
  have htime : ofInstant instant =
      ⟨(ofDays days).1, (ofDays days).2.1, (ofDays days).2.2, seconds / 3600, seconds / 60 % 60,
        seconds % 60⟩ := by
    rw [ofInstant, hdays, hseconds]
  rw [htime]
  constructor
  · exact ⟨hdate.monthInYear, hdate.dayInMonth, by dsimp only; omega, Nat.mod_lt _ (by decide),
      Nat.mod_lt _ (by decide)⟩
  · rw [secondsOf, hdate.counted]
    dsimp only
    omega

end FileLore.DateTime
