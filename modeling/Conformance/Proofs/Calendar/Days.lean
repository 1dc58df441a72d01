import Conformance.Calendar
import Mathlib.Algebra.Order.Group.Int
import Mathlib.Logic.Function.Iterate
import Mathlib.Order.Monotone.Basic
import Mathlib.Tactic.IntervalCases

namespace Conformance

namespace Date

def IsLeap (year : Int) : Prop :=
  year % 4 = 0 ∧ (year % 100 ≠ 0 ∨ year % 400 = 0)

instance (year : Int) : Decidable (IsLeap year) :=
  inferInstanceAs (Decidable (_ ∧ _))

def monthLength (year month : Int) : Int :=
  if month = 2 then (if IsLeap year then 29 else 28)
  else if month = 4 ∨ month = 6 ∨ month = 9 ∨ month = 11 then 30
  else 31

-- The day after a date.
def next (d : Date) : Date :=
  if d.day < monthLength d.year d.month then ⟨d.year, d.month, d.day + 1⟩
  else if d.month < 12 then ⟨d.year, d.month + 1, 1⟩
  else ⟨d.year + 1, 1, 1⟩

def epoch : Date :=
  ⟨1970, 1, 1⟩

-- A day of the calendar.
structure IsValid (d : Date) : Prop where
  month : 1 ≤ d.month ∧ d.month ≤ 12
  day : 1 ≤ d.day ∧ d.day ≤ monthLength d.year d.month

theorem monthLength_bounds (year month : Int) :
    1 ≤ monthLength year month ∧ monthLength year month ≤ 31 := by
  unfold monthLength
  split_ifs <;> decide

theorem IsValid.next {d : Date} (h : d.IsValid) : d.next.IsValid := by
  obtain ⟨hmonth, hday⟩ := h
  unfold Date.next
  split_ifs with hlast hdecember
  · exact ⟨hmonth, show 1 ≤ d.day + 1 by omega, hlast⟩
  · exact ⟨⟨show 1 ≤ d.month + 1 by omega, hdecember⟩, le_rfl, (monthLength_bounds _ _).1⟩
  · exact ⟨⟨le_rfl, show (1 : Int) ≤ 12 by decide⟩, le_rfl, (monthLength_bounds _ _).1⟩

def Before (d d' : Date) : Prop :=
  d.year < d'.year ∨ d.year = d'.year ∧ (d.month < d'.month ∨ d.month = d'.month ∧ d.day < d'.day)

theorem Before.trans {d d' d'' : Date} (h : d.Before d') (h' : d'.Before d'') : d.Before d'' := by
  unfold Before at *
  omega

-- The same for dates without signs.
theorem Before.toNat {d d' : Date} (h : d.Before d') (hyear : 0 ≤ d.year) (hvalid : d.IsValid) :
    d.year.toNat < d'.year.toNat ∨ d.year.toNat = d'.year.toNat ∧
      (d.month.toNat < d'.month.toNat ∨ d.month.toNat = d'.month.toNat ∧
        d.day.toNat < d'.day.toNat) := by
  obtain ⟨hmonth, hday⟩ := hvalid
  unfold Before at h
  omega

theorem before_next (d : Date) : d.Before d.next := by
  unfold Before next
  split_ifs <;> simp

end Date

namespace Calendar

-- The days before a year, where both are counted from the first of March of the year zero.
def daysBefore (year : Int) : Int :=
  365 * year + year / 4 - year / 100 + year / 400

-- A year that begins in March ends with the leap day of the year after it, if that has one.
def yearLength (year : Int) : Int :=
  if Date.IsLeap (year + 1) then 366 else 365

theorem yearLength_bounds (year : Int) : 0 < yearLength year ∧ yearLength year ≤ 366 := by
  unfold yearLength
  split_ifs <;> decide

theorem daysBefore_succ (year : Int) :
    daysBefore (year + 1) = daysBefore year + yearLength year := by
  unfold daysBefore yearLength Date.IsLeap
  split_ifs with h <;> omega

theorem daysBefore_lt_iff {year year' : Int} :
    daysBefore year < daysBefore year' ↔ year < year' := by
  have hmono : StrictMono daysBefore := by
    refine strictMono_int_of_lt_succ fun year => ?_
    have hpos := (yearLength_bounds year).1
    rw [daysBefore_succ]
    omega
  exact hmono.lt_iff_lt

-- The year within four centuries, from a day of these.
def yearOfEra (day : Int) : Int :=
  (day - day / 1460 + day / 36524 - day / 146096) / 365

theorem yearOfEra_le {day day' : Int} (h : day ≤ day') : yearOfEra day ≤ yearOfEra day' := by
  have hmono : Monotone yearOfEra := by
    refine monotone_int_of_le_succ fun day => ?_
    refine Int.ediv_le_ediv (by decide) ?_
    omega
  exact hmono h

theorem yearOfEra_bounds : ∀ year : Fin 400,
    yearOfEra (daysBefore year) = year ∧ yearOfEra (daysBefore (year + 1) - 1) = year := by
  decide +kernel

-- The closed form gives a year on its first day and on its last one, and so on all days.
theorem yearOfEra_spec {day : Int} (hlow : 0 ≤ day) (hhigh : day < 146097) :
    0 ≤ yearOfEra day ∧ yearOfEra day < 400 ∧
      daysBefore (yearOfEra day) ≤ day ∧ day < daysBefore (yearOfEra day + 1) := by
  have hfirst : 0 ≤ yearOfEra day := yearOfEra_le hlow
  have hlast : yearOfEra day ≤ 399 := yearOfEra_le (show day ≤ 146096 by omega)
  have hbounds : ∀ year : Int, 0 ≤ year → year < 400 →
      yearOfEra (daysBefore year) = year ∧ yearOfEra (daysBefore (year + 1) - 1) = year := by
    intro year h h'
    obtain ⟨n, rfl⟩ := Int.eq_ofNat_of_zero_le h
    exact yearOfEra_bounds ⟨n, by omega⟩
  generalize hyear : yearOfEra day = year at hfirst hlast ⊢
  refine ⟨hfirst, by omega, ?_, ?_⟩
  · by_contra hbefore
    rcases hfirst.eq_or_lt with rfl | hpos
    · exact hbefore hlow
    · have hle := yearOfEra_le (show day ≤ daysBefore (year - 1 + 1) - 1 by
        rw [Int.sub_add_cancel]
        omega)
      rw [(hbounds (year - 1) (by omega) (by omega)).2] at hle
      omega
  · by_contra hbehind
    rcases hlast.eq_or_lt with rfl | hless
    · exact hbehind hhigh
    · have hle := yearOfEra_le (show daysBefore (year + 1) ≤ day by omega)
      rw [(hbounds (year + 1) (by omega) (by omega)).1] at hle
      omega

-- The year of a day that is counted from the first of January 1970, the day with the number
-- 719468 behind the first of March of the year zero.
def marchYear (days : Int) : Int :=
  yearOfEra ((days + 719468) % eraDays) + 400 * ((days + 719468) / eraDays)

theorem emod_era_nonneg (days : Int) : 0 ≤ (days + 719468) % eraDays :=
  Int.emod_nonneg _ (by decide)

theorem emod_era_lt (days : Int) : (days + 719468) % eraDays < 146097 :=
  Int.emod_lt_of_pos _ (by decide)

theorem marchYear_spec (days : Int) :
    daysBefore (marchYear days) ≤ days + 719468 ∧
      days + 719468 < daysBefore (marchYear days + 1) := by
  have hera : ∀ year era : Int, daysBefore (year + 400 * era) = daysBefore year + 146097 * era := by
    intro year era
    unfold daysBefore
    omega
  obtain ⟨-, -, hlow, hhigh⟩ := yearOfEra_spec (emod_era_nonneg days) (emod_era_lt days)
  have hdays := Int.emod_add_mul_ediv (days + 719468) eraDays
  rw [marchYear, Int.add_right_comm, hera, hera]
  unfold eraDays at hlow hhigh hdays ⊢
  omega

theorem marchYear_eq {days year : Int} (hlow : daysBefore year ≤ days + 719468)
    (hhigh : days + 719468 < daysBefore (year + 1)) : marchYear days = year := by
  obtain ⟨hlow', hhigh'⟩ := marchYear_spec days
  have h := daysBefore_lt_iff.mp (hlow.trans_lt hhigh')
  have h' := daysBefore_lt_iff.mp (hlow'.trans_lt hhigh)
  omega

-- The days before a month, where months are counted from March.
def daysBeforeMonth (month : Int) : Int :=
  (153 * month + 2) / 5

-- The number of a day's month.
def monthOfDay (day : Int) : Int :=
  (5 * day + 2) / 153

theorem monthOfDay_spec {day : Int} (h : 0 ≤ day) :
    0 ≤ monthOfDay day ∧ daysBeforeMonth (monthOfDay day) ≤ day ∧
      day < daysBeforeMonth (monthOfDay day + 1) := by
  unfold monthOfDay daysBeforeMonth
  omega

-- The date of a day in the year that begins in March, whose last two months are in the next
-- year of the calendar.
def ofMarch (year day : Int) : Date :=
  let month := if monthOfDay day < 10 then monthOfDay day + 3 else monthOfDay day - 9
  ⟨year + (if month ≤ 2 then 1 else 0), month, day - daysBeforeMonth (monthOfDay day) + 1⟩

theorem ofMarch_eq {year day : Int} (hlow : 0 ≤ monthOfDay day) (hhigh : monthOfDay day < 12) :
    ofMarch year day = ⟨if monthOfDay day < 10 then year else year + 1,
      if monthOfDay day < 10 then monthOfDay day + 3 else monthOfDay day - 9,
      day - daysBeforeMonth (monthOfDay day) + 1⟩ := by
  rw [ofMarch, Date.mk.injEq]
  refine ⟨?_, rfl, rfl⟩
  split_ifs <;> omega

-- The last month is cut off by the end of the year.
theorem monthLength_eq (year : Int) {month : Int} (hlow : 0 ≤ month) (hhigh : month < 12) :
    Date.monthLength (if month < 10 then year else year + 1)
        (if month < 10 then month + 3 else month - 9) =
      min (daysBeforeMonth (month + 1)) (yearLength year) - daysBeforeMonth month := by
  unfold Date.monthLength yearLength daysBeforeMonth
  by_cases hleap : Date.IsLeap (year + 1) <;> interval_cases month <;> simp [hleap]

-- The four centuries before a day's own do not matter to its number in its year.
theorem dayOfYear_eq (days : Int) :
    (days + 719468) % eraDays - (365 * yearOfEra ((days + 719468) % eraDays) +
        yearOfEra ((days + 719468) % eraDays) / 4 - yearOfEra ((days + 719468) % eraDays) / 100) =
      days + 719468 - daysBefore (marchYear days) := by
  obtain ⟨hfirst, hlast, -, -⟩ := yearOfEra_spec (emod_era_nonneg days) (emod_era_lt days)
  have hdays := Int.emod_add_mul_ediv (days + 719468) eraDays
  unfold marchYear daysBefore
  unfold eraDays at hdays hfirst hlast ⊢
  omega

theorem dateOfDays_eq_ofMarch (days : Int) :
    dateOfDays days = ofMarch (marchYear days) (days + 719468 - daysBefore (marchYear days)) := by
  rw [← dayOfYear_eq, marchYear, Int.mul_comm]
  rfl

-- The next day is in the same month, or it is the first of the month after it.
theorem monthOfDay_succ (day : Int) :
    monthOfDay (day + 1) = monthOfDay day ∧ day + 1 < daysBeforeMonth (monthOfDay day + 1) ∨
      monthOfDay (day + 1) = monthOfDay day + 1 ∧
        day + 1 = daysBeforeMonth (monthOfDay day + 1) := by
  unfold monthOfDay daysBeforeMonth
  omega

theorem next_ofMarch {year day : Int} (hlow : 0 ≤ day) (hhigh : day + 1 < yearLength year) :
    (ofMarch year day).next = ofMarch year (day + 1) := by
  obtain ⟨hmonth, hfirst, hlast⟩ := monthOfDay_spec hlow
  have hyear := (yearLength_bounds year).2
  have hgrows : monthOfDay day ≤ monthOfDay (day + 1) := by
    unfold monthOfDay
    omega
  have hnumber : monthOfDay day < 12 ∧ monthOfDay (day + 1) < 12 := by
    unfold monthOfDay
    omega
  have hlength := monthLength_eq year hmonth hnumber.1
  rw [ofMarch_eq hmonth hnumber.1, ofMarch_eq (hmonth.trans hgrows) hnumber.2]
  unfold Date.next
  simp only [hlength]
  rcases monthOfDay_succ day with ⟨hsame, hwithin⟩ | ⟨hnext, hend⟩
  · rw [hsame, if_pos (by omega), Date.mk.injEq]
    exact ⟨rfl, rfl, by omega⟩
  · rw [hnext, if_neg (by omega), hend, sub_self]
    -- a new year begins after the tenth month
    rcases lt_trichotomy (monthOfDay day) 9 with hbefore | hdecember | hbehind
    · simp only [show monthOfDay day < 10 by omega, show monthOfDay day + 1 < 10 by omega,
        show monthOfDay day + 3 < 12 by omega, if_true, Date.mk.injEq]
      exact ⟨trivial, by omega, rfl⟩
    · rw [hdecember]
      rfl
    · obtain hjanuary : monthOfDay day = 10 := by omega
      rw [hjanuary]
      rfl

theorem next_ofMarch_last {year day : Int} (h : day + 1 = yearLength year) :
    (ofMarch year day).next = ofMarch (year + 1) 0 := by
  unfold yearLength at h
  split_ifs at h with hleap
  · obtain rfl : day = 365 := by omega
    have hdate : ofMarch year 365 = ⟨year + 1, 2, 29⟩ := rfl
    rw [hdate, Date.next, Date.monthLength, if_pos rfl, if_pos hleap,
      ofMarch_eq (by decide) (by decide)]
    rfl
  · obtain rfl : day = 364 := by omega
    have hdate : ofMarch year 364 = ⟨year + 1, 2, 28⟩ := rfl
    rw [hdate, Date.next, Date.monthLength, if_pos rfl, if_neg hleap,
      ofMarch_eq (by decide) (by decide)]
    rfl

-- The calendar goes on from day to day.
theorem dateOfDays_succ (days : Int) : dateOfDays (days + 1) = (dateOfDays days).next := by
  obtain ⟨hlow, hhigh⟩ := marchYear_spec days
  have hlength := daysBefore_succ (marchYear days)
  rw [dateOfDays_eq_ofMarch days]
  by_cases hlast : days + 1 + 719468 < daysBefore (marchYear days + 1)
  · have hyear : marchYear (days + 1) = marchYear days := marchYear_eq (by omega) hlast
    rw [dateOfDays_eq_ofMarch, hyear, next_ofMarch (by omega) (by omega)]
    congr 1
    omega
  · have hmore := daysBefore_lt_iff.mpr (show marchYear days + 1 < marchYear days + 1 + 1 by omega)
    have hyear : marchYear (days + 1) = marchYear days + 1 := marchYear_eq (by omega) (by omega)
    rw [dateOfDays_eq_ofMarch, hyear, next_ofMarch_last (by omega)]
    congr 1
    omega

theorem dateOfDays_zero : dateOfDays 0 = .epoch := by
  decide

-- Every date is reached from the first of January 1970 by going on from day to day.
theorem dateOfDays_eq_iterate (days : Nat) : dateOfDays days = Date.next^[days] .epoch := by
  induction days with
  | zero => exact dateOfDays_zero
  | succ days ih => rw [Function.iterate_succ_apply', ← ih, Nat.cast_succ, dateOfDays_succ]

end Calendar

end Conformance
