import Conformance.Proofs.Calendar.Days

namespace Conformance

namespace Calendar

-- A number that a word of 64 bits with a sign holds.
def word (n : Int) : Option Int :=
  if -2 ^ 63 ≤ n ∧ n < 2 ^ 63 then some n else none

-- The same for a word of 32 bits without a sign.
def halfWord (n : Int) : Option Int :=
  if 0 ≤ n ∧ n < 2 ^ 32 then some n else none

-- In words the quotients are rounded towards zero.
def yearOfEraInWords (day : Int) : Option Int := do
  let fours ← word (day.tdiv 1460)
  let less ← word (day - fours)
  let centuries ← word (day.tdiv 36524)
  let more ← word (less + centuries)
  let eras ← word (day.tdiv 146096)
  let days ← word (more - eras)
  word (days.tdiv 365)

def dayOfYearInWords (day year : Int) : Option Int := do
  let days ← word (365 * year)
  let fours ← word (year.tdiv 4)
  let more ← word (days + fours)
  let centuries ← word (year.tdiv 100)
  let before ← word (more - centuries)
  word (day - before)

def monthOfDayInWords (day : Int) : Option Int := do
  let scaled ← word (5 * day)
  let rounded ← word (scaled + 2)
  word (rounded.tdiv 153)

def daysBeforeMonthInWords (month : Int) : Option Int := do
  let scaled ← word (153 * month)
  let rounded ← word (scaled + 2)
  word (rounded.tdiv 5)

def ofMarchInWords (year day : Int) : Option Date := do
  let number ← monthOfDayInWords day
  let before ← daysBeforeMonthInWords number
  let counted ← word (day - before)
  let dayOfMonth ← word (counted + 1)
  let month ← if number < 10 then word (number + 3) else word (number - 9)
  let year ← word (year + if month ≤ 2 then 1 else 0)
  return ⟨year, ← halfWord month, ← halfWord dayOfMonth⟩

-- The date some days after the first of January 1970, unless a number on the way does not
-- fit into its word.
def dateInWords (days : Int) : Option Date := do
  let days ← word days
  let shifted ← word (days + 719468)
  let era ← word (shifted / eraDays)
  let day ← word (shifted % eraDays)
  let year ← yearOfEraInWords day
  let dayOfYear ← dayOfYearInWords day year
  let years ← word (era * 400)
  let year ← word (year + years)
  ofMarchInWords year dayOfYear

theorem word_eq {n : Int} (hlow : -2 ^ 63 ≤ n) (hhigh : n < 2 ^ 63) : word n = some n :=
  if_pos ⟨hlow, hhigh⟩

theorem halfWord_eq {n : Int} (hlow : 0 ≤ n) (hhigh : n < 2 ^ 32) : halfWord n = some n :=
  if_pos ⟨hlow, hhigh⟩

theorem yearOfEraInWords_eq {day : Int} (hlow : 0 ≤ day) (hhigh : day < 146097) :
    yearOfEraInWords day = some (yearOfEra day) := by
  unfold yearOfEraInWords yearOfEra
  simp (disch := omega) only [word_eq, Int.tdiv_eq_ediv_of_nonneg, Option.bind_eq_bind,
    Option.bind_some]

theorem dayOfYearInWords_eq {day year : Int} (hlow : 0 ≤ year) (hhigh : year < 400)
    (hday : 0 ≤ day) (hday' : day < 146097) : dayOfYearInWords day year =
      some (day - (365 * year + year / 4 - year / 100)) := by
  unfold dayOfYearInWords
  simp (disch := omega) only [word_eq, Int.tdiv_eq_ediv_of_nonneg, Option.bind_eq_bind,
    Option.bind_some]

theorem monthOfDayInWords_eq {day : Int} (hlow : 0 ≤ day) (hhigh : day < 366) :
    monthOfDayInWords day = some (monthOfDay day) := by
  unfold monthOfDayInWords monthOfDay
  simp (disch := omega) only [word_eq, Int.tdiv_eq_ediv_of_nonneg, Option.bind_eq_bind,
    Option.bind_some]

theorem daysBeforeMonthInWords_eq {month : Int} (hlow : 0 ≤ month) (hhigh : month < 12) :
    daysBeforeMonthInWords month = some (daysBeforeMonth month) := by
  unfold daysBeforeMonthInWords daysBeforeMonth
  simp (disch := omega) only [word_eq, Int.tdiv_eq_ediv_of_nonneg, Option.bind_eq_bind,
    Option.bind_some]

theorem ofMarchInWords_eq {year day : Int} (hday : 0 ≤ day) (hday' : day < 366)
    (hyear : -2 ^ 62 ≤ year) (hyear' : year < 2 ^ 62) :
    ofMarchInWords year day = some (ofMarch year day) := by
  obtain ⟨hmonth, hfirst, -⟩ := monthOfDay_spec hday
  have hmonth' : monthOfDay day < 12 := by
    unfold monthOfDay
    omega
  have hbefore : 0 ≤ daysBeforeMonth (monthOfDay day) := by
    unfold daysBeforeMonth
    omega
  rw [ofMarchInWords, monthOfDayInWords_eq hday hday', Option.bind_eq_bind, Option.bind_some,
    daysBeforeMonthInWords_eq hmonth hmonth', ofMarch]
  generalize monthOfDay day = month at *
  generalize daysBeforeMonth month = before at *
  by_cases hlate : month < 10
  · simp (disch := omega) only [hlate, if_true, if_neg, word_eq, halfWord_eq,
      Option.bind_some]
    rfl
  · simp (disch := omega) only [hlate, if_false, if_pos, word_eq, halfWord_eq,
      Option.bind_some]
    rfl

-- No number on the way is too large for its word, and no quotient is one of a negative number.
theorem dateInWords_eq {days : Int} (hlow : 0 ≤ days) (hhigh : days < 2 ^ 48) :
    dateInWords days = some (dateOfDays days) := by
  have hera := emod_era_nonneg days
  have hera' := emod_era_lt days
  obtain ⟨hyear, hyear', -, -⟩ := yearOfEra_spec hera hera'
  obtain ⟨hfirst, hlast⟩ := marchYear_spec days
  have hlength := (yearLength_bounds (marchYear days)).2
  have heras : 0 ≤ (days + 719468) / eraDays ∧ (days + 719468) / eraDays < 2 ^ 48 := by
    unfold eraDays
    omega
  rw [daysBefore_succ] at hlast
  have hmarch : yearOfEra ((days + 719468) % eraDays) + (days + 719468) / eraDays * 400 =
      marchYear days := by
    rw [marchYear, Int.mul_comm]
  simp (disch := omega) only [dateInWords, word_eq, Option.bind_eq_bind, Option.bind_some,
    yearOfEraInWords_eq, dayOfYearInWords_eq, dayOfYear_eq, hmarch]
  rw [ofMarchInWords_eq (by omega) (by omega) (by omega) (by omega), dateOfDays_eq_ofMarch]

end Calendar

end Conformance
