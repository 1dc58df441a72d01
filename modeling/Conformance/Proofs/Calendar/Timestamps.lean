import Conformance.Proofs.Calendar.Words
import Conformance.Proofs.Text.Decimals

namespace Conformance

namespace Calendar

open Text (Bytes bytesOf zeroPadded)

theorem before_dateOfDays {m n : ℕ} (h : m < n) : (dateOfDays m).Before (dateOfDays n) := by
  have hnext : ∀ days : ℕ, (dateOfDays days).Before (dateOfDays (days + 1 : ℕ)) := by
    intro days
    rw [Nat.cast_succ, dateOfDays_succ]
    exact Date.before_next _
  induction n, h using Nat.le_induction with
  | base => exact hnext m
  | succ n _ ih => exact ih.trans (hnext n)

theorem isValid_dateOfDays (days : ℕ) : (dateOfDays days).IsValid := by
  induction days with
  | zero =>
      rw [Nat.cast_zero, dateOfDays_zero]
      exact ⟨by decide, by decide⟩
  | succ days ih =>
      rw [Nat.cast_succ, dateOfDays_succ]
      exact ih.next

theorem year_dateOfDays (days : ℕ) : 1970 ≤ (dateOfDays days).year := by
  rcases days.eq_zero_or_pos with rfl | hpos
  · rw [Nat.cast_zero, dateOfDays_zero]
    exact le_rfl
  · have hbefore := before_dateOfDays hpos
    rw [Nat.cast_zero, dateOfDays_zero] at hbefore
    rcases hbefore with h | ⟨h, -⟩
    · exact h.le
    · exact h.le

-- The numbers that a timestamp tells, from the year to the thousandths of a second.
def fields (seconds millis : ℕ) : List ℕ :=
  let date := dateOfDays (seconds / 86400 : ℕ)
  let rest := seconds % 86400
  [date.year.toNat, date.month.toNat, date.day.toNat,
    rest / 3600, rest % 3600 / 60, rest % 60, millis]

-- Days count before seconds, and seconds before their parts.
theorem day_or_second_lt {seconds millis seconds' millis' : ℕ} (hmillis' : millis' < 1000)
    (h : seconds * 1000 + millis < seconds' * 1000 + millis') :
    seconds / 86400 < seconds' / 86400 ∨ seconds / 86400 = seconds' / 86400 ∧
      (seconds % 86400 < seconds' % 86400 ∨
        seconds % 86400 = seconds' % 86400 ∧ millis < millis') := by
  have hseconds : seconds < seconds' ∨ seconds = seconds' ∧ millis < millis' := by omega
  clear h
  omega

theorem fields_lt {seconds millis seconds' millis' : ℕ} (hmillis' : millis' < 1000)
    (h : seconds * 1000 + millis < seconds' * 1000 + millis') :
    fields seconds millis < fields seconds' millis' := by
  unfold fields
  simp only [List.cons_lt_cons_iff]
  rcases day_or_second_lt hmillis' h with hday | ⟨hsame, hsecond⟩
  · have hyear := (show (0 : Int) ≤ 1970 by decide).trans (year_dateOfDays (seconds / 86400))
    rcases (before_dateOfDays hday).toNat hyear (isValid_dateOfDays _) with
      hless | ⟨hyear, hless | ⟨hmonth, hless⟩⟩
    · exact .inl hless
    · exact .inr ⟨hyear, .inl hless⟩
    · exact .inr ⟨hyear, .inr ⟨hmonth, .inl hless⟩⟩
  · rw [hsame]
    simp only [lt_irrefl, true_and, false_or]
    clear h hsame
    rcases hsecond with hlt | ⟨hsame, hlt⟩
    · omega
    · rw [hsame]
      exact .inr ⟨rfl, .inr ⟨rfl, .inr ⟨rfl, .inl hlt⟩⟩⟩

-- How many digits a number has, and what stands behind it.
def form : List (ℕ × Char) :=
  [(4, '-'), (2, '-'), (2, 'T'), (2, ':'), (2, ':'), (2, '.'), (3, 'Z')]

def written : List (ℕ × Char) → List ℕ → Bytes
  | (width, ending) :: form, n :: ns =>
      Text.decimals width n ++ (String.utf8EncodeChar ending ++ written form ns)
  | _, _ => []

-- Numbers of a fixed width are in the order of their texts.
theorem written_lt {form : List (ℕ × Char)} {ns ns' : List ℕ} (hlength : ns.length = ns'.length)
    (hfits : List.Forall₂ (fun f n => n < 10 ^ f.1) form ns') (h : ns < ns') :
    written form ns < written form ns' := by
  induction hfits generalizing ns with
  | nil =>
      rw [List.length_eq_zero_iff.mp hlength] at h
      exact absurd h (List.lt_irrefl [])
  | @cons f n form ns' hn hfits ih =>
      cases ns with
      | nil => cases hlength
      | cons m ns =>
          rw [written, written]
          rcases List.cons_lt_cons_iff.mp h with hlt | ⟨rfl, hrest⟩
          · refine Text.append_lt_append (Text.decimals_lt hlt hn) ?_ _ _
            rw [Text.length_decimals, Text.length_decimals]
          · exact List.append_left_lt (List.append_left_lt (ih (Nat.succ.inj hlength) hrest))

-- The form has room for all numbers but the years behind 9999.
theorem fields_fit {seconds millis : ℕ} (hmillis : millis < 1000)
    (hyear : (dateOfDays (seconds / 86400 : ℕ)).year ≤ 9999) :
    List.Forall₂ (fun f n => n < 10 ^ f.1) form (fields seconds millis) := by
  obtain ⟨hmonth, hday⟩ := isValid_dateOfDays (seconds / 86400)
  have hlength := Date.monthLength_bounds (dateOfDays (seconds / 86400 : ℕ)).year
    (dateOfDays (seconds / 86400 : ℕ)).month
  unfold form fields
  simp only [List.forall₂_cons, List.forall₂_nil_left_iff, and_true]
  refine ⟨?_, ?_, ?_, ?_, ?_, ?_, ?_⟩ <;> omega

theorem timestamp_eq (seconds millis : ℕ) {year month day : ℕ}
    (hdate : dateOfDays (seconds / 86400 : ℕ) = ⟨year, month, day⟩) :
    timestamp seconds millis = zeroPadded 4 year ++ "-" ++ zeroPadded 2 month ++ "-" ++
      zeroPadded 2 day ++ "T" ++ zeroPadded 2 (seconds % 86400 / 3600) ++ ":" ++
      zeroPadded 2 (seconds % 86400 % 3600 / 60) ++ ":" ++ zeroPadded 2 (seconds % 86400 % 60) ++
      "." ++ zeroPadded 3 millis ++ "Z" := by
  have hpadded : ∀ width n : ℕ, padded width n = zeroPadded width n := by
    intro width n
    rw [padded, if_pos (Int.natCast_nonneg n), Int.toNat_natCast]
  unfold timestamp
  simp only [hdate, hpadded]

theorem exists_dateOfDays_eq (days : ℕ) :
    ∃ year month day : ℕ, dateOfDays days = ⟨year, month, day⟩ := by
  have hyear := year_dateOfDays days
  obtain ⟨hmonth, hday⟩ := isValid_dateOfDays days
  refine ⟨(dateOfDays days).year.toNat, (dateOfDays days).month.toNat,
    (dateOfDays days).day.toNat, ?_⟩
  rw [Int.toNat_of_nonneg (by omega), Int.toNat_of_nonneg (by omega),
    Int.toNat_of_nonneg (by omega)]

theorem bytesOf_timestamp {seconds millis : ℕ} (hmillis : millis < 1000)
    (hyear : (dateOfDays (seconds / 86400 : ℕ)).year ≤ 9999) :
    bytesOf (timestamp seconds millis) = written form (fields seconds millis) := by
  have hfit := fields_fit hmillis hyear
  obtain ⟨year, month, day, hdate⟩ := exists_dateOfDays_eq (seconds / 86400)
  rw [timestamp_eq seconds millis hdate]
  unfold form fields at hfit ⊢
  simp only [hdate, Int.toNat_natCast, List.forall₂_cons, List.forall₂_nil_left_iff, and_true]
    at hfit ⊢
  obtain ⟨hy, hm, hd, hh, hmin, hs, hms⟩ := hfit
  simp only [Text.bytesOf_append, Text.bytesOf_zeroPadded hy (by decide),
    Text.bytesOf_zeroPadded hm (by decide), Text.bytesOf_zeroPadded hd (by decide),
    Text.bytesOf_zeroPadded hh (by decide), Text.bytesOf_zeroPadded hmin (by decide),
    Text.bytesOf_zeroPadded hs (by decide), Text.bytesOf_zeroPadded hms (by decide), written,
    List.append_assoc]
  rfl

theorem length_timestamp {seconds millis : ℕ} (hmillis : millis < 1000)
    (hyear : (dateOfDays (seconds / 86400 : ℕ)).year ≤ 9999) :
    (bytesOf (timestamp seconds millis)).length = 24 := by
  rw [bytesOf_timestamp hmillis hyear]
  unfold form fields
  simp only [written, List.length_append, Text.length_decimals]
  rfl

theorem bytesOf_timestamp_lt {seconds millis seconds' millis' : ℕ} (hmillis : millis < 1000)
    (hmillis' : millis' < 1000) (hyear : (dateOfDays (seconds / 86400 : ℕ)).year ≤ 9999)
    (hyear' : (dateOfDays (seconds' / 86400 : ℕ)).year ≤ 9999)
    (h : seconds * 1000 + millis < seconds' * 1000 + millis') :
    bytesOf (timestamp seconds millis) < bytesOf (timestamp seconds' millis') := by
  rw [bytesOf_timestamp hmillis hyear, bytesOf_timestamp hmillis' hyear']
  have hlength : ∀ s m, (fields s m).length = 7 := fun _ _ => rfl
  exact written_lt ((hlength _ _).trans (hlength _ _).symm) (fields_fit hmillis' hyear')
    (fields_lt hmillis' h)

-- No number on the way to a date is too large for its word, which leaves quotients and
-- remainders of numbers without a sign. A timestamp tells the day that is reached by going on
-- from the first of January 1970 and the time on that day, and up to the year 9999 timestamps
-- are in the order of time.
theorem timestamp_tells_time :
    (∀ seconds : ℕ, seconds < 2 ^ 64 →
      dateInWords (seconds / 86400 : ℕ) = some (dateOfDays (seconds / 86400 : ℕ))) ∧
    (∀ seconds millis : ℕ, millis < 1000 → ∃ year month day hour minute second : ℕ,
      Date.next^[seconds / 86400] .epoch = ⟨year, month, day⟩ ∧
      seconds % 86400 = hour * 3600 + minute * 60 + second ∧ minute < 60 ∧ second < 60 ∧
      timestamp seconds millis = zeroPadded 4 year ++ "-" ++ zeroPadded 2 month ++ "-" ++
        zeroPadded 2 day ++ "T" ++ zeroPadded 2 hour ++ ":" ++ zeroPadded 2 minute ++ ":" ++
        zeroPadded 2 second ++ "." ++ zeroPadded 3 millis ++ "Z" ∧
      (year ≤ 9999 → (bytesOf (timestamp seconds millis)).length = 24)) ∧
    ∀ seconds millis seconds' millis' : ℕ, millis < 1000 → millis' < 1000 →
      (Date.next^[seconds / 86400] .epoch).year ≤ 9999 →
      (Date.next^[seconds' / 86400] .epoch).year ≤ 9999 →
      (bytesOf (timestamp seconds millis) < bytesOf (timestamp seconds' millis') ↔
        seconds * 1000 + millis < seconds' * 1000 + millis') ∧
      (timestamp seconds millis = timestamp seconds' millis' ↔
        seconds = seconds' ∧ millis = millis') := by
  refine ⟨fun seconds h => dateInWords_eq (Int.natCast_nonneg _) (by omega), ?_, ?_⟩
  · intro seconds millis hmillis
    obtain ⟨year, month, day, hdate⟩ := exists_dateOfDays_eq (seconds / 86400)
    refine ⟨year, month, day, seconds % 86400 / 3600, seconds % 86400 % 3600 / 60,
      seconds % 86400 % 60, ?_, by omega, by omega, by omega,
      timestamp_eq seconds millis hdate, fun hyear => ?_⟩
    · rw [← dateOfDays_eq_iterate, hdate]
    · refine length_timestamp hmillis ?_
      rw [hdate]
      exact Int.ofNat_le.mpr hyear
  · intro seconds millis seconds' millis' hmillis hmillis' hyear hyear'
    rw [← dateOfDays_eq_iterate] at hyear hyear'
    have hlt := bytesOf_timestamp_lt hmillis hmillis' hyear hyear'
    have hgt := bytesOf_timestamp_lt hmillis' hmillis hyear' hyear
    refine ⟨⟨fun h => ?_, hlt⟩, fun h => ?_, ?_⟩
    · rcases lt_trichotomy (seconds * 1000 + millis) (seconds' * 1000 + millis') with
        hbefore | hsame | hbehind
      · exact hbefore
      · obtain ⟨rfl, rfl⟩ : seconds = seconds' ∧ millis = millis' := by omega
        exact absurd h (List.lt_irrefl _)
      · exact absurd h (List.lt_asymm (hgt hbehind))
    · rcases lt_trichotomy (seconds * 1000 + millis) (seconds' * 1000 + millis') with
        hbefore | hsame | hbehind
      · rw [h] at hlt
        exact absurd (hlt hbefore) (List.lt_irrefl _)
      · omega
      · rw [h] at hgt
        exact absurd (hgt hbehind) (List.lt_irrefl _)
    · rintro ⟨rfl, rfl⟩
      rfl

-- The last moment of a leap day in a year that is divisible by 400, and the moment after it.
theorem timestamp_tells_time_leapDay :
    dateInWords (18446744073709551615 / 86400 : ℕ) =
        some (dateOfDays (18446744073709551615 / 86400 : ℕ)) ∧
      bytesOf (timestamp 951868799 999) < bytesOf (timestamp 951868800 0) ∧
      timestamp 951868799 999 ≠ timestamp 951868800 0 := by
  obtain ⟨hwords, -, horder⟩ := timestamp_tells_time
  have hyear : (Date.next^[951868799 / 86400] .epoch).year ≤ 9999 := by
    rw [← dateOfDays_eq_iterate]
    decide
  have hyear' : (Date.next^[951868800 / 86400] .epoch).year ≤ 9999 := by
    rw [← dateOfDays_eq_iterate]
    decide
  obtain ⟨hlt, heq⟩ := horder 951868799 999 951868800 0 (by decide) (by decide) hyear hyear'
  exact ⟨hwords _ (by decide), hlt.mpr (by decide), fun h => absurd (heq.mp h) (by decide)⟩

end Calendar

end Conformance
