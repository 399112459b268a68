/-
  Days and dates.

  `dateOf` goes from the number of a day to its date by way of a guess, `dayNumber` goes back by counting.  Here it is
  shown that one undoes the other, for days of any number:

  1. **`yearOf_spec`** — the guess is off by one at most, so after it is mended the day lies in the year;
  2. **`monthOf_spec`** — the day of the year lies in its month;
  3. **`dayNumber_dateOf`** — hence the date of a day counts to the day again, and (`dateOf_month`, `dateOf_day`,
     `dateOf_year`) its parts are such as a reader of dates asks for.
-/
import Leasehold.Time.Calendar
namespace Leasehold.Calendar

/-! ## Years -/

theorem isLeap_iff (year : Nat) : isLeap year = true ↔ year % 4 = 0 ∧ (year % 100 ≠ 0 ∨ year % 400 = 0) := by
  simp [isLeap]

/-- A year is followed by the next one after its length. -/
theorem daysBeforeYear_succ {year : Nat} (h : 1 ≤ year) :
    daysBeforeYear (year + 1) = daysBeforeYear year + (if isLeap year then 366 else 365) := by
  obtain ⟨y, rfl⟩ : ∃ y, year = y + 1 := ⟨year - 1, by omega⟩
  -- each of the three counts of multiples goes up where the year is one
  have h4 : (y + 1) / 4 = y / 4 + (if (y + 1) % 4 = 0 then 1 else 0) := by split <;> omega
  have h100 : (y + 1) / 100 = y / 100 + (if (y + 1) % 100 = 0 then 1 else 0) := by split <;> omega
  have h400 : (y + 1) / 400 = y / 400 + (if (y + 1) % 400 = 0 then 1 else 0) := by split <;> omega
  have hcentury : y / 100 ≤ y / 4 := by omega
  simp only [daysBeforeYear, Nat.add_sub_cancel, isLeap_iff, h4, h100, h400]
  by_cases m400 : (y + 1) % 400 = 0
  · have m100 : (y + 1) % 100 = 0 := by omega
    have m4 : (y + 1) % 4 = 0 := by omega
    simp only [m400, m100, m4, if_true, ne_eq, not_true_eq_false, or_true, and_self]
    omega
  by_cases m100 : (y + 1) % 100 = 0
  · have m4 : (y + 1) % 4 = 0 := by omega
    simp only [m400, m100, m4, if_true, if_false, ne_eq, not_true_eq_false, or_false, and_false]
    omega
  by_cases m4 : (y + 1) % 4 = 0
  · simp only [m400, m100, m4, if_true, if_false, ne_eq, not_false_eq_true, true_or, and_self]
    omega
  · simp only [m400, m100, m4, if_false, false_and]
    omega

/-- **The year of a day**: the day comes after the years before, and before the next year. -/
theorem yearOf_spec (n : Nat) :
    1 ≤ yearOf n ∧ daysBeforeYear (yearOf n) ≤ n ∧ n < daysBeforeYear (yearOf n + 1) := by
  simp only [yearOf]
  split
  · rename_i h
    simp only [daysBeforeYear] at h ⊢
    omega
  split
  · rename_i h h'
    simp only [daysBeforeYear] at h h' ⊢
    omega
  · rename_i h h'
    simp only [daysBeforeYear] at h h' ⊢
    omega

/-- The day of the year is within the year. -/
theorem dayOfYear_lt (n : Nat) : n - daysBeforeYear (yearOf n) < if isLeap (yearOf n) then 366 else 365 := by
  obtain ⟨hyear, hle, hlt⟩ := yearOf_spec n
  rw [daysBeforeYear_succ hyear] at hlt
  omega

/-! ## Months -/

/-- **The month of a day of the year**: the day comes after the months before, and within the length of the month. -/
theorem monthOf_spec (leap : Bool) {k : Nat} (h : k < if leap then 366 else 365) :
    1 ≤ monthOf leap k ∧ monthOf leap k ≤ 12 ∧ daysBeforeMonth leap (monthOf leap k) ≤ k ∧
      k < daysBeforeMonth leap (monthOf leap k) + daysInMonth leap (monthOf leap k) := by
  have hall : ∀ leap : Bool, ∀ k < 366, (k < if leap then 366 else 365) →
      1 ≤ monthOf leap k ∧ monthOf leap k ≤ 12 ∧ daysBeforeMonth leap (monthOf leap k) ≤ k ∧
        k < daysBeforeMonth leap (monthOf leap k) + daysInMonth leap (monthOf leap k) := by
    decide +kernel
  refine hall leap k ?_ h
  split at h <;> omega

/-! ## Dates -/

theorem dateOf_month (n : Nat) : 1 ≤ (dateOf n).month ∧ (dateOf n).month ≤ 12 := by
  have h := monthOf_spec (isLeap (yearOf n)) (dayOfYear_lt n)
  exact ⟨h.1, h.2.1⟩

theorem dateOf_day (n : Nat) :
    1 ≤ (dateOf n).day ∧ (dateOf n).day ≤ daysInMonth (isLeap (dateOf n).year) (dateOf n).month := by
  obtain ⟨-, -, hle, hlt⟩ := monthOf_spec (isLeap (yearOf n)) (dayOfYear_lt n)
  simp only [dateOf]
  omega

/-- The years of the calendar. -/
theorem dateOf_year {n : Nat} (h : n < dayCount) : 1 ≤ (dateOf n).year ∧ (dateOf n).year ≤ 9999 := by
  obtain ⟨hyear, hle, -⟩ := yearOf_spec n
  refine ⟨hyear, ?_⟩
  show yearOf n ≤ 9999
  simp only [daysBeforeYear] at hle
  simp only [dayCount] at h
  omega

/-- **The date of a day counts to the day.** -/
theorem dayNumber_dateOf (n : Nat) : dayNumber (dateOf n) = n := by
  obtain ⟨-, hle, -⟩ := yearOf_spec n
  obtain ⟨-, -, hle', -⟩ := monthOf_spec (isLeap (yearOf n)) (dayOfYear_lt n)
  simp only [dayNumber, dateOf]
  omega

end Leasehold.Calendar
