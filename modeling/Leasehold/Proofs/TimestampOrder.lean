/-
  Timestamps are ordered as their moments are.

  The scripts of the store on Redis compare the ends of records as TEXTS, from the left to the first character that
  differs.  The store in memory compares moments.  The two agree because every field of a timestamp has its width, so
  two timestamps differ first inside the same field — as long as the year, which is not padded, has four digits.

  1. **`append_lt_iff`** — two texts whose first parts are equally long are compared by these parts, and by the rest only
     where the parts are the same.
  2. **`row_lt_iff`** — a timestamp is a ROW: numbers in fields of given widths, each with a mark behind it.  Two rows of
     one shape are ordered as their numbers are, by the first number that differs.  The induction is on the shape, and
     inside a field on its width (`lastDigits_lt_iff`): of two numbers the leading digits decide, then the last one.
  3. **`dateOf_lt`** — a later day has the later date: later by the year, or in one year by the month, or in one month by
     the day.  The time of day is a matter of `omega` (`parts_lt_parts`).
  4. **`timestamp_lt_iff`**, **`timestamp_inj`** — so between moments in whole milliseconds, in years of four digits, the
     order of the texts is the order of time, and no two of them share a text.
-/
import Leasehold.Proofs.Timestamp
namespace Leasehold

/-! ## Texts of one length -/

namespace Text

/-- **The first parts decide**, if they are equally long; the rest is looked at only where they are the same. -/
theorem append_lt_iff {s s' t t' : List Char} (h : s.length = s'.length) :
    s ++ t < s' ++ t' ↔ s < s' ∨ s = s' ∧ t < t' := by
  induction s generalizing s' with
  | nil =>
    obtain rfl : s' = [] := List.length_eq_zero_iff.mp h.symm
    simp
  | cons a s ih =>
    cases s' with
    | nil => cases h
    | cons b s' =>
      have htail := ih (Nat.succ.inj h)
      simp only [List.cons_append, List.cons_lt_cons_iff, htail, List.cons.injEq]
      -- the heads differ, or both sides speak of the tails
      by_cases hab : a = b
      · simp [hab]
      · simp [hab]

@[simp] theorem length_lastDigits (width n : Nat) : (lastDigits width n).length = width := by
  induction width generalizing n with
  | zero => rfl
  | succ width ih => simp [lastDigits, ih]

theorem digitChar_lt_iff {m n : Nat} (hm : m < 10) (hn : n < 10) :
    Nat.digitChar m < Nat.digitChar n ↔ m < n := by
  have hall : ∀ m n : Fin 10, Nat.digitChar m.val < Nat.digitChar n.val ↔ m.val < n.val := by decide
  exact hall ⟨m, hm⟩ ⟨n, hn⟩

/-- A number that fits its field is known by the digits in it. -/
theorem lastDigits_inj {width m n : Nat} (hm : m < 10 ^ width) (hn : n < 10 ^ width) :
    lastDigits width m = lastDigits width n ↔ m = n := by
  refine ⟨fun h => ?_, fun h => h ▸ rfl⟩
  induction width generalizing m n with
  | zero =>
    simp only [Nat.pow_zero] at hm hn
    omega
  | succ width ih =>
    rw [Nat.pow_succ] at hm hn
    obtain ⟨hfront, hlast⟩ := List.append_inj' h rfl
    have hdiv : m / 10 = n / 10 := ih (by omega) (by omega) hfront
    have hdigit : m % 10 = n % 10 := by
      have hle := digitChar_lt_iff (Nat.mod_lt m (by decide : 0 < 10)) (Nat.mod_lt n (by decide : 0 < 10))
      have hge := digitChar_lt_iff (Nat.mod_lt n (by decide : 0 < 10)) (Nat.mod_lt m (by decide : 0 < 10))
      have hchar : Nat.digitChar (m % 10) = Nat.digitChar (n % 10) := List.singleton_inj.mp hlast
      rw [hchar] at hle hge
      have hself : ¬Nat.digitChar (n % 10) < Nat.digitChar (n % 10) := Nat.lt_irrefl _
      have h1 : ¬m % 10 < n % 10 := fun hlt => hself (hle.mpr hlt)
      have h2 : ¬n % 10 < m % 10 := fun hlt => hself (hge.mpr hlt)
      omega
    omega

/-- **Numbers in a field of one width are ordered as their digits are.** -/
theorem lastDigits_lt_iff {width m n : Nat} (hm : m < 10 ^ width) (hn : n < 10 ^ width) :
    lastDigits width m < lastDigits width n ↔ m < n := by
  induction width generalizing m n with
  | zero =>
    simp only [Nat.pow_zero] at hm hn
    simp only [lastDigits, List.lt_irrefl, false_iff]
    omega
  | succ width ih =>
    rw [Nat.pow_succ] at hm hn
    have hm' : m / 10 < 10 ^ width := by omega
    have hn' : n / 10 < 10 ^ width := by omega
    have hdigit := digitChar_lt_iff (Nat.mod_lt m (by decide : 0 < 10)) (Nat.mod_lt n (by decide : 0 < 10))
    rw [lastDigits, lastDigits, append_lt_iff (by simp), ih hm' hn', lastDigits_inj hm' hn', List.cons_lt_cons_iff, hdigit]
    simp only [List.lt_irrefl, and_false, or_false]
    omega

/-! ## Rows of fields -/

/-- **A row**: numbers in fields of given widths, each with a mark behind it. -/
def row : List (Nat × Char) → List Nat → List Char
  | (width, mark) :: shape, n :: ns => lastDigits width n ++ mark :: row shape ns
  | _, _ => []

/-- The numbers fit the fields. -/
def Fits : List (Nat × Char) → List Nat → Prop
  | (width, _) :: shape, n :: ns => n < 10 ^ width ∧ Fits shape ns
  | [], [] => True
  | _, _ => False

/-- **Rows of one shape are ordered as their numbers are**, by the first number that differs. -/
theorem row_lt_iff {shape : List (Nat × Char)} {ms ns : List Nat} (hm : Fits shape ms) (hn : Fits shape ns) :
    row shape ms < row shape ns ↔ ms < ns := by
  induction shape generalizing ms ns with
  | nil =>
    cases ms with
    | cons => exact hm.elim
    | nil =>
      cases ns with
      | cons => exact hn.elim
      | nil => simp [row]
  | cons field shape ih =>
    cases ms with
    | nil => exact hm.elim
    | cons m ms =>
      cases ns with
      | nil => exact hn.elim
      | cons n ns =>
        rw [row, row, append_lt_iff (by simp), lastDigits_lt_iff hm.1 hn.1, lastDigits_inj hm.1 hn.1,
          List.cons_lt_cons_iff, ih hm.2 hn.2, List.cons_lt_cons_iff]
        simp

/-- No two rows of one shape are the same, unless their numbers are. -/
theorem row_inj {shape : List (Nat × Char)} {ms ns : List Nat} (hm : Fits shape ms) (hn : Fits shape ns)
    (h : row shape ms = row shape ns) : ms = ns := by
  have hlt : ¬ms < ns := fun hlt => by
    have hrow := (row_lt_iff hm hn).mpr hlt
    rw [h] at hrow
    exact List.lt_irrefl _ hrow
  have hgt : ¬ns < ms := fun hgt => by
    have hrow := (row_lt_iff hn hm).mpr hgt
    rw [h] at hrow
    exact List.lt_irrefl _ hrow
  exact List.le_antisymm (List.not_lt.mp hgt) (List.not_lt.mp hlt)

end Text

/-! ## Days and dates -/

namespace Calendar

/-- Later years have more days before them. -/
theorem daysBeforeYear_mono {y y' : Nat} (hy : 1 ≤ y) (h : y ≤ y') : daysBeforeYear y ≤ daysBeforeYear y' := by
  obtain ⟨k, rfl⟩ := Nat.exists_eq_add_of_le h
  clear h
  induction k with
  | zero => exact Nat.le_refl _
  | succ k ih =>
    have hsucc := daysBeforeYear_succ (Nat.le_trans hy (Nat.le_add_right y k))
    rw [← Nat.add_assoc, hsucc]
    omega

/-- A later day is not in an earlier year. -/
theorem yearOf_mono {n n' : Nat} (h : n ≤ n') : yearOf n ≤ yearOf n' := by
  obtain ⟨-, hle, -⟩ := yearOf_spec n
  obtain ⟨-, -, hlt⟩ := yearOf_spec n'
  rcases Nat.lt_or_ge (yearOf n') (yearOf n) with hback | hok
  · have hdays : daysBeforeYear (yearOf n' + 1) ≤ daysBeforeYear (yearOf n) :=
      daysBeforeYear_mono (Nat.succ_pos _) hback
    omega
  · exact hok

/-- Later months have more days before them, by the lengths of the months between. -/
theorem daysBeforeMonth_mono (leap : Bool) {m m' : Nat} (hm : 1 ≤ m) (hm' : m' ≤ 12) (h : m < m') :
    daysBeforeMonth leap m + daysInMonth leap m ≤ daysBeforeMonth leap m' := by
  have hall : ∀ leap : Bool, ∀ m' ≤ 12, ∀ m < m', 1 ≤ m →
      daysBeforeMonth leap m + daysInMonth leap m ≤ daysBeforeMonth leap m' := by decide
  exact hall leap m' hm' m h hm

/-- A later day of the year is not in an earlier month. -/
theorem monthOf_mono (leap : Bool) {k k' : Nat} (hk : k < if leap then 366 else 365) (hk' : k' < if leap then 366 else 365)
    (h : k ≤ k') : monthOf leap k ≤ monthOf leap k' := by
  obtain ⟨-, hm, hle, -⟩ := monthOf_spec leap hk
  obtain ⟨hm', -, -, hlt⟩ := monthOf_spec leap hk'
  rcases Nat.lt_or_ge (monthOf leap k') (monthOf leap k) with hback | hok
  · have hdays := daysBeforeMonth_mono leap hm' hm hback
    omega
  · exact hok

/-- **A later day has the later date**, compared by the year, then the month, then the day. -/
theorem dateOf_lt {n n' : Nat} (h : n < n') :
    (dateOf n).year < (dateOf n').year ∨ (dateOf n).year = (dateOf n').year ∧
      ((dateOf n).month < (dateOf n').month ∨ (dateOf n).month = (dateOf n').month ∧ (dateOf n).day < (dateOf n').day) := by
  rcases Nat.lt_or_eq_of_le (yearOf_mono (Nat.le_of_lt h)) with hyear | hyear
  · exact Or.inl hyear
  refine Or.inr ⟨hyear, ?_⟩
  obtain ⟨-, hle, -⟩ := yearOf_spec n
  have hlen := dayOfYear_lt n
  have hlen' := dayOfYear_lt n'
  -- both days are in this year: what is left are two days of it, one after the other
  simp only [dateOf]
  rw [← hyear] at hlen' ⊢
  obtain ⟨-, -, hday, -⟩ := monthOf_spec (isLeap (yearOf n)) hlen
  rcases Nat.lt_or_eq_of_le (monthOf_mono _ hlen hlen' (by omega)) with hmonth | hmonth
  · exact Or.inl hmonth
  · rw [← hmonth]
    exact Or.inr ⟨rfl, by omega⟩

end Calendar

/-! ## Moments -/

namespace Instant

/-- The fields of a timestamp: their widths, and the marks behind them. -/
def stampShape : List (Nat × Char) :=
  [(4, '-'), (2, '-'), (2, 'T'), (2, ':'), (2, ':'), (2, '.'), (3, 'Z')]

/-- The numbers in the fields of a timestamp. -/
def stampParts (i : Instant) : List Nat :=
  [i.date.year, i.date.month, i.date.day, i.hour, i.minute, i.second, i.microsecond / 1000]

theorem stampParts_fit (i : Instant) : Text.Fits stampShape i.stampParts := by
  have hnew : i.date.year < 10000 := Nat.lt_succ_of_le (Calendar.dateOf_year i.day_lt).2
  obtain ⟨hmonth, hday, hhour, hminute, hsecond, hmillis⟩ := i.parts_lt
  exact ⟨hnew, hmonth, hday, hhour, hminute, hsecond, hmillis, trivial⟩

/-- A timestamp is the row of its numbers, if its year has four digits. -/
theorem timestamp_row {i : Instant} (hold : 1000 ≤ i.date.year) :
    i.timestamp.toList = Text.row stampShape i.stampParts := by
  have hnew : i.date.year < 10000 := Nat.lt_succ_of_le (Calendar.dateOf_year i.day_lt).2
  rw [toList_timestamp hold hnew]
  simp [Text.row, stampShape, stampParts]

/-- **A later moment has the later parts**, the first that differs being greater. -/
theorem stampParts_lt {i j : Instant} (hi : i.IsWhole) (hj : j.IsWhole) (h : i.micros < j.micros) :
    i.stampParts < j.stampParts := by
  have hiw : i.micros / 1000 * 1000 = i.micros := congrArg micros hi
  have hjw : j.micros / 1000 * 1000 = j.micros := congrArg micros hj
  simp only [stampParts, List.cons_lt_cons_iff, List.lt_irrefl, and_false, or_false]
  rcases Nat.lt_or_ge (i.micros / dayMicros) (j.micros / dayMicros) with hday | hday
  · have hdate := Calendar.dateOf_lt hday
    simp only [date]
    omega
  · -- on one day the time of day decides
    have hsame : i.micros / dayMicros = j.micros / dayMicros :=
      Nat.le_antisymm (Nat.div_le_div_right (Nat.le_of_lt h)) hday
    have hdate : i.date = j.date := by rw [date, date, hsame]
    rw [hdate]
    simp only [Nat.lt_irrefl, false_or, true_and, hour, minute, second, microsecond, timeOfDay, dayMicros] at hsame ⊢
    omega

/-- **The order of the texts is the order of time**, between whole milliseconds in years of four digits. -/
theorem timestamp_lt_iff {i j : Instant} (hi : i.IsWhole) (hj : j.IsWhole) (hiy : 1000 ≤ i.date.year)
    (hjy : 1000 ≤ j.date.year) : i.timestamp < j.timestamp ↔ i.micros < j.micros := by
  show i.timestamp.toList < j.timestamp.toList ↔ i.micros < j.micros
  rw [timestamp_row hiy, timestamp_row hjy, Text.row_lt_iff i.stampParts_fit j.stampParts_fit]
  refine ⟨fun hparts => ?_, stampParts_lt hi hj⟩
  rcases Nat.lt_trichotomy i.micros j.micros with hlt | heq | hgt
  · exact hlt
  · rw [ext_micros heq] at hparts
    exact absurd hparts (List.lt_irrefl _)
  · exact absurd hparts (List.lt_asymm (stampParts_lt hj hi hgt))

/-- **No two whole milliseconds share a text.** -/
theorem timestamp_inj {i j : Instant} (hi : i.IsWhole) (hj : j.IsWhole) (hiy : 1000 ≤ i.date.year)
    (hjy : 1000 ≤ j.date.year) : i.timestamp = j.timestamp ↔ i = j := by
  refine ⟨fun h => ?_, fun h => h ▸ rfl⟩
  have hparts : i.stampParts = j.stampParts := by
    refine Text.row_inj i.stampParts_fit j.stampParts_fit ?_
    rw [← timestamp_row hiy, ← timestamp_row hjy, h]
  rcases Nat.lt_trichotomy i.micros j.micros with hlt | heq | hgt
  · exact absurd (hparts ▸ stampParts_lt hi hj hlt) (List.lt_irrefl _)
  · exact ext_micros heq
  · exact absurd (hparts ▸ stampParts_lt hj hi hgt) (List.lt_irrefl _)

end Instant
end Leasehold
