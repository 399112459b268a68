/-
  A timestamp reads back as its moment.

  `Instant.timestamp` writes a moment to the millisecond, and `Instant.ofTimestamp` reads far more than it writes.  The
  year is written without padding, so only a year of four digits can be read back.

  1. **`padded_digits`** — a number in a field of its width is the row of its decimal digits;
  2. **`written`** — the bytes of a timestamp, once its zone is spelled out: 29 of them, and the digits are the only ones
     that differ from moment to moment (`encode_timestamp`);
  3. **`readParts_written`** — the reader takes these bytes apart again;
  4. **`ofTimestamp_timestamp`** — so a timestamp is read as its moment, cut to milliseconds.  `ofTimestamp_early` is what
     becomes of a year below 1000.
-/
import Mathlib.Algebra.Group.Nat.Defs
import Leasehold.Proofs.Calendar
import Leasehold.Proofs.Moments
import Leasehold.Time.IsoReader
namespace Leasehold

/-! ## Digits -/

namespace Text

/-- The last `width` decimal digits of a number. -/
def lastDigits : Nat → Nat → List Char
  | 0, _ => []
  | width + 1, n => lastDigits width (n / 10) ++ [Nat.digitChar (n % 10)]

theorem lastDigits_zero (width : Nat) : lastDigits width 0 = List.replicate width '0' := by
  induction width with
  | zero => rfl
  | succ width ih =>
    rw [lastDigits, Nat.zero_div, ih, List.replicate_succ']
    rfl

/-- The digits of a number, filled up with zeros in front, are its last digits. -/
theorem replicate_toDigits {width n : Nat} (h : n < 10 ^ (width + 1)) :
    List.replicate (width + 1 - (Nat.toDigits 10 n).length) '0' ++ Nat.toDigits 10 n = lastDigits (width + 1) n := by
  induction width generalizing n with
  | zero =>
    rw [Nat.toDigits_of_lt_base (by omega), lastDigits, Nat.mod_eq_of_lt (by omega)]
    rfl
  | succ width ih =>
    rcases Nat.lt_or_ge n 10 with hlt | hge
    · rw [Nat.toDigits_of_lt_base hlt, lastDigits, Nat.div_eq_of_lt hlt, Nat.mod_eq_of_lt hlt, lastDigits_zero]
      rfl
    · have hdiv : n / 10 < 10 ^ (width + 1) := by
        rw [Nat.pow_succ] at h
        omega
      rw [Nat.toDigits_of_base_le (by decide) hge, lastDigits, ← ih hdiv, List.length_append, List.length_singleton,
        Nat.add_sub_add_right, List.append_assoc]

/-- **A number in a field of its width is the row of its digits.** -/
theorem padded_digits {width n : Nat} (h : n < 10 ^ (width + 1)) :
    (padded (width + 1) n).toList = lastDigits (width + 1) n := by
  rw [padded, String.toList_ofList]
  exact replicate_toDigits h

/-- A number that fills its field needs no padding. -/
theorem toString_digits {width n : Nat} (hge : 10 ^ width ≤ n) (h : n < 10 ^ (width + 1)) :
    (toString n).toList = lastDigits (width + 1) n := by
  have hlen : width + 1 ≤ (Nat.toDigits 10 n).length := by
    rcases Nat.lt_or_ge (Nat.toDigits 10 n).length (width + 1) with hlt | hle
    · cases width with
      | zero =>
        have hpos := Nat.length_toDigits_pos (b := 10) (n := n)
        omega
      | succ width =>
        have hle := (Nat.length_toDigits_le_iff (b := 10) (n := n) (by decide) (Nat.succ_pos width)).mp (by omega)
        omega
    · exact hle
  rw [Nat.toString_eq_ofList_toDigits, String.toList_ofList, ← replicate_toDigits h, Nat.sub_eq_zero_of_le hlen]
  rfl

end Text

namespace IsoReader

/-- The byte of a decimal digit. -/
def digitByte (n : Nat) : UInt8 := UInt8.ofNat (48 + n % 10)

theorem encode_digitChar (n : Nat) : String.utf8EncodeChar (Nat.digitChar (n % 10)) = [digitByte n] := by
  have hall : ∀ k : Fin 10, String.utf8EncodeChar (Nat.digitChar k.val) = [UInt8.ofNat (48 + k.val)] := by decide
  exact hall ⟨n % 10, Nat.mod_lt _ (by decide)⟩

theorem digitByte_toNat (n : Nat) : (digitByte n).toNat = 48 + n % 10 := by
  rw [digitByte, UInt8.toNat_ofNat']
  omega

@[simp] theorem isDigit_digitByte (n : Nat) : isDigit (digitByte n) = true := by
  have h := digitByte_toNat n
  simp only [isDigit, Bool.and_eq_true, decide_eq_true_eq, UInt8.le_iff_toNat_le, h]
  exact ⟨by simp, by simp; omega⟩

/-- A digit is no other byte. -/
theorem digitByte_ne {b : UInt8} (hb : isDigit b = false) (n : Nat) : digitByte n ≠ b := by
  rintro rfl
  rw [isDigit_digitByte] at hb
  cases hb

/-! ## The bytes of a timestamp -/

/-- **The bytes of a timestamp**, its zone spelled out as a distance of zero. -/
def written (year month day hour minute second millis : Nat) : List UInt8 :=
  [digitByte (year / 10 / 10 / 10), digitByte (year / 10 / 10), digitByte (year / 10), digitByte year, code '-',
   digitByte (month / 10), digitByte month, code '-', digitByte (day / 10), digitByte day, code 'T',
   digitByte (hour / 10), digitByte hour, code ':', digitByte (minute / 10), digitByte minute, code ':',
   digitByte (second / 10), digitByte second, code '.',
   digitByte (millis / 10 / 10), digitByte (millis / 10), digitByte millis,
   code '+', code '0', code '0', code ':', code '0', code '0']

variable {year month day hour minute second millis : Nat}

theorem separator_written : separator? (written year month day hour minute second millis) = some 10 := by
  have h : digitByte (month / 10) ≠ code 'W' := digitByte_ne rfl _
  simp [separator?, written, byteAt, h]

theorem readDate_written (hy : year < 10000) (hm : month < 100) (hd : day < 100) :
    readDate? (written year month day hour minute second millis) 10 = some (.parts ⟨year, month, day⟩) := by
  have h : digitByte (month / 10) ≠ code 'W' := digitByte_ne rfl _
  simp [readDate?, written, byteAt, digits?, digitByte_toNat, h]
  omega

/-- The time of day ends where the distance from UTC begins. -/
theorem zone_written : ((written year month day hour minute second millis).drop 11).takeWhile
    (fun b => b ≠ code '+' && b ≠ code '-' && b ≠ code 'Z') =
      [digitByte (hour / 10), digitByte hour, code ':', digitByte (minute / 10), digitByte minute, code ':',
       digitByte (second / 10), digitByte second, code '.',
       digitByte (millis / 10 / 10), digitByte (millis / 10), digitByte millis] := by
  have hdigit (n : Nat) : (digitByte n ≠ code '+' && digitByte n ≠ code '-' && digitByte n ≠ code 'Z') = true := by
    simp [digitByte_ne (b := code '+') rfl n, digitByte_ne (b := code '-') rfl n, digitByte_ne (b := code 'Z') rfl n]
  simp only [written, List.drop_succ_cons, List.drop_zero, List.takeWhile_cons, hdigit, if_true]
  rfl

theorem readClock_written (hh : hour < 100) (hm : minute < 100) (hs : second < 100) (hf : millis < 1000) :
    readClock? (written year month day hour minute second millis) 11 23 =
      some (⟨hour, minute, second, 1000 * millis⟩, true) := by
  have hplus : isDigit (code '+') = false := rfl
  simp [readClock?, readParts?, readFraction?, skipDigits, written, byteAt, digits?, digitByte_toNat, Clock.set, hplus]
  exact ⟨by omega, by decide⟩

theorem readOffset_written : readClock? (written year month day hour minute second millis) 24 29 =
    some (⟨0, 0, 0, 0⟩, false) := by
  rfl

theorem readTime_written (hh : hour < 100) (hm : minute < 100) (hs : second < 100) (hf : millis < 1000) :
    readTime? (written year month day hour minute second millis) 11 =
      some (⟨hour, minute, second, 1000 * millis⟩, some 0) := by
  have hlen : (written year month day hour minute second millis).length = 29 := rfl
  have hz : byteAt (written year month day hour minute second millis) 23 = code '+' := rfl
  simp only [readTime?, zone_written, List.length_cons, List.length_nil]
  rw [show 11 + (0 + 1 + 1 + 1 + 1 + 1 + 1 + 1 + 1 + 1 + 1 + 1 + 1) = 23 from rfl, readClock_written hh hm hs hf, hlen, hz,
    readOffset_written]
  rfl

/-- **The bytes of a timestamp are taken apart again.** -/
theorem readParts_written (hy : year < 10000) (hm : month < 100) (hd : day < 100) (hh : hour < 100)
    (hmin : minute < 100) (hs : second < 100) (hf : millis < 1000) :
    readParts (written year month day hour minute second millis) =
      some (.parts ⟨year, month, day⟩, ⟨hour, minute, second, 1000 * millis⟩, some 0) := by
  have hlen : (written year month day hour minute second millis).length = 29 := rfl
  have ht : characterLength (byteAt (written year month day hour minute second millis) 10) = 1 := rfl
  simp [readParts, separator_written, readDate_written hy hm hd, hlen, ht, readTime_written hh hmin hs hf]

end IsoReader

/-! ## Moments -/

namespace Instant

open IsoReader

/-- The parts of a moment have the widths of their fields. -/
theorem parts_lt (i : Instant) :
    i.date.month < 100 ∧ i.date.day < 100 ∧ i.hour < 100 ∧ i.minute < 100 ∧ i.second < 100 ∧
      i.microsecond / 1000 < 1000 := by
  obtain ⟨-, hmonth⟩ := Calendar.dateOf_month (i.micros / dayMicros)
  obtain ⟨-, hday⟩ := Calendar.dateOf_day (i.micros / dayMicros)
  have hlen : ∀ leap month, Calendar.daysInMonth leap month ≤ 31 := by
    intro leap month
    simp only [Calendar.daysInMonth]
    split
    · split <;> omega
    all_goals omega
  have hle := hlen (Calendar.isLeap (Calendar.dateOf (i.micros / dayMicros)).year)
    (Calendar.dateOf (i.micros / dayMicros)).month
  simp only [date, hour, minute, second, microsecond, timeOfDay, dayMicros] at *
  omega

/-- **The characters of a timestamp** of a year of four digits: every field is the row of its digits. -/
theorem toList_timestamp {i : Instant} (hold : 1000 ≤ i.date.year) (hnew : i.date.year < 10000) :
    i.timestamp.toList = Text.lastDigits 4 i.date.year ++ '-' :: Text.lastDigits 2 i.date.month
      ++ '-' :: Text.lastDigits 2 i.date.day ++ 'T' :: Text.lastDigits 2 i.hour ++ ':' :: Text.lastDigits 2 i.minute
      ++ ':' :: Text.lastDigits 2 i.second ++ '.' :: Text.lastDigits 3 (i.microsecond / 1000) ++ ['Z'] := by
  obtain ⟨hmonth, hday, hhour, hminute, hsecond, hmillis⟩ := i.parts_lt
  have hyear : (toString i.date.year).toList = Text.lastDigits 4 i.date.year := Text.toString_digits hold hnew
  have htwo : ∀ n, n < 100 → (Text.padded 2 n).toList = Text.lastDigits 2 n := fun _ h => Text.padded_digits h
  have hthree : ∀ n, n < 1000 → (Text.padded 3 n).toList = Text.lastDigits 3 n := fun _ h => Text.padded_digits h
  rw [timestamp, clockText]
  simp only [String.toList_append, hyear, htwo _ hmonth, htwo _ hday, htwo _ hhour, htwo _ hminute, htwo _ hsecond,
    hthree _ hmillis]
  simp

/-- **The timestamp of a year of four digits**, its zone spelled out, byte by byte. -/
theorem encode_timestamp {i : Instant} (hold : 1000 ≤ i.date.year) (hnew : i.date.year < 10000) :
    Text.Utf8.encode (spellZone i.timestamp).toList =
      written i.date.year i.date.month i.date.day i.hour i.minute i.second (i.microsecond / 1000) := by
  have htext := toList_timestamp hold hnew
  have hlast : i.timestamp.toList.getLast? = some 'Z' := by
    rw [htext, List.getLast?_append]
    rfl
  have hfront : i.timestamp.toList.dropLast = Text.lastDigits 4 i.date.year ++ '-' :: Text.lastDigits 2 i.date.month
      ++ '-' :: Text.lastDigits 2 i.date.day ++ 'T' :: Text.lastDigits 2 i.hour ++ ':' :: Text.lastDigits 2 i.minute
      ++ ':' :: Text.lastDigits 2 i.second ++ '.' :: Text.lastDigits 3 (i.microsecond / 1000) := by
    rw [htext, List.dropLast_concat]
  rw [spellZone, if_pos hlast, String.toList_ofList, hfront]
  simp [Text.Utf8.encode, Text.lastDigits, encode_digitChar, written]
  rfl

/-- The day of a moment is in the calendar. -/
theorem day_lt (i : Instant) : i.micros / dayMicros < Calendar.dayCount := by
  have hin := i.inCalendar
  simp only [calendarMicros, dayMicros, Calendar.dayCount] at *
  omega

/-- The parts of a moment make the moment, cut to milliseconds. -/
theorem ofParts_parts (i : Instant) :
    ofParts i.date i.hour i.minute i.second (1000 * (i.microsecond / 1000)) = .ok i.truncate := by
  have hyear : 1 ≤ i.date.year ∧ i.date.year ≤ 9999 := Calendar.dateOf_year i.day_lt
  have hmonth : 1 ≤ i.date.month ∧ i.date.month ≤ 12 := Calendar.dateOf_month _
  have hday : 1 ≤ i.date.day ∧ i.date.day ≤ Calendar.daysInMonth (Calendar.isLeap i.date.year) i.date.month :=
    Calendar.dateOf_day _
  have hhour : i.hour ≤ 23 := by simp only [hour, timeOfDay, dayMicros]; omega
  have hminute : i.minute ≤ 59 := by simp only [minute]; omega
  have hsecond : i.second ≤ 59 := by simp only [second]; omega
  have hnumber : Calendar.dayNumber i.date = i.micros / dayMicros := Calendar.dayNumber_dateOf _
  -- the sum of the parts, counted in microseconds
  have hsum : ((i.micros / dayMicros * 24 + i.hour) * 60 + i.minute) * 60 * 1000000 + i.second * 1000000
      + 1000 * (i.microsecond / 1000) = i.truncate.micros := by
    simp only [hour, minute, second, microsecond, timeOfDay, truncate, dayMicros]
    omega
  rw [ofParts, if_neg (by simp; omega), if_neg (by simp; omega), if_neg (by simp; omega), if_neg (by omega),
    if_neg (by omega), if_neg (by omega), hnumber, hsum]
  exact dif_pos ⟨by omega, i.truncate.inCalendar⟩

/-- **A timestamp is read as its moment**, cut to milliseconds, if its year has four digits. -/
theorem ofTimestamp_timestamp {i : Instant} (hold : 1000 ≤ i.date.year) :
    ofTimestamp i.timestamp = .ok i.truncate := by
  have hnew : i.date.year < 10000 := Nat.lt_succ_of_le (Calendar.dateOf_year i.day_lt).2
  obtain ⟨hmonth, hday, hhour, hminute, hsecond, hmillis⟩ := i.parts_lt
  rw [ofTimestamp, readMoment, encode_timestamp hold hnew,
    readParts_written hnew hmonth hday hhour hminute hsecond hmillis]
  show (do
    let wall ← ofParts i.date i.hour i.minute i.second (1000 * (i.microsecond / 1000))
    ofMicros (wall.micros - 0)) = _
  rw [ofParts_parts]
  show ofMicros ((i.truncate.micros : Int) - 0) = _
  rw [ofMicros, dif_pos ⟨by omega, by simpa using i.truncate.inCalendar⟩]
  exact congrArg Except.ok (ext_micros (by simp))

/-! ## Early years -/

theorem encode_lastDigits_length (width n : Nat) : (Text.Utf8.encode (Text.lastDigits width n)).length = width := by
  induction width generalizing n with
  | zero => rfl
  | succ width ih =>
    rw [Text.lastDigits, Text.Utf8.encode_append, List.length_append, ih]
    simp [Text.Utf8.encode, encode_digitChar]

/-- A year below 1000 has three digits at most. -/
theorem early_digits {n : Nat} (h : n < 1000) : ∃ width, width ≤ 3 ∧ (toString n).toList = Text.lastDigits width n := by
  rcases Nat.lt_or_ge n 10 with h1 | h1
  · refine ⟨1, by omega, ?_⟩
    rw [Nat.toString_eq_ofList_toDigits, String.toList_ofList, Nat.toDigits_of_lt_base h1, Text.lastDigits,
      Nat.mod_eq_of_lt h1]
    rfl
  rcases Nat.lt_or_ge n 100 with h2 | h2
  · exact ⟨2, by omega, Text.toString_digits h1 h2⟩
  · exact ⟨3, by omega, Text.toString_digits h2 h⟩

/-- **The timestamp of a year below 1000 cannot be read**: a dash stands where the year's fourth digit should. -/
theorem ofTimestamp_early {i : Instant} (h : i.date.year < 1000) :
    ofTimestamp i.timestamp = .error (.notIso (spellZone i.timestamp)) := by
  obtain ⟨width, hwidth, hyear⟩ := early_digits h
  obtain ⟨rest, hrest⟩ : ∃ rest, (spellZone i.timestamp).toList = Text.lastDigits width i.date.year ++ '-' :: rest := by
    have htext : ∃ text, i.timestamp.toList = Text.lastDigits width i.date.year ++ '-' :: (text ++ ['Z']) := by
      rw [timestamp, clockText]
      simp only [String.toList_append, hyear]
      refine ⟨((Text.padded 2 i.date.month).toList ++ '-' :: ((Text.padded 2 i.date.day).toList
        ++ 'T' :: ((Text.padded 2 i.hour).toList ++ ':' :: ((Text.padded 2 i.minute).toList
        ++ ':' :: ((Text.padded 2 i.second).toList
        ++ '.' :: (Text.padded 3 (i.microsecond / 1000)).toList))))), ?_⟩
      simp
    obtain ⟨text, htext⟩ := htext
    have hlast : i.timestamp.toList.getLast? = some 'Z' := by
      rw [htext, ← List.cons_append, ← List.append_assoc, List.getLast?_concat]
    refine ⟨text ++ "+00:00".toList, ?_⟩
    rw [spellZone, if_pos hlast, String.toList_ofList, htext, ← List.cons_append, ← List.append_assoc,
      List.dropLast_concat]
    simp
  have hdigits : digits? (Text.Utf8.encode (spellZone i.timestamp).toList) 0 4 = none := by
    have hbytes : Text.Utf8.encode (spellZone i.timestamp).toList =
        Text.Utf8.encode (Text.lastDigits width i.date.year) ++ code '-' :: Text.Utf8.encode rest := by
      rw [hrest, Text.Utf8.encode_append]
      rfl
    have hdash : code '-' ∈ (Text.Utf8.encode (spellZone i.timestamp).toList).take 4 := by
      rw [hbytes, List.take_append, encode_lastDigits_length]
      obtain ⟨n, hn⟩ : ∃ n, 4 - width = n + 1 := ⟨3 - width, by omega⟩
      rw [hn, List.take_succ_cons]
      simp
    simp only [digits?, List.drop_zero]
    rw [if_neg]
    intro hall
    have hd := List.all_eq_true.mp (Bool.and_eq_true_iff.mp hall).2 _ hdash
    cases hd
  have hdate : ∀ length, readDate? (Text.Utf8.encode (spellZone i.timestamp).toList) length = none := by
    intro length
    simp only [readDate?, hdigits]
    rfl
  have hparts : readParts (Text.Utf8.encode (spellZone i.timestamp).toList) = none := by
    simp only [readParts, hdate]
    split
    · rfl
    · cases separator? (Text.Utf8.encode (spellZone i.timestamp).toList) <;> rfl
  rw [ofTimestamp, readMoment, hparts]

end Instant
end Leasehold
