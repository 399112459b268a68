/-
  Timestamps of every year.

  The year is the one field of a timestamp that is not padded.  So a timestamp is 24 characters wide from the year 1000 on
  and shorter before, and the texts, compared byte by byte, follow time only as long as the years have equally many digits.

  1. **`timestamp_year`** — a timestamp is the row of its year's digits, and behind its dash the row of the fields that do
     have a width.  `yearWidth` is the number of those digits.
  2. **`timestamp_lt_of_width`** — with years of one width the two rows have one shape, and `Text.row_lt_iff` decides.
  3. **`timestamp_lt_of_longer`** — where the later year is the longer one, its text is longer by its LAST digits
     (`Text.lastDigits_add`), and the comparison is between the earlier year and the FIRST digits of the later.  A tie is
     broken in favour of time, since the dash that ends the shorter year comes before every digit.
  4. **`DateTime.timestamps_sort`** — the widths of two timestamps, when they are the same, and when they are in order; and
     `millennium_missorted`, a millisecond at which they are not.
-/
import Leasehold.Proofs.TimestampOrder
import Leasehold.Proofs.Utf8
namespace Leasehold

/-! ## Bytes -/

namespace Text

/-- **A row of ASCII characters and any other row are ordered as their bytes are.** -/
theorem encode_lt_iff {cs ds : List Char} (hc : ∀ c ∈ cs, c.toNat < 128) :
    Utf8.encode cs < Utf8.encode ds ↔ cs < ds := by
  induction cs generalizing ds with
  | nil =>
    cases ds with
    | nil => simp [Utf8.encode]
    | cons d ds =>
      obtain ⟨b, bs, hd⟩ := List.exists_cons_of_ne_nil (String.utf8EncodeChar_ne_nil (c := d))
      simp [Utf8.encode, hd]
  | cons c cs ih =>
    cases ds with
    | nil => simp [Utf8.encode]
    | cons d ds =>
      have hc' := hc c List.mem_cons_self
      have htail := @ih ds fun x hx => hc x (List.mem_cons_of_mem _ hx)
      show Utf8.encode ([c] ++ cs) < Utf8.encode ([d] ++ ds) ↔ _
      rw [Utf8.encode_append, Utf8.encode_append]
      simp only [Utf8.encode, List.flatMap_cons, List.flatMap_nil, List.append_nil, Utf8.encodeChar_ascii hc'] at htail ⊢
      rw [List.cons_lt_cons_iff]
      by_cases hd' : d.toNat < 128
      · have hlt : UInt8.ofNat c.toNat < UInt8.ofNat d.toNat ↔ c < d := by
          rw [UInt8.lt_iff_toNat_lt, UInt8.toNat_ofNat', UInt8.toNat_ofNat', Nat.mod_eq_of_lt (by omega),
            Nat.mod_eq_of_lt (by omega)]
          rfl
        have heq : UInt8.ofNat c.toNat = UInt8.ofNat d.toNat ↔ c = d := by
          rw [← UInt8.toNat_inj, UInt8.toNat_ofNat', UInt8.toNat_ofNat', Nat.mod_eq_of_lt (by omega),
            Nat.mod_eq_of_lt (by omega), Char.toNat_inj]
        rw [Utf8.encodeChar_ascii hd', List.cons_append, List.cons_append, List.cons_lt_cons_iff, hlt, heq]
        exact or_congr_right (and_congr_right fun _ => htail)
      · -- the first byte decides, as the first character does
        obtain ⟨b, bs, hbytes⟩ := List.exists_cons_of_ne_nil (String.utf8EncodeChar_ne_nil (c := d))
        have hb : 128 ≤ b.toNat := Utf8.encodeChar_high hd' b (hbytes ▸ List.mem_cons_self)
        have hlt : UInt8.ofNat c.toNat < b := by
          rw [UInt8.lt_iff_toNat_lt, UInt8.toNat_ofNat', Nat.mod_eq_of_lt (by omega)]
          omega
        have hchar : c < d := show c.toNat < d.toNat by omega
        rw [hbytes, List.cons_append, List.cons_append, List.cons_lt_cons_iff]
        exact iff_of_true (Or.inl hlt) (Or.inl hchar)

theorem digitChar_ascii (n : Nat) : (Nat.digitChar (n % 10)).toNat < 128 := by
  have hall : ∀ k : Fin 10, (Nat.digitChar k.val).toNat < 128 := by decide
  exact hall ⟨n % 10, Nat.mod_lt _ (by decide)⟩

theorem lastDigits_ascii {width n : Nat} : ∀ c ∈ lastDigits width n, c.toNat < 128 := by
  induction width generalizing n with
  | zero => exact fun c hc => absurd hc List.not_mem_nil
  | succ width ih =>
    intro c hc
    rcases List.mem_append.mp hc with hc | hc
    · exact ih c hc
    · rw [List.mem_singleton.mp hc]
      exact digitChar_ascii n

theorem row_ascii {shape : List (Nat × Char)} {ns : List Nat} (h : ∀ field ∈ shape, field.2.toNat < 128) :
    ∀ c ∈ row shape ns, c.toNat < 128 := by
  induction shape generalizing ns with
  | nil => exact fun c hc => absurd hc List.not_mem_nil
  | cons field shape ih =>
    cases ns with
    | nil => exact fun c hc => absurd hc List.not_mem_nil
    | cons n ns =>
      intro c hc
      rcases List.mem_append.mp hc with hc | hc
      · exact lastDigits_ascii c hc
      · rcases List.mem_cons.mp hc with rfl | hc
        · exact h field List.mem_cons_self
        · exact ih (fun field hf => h field (List.mem_cons_of_mem _ hf)) c hc

/-! ## Numbers without padding -/

/-- A number is written as its last digits, all of them. -/
theorem toString_lastDigits (n : Nat) : (toString n).toList = lastDigits (Nat.toDigits 10 n).length n := by
  obtain ⟨width, hwidth⟩ : ∃ width, (Nat.toDigits 10 n).length = width + 1 :=
    Nat.exists_eq_add_of_le' (Nat.length_toDigits_pos (b := 10) (n := n))
  have hlt : n < 10 ^ (width + 1) :=
    (Nat.length_toDigits_le_iff (b := 10) (by decide) (Nat.succ_pos width)).mp (Nat.le_of_eq hwidth)
  rw [Nat.toString_eq_ofList_toDigits, String.toList_ofList, hwidth, ← replicate_toDigits hlt, hwidth, Nat.sub_self]
  rfl

/-- The last digits of a number, cut in two. -/
theorem lastDigits_add (width more n : Nat) :
    lastDigits (width + more) n = lastDigits width (n / 10 ^ more) ++ lastDigits more n := by
  induction more generalizing n with
  | zero => simp [lastDigits]
  | succ more ih =>
    rw [← Nat.add_assoc, lastDigits, ih, lastDigits, Nat.div_div_eq_div_mul, ← Nat.pow_succ', List.append_assoc]

/-- A dash comes before every digit. -/
theorem dash_lt_lastDigits (width n : Nat) (s t : List Char) : '-' :: s < lastDigits (width + 1) n ++ t := by
  have hall : ∀ k : Fin 10, '-' < Nat.digitChar k.val := by decide
  induction width generalizing n t with
  | zero => exact List.cons_lt_cons_iff.mpr (Or.inl (hall ⟨n % 10, Nat.mod_lt _ (by decide)⟩))
  | succ width ih =>
    rw [lastDigits, List.append_assoc]
    exact ih _ _

end Text

/-! ## The year's digits -/

namespace Instant

/-- **The width of the year** in a timestamp: the digits that the year has. -/
def yearWidth (i : Instant) : Nat := (Nat.toDigits 10 i.date.year).length

theorem year_lt (i : Instant) : i.date.year < 10 ^ i.yearWidth :=
  (Nat.length_toDigits_le_iff (by decide) Nat.length_toDigits_pos).mp (Nat.le_refl _)

theorem yearWidth_le_iff (i : Instant) {k : Nat} (hk : 0 < k) : i.yearWidth ≤ k ↔ i.date.year < 10 ^ k :=
  Nat.length_toDigits_le_iff (by decide) hk

/-- The year has four digits from 1000 on, and never more. -/
theorem yearWidth_eq_four (i : Instant) : i.yearWidth = 4 ↔ 1000 ≤ i.date.year := by
  have hnew : i.date.year < 10000 := Nat.lt_succ_of_le (Calendar.dateOf_year i.day_lt).2
  have hfour : i.yearWidth ≤ 4 := (i.yearWidth_le_iff (by decide)).mpr hnew
  have hthree := i.yearWidth_le_iff (k := 3) (by decide)
  omega

/-- A later moment does not have the shorter year. -/
theorem yearWidth_mono {i j : Instant} (h : i.date.year ≤ j.date.year) : i.yearWidth ≤ j.yearWidth :=
  (i.yearWidth_le_iff Nat.length_toDigits_pos).mpr (Nat.lt_of_le_of_lt h j.year_lt)

/-- A later moment is not in an earlier year. -/
theorem year_mono {i j : Instant} (h : i.micros ≤ j.micros) : i.date.year ≤ j.date.year :=
  Calendar.yearOf_mono (Nat.div_le_div_right h)

/-- **A timestamp by its rows**: the year's digits, and what stands behind the dash. -/
theorem timestamp_year (i : Instant) :
    i.timestamp.toList = Text.lastDigits i.yearWidth i.date.year
      ++ '-' :: Text.row stampShape.tail i.stampParts.tail := by
  obtain ⟨hmonth, hday, hhour, hminute, hsecond, hmillis⟩ := i.parts_lt
  have htwo : ∀ n, n < 100 → (Text.padded 2 n).toList = Text.lastDigits 2 n := fun _ h => Text.padded_digits h
  have hthree : ∀ n, n < 1000 → (Text.padded 3 n).toList = Text.lastDigits 3 n := fun _ h => Text.padded_digits h
  rw [timestamp, clockText]
  simp only [String.toList_append, Text.toString_lastDigits, htwo _ hmonth, htwo _ hday, htwo _ hhour, htwo _ hminute,
    htwo _ hsecond, hthree _ hmillis]
  simp [Text.row, stampShape, stampParts, yearWidth]

/-- The same as one row, whose shape depends on the year's width. -/
theorem timestamp_wide_row (i : Instant) :
    i.timestamp.toList = Text.row ((i.yearWidth, '-') :: stampShape.tail) i.stampParts := i.timestamp_year

theorem stampParts_fit_width (i : Instant) : Text.Fits ((i.yearWidth, '-') :: stampShape.tail) i.stampParts :=
  ⟨i.year_lt, i.stampParts_fit.2⟩

/-- Twenty characters, and the year. -/
theorem length_timestamp (i : Instant) : i.timestamp.length = 20 + i.yearWidth := by
  rw [← String.length_toList, timestamp_year]
  simp [Text.row, stampShape, stampParts]
  omega

theorem timestamp_ascii (i : Instant) : ∀ c ∈ i.timestamp.toList, c.toNat < 128 := by
  have hmarks : ∀ width, ∀ field ∈ (width, '-') :: stampShape.tail, field.2.toNat < 128 := by
    intro width field hf
    rcases List.mem_cons.mp hf with rfl | hf
    · exact (by decide : '-'.toNat < 128)
    · have hall : ∀ field ∈ stampShape.tail, field.2.toNat < 128 := by decide
      exact hall field hf
  rw [timestamp_wide_row]
  exact Text.row_ascii (hmarks _)

/-- Whether a timestamp comes before a text can be told by the bytes. -/
theorem encode_timestamp_lt_iff (i : Instant) (text : String) :
    Text.Utf8.encode i.timestamp.toList < Text.Utf8.encode text.toList ↔ i.timestamp.toList < text.toList :=
  Text.encode_lt_iff i.timestamp_ascii

/-! ## The order -/

variable {i j : Instant}

/-- **Years of one width**: the order of the texts is the order of time. -/
theorem timestamp_lt_of_width (hi : i.IsWhole) (hj : j.IsWhole) (h : i.yearWidth = j.yearWidth) :
    i.timestamp.toList < j.timestamp.toList ↔ i.micros < j.micros := by
  have hfit := i.stampParts_fit_width
  rw [h] at hfit
  rw [timestamp_wide_row i, timestamp_wide_row j, h, Text.row_lt_iff hfit j.stampParts_fit_width]
  refine ⟨fun hparts => ?_, stampParts_lt hi hj⟩
  rcases Nat.lt_trichotomy i.micros j.micros with hlt | heq | hgt
  · exact hlt
  · rw [ext_micros heq] at hparts
    exact absurd hparts (List.lt_irrefl _)
  · exact absurd hparts (List.lt_asymm (stampParts_lt hj hi hgt))

/-- **No two whole milliseconds share a text**, of whatever years. -/
theorem timestamp_eq_iff (hi : i.IsWhole) (hj : j.IsWhole) : i.timestamp = j.timestamp ↔ i = j := by
  refine ⟨fun h => ?_, fun h => h ▸ rfl⟩
  have hwidth : i.yearWidth = j.yearWidth := by
    have hlen : 20 + i.yearWidth = 20 + j.yearWidth := by rw [← length_timestamp, ← length_timestamp, h]
    omega
  have hnot : ¬i.micros < j.micros := by
    rw [← timestamp_lt_of_width hi hj hwidth, h]
    exact List.lt_irrefl _
  have hnot' : ¬j.micros < i.micros := by
    rw [← timestamp_lt_of_width hj hi hwidth.symm, h]
    exact List.lt_irrefl _
  exact ext_micros (by omega)

/-- **A longer year**: the shorter one is compared with its first digits. -/
theorem timestamp_lt_of_longer {more : Nat} (h : j.yearWidth = i.yearWidth + (more + 1)) :
    i.timestamp.toList < j.timestamp.toList ↔ i.date.year ≤ j.date.year / 10 ^ (more + 1) := by
  have hfront : j.date.year / 10 ^ (more + 1) < 10 ^ i.yearWidth := by
    have hyear := j.year_lt
    rw [h, Nat.pow_add] at hyear
    exact Nat.div_lt_of_lt_mul (by rwa [Nat.mul_comm] at hyear)
  rw [timestamp_year i, timestamp_year j, h, Text.lastDigits_add, List.append_assoc, Text.append_lt_iff (by simp),
    Text.lastDigits_lt_iff i.year_lt hfront, Text.lastDigits_inj i.year_lt hfront]
  simp only [Text.dash_lt_lastDigits, and_true]
  omega

/-- **The earlier of two moments has the smaller text exactly when its year is at most the first digits of the later
year**, as many of them as it has itself. -/
theorem timestamp_lt_iff_year (hi : i.IsWhole) (hj : j.IsWhole) (h : i.micros < j.micros) :
    i.timestamp.toList < j.timestamp.toList ↔ i.date.year ≤ j.date.year / 10 ^ (j.yearWidth - i.yearWidth) := by
  have hyear := year_mono (Nat.le_of_lt h)
  obtain ⟨more, hmore⟩ := Nat.exists_eq_add_of_le (yearWidth_mono hyear)
  cases more with
  | zero =>
    rw [timestamp_lt_of_width hi hj hmore.symm, hmore]
    simp [h, hyear]
  | succ more =>
    rw [timestamp_lt_of_longer hmore, hmore, Nat.add_sub_cancel_left]

end Instant

/-! ## Dates and times -/

namespace DateTime

theorem isWhole_of_truncate {t : DateTime} {i : Instant} (h : t.truncate = .ok i) : i.IsWhole := by
  obtain ⟨now, -, rfl⟩ := Except.map_ok h
  exact now.truncate_whole

/-- **The texts of two dates and times whose moments are in the calendar.**

Both have one, of 24 characters exactly from the year 1000 on (UTC).  The texts are the same exactly when the moments,
cut to milliseconds, are.  Compared byte by byte they are in the order of these moments if the years have equally many
digits; in general the earlier text is the smaller one exactly when its year is at most the first digits of the later
year. -/
theorem timestamps_sort {s t : DateTime} {i j : Instant} (hs : s.truncate = .ok i) (ht : t.truncate = .ok j) :
    ∃ p q : String, s.timestamp = .ok p ∧ t.timestamp = .ok q ∧
      (p.length = 20 + i.yearWidth ∧ (p.length = 24 ↔ 1000 ≤ i.date.year)) ∧
      (q.length = 20 + j.yearWidth ∧ (q.length = 24 ↔ 1000 ≤ j.date.year)) ∧
      (p = q ↔ i = j) ∧
      (i.yearWidth = j.yearWidth →
        (Text.Utf8.encode p.toList < Text.Utf8.encode q.toList ↔ i.micros < j.micros)) ∧
      (i.micros < j.micros →
        (Text.Utf8.encode p.toList < Text.Utf8.encode q.toList ↔
          i.date.year ≤ j.date.year / 10 ^ (j.yearWidth - i.yearWidth))) := by
  have hi := isWhole_of_truncate hs
  have hj := isWhole_of_truncate ht
  have hwidth : ∀ k : Instant, k.timestamp.length = 24 ↔ 1000 ≤ k.date.year := by
    intro k
    rw [k.length_timestamp, ← k.yearWidth_eq_four]
    omega
  refine ⟨i.timestamp, j.timestamp, by rw [timestamp, hs]; rfl, by rw [timestamp, ht]; rfl,
    ⟨i.length_timestamp, hwidth i⟩, ⟨j.length_timestamp, hwidth j⟩, Instant.timestamp_eq_iff hi hj, ?_, ?_⟩
  · intro h
    rw [Instant.encode_timestamp_lt_iff]
    exact Instant.timestamp_lt_of_width hi hj h
  · intro h
    rw [Instant.encode_timestamp_lt_iff]
    exact Instant.timestamp_lt_iff_year hi hj h

/-- The last millisecond of the year 999. -/
def lastOf999 : DateTime := .utc ⟨31525372799999000, by decide⟩

/-- The start of the year 1000, on a clock two hours east. -/
def firstOf1000 : DateTime := ⟨⟨31525380000000000, by decide⟩, some 7200000000⟩

/-- Around the turn of the year 1000 the widths are 23 and 24, and the texts are in the wrong order. -/
theorem millennium_widths :
    ∃ p q : String, lastOf999.timestamp = .ok p ∧ firstOf1000.timestamp = .ok q ∧ p.length = 23 ∧ q.length = 24 ∧
      ¬Text.Utf8.encode p.toList < Text.Utf8.encode q.toList := by
  have hs : lastOf999.truncate = .ok ⟨31525372799999000, by decide⟩ := rfl
  have ht : firstOf1000.truncate = .ok ⟨31525372800000000, by decide⟩ := rfl
  obtain ⟨p, q, hp, hq, ⟨hlen, -⟩, ⟨hlen', -⟩, -, -, hlt⟩ := timestamps_sort hs ht
  refine ⟨p, q, hp, hq, hlen, hlen', fun h => ?_⟩
  exact absurd ((hlt (by decide)).mp h) (by decide)

/-- **A timestamp of 23 characters, and a later one that sorts before it.** -/
theorem millennium_missorted :
    lastOf999.isAware = true ∧ firstOf1000.isAware = true ∧
      lastOf999.timestamp = .ok "999-12-31T23:59:59.999Z" ∧
      firstOf1000.timestamp = .ok "1000-01-01T00:00:00.000Z" ∧
      "999-12-31T23:59:59.999Z".length = 23 ∧
      lastOf999.before firstOf1000 = .ok true ∧
      Text.Utf8.encode "1000-01-01T00:00:00.000Z".toList < Text.Utf8.encode "999-12-31T23:59:59.999Z".toList := by
  exact ⟨rfl, rfl, rfl, rfl, by decide, rfl, by decide⟩

end DateTime
end Leasehold
