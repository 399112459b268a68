/-
  What becomes of two durations that are given as numbers.

  A number of seconds becomes a duration, durations become terms, and terms become deadlines.  Each of the three steps has its
  own way to fail: a number may be past counting, or none; terms may make no sense; a deadline may lie past the end of the
  calendar, or in the millisecond of the reading.

  1. **`Binary64.PastCounting`** — seconds that no duration counts: too many of them, or no end of them;
  2. **`Duration.ofReal_cases`, `Terms.ofArguments_cases`** — whether numbers become terms, and the kind of the failure if not;
  3. **`Claim.ofTerms_moment`** — whether terms become a claim at a moment of UTC, and the kind of the failure if not.
-/
import Leasehold.Proofs.AcceptedTerms
namespace Leasehold

/-! ## Numbers of seconds -/

/-- **Seconds that no duration counts**: more than 999999999 days either way, or no end of them. -/
def Binary64.PastCounting : Binary64 → Prop
  | .finite negative mantissa exponent =>
    let micros : Int := Duration.microsOfReal mantissa exponent
    ¬(-86399999913600000000 ≤ (if negative then -micros else micros) ∧
      (if negative then -micros else micros) < 86400000000000000000)
  | .infinite _ => True
  | .nan => False

/-- A number of seconds is a duration, or past counting, or no number. -/
theorem Duration.ofReal_cases (x : Binary64) :
    (x.PastCounting ∧ ∃ fault, ofReal x = .error fault ∧ fault.kind = .outOfRange) ∨
      ¬x.PastCounting ∧ ((∃ d, ofReal x = .ok d) ∨ x = .nan ∧ ofReal x = .error .notANumber) := by
  cases x with
  | infinite negative => exact .inl ⟨trivial, _, rfl, rfl⟩
  | nan => exact .inr ⟨id, .inr ⟨rfl, rfl⟩⟩
  | finite negative mantissa exponent =>
    simp only [ofReal, ofMicros, Binary64.PastCounting]
    generalize (if negative then -(microsOfReal mantissa exponent : Int) else microsOfReal mantissa exponent) = micros
    by_cases hcounts : -86399999913600000000 ≤ micros ∧ micros < 86400000000000000000
    · exact .inr ⟨not_not_intro hcounts, .inl ⟨_, dif_pos hcounts⟩⟩
    · refine .inl ⟨hcounts, ?_⟩
      rw [dif_neg hcounts]
      split
      · exact ⟨_, rfl, rfl⟩
      · exact ⟨_, rfl, rfl⟩

/-- Two numbers of which one is past counting; the second is not looked at if the first is no number. -/
def Uncountable (most least : Binary64) : Prop := most.PastCounting ∨ most ≠ .nan ∧ least.PastCounting

/-- The arguments of terms with durations as numbers. -/
def termsOf (name : String) (most least : Binary64) : List GivenDuration :=
  [.value (.text name), .value (.real most), .value (.real least)]

/-- Accepted, or told. -/
theorem Terms.check_cases (name : Option String) (ceiling floor : Duration) :
    (∃ terms, (check name ceiling floor).mapError Error.terms = .ok terms) ∨
      ∃ fault, (check name ceiling floor).mapError Error.terms = .error (.terms fault) := by
  cases check name ceiling floor with
  | ok terms => exact .inl ⟨terms, rfl⟩
  | error fault => exact .inr ⟨fault, rfl⟩

/-- **Two numbers and a name become terms or not**: it is out of range if a number is past counting, and a malformed value
otherwise. -/
theorem Terms.ofArguments_cases (name : String) (most least : Binary64) :
    (Uncountable most least ∧ ∃ e, ofArguments (termsOf name most least) = .error e ∧ e.isA .overflow = true) ∨
      ¬Uncountable most least ∧ ((∃ terms, ofArguments (termsOf name most least) = .ok terms) ∨
        ∃ e, ofArguments (termsOf name most least) = .error e ∧ e.isA .value = true) := by
  have hsteps : ofArguments (termsOf name most least) = (do
      let c ← (Duration.ofReal most).mapError Error.time
      let f ← (Duration.ofReal least).mapError Error.time
      (check (some name) c f).mapError Error.terms) := rfl
  have hoverflow : ∀ {fault : TimeFault}, fault.kind = .outOfRange → (Error.time fault).isA .overflow = true := by
    intro fault hkind
    rw [Error.isA, Error.kind, hkind]
    rfl
  rw [hsteps]
  rcases Duration.ofReal_cases most with ⟨hpast, fault, hfault, hkind⟩ | ⟨hcounts, ⟨c, hc⟩ | ⟨rfl, hnan⟩⟩
  · exact .inl ⟨.inl hpast, _, by rw [hfault]; rfl, hoverflow hkind⟩
  · have hnumber : most ≠ .nan := by
      rintro rfl
      cases hc
    rw [hc]
    rcases Duration.ofReal_cases least with ⟨hpast, fault, hfault, hkind⟩ | ⟨hcounts', ⟨f, hf⟩ | ⟨rfl, hnan⟩⟩
    · exact .inl ⟨.inr ⟨hnumber, hpast⟩, _, by rw [hfault]; rfl, hoverflow hkind⟩
    · rw [hf]
      refine .inr ⟨fun h => h.elim hcounts fun h => hcounts' h.2, ?_⟩
      rcases check_cases (some name) c f with hok | ⟨fault, hfault⟩
      · exact .inl hok
      · exact .inr ⟨_, hfault, rfl⟩
    · exact .inr ⟨fun h => h.elim hcounts fun h => h.2, .inr ⟨_, by rw [hnan]; rfl, rfl⟩⟩
  · exact .inr ⟨fun h => h.elim hcounts fun h => h.1 rfl, .inr ⟨_, by rw [hnan]; rfl, rfl⟩⟩

/-! ## Deadlines -/

namespace DateTime

/-- A time of UTC stands for its moment. -/
theorem toUtc_utc (i : Instant) : (utc i).toUtc = .ok i := by
  show Instant.ofMicros ((i.micros : Int) - 0) = .ok i
  rw [Int.sub_zero, Instant.ofMicros, dif_pos ⟨Int.natCast_nonneg _, i.inCalendar⟩]
  rfl

/-- What comes after a moment of UTC is another one, or lies past the end of the calendar. -/
theorem utc_add_cases (now : Instant) {d : Duration} (h : 0 ≤ d.micros) :
    ((calendarMicros : Int) ≤ now.micros + d.micros ∧ (utc now).add d = .error .outOfCalendar) ∨
      ¬(calendarMicros : Int) ≤ now.micros + d.micros ∧ ∃ i, (utc now).add d = .ok (.utc i) := by
  have hin : (0 ≤ (now.micros : Int) + d.micros ∧ ((now.micros : Int) + d.micros).toNat < calendarMicros) ↔
      ¬(calendarMicros : Int) ≤ now.micros + d.micros := by omega
  rw [DateTime.add, utc, Instant.add, Instant.ofMicros]
  by_cases hpast : (calendarMicros : Int) ≤ now.micros + d.micros
  · refine .inl ⟨hpast, ?_⟩
    rw [dif_neg (mt hin.mp (not_not_intro hpast))]
    rfl
  · refine .inr ⟨hpast, ?_⟩
    rw [dif_pos (hin.mpr hpast)]
    exact ⟨_, rfl⟩

end DateTime

/-- **Terms that end past the calendar** when they begin at a moment. -/
def Terms.EndsPast (terms : Terms) (now : Instant) : Prop := (calendarMicros : Int) ≤ now.micros + terms.ceiling.micros

/-- **Terms become a claim at a moment or not**: it is out of range if they end past the calendar, and a fault in the terms
otherwise. -/
theorem Claim.ofTerms_moment (terms : Terms) (now : Instant) :
    (terms.EndsPast now ∧ ofTerms terms (.moment now) = .error (.time .outOfCalendar)) ∨
      ¬terms.EndsPast now ∧ ((∃ claim, ofTerms terms (.moment now) = .ok claim) ∨
        ∃ fault, ofTerms terms (.moment now) = .error (.terms fault)) := by
  have hdenotes : ∀ i : Instant, (GivenTime.moment i).Denotes i := fun i => ⟨_, rfl, rfl, DateTime.toUtc_utc i⟩
  have hadd : ∀ {d : Duration} {i : Instant}, (DateTime.utc now).add d = .ok (.utc i) →
      (GivenTime.moment now).add d = .ok (.moment i) := by
    intro d i h
    rw [GivenTime.moment, GivenTime.add, h]
    rfl
  rcases DateTime.utc_add_cases now (Int.le_of_lt terms.lasting) with ⟨hpast, hmost⟩ | ⟨hin, i, hmost⟩
  · refine .inl ⟨hpast, ?_⟩
    rw [ofTerms, Terms.deadlines, GivenTime.moment, GivenTime.add, hmost]
    rfl
  · refine .inr ⟨hin, ?_⟩
    -- the floor ends in the calendar, since it does not end after the ceiling
    have hwithin := terms.floorWithin
    rcases DateTime.utc_add_cases now terms.floorNotNegative with ⟨hpast, -⟩ | ⟨-, j, hleast⟩
    · exact absurd hpast (by omega)
    have haware : (GivenTime.moment now).IsAware := ⟨_, rfl, rfl⟩
    rcases ofTerms_cases haware (hadd hmost) (hdenotes i) (hadd hleast) (hdenotes j) with
      ⟨-, -, -, hfault⟩ | ⟨-, -, -, hclaim⟩ | ⟨hout, -⟩
    · exact .inr hfault
    · exact .inl hclaim
    · exact absurd ⟨now, hdenotes now⟩ hout

end Leasehold
