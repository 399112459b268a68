/-
  Moments in whole milliseconds, and the claims that are made of them.

  A clock may show any date and time at any distance from UTC, to the microsecond.  Everything that the protocol
  compares and writes is a MOMENT of UTC cut to milliseconds, so three facts are used again and again:

  1. **`truncate_time`** — what a reading is cut to never lies after the reading, and no whole millisecond lies between
     them (`le_of_whole`): a clock that never goes back gives moments that never go back;
  2. **`ofGiven_whole`** — the three times of a claim are whole milliseconds, so cutting them once more, as stores do,
     changes nothing;
  3. **`ofGiven_takenAt`** — the time that a claim is taken at is the reading of the clock.
-/
import Leasehold.Lock.Basic
namespace Leasehold

/-! ## Computations that may fail -/

/-- What a sequence of two steps came to tells what the first came to. -/
theorem Except.bind_ok {ε α β : Type} {x : Except ε α} {f : α → Except ε β} {b : β} (h : x >>= f = .ok b) :
    ∃ a, x = .ok a ∧ f a = .ok b := by
  cases x with
  | error e => cases h
  | ok a => exact ⟨a, rfl, h⟩

/-- A sequence of two steps fails in the first or in the second. -/
theorem Except.bind_error {ε α β : Type} {x : Except ε α} {f : α → Except ε β} {e : ε} (h : x >>= f = .error e) :
    x = .error e ∨ ∃ a, x = .ok a ∧ f a = .error e := by
  cases x with
  | error e' =>
    cases h
    exact Or.inl rfl
  | ok a => exact Or.inr ⟨a, rfl, h⟩

theorem Except.mapError_ok {ε ε' α : Type} {x : Except ε α} {f : ε → ε'} {a : α} (h : x.mapError f = .ok a) :
    x = .ok a := by
  cases x with
  | error e => cases h
  | ok b => exact congrArg Except.ok (Except.ok.inj h)

theorem Except.mapError_error {ε ε' α : Type} {x : Except ε α} {f : ε → ε'} {e : ε'} (h : x.mapError f = .error e) :
    ∃ e', x = .error e' ∧ f e' = e := by
  cases x with
  | error e' => exact ⟨e', rfl, Except.error.inj h⟩
  | ok a => cases h

theorem Except.map_ok {ε α β : Type} {x : Except ε α} {f : α → β} {b : β} (h : x.map f = .ok b) :
    ∃ a, x = .ok a ∧ f a = b := by
  cases x with
  | error e => cases h
  | ok a => exact ⟨a, rfl, Except.ok.inj h⟩

theorem Except.map_error {ε α β : Type} {x : Except ε α} {f : α → β} {e : ε} (h : x.map f = .error e) :
    x = .error e := by
  cases x with
  | error e' => exact congrArg Except.error (Except.error.inj h)
  | ok a => cases h

/-! ## Whole milliseconds -/

namespace Instant

/-- A moment is known by its microseconds. -/
theorem ext_micros {i j : Instant} (h : i.micros = j.micros) : i = j := by
  cases i; cases j; cases h; rfl

/-- A moment that is a whole number of milliseconds. -/
def IsWhole (i : Instant) : Prop := i.truncate = i

instance (i : Instant) : Decidable i.IsWhole := inferInstanceAs (Decidable (i.truncate = i))

theorem truncate_whole (i : Instant) : i.truncate.IsWhole := truncate_truncate i

/-- Cutting keeps the order. -/
theorem truncate_mono {i j : Instant} (h : i.micros ≤ j.micros) : i.truncate.micros ≤ j.truncate.micros := by
  show i.micros / 1000 * 1000 ≤ j.micros / 1000 * 1000
  omega

/-- No whole millisecond lies between a moment and what it is cut to. -/
theorem le_truncate {i j : Instant} (hw : i.IsWhole) (h : i.micros ≤ j.micros) :
    i.micros ≤ j.truncate.micros := by
  have hc := truncate_mono h
  rwa [show i.truncate = i from hw] at hc

end Instant

/-- So many milliseconds after the usual start of a clock. -/
def later (millis : Nat) (h : 63839664000000000 + millis * 1000 < calendarMicros := by decide) : Instant :=
  ⟨63839664000000000 + millis * 1000, h⟩

/-! ## Readings of a clock -/

/-- The moment of a date and time stands where its position tells. -/
theorem DateTime.toUtc_position {t : DateTime} {i : Instant} (h : t.toUtc = .ok i) : (i.micros : Int) = t.position := by
  obtain ⟨wall, offset⟩ := t
  cases offset with
  | some o =>
    simp only [toUtc, Instant.ofMicros] at h
    split at h
    · cases h
      simp only [position, Option.getD_some]
      omega
    · cases h
  | none =>
    simp only [toUtc] at h
    split at h
    · cases h
    · cases h
      simp [position]

namespace GivenTime

/-- **What a reading is cut to**: a whole millisecond that does not lie after the reading. -/
theorem truncate_time {t : DateTime} {i : Instant} (h : (GivenTime.time t).truncate = .ok i) :
    i.IsWhole ∧ (i.micros : Int) ≤ t.position := by
  obtain ⟨j, hj, rfl⟩ := Except.map_ok (Except.mapError_ok h)
  have hp := DateTime.toUtc_position hj
  have hle := Instant.truncate_le j
  exact ⟨j.truncate_whole, by omega⟩

/-- Whatever is cut to milliseconds is whole. -/
theorem truncate_isWhole {g : GivenTime} {i : Instant} (h : g.truncate = .ok i) : i.IsWhole := by
  rcases g.dateTime?_cases with ⟨t, ht⟩ | ⟨v, rfl⟩
  · rw [truncate_dateTime ht] at h
    exact (truncate_time h).1
  · cases h

/-- ... and no whole millisecond lies between the two. -/
theorem le_of_whole {t : DateTime} {i j : Instant} (h : (GivenTime.time t).truncate = .ok i) (hw : j.IsWhole)
    (hj : (j.micros : Int) ≤ t.position) : j.micros ≤ i.micros := by
  obtain ⟨k, hk, rfl⟩ := Except.map_ok (Except.mapError_ok h)
  have hp := DateTime.toUtc_position hk
  exact Instant.le_truncate hw (by omega)

/-- **What is shown is moved on by a duration**, and it has a distance from UTC if it had one; in a zone it may be another one. -/
theorem add_dateTime {g g' : GivenTime} {t : DateTime} {d : Duration} (h : g.dateTime? = some t) (hadd : g.add d = .ok g') :
    ∃ t', g'.dateTime? = some t' ∧ t.wall.add d = .ok t'.wall ∧ t'.isAware = t.isAware := by
  cases g with
  | other v => cases h
  | time t =>
    cases h
    obtain ⟨t', ht', rfl⟩ := Except.map_ok (Except.mapError_ok hadd)
    obtain ⟨wall, hwall, rfl⟩ := Except.map_ok ht'
    exact ⟨_, rfl, hwall, rfl⟩
  | zoned t =>
    cases h
    obtain ⟨t', ht', rfl⟩ := Except.map_ok (Except.mapError_ok hadd)
    obtain ⟨wall, hwall, rfl⟩ := Except.map_ok ht'
    exact ⟨_, rfl, hwall, rfl⟩

@[simp] theorem isNone_moment (i : Instant) : (moment i).isNone = false := rfl

/-- Two moments are compared by their microseconds. -/
@[simp] theorem isBefore_moment (i j : Instant) :
    (moment i).isBefore (.utc j) = .ok (decide (i.micros < j.micros)) := by
  have h : DateTime.before (.utc i) (.utc j) = .ok (decide (i.micros < j.micros)) := by
    simp [DateTime.before, DateTime.isAware, DateTime.utc, DateTime.position]
  show (DateTime.before (.utc i) (.utc j)).mapError Error.time = _
  rw [h]
  rfl

end GivenTime

/-! ## Claims -/

namespace Claim

/-- A claim made of whole moments only. -/
structure IsWhole (c : Claim) : Prop where
  atMost : c.atMost.IsWhole
  atLeast : c.atLeast.IsWhole
  takenAt : c.takenAt.IsWhole

theorem ofInstants_parts {name : { name : String // name ≠ "" }} {atMost atLeast takenAt : Instant} {c : Claim}
    (h : ofInstants name atMost atLeast takenAt = .ok c) :
    c.name = name.1 ∧ c.atMost = atMost ∧ c.atLeast = atLeast ∧ c.takenAt = takenAt := by
  simp only [ofInstants] at h
  split at h
  · cases h
  split at h
  · cases h
  · cases h
    exact ⟨rfl, rfl, rfl, rfl⟩

/-- A deadline that was cut is a whole moment. -/
theorem truncate_whole {t : DateTime} {i : Instant} (h : t.truncate.mapError Error.time = .ok i) : i.IsWhole := by
  obtain ⟨j, -, rfl⟩ := Except.map_ok (Except.mapError_ok h)
  exact j.truncate_whole

/-- The steps that a claim comes from. -/
theorem ofGiven_parts {now : GivenTime} {name : Value} {atMost atLeast : GivenTime} {c : Claim}
    (h : ofGiven now name atMost atLeast = .ok c) :
    now.truncate = .ok c.takenAt ∧ name = .text c.name ∧ c.atMost.IsWhole ∧ c.atLeast.IsWhole := by
  obtain ⟨takenAt, hnow, h⟩ := Except.bind_ok h
  obtain ⟨n, hname, h⟩ := Except.bind_ok h
  obtain ⟨most, -, h⟩ := Except.bind_ok h
  obtain ⟨least, -, h⟩ := Except.bind_ok h
  obtain ⟨mostCut, hmost, h⟩ := Except.bind_ok h
  obtain ⟨leastCut, hleast, h⟩ := Except.bind_ok h
  obtain ⟨h1, h2, h3, h4⟩ := ofInstants_parts (Except.mapError_ok h)
  refine ⟨h4 ▸ hnow, ?_, h2 ▸ truncate_whole hmost, h3 ▸ truncate_whole hleast⟩
  cases name with
  | text s =>
    simp only [nameOf] at hname
    split at hname
    · cases hname
    · cases hname
      rw [h1]
  | _ => cases hname

/-- A deadline that can be used is the date and time that was given. -/
theorem deadline_dateTime {which : Deadline} {given : GivenTime} {t : DateTime} (h : deadline which given = .ok t) :
    given.dateTime? = some t := by
  cases given with
  | other v => cases h
  | zoned t' =>
    cases h
    rfl
  | time t' =>
    simp only [deadline] at h
    split at h
    · cases h
      rfl
    · cases h

/-- The ceiling of a claim is the one that was given, cut to milliseconds. -/
theorem ofGiven_ceiling {now : GivenTime} {name : Value} {atMost atLeast : GivenTime} {c : Claim}
    (h : ofGiven now name atMost atLeast = .ok c) : atMost.truncate = .ok c.atMost := by
  obtain ⟨takenAt, -, h⟩ := Except.bind_ok h
  obtain ⟨n, -, h⟩ := Except.bind_ok h
  obtain ⟨most, hmost, h⟩ := Except.bind_ok h
  obtain ⟨least, -, h⟩ := Except.bind_ok h
  obtain ⟨mostCut, hcut, h⟩ := Except.bind_ok h
  obtain ⟨leastCut, -, h⟩ := Except.bind_ok h
  obtain ⟨-, hceiling, -, -⟩ := ofInstants_parts (Except.mapError_ok h)
  rw [GivenTime.truncate_dateTime (deadline_dateTime hmost), hceiling]
  exact hcut

/-- **The times of a claim are whole milliseconds.** -/
theorem ofGiven_whole {t : DateTime} {name : Value} {atMost atLeast : GivenTime} {c : Claim}
    (h : ofGiven (.time t) name atMost atLeast = .ok c) : c.IsWhole := by
  obtain ⟨hnow, -, hmost, hleast⟩ := ofGiven_parts h
  exact ⟨hmost, hleast, (GivenTime.truncate_time hnow).1⟩

/-- **A claim is taken when the clock is read**: not later than the reading shows. -/
theorem ofGiven_takenAt {t : DateTime} {name : Value} {atMost atLeast : GivenTime} {c : Claim}
    (h : ofGiven (.time t) name atMost atLeast = .ok c) : (c.takenAt.micros : Int) ≤ t.position :=
  (GivenTime.truncate_time (ofGiven_parts h).1).2

end Claim
end Leasehold
