/-
  What the two conditional writes do to a store in memory.

  Whoever reasons about runs over this store needs to know three things of it, and never opens it again:

  1. **`endOf`** — the view: when the record of a name ends, if there is one.  A write changes the view of its own name
     and of no other (`endOf_put_self`, `endOf_put_other`);
  2. **`Effect`** — the four things that a write on its way can come to: it is applied, it is refused because its
     condition does not hold, or trouble makes it fail or hang.  Only an applied write touches the records;
  3. **`acquire_effect`, `release_effect`** — the condition and the record of each of the two writes: an acquire needs a
     record that has run out by the time of its claim, a release one that ends at the lease's own ceiling.
-/
import Leasehold.Lock.Acquire
import Leasehold.Lock.Release
import Leasehold.Proofs.Moments
import Leasehold.Store.Memory
namespace Leasehold

/-! ## Keys that are texts -/

/-- Only a text names the same entry as a text. -/
theorem Value.eq_of_sameKey_text {k : Value} {s : String} (h : k.sameKey (.text s) = true) : k = .text s := by
  cases k with
  | text t =>
    rw [sameKey_text] at h
    rw [eq_of_beq h]
  | null => cases h
  | bool b => cases b <;> cases h
  | int i => cases h
  | real x => cases x <;> cases h
  | list items => cases h
  | object fields => cases h

@[simp] theorem Value.sameKey_text_self (s : String) : (Value.text s).sameKey (.text s) = true := by
  simp [sameKey_text]

namespace Memory

/-! ## Trouble -/

/-- What may befall a store: its next requests fail, or hang. -/
inductive Trouble where
  | failing (count : Int)
  | hanging (count : Int)

namespace Trouble

/-- Tells a store to make trouble. -/
def befall : Trouble → Memory → Memory
  | failing count, m => m.failNext count
  | hanging count, m => m.hangNext count

theorem befall_records (t : Trouble) (m : Memory) : (t.befall m).records = m.records := by
  cases t <;> rfl

end Trouble

/-! ## Records by name -/

/-- When the record of a name ends, if there is one. -/
def endOf (m : Memory) (name : String) : Option Instant := (m.find? (.text name)).map (·.lockUntil)

theorem find_put_self (s : String) (r : LeaseRecord) (rs : List (Value × LeaseRecord)) :
    ((putRecord (.text s) r rs).find? (·.1.sameKey (.text s))).map (·.2) = some r := by
  induction rs with
  | nil => simp [putRecord]
  | cons p rest ih =>
    obtain ⟨k, q⟩ := p
    by_cases hk : k.sameKey (.text s) = true
    · simp [putRecord, hk]
    · simp only [putRecord, hk, Bool.false_eq_true, if_false, List.find?_cons]
      exact ih

theorem find_put_other {s t : String} (hne : t ≠ s) (r : LeaseRecord) (rs : List (Value × LeaseRecord)) :
    (putRecord (.text s) r rs).find? (·.1.sameKey (.text t)) = rs.find? (·.1.sameKey (.text t)) := by
  have hst : (Value.text s).sameKey (.text t) = false := by
    rw [Value.sameKey_text]
    exact beq_false_of_ne (Ne.symm hne)
  induction rs with
  | nil => simp [putRecord, hst]
  | cons p rest ih =>
    obtain ⟨k, q⟩ := p
    by_cases hk : k.sameKey (.text s) = true
    · -- the entry that was replaced has the key `s`, and is passed over in the search for `t`
      obtain rfl := Value.eq_of_sameKey_text hk
      simp [putRecord, hst]
    · simp only [putRecord, hk, Bool.false_eq_true, if_false, List.find?_cons, ih]

/-- A store after a record was put into it. -/
def put (m : Memory) (name : String) (r : LeaseRecord) : Memory :=
  { m with records := putRecord (.text name) r m.records, writesApplied := m.writesApplied + 1 }

@[simp] theorem endOf_put_self (m : Memory) (name : String) (r : LeaseRecord) :
    (m.put name r).endOf name = some r.lockUntil := by
  have h := find_put_self name r m.records
  simp only [endOf, find?, put]
  rw [h]
  rfl

theorem endOf_put_other {name other : String} (hne : other ≠ name) (m : Memory) (r : LeaseRecord) :
    (m.put name r).endOf other = m.endOf other := by
  simp only [endOf, find?, put, find_put_other hne]

theorem endOf_congr {m m' : Memory} (h : m'.records = m.records) : m'.endOf = m.endOf := by
  funext name
  simp only [endOf, find?, h]

@[simp] theorem lookup_text (m : Memory) (s : String) : m.lookup (.text s) = .ok (m.find? (.text s)) := rfl

/-! ## The way to the store -/

/-- **What a write on its way comes to**: the store afterwards and the outcome, for a write of a record `r` under a
condition. -/
inductive Effect (m : Memory) (name : String) (r : LeaseRecord) (condition : Prop) :
    Memory → Outcome LeaseRecord → Prop where
  | applied (way : m.pass = (m, .through)) (holds : condition) : Effect m name r condition (m.put name r) (.answered r)
  | refused (way : m.pass = (m, .through)) (fails : ¬condition) :
      Effect m name r condition { m with conditionsFailed := m.conditionsFailed + 1 }
        (.failed (.conditionNotMet (.text name) .store))
  | lost (way : m.pass.2 = .lost) : Effect m name r condition m.pass.1 (.failed .injected)
  | stuck (way : m.pass.2 = .stuck) : Effect m name r condition m.pass.1 .silent

theorem pass_through {m : Memory} (h : m.pass.2 = .through) : m.pass = (m, .through) := by
  simp only [pass] at h ⊢
  split
  · rename_i hh
    rw [if_pos hh] at h
    cases h
  · rename_i hh
    rw [if_neg hh] at h
    split
    · rename_i hf
      rw [if_pos hf] at h
      cases h
    · rfl

/-- What the way of the next request depends on. -/
theorem pass_way (m : Memory) :
    m.pass.2 = if m.hanging ≠ 0 then .stuck else if m.failing ≠ 0 then .lost else .through := by
  simp only [pass, apply_ite Prod.snd]

/-- A record that is put does not stand in the way. -/
theorem pass_put (m : Memory) (name : String) (r : LeaseRecord) : (m.put name r).pass.2 = m.pass.2 := by
  rw [pass_way, pass_way]
  rfl

/-- The way of a request changes no record. -/
theorem pass_records (m : Memory) : m.pass.1.records = m.records := by
  simp only [pass]
  split
  · rfl
  split <;> rfl

/-- A write whose decision is known has one of the four effects. -/
theorem write_effect {work : Memory → Memory × Except Error LeaseRecord} {name : String} {r : LeaseRecord}
    {condition : Prop} [Decidable condition] {w : World Memory}
    (hwork : work w.store =
      w.store.apply (.text name) (.ok (if condition then .written r else .rejected))) :
    Effect w.store name r condition (write work w).1.store (write work w).2 := by
  cases hp : w.store.pass with
  | mk m' p =>
    simp only [write, transport, hp]
    cases p with
    | through =>
      have hm : w.store.pass = (w.store, .through) := pass_through (by rw [hp])
      obtain rfl : w.store = m' := (Prod.ext_iff.mp (hm.symm.trans hp)).1
      by_cases hc : condition
      · rw [if_pos hc] at hwork
        simp only [hwork, apply]
        exact .applied hm hc
      · rw [if_neg hc] at hwork
        simp only [hwork, apply]
        exact .refused hm hc
    | lost =>
      have h : Effect w.store name r condition w.store.pass.1 (.failed .injected) := .lost (by rw [hp])
      rw [hp] at h
      exact h
    | stuck =>
      have h : Effect w.store name r condition w.store.pass.1 .silent := .stuck (by rw [hp])
      rw [hp] at h
      exact h

namespace Effect

variable {m m' : Memory} {name : String} {r : LeaseRecord} {condition : Prop} {o : Outcome LeaseRecord}

/-- **Either the write was applied**, its condition held, and the record is the answer, **or there is no answer** and the
records are what they were. -/
theorem applied_or_not (h : Effect m name r condition m' o) :
    (condition ∧ o = .answered r ∧ m' = m.put name r) ∨ ((∀ a, o ≠ .answered a) ∧ m'.records = m.records) := by
  cases h with
  | applied way holds => exact Or.inl ⟨holds, rfl, rfl⟩
  | refused => exact Or.inr ⟨nofun, rfl⟩
  | lost => exact Or.inr ⟨nofun, m.pass_records⟩
  | stuck => exact Or.inr ⟨nofun, m.pass_records⟩

/-- Whose condition holds is answered, if its way is clear. -/
theorem of_holds (h : Effect m name r condition m' o) (hc : condition) (hway : m.pass.2 = .through) : o = .answered r := by
  cases h with
  | applied way holds => rfl
  | refused way fails => exact absurd hc fails
  | lost way =>
    rw [hway] at way
    cases way
  | stuck way =>
    rw [hway] at way
    cases way

/-- Whose condition does not hold changes no record, and is told so unless trouble is on its way. -/
theorem of_not (h : Effect m name r condition m' o) (hc : ¬condition) :
    m'.records = m.records ∧ (m.pass.2 = .through → o = .failed (.conditionNotMet (.text name) .store)) := by
  cases h with
  | applied way holds => exact absurd holds hc
  | refused => exact ⟨rfl, fun _ => rfl⟩
  | lost way => exact ⟨m.pass_records, fun hp => by rw [way] at hp; cases hp⟩
  | stuck way => exact ⟨m.pass_records, fun hp => by rw [way] at hp; cases hp⟩

end Effect

end Memory

/-! ## Decisions on moments -/

namespace Decision

/-- A decision on moments is made without a failure, the one on an acquire -/
theorem forAcquire_moments (existing : Option LeaseRecord) (name who : Value) (u s a : Instant) :
    ∃ d, forAcquire existing ⟨name, .moment u, .moment s, who, .moment a⟩ = .ok d := by
  simp only [forAcquire, GivenTime.truncate_moment, GivenTime.isBefore_moment]
  cases existing with
  | none => exact ⟨_, rfl⟩
  | some r =>
    by_cases hlt : a.micros < r.lockUntil.micros
    · exact ⟨.rejected, by simp [hlt, bind, Except.bind, pure, Except.pure]⟩
    · exact ⟨_, by simp [hlt, bind, Except.bind, pure, Except.pure]; rfl⟩

/-- as well as the one on a release, whether it has a condition or not. -/
theorem forRelease_moments (existing : Option LeaseRecord) (name : Value) (u : Instant) {held : GivenTime}
    (h : held = .none ∨ ∃ i, held = .moment i) : ∃ d, forRelease existing ⟨name, .moment u, held⟩ = .ok d := by
  have hmay : ∃ may, mayRelease existing held = .ok may := by
    rcases h with rfl | ⟨i, rfl⟩
    · exact ⟨true, rfl⟩
    · cases existing with
      | none => exact ⟨false, rfl⟩
      | some r => exact ⟨_, by simp only [mayRelease, GivenTime.truncate_moment]; rfl⟩
  obtain ⟨may, hmay⟩ := hmay
  simp only [forRelease, hmay, GivenTime.truncate_moment]
  cases may <;> exact ⟨_, rfl⟩

end Decision

/-! ## The acquire -/

/-- The record that a claim writes. -/
def Claim.record (c : Claim) (lockedBy : Value) : LeaseRecord :=
  ⟨.text c.name, c.atMost, some c.takenAt, lockedBy⟩

namespace Memory

/-- **A name is free** at a moment if its record, where there is one, has run out by then. -/
def Free (m : Memory) (name : String) (t : Instant) : Prop := ∀ e, m.endOf name = some e → e.micros ≤ t.micros

instance (m : Memory) (name : String) (t : Instant) : Decidable (m.Free name t) :=
  match h : m.endOf name with
  | none => isTrue fun e he => by rw [h] at he; cases he
  | some e =>
    if hle : e.micros ≤ t.micros then isTrue fun e' he => by rw [h] at he; cases he; exact hle
    else isFalse fun hall => hle (hall e h)

theorem decision_acquire {c : Claim} (hc : c.IsWhole) (lockedBy : Value) (m : Memory) :
    (do Decision.forAcquire (← m.lookup (.text c.name)) (c.request lockedBy))
      = .ok (if m.Free c.name c.takenAt then .written (c.record lockedBy) else .rejected) := by
  have hmost : (GivenTime.moment c.atMost).truncate = .ok c.atMost := by
    rw [GivenTime.truncate_moment, show c.atMost.truncate = c.atMost from hc.atMost]
  have htaken : (GivenTime.moment c.takenAt).truncate = .ok c.takenAt := by
    rw [GivenTime.truncate_moment, show c.takenAt.truncate = c.takenAt from hc.takenAt]
  simp only [lookup_text, bind, Except.bind, Decision.forAcquire, Claim.request, hmost, htaken, pure, Except.pure]
  cases hf : m.find? (.text c.name) with
  | none =>
    have hfree : m.Free c.name c.takenAt := by
      intro e he
      simp [endOf, hf] at he
    simp [hfree, Claim.record]
  | some r =>
    have hend : m.endOf c.name = some r.lockUntil := by simp [endOf, hf]
    simp only [GivenTime.isBefore_moment, decide_eq_true_eq]
    by_cases hlt : c.takenAt.micros < r.lockUntil.micros
    · have hfree : ¬m.Free c.name c.takenAt := fun h => absurd (h _ hend) (by omega)
      simp [hlt, hfree]
    · have hfree : m.Free c.name c.takenAt := by
        intro e he
        rw [hend] at he
        cases he
        omega
      simp [hlt, hfree, Claim.record]

/-- **The write of an acquire**: it is applied if the name is free at the time of the claim. -/
theorem acquire_effect {c : Claim} (hc : c.IsWhole) (lockedBy : Value) (w : World Memory) :
    Effect w.store c.name (c.record lockedBy) (w.store.Free c.name c.takenAt)
      (store.tryUpdate (c.request lockedBy) w).1.store (store.tryUpdate (c.request lockedBy) w).2 := by
  refine write_effect ?_
  show w.store.apply (.text c.name) _ = _
  rw [← decision_acquire hc lockedBy w.store]
  rfl

end Memory

/-! ## The release -/

/-- A lease made of whole moments only. -/
structure Lease.IsWhole (l : Lease) : Prop where
  atMost : l.atMost.IsWhole
  atLeast : l.atLeast.IsWhole

namespace Lease

/-- A lease is not given back before now. -/
theorem le_releaseUntil (l : Lease) (now : Instant) : now.micros ≤ (l.releaseUntil now).micros := by
  simp only [releaseUntil]
  split <;> omega

/-- ... and not before its floor. -/
theorem floor_le_releaseUntil (l : Lease) (now : Instant) : l.atLeast.micros ≤ (l.releaseUntil now).micros := by
  simp only [releaseUntil]
  split <;> omega

/-- It is the later one of the two. -/
theorem releaseUntil_micros (l : Lease) (now : Instant) :
    (l.releaseUntil now).micros = max now.micros l.atLeast.micros := by
  rw [releaseUntil]
  split <;> omega

theorem IsWhole.releaseUntil {l : Lease} (hl : l.IsWhole) {now : Instant} (hn : now.IsWhole) :
    (l.releaseUntil now).IsWhole := by
  simp only [Lease.releaseUntil]
  split
  · exact hl.atLeast
  · exact hn

end Lease

/-- The record that a release leaves: only its end is another one. -/
def Memory.released (m : Memory) (l : Lease) (lockUntil : Instant) : LeaseRecord :=
  { name := .text l.name
    lockUntil
    lockedAt := (m.find? (.text l.name)).bind (·.lockedAt)
    lockedBy := ((m.find? (.text l.name)).map (·.lockedBy)).getD .null }

namespace Memory

theorem decision_release {l : Lease} (hl : l.IsWhole) {lockUntil : Instant} (hu : lockUntil.IsWhole) (m : Memory) :
    (do Decision.forRelease (← m.lookup (.text l.name)) (l.releaseRequest lockUntil))
      = .ok (if m.endOf l.name = some l.atMost then .written (m.released l lockUntil) else .rejected) := by
  have hmost : (GivenTime.moment l.atMost).truncate = .ok l.atMost := by
    rw [GivenTime.truncate_moment, show l.atMost.truncate = l.atMost from hl.atMost]
  have huntil : (GivenTime.moment lockUntil).truncate = .ok lockUntil := by
    rw [GivenTime.truncate_moment, show lockUntil.truncate = lockUntil from hu]
  simp only [lookup_text, bind, Except.bind, Decision.forRelease, Lease.releaseRequest, Decision.mayRelease,
    GivenTime.isNone_moment, hmost, huntil, pure, Except.pure, Bool.false_eq_true, if_false]
  cases hf : m.find? (.text l.name) with
  | none => simp [endOf, hf]
  | some r =>
    by_cases he : r.lockUntil = l.atMost
    · simp [endOf, hf, he, Except.map, released]
    · simp [endOf, hf, he, Except.map]

/-- **The write of a release**: it is applied if the record ends at the lease's own ceiling. -/
theorem release_effect {l : Lease} (hl : l.IsWhole) {lockUntil : Instant} (hu : lockUntil.IsWhole)
    (w : World Memory) :
    Effect w.store l.name (w.store.released l lockUntil) (w.store.endOf l.name = some l.atMost)
      (store.update (l.releaseRequest lockUntil) w).1.store (store.update (l.releaseRequest lockUntil) w).2 := by
  refine write_effect ?_
  show w.store.apply (.text l.name) _ = _
  rw [← decision_release hl hu w.store]
  rfl

end Memory
end Leasehold
