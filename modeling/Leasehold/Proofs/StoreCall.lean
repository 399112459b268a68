/-
  One call after another on a store of lease records.

  Every store has to do what the store in memory does, and each has its own way of keeping records.  What the stores have
  in common is told here once, so that about each of them only one call has to be followed:

  1. **`StoreCall`** — a call: an acquire, a release with or without a condition, or a look at a record.  Its times are
     dates and times at any distance from UTC (`StoreCall DateTime`), or the whole milliseconds that a store cuts them to
     (`StoreCall Instant`); `CutsTo` leads from the one to the other, and finds them for every `Legible` call.
  2. **`StoreCall.step`** — THE CONTRACT: from the record that a name has, what the call answers and the record that the
     name has afterwards.  It knows of no map, no text and no request.
  3. **`Follows`** — a store keeps to the contract, if each call does to the entry of its own name what `step` tells and
     leaves the entries of other names alone.  An entry is told by a relation (`Shows`), since a store may keep a record
     in a form of its own.
  4. **`Follows.agree`** — two stores that keep to the contract and start with the same entries answer every sequence of
     calls in the same way.  The induction is over the calls, `Follows.step` being its one step.

  The store in memory keeps to the contract (`Memory.follows`).
-/
import Leasehold.Proofs.Serving
namespace Leasehold

/-! ## Times -/

/-- Cutting a moment to milliseconds leaves its date. -/
theorem Instant.date_truncate (i : Instant) : i.truncate.date = i.date := by
  have hday : i.micros / 1000 * 1000 / dayMicros = i.micros / dayMicros := by
    simp only [dayMicros]
    omega
  show Calendar.dateOf (i.micros / 1000 * 1000 / dayMicros) = Calendar.dateOf (i.micros / dayMicros)
  rw [hday]

namespace DateTime

/-- **A date and time that a store can write down and read back**: its distance from UTC is known, and in UTC it falls
into a year of four digits. -/
def Legible (t : DateTime) : Prop := t.isAware = true ∧ ∃ i, t.toUtc = .ok i ∧ i.Legible

instance (t : DateTime) : Decidable t.Legible :=
  match h : t.toUtc with
  | .ok i => decidable_of_iff (t.isAware = true ∧ i.Legible)
      ⟨fun ⟨ha, hi⟩ => ⟨ha, i, h, hi⟩, fun ⟨ha, _, hj, hl⟩ => ⟨ha, Except.ok.inj (h.symm.trans hj) ▸ hl⟩⟩
  | .error _ => isFalse fun ⟨_, _, hj, _⟩ => nomatch h.symm.trans hj

/-- The whole millisecond of UTC that a date and time with a known distance is cut to. -/
structure CutsTo (t : DateTime) (i : Instant) : Prop where
  aware : t.isAware = true
  cut : t.truncate = .ok i
  legible : i.Legible

theorem Legible.cutsTo {t : DateTime} (h : t.Legible) : ∃ i, t.CutsTo i := by
  obtain ⟨haware, i, hi, hlegible⟩ := h
  refine ⟨i.truncate, haware, ?_, ?_⟩
  · rw [truncate, hi]
    rfl
  · rwa [Instant.Legible, Instant.date_truncate]

namespace CutsTo

variable {t : DateTime} {i : Instant}

theorem truncate_time (h : t.CutsTo i) : (GivenTime.time t).truncate = .ok i := by
  show t.truncate.mapError Error.time = .ok i
  rw [h.cut]
  rfl

theorem isWhole (h : t.CutsTo i) : i.IsWhole := (GivenTime.truncate_time h.truncate_time).1

theorem timestamp_time (h : t.CutsTo i) : (GivenTime.time t).timestamp = .ok i.timestamp := by
  rw [GivenTime.timestamp, h.truncate_time]
  rfl

/-- **A whole millisecond comes after a date and time just if it comes after what that is cut to.** -/
theorem isBefore_time (h : t.CutsTo i) {u : Instant} (hu : u.IsWhole) :
    (GivenTime.time t).isBefore (.utc u) = .ok (decide (i.micros < u.micros)) := by
  have hle : (i.micros : Int) ≤ t.position := (GivenTime.truncate_time h.truncate_time).2
  -- what is whole and not after the time is not after what it is cut to
  have hge : (u.micros : Int) ≤ t.position → u.micros ≤ i.micros := GivenTime.le_of_whole h.truncate_time hu
  have hu' : (DateTime.utc u).position = u.micros := by simp [position, utc]
  have hiff : t.position < (DateTime.utc u).position ↔ i.micros < u.micros := by
    rw [hu']
    rcases Int.lt_or_le t.position u.micros with hlt | hnot
    · exact ⟨fun _ => by omega, fun _ => hlt⟩
    · have hback := hge hnot
      exact ⟨fun hlt => by omega, fun hlt => by omega⟩
  have hboth : t.isAware = (DateTime.utc u).isAware := h.aware
  show (DateTime.before t (.utc u)).mapError Error.time = _
  simp only [before, hboth, if_true, hiff]
  rfl

end CutsTo
end DateTime

/-! ## Calls -/

/-- **A call on a store**, its times of one kind or another. -/
inductive StoreCall (τ : Type) where
  | acquire (name : String) (lockUntil lockedAt : τ) (lockedBy : String) (availableAt : τ)
  | release (name : String) (lockUntil : τ) (heldUntil : Option τ)
  | look (name : String)

namespace StoreCall

/-- The name that a call is about. -/
def name {τ : Type} : StoreCall τ → String
  | acquire name _ _ _ _ => name
  | release name _ _ => name
  | look name => name

/-- The times of a call. -/
def times {τ : Type} : StoreCall τ → List τ
  | acquire _ lockUntil lockedAt _ availableAt => [lockUntil, lockedAt, availableAt]
  | release _ lockUntil heldUntil => lockUntil :: heldUntil.toList
  | look _ => []

/-- All times of a call can be written down and read back. -/
def Legible (c : StoreCall DateTime) : Prop := ∀ t ∈ c.times, t.Legible

instance (c : StoreCall DateTime) : Decidable c.Legible := inferInstanceAs (Decidable (∀ t ∈ c.times, t.Legible))

/-- The condition of a release, if it has one, with its time cut. -/
inductive CutsHeld : Option DateTime → Option Instant → Prop where
  | none : CutsHeld none none
  | some {t : DateTime} {i : Instant} (cut : t.CutsTo i) : CutsHeld (some t) (some i)

/-- A call whose times are cut. -/
inductive CutsTo : StoreCall DateTime → StoreCall Instant → Prop where
  | acquire {name lockedBy : String} {t s a : DateTime} {u at' now : Instant} (lockUntil : t.CutsTo u)
      (lockedAt : s.CutsTo at') (availableAt : a.CutsTo now) :
      CutsTo (.acquire name t s lockedBy a) (.acquire name u at' lockedBy now)
  | release {name : String} {t : DateTime} {u : Instant} {h : Option DateTime} {held : Option Instant}
      (lockUntil : t.CutsTo u) (heldUntil : CutsHeld h held) : CutsTo (.release name t h) (.release name u held)
  | look {name : String} : CutsTo (.look name) (.look name)

theorem Legible.cutsTo {c : StoreCall DateTime} (h : c.Legible) : ∃ d, c.CutsTo d := by
  cases c with
  | acquire name lockUntil lockedAt lockedBy availableAt =>
    obtain ⟨u, hu⟩ := (h lockUntil (by simp [times])).cutsTo
    obtain ⟨at', hat⟩ := (h lockedAt (by simp [times])).cutsTo
    obtain ⟨now, hnow⟩ := (h availableAt (by simp [times])).cutsTo
    exact ⟨_, .acquire hu hat hnow⟩
  | release name lockUntil heldUntil =>
    obtain ⟨u, hu⟩ := (h lockUntil (by simp [times])).cutsTo
    cases heldUntil with
    | none => exact ⟨_, .release hu .none⟩
    | some t =>
      obtain ⟨held, hheld⟩ := (h t (by simp [times])).cutsTo
      exact ⟨_, .release hu (.some hheld)⟩
  | look name => exact ⟨_, .look⟩

theorem CutsTo.name_eq {c : StoreCall DateTime} {d : StoreCall Instant} (h : c.CutsTo d) : d.name = c.name := by
  cases h <;> rfl

/-! ## The contract -/

/-- What a refused call is told. -/
def refusal (name : String) : Outcome (Option LeaseRecord) := .failed (.conditionNotMet (.text name) .store)

/-- The record that a release leaves, whatever record it finds. -/
def moved (name : String) (existing : Option LeaseRecord) (lockUntil : Instant) : LeaseRecord :=
  { name := .text name
    lockUntil
    lockedAt := existing.bind (·.lockedAt)
    lockedBy := (existing.map (·.lockedBy)).getD .null }

/-- A record is written, unless the condition fails. -/
def stepIf (condition : Prop) [Decidable condition] (name : String) (existing : Option LeaseRecord) (r : LeaseRecord) :
    Option LeaseRecord × Outcome (Option LeaseRecord) :=
  if condition then (some r, .answered (some r)) else (existing, refusal name)

/-- A record ends by a moment. -/
def EndsBy (existing : Option LeaseRecord) (now : Instant) : Prop := ∀ r ∈ existing, r.lockUntil.micros ≤ now.micros

instance (existing : Option LeaseRecord) (now : Instant) : Decidable (EndsBy existing now) :=
  inferInstanceAs (Decidable (∀ r ∈ existing, r.lockUntil.micros ≤ now.micros))

/-- There is a record, and it ends at the moment that is asked for, if one is. -/
def EndsAt (existing : Option LeaseRecord) (held : Option Instant) : Prop :=
  ∀ h ∈ held, existing.map (·.lockUntil) = some h

instance (existing : Option LeaseRecord) (held : Option Instant) : Decidable (EndsAt existing held) :=
  inferInstanceAs (Decidable (∀ h ∈ held, existing.map (·.lockUntil) = some h))

/-- **The contract**: from the record of a name, the record afterwards and the answer. -/
def step (existing : Option LeaseRecord) : StoreCall Instant → Option LeaseRecord × Outcome (Option LeaseRecord)
  | acquire name lockUntil lockedAt lockedBy availableAt =>
    stepIf (EndsBy existing availableAt) name existing ⟨.text name, lockUntil, some lockedAt, .text lockedBy⟩
  | release name lockUntil heldUntil => stepIf (EndsAt existing heldUntil) name existing (moved name existing lockUntil)
  | look _ => (existing, .answered existing)

/-- A call is answered, or told that its condition does not hold. -/
theorem step_outcome (existing : Option LeaseRecord) (d : StoreCall Instant) :
    (∃ e, (d.step existing).2 = .answered e) ∨ (d.step existing).2 = refusal d.name := by
  have hif : ∀ (condition : Prop) [Decidable condition] (name : String) (r : LeaseRecord),
      (∃ e, (stepIf condition name existing r).2 = .answered e) ∨ (stepIf condition name existing r).2 = refusal name := by
    intro condition _ name r
    rw [stepIf]
    split
    · exact Or.inl ⟨_, rfl⟩
    · exact Or.inr rfl
  cases d with
  | acquire name lockUntil lockedAt lockedBy availableAt => exact hif _ _ _
  | release name lockUntil heldUntil => exact hif _ _ _
  | look name => exact Or.inl ⟨_, rfl⟩

end StoreCall

/-! ## Stores that keep to the contract -/

namespace LeaseStore

variable {σ τ : Type}

/-- The condition of a release as it is handed to a store. -/
def held : Option DateTime → GivenTime
  | some t => .time t
  | none => .none

/-- **A store serves a call.** -/
def serve (S : LeaseStore σ) (w : World σ) : StoreCall DateTime → World σ × Outcome (Option LeaseRecord)
  | .acquire name lockUntil lockedAt lockedBy availableAt =>
    (S.tryUpdate ⟨.text name, .time lockUntil, .time lockedAt, .text lockedBy, .time availableAt⟩ w).map id (·.map some)
  | .release name lockUntil heldUntil =>
    (S.update ⟨.text name, .time lockUntil, held heldUntil⟩ w).map id (·.map some)
  | .look name => S.get (.text name) w

/-- The world after a store has served some calls. -/
def after (S : LeaseStore σ) (w : World σ) (calls : List (StoreCall DateTime)) : World σ :=
  calls.foldl (fun w c => (S.serve w c).1) w

/-- **A store keeps to the contract**, the entry of a name in its state being told by `Shows`. -/
structure Follows (S : LeaseStore σ) (Shows : σ → String → Option LeaseRecord → Prop) : Prop where
  own : ∀ {w : World σ} {c : StoreCall DateTime} {d : StoreCall Instant} {e : Option LeaseRecord}, c.CutsTo d →
    Shows w.store c.name e → Shows (S.serve w c).1.store c.name (d.step e).1 ∧ (S.serve w c).2 = (d.step e).2
  other : ∀ {w : World σ} {c : StoreCall DateTime} {d : StoreCall Instant} {e e' : Option LeaseRecord} {name : String},
    c.CutsTo d → Shows w.store c.name e → name ≠ c.name → Shows w.store name e' → Shows (S.serve w c).1.store name e'

section Agreement

variable {S : LeaseStore σ} {T : LeaseStore τ} {ShowsS : σ → String → Option LeaseRecord → Prop}
  {ShowsT : τ → String → Option LeaseRecord → Prop}

/-- One entry for each name, in the states of two stores. -/
def Alike (ShowsS : σ → String → Option LeaseRecord → Prop) (ShowsT : τ → String → Option LeaseRecord → Prop) (s : σ)
    (t : τ) : Prop :=
  ∀ name, ∃ e, ShowsS s name e ∧ ShowsT t name e

/-- **The same call leaves the entries alike, and has the same outcome**, the one of the contract. -/
theorem Follows.step (hS : S.Follows ShowsS) (hT : T.Follows ShowsT) {v : World σ} {w : World τ}
    (h : Alike ShowsS ShowsT v.store w.store) {c : StoreCall DateTime} (hc : c.Legible) :
    Alike ShowsS ShowsT (S.serve v c).1.store (T.serve w c).1.store ∧
      ∃ d e, d.name = c.name ∧ (S.serve v c).2 = (StoreCall.step e d).2 ∧ (T.serve w c).2 = (StoreCall.step e d).2 := by
  obtain ⟨d, hd⟩ := hc.cutsTo
  obtain ⟨e, hv, hw⟩ := h c.name
  obtain ⟨hv', hvo⟩ := hS.own hd hv
  obtain ⟨hw', hwo⟩ := hT.own hd hw
  refine ⟨fun name => ?_, d, e, hd.name_eq, hvo, hwo⟩
  by_cases hname : name = c.name
  · rw [hname]
    exact ⟨_, hv', hw'⟩
  · obtain ⟨e', hve, hwe⟩ := h name
    exact ⟨e', hS.other hd hv hname hve, hT.other hd hw hname hwe⟩

/-- **Two stores that keep to the contract stay alike** over every sequence of calls. -/
theorem Follows.agree (hS : S.Follows ShowsS) (hT : T.Follows ShowsT) {v : World σ} {w : World τ}
    (h : Alike ShowsS ShowsT v.store w.store) (calls : List (StoreCall DateTime)) (hcalls : ∀ c ∈ calls, c.Legible) :
    Alike ShowsS ShowsT (S.after v calls).store (T.after w calls).store := by
  induction calls generalizing v w with
  | nil => exact h
  | cons c calls ih =>
    have hnext := (hS.step hT h (hcalls c List.mem_cons_self)).1
    exact ih hnext fun c' hc' => hcalls c' (List.mem_cons_of_mem _ hc')

end Agreement
end LeaseStore

/-! ## The store in memory -/

namespace Memory

/-- A store in memory without trouble ahead has a record, which ends on a whole millisecond, or none. -/
structure Shows (m : Memory) (name : String) (e : Option LeaseRecord) : Prop where
  way : m.pass = (m, .through)
  found : m.find? (.text name) = e
  whole : ∀ r ∈ e, r.lockUntil.IsWhole

theorem find_put_text (m : Memory) (name : String) (r : LeaseRecord) : (m.put name r).find? (.text name) = some r :=
  find_put_self name r m.records

theorem find_put_text_other {name other : String} (hne : other ≠ name) (m : Memory) (r : LeaseRecord) :
    (m.put name r).find? (.text other) = m.find? (.text other) := by
  simp only [find?, put, find_put_other hne]

/-- **The condition of an acquire** is the one of the contract. -/
theorem forAcquire_cut {e : Option LeaseRecord} (he : ∀ r ∈ e, r.lockUntil.IsWhole) {name lockedBy : String}
    {t s a : DateTime} {u at' now : Instant} (ht : t.CutsTo u) (hs : s.CutsTo at') (ha : a.CutsTo now) :
    Decision.forAcquire e ⟨.text name, .time t, .time s, .text lockedBy, .time a⟩ =
      .ok (if StoreCall.EndsBy e now then .written ⟨.text name, u, some at', .text lockedBy⟩ else .rejected) := by
  simp only [Decision.forAcquire, bind, Except.bind, ht.truncate_time, hs.truncate_time]
  cases e with
  | none =>
    have hends : StoreCall.EndsBy none now := fun r hr => by cases hr
    rw [if_pos hends]
    rfl
  | some r =>
    simp only [ha.isBefore_time (he r rfl)]
    have hends : StoreCall.EndsBy (some r) now ↔ ¬now.micros < r.lockUntil.micros := by simp [StoreCall.EndsBy]
    by_cases hlt : now.micros < r.lockUntil.micros
    · rw [if_neg (fun h => hends.mp h hlt)]
      simp only [hlt, decide_true, if_true]
      rfl
    · rw [if_pos (hends.mpr hlt)]
      simp only [hlt, decide_false, Bool.false_eq_true, if_false]
      rfl

/-- **The condition of a release** likewise. -/
theorem forRelease_cut (e : Option LeaseRecord) {name : String} {t : DateTime} {u : Instant} (ht : t.CutsTo u)
    {h : Option DateTime} {held : Option Instant} (hh : StoreCall.CutsHeld h held) :
    Decision.forRelease e ⟨.text name, .time t, LeaseStore.held h⟩ =
      .ok (if StoreCall.EndsAt e held then .written (StoreCall.moved name e u) else .rejected) := by
  have hmay : Decision.mayRelease e (LeaseStore.held h) = .ok (decide (StoreCall.EndsAt e held)) := by
    cases hh with
    | none =>
      have hends : StoreCall.EndsAt e none := nofun
      rw [decide_eq_true hends]
      rfl
    | some hcut =>
      cases e with
      | none => simp [Decision.mayRelease, LeaseStore.held, GivenTime.isNone, StoreCall.EndsAt]
      | some r =>
        simp [Decision.mayRelease, LeaseStore.held, GivenTime.isNone, StoreCall.EndsAt, hcut.truncate_time, Except.map]
  simp only [Decision.forRelease, hmay, bind, Except.bind, ht.truncate_time, decide_eq_true_eq]
  split <;> rfl

/-- A store stays without trouble ahead, as long as none is made. -/
theorem pass_congr {m m' : Memory} (h : m.pass = (m, .through)) (hh : m'.hanging = m.hanging)
    (hf : m'.failing = m.failing) : m'.pass = (m', .through) := by
  refine pass_through ?_
  rw [pass_way, hh, hf, ← pass_way, h]

namespace Effect

variable {m m' : Memory} {name : String} {r : LeaseRecord} {condition : Prop} {o : Outcome LeaseRecord}

/-- Without trouble ahead, a write changes the entry of its name as the contract tells, -/
theorem shows_own [Decidable condition] (h : Effect m name r condition m' o) {e : Option LeaseRecord}
    (hm : Shows m name e) (hr : r.lockUntil.IsWhole) :
    Shows m' name (StoreCall.stepIf condition name e r).1 ∧ o.map some = (StoreCall.stepIf condition name e r).2 := by
  rw [StoreCall.stepIf]
  cases h with
  | applied way holds =>
    rw [if_pos holds]
    refine ⟨⟨pass_congr way rfl rfl, find_put_text m name r, fun r' hr' => ?_⟩, rfl⟩
    obtain rfl := Option.some.inj hr'
    exact hr
  | refused way fails =>
    rw [if_neg fails]
    exact ⟨⟨pass_congr way rfl rfl, hm.found, hm.whole⟩, rfl⟩
  | lost way =>
    rw [hm.way] at way
    cases way
  | stuck way =>
    rw [hm.way] at way
    cases way

/-- ... and no other entry. -/
theorem shows_other (h : Effect m name r condition m' o) {other : String} {e : Option LeaseRecord} (hne : other ≠ name)
    (hm : Shows m other e) : Shows m' other e := by
  cases h with
  | applied way holds =>
    exact ⟨pass_congr way rfl rfl, (find_put_text_other hne m r).trans hm.found, hm.whole⟩
  | refused way fails => exact ⟨pass_congr way rfl rfl, hm.found, hm.whole⟩
  | lost way =>
    rw [hm.way] at way
    cases way
  | stuck way =>
    rw [hm.way] at way
    cases way

end Effect

/-- What the two conditional writes come to, for a name whose entry is known. -/
theorem acquire_shows {w : World Memory} {name lockedBy : String} {e : Option LeaseRecord} (h : Shows w.store name e)
    {t s a : DateTime} {u at' now : Instant} (ht : t.CutsTo u) (hs : s.CutsTo at') (ha : a.CutsTo now) :
    Effect w.store name ⟨.text name, u, some at', .text lockedBy⟩ (StoreCall.EndsBy e now)
      (store.tryUpdate ⟨.text name, .time t, .time s, .text lockedBy, .time a⟩ w).1.store
      (store.tryUpdate ⟨.text name, .time t, .time s, .text lockedBy, .time a⟩ w).2 := by
  refine write_effect ?_
  rw [← forAcquire_cut h.whole ht hs ha, ← h.found]
  rfl

theorem release_shows {w : World Memory} {name : String} {e : Option LeaseRecord} (h : Shows w.store name e)
    {t : DateTime} {u : Instant} (ht : t.CutsTo u) {c : Option DateTime} {held : Option Instant}
    (hc : StoreCall.CutsHeld c held) :
    Effect w.store name (StoreCall.moved name e u) (StoreCall.EndsAt e held)
      (store.update ⟨.text name, .time t, LeaseStore.held c⟩ w).1.store
      (store.update ⟨.text name, .time t, LeaseStore.held c⟩ w).2 := by
  refine write_effect ?_
  rw [← forRelease_cut e ht hc, ← h.found]
  rfl

/-- Where nothing is in the way, a write does its work and answers what comes of it, -/
theorem write_through {w : World Memory} (h : w.store.pass = (w.store, .through))
    (work : Memory → Memory × Except Error LeaseRecord) :
    (write work w).1.store = (work w.store).1 ∧ (write work w).2 = .ofExcept (work w.store).2 := by
  simp [write, transport, h]

/-- and a read answers the record. -/
theorem read_through {w : World Memory} {name : String} (h : w.store.pass = (w.store, .through)) :
    (store.get (.text name) w).1.store = w.store ∧ (store.get (.text name) w).2 = .answered (w.store.find? (.text name)) := by
  simp [store, read, transport, h, Outcome.ofExcept]

/-- **The store in memory keeps to the contract.** -/
theorem follows : store.Follows Shows where
  own := by
    intro w c d e hcut h
    cases hcut with
    | acquire ht hs ha => exact (acquire_shows h ht hs ha).shows_own h ht.isWhole
    | release ht hh => exact (release_shows h ht hh).shows_own h ht.isWhole
    | look =>
      obtain ⟨hstore, hread⟩ := read_through h.way
      refine ⟨?_, ?_⟩
      · rw [LeaseStore.serve, hstore]
        exact h
      · rw [LeaseStore.serve, hread]
        exact congrArg Outcome.answered h.found
  other := by
    intro w c d e e' name hcut h hne h'
    cases hcut with
    | acquire ht hs ha => exact (acquire_shows h ht hs ha).shows_other hne h'
    | release ht hh => exact (release_shows h ht hh).shows_other hne h'
    | look =>
      obtain ⟨hstore, -⟩ := read_through h.way
      rw [LeaseStore.serve, hstore]
      exact h'

end Memory
end Leasehold
