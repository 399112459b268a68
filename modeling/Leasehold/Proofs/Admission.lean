/-
  Which arguments of an acquire are admitted.

  An acquire takes anything: values of any kind for the name and the deadlines, times of any zone and of any precision.
  Whether the store hears of it is decided before, from the arguments and ONE reading of the clock.  The decision is told
  here without the steps that the lock goes through, and the two are held against each other.

  1. **`GivenTime.Denotes`, `Admitted`** — a deadline that stands for a moment, and arguments that make sense.  What is
     compared are moments cut to milliseconds, so neither the zone of a deadline nor what is below its millisecond counts;
  2. **`WellKinded`, `Unreachable`** — the kinds are right, and a deadline lies where the calendar of UTC does not reach;
  3. **`Claim.ofGiven_admitted`, `Claim.ofGiven_refused`** — arguments become a claim exactly if they are admitted, and what
     the failure is otherwise;
  4. **`Scene.acquire`** — a lock tries once.  A fleet that is left alone does the same (`Fleet.actAcquire_alone`);
  5. **`Scene.acquire_validates`** — admitted arguments make one call, with the very moments that were compared; others make
     none and leave everything as it was.
-/
import Leasehold.Proofs.Contacts
import Leasehold.Proofs.FleetExecution
namespace Leasehold

/-! ## Deadlines -/

namespace GivenTime

/-- **A time that stands for a moment**: its distance from UTC is known, and the calendar of UTC has the moment. -/
def Denotes (g : GivenTime) (i : Instant) : Prop :=
  ∃ t, g.dateTime? = some t ∧ t.isAware = true ∧ t.toUtc = .ok i

/-- A time stands for one moment at most. -/
theorem Denotes.unique {g : GivenTime} {i j : Instant} (hi : g.Denotes i) (hj : g.Denotes j) : i = j := by
  obtain ⟨t, ht, -, hi⟩ := hi
  obtain ⟨t', ht', -, hj⟩ := hj
  obtain rfl := Option.some.inj (ht.symm.trans ht')
  exact Except.ok.inj (hi.symm.trans hj)

/-- What a time that stands for a moment is cut to. -/
theorem Denotes.truncate {g : GivenTime} {i : Instant} (h : g.Denotes i) : g.truncate = .ok i.truncate := by
  obtain ⟨t, ht, -, hi⟩ := h
  rw [truncate_dateTime ht, DateTime.truncate, hi]
  rfl

end GivenTime

/-- A date and time of a known zone that has no moment lies outside the calendar. -/
theorem DateTime.toUtc_aware {t : DateTime} (haware : t.isAware = true) :
    (∃ i, t.toUtc = .ok i) ∨ t.toUtc = .error .outOfCalendar := by
  obtain ⟨wall, offset⟩ := t
  cases offset with
  | none => cases haware
  | some o =>
    simp only [toUtc, Instant.ofMicros]
    split
    · exact .inl ⟨_, rfl⟩
    · exact .inr rfl

/-! ## Arguments that make sense -/

/-- The floor that is meant: now, unless one is given. -/
def floorMeant (utc : Instant) (atLeast : GivenTime) : GivenTime :=
  if atLeast.isNone then .moment utc.truncate else atLeast

/-- **Arguments that make sense at a moment**: they name a lock and two moments, of which the ceiling lies in a later
millisecond than now, and the floor not in a later one than the ceiling. -/
structure Admitted (utc : Instant) (name : Value) (atMost atLeast : GivenTime) (n : String) (most least : Instant) :
    Prop where
  text : name = .text n
  named : n ≠ ""
  atMost : atMost.Denotes most
  atLeast : (floorMeant utc atLeast).Denotes least
  future : utc.truncate.micros < most.truncate.micros
  ordered : least.truncate.micros ≤ most.truncate.micros

/-- The kinds of the arguments are right: a name, and two times of known zones. -/
structure WellKinded (utc : Instant) (name : Value) (atMost atLeast : GivenTime) : Prop where
  name : ∃ n, name = .text n ∧ n ≠ ""
  atMost : atMost.IsAware
  atLeast : (floorMeant utc atLeast).IsAware

/-- The kinds are right, and the calendar of UTC does not reach one of the deadlines. -/
structure Unreachable (utc : Instant) (name : Value) (atMost atLeast : GivenTime) : Prop where
  kinds : WellKinded utc name atMost atLeast
  missing : (¬∃ i, atMost.Denotes i) ∨ ¬∃ i, (floorMeant utc atLeast).Denotes i

/-! ## What becomes of them -/

namespace Claim

/-- A name is a text with something in it. -/
theorem nameOf_cases (v : Value) :
    (∃ n, ∃ h : n ≠ "", v = .text n ∧ nameOf v = .ok ⟨n, h⟩) ∨
      (¬∃ n, v = .text n ∧ n ≠ "") ∧ nameOf v = .error (.terms .emptyName) := by
  cases v with
  | text s =>
    by_cases h : s = ""
    · refine .inr ⟨?_, by rw [nameOf, dif_pos h]⟩
      rintro ⟨n, hn, hne⟩
      cases hn
      exact hne h
    · exact .inl ⟨s, h, rfl, by rw [nameOf, dif_neg h]⟩
  | _ =>
    refine .inr ⟨?_, rfl⟩
    rintro ⟨n, hn, -⟩
    cases hn

/-- A deadline is a time of a known zone. -/
theorem deadline_cases (which : Deadline) (g : GivenTime) :
    (∃ t, g.dateTime? = some t ∧ t.isAware = true ∧ deadline which g = .ok t) ∨
      ¬g.IsAware ∧ ∃ fault, deadline which g = .error (.terms fault) := by
  cases g with
  | time t =>
    by_cases haware : t.isAware = true
    · exact .inl ⟨t, rfl, haware, by rw [deadline, if_pos haware]⟩
    · refine .inr ⟨?_, .withoutZone which, by rw [deadline, if_neg haware]⟩
      rintro ⟨t', ht, h⟩
      cases ht
      exact haware h
  | zoned t => exact .inl ⟨t.dateTime, rfl, rfl, rfl⟩
  | other v =>
    refine .inr ⟨?_, .notATime which v.kindName, rfl⟩
    rintro ⟨t, ht, -⟩
    cases ht

/-- A deadline of a known zone is cut to milliseconds, if it stands for a moment. -/
theorem cut_cases {g : GivenTime} {t : DateTime} (ht : g.dateTime? = some t) (haware : t.isAware = true) :
    (∃ i, g.Denotes i ∧ t.truncate.mapError Error.time = .ok i.truncate) ∨
      (¬∃ i, g.Denotes i) ∧ t.truncate.mapError Error.time = .error (.time .outOfCalendar) := by
  rcases DateTime.toUtc_aware haware with ⟨i, hi⟩ | herror
  · exact .inl ⟨i, ⟨t, ht, haware, hi⟩, by rw [DateTime.truncate, hi]; rfl⟩
  · refine .inr ⟨?_, by rw [DateTime.truncate, herror]; rfl⟩
    rintro ⟨i, t', ht', -, hi⟩
    obtain rfl := Option.some.inj (ht.symm.trans ht')
    rw [herror] at hi
    cases hi

section

variable {reading : GivenTime} {now : DateTime} {utc : Instant} (hreading : reading.dateTime? = some now)
  (hutc : now.toUtc = .ok utc)
include hreading hutc

/-- The steps that arguments go through at a reading that stands for a moment. -/
theorem ofGiven_reading (name : Value) (atMost atLeast : GivenTime) :
    ofGiven reading name atMost atLeast = (do
      let n ← nameOf name
      let most ← deadline .atMost atMost
      let least ← deadline .atLeast (floorMeant utc atLeast)
      let most ← most.truncate.mapError Error.time
      let least ← least.truncate.mapError Error.time
      (ofInstants n most least utc.truncate).mapError Error.terms) := by
  have hnow : reading.truncate = .ok utc.truncate := by
    rw [GivenTime.truncate_dateTime hreading, DateTime.truncate, hutc]
    rfl
  rw [ofGiven, hnow]
  rfl

variable {name : Value} {atMost atLeast : GivenTime}

/-- **Arguments that are admitted become a claim** with the moments that were compared. -/
theorem ofGiven_admitted {n : String} {most least : Instant} (h : Admitted utc name atMost atLeast n most least) :
    ∃ claim, ofGiven reading name atMost atLeast = .ok claim ∧ claim.name = n ∧ claim.atMost = most.truncate ∧
      claim.atLeast = least.truncate ∧ claim.takenAt = utc.truncate := by
  obtain ⟨rfl, hn, hmost, hleast, hfuture, hordered⟩ := h
  have hdeadline : ∀ (which : Deadline) {g : GivenTime} {i : Instant}, g.Denotes i →
      ∃ t, deadline which g = .ok t ∧ t.truncate.mapError Error.time = .ok i.truncate := by
    intro which g i hi
    rcases deadline_cases which g with ⟨t, ht, -, hok⟩ | ⟨hkind, -⟩
    · exact ⟨t, hok, (GivenTime.truncate_dateTime ht).symm.trans hi.truncate⟩
    · obtain ⟨t, ht, haware, -⟩ := hi
      exact absurd ⟨t, ht, haware⟩ hkind
  obtain ⟨t, ht, hmostCut⟩ := hdeadline .atMost hmost
  obtain ⟨u, hu, hleastCut⟩ := hdeadline .atLeast hleast
  have hinstants : ofInstants ⟨n, hn⟩ most.truncate least.truncate utc.truncate =
      .ok ⟨n, most.truncate, least.truncate, utc.truncate, hn, hfuture, hordered⟩ := by
    rw [ofInstants, dif_neg (Nat.not_le.mpr hfuture), dif_neg (Nat.not_lt.mpr hordered)]
  refine ⟨⟨n, most.truncate, least.truncate, utc.truncate, hn, hfuture, hordered⟩, ?_, rfl, rfl, rfl, rfl⟩
  rw [ofGiven_reading hreading hutc, nameOf, dif_neg hn]
  simp only [bind, Except.bind, ht, hu, hmostCut, hleastCut, hinstants]
  rfl

/-- **Arguments that are not admitted are told**: it is out of range if the calendar does not reach a deadline although all
kinds are right, and a fault in the terms otherwise. -/
theorem ofGiven_refused (h : ¬∃ n most least, Admitted utc name atMost atLeast n most least) :
    ∃ e, ofGiven reading name atMost atLeast = .error e ∧
      (Unreachable utc name atMost atLeast ∧ e = .time .outOfCalendar ∨
        ¬Unreachable utc name atMost atLeast ∧ ∃ fault, e = .terms fault) := by
  rw [ofGiven_reading hreading hutc]
  rcases nameOf_cases name with ⟨n, hn, hname, hok⟩ | ⟨hname, herror⟩
  swap
  · exact ⟨_, by rw [herror]; rfl, .inr ⟨fun hu => hname hu.kinds.name, _, rfl⟩⟩
  rw [hok]
  rcases deadline_cases .atMost atMost with ⟨t, ht, hmostAware, hok⟩ | ⟨hkind, fault, herror⟩
  swap
  · exact ⟨_, by rw [herror]; rfl, .inr ⟨fun hu => hkind hu.kinds.atMost, _, rfl⟩⟩
  rw [hok]
  rcases deadline_cases .atLeast (floorMeant utc atLeast) with ⟨u, hu, hleastAware, hok⟩ | ⟨hkind, fault, herror⟩
  swap
  · exact ⟨_, by rw [herror]; rfl, .inr ⟨fun hu => hkind hu.kinds.atLeast, _, rfl⟩⟩
  rw [hok]
  have hkinds : WellKinded utc name atMost atLeast := ⟨⟨n, hname, hn⟩, ⟨t, ht, hmostAware⟩, ⟨u, hu, hleastAware⟩⟩
  rcases cut_cases ht hmostAware with ⟨most, hmost, hcut⟩ | ⟨hmissing, hcut⟩
  swap
  · exact ⟨_, by simp only [bind, Except.bind, hcut], .inl ⟨⟨hkinds, .inl hmissing⟩, rfl⟩⟩
  rcases cut_cases hu hleastAware with ⟨least, hleast, hcut'⟩ | ⟨hmissing, hcut'⟩
  swap
  · exact ⟨_, by simp only [bind, Except.bind, hcut, hcut'], .inl ⟨⟨hkinds, .inr hmissing⟩, rfl⟩⟩
  -- both deadlines stand for moments, so it is their order that is wrong
  have hreached : ¬Unreachable utc name atMost atLeast := by
    rintro ⟨-, hmissing | hmissing⟩
    · exact hmissing ⟨most, hmost⟩
    · exact hmissing ⟨least, hleast⟩
  have hfault : ∃ fault, ofInstants ⟨n, hn⟩ most.truncate least.truncate utc.truncate = .error fault := by
    rw [ofInstants]
    by_cases hfuture : most.truncate.micros ≤ utc.truncate.micros
    · exact ⟨_, dif_pos hfuture⟩
    rw [dif_neg hfuture]
    by_cases hordered : most.truncate.micros < least.truncate.micros
    · exact ⟨_, dif_pos hordered⟩
    · exact absurd ⟨n, most, least, hname, hn, hmost, hleast, Nat.not_le.mp hfuture, Nat.not_lt.mp hordered⟩ h
  obtain ⟨fault, hfault⟩ := hfault
  exact ⟨.terms fault, by simp only [bind, Except.bind, hcut, hcut', hfault]; rfl, .inr ⟨hreached, fault, rfl⟩⟩

end

end Claim

/-! ## Trying once -/

namespace Scene

variable {σ : Type}

/-- **A lock tries to acquire once**, with arguments as they are given. -/
def acquire (S : LeaseStore σ) (name : Value) (atMost atLeast : GivenTime) (s : Scene σ) :
    Except Error (Option Lease) × Scene σ :=
  match Claim.ofGiven s.clock name atMost atLeast with
  | .error e => (.error e, s)
  | .ok claim => ((s.lock.tryAcquire S claim s.world).2.2, s.afterAcquire S claim)

/-- The scene without its log, -/
def unlogged (s : Scene (Logged σ)) : Scene σ := ⟨s.world.unlogged, s.lock, s.clock⟩

/-- and with one. -/
def logged (calls : List Contact) (s : Scene σ) : Scene (Logged σ) := ⟨s.world.logged calls, s.lock, s.clock⟩

/-- **The calls that the store gets** when a lock tries once. -/
def acquireContacts (S : LeaseStore σ) (name : Value) (atMost atLeast : GivenTime) (s : Scene σ) : List Contact :=
  (acquire S.logged name atMost atLeast (s.logged [])).2.world.store.calls

/-- The log changes nothing. -/
theorem acquire_unlogged (S : LeaseStore σ) (name : Value) (atMost atLeast : GivenTime) (s : Scene σ) :
    acquire S name atMost atLeast s =
      ((acquire S.logged name atMost atLeast (s.logged [])).1,
        (acquire S.logged name atMost atLeast (s.logged [])).2.unlogged) := by
  have hclock : (s.logged []).clock = s.clock := rfl
  simp only [acquire, hclock]
  cases Claim.ofGiven s.clock name atMost atLeast <;> rfl

/-! ## What the store hears, and what the caller -/

/-- **What is wrong with the arguments of an acquire is found before the store is asked.**

Admitted arguments make one call on the store, a write of the ceiling cut to milliseconds, at the reading cut to milliseconds,
for the lock that asks; an error that is raised then is the call's own, and none that the contract allows.

Any other arguments make no call and change nothing, neither the store nor a count, and they are told: as a time out of range
exactly if the calendar of UTC does not reach a deadline although the kinds are right, as a fault in the terms otherwise. -/
theorem acquire_validates (S : LeaseStore σ) (s : Scene σ) {now : DateTime} {utc : Instant}
    (hclock : s.clock.dateTime? = some now) (hutc : now.toUtc = .ok utc) (name : Value) (atMost atLeast : GivenTime) :
    (∀ n most least, Admitted utc name atMost atLeast n most least →
      let request : AcquireRequest :=
        { name := .text n
          lockUntil := .moment most.truncate
          lockedAt := .moment utc.truncate
          lockedBy := s.lock.identity
          availableAt := .moment utc.truncate }
      s.acquireContacts S name atMost atLeast = [.tryUpdate request] ∧
      ∀ e, (s.acquire S name atMost atLeast).1 = .error e →
        (S.tryUpdate request s.world).2 = .failed e ∧ ¬e.IsContractual) ∧
    ((¬∃ n most least, Admitted utc name atMost atLeast n most least) →
      s.acquireContacts S name atMost atLeast = [] ∧ (s.acquire S name atMost atLeast).2 = s ∧
      ∃ e, (s.acquire S name atMost atLeast).1 = .error e ∧
        (e.isA .overflow = true ↔ Unreachable utc name atMost atLeast) ∧
        (e.isA .configuration = true ↔ ¬Unreachable utc name atMost atLeast)) := by
  have hlogged : (s.logged []).clock = s.clock := rfl
  constructor
  · intro n most least hadmitted request
    obtain ⟨claim, hclaim, hname, hmost, -, htaken⟩ := Claim.ofGiven_admitted hclock hutc hadmitted
    have hrequest : claim.request s.lock.identity = request := by
      rw [Claim.request, hname, hmost, htaken]
    constructor
    · rw [acquireContacts, acquire, hlogged, hclaim, ← hrequest]
      rfl
    · intro e he
      rw [acquire, hclaim] at he
      rw [← hrequest]
      exact Lock.settleAcquire_error he
  · intro hnot
    obtain ⟨e, he, hkind⟩ := Claim.ofGiven_refused hclock hutc hnot
    have hrejected : s.acquire S name atMost atLeast = (.error e, s) := by rw [acquire, he]
    have hcontacts : s.acquireContacts S name atMost atLeast = [] := by
      rw [acquireContacts, acquire, hlogged, he]
      rfl
    refine ⟨hcontacts, congrArg Prod.snd hrejected, e, congrArg Prod.fst hrejected, ?_⟩
    rcases hkind with ⟨hunreachable, rfl⟩ | ⟨hreached, fault, rfl⟩
    · exact ⟨⟨fun _ => hunreachable, fun _ => rfl⟩, ⟨fun h => absurd h Bool.false_ne_true, fun h => absurd hunreachable h⟩⟩
    · exact ⟨⟨fun h => absurd h Bool.false_ne_true, fun h => absurd h hreached⟩, ⟨fun _ => hreached, fun _ => rfl⟩⟩

end Scene

/-! ## Acts of a fleet -/

/-- Computations that fail with the same fail alike, whatever they would have come to. -/
theorem Except.error_iff_error {ε α β : Type} (e e' : ε) :
    (Except.error e : Except ε α) = .error e' ↔ (Except.error e : Except ε β) = .error e' := by
  rw [Except.error.injEq, Except.error.injEq]

namespace Fleet

variable {ω β : Type}

/-- What an act makes of an acquire that came to an end shows the same scene, and fails with the same. -/
theorem nameAcquired_alone {owner : Nat} {member : Member} {r : Except Error (Option Nat)} {f : Fleet}
    {r' : Except Error (Option Lease)} {s : Scene (Backend × GivenTime)}
    (h : Guarded.AcquiredAlike (Shows owner member) (ShowsLease owner member) r f r' s) (lease : String) :
    ∃ a f', (match r with
        | .error e => return .error e
        | .ok Option.none => answer (.ok .null)
        | .ok (some number) => changing (nameLease lease number) : Fiber Fleet ω β (Except Error ActAnswer)).alone f =
          some (a, f') ∧
      f'.Shows owner member s ∧ ∀ e, a = .error e ↔ r' = .error e := by
  have hanswered : ∀ (a : ActAnswer) (l : Option Lease) (e : Error),
      (Except.ok a : Except Error ActAnswer) = .error e ↔ (Except.ok l : Except Error (Option Lease)) = .error e :=
    fun _ _ _ => ⟨nofun, nofun⟩
  match r, r', h with
  | .error e, .error _, ⟨rfl, hs⟩ => exact ⟨_, f, rfl, hs, fun e' => Except.error_iff_error e e'⟩
  | .ok none, .ok none, hs => exact ⟨_, f, rfl, hs, hanswered _ _⟩
  | .ok (some n), .ok (some l), ⟨hs, _⟩ => exact ⟨_, _, rfl, hs, hanswered _ _⟩

/-- **An act that acquires**, in a fleet that is left alone, does to the scene of its lock what the lock does there, and
fails with the same. -/
theorem actAcquire_alone {f : Fleet} {lock : String} {owner : Nat} {member : Member}
    (howner : f.members.find? lock = some owner) (hm : f.members.get? owner = some member) {most least : TimeSpec}
    {atMost atLeast : GivenTime} (hmost : f.resolve most = .ok atMost) (hleast : f.resolve least = .ok atLeast)
    (name : Value) (lease : String) :
    ∃ r f', (actAcquire lock name most least lease : Fiber Fleet ω β _).alone f = some (r, f') ∧
      f'.Shows owner member ((f.sceneOf member).acquire clockedStore name atMost atLeast).2 ∧
      ∀ e, r = .error e ↔ ((f.sceneOf member).acquire clockedStore name atMost atLeast).1 = .error e := by
  have hsee : (Fiber.see fun f => (f.members.find? lock, f.members.named? lock, f) : Fiber Fleet ω β _).alone f =
      some ((some owner, some member, f), f) := by
    have hnamed : f.members.named? lock = some member := by rw [Pool.named?, howner, Option.bind_some, hm]
    rw [← howner, ← hnamed]
    rfl
  have hclaim : f.claimFor member name most least = Claim.ofGiven (f.nowFor member.clock) name atMost atLeast := by
    rw [claimFor, hmost, hleast]
    rfl
  have hreading : (f.sceneOf member).clock = f.nowFor member.clock := rfl
  rw [actAcquire, Fiber.alone_bind_of hsee, Scene.acquire, hreading]
  simp only [hclaim]
  cases Claim.ofGiven (f.nowFor member.clock) name atMost atLeast with
  | error e =>
    exact ⟨_, f, rfl, ⟨member, hm, rfl, rfl, rfl⟩, fun e' => Except.error_iff_error e e'⟩
  | ok claim =>
    simp only [acquire, bind_assoc]
    rw [Fiber.alone_bind_of (callWithin_alone _ _ f)]
    exact nameAcquired_alone (settleAcquire_shows (f := (f.useStore _).1) hm rfl rfl claim _) lease

end Fleet

/-! ## Deadlines around one millisecond

It is 07:00:00.000500 on a clock seven hours east of UTC. -/

namespace Scene

def eastern (micros : Nat) (h : 63839664000000000 + 25200000000 + micros < calendarMicros := by decide) : GivenTime :=
  .time ⟨⟨63839664000000000 + 25200000000 + micros, h⟩, some 25200000000⟩

def inTheEast : Scene Memory := ⟨⟨.empty, .empty⟩, ⟨.text "node-0", .int 5, .zero⟩, eastern 500⟩

/-- A ceiling 499 microseconds ahead lies in the same millisecond and is refused; one in UTC that is ahead by 500 is written;
one in the last hour of the calendar, an hour west of UTC, is out of range. -/
theorem inTheEast_validates :
    inTheEast.acquireContacts Memory.store (.text "backup") (eastern 999) .none = [] ∧
    inTheEast.acquireContacts Memory.store (.text "backup") (.moment (later 1)) .none =
      [.tryUpdate ⟨.text "backup", .moment (later 1), .moment (later 0), .text "node-0", .moment (later 0)⟩] ∧
    ∃ e, (inTheEast.acquire Memory.store (.text "backup")
        (.time ⟨⟨calendarMicros - 1, by decide⟩, some (-3600000000)⟩) .none).1 = .error e ∧ e.isA .overflow = true := by
  have hutc : DateTime.toUtc ⟨⟨63839664000000000 + 25200000000 + 500, by decide⟩, some 25200000000⟩ =
      .ok ⟨63839664000000500, by decide⟩ := rfl
  have hvalidates := acquire_validates Memory.store inTheEast rfl hutc (.text "backup")
  refine ⟨?_, ?_, ?_⟩
  · obtain ⟨-, hrefused⟩ := hvalidates (eastern 999) .none
    refine (hrefused ?_).1
    rintro ⟨n, most, least, h⟩
    have hmost : most = ⟨63839664000000999, by decide⟩ := h.atMost.unique ⟨_, rfl, rfl, rfl⟩
    have hfuture := h.future
    rw [hmost] at hfuture
    exact absurd hfuture (by decide)
  · obtain ⟨hadmitted, -⟩ := hvalidates (.moment (later 1)) .none
    exact (hadmitted "backup" (later 1) (later 0)
      ⟨rfl, by decide, ⟨_, rfl, rfl, rfl⟩, ⟨_, rfl, rfl, rfl⟩, by decide, by decide⟩).1
  · obtain ⟨-, hrefused⟩ := hvalidates (.time ⟨⟨calendarMicros - 1, by decide⟩, some (-3600000000)⟩) .none
    have hout : ¬∃ i, (GivenTime.time ⟨⟨calendarMicros - 1, by decide⟩, some (-3600000000)⟩).Denotes i := by
      rintro ⟨i, t, ht, -, hi⟩
      cases ht
      cases hi
    obtain ⟨-, -, e, he, hoverflow, -⟩ := hrefused fun ⟨_, most, _, h⟩ => hout ⟨most, h.atMost⟩
    exact ⟨e, he, hoverflow.mpr ⟨⟨⟨"backup", rfl, by decide⟩, ⟨_, rfl, rfl⟩, ⟨_, rfl, rfl⟩⟩, .inl hout⟩⟩

end Scene
end Leasehold
