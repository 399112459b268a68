/-
  A lock over HTTP fails closed, but for three replies.

  Whatever comes back for an acquire, the lock gives out a lease only for the record that it asked for, and says "not
  acquired" otherwise.  Whatever comes back for a release, the lease is done with only if the server said so, and otherwise
  the caller is told that the release failed.  Nothing coming back before the lock gives up waiting is a case of its own.

  1. **`settleAcquire_heard`**, **`settleRelease_heard`** — the verdicts of a lock, told by the sense of a reply;
  2. **`acquire_follows`**, **`release_follows`** — the two calls over a store whose next reply is known;
  3. **`fails_closed`** — both, for a claim made of valid arguments.  Each result is tied to the replies it comes of, and the
     replies that escape (`ServerReply.Escapes`) are the only ones that do anything else: their failure gets past the client
     and past the lock, to a caller who is promised that nothing does (`overflowing_record_raises`).
-/
import Leasehold.Proofs.Replies
namespace Leasehold

open Http

/-! ## Verdicts on what was heard -/

namespace Http.Sense

/-- What an acquire comes to: a lease for the very record that was asked for, and a failure only for what escapes. -/
def acquires (c : Claim) (lease : Lease) : Sense → Except Error (Option Lease)
  | .record r => .ok (if r.lockUntil = c.atMost then some lease else none)
  | .unmet => .ok none
  | .nothing => .ok none
  | .escape e => .error e

/-- What a release comes to: the lease is done with if the server said so, and stays as it is otherwise. -/
def Releases (timeout : Value) (lease after : Lease) (result : Except Error Unit) : Sense → Prop
  | .record _ => after = lease.done ∧ result = .ok ()
  | .unmet => after = lease.done ∧ result = .ok ()
  | .nothing => after = lease ∧ ∃ cause, result = .error (.releaseFailed lease.name timeout cause)
  | .escape e => after = lease ∧ result = .error e

end Http.Sense

namespace Lock

/-- **The verdict on an acquire** is what the sense of the reply says, -/
theorem settleAcquire_heard (lock : Lock) {c : Claim} {s : Sense} {name : Value} {o : Outcome LeaseRecord}
    (ledger : Ledger) (h : s.Heard name o) (hforeign : ∀ e, s = .escape e → e.IsForeign) :
    (lock.settleAcquire c o ledger).2.2 = s.acquires c (.ofClaim c lock.identity) := by
  cases s with
  | record r =>
    have ho : o = .answered r := h
    subst ho
    simp only [settleAcquire, Sense.acquires]
    by_cases hr : r.lockUntil = c.atMost
    · simp only [hr, ne_eq, not_true_eq_false, if_false, if_true]
    · simp only [ne_eq, hr, not_false_eq_true, if_true, if_false]
  | unmet =>
    have ho : o = .failed (.conditionNotMet name .store) := h
    subst ho
    rfl
  | nothing =>
    rcases h with rfl | ⟨e, rfl, hkind⟩
    · rfl
    · simp only [settleAcquire, Error.isA, hkind]
      rfl
  | escape e =>
    have ho : o = .failed e := h
    subst ho
    have he := hforeign e rfl
    simp only [settleAcquire, he.notUnmet, he.notTimeout, he.notTransport]
    rfl

/-- **and so is the verdict on a release.** -/
theorem settleRelease_heard (lock : Lock) (lease : Lease) (u : Instant) {s : Sense} {name : Value}
    {o : Outcome LeaseRecord} (ledger : Ledger) (h : s.Heard name o) (hforeign : ∀ e, s = .escape e → e.IsForeign) :
    s.Releases lock.timeout lease (lock.settleRelease lease u o ledger).2.1
      (lock.settleRelease lease u o ledger).2.2.2 := by
  cases s with
  | record r =>
    have ho : o = .answered r := h
    subst ho
    exact ⟨rfl, rfl⟩
  | unmet =>
    have ho : o = .failed (.conditionNotMet name .store) := h
    subst ho
    exact ⟨rfl, rfl⟩
  | nothing =>
    rcases h with rfl | ⟨e, rfl, hkind⟩
    · exact ⟨rfl, _, rfl⟩
    · simp only [settleRelease, Error.isA, hkind]
      exact ⟨rfl, _, rfl⟩
  | escape e =>
    have ho : o = .failed e := h
    subst ho
    have he := hforeign e rfl
    simp only [settleRelease, he.notUnmet, he.notTimeout, he.notTransport]
    exact ⟨rfl, rfl⟩

end Lock

/-- A lease that is held is not done with. -/
theorem Lease.done_ne {lease : Lease} (hheld : lease.released = false) : lease.done ≠ lease := by
  intro hsame
  have hreleased : lease.done.released = lease.released := by rw [hsame]
  rw [hheld] at hreleased
  cases hreleased

/-! ## A store whose next reply is known -/

/-- A store whose calls are given up before they end. -/
def LeaseStore.unheard {σ : Type} (S : LeaseStore σ) : LeaseStore σ :=
  { S with
    tryUpdate := fun r w => ((S.tryUpdate r w).1, .silent)
    update := fun r w => ((S.update r w).1, .silent) }

namespace Http

/-- **The store over HTTP in front of a reply**, or of none before the lock gives up waiting. -/
def HttpStore.replying {ω : Type} (P : Party ω) : Option ServerReply → LeaseStore (HttpStore ω)
  | some reply => store (reply.party P)
  | none => (store P).unheard

/-- The sense of a reply; that there is none tells nothing. -/
def Sense.of (reply? : Option ServerReply) : Sense := (reply?.map ServerReply.sense).getD .nothing

section

variable (reply? : Option ServerReply)

/-- A lease may be given out until a moment. -/
def Granted (ceiling : Instant) : Prop := ∃ reply ∈ reply?, reply.Grants ceiling

/-- The server says that a lease is done with: it wrote the release, or somebody else holds the lock. -/
def Settled : Prop := ∃ reply ∈ reply?, (∃ ending, reply.Grants ending) ∨ reply.Refuses

/-- A failure gets past the client. -/
def Escaped (e : Error) : Prop := ∃ reply ∈ reply?, reply.Escapes e

end

section

variable {reply? : Option ServerReply}

theorem granted_iff {ceiling : Instant} :
    Granted reply? ceiling ↔ ∃ r, Sense.of reply? = .record r ∧ r.lockUntil = ceiling := by
  cases reply? with
  | none => simp [Granted, Sense.of]
  | some reply => simp [Granted, Sense.of, ServerReply.grants_iff]

theorem settled_iff : Settled reply? ↔ (∃ r, Sense.of reply? = .record r) ∨ Sense.of reply? = .unmet := by
  cases reply? with
  | none => simp [Settled, Sense.of]
  | some reply =>
    simp only [Settled, Sense.of, ServerReply.grants_iff, ServerReply.refuses_iff, Option.mem_some_iff,
      exists_eq_left', Option.map_some, Option.getD_some]
    refine or_congr_left ⟨?_, ?_⟩
    · rintro ⟨ending, r, hr, -⟩
      exact ⟨r, hr⟩
    · rintro ⟨r, hr⟩
      exact ⟨_, r, hr, rfl⟩

theorem escaped_iff {e : Error} : Escaped reply? e ↔ Sense.of reply? = .escape e := by
  cases reply? with
  | none => simp [Escaped, Sense.of]
  | some reply => simp [Escaped, Sense.of, ServerReply.escapes_iff]

/-- Of a reply that tells nothing there is no lease, -/
theorem not_granted (h : Sense.of reply? = .nothing) (ceiling : Instant) : ¬Granted reply? ceiling := by
  intro hgranted
  obtain ⟨r, hr, -⟩ := granted_iff.mp hgranted
  rw [h] at hr
  cases hr

/-- no release, -/
theorem not_settled (h : Sense.of reply? = .nothing) : ¬Settled reply? := by
  intro hsettled
  rcases settled_iff.mp hsettled with ⟨r, hr⟩ | hr <;> rw [h] at hr <;> cases hr

/-- and nothing that escapes. -/
theorem not_escaped (h : Sense.of reply? = .nothing) (e : Error) : ¬Escaped reply? e := by
  intro hescaped
  have he := escaped_iff.mp hescaped
  rw [h] at he
  cases he

theorem Escaped.foreign {e : Error} (h : Escaped reply? e) : e.IsForeign := by
  obtain ⟨reply, -, hescapes⟩ := h
  exact hescapes.foreign

end

namespace HttpStore

variable {ω : Type} (P : Party ω) (reply? : Option ServerReply) (w : World (HttpStore ω))

/-- An acquire comes to what its reply means. -/
theorem tryUpdate_heard (c : Claim) (identity : Value) :
    (Sense.of reply?).Heard (.text c.name) ((replying P reply?).tryUpdate (c.request identity) w).2 := by
  cases reply? with
  | none => exact .inl rfl
  | some reply =>
    have hpayload : ∃ payload, acquirePayload (c.request identity) = .ok payload := by
      simp only [acquirePayload, Claim.request, GivenTime.timestamp_moment]
      exact ⟨_, rfl⟩
    obtain ⟨payload, hpayload⟩ := hpayload
    simp only [replying, store, hpayload]
    exact write_heard P reply _ _ payload w

/-- A release comes to what its reply means. -/
theorem update_heard (lease : Lease) (u : Instant) :
    (Sense.of reply?).Heard (.text lease.name) ((replying P reply?).update (lease.releaseRequest u) w).2 := by
  cases reply? with
  | none => exact .inl rfl
  | some reply =>
    have hpayload : ∃ payload, releasePayload (lease.releaseRequest u) = .ok payload := by
      simp only [releasePayload, Lease.releaseRequest, GivenTime.timestamp_moment, GivenTime.isNone_moment]
      exact ⟨_, rfl⟩
    obtain ⟨payload, hpayload⟩ := hpayload
    simp only [replying, store, hpayload]
    exact write_heard P reply _ _ payload w

end HttpStore

/-! ## The two calls of a lock -/

/-- **An acquire follows its reply**: a lease exactly for the record that was asked for, a failure exactly for what
escapes, and "not acquired" for everything else. -/
structure AcquireFollows (reply? : Option ServerReply) (ceiling : Instant) (lease : Lease)
    (result : Except Error (Option Lease)) : Prop where
  acquired : result = .ok (some lease) ↔ Granted reply? ceiling
  notAcquired : result = .ok none ↔ ¬Granted reply? ceiling ∧ ∀ e, ¬Escaped reply? e
  raised : ∀ e, result = .error e ↔ Escaped reply? e

/-- **A release follows its reply**: the lease is done with exactly if the server said so; it stays as it is and the caller
is told that the release failed, unless something escapes, and then the lease stays as it is, too. -/
structure ReleaseFollows (reply? : Option ServerReply) (timeout : Value) (lease after : Lease)
    (result : Except Error Unit) : Prop where
  released : (after = lease.done ∧ result = .ok ()) ↔ Settled reply?
  failed : (after = lease ∧ ∃ cause, result = .error (.releaseFailed lease.name timeout cause)) ↔
    ¬Settled reply? ∧ ∀ e, ¬Escaped reply? e
  raised : ∀ e, Escaped reply? e → after = lease ∧ result = .error e

section

variable {reply? : Option ServerReply}

/-- What the sense of a reply says of an acquire is what follows from the reply, -/
theorem AcquireFollows.of_sense (c : Claim) (lease : Lease) :
    AcquireFollows reply? c.atMost lease ((Sense.of reply?).acquires c lease) := by
  constructor
  all_goals simp only [granted_iff, escaped_iff]
  all_goals cases Sense.of reply? with
  | record r => by_cases hr : r.lockUntil = c.atMost <;> simp [Sense.acquires, hr]
  | unmet => simp [Sense.acquires]
  | nothing => simp [Sense.acquires]
  | escape e => simp [Sense.acquires]

/-- and so for a release. -/
theorem ReleaseFollows.of_sense {timeout : Value} {lease after : Lease} {result : Except Error Unit}
    (hheld : lease.released = false) (h : (Sense.of reply?).Releases timeout lease after result) :
    ReleaseFollows reply? timeout lease after result := by
  have hforeign : ∀ e, Sense.of reply? = .escape e → e.IsForeign := fun e he => (escaped_iff.mpr he).foreign
  have hdone : lease.done ≠ lease := Lease.done_ne hheld
  constructor
  all_goals simp only [settled_iff, escaped_iff]
  all_goals
    generalize Sense.of reply? = s at h hforeign
    cases s with
    | record r =>
      obtain ⟨rfl, rfl⟩ := h
      simp [hdone]
    | unmet =>
      obtain ⟨rfl, rfl⟩ := h
      simp [hdone]
    | nothing =>
      obtain ⟨rfl, cause, rfl⟩ := h
      simp
    | escape e =>
      obtain ⟨rfl, rfl⟩ := h
      have hrelease : ∀ cause, e ≠ .releaseFailed after.name timeout cause := by
        rintro cause rfl
        exact Bool.noConfusion (hforeign _ rfl).notRelease
      simp [hrelease]

end

end Http

namespace Lock

variable {ω : Type} (P : Party ω) (reply? : Option ServerReply) (lock : Lock) (w : World (HttpStore ω))

/-- **Over HTTP an acquire follows its reply,** -/
theorem acquire_follows (c : Claim) :
    AcquireFollows reply? c.atMost (.ofClaim c lock.identity)
      (lock.tryAcquire (HttpStore.replying P reply?) c w).2.2 := by
  have hresult : (lock.tryAcquire (HttpStore.replying P reply?) c w).2.2 =
      (Sense.of reply?).acquires c (.ofClaim c lock.identity) :=
    lock.settleAcquire_heard _ (HttpStore.tryUpdate_heard P reply? w c lock.identity)
      fun e he => (escaped_iff.mpr he).foreign
  rw [hresult]
  exact .of_sense c _

/-- **and so does a release** of a lease that is held. -/
theorem release_follows {lease : Lease} {now : GivenTime} {moment : Instant} (hheld : lease.released = false)
    (hnow : now.truncate = .ok moment) :
    ReleaseFollows reply? lock.timeout lease (lock.release (HttpStore.replying P reply?) lease now w).2.2.1
      (lock.release (HttpStore.replying P reply?) lease now w).2.2.2 := by
  have hrelease := lock.settleRelease_heard lease (lease.releaseUntil moment)
    ((HttpStore.replying P reply?).update (lease.releaseRequest (lease.releaseUntil moment)) w).1.ledger
    (HttpStore.update_heard P reply? w lease (lease.releaseUntil moment)) fun e he => (escaped_iff.mpr he).foreign
  simp only [release, hheld, hnow, Bool.false_eq_true, if_false]
  exact .of_sense hheld hrelease

end Lock

namespace Http

section

variable {ω : Type} (P : Party ω) (reply? : Option ServerReply) (lock : Lock) (w : World (HttpStore ω))

/-- **A lock over HTTP fails closed.**  Let an acquire be asked for with valid arguments, over any connection to any server,
and let anything come back, or nothing before the lock gives up.  The lock gives out its lease exactly if the reply is JSON
with a status of 200 that spells a record which ends at the ceiling that was asked for; if not, it is not acquired.  And let
a lease be released, whatever comes back for that: it is done with exactly if the reply is such a record, whenever it ends,
or JSON with a status of 409; if not, the lease stays as it is, and the caller is told that the release failed.

All this unless the reply is one of the three whose error the client does not catch (`ServerReply.Escapes`).  Then both calls
end with that error. -/
theorem fails_closed {now : GivenTime} {name : Value} {atMost atLeast : GivenTime} {c : Claim}
    (hvalid : Claim.ofGiven now name atMost atLeast = .ok c) {lease : Lease} {clock : GivenTime} {moment : Instant}
    (hheld : lease.released = false) (hclock : clock.truncate = .ok moment) :
    (∃ ceiling, atMost.truncate = .ok ceiling ∧
      AcquireFollows reply? ceiling (.ofClaim c lock.identity)
        (lock.tryAcquire (HttpStore.replying P reply?) c w).2.2) ∧
    ReleaseFollows reply? lock.timeout lease (lock.release (HttpStore.replying P reply?) lease clock w).2.2.1
      (lock.release (HttpStore.replying P reply?) lease clock w).2.2.2 :=
  ⟨⟨c.atMost, Claim.ofGiven_ceiling hvalid, lock.acquire_follows P reply? w c⟩,
    lock.release_follows P reply? w hheld hclock⟩

end

/-! ## A lock that hears of its record, of none, and of one whose end overflows -/

namespace ServerReply

/-- A reply with a record that has a name and ends when a text says. -/
def ofRecord (lockUntil : String) : ServerReply :=
  .whole 200 jsonUtf8Type
    (Text.Utf8.encode (Value.object (Json.textsOf [(nameKey, "nightly"), (lockUntilKey, lockUntil)])).write.toList) .none

/-- A reply with an object that has no fields. -/
def blank : ServerReply := .whole 200 jsonUtf8Type (Text.Utf8.encode "\x7b\x7d".toList) .none

theorem ofRecord_delivers (lockUntil : String) :
    (ofRecord lockUntil).Delivers 200 (.object (Json.textsOf [(nameKey, "nightly"), (lockUntilKey, lockUntil)])) := by
  have hkeys : ([(nameKey, "nightly"), (lockUntilKey, lockUntil)].map (·.1)).Nodup := by
    show [nameKey, lockUntilKey].Nodup
    decide
  exact ⟨_, _, _, rfl, HttpStore.readJson_texts (List.cons_ne_nil _ _) hkeys 200 ""⟩

theorem ofRecord_grants {lockUntil : String} {ending : Instant} (h : Instant.ofTimestamp lockUntil = .ok ending) :
    (ofRecord lockUntil).Grants ending :=
  ⟨_, ofRecord_delivers lockUntil, rfl, ⟨lockUntil, rfl, h⟩, fun _ hv => nomatch hv⟩

theorem ofRecord_escapes {lockUntil : String} (h : Instant.ofTimestamp lockUntil = .error .outOfCalendar) :
    (ofRecord lockUntil).Escapes (.time .outOfCalendar) := by
  obtain ⟨contentType, body, codecs, hreply, hread⟩ := ofRecord_delivers lockUntil
  rw [hreply]
  exact .calendar hread (.ends rfl rfl h)

end ServerReply

/-- A lock, a claim and a lease of its. -/
def minuteLock : Lock := ⟨.text "node-0", .int 5, .zero⟩

def minuteClaim : Claim := ⟨"nightly", later 67000, later 7000, later 7000, by decide, by decide, by decide⟩

def minuteLease : Lease := .ofClaim minuteClaim minuteLock.identity

/-- A client that was not used yet. -/
def freshClient : World (HttpStore Unit) := ⟨⟨.make "http://node:5000" (.int 10), ()⟩, .empty⟩

/-- Its server, whose own replies are of no interest. -/
def anyServer : Party Unit := Delivery.party (.broken .timedOut)

/-- What the lock makes of a reply to its acquire, -/
def acquiredAfter (reply : ServerReply) : Except Error (Option Lease) :=
  (minuteLock.tryAcquire (HttpStore.replying anyServer (some reply)) minuteClaim freshClient).2.2

/-- and of a reply to a release after a second. -/
def releasedAfter (reply : ServerReply) : Lease × Except Error Unit :=
  (minuteLock.release (HttpStore.replying anyServer (some reply)) minuteLease (.moment (later 8000)) freshClient).2.2

/-- The record that was asked for makes a lease.  An object without fields makes none, and it does not release one. -/
theorem minute_lease :
    acquiredAfter (.ofRecord (later 67000).timestamp) = .ok (some minuteLease) ∧ acquiredAfter .blank = .ok none ∧
      (releasedAfter .blank).1 = minuteLease := by
  have hvalid : Claim.ofGiven (.moment (later 7000)) (.text "nightly") (.moment (later 67000)) .none = .ok minuteClaim := rfl
  have hheld : minuteLease.released = false := rfl
  have hclock : (GivenTime.moment (later 8000)).truncate = .ok (later 8000) := rfl
  have hrecord : Instant.ofTimestamp (later 67000).timestamp = .ok (later 67000) := rfl
  have hblank : Sense.of (some ServerReply.blank) = .nothing := rfl
  obtain ⟨⟨ceiling, hceiling, hacquire⟩, -⟩ := fails_closed anyServer (some (.ofRecord (later 67000).timestamp)) minuteLock
    freshClient hvalid hheld hclock
  obtain ⟨⟨_, _, hnone⟩, hrelease⟩ := fails_closed anyServer (some .blank) minuteLock freshClient hvalid hheld hclock
  cases hceiling
  refine ⟨?_, ?_, ?_⟩
  · exact hacquire.acquired.mpr ⟨_, rfl, ServerReply.ofRecord_grants hrecord⟩
  · exact hnone.notAcquired.mpr ⟨not_granted hblank _, not_escaped hblank⟩
  · exact (hrelease.failed.mpr ⟨not_settled hblank, not_escaped hblank⟩).1

theorem acquiredAfter_follows (reply : ServerReply) :
    AcquireFollows (some reply) minuteClaim.atMost minuteLease (acquiredAfter reply) :=
  minuteLock.acquire_follows anyServer (some reply) freshClient minuteClaim

theorem releasedAfter_follows (reply : ServerReply) :
    ReleaseFollows (some reply) minuteLock.timeout minuteLease (releasedAfter reply).1 (releasedAfter reply).2 := by
  have hheld : minuteLease.released = false := rfl
  have hclock : (GivenTime.moment (later 8000)).truncate = .ok (later 8000) := rfl
  exact minuteLock.release_follows anyServer (some reply) freshClient hheld hclock

/-- **A record whose end lies before the year 1 in UTC** is no lease and no answer to a release; but both calls end with the
error of the conversion, the acquire instead of giving out no lease, the release instead of telling that it failed. -/
theorem overflowing_record_raises :
    ¬Granted (some (.ofRecord "0001-01-01T00:00:00+01:00")) minuteClaim.atMost ∧
      acquiredAfter (.ofRecord "0001-01-01T00:00:00+01:00") = .error (.time .outOfCalendar) ∧
      (releasedAfter (.ofRecord "0001-01-01T00:00:00+01:00")).2 = .error (.time .outOfCalendar) := by
  have hoverflows : Instant.ofTimestamp "0001-01-01T00:00:00+01:00" = .error .outOfCalendar := rfl
  have hescaped : Escaped (some (.ofRecord "0001-01-01T00:00:00+01:00")) (.time .outOfCalendar) :=
    ⟨_, rfl, ServerReply.ofRecord_escapes hoverflows⟩
  refine ⟨?_, ((acquiredAfter_follows _).raised _).mpr hescaped, ((releasedAfter_follows _).raised _ hescaped).2⟩
  intro hgranted
  obtain ⟨r, hr, -⟩ := granted_iff.mp hgranted
  exact Sense.noConfusion (hr.symm.trans (escaped_iff.mp hescaped))

end Http
end Leasehold
