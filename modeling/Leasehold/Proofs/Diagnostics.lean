/-
  What the diagnostics of a store in memory tell, and what the protocol does.

  Whether a lock is taken is decided in four places, each with a comparison of its own: `lockedNames` goes through all the
  records and `isLocked` looks at one, both with the clock's reading as it is; a conditional write compares the time that it
  is asked with; and a lock asks with its reading cut to milliseconds.  They agree at every instant, after any writes:

  1. **`Memory.Orderly`** — what every write keeps, whatever names and times it comes with: each record ends on a whole
     millisecond, and no two entries have the same key (`orderly_after`, by induction over the writes);
  2. **`mem_lockedNames`** — since keys are distinct, going through the records finds what a look at one of them finds;
  3. **`refused_iff`** — a write is refused just if its time lies before the end of the record;
  4. **`contended_iff`** — and so is a claim, since no whole millisecond lies between a reading and what it is cut to;
  5. **`diagnostics_agree`** — the four together.
-/
import Leasehold.Proofs.Bookkeeping
import Leasehold.Proofs.StoreCall
import Leasehold.Proofs.Verdicts
namespace Leasehold

/-! ## A reading and the end of a record -/

namespace GivenTime

/-- A time with a known distance from UTC is compared with a moment by its position. -/
theorem before_utc {now : DateTime} (haware : now.isAware = true) (e : Instant) :
    (now.before (.utc e)).mapError Error.time = .ok (decide (now.position < e.micros)) := by
  have hboth : now.isAware = (DateTime.utc e).isAware := haware
  have hposition : (DateTime.utc e).position = e.micros := by simp [DateTime.position, DateTime.utc]
  simp only [DateTime.before, hboth, if_true, hposition]
  rfl

/-- **A whole millisecond comes after a reading just if it comes after what the reading is cut to.** -/
theorem position_lt_iff {reading : GivenTime} {now : DateTime} (hnow : reading.dateTime? = some now) {i e : Instant}
    (h : reading.truncate = .ok i) (he : e.IsWhole) : now.position < e.micros ↔ i.micros < e.micros := by
  rw [truncate_dateTime hnow] at h
  have hle : (i.micros : Int) ≤ now.position := (truncate_time h).2
  have hge : (e.micros : Int) ≤ now.position → e.micros ≤ i.micros := le_of_whole h he
  omega

end GivenTime

section

variable {reading : GivenTime} {now : DateTime} (hnow : reading.dateTime? = some now) (haware : now.isAware = true)
include hnow haware

/-- A record is locked as long as it has not ended, -/
theorem LeaseRecord.isLocked_aware (r : LeaseRecord) :
    r.isLocked reading = .ok (decide (now.position < r.lockUntil.micros)) :=
  (GivenTime.reads_dateTime hnow _).trans (GivenTime.before_utc haware _)

/-- and so a write that asks with the reading finds it. -/
theorem GivenTime.isBefore_aware (e : Instant) : reading.isBefore (.utc e) = .ok (decide (now.position < e.micros)) :=
  (isBefore_dateTime hnow _).trans (before_utc haware e)

end

namespace Decision

/-- **What a decision on an acquire comes to**, if it fails over no time: a rejection by a record that ends after the time of
the request, or else the record that is asked for, its times cut. -/
theorem forAcquire_ok {existing : Option LeaseRecord} {r : AcquireRequest} {d : Decision}
    (h : forAcquire existing r = .ok d) :
    (d = .rejected ∧ ∃ record, existing = some record ∧ r.availableAt.isBefore (.utc record.lockUntil) = .ok true) ∨
      ∃ u s, r.lockUntil.truncate = .ok u ∧ d = .written ⟨r.name, u, some s, r.lockedBy⟩ := by
  have hwritten : (do
      let lockUntil ← r.lockUntil.truncate
      let lockedAt ← r.lockedAt.truncate
      return Decision.written ⟨r.name, lockUntil, some lockedAt, r.lockedBy⟩) = .ok d →
      ∃ u s, r.lockUntil.truncate = .ok u ∧ d = .written ⟨r.name, u, some s, r.lockedBy⟩ := by
    intro h
    obtain ⟨u, hu, h⟩ := Except.bind_ok h
    obtain ⟨s, -, h⟩ := Except.bind_ok h
    exact ⟨u, s, hu, (Except.ok.inj h).symm⟩
  cases existing with
  | none => exact Or.inr (hwritten h)
  | some record =>
    obtain ⟨taken, htaken, h⟩ := Except.bind_ok h
    cases taken with
    | true => exact Or.inl ⟨(Except.ok.inj h).symm, record, rfl, htaken⟩
    | false => exact Or.inr (hwritten h)

/-- What a decision writes ends on a whole millisecond: the one on an acquire, -/
theorem forAcquire_whole {existing : Option LeaseRecord} {r : AcquireRequest} {record : LeaseRecord}
    (h : forAcquire existing r = .ok (.written record)) : record.lockUntil.IsWhole := by
  obtain ⟨hrejected, -⟩ | ⟨u, s, hu, hwritten⟩ := forAcquire_ok h
  · cases hrejected
  · cases hwritten
    exact GivenTime.truncate_isWhole hu

/-- and the one on a release. -/
theorem forRelease_whole {existing : Option LeaseRecord} {r : ReleaseRequest} {record : LeaseRecord}
    (h : forRelease existing r = .ok (.written record)) : record.lockUntil.IsWhole := by
  obtain ⟨may, -, h⟩ := Except.bind_ok h
  cases may with
  | false => cases h
  | true =>
    obtain ⟨u, hu, h⟩ := Except.bind_ok h
    cases h
    exact GivenTime.truncate_isWhole hu

end Decision

namespace Memory

/-! ## Writes -/

/-- A write: anything may be given for its name and its times. -/
inductive Write where
  | acquire (r : AcquireRequest)
  | release (r : ReleaseRequest)

/-- The store serves a write. -/
def Write.serve (w : World Memory) : Write → World Memory × Outcome LeaseRecord
  | .acquire r => store.tryUpdate r w
  | .release r => store.update r w

/-- The world after some writes. -/
def afterWrites (w : World Memory) (writes : List Write) : World Memory :=
  writes.foldl (fun w x => (x.serve w).1) w

/-- **What every write keeps.**  There is no trouble on the way, every record ends on a whole millisecond, and no two
entries have the same key. -/
structure Orderly (m : Memory) : Prop where
  way : m.pass = (m, .through)
  whole : ∀ p ∈ m.records, p.2.lockUntil.IsWhole
  distinct : (m.records.map (·.1)).Pairwise fun k k' => k.sameKey k' = false

theorem orderly_empty : empty.Orderly := ⟨rfl, nofun, .nil⟩

/-- An entry of the records after a write is an old one, or has the record that was put. -/
theorem mem_putRecord {name : Value} {r : LeaseRecord} {rs : List (Value × LeaseRecord)} {p : Value × LeaseRecord}
    (h : p ∈ putRecord name r rs) : p ∈ rs ∨ p.2 = r := by
  induction rs with
  | nil =>
    obtain rfl := List.mem_singleton.mp h
    exact Or.inr rfl
  | cons q rest ih =>
    simp only [putRecord] at h
    split at h
    · rcases List.mem_cons.mp h with rfl | hrest
      · exact Or.inr rfl
      · exact Or.inl (List.mem_cons_of_mem q hrest)
    · rcases List.mem_cons.mp h with rfl | hrest
      · exact Or.inl List.mem_cons_self
      · exact (ih hrest).imp_left (List.mem_cons_of_mem q)

/-- The keys stay, and a new one comes at the end, where no key is the same. -/
theorem putRecord_keys (name : Value) (r : LeaseRecord) (rs : List (Value × LeaseRecord)) :
    (putRecord name r rs).map (·.1) = rs.map (·.1) ∨
      (putRecord name r rs).map (·.1) = rs.map (·.1) ++ [name] ∧ ∀ k ∈ rs.map (·.1), k.sameKey name = false := by
  induction rs with
  | nil => exact Or.inr ⟨rfl, nofun⟩
  | cons q rest ih =>
    by_cases hk : q.1.sameKey name = true
    · exact Or.inl (by simp [putRecord, hk])
    · have hput : putRecord name r (q :: rest) = q :: putRecord name r rest := by simp [putRecord, hk]
      rw [hput, List.map_cons, List.map_cons]
      rcases ih with hsame | ⟨happended, hnone⟩
      · exact Or.inl (by rw [hsame])
      · exact Or.inr ⟨by rw [happended, List.cons_append], List.forall_mem_cons.mpr ⟨by simpa using hk, hnone⟩⟩

theorem distinct_putRecord {name : Value} {r : LeaseRecord} {rs : List (Value × LeaseRecord)}
    (h : (rs.map (·.1)).Pairwise fun k k' => k.sameKey k' = false) :
    ((putRecord name r rs).map (·.1)).Pairwise fun k k' => k.sameKey k' = false := by
  rcases putRecord_keys name r rs with hsame | ⟨happended, hnone⟩
  · rwa [hsame]
  · rw [happended]
    refine List.pairwise_append.mpr ⟨h, List.pairwise_singleton _ _, fun k hk k' hk' => ?_⟩
    obtain rfl := List.mem_singleton.mp hk'
    exact hnone k hk

namespace Orderly

variable {m : Memory}

/-- **Carrying out a decision** keeps the order, if what it writes ends on a whole millisecond. -/
theorem apply (h : m.Orderly) (name : Value) {d : Except Error Decision}
    (hd : ∀ record, d = .ok (.written record) → record.lockUntil.IsWhole) : (m.apply name d).1.Orderly := by
  cases d with
  | error e => exact h
  | ok decision =>
    cases decision with
    | rejected => exact ⟨pass_congr h.way rfl rfl, h.whole, h.distinct⟩
    | written record =>
      refine ⟨pass_congr h.way rfl rfl, fun p hp => ?_, distinct_putRecord h.distinct⟩
      rcases mem_putRecord hp with hold | hnew
      · exact h.whole p hold
      · rw [hnew]
        exact hd record rfl

/-- **One write keeps the order.** -/
theorem serve {w : World Memory} (h : w.store.Orderly) (x : Write) : (x.serve w).1.store.Orderly := by
  cases x with
  | acquire r =>
    rw [Write.serve, store, (write_through h.way (·.writeAcquire r)).1]
    refine h.apply r.name fun record hd => ?_
    obtain ⟨existing, -, hd⟩ := Except.bind_ok hd
    exact Decision.forAcquire_whole hd
  | release r =>
    rw [Write.serve, store, (write_through h.way (·.writeRelease r)).1]
    refine h.apply r.name fun record hd => ?_
    obtain ⟨existing, -, hd⟩ := Except.bind_ok hd
    exact Decision.forRelease_whole hd

/-- **Any writes keep it.** -/
theorem afterWrites {w : World Memory} (h : w.store.Orderly) (writes : List Write) :
    (Memory.afterWrites w writes).store.Orderly := by
  induction writes generalizing w with
  | nil => exact h
  | cons x writes ih => exact ih (h.serve x)

end Orderly

/-- The store after any writes, if it had no records before them. -/
theorem orderly_after (ledger : Ledger) (writes : List Write) : (afterWrites ⟨.empty, ledger⟩ writes).store.Orderly :=
  Orderly.afterWrites orderly_empty writes

/-! ## Taken or not -/

/-- **A lock is taken** at a reading of the clock: there is a record, and it is locked. -/
def Taken (m : Memory) (name : String) (reading : GivenTime) : Prop :=
  ∃ r, m.find? (.text name) = some r ∧ r.isLocked reading = .ok true

variable {m : Memory} {name : String} {reading : GivenTime} {now : DateTime}

theorem taken_iff (hnow : reading.dateTime? = some now) (haware : now.isAware = true) :
    m.Taken name reading ↔ ∃ r, m.find? (.text name) = some r ∧ now.position < r.lockUntil.micros := by
  simp only [Taken, LeaseRecord.isLocked_aware hnow haware, Except.ok.injEq, decide_eq_true_eq]

/-- **The names whose locks are taken**, told by the records: with a known distance from UTC no comparison fails. -/
theorem lockedNames_aware (m : Memory) (hnow : reading.dateTime? = some now) (haware : now.isAware = true) :
    m.lockedNames reading = .ok ((m.records.filter fun p => now.position < p.2.lockUntil.micros).map (·.1)) := by
  have hflags : ∀ rs : List (Value × LeaseRecord),
      (rs.mapM fun (p : Value × LeaseRecord) => (p.2.isLocked reading).map fun b => (p.1, b)) =
        .ok (rs.map fun p => (p.1, decide (now.position < p.2.lockUntil.micros))) := by
    intro rs
    simp only [LeaseRecord.isLocked_aware hnow haware]
    exact List.mapM_pure
  show (m.records.mapM _ >>= _) = _
  rw [hflags]
  show Except.ok _ = _
  rw [List.filter_map, List.map_map]
  rfl

/-- A look at one name finds the entry of its key, if keys are distinct. -/
theorem Orderly.mem_iff (h : m.Orderly) {r : LeaseRecord} : (.text name, r) ∈ m.records ↔ m.find? (.text name) = some r := by
  obtain ⟨records, _, _, _, _⟩ := m
  have hdistinct : (records.map (·.1)).Pairwise fun k k' => k.sameKey k' = false := h.distinct
  show _ ∈ records ↔ (records.find? (·.1.sameKey (.text name))).map (·.2) = some r
  clear h
  induction records with
  | nil => simp
  | cons q rest ih =>
    obtain ⟨k, r'⟩ := q
    obtain ⟨hfirst, hrest⟩ := List.pairwise_cons.mp hdistinct
    by_cases hk : k.sameKey (.text name) = true
    · -- it is the first entry, and none of the others has its key
      obtain rfl := Value.eq_of_sameKey_text hk
      have hnone : (.text name, r) ∉ rest := fun hmem => by
        have hother := hfirst _ (List.mem_map_of_mem (f := (·.1)) hmem)
        simp at hother
      simp [hnone, eq_comm]
    · have hskip : ((k, r') :: rest).find? (·.1.sameKey (.text name)) = rest.find? (·.1.sameKey (.text name)) :=
        List.find?_cons_of_neg hk
      have hne : (Value.text name, r) ≠ (k, r') := fun heq => hk (by rw [← (Prod.mk.inj heq).1]; simp)
      rw [hskip, ← ih hrest, List.mem_cons, or_iff_right hne]

/-- **Going through all the records finds the lock of a name just if looking at its record does.** -/
theorem Orderly.mem_lockedNames (h : m.Orderly) (hnow : reading.dateTime? = some now) (haware : now.isAware = true)
    {names : List Value} (hnames : m.lockedNames reading = .ok names) : .text name ∈ names ↔ m.Taken name reading := by
  rw [m.lockedNames_aware hnow haware] at hnames
  obtain rfl := Except.ok.inj hnames
  rw [taken_iff hnow haware, List.mem_map]
  constructor
  · rintro ⟨⟨k, r⟩, hmem, rfl⟩
    obtain ⟨hentry, hlocked⟩ := List.mem_filter.mp hmem
    exact ⟨r, h.mem_iff.mp hentry, of_decide_eq_true hlocked⟩
  · rintro ⟨r, hfind, hlocked⟩
    exact ⟨(.text name, r), List.mem_filter.mpr ⟨h.mem_iff.mpr hfind, decide_eq_true hlocked⟩, rfl⟩

/-! ## Refused or not -/

/-- An acquire is rejected just if the lock is taken at the time that it asks with, whatever else it asks for. -/
theorem forAcquire_rejected (haware : reading.IsAware) (lockUntil lockedAt : GivenTime) (lockedBy : Value) :
    Decision.forAcquire (m.find? (.text name)) ⟨.text name, lockUntil, lockedAt, lockedBy, reading⟩ = .ok .rejected ↔
      m.Taken name reading := by
  obtain ⟨now, hnow, haware⟩ := haware
  have hcompared : ∀ r : LeaseRecord, reading.isBefore (.utc r.lockUntil) = r.isLocked reading := fun r =>
    (GivenTime.isBefore_aware hnow haware _).trans (LeaseRecord.isLocked_aware hnow haware r).symm
  constructor
  · intro h
    obtain ⟨-, r, hr, hbefore⟩ | ⟨u, s, -, hwritten⟩ := Decision.forAcquire_ok h
    · exact ⟨r, hr, (hcompared r).symm.trans hbefore⟩
    · cases hwritten
  · rintro ⟨r, hr, hlocked⟩
    have hbefore : reading.isBefore (.utc r.lockUntil) = .ok true := (hcompared r).trans hlocked
    simp only [hr, Decision.forAcquire, hbefore]
    rfl

/-- **A write is told that its condition does not hold just if the lock is taken** at the time that it asks with. -/
theorem refused_iff {w : World Memory} (h : w.store.Orderly) (haware : reading.IsAware) (lockUntil lockedAt : GivenTime)
    (lockedBy : Value) :
    (∃ e, (store.tryUpdate ⟨.text name, lockUntil, lockedAt, lockedBy, reading⟩ w).2 = .failed e ∧
      e.isA .conditionNotMet = true) ↔ w.store.Taken name reading := by
  rw [← forAcquire_rejected haware lockUntil lockedAt lockedBy]
  generalize hr : (⟨.text name, lockUntil, lockedAt, lockedBy, reading⟩ : AcquireRequest) = r
  have houtcome : (store.tryUpdate r w).2 =
      .ofExcept (w.store.apply (.text name) (Decision.forAcquire (w.store.find? (.text name)) r)).2 := by
    subst hr
    exact (write_through h.way (·.writeAcquire _)).2
  have hneutral := Neutral.forAcquire (w.store.find? (.text name)) r
  rw [houtcome]
  -- what is not a rejection is a record, which is answered, or a failure over a time
  cases hd : Decision.forAcquire (w.store.find? (.text name)) r with
  | error e =>
    refine iff_of_false ?_ nofun
    rintro ⟨e', he, hunmet⟩
    cases he
    rw [hneutral e hd] at hunmet
    cases hunmet
  | ok decision =>
    cases decision with
    | rejected => exact iff_of_true ⟨_, rfl, rfl⟩ rfl
    | written record =>
      refine iff_of_false ?_ nofun
      rintro ⟨e', he, -⟩
      cases he

/-! ## Contended or not -/

/-- A lock is taken just if it is not free for a claim that is made now. -/
theorem taken_iff_not_free (h : m.Orderly) (haware : reading.IsAware) {i : Instant} (hi : reading.truncate = .ok i) :
    m.Taken name reading ↔ ¬m.Free name i := by
  obtain ⟨now, hnow, haware⟩ := haware
  have hends : ∀ r, m.find? (.text name) = some r → (now.position < r.lockUntil.micros ↔ i.micros < r.lockUntil.micros) :=
    fun r hr => GivenTime.position_lt_iff hnow hi (h.whole (.text name, r) (h.mem_iff.mpr hr))
  rw [taken_iff hnow haware]
  constructor
  · rintro ⟨r, hr, hlt⟩ hfree
    have hle := hfree r.lockUntil (by simp [endOf, hr])
    have hlt' := (hends r hr).mp hlt
    omega
  · intro hnot
    simp only [Free, not_forall] at hnot
    obtain ⟨e, he, hlt⟩ := hnot
    obtain ⟨r, hr, rfl⟩ := Option.map_eq_some_iff.mp he
    exact ⟨r, hr, (hends r hr).mpr (by omega)⟩

/-- A claim for a name that is free is acquired, and one for a name that is not is contended. -/
theorem claim_counts {w : World Memory} (h : w.store.Orderly) {c : Claim} (hc : c.IsWhole) (who : Value) :
    AcquireOutcome.of? c (store.tryUpdate (c.request who) w).2 =
      some (if w.store.Free c.name c.takenAt then .acquired else .contended) := by
  have heffect := acquire_effect hc who w
  have hway : w.store.pass.2 = .through := by rw [h.way]
  by_cases hfree : w.store.Free c.name c.takenAt
  · rw [heffect.of_holds hfree hway, if_pos hfree]
    simp [AcquireOutcome.of?, Claim.record]
  · rw [(heffect.of_not hfree).2 hway, if_neg hfree]
    rfl

/-- How an acquire that counts is seen: by the lock, by the metrics under the name of the lock, and by the caller. -/
theorem tryAcquire_verdict (lock : Lock) {c : Claim} {w : World Memory} {x : AcquireOutcome}
    (h : AcquireOutcome.of? c (store.tryUpdate (c.request lock.identity) w).2 = some x) :
    let call := lock.tryAcquire store c w
    call.2.1 = lock.tick (.acquire x) ∧
      (∀ t, call.1.ledger.metrics.callCount c.name t =
        w.ledger.metrics.callCount c.name t + if Tick.acquire x = t then 1 else 0) ∧
      call.2.2 = .ok (if x = .acquired then some (.ofClaim c lock.identity) else none) := by
  intro call
  obtain ⟨hlock, hledger, hresult⟩ :=
    lock.settleAcquire_verdict h (store.tryUpdate (c.request lock.identity) w).1.ledger
  refine ⟨hlock, fun t => ?_, hresult⟩
  have hcalls := keepsContract.acquireCalls c lock.identity w
  refine (hledger.callCount c.name t).trans ?_
  show ((store.tryUpdate (c.request lock.identity) w).1.ledger.metrics.tick c.name (.acquire x)).callCount c.name t = _
  rw [Metrics.callCount_tick, hcalls.callCount]
  simp

/-- **An acquire is contended just if the lock is taken**: so the lock counts it, so do the metrics, and there is no lease. -/
theorem contended_iff {w : World Memory} (h : w.store.Orderly) (haware : reading.IsAware) (lock : Lock)
    {atMost atLeast : GivenTime} {c : Claim} (hc : Claim.ofGiven reading (.text name) atMost atLeast = .ok c) :
    let call := lock.tryAcquire store c w
    (call.2.1.statistics.contended = lock.statistics.contended + 1 ↔ w.store.Taken name reading) ∧
      (call.1.ledger.metrics.callCount name (.acquire .contended) =
        w.ledger.metrics.callCount name (.acquire .contended) + 1 ↔ w.store.Taken name reading) ∧
      (call.2.2 = .ok none ↔ w.store.Taken name reading) := by
  intro call
  obtain ⟨htakenAt, hname, hmost, hleast⟩ := Claim.ofGiven_parts hc
  obtain rfl := Value.text.inj hname
  have hwhole : c.IsWhole := ⟨hmost, hleast, GivenTime.truncate_isWhole htakenAt⟩
  have htaken : w.store.Taken c.name reading ↔ ¬w.store.Free c.name c.takenAt := taken_iff_not_free h haware htakenAt
  obtain ⟨hlock, hmetrics, hresult⟩ :=
    tryAcquire_verdict lock (claim_counts h hwhole lock.identity)
  simp only [call, htaken, hlock, hmetrics, hresult]
  by_cases hfree : w.store.Free c.name c.takenAt
  · simp [hfree, Lock.tick, Lock.countAcquired]
  · simp [hfree, Lock.tick, Lock.countContended]

/-! ## The agreement -/

/-- **The diagnostics agree with the protocol at every instant.**  After any writes to a store that was empty, with anything for
their names and times, for every name and every reading of a clock whose distance from UTC is known: the name is among the
locked names just if its record exists and is locked, just if a write that asks with this reading is told that its condition
does not hold, and just if every acquire of a lock whose clock reads this, with arguments that make sense, is contended. -/
theorem diagnostics_agree (ledger : Ledger) (writes : List Write) (name : String) {reading : GivenTime}
    (haware : reading.IsAware) :
    let w := afterWrites ⟨.empty, ledger⟩ writes
    (∃ names, w.store.lockedNames reading = .ok names ∧ (.text name ∈ names ↔ w.store.Taken name reading)) ∧
      (∀ lockUntil lockedAt lockedBy,
        (∃ e, (store.tryUpdate ⟨.text name, lockUntil, lockedAt, lockedBy, reading⟩ w).2 = .failed e ∧
          e.isA .conditionNotMet = true) ↔ w.store.Taken name reading) ∧
      ∀ (lock : Lock) (atMost atLeast : GivenTime) (c : Claim),
        Claim.ofGiven reading (.text name) atMost atLeast = .ok c →
          let call := lock.tryAcquire store c w
          (call.2.1.statistics.contended = lock.statistics.contended + 1 ↔ w.store.Taken name reading) ∧
            (call.1.ledger.metrics.callCount name (.acquire .contended) =
              w.ledger.metrics.callCount name (.acquire .contended) + 1 ↔ w.store.Taken name reading) ∧
            (call.2.2 = .ok none ↔ w.store.Taken name reading) := by
  intro w
  have h : w.store.Orderly := orderly_after ledger writes
  refine ⟨?_, ?_, ?_⟩
  · obtain ⟨now, hnow, haware⟩ := haware
    have hnames := w.store.lockedNames_aware hnow haware
    exact ⟨_, hnames, h.mem_lockedNames hnow haware hnames⟩
  · exact fun lockUntil lockedAt lockedBy => refused_iff h haware lockUntil lockedAt lockedBy
  · exact fun lock atMost atLeast c hc => contended_iff h haware lock hc

/-- An acquire half a second after the start, until 1.0007 seconds after it, told at a distance of an hour from UTC: it is
written until 1.000. -/
def untilOneSecond : Write :=
  .acquire ⟨.text "nightly", .time ⟨⟨63839667601000700, by decide⟩, some 3600000000⟩, .moment (later 500), .text "node-a",
    .moment (later 500)⟩

/-- The last microsecond before that second, on a clock five hours behind UTC. -/
def lastMicrosecond : DateTime := ⟨⟨63839646000999999, by decide⟩, some (-18000000000)⟩

/-- A lock that reads this asks with 0.999, the diagnostics with 0.999999: the lock is taken for all of them. -/
theorem diagnostics_agree_last_microsecond :
    let w := afterWrites ⟨.empty, .empty⟩ [untilOneSecond]
    lastMicrosecond.isAware = true ∧
      (∃ names, w.store.lockedNames (.time lastMicrosecond) = .ok names ∧ .text "nightly" ∈ names) ∧
      (∃ e, (store.tryUpdate ⟨.text "nightly", .moment (later 60000), .time lastMicrosecond, .text "node-b",
        .time lastMicrosecond⟩ w).2 = .failed e ∧ e.isA .conditionNotMet = true) ∧
      ∃ c, Claim.ofGiven (.time lastMicrosecond) (.text "nightly") (.moment (later 60000)) .none = .ok c ∧
        ∀ lock : Lock, (lock.tryAcquire store c w).2.1.statistics.contended = lock.statistics.contended + 1 := by
  intro w
  have haware : (GivenTime.time lastMicrosecond).IsAware := ⟨_, rfl, rfl⟩
  obtain ⟨⟨names, hnames, hmem⟩, hrefused, hcontended⟩ :=
    diagnostics_agree .empty [untilOneSecond] "nightly" haware
  have htaken : w.store.Taken "nightly" (.time lastMicrosecond) := ⟨_, rfl, rfl⟩
  refine ⟨rfl, ⟨names, hnames, hmem.mpr htaken⟩, (hrefused _ _ _).mpr htaken, _, rfl, fun lock => ?_⟩
  exact (hcontended lock (.moment (later 60000)) .none _ rfl).1.mpr htaken

end Memory
end Leasehold
