/-
  What a lock makes of a store that keeps its contract.

  The contract of a store says in which ways a call may fail: the condition does not hold, or the store cannot be reached in
  time, or at all.  A lock has a verdict for each of them, and every verdict is counted twice: in the lock, and in the
  metrics of the process under the name of the lock.

  1. **`LeaseStore.KeepsContract`** — the contract, as far as locks rely on it.  The store in memory keeps it
     (`Memory.keepsContract`);
  2. **`AcquireOutcome.of?`, `ReleaseOutcome.of?`** — how a call counts, told by its outcome alone.  Under the contract
     every outcome counts (`of?_contractual`);
  3. **`settleAcquire_verdict`, `settleRelease_verdict`** — what the lock counts, what the metrics count, and what the
     caller gets, all three told by that;
  4. **`settleAcquire_error`, `settleRelease_error`** — what a lock passes on, of any store: failures outside the contract.
-/
import Leasehold.Proofs.Loop
namespace Leasehold

variable {σ : Type}

/-! ## The contract -/

/-- **A failure that the contract allows**: the condition does not hold, the time ran out, or the store was not reached. -/
def Error.IsContractual (e : Error) : Prop :=
  e.isA .conditionNotMet = true ∨ e.isA .timeout = true ∨ e.isA .transport = true

/-- A call that fails, if it does, as the contract allows. -/
def Outcome.IsContractual (o : Outcome LeaseRecord) : Prop := ∀ e, o = .failed e → e.IsContractual

/-- A call that does not answer has not failed. -/
theorem Outcome.silent_contractual : Outcome.IsContractual .silent := by
  intro e he
  cases he

/-- Two ledgers whose metrics count the same acquires and releases. -/
structure Ledger.SameCalls (l l' : Ledger) : Prop where
  acquires : l'.metrics.acquires = l.metrics.acquires
  releases : l'.metrics.releases = l.metrics.releases

/-- **A store that keeps the contract** towards locks: what they ask for fails as the contract allows, and counting acquires
and releases is left to them. -/
structure LeaseStore.KeepsContract (S : LeaseStore σ) : Prop where
  acquires : ∀ (c : Claim) (who : Value) (w : World σ), (S.tryUpdate (c.request who) w).2.IsContractual
  releases : ∀ (l : Lease) (u : Instant) (w : World σ), (S.update (l.releaseRequest u) w).2.IsContractual
  acquireCalls : ∀ (c : Claim) (who : Value) (w : World σ),
    w.ledger.SameCalls (S.tryUpdate (c.request who) w).1.ledger
  releaseCalls : ∀ (l : Lease) (u : Instant) (w : World σ),
    w.ledger.SameCalls (S.update (l.releaseRequest u) w).1.ledger

namespace Memory

/-- A write whose decision never fails breaks down only when trouble is on its way. -/
theorem write_contractual {work : Memory → Memory × Except Error LeaseRecord} {name : Value}
    (hwork : ∀ m, ∃ d, work m = m.apply name (.ok d)) (w : World Memory) : (write work w).2.IsContractual := by
  simp only [write, transport]
  cases w.store.pass with
  | mk m p =>
    cases p with
    | stuck =>
      intro e he
      cases he
    | lost =>
      intro e he
      cases he
      exact Or.inr (Or.inr rfl)
    | through =>
      obtain ⟨d, hd⟩ := hwork m
      simp only [hd]
      cases d with
      | written r =>
        intro e he
        cases he
      | rejected =>
        intro e he
        cases he
        exact Or.inl rfl

theorem write_sameCalls (work : Memory → Memory × Except Error LeaseRecord) (w : World Memory) :
    w.ledger.SameCalls (write work w).1.ledger := by
  simp only [write]
  cases (w.store.transport work).2 <;> exact ⟨rfl, rfl⟩

/-- **The store in memory keeps the contract.** -/
theorem keepsContract : store.KeepsContract where
  acquires c who w := by
    have hwork : ∀ m : Memory, ∃ d, m.writeAcquire (c.request who) = m.apply (.text c.name) (.ok d) := by
      intro m
      obtain ⟨d, hd⟩ := Decision.forAcquire_moments (m.find? (.text c.name)) (.text c.name) who c.atMost c.takenAt c.takenAt
      exact ⟨d, congrArg (m.apply (.text c.name)) hd⟩
    exact write_contractual hwork w
  releases l u w := by
    have hwork : ∀ m : Memory, ∃ d, m.writeRelease (l.releaseRequest u) = m.apply (.text l.name) (.ok d) := by
      intro m
      obtain ⟨d, hd⟩ := Decision.forRelease_moments (m.find? (.text l.name)) (.text l.name) u (.inr ⟨l.atMost, rfl⟩)
      exact ⟨d, congrArg (m.apply (.text l.name)) hd⟩
    exact write_contractual hwork w
  acquireCalls _ _ w := write_sameCalls _ w
  releaseCalls _ _ w := write_sameCalls _ w

end Memory

/-! ## How calls count -/

/-- What the metrics say of an acquire for a claim whose call came to an outcome. -/
def AcquireOutcome.of? (c : Claim) : Outcome LeaseRecord → Option AcquireOutcome
  | .answered r => some (if r.lockUntil = c.atMost then .acquired else .failed)
  | .silent => some .failed
  | .failed e =>
    if e.isA .conditionNotMet then some .contended
    else if e.isA .timeout then some .failed
    else if e.isA .transport then some .failed
    else none

/-- It is acquired if the store answers with a record that ends where the claim does. -/
theorem AcquireOutcome.of?_acquired {o : Outcome LeaseRecord} {c : Claim} :
    of? c o = some .acquired ↔ ∃ r, o = .answered r ∧ r.lockUntil = c.atMost := by
  cases o with
  | answered r =>
    by_cases hend : r.lockUntil = c.atMost
    · exact iff_of_true (by rw [of?, if_pos hend]) ⟨r, rfl, hend⟩
    · rw [of?, if_neg hend]
      constructor
      · intro h
        cases h
      · rintro ⟨r', hr, hend'⟩
        cases hr
        exact absurd hend' hend
  | silent =>
    constructor
    · intro h
      cases h
    · rintro ⟨r, hr, -⟩
      cases hr
  | failed e =>
    constructor
    · intro h
      simp only [of?] at h
      split at h
      · cases h
      split at h
      · cases h
      split at h <;> cases h
    · rintro ⟨r, hr, -⟩
      cases hr

/-- A failure that the contract allows is either of the condition or of the way to the store. -/
theorem Error.IsContractual.counts {α : Type} {e : Error} (h : e.IsContractual) (unmet failed : α) :
    ∃ x, (if e.isA .conditionNotMet then some unmet else if e.isA .timeout then some failed
      else if e.isA .transport then some failed else none) = some x := by
  by_cases hunmet : e.isA .conditionNotMet = true
  · exact ⟨unmet, by rw [if_pos hunmet]⟩
  rcases h with h | htimeout | htransport
  · exact absurd h hunmet
  · exact ⟨failed, by rw [if_neg hunmet, if_pos htimeout]⟩
  · exact ⟨failed, by rw [if_neg hunmet, if_pos htransport, ite_self]⟩

/-- **Under the contract every acquire counts,** -/
theorem AcquireOutcome.of?_contractual {o : Outcome LeaseRecord} (h : o.IsContractual) (c : Claim) :
    ∃ x, of? c o = some x := by
  cases o with
  | answered r => exact ⟨_, rfl⟩
  | silent => exact ⟨_, rfl⟩
  | failed e => exact (h e rfl).counts AcquireOutcome.contended AcquireOutcome.failed

/-- **and so does every release.** -/
theorem ReleaseOutcome.of?_contractual {o : Outcome LeaseRecord} (h : o.IsContractual) : ∃ x, of? o = some x := by
  cases o with
  | answered r => exact ⟨_, rfl⟩
  | silent => exact ⟨_, rfl⟩
  | failed e => exact (h e rfl).counts ReleaseOutcome.lost ReleaseOutcome.failed

/-- A release that was applied, or whose condition did not hold, is no failure, -/
theorem ReleaseOutcome.of?_kept {o : Outcome LeaseRecord}
    (h : (∃ r, o = .answered r) ∨ ∃ e, o = .failed e ∧ e.isA .conditionNotMet = true) : of? o ≠ some .failed := by
  rcases h with ⟨r, rfl⟩ | ⟨e, rfl, hunmet⟩
  · rw [of?]
    intro h
    cases h
  · rw [of?, if_pos hunmet]
    intro h
    cases h

/-- and any other release is one. -/
theorem ReleaseOutcome.of?_failed {o : Outcome LeaseRecord} {x : ReleaseOutcome}
    (h : o = .silent ∨ ∃ e, o = .failed e ∧ e.isA .conditionNotMet = false) (hx : of? o = some x) : x = .failed := by
  rcases h with rfl | ⟨e, rfl, hunmet⟩
  · exact (Option.some.inj hx).symm
  · simp only [of?, hunmet, Bool.false_eq_true, if_false] at hx
    split at hx
    · exact (Option.some.inj hx).symm
    split at hx
    · exact (Option.some.inj hx).symm
    · cases hx

/-- **A count** of a lock, and of the metrics under a name: calls of one kind that ended in one way. -/
inductive Tick where
  | acquire (outcome : AcquireOutcome)
  | release (outcome : ReleaseOutcome)
  deriving DecidableEq

/-- How often a lock counted. -/
def Statistics.count (s : Statistics) : Tick → Nat
  | .acquire .acquired => s.acquired
  | .acquire .contended => s.contended
  | .acquire .failed => s.acquireFailures
  | .release .released => s.released
  | .release .lost => s.lost
  | .release .failed => s.releaseFailures

/-- How often the metrics counted under a name. -/
def Metrics.callCount (m : Metrics) (name : String) : Tick → Nat
  | .acquire outcome => m.acquires.count (name, outcome)
  | .release outcome => m.releases.count (name, outcome)

/-- A lock that has counted once more. -/
def Lock.tick (lock : Lock) : Tick → Lock
  | .acquire .acquired => lock.countAcquired
  | .acquire .contended => lock.countContended
  | .acquire .failed => lock.countAcquireFailure
  | .release .released => lock.countReleased
  | .release .lost => lock.countLost
  | .release .failed => lock.countReleaseFailure

/-- Metrics that have counted once more under a name. -/
def Metrics.tick (name : String) (m : Metrics) : Tick → Metrics
  | .acquire outcome => m.countAcquire name outcome
  | .release outcome => m.countRelease name outcome

theorem Lock.count_tick (lock : Lock) (t t' : Tick) :
    (lock.tick t).statistics.count t' = lock.statistics.count t' + if t = t' then 1 else 0 := by
  rcases t with x | x <;> rcases t' with y | y <;> cases x <;> cases y <;> rfl

theorem Metrics.callCount_tick (m : Metrics) (name name' : String) (t t' : Tick) :
    (m.tick name t).callCount name' t' = m.callCount name' t' + if name = name' ∧ t = t' then 1 else 0 := by
  by_cases hsame : name = name' ∧ t = t'
  · obtain ⟨rfl, rfl⟩ := hsame
    rw [if_pos ⟨rfl, rfl⟩]
    cases t <;> exact Tally.count_add_self _ _
  · rw [if_neg hsame]
    cases t with
    | acquire x =>
      cases t' with
      | release y => rfl
      | acquire y =>
        refine Tally.count_add_other (fun heq => hsame ?_) _
        obtain ⟨rfl, rfl⟩ := Prod.mk.inj heq
        exact ⟨rfl, rfl⟩
    | release x =>
      cases t' with
      | acquire y => rfl
      | release y =>
        refine Tally.count_add_other (fun heq => hsame ?_) _
        obtain ⟨rfl, rfl⟩ := Prod.mk.inj heq
        exact ⟨rfl, rfl⟩

theorem Ledger.SameCalls.callCount {l l' : Ledger} (h : l.SameCalls l') (name : String) (t : Tick) :
    l'.metrics.callCount name t = l.metrics.callCount name t := by
  cases t with
  | acquire x => exact congrArg (Tally.count (name, x)) h.acquires
  | release x => exact congrArg (Tally.count (name, x)) h.releases

/-! ## Verdicts -/

namespace Lock

/-- **An acquire that counts**: the lock and the metrics count it, and the caller gets the lease if it is acquired, and none
otherwise. -/
theorem settleAcquire_verdict (lock : Lock) {c : Claim} {o : Outcome LeaseRecord} {x : AcquireOutcome}
    (h : AcquireOutcome.of? c o = some x) (ledger : Ledger) :
    (lock.settleAcquire c o ledger).1 = lock.tick (.acquire x) ∧
      (ledger.count (·.tick c.name (.acquire x))).SameCalls (lock.settleAcquire c o ledger).2.1 ∧
      (lock.settleAcquire c o ledger).2.2 = .ok (if x = .acquired then some (.ofClaim c lock.identity) else none) := by
  cases o with
  | answered r =>
    obtain rfl := Option.some.inj h
    simp only [settleAcquire]
    by_cases hend : r.lockUntil = c.atMost
    · simp only [hend, ne_eq, not_true_eq_false, if_false, if_true]
      exact ⟨rfl, ⟨rfl, rfl⟩, trivial⟩
    · simp only [hend, ne_eq, not_false_eq_true, if_true, if_false]
      exact ⟨rfl, ⟨rfl, rfl⟩, rfl⟩
  | silent =>
    obtain rfl := Option.some.inj h
    exact ⟨rfl, ⟨rfl, rfl⟩, rfl⟩
  | failed e =>
    simp only [AcquireOutcome.of?] at h
    simp only [settleAcquire]
    by_cases hunmet : e.isA .conditionNotMet = true
    · rw [if_pos hunmet] at h ⊢
      obtain rfl := Option.some.inj h
      exact ⟨rfl, ⟨rfl, rfl⟩, rfl⟩
    rw [if_neg hunmet] at h ⊢
    by_cases htimeout : e.isA .timeout = true
    · rw [if_pos htimeout] at h ⊢
      obtain rfl := Option.some.inj h
      exact ⟨rfl, ⟨rfl, rfl⟩, rfl⟩
    rw [if_neg htimeout] at h ⊢
    by_cases htransport : e.isA .transport = true
    · rw [if_pos htransport] at h ⊢
      obtain rfl := Option.some.inj h
      exact ⟨rfl, ⟨rfl, rfl⟩, rfl⟩
    · rw [if_neg htransport] at h
      cases h

/-- **A release that counts**: the lock and the metrics count it.  The lease is done with unless the release failed, and a
release that failed is what the caller is told. -/
theorem settleRelease_verdict (lock : Lock) (l : Lease) (u : Instant) {o : Outcome LeaseRecord} {x : ReleaseOutcome}
    (h : ReleaseOutcome.of? o = some x) (ledger : Ledger) :
    (lock.settleRelease l u o ledger).1 = lock.tick (.release x) ∧
      (ledger.count (·.tick l.name (.release x))).SameCalls (lock.settleRelease l u o ledger).2.2.1 ∧
      (lock.settleRelease l u o ledger).2.1 = (if x = .failed then l else l.done) ∧
      if x = .failed then ∃ cause, (lock.settleRelease l u o ledger).2.2.2 = .error (.releaseFailed l.name lock.timeout cause)
      else (lock.settleRelease l u o ledger).2.2.2 = .ok () := by
  cases o with
  | answered r =>
    obtain rfl := Option.some.inj h
    exact ⟨rfl, ⟨rfl, rfl⟩, rfl, rfl⟩
  | silent =>
    obtain rfl := Option.some.inj h
    exact ⟨rfl, ⟨rfl, rfl⟩, rfl, _, rfl⟩
  | failed e =>
    simp only [ReleaseOutcome.of?] at h
    simp only [settleRelease]
    by_cases hunmet : e.isA .conditionNotMet = true
    · rw [if_pos hunmet] at h ⊢
      obtain rfl := Option.some.inj h
      exact ⟨rfl, ⟨rfl, rfl⟩, rfl, rfl⟩
    rw [if_neg hunmet] at h ⊢
    by_cases htimeout : e.isA .timeout = true
    · rw [if_pos htimeout] at h ⊢
      obtain rfl := Option.some.inj h
      exact ⟨rfl, ⟨rfl, rfl⟩, rfl, _, rfl⟩
    rw [if_neg htimeout] at h ⊢
    by_cases htransport : e.isA .transport = true
    · rw [if_pos htransport] at h ⊢
      obtain rfl := Option.some.inj h
      exact ⟨rfl, ⟨rfl, rfl⟩, rfl, _, rfl⟩
    · rw [if_neg htransport] at h
      cases h

/-! ## What is passed on -/

/-- A failure that does not count is outside the contract. -/
theorem foreign_of_uncounted {α : Type} {e : Error} {unmet failed : α}
    (h : (if e.isA .conditionNotMet then some unmet else if e.isA .timeout then some failed
      else if e.isA .transport then some failed else none) = none) : ¬e.IsContractual := by
  intro hcontract
  obtain ⟨x, hx⟩ := hcontract.counts unmet failed
  rw [hx] at h
  cases h

/-- **What an acquire passes on** is the call's own failure, outside the contract. -/
theorem settleAcquire_error {lock : Lock} {c : Claim} {o : Outcome LeaseRecord} {ledger : Ledger} {e : Error}
    (h : (lock.settleAcquire c o ledger).2.2 = .error e) : o = .failed e ∧ ¬e.IsContractual := by
  cases hx : AcquireOutcome.of? c o with
  | some x =>
    obtain ⟨-, -, hresult⟩ := lock.settleAcquire_verdict hx ledger
    rw [hresult] at h
    cases h
  | none =>
    cases o with
    | answered r => cases hx
    | silent => cases hx
    | failed e' =>
      have hforeign := foreign_of_uncounted hx
      rw [Error.IsContractual, not_or, not_or] at hforeign
      obtain ⟨hunmet, htimeout, htransport⟩ := hforeign
      rw [settleAcquire, if_neg hunmet, if_neg htimeout, if_neg htransport] at h
      cases h
      exact ⟨rfl, foreign_of_uncounted hx⟩

/-- **What a release passes on** is the call's own failure, outside the contract, or it tells that the release failed. -/
theorem settleRelease_error {lock : Lock} {l : Lease} {u : Instant} {o : Outcome LeaseRecord} {ledger : Ledger} {e : Error}
    (h : (lock.settleRelease l u o ledger).2.2.2 = .error e) :
    (o = .failed e ∧ ¬e.IsContractual) ∨ ∃ cause, e = .releaseFailed l.name lock.timeout cause := by
  cases hx : ReleaseOutcome.of? o with
  | some x =>
    obtain ⟨-, -, -, hresult⟩ := lock.settleRelease_verdict l u hx ledger
    by_cases hfailed : x = .failed
    · rw [if_pos hfailed] at hresult
      obtain ⟨cause, hcause⟩ := hresult
      rw [hcause] at h
      exact .inr ⟨cause, (Except.error.inj h).symm⟩
    · rw [if_neg hfailed] at hresult
      rw [hresult] at h
      cases h
  | none =>
    cases o with
    | answered r => cases hx
    | silent => cases hx
    | failed e' =>
      have hforeign := foreign_of_uncounted hx
      rw [Error.IsContractual, not_or, not_or] at hforeign
      obtain ⟨hunmet, htimeout, htransport⟩ := hforeign
      rw [settleRelease, if_neg hunmet, if_neg htimeout, if_neg htransport] at h
      cases h
      exact .inl ⟨rfl, foreign_of_uncounted hx⟩

end Lock
end Leasehold
