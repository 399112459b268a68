/-
  The winner of a contest.

  What becomes of the store is told by the score.  Here is told what the callers get, and what is counted.

  1. **`closing?`** — what a call has counted as, and for which lock, known when it is over;
  2. **`Books`** — the invariant of the counts: locks and metrics have counted each call that is over, and no other;
  3. **`Settled`** — what a call that is over shows: its fate is what it counted as, and tells what it returned;
  4. **`Contest.one_winner`** — when all calls are over, the score and the books are read off.
-/
import Leasehold.Proofs.Possession
import Leasehold.Proofs.Score
namespace Leasehold
namespace Loop

/-! ## The books -/

/-- **What a visit counted as**, and for which lock, when its caller has returned. -/
def Visit.closing? (v : Visit) : Option (Nat × AcquireOutcome) :=
  match v.caller with
  | .returned _ => v.fate?.map (v.owner, ·)
  | _ => none

def Call.closing? : Call → Option (Nat × AcquireOutcome)
  | sent v => v.closing?
  | unsent _ => none

/-- What those calls count as that are over. -/
def closing? (s : Loop) (k : Nat) : Option (Nat × AcquireOutcome) := (s.calls k).bind Call.closing?

section

variable {name : String} {now : Instant} {calls : Finset Nat} {s₀ s s' : Loop} {e : Event} {es : List Event} {k : Nat}
  {v v' : Visit} {c : Claim} {who : Value} {call : Call} {trouble : Nat}

theorem closing_sent (hk : s.calls k = some (.sent v)) : s.closing? k = v.closing? := by
  rw [closing?, hk]
  rfl

theorem closing_update (hcalls : s'.calls = Function.update s.calls k (some call)) :
    s'.closing? = Function.update s.closing? k call.closing? :=
  seen_update hcalls Call.closing?

/-- **The books of a contest**: every lock, and the metrics under the name, have counted the calls that are over. -/
structure Books (name : String) (calls : Finset Nat) (s₀ s : Loop) : Prop where
  statistics : ∀ n x, (s.locks n).statistics.count (.acquire x) =
    (s₀.locks n).statistics.count (.acquire x) + tally calls s.closing? (n, x)
  metrics : ∀ x, s.world.ledger.metrics.callCount name (.acquire x) =
    s₀.world.ledger.metrics.callCount name (.acquire x) + tally calls (Option.map Prod.snd ∘ s.closing?) x

/-- A step after which no more calls are over counts nothing. -/
theorem Books.quiet (h : Books name calls s₀ s) (hclosing : s'.closing? = s.closing?) (hlocks : s'.locks = s.locks)
    (hledger : s.world.ledger.SameCalls s'.world.ledger) : Books name calls s₀ s' where
  statistics n x := by
    rw [hclosing, hlocks]
    exact h.statistics n x
  metrics x := by
    rw [hclosing, hledger.callCount]
    exact h.metrics x

theorem Visit.closing_waits (waits : ¬v.IsOver) : v.closing? = none := by
  unfold closing?
  split
  · rename_i ending hc
    exact absurd ⟨ending, hc⟩ waits
  · rfl

/-- A visit that moves on is not over then. -/
theorem Visit.Bout.goes_on {m m' : Memory} (h : v.Bout c who m v' m') (hv : v.Enters name now who c) : ¬v'.IsOver := by
  have hwaits := h.waits hv
  cases h with
  | told hangs untold waits => nofun
  | _ => exact hwaits

/-- **Every event of a contest keeps the books.** -/
theorem Books.next (h : Books name calls s₀ s) (hs : s.Entered name now calls) (hstride : Stride name now calls s e s') :
    Books name calls s₀ s' := by
  have hopen : ∀ {k v}, s.calls k = some (.sent v) → ¬v.IsOver → s.closing? k = none := fun hk waits =>
    (closing_sent hk).trans (Visit.closing_waits waits)
  cases hstride with
  | outside call calls locks world =>
    exact h.quiet (by funext n; rw [closing?, closing?, calls]) locks (by rw [world]; exact ⟨rfl, rfl⟩)
  | @begins k owner c call mem unknown whole name takenAt calls locks world =>
    have hnone : s.closing? k = none := by
      rw [closing?, unknown]
      rfl
    refine h.quiet ?_ locks (by rw [world]; exact ⟨rfl, rfl⟩)
    rw [closing_update calls]
    exact Function.update_eq_self_iff.mpr hnone.symm
  | @moves k v v' c call known enters calls locks ledger bout =>
    refine h.quiet ?_ locks ledger
    rw [closing_update calls]
    refine Function.update_eq_self_iff.mpr ?_
    rw [hopen known (bout.waits enters)]
    exact Visit.closing_waits (bout.goes_on enters)
  | @settles k v c o x call known enters waits ended outcome counts hcalls locks ledger store =>
    have hmem : k ∈ calls := (hs.known known).1
    have hnone := hopen known waits
    have hclosing : s'.closing? = Function.update s.closing? k (some (v.owner, x)) := by
      rw [closing_update hcalls]
      congr 1
      show v.fate?.map (v.owner, ·) = some (v.owner, x)
      rw [enters.fate, outcome, Option.bind_some, counts]
      rfl
    -- the statistics are told apart by lock and outcome, the metrics by outcome alone
    constructor
    · intro n y
      rw [tally_update hmem hnone hclosing, ← Nat.add_assoc, ← h.statistics, locks]
      by_cases hn : n = v.owner
      · subst hn
        rw [Function.update_self, Lock.count_tick]
        simp
      · rw [Function.update_of_ne hn]
        simp [Ne.symm hn]
    · intro y
      have hsecond : (Option.map Prod.snd ∘ s.closing?) k = none := by
        rw [Function.comp_apply, hnone]
        rfl
      have hcounted : Option.map Prod.snd ∘ s'.closing? = Function.update (Option.map Prod.snd ∘ s.closing?) k (some x) := by
        rw [hclosing, Function.comp_update, Option.map_some]
      rw [tally_update hmem hsecond hcounted, ← Nat.add_assoc, ← h.metrics, ledger.callCount]
      show (s.world.ledger.metrics.tick c.name (.acquire x)).callCount name (.acquire y) = _
      rw [Metrics.callCount_tick, enters.name]
      simp

theorem Fresh.books (h₀ : s.Fresh) : Books name calls s s := by
  have hnone : ∀ k, s.closing? k = none := h₀.unseen Call.closing?
  have hnone' : ∀ k, (Option.map Prod.snd ∘ s.closing?) k = none := fun k => Option.map_eq_none_iff.mpr (hnone k)
  constructor
  · intro n x
    rw [tally_none hnone, Nat.add_zero]
  · intro x
    rw [tally_none hnone', Nat.add_zero]

/-! ## A whole contest -/

/-- **A contest keeps the score, and the books.** -/
theorem Contest.kept (hcontest : Contest name now calls s es s') (hs : s.Entered name now calls)
    (hfree : s₀.world.store.Free name now) (hscore : Score name calls trouble s₀ s) (hbooks : Books name calls s₀ s) :
    Score name calls trouble s₀ s' ∧ Books name calls s₀ s' := by
  induction hcontest with
  | still s => exact ⟨hscore, hbooks⟩
  | step proper next rest ih =>
    have hstride := hs.stride proper next
    exact ih (hs.next proper next) (hscore.next hs hfree hstride) (hbooks.next hs hstride)

/-! ## What calls return -/

/-- A call is over. -/
def IsOver (s : Loop) (k : Nat) : Prop := ∃ v, s.calls k = some (.sent v) ∧ v.IsOver

/-- A call has returned no lease. -/
def ReturnsNone (s : Loop) (k : Nat) : Prop :=
  ∃ v, s.calls k = some (.sent v) ∧ v.caller = .returned (.acquired (.ok none))

/-- **A call has returned a lease**, and it is the one that was asked for. -/
def Returns (s : Loop) (k : Nat) (l : Lease) : Prop :=
  ∃ v c, s.calls k = some (.sent v) ∧ v.job = .acquire c ∧ l = .ofClaim c (s.locks v.owner).identity ∧
    v.caller = .returned (.acquired (.ok (some l)))

/-- The lock that a call is of. -/
def owner? (s : Loop) (k : Nat) : Option Nat :=
  match s.calls k with
  | some (.sent v) => some v.owner
  | _ => none

/-- **What a call that is over counted as, and what it returned.** -/
structure Settled (s : Loop) (k n : Nat) (x : AcquireOutcome) : Prop where
  owner : s.owner? k = some n
  fate : s.fate? k = some x
  closing : s.closing? k = some (n, x)
  lease : x = .acquired → ∃ l, s.Returns k l ∧ s.Wants k l.record
  noLease : x ≠ .acquired → s.ReturnsNone k

theorem Entered.settled (hs : s.Entered name now calls) (hover : s.IsOver k) : ∃ n x, s.Settled k n x := by
  obtain ⟨v, hk, hv⟩ := hover
  obtain ⟨-, c, hc⟩ := hs.known hk
  obtain ⟨x, hfate, hcaller⟩ := hc.ending hv
  refine ⟨v.owner, x, by rw [owner?, hk], (fate_sent hk).trans hfate, ?_, ?_, ?_⟩
  · rw [closing_sent hk, Visit.closing?, hcaller, hfate]
    rfl
  · rintro rfl
    exact ⟨.ofClaim c (s.locks v.owner).identity, ⟨v, c, hk, hc.job, rfl, hcaller⟩, v, c, hk, hc.job, rfl⟩
  · intro hx
    refine ⟨v, hk, ?_⟩
    rw [hcaller, endingOf, if_neg hx]

theorem Wants.unique {r r' : LeaseRecord} (h : s.Wants k r) (h' : s.Wants k r') : r = r' := by
  obtain ⟨v, c, hv, hjob, rfl⟩ := h
  obtain ⟨w, d, hw, hjob', rfl⟩ := h'
  rw [hv] at hw
  cases hw
  rw [hjob] at hjob'
  cases hjob'
  rfl

/-- The calls that failed. -/
def failed (calls : Finset Nat) (s : Loop) : Finset Nat := calls.filter fun k => s.fate? k = some .failed

/-- **Each call that failed has counted as a failure of its lock, and under the name.** -/
theorem Books.failures (h : Books name calls s₀ s) (hsettled : ∀ k ∈ calls, ∃ n x, s.Settled k n x) :
    (∀ n, (s.locks n).statistics.acquireFailures =
      (s₀.locks n).statistics.acquireFailures + ((s.failed calls).filter fun k => s.owner? k = some n).card) ∧
    s.world.ledger.metrics.callCount name (.acquire .failed) =
      s₀.world.ledger.metrics.callCount name (.acquire .failed) + (s.failed calls).card := by
  refine ⟨fun n => ?_, ?_⟩
  · refine (h.statistics n .failed).trans (congrArg (_ + ·) ?_)
    rw [failed, Finset.filter_filter]
    refine congrArg Finset.card (Finset.filter_congr fun k hk => ?_)
    obtain ⟨m, x, hx⟩ := hsettled k hk
    rw [hx.closing, hx.fate, hx.owner]
    simp [And.comm]
  · refine (h.metrics .failed).trans (congrArg (_ + ·) ?_)
    refine congrArg Finset.card (Finset.filter_congr fun k hk => ?_)
    obtain ⟨m, x, hx⟩ := hsettled k hk
    rw [Function.comp_apply, hx.closing, hx.fate]
    rfl

/-- **The score at the end of a contest**: how many calls failed, and who of the others won. -/
theorem Score.final (h : Score name calls trouble s₀ s) (hs : s.Entered name now calls)
    (hsettled : ∀ k ∈ calls, ∃ n x, s.Settled k n x) :
    (s.failed calls).card = min calls.card trouble ∧
    (calls.card ≤ trouble → (∀ k ∈ calls, s.ReturnsNone k) ∧ s.world.store.records = s₀.world.store.records ∧
      s.world.store.writesApplied = s₀.world.store.writesApplied) ∧
    (trouble < calls.card → ∃ k ∈ calls, ∃ l, s.Returns k l ∧ (∀ j ∈ calls, j ≠ k → s.ReturnsNone j) ∧
      s.world.store.records = (s₀.world.store.put name l.record).records ∧
      s.world.store.writesApplied = s₀.world.store.writesApplied + 1 ∧
      s.world.store.conditionsFailed = s₀.world.store.conditionsFailed + (calls.card - trouble - 1)) := by
  have htotal := tally_total fun k hk => by
    obtain ⟨n, x, hx⟩ := hsettled k hk
    exact ⟨x, hx.fate⟩
  have hfailed : (s.failed calls).card = tally calls s.fate? .failed := rfl
  obtain ⟨n, hn, hmet⟩ := h.ahead
  have hwrites := h.writes
  have hrefusals := h.refusals
  cases h.taken with
  | untouched unwritten unrefused records =>
    -- nobody came through: all calls failed
    refine ⟨by omega, fun _ => ⟨fun k hk => ?_, records, by omega⟩, fun hless => by omega⟩
    obtain ⟨n, x, hx⟩ := hsettled k hk
    refine hx.noLease ?_
    rintro rfl
    exact not_fate_of_tally unwritten hk hx.fate
  | @written k r once wants fate records clear =>
    -- somebody came through, and no trouble is left
    obtain rfl := hn.unique clear
    refine ⟨by omega, fun hless => by omega, fun _ => ?_⟩
    have hk : k ∈ calls := by
      obtain ⟨w, -, hw, -⟩ := wants
      exact (hs.enters k _ hw).1
    obtain ⟨n, x, hx⟩ := hsettled k hk
    obtain rfl : x = .acquired := Option.some.inj (hx.fate.symm.trans fate)
    obtain ⟨l, hreturns, hl⟩ := hx.lease rfl
    refine ⟨k, hk, l, hreturns, fun j hj hjk => ?_, by rw [hl.unique wants]; exact records, by omega, by omega⟩
    obtain ⟨m, y, hy⟩ := hsettled j hj
    refine hy.noLease ?_
    rintro rfl
    exact hjk (eq_of_tally once hk fate hj hy.fate)

/-! ## One winner -/

/-- **One winner, under contention and trouble.**  Any number of calls, of any locks, try to acquire a name at a moment
at which it is free, each with a deadline after that moment; of the requests that come to the store, `h` will hang and
`f` will be lost.  In whatever order the calls go on, as long as only requests that hang run out of time and nobody is
cancelled:

1. the contest comes to an end: it has no more than six steps for each call, and while no stranger is inside the gate,
   a call that has begun and is not over can go on, or another can;
2. when all calls are over, as many have failed as there was trouble, or all if there were fewer.  Those count as
   failures, each with its own lock and under the name, and have no lease;
3. if that was all of them, nobody has a lease, and no record was written;
4. otherwise just one call has a lease, the one that it asked for; the record of the name is the record of the lease,
   it was written once, and all others that did not fail were refused. -/
theorem Contest.one_winner {h f : Nat} (h₀ : s.Fresh) (hhangs : s.world.store.hanging = h)
    (hfails : s.world.store.failing = f) (hfree : s.world.store.Free name now)
    (hcontest : Contest name now calls s es s') :
    (es.countP (·.call?.isSome) ≤ calls.card * 6 ∧
      (s'.gate.isShut = false → ∀ k v, s'.calls k = some (.sent v) → ¬v.IsOver →
        ∃ e s'', e.call?.isSome ∧ s'.Proper name now calls e ∧ s'.next e = some s'')) ∧
    ((∀ k ∈ calls, s'.IsOver k) →
      (∃ failed ⊆ calls, failed.card = min calls.card (h + f) ∧ (∀ k ∈ failed, s'.ReturnsNone k) ∧
        (∀ n, (s'.locks n).statistics.acquireFailures =
          (s.locks n).statistics.acquireFailures + (failed.filter fun k => s'.owner? k = some n).card) ∧
        s'.world.ledger.metrics.acquires.count (name, .failed) =
          s.world.ledger.metrics.acquires.count (name, .failed) + failed.card) ∧
      (calls.card ≤ h + f → (∀ k ∈ calls, s'.ReturnsNone k) ∧ s'.world.store.records = s.world.store.records ∧
        s'.world.store.writesApplied = s.world.store.writesApplied) ∧
      (h + f < calls.card → ∃ k ∈ calls, ∃ l, s'.Returns k l ∧ (∀ j ∈ calls, j ≠ k → s'.ReturnsNone j) ∧
        s'.world.store.find? (.text name) = some l.record ∧
        s'.world.store.writesApplied = s.world.store.writesApplied + 1 ∧
        s'.world.store.conditionsFailed = s.world.store.conditionsFailed + (calls.card - h - f - 1))) := by
  have hahead : s.world.store.Ahead (h + f) := ⟨h, f, hhangs, hfails, rfl⟩
  have hstart : s.Entered name now calls := h₀.entered
  have hentered : s'.Entered name now calls := hstart.run hcontest
  obtain ⟨hscore, hbooks⟩ := hcontest.kept hstart hfree (h₀.score hahead) h₀.books
  have hrest := hstart.rest_run hcontest
  rw [h₀.rest] at hrest
  refine ⟨⟨by omega, fun hopen k v hk waits => hentered.goes_on hopen hk waits⟩, fun hover => ?_⟩
  have hsettled : ∀ k ∈ calls, ∃ n x, s'.Settled k n x := fun k hk => hentered.settled (hover k hk)
  obtain ⟨hcard, hlost, hwon⟩ := hscore.final hentered hsettled
  obtain ⟨hstatistics, hmetrics⟩ := hbooks.failures hsettled
  refine ⟨⟨s'.failed calls, Finset.filter_subset .., hcard, fun k hk => ?_, hstatistics, hmetrics⟩, hlost,
    fun hless => ?_⟩
  · obtain ⟨hmem, hfate⟩ := Finset.mem_filter.mp hk
    obtain ⟨n, x, hx⟩ := hsettled k hmem
    obtain rfl := Option.some.inj (hx.fate.symm.trans hfate)
    exact hx.noLease nofun
  · obtain ⟨k, hk, l, hreturns, hothers, hrecords, hwrites, hrefusals⟩ := hwon hless
    refine ⟨k, hk, l, hreturns, hothers, ?_, hwrites, ?_⟩
    · rw [Memory.find_congr hrecords]
      exact Memory.find_put_text ..
    · rw [hrefusals, Nat.sub_sub calls.card h f]

end

/-! ## A contest of four

The record of the name ends at the very moment, one request will hang, and one will be lost.  A stranger is inside the
gate when the third and the fourth come there.  They stand in the row; the third is woken first, and writes. -/

def fourStart : Loop :=
  { atStart with
    world := ⟨⟨[(.text "job", ⟨.text "job", later 40000, some (later 3000), .text "old"⟩)], 1, 1, 0, 0⟩, .empty⟩ }

def askFor (k owner : Nat) : Event :=
  .tryAcquire k owner (.moment (later 40000)) (.text "job") (.moment (later 100000)) .none

def fourRun : List Event :=
  [askFor 0 0, askFor 1 0, askFor 2 1, askFor 3 0, .enter, .turn 0, .turn 0, .turn 1, .turn 1, .turn 2, .turn 2, .turn 3,
   .turn 3, .exit, .turn 2, .interrupt 0 .timeout, .turn 3, .turn 0, .resume 3, .resume 0, .resume 1, .resume 2]

/-- The loop that the contest comes to. -/
def fourEnd : Loop := (fourStart.run fourRun).get rfl

theorem askFor_proper {s : Loop} {k owner : Nat} (hk : k ∈ Finset.range 4) :
    s.Proper "job" (later 40000) (Finset.range 4) (askFor k owner) :=
  proper_ask hk rfl (by decide) rfl rfl (by decide)

/-- Time runs out for the first, whose request hangs. -/
theorem fourRun_contest : Contest "job" (later 40000) (Finset.range 4) fourStart fourRun fourEnd := by
  refine .step (askFor_proper (by decide)) rfl ?_
  refine .step (askFor_proper (by decide)) rfl ?_
  refine .step (askFor_proper (by decide)) rfl ?_
  refine .step (askFor_proper (by decide)) rfl ?_
  iterate 11 refine .step trivial rfl ?_
  refine .step ⟨rfl, _, rfl, rfl⟩ rfl ?_
  iterate 6 refine .step trivial rfl ?_
  exact .still _

theorem fourEnd_over : ∀ k ∈ Finset.range 4, fourEnd.IsOver k := by
  intro k hk
  match k, Finset.mem_range.mp hk with
  | 0, _ => exact ⟨_, rfl, _, rfl⟩
  | 1, _ => exact ⟨_, rfl, _, rfl⟩
  | 2, _ => exact ⟨_, rfl, _, rfl⟩
  | 3, _ => exact ⟨_, rfl, _, rfl⟩

/-- Two of the four fail, one has its lease, and one is refused; the steps of calls were no more than 24. -/
theorem Contest.one_of_four :
    fourRun.countP (·.call?.isSome) ≤ 24 ∧
    (∃ failed ⊆ Finset.range 4, failed.card = 2 ∧ (∀ k ∈ failed, fourEnd.ReturnsNone k) ∧
      fourEnd.world.ledger.metrics.acquires.count ("job", .failed) = failed.card) ∧
    ∃ k ∈ Finset.range 4, ∃ l, fourEnd.Returns k l ∧ (∀ j ∈ Finset.range 4, j ≠ k → fourEnd.ReturnsNone j) ∧
      fourEnd.world.store.find? (.text "job") = some l.record ∧ fourEnd.world.store.writesApplied = 1 ∧
      fourEnd.world.store.conditionsFailed = 1 := by
  have hfresh : fourStart.Fresh := ⟨fun _ => rfl, fun _ => rfl, rfl⟩
  obtain ⟨⟨hsteps, -⟩, hover⟩ :=
    Contest.one_winner (h := 1) (f := 1) hfresh rfl rfl (by decide) fourRun_contest
  obtain ⟨⟨failed, hsub, hcard, hnone, -, hmetrics⟩, -, hwinner⟩ := hover fourEnd_over
  obtain ⟨k, hk, l, hreturns, hothers, hrecord, hwrites, hrefusals⟩ := hwinner (by decide)
  exact ⟨hsteps, ⟨failed, hsub, hcard, hnone, hmetrics.trans (Nat.zero_add _)⟩, k, hk, l, hreturns, hothers, hrecord,
    hwrites, hrefusals⟩

end Loop
end Leasehold
