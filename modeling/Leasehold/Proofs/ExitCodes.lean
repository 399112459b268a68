/-
  How the program ends that runs another one.

  `run` reads durations from words, makes a store and a lock, takes the lock, starts a program, gives the lease back, and makes
  an exit code of whatever came of all this.  Every step has failures of its own.  Those that the program catches are told
  in the journal and become exit code 1; any other failure ends the program without an exit code.

  1. **`Told`** — the program ends with code 1, and says why;
  2. **`planFault_value`, `timeoutFault_value`** — a store that cannot be planned and a lock that cannot be made are
     malformed values, and these are told;
  3. **`Equipped`, `Attempt`** — a run that has its store and its lock, and one that has also a claim to try;
  4. **`Run.runner_refused`, `Run.runner_guarded`** — what a run comes to without a lease and with one;
  5. **`Attempt.refused`, `Attempt.granted_ends`** — how the program ends then;
  6. **`run_exits`** — all ways in which the program ends, with the ONE GAP: durations that lead out of range
     (`Overflows`), which the program does not catch (`tidying_escapes`).
-/
import Leasehold.CommandLine.Program
import Leasehold.Proofs.Closing
import Leasehold.Proofs.Durations
import Leasehold.Proofs.Retries
import Leasehold.Proofs.Words
namespace Leasehold

/-- **A lock wins** if the store answers its write with a record that lasts until the ceiling. -/
def Lock.Wins {σ : Type} (S : LeaseStore σ) (lock : Lock) (claim : Claim) (w : World σ) : Prop :=
  ∃ r, (S.tryUpdate (claim.request lock.identity) w).2 = .answered r ∧ r.lockUntil = claim.atMost

/-! ## Failures that the program catches -/

/-- A failure of a family out of range belongs to no other family, -/
theorem Kind.isA_overflow {k : Kind} (h : k.isA .overflow = true) : k = .overflow := by
  cases k <;> simp_all [Kind.isA, Kind.chain]

namespace CommandLine

/-- so the program does not catch it. -/
theorem isReported_overflow {e : Error} (h : e.isA .overflow = true) : isReported e = false := by
  have hkind := Kind.isA_overflow h
  simp only [isReported, Error.isA, hkind]
  rfl

theorem isReported_value {e : Error} (h : e.isA .value = true) : isReported e = true := by
  rw [isReported, h, Bool.or_true]

/-- **The program ends with code 1 and says why.** -/
structure Told (e : Error) (p : Ledger × Exit) : Prop where
  code : p.2.result = .ok 1
  logged : p.1.journal.getLast? = some ⟨.error, "Error: " ++ e.message⟩

/-- A failure that the program catches is told. -/
theorem settle_told {ending : Ending} {e : Error} (h : ending.result = .error e) (hready : isReported e = true)
    (ledger : Ledger) : Told e (settle ending ledger) := by
  simp only [settle, h, hready, if_true]
  exact ⟨rfl, List.getLast?_concat⟩

/-- Any other failure ends the program. -/
theorem settle_escapes {ending : Ending} {e : Error} (h : ending.result = .error e) (hnot : isReported e = false)
    (ledger : Ledger) : (settle ending ledger).2.result = .error e := by
  simp only [settle, h, hnot, Bool.false_eq_true, if_false]

theorem settle_code {ending : Ending} {code : Int} (h : ending.result = .ok code) (ledger : Ledger) :
    settle ending ledger = (ledger, ⟨.ok code, ending.out, "", ending.child⟩) := by
  simp only [settle, h]

/-! ## Stores and locks -/

/-- An address of a table that cannot be used is a malformed value. -/
theorem endpointFault_value {url : String} {fault : ClientFault} (h : Endpoint.fault? url = some fault) :
    (Error.client fault).isA .value = true := by
  simp only [Endpoint.fault?] at h
  split at h
  · cases h
    rfl
  split at h
  · cases h
    rfl
  split at h
  · cases h
    rfl
  split at h
  · cases h
  · cases h
    rfl

theorem tableFault_value {s : Settings} {t : Binary64} (ht : s.storeTimeout = .real t) {fault : ClientFault}
    (h : StorePlan.forTable s = .error fault) : (Error.client fault).isA .value = true := by
  simp only [StorePlan.forTable] at h
  split at h
  · cases h
    rfl
  split at h
  · rename_i found hfound
    cases h
    rcases Option.or_eq_some_iff.mp hfound with haddress | ⟨-, hwait⟩
    · exact endpointFault_value haddress
    · rw [ht, StorePlan.timeoutFault?] at hwait
      split at hwait
      · cases hwait
        rfl
      · cases hwait
  · cases h

/-- **A store that cannot be planned is told**, if the time to wait is a number and the kind of store is a word. -/
theorem planFault_value {s : Settings} {t : Binary64} (ht : s.storeTimeout = .real t) {asked : Option String} {e : Error}
    (h : StorePlan.ofSettings s ((asked.map Value.text).getD .null) = .error e) : e.isA .value = true := by
  have hnamed : ∃ name, StorePlan.ofName s name = .error e := by
    cases asked with
    | none => exact ⟨_, h⟩
    | some kind =>
      simp only [StorePlan.ofSettings, Option.map_some, Option.getD_some] at h
      split at h
      · exact ⟨_, h⟩
      · rename_i hkind
        split at hkind
        · exact absurd rfl (hkind kind)
        · exact absurd rfl (hkind s.leaseStore)
  obtain ⟨name, hname⟩ := hnamed
  simp only [StorePlan.ofName] at hname
  split at hname
  · cases hname
  split at hname
  · cases hname
  split at hname
  · cases hname
  split at hname
  · obtain ⟨fault, hfault, rfl⟩ := Except.mapError_error hname
    exact tableFault_value ht hfault
  · cases hname
    rfl

/-- **A lock that cannot be made is told**, if the time to wait is a number. -/
theorem timeoutFault_value {t : Binary64} {e : Error} (h : Lock.timeoutFault? (.real t) = some e) :
    e.isA .value = true := by
  simp only [Lock.timeoutFault?] at h
  split at h
  · cases h
    rfl
  · cases h

/-! ## Runs with a store and a lock -/

section

variable {σ : Type} (S : LeaseStore σ) (make : StorePlan → σ) (around : Surroundings) (a : Arguments) (ledger : Ledger)

/-- **A run that has its store and its lock.** -/
structure Equipped (w : World σ) (lock : Lock) : Prop where
  store : ∃ plan, StorePlan.ofSettings around.settings a.asked = .ok plan ∧ w.store = make plan
  lock : Lock.make around.settings around.host .null .null ledger = (w.ledger, .ok lock)

variable {S make around a ledger} {words : List String} {name : String} {most least : Binary64}

/-- The program on words that ask for a run. -/
theorem programOn_run (hlog : prepare around = .ok ()) (hwords : Arguments.ofWords words = .ok a)
    (hrun : a.command = .run name (.real most) (.real least)) :
    programOn S make around words ledger = settle (withStore S make around a ledger).2 (withStore S make around a ledger).1 := by
  simp only [programOn, hwords, hlog, perform, hrun]

/-- **With its store and its lock** the program ends as the run does. -/
theorem programOn_equipped (hlog : prepare around = .ok ()) (hwords : Arguments.ofWords words = .ok a)
    (hrun : a.command = .run name (.real most) (.real least)) {w : World σ} {lock : Lock}
    (h : Equipped make around a ledger w lock) {ending : Ending} {r : Run σ}
    (hends : ((Run.runner S around a.words).run (termsOf name most least)).run ⟨w, lock, ""⟩ = (ending, r)) :
    programOn S make around words ledger = settle ending r.world.ledger := by
  obtain ⟨⟨plan, hplan, hstore⟩, hlock⟩ := h
  have hworld : (⟨make plan, w.ledger⟩ : World σ) = w := by rw [← hstore]
  have hrunning : run S around (termsOf name most least) a.words ⟨make plan, ledger⟩ = (r.world, ending) := by
    simp only [run, hlock, hworld, hends]
  have hstored : withStore S make around a ledger = (r.world.ledger, ending) := by
    simp only [withStore, hplan, commandOn, hrun]
    rw [show [GivenDuration.value (.text name), .value (.real most), .value (.real least)] = termsOf name most least from rfl,
      hrunning]
  rw [programOn_run hlog hwords hrun, hstored]

/-- **Without one of them** it tells why. -/
theorem programOn_unequipped {t : Binary64} (htimeout : around.settings.storeTimeout = .real t)
    (hlog : prepare around = .ok ()) (hwords : Arguments.ofWords words = .ok a)
    (hrun : a.command = .run name (.real most) (.real least))
    (h : ¬∃ w lock, Equipped make around a ledger w lock) : ∃ e, Told e (programOn S make around words ledger) := by
  rw [programOn_run hlog hwords hrun]
  cases hplan : StorePlan.ofSettings around.settings a.asked with
  | error e =>
    have hstored : withStore S make around a ledger = (ledger, .failed e) := by simp only [withStore, hplan]
    rw [hstored]
    exact ⟨e, settle_told rfl (isReported_value (planFault_value htimeout hplan)) ledger⟩
  | ok plan =>
    rcases makeLock_cases around.settings around.host ledger with ⟨e, hfault, hmade⟩ | ⟨-, ledger', lock, hmade⟩
    · have hstored : withStore S make around a ledger = (ledger, .failed e) := by
        simp only [withStore, hplan, commandOn, hrun, run, hmade]
      rw [hstored]
      rw [htimeout] at hfault
      exact ⟨e, settle_told rfl (isReported_value (timeoutFault_value hfault)) ledger⟩
    · exact absurd ⟨⟨make plan, ledger'⟩, lock, ⟨plan, hplan, rfl⟩, hmade⟩ h

end

/-! ## What a run comes to -/

namespace Run

variable {σ : Type} {S : LeaseStore σ} {around : Surroundings} {words : List String} {terms : Terms} {claim : Claim}
  {args : List GivenDuration} {r : Run σ}

/-- A run whose store was closed. -/
def closed (S : LeaseStore σ) (r : Run σ) : Run σ := { r with world := S.close r.world }

/-- The steps of a run under terms. -/
abbrev steps (S : LeaseStore σ) (around : Surroundings) (words : List String) (terms : Terms) :
    Guarded (StateM (Run σ)) Lease :=
  (runner S around words).guarded terms

theorem runner_malformed {e : Error} (h : Terms.ofArguments args = .error e) :
    ((runner S around words).run args).run r = (Ending.failed e, r.closed S) := by
  rw [Runner.run, h]
  rfl

/-- A run ends as the run under its terms does. -/
theorem runner_ends (h : Terms.ofArguments args = .ok terms) {result : Except Error (Option Value)} {r' : Run σ}
    (hends : (Evaluation.ofState (Run σ)).eval ((steps S around words terms).run terms.name) r = some (result, r')) :
    ((runner S around words).run args).run r = (Ending.ofRun terms.name r'.child result, r'.closed S) := by
  have heval : (Evaluation.ofState (Run σ)).eval ((runner S around words).run args) r =
      some (Ending.ofRun terms.name r'.child result, r'.closed S) := by
    rw [Runner.run, h]
    exact (Evaluation.ofState (Run σ)).eval_bind_of hends _
  exact Option.some.inj heval

theorem steps_notes : Guarded.Notes (.ofState (Run σ)) (steps S around words terms) := fun _ _ _ => ⟨_, rfl⟩

/-- Notes leave what the child wrote. -/
theorem child_noted {r' : Run σ} (h : Guarded.Noted (.ofState _) (steps S around words terms) r r') : r'.child = r.child := by
  rcases h with rfl | ⟨level, text, hnote⟩
  · rfl
  · cases hnote
    rfl

/-- The run once its lock has come to a verdict on a claim. -/
def acquired (S : LeaseStore σ) (claim : Claim) (r : Run σ) : Run σ :=
  { r with world := (r.lock.tryAcquire S claim r.world).1, lock := (r.lock.tryAcquire S claim r.world).2.1 }

theorem steps_acquire (hclaim : Claim.ofTerms terms around.now = .ok claim) :
    (Evaluation.ofState (Run σ)).eval (steps S around words terms).acquire r =
      some ((r.lock.tryAcquire S claim r.world).2.2, r.acquired S claim) := by
  simp only [Evaluation.ofState, steps, runner, acquire, hclaim]
  rfl

/-- A run that noted that it got no lease. -/
def skipped (S : LeaseStore σ) (terms : Terms) (claim : Claim) (r : Run σ) : Run σ :=
  { r.acquired S claim with
    world := (r.acquired S claim).world.note .info ("Not executing '" ++ terms.name ++ "', lock not acquired") }

/-- **Without a lease** that is noted, and nothing else is done. -/
theorem runner_refused (hterms : Terms.ofArguments args = .ok terms) (hclaim : Claim.ofTerms terms around.now = .ok claim)
    (hnone : (r.lock.tryAcquire S claim r.world).2.2 = .ok none) :
    ((runner S around words).run args).run r =
      (Ending.ofRun terms.name r.child (.ok none), (r.skipped S terms claim).closed S) := by
  have hacquire : (Evaluation.ofState (Run σ)).eval (steps S around words terms).acquire r = _ := steps_acquire hclaim
  rw [hnone] at hacquire
  have hends : (Evaluation.ofState (Run σ)).eval ((steps S around words terms).run terms.name) r =
      some (.ok none, r.skipped S terms claim) := by
    rw [Guarded.run, (Evaluation.ofState (Run σ)).eval_bind_of hacquire]
    rfl
  exact runner_ends hterms hends

/-- A release of a lease that is open, at a moment: it fails just if its outcome does not settle it. -/
theorem steps_release (hS : S.KeepsContract) {now : Instant} (hnow : around.now = .moment now) (words : List String)
    (terms : Terms) (r : Run σ) (lease : Lease) (hopen : lease.released = false) :
    ∃ back r', (Evaluation.ofState (Run σ)).eval ((steps S around words terms).release lease) r = some (back, r') ∧
      r'.child = r.child ∧
      ((S.update (lease.releaseRequest (lease.releaseUntil now.truncate)) r.world).2.Settles → back = .ok ()) ∧
      (¬(S.update (lease.releaseRequest (lease.releaseUntil now.truncate)) r.world).2.Settles →
        ∃ cause, back = .error (.releaseFailed lease.name r.lock.timeout cause)) := by
  obtain ⟨y, hy⟩ := ReleaseOutcome.of?_contractual (hS.releases lease (lease.releaseUntil now.truncate) r.world)
  obtain ⟨-, -, -, hback⟩ := r.lock.settleRelease_verdict lease (lease.releaseUntil now.truncate) hy
    (S.update (lease.releaseRequest (lease.releaseUntil now.truncate)) r.world).1.ledger
  have hreading : around.now.truncate = .ok now.truncate := by rw [hnow, GivenTime.truncate_moment]
  simp only [Evaluation.ofState, steps, runner, release, Lock.release, hopen, hreading, Bool.false_eq_true, if_false]
  refine ⟨_, _, rfl, rfl, fun hsettles => ?_, fun hnot => ?_⟩
  · rwa [if_neg ((Outcome.settles_iff hy).mp hsettles)] at hback
  · rwa [if_pos (by_contra fun hne => hnot ((Outcome.settles_iff hy).mpr hne))] at hback

/-- **With a lease** the program is started, the lease is given back, and the run comes to both their ends. -/
theorem runner_guarded (hS : S.KeepsContract) {now : Instant} (hnow : around.now = .moment now)
    (hterms : Terms.ofArguments args = .ok terms) (hclaim : Claim.ofTerms terms around.now = .ok claim)
    (hlease : (r.lock.tryAcquire S claim r.world).2.2 = .ok (some (.ofClaim claim r.lock.identity)))
    {ending : Except Error Value} {begun : Run σ} (hstart : (start around words).run (r.acquired S claim) = (ending, begun)) :
    let lease := Lease.ofClaim claim r.lock.identity
    let o := (S.update (lease.releaseRequest (lease.releaseUntil now.truncate)) begun.world).2
    ∃ back r', ((runner S around words).run args).run r =
        (Ending.ofRun terms.name begun.child (Guarded.verdict ending back), r') ∧
      (o.Settles → back = .ok ()) ∧
      (¬o.Settles → ∃ cause, back = .error (.releaseFailed claim.name begun.lock.timeout cause)) := by
  intro lease o
  have hacquire : (Evaluation.ofState (Run σ)).eval (steps S around words terms).acquire r = _ := steps_acquire hclaim
  rw [hlease] at hacquire
  have htask : (Evaluation.ofState (Run σ)).eval (steps S around words terms).task (r.acquired S claim) = some (ending, begun) :=
    congrArg some hstart
  obtain ⟨back, r', hrelease, hchild, hback⟩ := steps_release hS hnow words terms begun lease rfl
  obtain ⟨r'', hends, hnoted⟩ := Guarded.run_guarded steps_notes hacquire htask hrelease terms.name
  refine ⟨back, r''.closed S, ?_, hback⟩
  rw [runner_ends hterms hends, child_noted hnoted, hchild]

end Run

/-! ## Overflows and attempts -/

/-- **Durations that lead out of range**: they are past counting, or the terms that they make end past the calendar. -/
def Overflows (name : String) (most least : Binary64) (now : Instant) : Prop :=
  Uncountable most least ∨ ∃ terms, Terms.ofArguments (termsOf name most least) = .ok terms ∧ terms.EndsPast now

section

variable {σ : Type} {S : LeaseStore σ} (make : StorePlan → σ) (around : Surroundings) (a : Arguments) (ledger : Ledger)
  (name : String) (most least : Binary64)

/-- **A run that asks its store for the lock**: it has its store, its lock, and a claim. -/
structure Attempt (w : World σ) (lock : Lock) (terms : Terms) (claim : Claim) : Prop extends
    Equipped make around a ledger w lock where
  accepted : Terms.ofArguments (termsOf name most least) = .ok terms
  claimed : Claim.ofTerms terms around.now = .ok claim

variable {make around a ledger name most least} {words : List String} {w : World σ} {lock : Lock} {terms : Terms}
  {claim : Claim} {now : Instant}

variable (hlog : prepare around = .ok ()) (hwords : Arguments.ofWords words = .ok a)
  (hrun : a.command = .run name (.real most) (.real least))
include hlog hwords hrun

/-- Durations that are no terms end the run before the lock is tried, -/
theorem programOn_malformed (h : Equipped make around a ledger w lock) {e : Error}
    (he : Terms.ofArguments (termsOf name most least) = .error e) :
    programOn S make around words ledger = settle (.failed e) ((⟨w, lock, ""⟩ : Run σ).closed S).world.ledger :=
  programOn_equipped hlog hwords hrun h (Run.runner_malformed he)

/-- and so do terms that are no claim. -/
theorem programOn_rejected (h : Equipped make around a ledger w lock)
    (hterms : Terms.ofArguments (termsOf name most least) = .ok terms) {e : Error}
    (he : Claim.ofTerms terms around.now = .error e) :
    programOn S make around words ledger =
      settle (.ofRun terms.name "" (.error e)) ((⟨w, lock, ""⟩ : Run σ).closed S).world.ledger := by
  have hacquire : (Evaluation.ofState (Run σ)).eval (Run.steps S around a.words terms).acquire ⟨w, lock, ""⟩ =
      some (.error e, ⟨w, lock, ""⟩) := by
    simp only [Evaluation.ofState, Run.steps, Run.runner, Run.acquire, he]
  exact programOn_equipped hlog hwords hrun h (Run.runner_ends hterms (Guarded.run_rejected hacquire terms.name))

/-- **A run with a store and a lock** leads out of range, or is told to be wrong, or becomes an attempt. -/
theorem programOn_cases (h : Equipped make around a ledger w lock) (hnow : around.now = .moment now) :
    (Overflows name most least now ∧
        ∃ e, (programOn S make around words ledger).2.result = .error e ∧ e.isA .overflow = true) ∨
      ¬Overflows name most least now ∧ ((∃ e, Told e (programOn S make around words ledger)) ∨
        ∃ terms claim, Attempt make around a ledger name most least w lock terms claim) := by
  rcases Terms.ofArguments_cases name most least with
    ⟨huncountable, e, he, hoverflow⟩ | ⟨hcounts, ⟨terms, hterms⟩ | ⟨e, he, hvalue⟩⟩
  · refine .inl ⟨.inl huncountable, e, ?_, hoverflow⟩
    rw [programOn_malformed hlog hwords hrun h he]
    exact settle_escapes rfl (isReported_overflow hoverflow) _
  · -- the terms are accepted, so it is the moment that decides
    rcases Claim.ofTerms_moment terms now with ⟨hpast, he⟩ | ⟨hin, hclaim⟩
    · refine .inl ⟨.inr ⟨terms, hterms, hpast⟩, .time .outOfCalendar, ?_, rfl⟩
      rw [programOn_rejected hlog hwords hrun h hterms (hnow ▸ he)]
      exact settle_escapes rfl rfl _
    · refine .inr ⟨?_, ?_⟩
      · rintro (huncountable | ⟨terms', hterms', hpast⟩)
        · exact hcounts huncountable
        · obtain rfl := Except.ok.inj (hterms.symm.trans hterms')
          exact hin hpast
      rcases hclaim with ⟨claim, hclaim⟩ | ⟨fault, he⟩
      · exact .inr ⟨terms, claim, h, hterms, hnow ▸ hclaim⟩
      · refine .inl ⟨.terms fault, ?_⟩
        rw [programOn_rejected hlog hwords hrun h hterms (hnow ▸ he)]
        exact settle_told rfl rfl _
  · refine .inr ⟨?_, .inl ⟨e, ?_⟩⟩
    · rintro (huncountable | ⟨terms', hterms', -⟩)
      · exact hcounts huncountable
      · rw [he] at hterms'
        cases hterms'
    · rw [programOn_malformed hlog hwords hrun h he]
      exact settle_told rfl (isReported_value hvalue) _

/-- **An attempt that gets no lease** ends with code 0, and nothing is started. -/
theorem Attempt.refused (h : Attempt make around a ledger name most least w lock terms claim) (hS : S.KeepsContract)
    (hnot : ¬lock.Wins S claim w) :
    (programOn S make around words ledger).2.result = .ok 0 ∧
      ∀ spawn, programOn S make { around with spawn } words ledger = programOn S make around words ledger := by
  obtain ⟨x, hx⟩ := AcquireOutcome.of?_contractual (hS.acquires claim lock.identity w) claim
  obtain ⟨-, -, hresult⟩ := lock.settleAcquire_verdict hx (S.tryUpdate (claim.request lock.identity) w).1.ledger
  have hother : x ≠ .acquired := by
    rintro rfl
    exact hnot (AcquireOutcome.of?_acquired.mp hx)
  rw [if_neg hother] at hresult
  have hprogram : ∀ spawn, programOn S make { around with spawn } words ledger =
      settle (Ending.ofRun terms.name "" (.ok none))
        (((⟨w, lock, ""⟩ : Run σ).skipped S terms claim).closed S).world.ledger := by
    intro spawn
    have hequipped : Equipped make { around with spawn } a ledger w lock := ⟨h.store, h.lock⟩
    have hlog' : prepare { around with spawn } = .ok () := hlog
    have hclaimed : Claim.ofTerms terms ({ around with spawn } : Surroundings).now = .ok claim := h.claimed
    exact programOn_equipped hlog' hwords hrun hequipped (Run.runner_refused h.accepted hclaimed hresult)
  have hplain := hprogram around.spawn
  refine ⟨?_, fun spawn => (hprogram spawn).trans hplain.symm⟩
  rw [show programOn S make around words ledger = _ from hplain, settle_code rfl]

/-- **An attempt that gets its lease** starts the program and gives the lease back, and ends as both did. -/
theorem Attempt.granted (h : Attempt make around a ledger name most least w lock terms claim) (hS : S.KeepsContract)
    (hnow : around.now = .moment now)
    (hacquired : lock.Wins S claim w)
    {ending : Except Error Value} {begun : Run σ}
    (hstart : (Run.start around a.words).run (Run.acquired S claim ⟨w, lock, ""⟩) = (ending, begun)) :
    let lease := Lease.ofClaim claim lock.identity
    let o := (S.update (lease.releaseRequest (lease.releaseUntil now.truncate)) begun.world).2
    ∃ back after, programOn S make around words ledger =
        settle (Ending.ofRun terms.name begun.child (Guarded.verdict ending back)) after ∧
      (o.Settles → back = .ok ()) ∧
      (¬o.Settles → ∃ cause, back = .error (.releaseFailed claim.name begun.lock.timeout cause)) := by
  intro lease o
  have hx := AcquireOutcome.of?_acquired.mpr hacquired
  obtain ⟨-, -, hresult⟩ := lock.settleAcquire_verdict hx (S.tryUpdate (claim.request lock.identity) w).1.ledger
  rw [if_pos rfl] at hresult
  obtain ⟨back, r, hends, hback⟩ := Run.runner_guarded (r := ⟨w, lock, ""⟩) hS hnow h.accepted h.claimed hresult hstart
  exact ⟨back, r.world.ledger, programOn_equipped hlog hwords hrun h.toEquipped hends, hback⟩

end

/-! ## All ends -/

namespace Run

variable {σ : Type} {around : Surroundings} {words : List String}

theorem start_spawned {code : Int} {text : String} (h : around.spawn words = .ok (code, text)) (r : Run σ) :
    (start around words).run r = (.ok (.int code), { r with child := r.child ++ text }) := by
  simp only [start, h]
  rfl

/-- A program that the system does not start has an exit code of its own. -/
theorem start_unstartable {e : Error} (h : around.spawn words = .error e) (hsystem : e.isA .system = true) (r : Run σ) :
    (start around words).run r =
      (.ok (.int 127), { r with world := r.world.note .error ("Cannot run " ++ words.headD "" ++ ": " ++ e.message) }) := by
  simp only [start, h, startFailure, hsystem, if_true]
  rfl

theorem start_fails {e : Error} (h : around.spawn words = .error e) (hnot : e.isA .system = false) (r : Run σ) :
    (start around words).run r = (.error e, r) := by
  simp only [start, h, startFailure, hnot, Bool.false_eq_true, if_false]
  rfl

end Run

section

variable {σ : Type} {S : LeaseStore σ} {make : StorePlan → σ} {around : Surroundings} {a : Arguments} {ledger : Ledger}
  {name : String} {most least : Binary64} {words : List String} {w : World σ} {lock : Lock} {terms : Terms} {claim : Claim}
  {now : Instant}

/-- The run once the program that it is for has come to an end. -/
def begun (S : LeaseStore σ) (around : Surroundings) (words : List String) (claim : Claim) (w : World σ) (lock : Lock) :
    Run σ :=
  ((Run.start around words).run (Run.acquired S claim ⟨w, lock, ""⟩)).2

theorem start_begun {ending : Except Error Value} {r : Run σ}
    (h : (Run.start around words).run (Run.acquired S claim ⟨w, lock, ""⟩) = (ending, r)) :
    (Run.start around words).run (Run.acquired S claim ⟨w, lock, ""⟩) = (ending, begun S around words claim w lock) := by
  rw [begun, h]

/-- What the store makes of giving the lease back after it. -/
def givenBack (S : LeaseStore σ) (around : Surroundings) (words : List String) (claim : Claim) (w : World σ) (lock : Lock)
    (now : Instant) : Outcome LeaseRecord :=
  let lease := Lease.ofClaim claim lock.identity
  (S.update (lease.releaseRequest (lease.releaseUntil now.truncate)) (begun S around words claim w lock).world).2

/-- The end of a program that was asked to run another one and got the lock. -/
structure Granted (around : Surroundings) (words : List String) (o : Outcome LeaseRecord) (p : Ledger × Exit) : Prop where
  unreturned : ¬o.Settles → ∃ e, Told e p
  started : o.Settles → ∀ code text, around.spawn words = .ok (code, text) → p.2.result = .ok code ∧ p.2.child = text
  unstartable : o.Settles → ∀ e, around.spawn words = .error e → e.isA .system = true → p.2.result = .ok 127
  malformed : ∀ e, around.spawn words = .error e → e.isA .system = false → Told e p

variable (hlog : prepare around = .ok ()) (hwords : Arguments.ofWords words = .ok a)
  (hrun : a.command = .run name (.real most) (.real least))
include hlog hwords hrun

/-- A task that comes to a number: the program ends with it, unless the lease could not be given back. -/
theorem Attempt.granted_value (h : Attempt make around a ledger name most least w lock terms claim) (hS : S.KeepsContract)
    (hnow : around.now = .moment now)
    (hacquired : lock.Wins S claim w)
    {code : Int} (hstart : (Run.start around a.words).run (Run.acquired S claim ⟨w, lock, ""⟩) =
      (.ok (.int code), begun S around a.words claim w lock)) :
    ((givenBack S around a.words claim w lock now).Settles →
      (programOn S make around words ledger).2.result = .ok code ∧
        (programOn S make around words ledger).2.child = (begun S around a.words claim w lock).child) ∧
    (¬(givenBack S around a.words claim w lock now).Settles → ∃ e, Told e (programOn S make around words ledger)) := by
  obtain ⟨back, after, hprogram, hsettled, hfailed⟩ := h.granted hlog hwords hrun hS hnow hacquired hstart
  rw [hprogram]
  refine ⟨fun hsettles => ?_, fun hnot => ?_⟩
  · rw [hsettled hsettles, settle_code rfl]
    exact ⟨rfl, rfl⟩
  · obtain ⟨cause, rfl⟩ := hfailed hnot
    exact ⟨_, settle_told rfl rfl after⟩

/-- A task that fails with a failure that the program catches: that is told, whatever became of the lease. -/
theorem Attempt.granted_failure (h : Attempt make around a ledger name most least w lock terms claim) (hS : S.KeepsContract)
    (hnow : around.now = .moment now)
    (hacquired : lock.Wins S claim w)
    {e : Error} (hstart : (Run.start around a.words).run (Run.acquired S claim ⟨w, lock, ""⟩) =
      (.error e, begun S around a.words claim w lock)) (hready : isReported e = true) :
    Told e (programOn S make around words ledger) := by
  obtain ⟨back, after, hprogram, hsettled, hfailed⟩ := h.granted hlog hwords hrun hS hnow hacquired hstart
  have hverdict : Guarded.verdict (.error e) back = .error e := by
    by_cases hsettles : (givenBack S around a.words claim w lock now).Settles
    · rw [hsettled hsettles]
      rfl
    · obtain ⟨cause, rfl⟩ := hfailed hsettles
      rfl
  rw [hprogram, hverdict]
  exact settle_told rfl hready after

/-- **How the program ends that got the lock.** -/
theorem Attempt.granted_ends (h : Attempt make around a ledger name most least w lock terms claim) (hS : S.KeepsContract)
    (hnow : around.now = .moment now)
    (hspawn : ∀ e, around.spawn a.words = .error e → e.isA .system = true ∨ e.isA .value = true)
    (hacquired : lock.Wins S claim w) :
    Granted around a.words (givenBack S around a.words claim w lock now) (programOn S make around words ledger) := by
  cases hs : around.spawn a.words with
  | ok ended =>
    obtain ⟨code, text⟩ := ended
    have hstart := Run.start_spawned hs (Run.acquired S claim ⟨w, lock, ""⟩)
    have hchild : (begun S around a.words claim w lock).child = text := by
      rw [begun, hstart]
      exact String.empty_append
    obtain ⟨hsettled, hnot⟩ := h.granted_value hlog hwords hrun hS hnow hacquired (start_begun hstart)
    rw [hchild] at hsettled
    refine ⟨hnot, fun hsettles code' text' hs' => ?_, fun _ e hs' => ?_, fun e hs' => ?_⟩
    · cases hs.symm.trans hs'
      exact hsettled hsettles
    · cases hs.symm.trans hs'
    · cases hs.symm.trans hs'
  | error e =>
    by_cases hsystem : e.isA .system = true
    · have hstart := Run.start_unstartable hs hsystem (Run.acquired S claim ⟨w, lock, ""⟩)
      obtain ⟨hsettled, hnot⟩ := h.granted_value hlog hwords hrun hS hnow hacquired (start_begun hstart)
      refine ⟨hnot, fun _ code text hs' => ?_, fun hsettles e' _ _ => (hsettled hsettles).1, fun e' hs' hnot' => ?_⟩
      · cases hs.symm.trans hs'
      · cases hs.symm.trans hs'
        rw [hsystem] at hnot'
        cases hnot'
    · have hstart := Run.start_fails hs (Bool.eq_false_iff.mpr hsystem) (Run.acquired S claim ⟨w, lock, ""⟩)
      have htold := h.granted_failure hlog hwords hrun hS hnow hacquired (start_begun hstart)
        (isReported_value ((hspawn e hs).resolve_left hsystem))
      refine ⟨fun _ => ⟨e, htold⟩, fun _ code text hs' => ?_, fun _ e' hs' hsystem' => ?_, fun e' hs' _ => ?_⟩
      · cases hs.symm.trans hs'
      · cases hs.symm.trans hs'
        exact absurd hsystem' hsystem
      · cases hs.symm.trans hs'
        exact htold

end

/-- A program that got the lock has an exit code. -/
theorem Granted.code {around : Surroundings} {words : List String} {o : Outcome LeaseRecord} {p : Ledger × Exit}
    (h : Granted around words o p) : ∃ code, p.2.result = .ok code := by
  by_cases hsettles : o.Settles
  · cases hs : around.spawn words with
    | ok ended => exact ⟨_, (h.started hsettles ended.1 ended.2 hs).1⟩
    | error e =>
      by_cases hsystem : e.isA .system = true
      · exact ⟨_, h.unstartable hsettles e hs hsystem⟩
      · exact ⟨_, (h.malformed e hs (Bool.eq_false_iff.mpr hsystem)).code⟩
  · obtain ⟨e, htold⟩ := h.unreturned hsettles
    exact ⟨_, htold.code⟩

/-- **All ways in which the program ends that was asked to run another one.**

It ends with an exit code, unless it has its store and its lock and its durations lead out of range: then it ends with that
failure and without a code.  If it does not come so far as to ask the store for the lock, it ends with code 1 and says why.
Else it asks, and

* if it does not get the lock, it ends with code 0, whatever starting a program would have done;
* if it does, it starts the program and gives the lease back.  If giving it back fails, it ends with code 1 and says why.  If
  not, it ends with the code of the program that was started, or with 127 if the system did not start it; and with code 1, and
  says why, if the words do not make a command. -/
theorem run_exits {σ : Type} {S : LeaseStore σ} (hS : S.KeepsContract) (make : StorePlan → σ) {around : Surroundings}
    {now : Instant} (hnow : around.now = .moment now) {t : Binary64} (htimeout : around.settings.storeTimeout = .real t)
    (hlog : prepare around = .ok ()) {words : List String} {a : Arguments} (hwords : Arguments.ofWords words = .ok a)
    (hrun : a.command.name = "run")
    (hspawn : ∀ e, around.spawn a.words = .error e → e.isA .system = true ∨ e.isA .value = true) (ledger : Ledger) :
    ∃ name most least, a.command = .run name (.real most) (.real least) ∧
      let p := programOn S make around words ledger
      let escapes := (∃ w lock, Equipped make around a ledger w lock) ∧ Overflows name most least now
      ((∃ code, p.2.result = .ok code) ↔ ¬escapes) ∧
      (escapes → ∃ e, p.2.result = .error e ∧ e.isA .overflow = true) ∧
      (¬escapes → (¬∃ w lock terms claim, Attempt make around a ledger name most least w lock terms claim) →
        ∃ e, Told e p) ∧
      ∀ w lock terms claim, Attempt make around a ledger name most least w lock terms claim →
        (¬lock.Wins S claim w → p.2.result = .ok 0 ∧ ∀ spawn, programOn S make { around with spawn } words ledger = p) ∧
        (lock.Wins S claim w → Granted around a.words (givenBack S around a.words claim w lock now) p) := by
  obtain ⟨name, most, least, hcommand⟩ := Arguments.run_durations hwords hrun
  refine ⟨name, most, least, hcommand, ?_⟩
  intro p escapes
  have hescapes : escapes → ∃ e, p.2.result = .error e ∧ e.isA .overflow = true := by
    rintro ⟨⟨w, lock, hequipped⟩, hoverflows⟩
    rcases programOn_cases (S := S) hlog hwords hcommand hequipped hnow with ⟨-, hescaped⟩ | ⟨hnot, -⟩
    · exact hescaped
    · exact absurd hoverflows hnot
  have htold : ¬escapes → (¬∃ w lock terms claim, Attempt make around a ledger name most least w lock terms claim) →
      ∃ e, Told e p := by
    intro hnot hnoAttempt
    by_cases hequipped : ∃ w lock, Equipped make around a ledger w lock
    · obtain ⟨w, lock, hequipped⟩ := hequipped
      rcases programOn_cases (S := S) hlog hwords hcommand hequipped hnow with ⟨hoverflows, -⟩ | ⟨-, htold | hattempt⟩
      · exact absurd ⟨⟨w, lock, hequipped⟩, hoverflows⟩ hnot
      · exact htold
      · obtain ⟨terms, claim, hattempt⟩ := hattempt
        exact absurd ⟨w, lock, terms, claim, hattempt⟩ hnoAttempt
    · exact programOn_unequipped htimeout hlog hwords hcommand hequipped
  have hgranted := fun w lock terms claim
      (h : Attempt make around a ledger name most least w lock terms claim) hacquired =>
    h.granted_ends hlog hwords hcommand hS hnow hspawn hacquired
  refine ⟨⟨?_, fun hnot => ?_⟩, hescapes, htold, fun w lock terms claim h =>
    ⟨h.refused hlog hwords hcommand hS, hgranted w lock terms claim h⟩⟩
  · rintro ⟨code, hcode⟩ hescaped
    obtain ⟨e, he, -⟩ := hescapes hescaped
    rw [hcode] at he
    cases he
  · by_cases hattempt : ∃ w lock terms claim, Attempt make around a ledger name most least w lock terms claim
    · obtain ⟨w, lock, terms, claim, h⟩ := hattempt
      by_cases hacquired : lock.Wins S claim w
      · exact (hgranted w lock terms claim h hacquired).code
      · exact ⟨0, (h.refused hlog hwords hcommand hS hacquired).1⟩
    · obtain ⟨e, h⟩ := htold hnot hattempt
      exact ⟨1, h.code⟩

/-! ## Tidying up in the evening

Nobody holds a lock, the clock shows a full second, and the program that sweeps ends as it is told to. -/

def evening (spawned : Except Error (Int × String)) : Surroundings :=
  ⟨Settings.usual, .named "node-0", .moment Clock.usualStart, fun _ => spawned, fun _ => .ok ()⟩

/-- The words that ask for it, for so many seconds at most and nine at least. -/
def tidying (seconds : String) : List String :=
  ["--store", "memory", "run", "tidy", "--at-most", seconds, "--at-least", "9", "--", "sweep"]

/-- What they are read as. -/
def tidyingFor (most : Binary64) : Arguments :=
  ⟨some "memory", .run "tidy" (.real most) (.real (.finite false (9 * Nat.pow 2 49) (-49))), ["sweep"]⟩

/-- Fifty seconds and nine. -/
def tidyingTerms : Terms :=
  ⟨"tidy", ⟨50000000, by decide, by decide⟩, ⟨9000000, by decide, by decide⟩, by decide, by decide, by decide, by decide⟩

theorem tidyingTerms_accepted :
    Terms.ofArguments (termsOf "tidy" (.finite false (50 * Nat.pow 2 47) (-47)) (.finite false (9 * Nat.pow 2 49) (-49))) =
      .ok tidyingTerms := by
  have hmost : Duration.ofReal (.finite false (50 * Nat.pow 2 47) (-47)) = .ok tidyingTerms.ceiling := by decide +kernel
  have hleast : Duration.ofReal (.finite false (9 * Nat.pow 2 49) (-49)) = .ok tidyingTerms.floor := by decide +kernel
  simp only [termsOf, Terms.ofArguments, Terms.ofGiven, GivenDuration.resolve, hmost, hleast]
  rfl

/-- What a lock makes of them in the evening. -/
def tidyingClaim : Claim := ⟨"tidy", later 50000, later 9000, Clock.usualStart, by decide, by decide, by decide⟩

/-- Fifty seconds let the program ask for the lock. -/
theorem evening_attempt (spawned : Except Error (Int × String)) :
    Attempt (fun _ => Memory.empty) (evening spawned) (tidyingFor (.finite false (50 * Nat.pow 2 47) (-47))) .empty "tidy"
      (.finite false (50 * Nat.pow 2 47) (-47)) (.finite false (9 * Nat.pow 2 49) (-49)) ⟨.empty, .empty⟩
      ⟨.text "node-0", .real (.ofInt 5), .zero⟩ tidyingTerms tidyingClaim :=
  ⟨⟨⟨.memory, rfl, rfl⟩, rfl⟩, tidyingTerms_accepted, rfl⟩

/-- For fifty seconds the program ends with the code of what it started, or with 127 if there was nothing to start.  For no number
of seconds it tells why. -/
theorem tidying_exits :
    let p := fun seconds spawned => programOn Memory.store (fun _ => .empty) (evening spawned) (tidying seconds) .empty
    (p "50" (.ok (3, "swept"))).2.result = .ok 3 ∧
    (p "50" (.error (.file .absent "sweep"))).2.result = .ok 127 ∧
    ∃ e, Told e (p "nan" (.ok (3, "swept"))) := by
  intro p
  have hgranted : ∀ spawned, (∀ e, spawned = .error e → e.isA .system = true ∨ e.isA .value = true) →
      Granted (evening spawned) ["sweep"]
        (givenBack Memory.store (evening spawned) ["sweep"] tidyingClaim ⟨.empty, .empty⟩
          ⟨.text "node-0", .real (.ofInt 5), .zero⟩ Clock.usualStart) (p "50" spawned) := by
    intro spawned hspawned
    have hwords : Arguments.ofWords (tidying "50") = .ok (tidyingFor (.finite false (50 * Nat.pow 2 47) (-47))) := rfl
    obtain ⟨name, most, least, hcommand, -, -, -, hattempt⟩ :=
      run_exits Memory.keepsContract (fun _ => .empty) (rfl : (evening spawned).now = _) rfl rfl hwords rfl hspawned .empty
    cases hcommand
    exact (hattempt _ _ _ _ (evening_attempt spawned)).2 ⟨_, rfl, rfl⟩
  have hcode := hgranted (.ok (3, "swept")) nofun
  have hnothing := hgranted (.error (.file .absent "sweep")) (fun e he => by cases he; exact .inl rfl)
  refine ⟨(hcode.started (.inl ⟨_, rfl⟩) _ _ rfl).1, hnothing.unstartable (.inl ⟨_, rfl⟩) _ rfl rfl, ?_⟩
  have hwords : Arguments.ofWords (tidying "nan") = .ok (tidyingFor .nan) := rfl
  obtain ⟨name, most, least, hcommand, -, -, htold, -⟩ :=
    run_exits Memory.keepsContract (fun _ => .empty) (rfl : (evening (.ok (3, "swept"))).now = _) rfl rfl hwords rfl nofun .empty
  cases hcommand
  have hnan : ∀ least, Terms.ofArguments (termsOf "tidy" .nan least) = .error (.time .notANumber) := fun _ => rfl
  refine htold ?_ ?_
  · rintro ⟨-, (hpast | ⟨hnumber, -⟩) | ⟨terms, hterms, -⟩⟩
    · exact hpast
    · exact hnumber rfl
    · exact absurd ((hnan _).symm.trans hterms) nofun
  · rintro ⟨w, lock, terms, claim, h⟩
    exact absurd ((hnan _).symm.trans h.accepted) nofun

/-- **For an infinite ceiling** the program has no exit code: it ends with the overflow, which is not caught. -/
theorem tidying_escapes :
    (program (evening (.ok (3, "swept"))) (tidying "inf") .empty).2.result = .error (.time .endless) := rfl

end CommandLine
end Leasehold
