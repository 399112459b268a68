/-
  The statistics of locks account for every call.

  Any number of locks race over any store that keeps its contract.  Whatever happens, each event moves all counts by the
  call that it ends, and so does a run by the calls that it ends.

  1. **`next_tallied`, `run_tallied`** — one event, and by induction a run.  What they need of a state (`Race.Regular`) is
     kept along;
  2. **`Race.Balanced`** — what each lock counted is what its callers were told, and shows in its leases.  It is so at the
     start, and stays so (`runEmptying_balanced`), however often the metrics are set back;
  3. **`accounts_kept`** — what that comes to for locks, and for metrics from when they are set back.
-/
import Mathlib.Algebra.BigOperators.Group.Finset.Basic
import Leasehold.Proofs.Exclusion
import Leasehold.Proofs.Tallies
namespace Leasehold
namespace Race

variable {σ τ : Type} {s s' : Race σ} {k : Nat} {a : Attempt}

/-! ## Events -/

theorem Regular.fresh (h : s.Fresh) : s.Regular where
  stages k a hk := by
    rw [h.attempts] at hk
    cases hk
  owned m hm := by
    rw [h.history] at hm
    cases hm

/-- A call that moves on to a regular stage leaves all stages regular. -/
theorem Regular.update (hs : s.Regular) {stage : Stage} (hstage : stage.Regular) {j : Nat} {b : Attempt}
    (hb : Function.update s.attempts k (some { a with stage }) j = some b) : b.stage.Regular := by
  by_cases hj : j = k
  · subst hj
    rw [Function.update_self] at hb
    obtain rfl := Option.some.inj hb
    exact hstage
  · rw [Function.update_of_ne hj] at hb
    exact hs.stages j b hb

/-- A quiet step keeps what holds of every race, if all stages are regular after it. -/
theorem Regular.quiet (hs : s.Regular) (h : s.Quiet s') (hstages : ∀ k a, s'.attempts k = some a → a.stage.Regular) :
    s'.Regular where
  stages := hstages
  owned m hm hend := by
    obtain ⟨marks, hmarks, hnone⟩ := h.history
    rw [hmarks] at hm
    rcases List.mem_append.mp hm with hm | hm
    · have howned := hs.owned m hm hend
      rw [h.owner m.call howned]
      exact howned
    · exact absurd hend (hnone m hm)

/-- So does a step that ends a call. -/
theorem Regular.close (hs : s.Regular) (hk : s.attempts k = some a) {lock : Lock} {ledger : Ledger} {stage : Stage}
    (hstage : stage.Regular) {m : Mark} (hm : m.call = k) : (s.close k a lock ledger stage m).Regular where
  stages _ _ hb := hs.update hstage hb
  owned x hx hend := by
    rw [owner_close hk]
    rcases List.mem_append.mp hx with hx | hx
    · exact hs.owned x hx hend
    · obtain rfl := List.mem_singleton.mp hx
      rw [hm, owner?, hk]
      rfl

theorem Regular.settle (hs : s.Regular) (hk : s.attempts k = some a) (purpose : Purpose) (o : Outcome LeaseRecord) :
    (s.settle k a purpose o).Regular := by
  have hheld : ∀ l, (Stage.held l).Regular := fun _ => trivial
  cases purpose with
  | acquire =>
    refine hs.close hk ?_ rfl
    match ((s.lock a.owner).settleAcquire a.claim o s.world.ledger).2.2 with
    | .ok (some l) => trivial
    | .ok none => trivial
    | .error e => trivial
  | release l u => exact hs.close hk (hheld _) rfl

/-- **A request that arrives ends no call**, and its outcome is one that the contract allows. -/
theorem arriveWith_quiet {S : LeaseStore σ} (hS : S.KeepsContract) (hs : s.Regular) (hk : s.attempts k = some a)
    {purpose : Purpose} (hcalling : a.stage = .calling purpose) :
    s.Quiet (s.arriveWith S k a purpose) ∧ (s.arriveWith S k a purpose).Regular := by
  have hregular := hs.stages k a hk
  rw [hcalling] at hregular
  have hcalls : s.world.ledger.SameCalls (s.carry S a purpose).1.ledger := by
    cases purpose with
    | acquire => exact hS.acquireCalls _ _ _
    | release l u => exact hS.releaseCalls _ _ _
  have hcalled : (Stage.called purpose (s.carry S a purpose).2).Regular := by
    cases purpose with
    | acquire => exact hS.acquires _ _ _
    | release l u => exact ⟨hregular, hS.releases _ _ _⟩
  have hlease : (Stage.called purpose (s.carry S a purpose).2).lease? = a.stage.lease? := by
    rw [hcalling]
    cases purpose <;> rfl
  have hmove := quiet_setStage hk hlease
  have hquiet : s.Quiet (s.arriveWith S k a purpose) :=
    { statistics := fun _ => rfl
      calls := hcalls
      owner := hmove.owner
      history := ⟨_, rfl, fun m hm hend => ?_⟩
      leaseAt := hmove.leaseAt }
  · exact ⟨hquiet, hs.quiet hquiet fun _ _ hb => hs.update hcalled hb⟩
  -- a write is told, and no end is
  · cases ho : (s.carry S a purpose).2 with
    | answered r =>
      rw [ho] at hm
      obtain rfl := List.mem_singleton.mp hm
      refine Mark.not_isEnd_write ?_ hend
      cases purpose <;> trivial
    | failed e =>
      rw [ho] at hm
      cases hm
    | silent =>
      rw [ho] at hm
      cases hm

/-- **A call that is cut short counts nowhere.** -/
theorem abandon_quiet (hs : s.Regular) (hk : s.attempts k = some a) {purpose : Purpose} (hway : UnderWay a purpose) :
    s.Quiet (s.abandon k a purpose) ∧ (s.abandon k a purpose).Regular := by
  have hstage : ∀ stage : Stage, stage.lease? = purpose.lease? → s.Quiet (s.setStage k a stage) := fun stage hlease =>
    quiet_setStage hk (hlease.trans hway.lease.symm)
  cases purpose with
  | acquire =>
    have hquiet : s.Quiet (s.abandon k a .acquire) :=
      (hstage .closed rfl).trans (quiet_tell (Mark.not_isEnd_raised k _))
    have hclosed : Stage.closed.Regular := trivial
    exact ⟨hquiet, hs.quiet hquiet fun _ _ hb => hs.update hclosed hb⟩
  | release l u =>
    have hquiet : s.Quiet (s.abandon k a (.release l u)) :=
      (hstage (.held l) rfl).trans (quiet_tell (Mark.not_isEnd_settled k rfl))
    have hheld : (Stage.held l).Regular := trivial
    exact ⟨hquiet, hs.quiet hquiet fun _ _ hb => hs.update hheld hb⟩

/-- **A release that begins, or has nothing to do, counts nowhere.** -/
theorem releaseWith_quiet (hs : s.Regular) (hk : s.attempts k = some a) {l : Lease} (hheld : a.stage = .held l) :
    s.Quiet (s.releaseWith k a l) ∧ (s.releaseWith k a l).Regular := by
  simp only [releaseWith]
  split
  · have hnote : s.Quiet { s with world := s.world.note .warning l.doneText } := quiet_world ⟨rfl, rfl⟩
    have hquiet := hnote.trans (quiet_tell (m := .settled k (.ok ())) (Mark.not_isEnd_done k))
    exact ⟨hquiet, hs.quiet hquiet hs.stages⟩
  rename_i hopen
  split
  · rename_i e he
    have hquiet : s.Quiet (s.tell (.settled k (.error e))) :=
      quiet_tell (Mark.not_isEnd_settled k (GivenTime.truncate_not_release he))
    exact ⟨hquiet, hs.quiet hquiet hs.stages⟩
  · rename_i now _
    have hquiet : s.Quiet (s.setStage k a (.calling (.release l (l.releaseUntil now)))) :=
      quiet_setStage hk (by rw [hheld]; rfl)
    have hcalling : (Stage.calling (.release l (l.releaseUntil now))).Regular := Bool.eq_false_iff.mpr hopen
    exact ⟨hquiet, hs.quiet hquiet fun _ _ hb => hs.update hcalling hb⟩

/-- An acquire that goes out is a new call, without a lease. -/
theorem ask_quiet (hs : s.Regular) {owner : Nat} {name : Value} {atMost atLeast : GivenTime}
    (h : s.ask k owner name atMost atLeast = some s') : s.Quiet s' ∧ s'.Regular := by
  simp only [ask] at h
  split at h
  · cases h
  rename_i hnone
  split at h
  · rename_i e _
    cases h
    have hquiet : s.Quiet (s.tell (.returned k (.error e))) := quiet_tell (Mark.not_isEnd_raised k e)
    exact ⟨hquiet, hs.quiet hquiet hs.stages⟩
  · rename_i claim _
    cases h
    have hquiet : s.Quiet { s with attempts := Function.update s.attempts k (some ⟨owner, claim, .calling .acquire⟩) } :=
      { statistics := fun _ => rfl
        calls := ⟨rfl, rfl⟩
        owner := fun j hj => ?_
        history := untold rfl
        leaseAt := fun j => ?_ }
    · have hcalling : (Stage.calling .acquire).Regular := trivial
      exact ⟨hquiet, hs.quiet hquiet fun _ _ hb => hs.update (a := ⟨owner, claim, .closed⟩) hcalling hb⟩
    · by_cases hjk : j = k
      · subst hjk
        simp [owner?, hnone] at hj
      · simp only [owner?, Function.update_of_ne hjk]
    · by_cases hjk : j = k
      · subst hjk
        simp only [leaseAt, hnone, Function.update_self]
        rfl
      · simp only [leaseAt, Function.update_of_ne hjk]

/-- **One event** moves all counts by the call that it ends, if it ends one. -/
theorem next_tallied {site : Site σ τ} (hsite : site.store.KeepsContract) (hs : s.Regular) {e : Event τ}
    (h : s.next site e = some s') : s.Tallied s' (s.closing? e).toList ∧ s'.Regular := by
  have hquiet : s.Quiet s' ∧ s'.Regular → s.Tallied s' [] ∧ s'.Regular := fun hq => ⟨hq.1.tallied hs, hq.2⟩
  cases e with
  | clock c reading =>
    simp only [next, setClock] at h
    split at h
    · cases h
      refine hquiet ⟨⟨fun _ => rfl, ⟨rfl, rfl⟩, fun _ _ => rfl, untold rfl, fun _ => rfl⟩, ?_⟩
      exact ⟨hs.stages, hs.owned⟩
    · cases h
  | trouble t =>
    cases h
    exact hquiet ⟨quiet_world ⟨rfl, rfl⟩, hs.stages, hs.owned⟩
  | ask k owner name atMost atLeast => exact hquiet (ask_quiet hs h)
  | arrive k =>
    simp only [next, arrive] at h
    split at h
    · rename_i a hk
      split at h
      · rename_i purpose hcalling
        cases h
        exact hquiet (arriveWith_quiet hsite hs hk hcalling)
      · cases h
    · cases h
  | finish k =>
    obtain ⟨a, hk, h⟩ := Option.bind_eq_some_iff.mp h
    obtain ⟨⟨purpose, o⟩, ho, h⟩ := Option.bind_eq_some_iff.mp h
    cases h
    have hstage := Stage.answered_eq ho
    obtain ⟨t, ht⟩ := purpose.tick?_contractual (hs.contractual hk hstage) a.claim
    have hclosing : s.closing? (.finish k : Event τ) = some ⟨a.owner, purpose.name a.claim, t⟩ := by
      simp only [closing?, hk, ho, ht, Option.bind_eq_bind, Option.bind_some]
      rfl
    rw [hclosing]
    exact ⟨settle_tallied hs hk (.inr ⟨o, hstage⟩) ht, hs.settle hk purpose o⟩
  | expire k =>
    obtain ⟨a, hk, h⟩ := Option.bind_eq_some_iff.mp h
    obtain ⟨purpose, hp, h⟩ := Option.bind_eq_some_iff.mp h
    cases h
    obtain ⟨t, ht⟩ := purpose.tick?_contractual Outcome.silent_contractual a.claim
    have hclosing : s.closing? (.expire k : Event τ) = some ⟨a.owner, purpose.name a.claim, t⟩ := by
      simp only [closing?, hk, hp, ht, Option.bind_eq_bind, Option.bind_some]
      rfl
    rw [hclosing]
    exact ⟨settle_tallied hs hk (.of_unanswered hp) ht, hs.settle hk purpose .silent⟩
  | cancel k =>
    obtain ⟨a, hk, h⟩ := Option.bind_eq_some_iff.mp h
    obtain ⟨purpose, hp, h⟩ := Option.bind_eq_some_iff.mp h
    cases h
    exact hquiet (abandon_quiet hs hk (.of_unanswered hp))
  | release k =>
    simp only [next, release] at h
    split at h
    · rename_i a hk
      split at h
      · rename_i l hheld
        cases h
        exact hquiet (releaseWith_quiet hs hk hheld)
      · cases h
    · cases h

/-! ## Runs -/

/-- **A run** moves all counts by the calls that it ends. -/
theorem run_tallied {site : Site σ τ} (hsite : site.store.KeepsContract) (hs : s.Regular) {es : List (Event τ)}
    (h : s.run site es = some s') : s.Tallied s' (s.closings site es) ∧ s'.Regular := by
  -- the calls that end first are those of the first event
  induction es generalizing s with
  | nil =>
    cases h
    exact ⟨.refl _, hs⟩
  | cons e es ih =>
    obtain ⟨s₁, hnext, hrun⟩ := Option.bind_eq_some_iff.mp h
    obtain ⟨hfirst, hs₁⟩ := next_tallied hsite hs hnext
    obtain ⟨hrest, hs'⟩ := ih hs₁ hrun
    refine ⟨?_, hs'⟩
    simp only [closings, hnext]
    exact hfirst.trans hrest

/-- The race with its metrics set back. -/
def emptied (s : Race σ) : Race σ :=
  { s with world := { s.world with ledger := { s.world.ledger with metrics := .empty } } }

/-- What events do, if the metrics may be set back between two of them: `none` stands for that. -/
def runEmptying (site : Site σ τ) (s : Race σ) : List (Option (Event τ)) → Option (Race σ)
  | [] => some s
  | none :: es => runEmptying site s.emptied es
  | some e :: es => do runEmptying site (← s.next site e) es

/-- **The books of all locks are balanced**: what each counted is what its callers were told, and shows in its leases. -/
structure Balanced (s : Race σ) : Prop where
  acquired : ∀ n, (s.lock n).statistics.acquired = s.told n Mark.isLease
  leases : ∀ n, (s.leases n).encard = (s.lock n).statistics.acquired
  returns : ∀ n, (s.lock n).statistics.acquired + (s.lock n).statistics.contended +
    (s.lock n).statistics.acquireFailures = s.told n Mark.isReturn
  releasedLeases : ∀ n, (s.releasedLeases n).encard =
    ((s.lock n).statistics.released + (s.lock n).statistics.lost : ℕ)
  releaseFailures : ∀ n, (s.lock n).statistics.releaseFailures = s.told n Mark.isReleaseFailure

namespace Balanced

theorem fresh (h : s.Fresh) (hzero : ∀ n, (s.lock n).statistics = .zero) : s.Balanced := by
  have htold : ∀ n p, s.told n p = 0 := by
    intro n p
    rw [told, h.history]
    rfl
  have hnone : ∀ p, s.leasesWhere p = ∅ := by
    intro p
    refine Set.eq_empty_of_forall_notMem fun k hk => ?_
    obtain ⟨x, hx, -⟩ := hk
    simp [leaseAt, h.attempts] at hx
  constructor <;> intro n <;> simp [hzero, Statistics.zero, htold, Race.leases, Race.releasedLeases, hnone]

/-- Counts that all moved by the same calls stay balanced. -/
theorem tallied {log : List Closing} (hs : s.Balanced) (h : s.Tallied s' log) : s'.Balanced where
  acquired n := by
    have hcount := h.statistics n (.acquire .acquired)
    have htold := h.returnedLeases n
    have hold := hs.acquired n
    simp only [Statistics.count] at hcount
    omega
  leases n := by
    have hcount := h.statistics n (.acquire .acquired)
    simp only [Statistics.count] at hcount
    rw [h.leases, hs.leases, hcount, Nat.cast_add]
  returns n := by
    have hacquired := h.statistics n (.acquire .acquired)
    have hcontended := h.statistics n (.acquire .contended)
    have hfailed := h.statistics n (.acquire .failed)
    have htold := h.returns n
    have hold := hs.returns n
    simp only [Statistics.count] at hacquired hcontended hfailed
    omega
  releasedLeases n := by
    have hreleased := h.statistics n (.release .released)
    have hlost := h.statistics n (.release .lost)
    simp only [Statistics.count] at hreleased hlost
    rw [h.releasedLeases, hs.releasedLeases, hreleased, hlost, ← Nat.cast_add]
    congr 1
    omega
  releaseFailures n := by
    have hcount := h.statistics n (.release .failed)
    have htold := h.releaseFailures n
    have hold := hs.releaseFailures n
    simp only [Statistics.count] at hcount
    omega

/-- **No lock counts more leases as given back than it gave out.** -/
theorem released_le (hs : s.Balanced) (n : Nat) :
    (s.lock n).statistics.released + (s.lock n).statistics.lost ≤ (s.lock n).statistics.acquired := by
  have hsub : s.releasedLeases n ⊆ s.leases n := by
    rintro k ⟨x, hx, hn, -⟩
    exact ⟨x, hx, hn⟩
  have hle := Set.encard_le_encard hsub
  rw [hs.releasedLeases, hs.leases] at hle
  exact_mod_cast hle

end Balanced

/-- **A run keeps the books balanced**, however often the metrics are set back meanwhile. -/
theorem runEmptying_balanced {site : Site σ τ} (hsite : site.store.KeepsContract) (hs : s.Regular) (hb : s.Balanced)
    {es : List (Option (Event τ))} (h : s.runEmptying site es = some s') : s'.Regular ∧ s'.Balanced := by
  induction es generalizing s with
  | nil =>
    cases h
    exact ⟨hs, hb⟩
  | cons e es ih =>
    cases e with
    | none =>
      -- the books are those of locks and callers, and the metrics are neither
      exact ih (s := s.emptied) ⟨hs.stages, hs.owned⟩
        ⟨hb.acquired, hb.leases, hb.returns, hb.releasedLeases, hb.releaseFailures⟩ h
    | some e =>
      obtain ⟨s₁, hnext, hrun⟩ := Option.bind_eq_some_iff.mp h
      obtain ⟨hfirst, hs₁⟩ := next_tallied hsite hs hnext
      exact ih hs₁ (hb.tallied hfirst) hrun

/-- The calls that are counted under an outcome are those of the locks that made them. -/
theorem sum_ofLock {log : List Closing} {locks : Finset Nat} (h : ∀ c ∈ log, c.owner ∈ locks) (t : Tick) :
    ∑ n ∈ locks, ofLock log n t = log.countP (·.tick = t) := by
  induction log with
  | nil => simp [ofLock]
  | cons c log ih =>
    have hrest := ih fun x hx => h x (List.mem_cons_of_mem _ hx)
    have hone : ∑ n ∈ locks, (if c.owner = n ∧ c.tick = t then 1 else 0) = if c.tick = t then 1 else 0 := by
      by_cases ht : c.tick = t
      · simp [ht, h c List.mem_cons_self]
      · simp [ht]
    have hsplit : ∀ n, ofLock (c :: log) n t = ofLock log n t + if c.owner = n ∧ c.tick = t then 1 else 0 := by
      intro n
      simp [ofLock, List.countP_cons]
    simp only [hsplit, Finset.sum_add_distrib, hrest, hone, List.countP_cons, decide_eq_true_eq]

/-- **What locks and metrics have counted** in a state of a race: each lock the leases that it returned, the acquires that
returned, the leases that are released and the releases that failed (`Balanced`); and in any state that comes after the metrics
were set back here, what follows. -/
structure KeepsAccounts (site : Site σ τ) (s : Race σ) : Prop extends s.Balanced where
  /-- No lock released more leases than it returned. -/
  releasedOfAcquired : ∀ n,
    (s.lock n).statistics.released + (s.lock n).statistics.lost ≤ (s.lock n).statistics.acquired
  /-- The metrics count, under each name, the calls that ended with an outcome. -/
  names : ∀ es s', s.emptied.run site es = some s' → ∀ name t,
    s'.world.ledger.metrics.callCount name t = ofName (s.emptied.closings site es) name t
  /-- Each lock counts those of its own calls. -/
  locks : ∀ es s', s.emptied.run site es = some s' → ∀ n t,
    (s'.lock n).statistics.count t = (s.lock n).statistics.count t + ofLock (s.emptied.closings site es) n t
  /-- What the locks that made the calls count together is what the metrics count under all names. -/
  sums : ∀ es s', s.emptied.run site es = some s' → ∀ (owners : Finset Nat) t,
    (∀ c ∈ s.emptied.closings site es, c.owner ∈ owners) →
      ∑ n ∈ owners, (s'.lock n).statistics.count t =
        ∑ n ∈ owners, (s.lock n).statistics.count t + s'.world.ledger.metrics.total t

/-- **The statistics of locks account for every call.**  Locks that start at zero race over a store that keeps its
contract, and the metrics may be set back at any time. -/
theorem accounts_kept (site : Site σ τ) (hsite : site.store.KeepsContract) {s₀ : Race σ} (hfresh : s₀.Fresh)
    (hzero : ∀ n, (s₀.lock n).statistics = .zero) {past : List (Option (Event τ))}
    (hpast : s₀.runEmptying site past = some s) : KeepsAccounts site s := by
  obtain ⟨hs, hbalanced⟩ := runEmptying_balanced hsite (.fresh hfresh) (.fresh hfresh hzero) hpast
  have hemptied : s.emptied.Regular := ⟨hs.stages, hs.owned⟩
  have htallied : ∀ {es s'}, s.emptied.run site es = some s' → s.emptied.Tallied s' (s.emptied.closings site es) :=
    fun hrun => (run_tallied hsite hemptied hrun).1
  refine { hbalanced with releasedOfAcquired := hbalanced.released_le, names := ?_, locks := ?_, sums := ?_ }
  · intro es s' hrun name t
    have hnone : s.emptied.world.ledger.metrics.callCount name t = 0 := by cases t <;> rfl
    rw [(htallied hrun).metrics, hnone, Nat.zero_add]
  · intro es s' hrun
    exact (htallied hrun).statistics
  · intro es s' hrun owners t howners
    have hnone : s.emptied.world.ledger.metrics.total t = 0 := by cases t <;> rfl
    rw [(htallied hrun).totals, hnone, Nat.zero_add, ← sum_ofLock howners, ← Finset.sum_add_distrib]
    exact Finset.sum_congr rfl fun n _ => (htallied hrun).statistics n t

/-! ## After the contest

The metrics are set back when both leases of the contest are out.  Then the release of the first is lost, releasing it once
more does nothing, and asking again finds the lock taken. -/

def aftermath : List (Event Memory.Trouble) :=
  [.arrive 0, .finish 0, .release 0, .ask 2 0 (.text "job") (.moment (later 70000)) .none, .arrive 2, .finish 2]

/-- The state that the aftermath comes to. -/
def settledContest : Race Memory := (contested.emptied.run Memory.site aftermath).get rfl

/-- The contest is accounted for. -/
theorem contest_accounted :
    (contested.leases 0).encard = 1 ∧ (contested.releasedLeases 0).encard = 0 ∧
    settledContest.world.ledger.metrics.callCount "job" (.release .lost) = 1 ∧
    settledContest.world.ledger.metrics.callCount "job" (.acquire .contended) = 1 ∧
    (∀ t, ∑ n ∈ {0, 1}, (settledContest.lock n).statistics.count t =
      ∑ n ∈ {0, 1}, (contested.lock n).statistics.count t + settledContest.world.ledger.metrics.total t) := by
  have hfresh : opening.Fresh := ⟨fun _ => rfl, rfl⟩
  have hpast : opening.runEmptying Memory.site (contest.map some) = some contested := rfl
  have haccounts := accounts_kept Memory.site Memory.keepsContract hfresh (fun _ => rfl) hpast
  have hnames := haccounts.names aftermath settledContest rfl
  refine ⟨haccounts.leases 0, haccounts.releasedLeases 0, hnames "job" (.release .lost),
    hnames "job" (.acquire .contended), fun t => ?_⟩
  refine haccounts.sums aftermath settledContest rfl {0, 1} t ?_
  have hlog : contested.emptied.closings Memory.site aftermath =
    [⟨0, "job", .release .lost⟩, ⟨0, "job", .acquire .contended⟩] := rfl
  rw [hlog]
  intro c hc
  simp only [List.mem_cons, List.not_mem_nil, or_false] at hc
  rcases hc with rfl | rfl <;> decide

end Race
end Leasehold
