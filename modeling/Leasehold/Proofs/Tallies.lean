/-
  Counting the calls of a race that come to an end.

  Nine ways out of two calls count: each in its lock, each in the metrics of the process, and each shows in what the caller
  gets.  Calls that are rejected or cancelled count nowhere, nor does the second release of a lease.

  1. **`Race.Closing`, `Race.closings`** — the calls that came to an end in a run, with what they count as;
  2. **`Race.Tallied`** — from one state to another, all counts moved by the calls of a log: those of locks, those of the
     metrics, the ends that callers were told of, and the leases that are out and released.  Logs are appended along steps
     (`Tallied.trans`);
  3. **`Race.Quiet`** — a step that ends no call moves no count, tells of no end, and gives out or takes back no lease;
  4. **`Race.settle_tallied`** — a step that ends a call counts it once, under its lock and under its name.
-/
import Mathlib.Data.Set.Card
import Leasehold.Proofs.Verdicts
namespace Leasehold

/-! ## What callers get -/

namespace Mark

/-- A call returned a lease. -/
def isLease : Mark → Bool
  | returned _ (.ok (some _)) => true
  | _ => false

/-- A call to acquire returned, with a lease or without. -/
def isReturn : Mark → Bool
  | returned _ (.ok _) => true
  | _ => false

/-- A release failed as releases do. -/
def isReleaseFailure : Mark → Bool
  | settled _ (.error e) => e.isA .release
  | _ => false

/-- One of the above. -/
def IsEnd (m : Mark) : Prop := m.isReturn = true ∨ m.isReleaseFailure = true

theorem isEnd_of_isLease {m : Mark} (h : m.isLease = true) : m.IsEnd := by
  refine Or.inl ?_
  match m, h with
  | returned _ (.ok (some _)), _ => rfl

/-- An acquire that raises is none of them, -/
theorem not_isEnd_raised (k : Nat) (e : Error) : ¬(returned k (.error e)).IsEnd := by
  rintro (h | h) <;> cases h

/-- nor is a write, nor a release that returns or fails otherwise. -/
theorem not_isEnd_write {m : Mark} (hm : m.IsWrite) : ¬m.IsEnd := by
  cases m with
  | acquired k l => rintro (h | h) <;> cases h
  | released k u => rintro (h | h) <;> cases h
  | returned k r => cases hm
  | settled k r => cases hm

theorem not_isEnd_done (k : Nat) : ¬(settled k (.ok ())).IsEnd := by
  rintro (h | h) <;> cases h

theorem not_isEnd_settled (k : Nat) {e : Error} (he : e.isA .release = false) : ¬(settled k (.error e)).IsEnd := by
  rintro (h | h)
  · cases h
  · rw [isReleaseFailure, he] at h
    cases h

end Mark

/-- A time that cannot be cut is no failure of a release. -/
theorem GivenTime.truncate_not_release {t : GivenTime} {e : Error} (h : t.truncate = .error e) :
    e.isA .release = false := by
  rcases t.dateTime?_cases with ⟨u, hu⟩ | ⟨v, rfl⟩
  · rw [truncate_dateTime hu] at h
    obtain ⟨fault, -, rfl⟩ := Except.mapError_error h
    cases fault <;> rfl
  · cases h
    rfl

/-- The lease that a call has in hand, or is about to give back. -/
def Stage.lease? : Stage → Option Lease
  | held l => some l
  | calling (.release l _) => some l
  | called (.release l _) _ => some l
  | _ => none

/-- The lease that a call of a purpose is about to give back. -/
def Purpose.lease? : Purpose → Option Lease
  | acquire => none
  | release l _ => some l

/-- The name that a call of a purpose goes by. -/
def Purpose.name (c : Claim) : Purpose → String
  | acquire => c.name
  | release l _ => l.name

/-- A call without an answer is on its way, or has none. -/
theorem Stage.unanswered_eq {stage : Stage} {p : Purpose} (h : stage.unanswered? = some p) :
    stage = .calling p ∨ stage = .called p .silent := by
  cases stage with
  | calling purpose =>
    cases h
    exact .inl rfl
  | called purpose o =>
    cases o with
    | silent =>
      cases h
      exact .inr rfl
    | answered _ => cases h
    | failed _ => cases h
  | held _ => cases h
  | closed => cases h

/-- What a call counts as that came to an outcome. -/
def Purpose.tick? (c : Claim) (o : Outcome LeaseRecord) : Purpose → Option Tick
  | acquire => (AcquireOutcome.of? c o).map Tick.acquire
  | release _ _ => (ReleaseOutcome.of? o).map Tick.release

theorem Purpose.tick?_contractual {o : Outcome LeaseRecord} (h : o.IsContractual) (c : Claim) (p : Purpose) :
    ∃ t, p.tick? c o = some t := by
  cases p with
  | acquire =>
    obtain ⟨x, hx⟩ := AcquireOutcome.of?_contractual h c
    exact ⟨.acquire x, by rw [tick?, hx]; rfl⟩
  | release l u =>
    obtain ⟨x, hx⟩ := ReleaseOutcome.of?_contractual h
    exact ⟨.release x, by rw [tick?, hx]; rfl⟩

/-! ## Totals of metrics -/

/-- The sum of the counts whose labels are of a kind. -/
def Tally.total {κ : Type} (p : κ → Bool) (t : Tally κ) : Nat := ((t.filter (p ·.1)).map (·.2)).sum

theorem Tally.total_add {κ : Type} [DecidableEq κ] (p : κ → Bool) (label : κ) (t : Tally κ) :
    (t.add label).total p = t.total p + if p label then 1 else 0 := by
  induction t with
  | nil => by_cases hp : p label <;> simp [add, total, hp]
  | cons x rest ih =>
    obtain ⟨l, n⟩ := x
    simp only [total] at ih ⊢
    by_cases hl : l = label
    · subst hl
      by_cases hp : p l <;> simp [add, hp]
      omega
    · simp only [add, if_neg hl]
      by_cases hp : p l <;> simp [hp, ih]
      omega

/-- The sum of the counts of one kind over all names. -/
def Metrics.total (m : Metrics) : Tick → Nat
  | .acquire outcome => m.acquires.total (·.2 = outcome)
  | .release outcome => m.releases.total (·.2 = outcome)

theorem Metrics.total_tick (m : Metrics) (name : String) (t t' : Tick) :
    (m.tick name t).total t' = m.total t' + if t = t' then 1 else 0 := by
  cases t with
  | acquire x =>
    cases t' with
    | release y => rfl
    | acquire y =>
      have hadd := Tally.total_add (fun l : String × AcquireOutcome => decide (l.2 = y)) (name, x) m.acquires
      simp only [decide_eq_true_eq] at hadd
      simp only [total, tick, countAcquire, Tick.acquire.injEq]
      exact hadd
  | release x =>
    cases t' with
    | acquire y => rfl
    | release y =>
      have hadd := Tally.total_add (fun l : String × ReleaseOutcome => decide (l.2 = y)) (name, x) m.releases
      simp only [decide_eq_true_eq] at hadd
      simp only [total, tick, countRelease, Tick.release.injEq]
      exact hadd

theorem Ledger.SameCalls.total {l l' : Ledger} (h : l.SameCalls l') (t : Tick) : l'.metrics.total t = l.metrics.total t := by
  cases t with
  | acquire x => simp only [Metrics.total, h.acquires]
  | release x => simp only [Metrics.total, h.releases]

namespace Race

variable {σ τ : Type} {s s' s'' : Race σ} {k n : Nat} {a : Attempt}

/-! ## What a race shows -/

/-- The lock that a call is one of. -/
def owner? (s : Race σ) (k : Nat) : Option Nat := (s.attempts k).map (·.owner)

/-- How many ends of a kind callers of a lock were told of. -/
def told (s : Race σ) (n : Nat) (p : Mark → Bool) : Nat := s.history.countP fun m => p m && s.owner? m.call == some n

/-- The lock and the lease of a call that has a lease. -/
def leaseAt (s : Race σ) (k : Nat) : Option (Nat × Lease) := do
  let a ← s.attempts k
  let l ← a.stage.lease?
  return (a.owner, l)

/-- The calls whose locks and leases are as told. -/
def leasesWhere (s : Race σ) (p : Nat × Lease → Prop) : Set Nat := {k | ∃ x, s.leaseAt k = some x ∧ p x}

/-- **The leases of a lock**, by the calls that returned them. -/
def leases (s : Race σ) (n : Nat) : Set Nat := s.leasesWhere fun x => x.1 = n

/-- **Those that are released.** -/
def releasedLeases (s : Race σ) (n : Nat) : Set Nat := s.leasesWhere fun x => x.1 = n ∧ x.2.released = true

/-! ## Calls that came to an end -/

/-- **A call that came to an end**: whose it was, under which name, and what it counts as. -/
structure Closing where
  owner : Nat
  name : String
  tick : Tick

/-- The call that an event ends, if it counts. -/
def closing? (s : Race σ) : Event τ → Option Closing
  | .finish k => do
    let a ← s.attempts k
    let (purpose, outcome) ← a.stage.answered?
    let tick ← purpose.tick? a.claim outcome
    return ⟨a.owner, purpose.name a.claim, tick⟩
  | .expire k => do
    let a ← s.attempts k
    let purpose ← a.stage.unanswered?
    let tick ← purpose.tick? a.claim .silent
    return ⟨a.owner, purpose.name a.claim, tick⟩
  | _ => none

/-- **The calls that came to an end in a run**, the first of them first. -/
def closings (site : Site σ τ) (s : Race σ) : List (Event τ) → List Closing
  | [] => []
  | e :: es => (s.closing? e).toList ++ match s.next site e with
    | some s' => closings site s' es
    | none => []

/-- How many of them are a lock's, and count as told. -/
def ofLock (log : List Closing) (n : Nat) (t : Tick) : Nat := log.countP fun c => c.owner = n ∧ c.tick = t

/-- How many go by a name, and count as told. -/
def ofName (log : List Closing) (name : String) (t : Tick) : Nat := log.countP fun c => c.name = name ∧ c.tick = t

/-- **All counts moved by the calls that came to an end**: those of locks, those of the metrics, the ends that callers were
told of, and the leases that are out and released. -/
structure Tallied (s s' : Race σ) (log : List Closing) : Prop where
  statistics : ∀ n t, (s'.lock n).statistics.count t = (s.lock n).statistics.count t + ofLock log n t
  metrics : ∀ name t, s'.world.ledger.metrics.callCount name t = s.world.ledger.metrics.callCount name t + ofName log name t
  totals : ∀ t, s'.world.ledger.metrics.total t = s.world.ledger.metrics.total t + log.countP (·.tick = t)
  returnedLeases : ∀ n, s'.told n Mark.isLease = s.told n Mark.isLease + ofLock log n (.acquire .acquired)
  returns : ∀ n, s'.told n Mark.isReturn = s.told n Mark.isReturn + (ofLock log n (.acquire .acquired) +
    ofLock log n (.acquire .contended) + ofLock log n (.acquire .failed))
  releaseFailures : ∀ n, s'.told n Mark.isReleaseFailure =
    s.told n Mark.isReleaseFailure + ofLock log n (.release .failed)
  leases : ∀ n, (s'.leases n).encard = (s.leases n).encard + (ofLock log n (.acquire .acquired) : ℕ)
  releasedLeases : ∀ n, (s'.releasedLeases n).encard =
    (s.releasedLeases n).encard + (ofLock log n (.release .released) + ofLock log n (.release .lost) : ℕ)

namespace Tallied

theorem refl (s : Race σ) : s.Tallied s [] := by
  constructor <;> intros <;> simp [ofLock, ofName]

theorem trans {log log' : List Closing} (h : s.Tallied s' log) (h' : s'.Tallied s'' log') :
    s.Tallied s'' (log ++ log') := by
  have hlock : ∀ n t, ofLock (log ++ log') n t = ofLock log n t + ofLock log' n t := fun n t => List.countP_append
  have hname : ∀ name t, ofName (log ++ log') name t = ofName log name t + ofName log' name t :=
    fun name t => List.countP_append
  constructor
  · intro n t
    rw [h'.statistics, h.statistics, hlock, Nat.add_assoc]
  · intro name t
    rw [h'.metrics, h.metrics, hname, Nat.add_assoc]
  · intro t
    rw [h'.totals, h.totals, List.countP_append, Nat.add_assoc]
  · intro n
    rw [h'.returnedLeases, h.returnedLeases, hlock, Nat.add_assoc]
  · intro n
    rw [h'.returns, h.returns, hlock, hlock, hlock]
    omega
  · intro n
    rw [h'.releaseFailures, h.releaseFailures, hlock, Nat.add_assoc]
  · intro n
    rw [h'.leases, h.leases, hlock, Nat.cast_add, add_assoc]
  · intro n
    rw [h'.releasedLeases, h.releasedLeases, hlock, hlock, add_assoc, ← Nat.cast_add]
    congr 2
    omega

end Tallied

/-! ## What steps need -/

end Race

/-- **A stage that can be told apart from the others**: its outcome is one that the contract allows, and a lease on its way
to be released is not released yet. -/
def Stage.Regular : Stage → Prop
  | calling .acquire => True
  | calling (.release l _) => l.released = false
  | called .acquire o => o.IsContractual
  | called (.release l _) o => l.released = false ∧ o.IsContractual
  | held _ => True
  | closed => True

namespace Race

variable {σ τ : Type} {s s' s'' : Race σ} {k n : Nat} {a : Attempt}

/-- **What holds of every race** over a store that keeps its contract: calls stand as they should, and whoever was told of an
end had made a call. -/
structure Regular (s : Race σ) : Prop where
  stages : ∀ k a, s.attempts k = some a → a.stage.Regular
  owned : ∀ m ∈ s.history, m.IsEnd → (s.owner? m.call).isSome = true

/-- An outcome that a call has is one that the contract allows. -/
theorem Regular.contractual (hs : s.Regular) (hk : s.attempts k = some a) {purpose : Purpose} {o : Outcome LeaseRecord}
    (h : a.stage = .called purpose o) : o.IsContractual := by
  have hregular := hs.stages k a hk
  rw [h] at hregular
  cases purpose with
  | acquire => exact hregular
  | release l u => exact hregular.2

/-- What is told of calls that have an owner is told of the same locks later on. -/
theorem told_append (hs : s.Regular) (howner : ∀ j, (s.owner? j).isSome = true → s'.owner? j = s.owner? j)
    {marks : List Mark} (hmarks : s'.history = s.history ++ marks) {p : Mark → Bool} (hp : ∀ m, p m = true → m.IsEnd)
    (n : Nat) : s'.told n p = s.told n p + marks.countP fun m => p m && s'.owner? m.call == some n := by
  have hold : s.history.countP (fun m => p m && s'.owner? m.call == some n) = s.told n p := by
    refine List.countP_congr fun m hm => ?_
    by_cases hpm : p m = true
    · rw [howner m.call (hs.owned m hm (hp m hpm))]
    · simp [hpm]
  rw [told, hmarks, List.countP_append, hold]

/-! ## Steps that end no call -/

/-- **A step that ends no call**: no lock counts, nor do the metrics; nobody is told of an end; no lease is given out, taken
back or released. -/
structure Quiet (s s' : Race σ) : Prop where
  statistics : ∀ n, (s'.lock n).statistics = (s.lock n).statistics
  calls : s.world.ledger.SameCalls s'.world.ledger
  owner : ∀ j, (s.owner? j).isSome = true → s'.owner? j = s.owner? j
  history : ∃ marks, s'.history = s.history ++ marks ∧ ∀ m ∈ marks, ¬m.IsEnd
  leaseAt : ∀ j, s'.leaseAt j = s.leaseAt j

/-- Where nothing is told, no end is told of. -/
theorem untold (h : s'.history = s.history) : ∃ marks, s'.history = s.history ++ marks ∧ ∀ m ∈ marks, ¬m.IsEnd :=
  ⟨[], by rw [h, List.append_nil], fun _ hm => absurd hm List.not_mem_nil⟩

/-- It moves no count. -/
theorem Quiet.tallied (h : s.Quiet s') (hs : s.Regular) : s.Tallied s' [] := by
  obtain ⟨marks, hmarks, hnone⟩ := h.history
  have htold : ∀ {p : Mark → Bool}, (∀ m, p m = true → m.IsEnd) → ∀ n, s'.told n p = s.told n p := by
    intro p hp n
    have hzero : marks.countP (fun m => p m && s'.owner? m.call == some n) = 0 := by
      refine List.countP_eq_zero.mpr fun m hm hcounts => hnone m hm (hp m ?_)
      exact (Bool.and_eq_true_iff.mp hcounts).1
    rw [told_append hs h.owner hmarks hp, hzero, Nat.add_zero]
  have hleases : ∀ p, s'.leasesWhere p = s.leasesWhere p := fun p => by simp only [leasesWhere, h.leaseAt]
  constructor
  · intro n t
    rw [h.statistics]
    rfl
  · intro name t
    rw [h.calls.callCount]
    rfl
  · intro t
    rw [h.calls.total]
    rfl
  · exact fun n => htold (fun _ => Mark.isEnd_of_isLease) n
  · exact fun n => htold (fun _ => Or.inl) n
  · exact fun n => htold (fun _ => Or.inr) n
  · intro n
    rw [leases, hleases]
    simp [ofLock, leases]
  · intro n
    rw [releasedLeases, hleases]
    simp [ofLock, releasedLeases]

/-- A call that moves on keeps its owner. -/
theorem owner_setStage (hk : s.attempts k = some a) (stage : Stage) (j : Nat) :
    (s.setStage k a stage).owner? j = s.owner? j := by
  by_cases hj : j = k
  · subst hj
    simp only [owner?, setStage, Function.update_self, hk, Option.map_some]
  · simp only [owner?, setStage, Function.update_of_ne hj]

/-- The leases of the others stay when a call moves on, -/
theorem leaseAt_setStage_other (a : Attempt) (stage : Stage) {j : Nat} (hj : j ≠ k) :
    (s.setStage k a stage).leaseAt j = s.leaseAt j := by
  simp only [leaseAt, setStage, Function.update_of_ne hj]

/-- and its own is that of its stage. -/
theorem leaseAt_setStage_self (a : Attempt) (stage : Stage) :
    (s.setStage k a stage).leaseAt k = stage.lease?.map (a.owner, ·) := by
  simp only [leaseAt, setStage, Function.update_self, Option.bind_eq_bind, Option.bind_some]
  cases stage.lease? <;> rfl

theorem leaseAt_eq (hk : s.attempts k = some a) : s.leaseAt k = a.stage.lease?.map (a.owner, ·) := by
  simp only [leaseAt, hk, Option.bind_eq_bind, Option.bind_some]
  cases a.stage.lease? <;> rfl

/-- A call that keeps its lease moves on quietly. -/
theorem quiet_setStage (hk : s.attempts k = some a) {stage : Stage} (hl : stage.lease? = a.stage.lease?) :
    s.Quiet (s.setStage k a stage) where
  statistics _ := rfl
  calls := ⟨rfl, rfl⟩
  owner j _ := owner_setStage hk stage j
  history := untold rfl
  leaseAt j := by
    by_cases hj : j = k
    · subst hj
      rw [leaseAt_setStage_self, leaseAt_eq hk, hl]
    · exact leaseAt_setStage_other a stage hj

theorem quiet_tell {m : Mark} (hm : ¬m.IsEnd) : s.Quiet (s.tell m) where
  statistics _ := rfl
  calls := ⟨rfl, rfl⟩
  owner _ _ := rfl
  history := ⟨[m], rfl, fun _ hx => List.mem_singleton.mp hx ▸ hm⟩
  leaseAt _ := rfl

theorem quiet_world {w : World σ} (hw : s.world.ledger.SameCalls w.ledger) : s.Quiet { s with world := w } where
  statistics _ := rfl
  calls := hw
  owner _ _ := rfl
  history := untold rfl
  leaseAt _ := rfl

theorem Quiet.trans (h : s.Quiet s') (h' : s'.Quiet s'') : s.Quiet s'' where
  statistics n := (h'.statistics n).trans (h.statistics n)
  calls := ⟨h'.calls.acquires.trans h.calls.acquires, h'.calls.releases.trans h.calls.releases⟩
  owner j hj := by
    have hfirst := h.owner j hj
    have hsecond := h'.owner j (by rw [hfirst]; exact hj)
    exact hsecond.trans hfirst
  history := by
    obtain ⟨marks, hmarks, hnone⟩ := h.history
    obtain ⟨marks', hmarks', hnone'⟩ := h'.history
    refine ⟨marks ++ marks', by rw [hmarks', hmarks, List.append_assoc], fun m hm => ?_⟩
    rcases List.mem_append.mp hm with hm | hm
    · exact hnone m hm
    · exact hnone' m hm
  leaseAt j := (h'.leaseAt j).trans (h.leaseAt j)

/-! ## Steps that end a call -/

/-- A call that ends: its lock counts, it moves on to another stage, and its caller is told. -/
def close (k : Nat) (a : Attempt) (lock : Lock) (ledger : Ledger) (stage : Stage) (m : Mark) (s : Race σ) : Race σ :=
  ((s.setLock a.owner lock ledger).setStage k a stage).tell m

/-- What the counts of one closing are. -/
theorem ofLock_single (c : Closing) (n : Nat) (t : Tick) : ofLock [c] n t = if c.owner = n ∧ c.tick = t then 1 else 0 := by
  simp [ofLock, List.countP_cons]

theorem ofName_single (c : Closing) (name : String) (t : Tick) :
    ofName [c] name t = if c.name = name ∧ c.tick = t then 1 else 0 := by
  simp [ofName, List.countP_cons]

/-- **The metrics count one call** under its name, -/
theorem metrics_counted {l l' : Ledger} {c : Closing} (h : (l.count (·.tick c.name c.tick)).SameCalls l') (name : String)
    (t : Tick) : l'.metrics.callCount name t = l.metrics.callCount name t + ofName [c] name t := by
  rw [ofName_single, ← Metrics.callCount_tick]
  exact h.callCount name t

/-- and one over all names. -/
theorem totals_counted {l l' : Ledger} {c : Closing} (h : (l.count (·.tick c.name c.tick)).SameCalls l') (t : Tick) :
    l'.metrics.total t = l.metrics.total t + [c].countP (·.tick = t) := by
  rw [List.countP_singleton]
  simp only [decide_eq_true_eq]
  rw [← Metrics.total_tick _ c.name]
  exact h.total t

section

variable {lock : Lock} {ledger : Ledger} {stage : Stage} {m : Mark} {name : String} {t : Tick}

theorem lock_close (s : Race σ) (n : Nat) :
    (s.close k a lock ledger stage m).lock n = if a.owner = n then lock else s.lock n := by
  by_cases hn : a.owner = n
  · subst hn
    rw [if_pos rfl]
    exact lock_setLock_self a.owner lock ledger s
  · rw [if_neg hn]
    simp only [close, Race.lock, tell, setStage, setLock, Function.update_of_ne (Ne.symm hn)]

theorem owner_close (hk : s.attempts k = some a) (j : Nat) :
    (s.close k a lock ledger stage m).owner? j = s.owner? j :=
  owner_setStage (s := s.setLock a.owner lock ledger) hk stage j

/-- **The lock counts one call.** -/
theorem statistics_close (hlock : lock = (s.lock a.owner).tick t) (n : Nat) (t' : Tick) :
    ((s.close k a lock ledger stage m).lock n).statistics.count t' =
      (s.lock n).statistics.count t' + ofLock [⟨a.owner, name, t⟩] n t' := by
  rw [lock_close, ofLock_single]
  by_cases hn : a.owner = n
  · subst hn
    rw [if_pos rfl, hlock, Lock.count_tick]
    simp
  · simp [hn]

/-- **Its caller is told of one end**, if the mark is one. -/
theorem told_close (hs : s.Regular) (hk : s.attempts k = some a) (hm : m.call = k) {p : Mark → Bool}
    (hp : ∀ x, p x = true → x.IsEnd) (n : Nat) :
    (s.close k a lock ledger stage m).told n p = s.told n p + if a.owner = n ∧ p m = true then 1 else 0 := by
  have howner : (s.close k a lock ledger stage m).owner? m.call = some a.owner := by
    rw [owner_close hk, hm, owner?, hk]
    rfl
  have hhistory : (s.close k a lock ledger stage m).history = s.history ++ [m] := rfl
  rw [told_append hs (fun j _ => owner_close hk j) hhistory hp, List.countP_singleton, howner]
  by_cases hn : a.owner = n <;> simp [hn]

/-- A lease that stays one of a kind changes nothing. -/
theorem leasesWhere_close (hk : s.attempts k = some a) {p : Nat × Lease → Prop}
    (hsame : (∃ l, stage.lease? = some l ∧ p (a.owner, l)) ↔ ∃ l, a.stage.lease? = some l ∧ p (a.owner, l)) :
    (s.close k a lock ledger stage m).leasesWhere p = s.leasesWhere p := by
  ext j
  by_cases hj : j = k
  · subst hj
    have hself : (s.close j a lock ledger stage m).leaseAt j = stage.lease?.map (a.owner, ·) :=
      leaseAt_setStage_self (s := s.setLock a.owner lock ledger) a stage
    simp only [leasesWhere, Set.mem_ofPred_eq, hself, leaseAt_eq hk, Option.map_eq_some_iff]
    constructor
    · rintro ⟨x, ⟨l, hl, rfl⟩, hx⟩
      obtain ⟨l', hl', hpl'⟩ := hsame.mp ⟨l, hl, hx⟩
      exact ⟨_, ⟨l', hl', rfl⟩, hpl'⟩
    · rintro ⟨x, ⟨l, hl, rfl⟩, hx⟩
      obtain ⟨l', hl', hpl'⟩ := hsame.mpr ⟨l, hl, hx⟩
      exact ⟨_, ⟨l', hl', rfl⟩, hpl'⟩
  · have hother : (s.close k a lock ledger stage m).leaseAt j = s.leaseAt j :=
      leaseAt_setStage_other (s := s.setLock a.owner lock ledger) a stage hj
    simp only [leasesWhere, Set.mem_ofPred_eq, hother]

/-- **Its lease joins the leases of a kind**, if it was none of them and is one now. -/
theorem encard_close (hk : s.attempts k = some a) {p : Nat × Lease → Prop}
    (hold : ∀ l, a.stage.lease? = some l → ¬p (a.owner, l)) [Decidable (∃ l, stage.lease? = some l ∧ p (a.owner, l))] :
    ((s.close k a lock ledger stage m).leasesWhere p).encard =
      (s.leasesWhere p).encard + ((if ∃ l, stage.lease? = some l ∧ p (a.owner, l) then 1 else 0 : ℕ) : ℕ∞) := by
  have hother : ∀ j, j ≠ k → (s.close k a lock ledger stage m).leaseAt j = s.leaseAt j := fun j hj =>
    leaseAt_setStage_other (s := s.setLock a.owner lock ledger) a stage hj
  have hself : (s.close k a lock ledger stage m).leaseAt k = stage.lease?.map (a.owner, ·) :=
    leaseAt_setStage_self (s := s.setLock a.owner lock ledger) a stage
  have hnot : k ∉ s.leasesWhere p := by
    rintro ⟨x, hx, hpx⟩
    rw [leaseAt_eq hk] at hx
    obtain ⟨l, hl, rfl⟩ := Option.map_eq_some_iff.mp hx
    exact hold l hl hpx
  split
  · rename_i hnew
    obtain ⟨l, hl, hpl⟩ := hnew
    have hinsert : (s.close k a lock ledger stage m).leasesWhere p = insert k (s.leasesWhere p) := by
      ext j
      by_cases hj : j = k
      · subst hj
        simp only [leasesWhere, Set.mem_ofPred_eq, hself, hl, Set.mem_insert_iff, true_or, iff_true]
        exact ⟨_, rfl, hpl⟩
      · simp [leasesWhere, hother j hj, hj]
    rw [hinsert, Set.encard_insert_of_notMem hnot]
    rfl
  · rename_i hnew
    have hnone : ¬∃ l, a.stage.lease? = some l ∧ p (a.owner, l) := fun ⟨l, hl, hpl⟩ => hold l hl hpl
    rw [leasesWhere_close hk (iff_of_false hnew hnone)]
    simp

end

/-- A call without its end, whose purpose is known. -/
def UnderWay (a : Attempt) (purpose : Purpose) : Prop :=
  a.stage = .calling purpose ∨ ∃ o, a.stage = .called purpose o

theorem UnderWay.lease {purpose : Purpose} (h : UnderWay a purpose) :
    a.stage.lease? = purpose.lease? := by
  rcases h with h | ⟨o, h⟩ <;> rw [h] <;> cases purpose <;> rfl

theorem UnderWay.of_unanswered {purpose : Purpose} (h : a.stage.unanswered? = some purpose) : UnderWay a purpose := by
  rcases Stage.unanswered_eq h with h | h
  · exact .inl h
  · exact .inr ⟨.silent, h⟩

/-- A lease on its way to be released is not released yet. -/
theorem UnderWay.unreleased (hs : s.Regular) (hk : s.attempts k = some a) {l : Lease} {u : Instant}
    (h : UnderWay a (.release l u)) : l.released = false := by
  have hregular := hs.stages k a hk
  rcases h with h | ⟨o, h⟩
  · rw [h] at hregular
    exact hregular
  · rw [h] at hregular
    exact hregular.1

/-- **An acquire that ends is counted once**: under its lock, under its name, and among the leases if it is acquired. -/
theorem settle_acquire_tallied (hs : s.Regular) (hk : s.attempts k = some a) (hway : UnderWay a .acquire)
    {o : Outcome LeaseRecord} {x : AcquireOutcome} (hx : AcquireOutcome.of? a.claim o = some x) :
    s.Tallied (s.settle k a .acquire o) [⟨a.owner, a.claim.name, .acquire x⟩] := by
  obtain ⟨hlock, hcalls, hresult⟩ := (s.lock a.owner).settleAcquire_verdict hx s.world.ledger
  have hnew : (Lease.ofClaim a.claim (s.lock a.owner).identity).released = false := rfl
  have hnone : ∀ l, a.stage.lease? ≠ some l := by
    intro l hl
    rw [hway.lease] at hl
    cases hl
  show s.Tallied (s.close k a _ _ (.ofResult _) (.returned k _)) _
  rw [hresult]
  generalize (s.lock a.owner).settleAcquire a.claim o s.world.ledger = verdict at hlock hcalls
  generalize Lease.ofClaim a.claim (s.lock a.owner).identity = l at hnew ⊢
  constructor
  case statistics => exact statistics_close hlock
  case metrics => exact metrics_counted hcalls
  case totals => exact totals_counted hcalls
  case returnedLeases =>
    intro n
    have hlease : (Mark.returned k (.ok (if x = .acquired then some l else none))).isLease = decide (x = .acquired) := by
      cases x <;> rfl
    rw [told_close hs hk rfl (fun _ => Mark.isEnd_of_isLease), ofLock_single, hlease]
    simp
  case returns =>
    intro n
    rw [told_close hs hk rfl (fun _ => Or.inl), ofLock_single, ofLock_single, ofLock_single]
    by_cases hn : a.owner = n
    · cases x <;> simp [hn, Mark.isReturn]
    · simp [hn]
  case releaseFailures =>
    intro n
    have hnot : ∀ result, (Mark.returned k result).isReleaseFailure = false := fun _ => rfl
    rw [told_close hs hk rfl (fun _ => Or.inr), ofLock_single, hnot]
    simp
  case leases =>
    intro n
    rw [leases, encard_close hk (fun l hl => absurd hl (hnone l)), ofLock_single]
    cases x <;> simp [leases, Stage.ofResult, Stage.lease?]
  case releasedLeases =>
    intro n
    rw [releasedLeases, encard_close hk (fun l hl => absurd hl (hnone l)), ofLock_single, ofLock_single]
    cases x <;> simp [releasedLeases, Stage.ofResult, Stage.lease?, hnew]

/-- **A release that ends is counted once**: its lease is released or lost, or the release failed. -/
theorem settle_release_tallied (hs : s.Regular) (hk : s.attempts k = some a) {l : Lease} {u : Instant}
    (hway : UnderWay a (.release l u)) {o : Outcome LeaseRecord} {x : ReleaseOutcome}
    (hx : ReleaseOutcome.of? o = some x) :
    s.Tallied (s.settle k a (.release l u) o) [⟨a.owner, l.name, .release x⟩] := by
  obtain ⟨hlock, hcalls, hlease, hresult⟩ := (s.lock a.owner).settleRelease_verdict l u hx s.world.ledger
  have hopen := hway.unreleased hs hk
  have hstage : a.stage.lease? = some l := hway.lease
  have hunreleased : ∀ n l', a.stage.lease? = some l' → ¬(a.owner = n ∧ l'.released = true) := by
    rintro n l' hl' ⟨-, hreleased⟩
    rw [hstage] at hl'
    obtain rfl := Option.some.inj hl'
    rw [hopen] at hreleased
    cases hreleased
  show s.Tallied (s.close k a _ _ (.held _) (.settled k _)) _
  rw [hlease]
  generalize (s.lock a.owner).settleRelease l u o s.world.ledger = verdict at hlock hcalls hresult ⊢
  have hfailure : (Mark.settled k verdict.2.2.2).isReleaseFailure = decide (x = .failed) := by
    cases x with
    | failed =>
      obtain ⟨cause, hcause⟩ := hresult
      rw [hcause]
      rfl
    | released =>
      rw [if_neg (by decide)] at hresult
      rw [hresult]
      rfl
    | lost =>
      rw [if_neg (by decide)] at hresult
      rw [hresult]
      rfl
  constructor
  case statistics => exact statistics_close hlock
  case metrics => exact metrics_counted hcalls
  case totals => exact totals_counted hcalls
  case returnedLeases =>
    intro n
    have hnot : (Mark.settled k verdict.2.2.2).isLease = false := rfl
    rw [told_close hs hk rfl (fun _ => Mark.isEnd_of_isLease), ofLock_single, hnot]
    simp
  case returns =>
    intro n
    have hnot : (Mark.settled k verdict.2.2.2).isReturn = false := rfl
    rw [told_close hs hk rfl (fun _ => Or.inl), ofLock_single, ofLock_single, ofLock_single, hnot]
    simp
  case releaseFailures =>
    intro n
    rw [told_close hs hk rfl (fun _ => Or.inr), ofLock_single, hfailure]
    simp
  case leases =>
    intro n
    have hsame : (∃ l', (Stage.held (if x = .failed then l else l.done)).lease? = some l' ∧ a.owner = n) ↔
        ∃ l', a.stage.lease? = some l' ∧ a.owner = n := by
      rw [hstage]
      constructor
      · rintro ⟨_, -, hn⟩
        exact ⟨l, rfl, hn⟩
      · rintro ⟨_, -, hn⟩
        exact ⟨_, rfl, hn⟩
    rw [leases, leasesWhere_close hk hsame, ofLock_single]
    simp [leases]
  case releasedLeases =>
    intro n
    rw [releasedLeases, encard_close hk (hunreleased n), ofLock_single, ofLock_single]
    cases x <;> simp [releasedLeases, Stage.lease?, Lease.done, hopen]

/-- **A call that ends is counted once.** -/
theorem settle_tallied (hs : s.Regular) (hk : s.attempts k = some a) {purpose : Purpose} (hway : UnderWay a purpose)
    {o : Outcome LeaseRecord} {t : Tick} (ht : purpose.tick? a.claim o = some t) :
    s.Tallied (s.settle k a purpose o) [⟨a.owner, purpose.name a.claim, t⟩] := by
  cases purpose with
  | acquire =>
    obtain ⟨x, hx, rfl⟩ := Option.map_eq_some_iff.mp ht
    exact settle_acquire_tallied hs hk hway hx
  | release l u =>
    obtain ⟨x, hx, rfl⟩ := Option.map_eq_some_iff.mp ht
    exact settle_release_tallied hs hk hway hx

end Race
end Leasehold
