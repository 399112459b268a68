/-
  Who took a lock, and when, is a remark: a lock goes by the end of its record alone.

  Two races are followed side by side.  Their databases are twins, which differ in the remarks of the hashes and in nothing
  else, and all the rest of the two is the same: leases in hand, calls on their way, clocks, and what was told so far.

  1. **`Race.Twins`** — two races side by side.  A call that has its outcome may have two records that end alike;
  2. **`next_twins`, `run_twins`** — one event, and a run, can happen in both or in neither, and lead from twins to twins,
     unless a release stumbles over a crack (`StumblesAt`);
  3. **`remarks_unread`** — so the two races tell the same (`SameTelling`) if all remarks are read alike, and otherwise up
     to the first release that stumbles.
-/
import Leasehold.Proofs.Standing
import Leasehold.Proofs.Twins
namespace Leasehold

/-- A store on Redis, whose server may go down for a reason, and come back. -/
def Redis.RedisStore.site : Site Redis.RedisStore (Option String) where
  store := store
  befall outage s := { s with database := { s.database with outage } }

/-! ## Races side by side -/

/-- Two calls stand at the same place, with outcomes that come to the same. -/
inductive Stage.Alike : Stage → Stage → Prop where
  | same (stage : Stage) : Alike stage stage
  | called (purpose : Purpose) {o o' : Outcome LeaseRecord} (h : o.SameEnd o') :
      Alike (.called purpose o) (.called purpose o')

namespace Stage

theorem Alike.unanswered {stage stage' : Stage} (h : stage.Alike stage') :
    stage'.unanswered? = stage.unanswered? := by
  cases h with
  | same => rfl
  | called purpose h => cases h <;> rfl

/-- The two places are one, or both calls have their outcome. -/
theorem Alike.eq_or_called {stage stage' : Stage} (h : stage.Alike stage') :
    stage' = stage ∨ ∃ purpose o o', stage = .called purpose o ∧ stage' = .called purpose o' := by
  cases h with
  | same => exact .inl rfl
  | called purpose h => exact .inr ⟨purpose, _, _, rfl, rfl⟩

/-- A call has its outcome in both, or in neither. -/
theorem Alike.answered {stage stage' : Stage} (h : stage.Alike stage') :
    Option.Rel (fun x x' => x'.1 = x.1 ∧ x.2.SameEnd x'.2) stage.answered? stage'.answered? := by
  cases h with
  | same =>
    cases stage.answered? with
    | none => exact .none
    | some x => exact .some ⟨rfl, .refl x.2⟩
  | called purpose h =>
    cases h with
    | answered h => exact .some ⟨rfl, .answered h⟩
    | failed e => exact .some ⟨rfl, .failed e⟩
    | silent => exact .none

end Stage

/-- Two calls of one lock for one claim. -/
structure Attempt.Alike (a a' : Attempt) : Prop where
  owner : a'.owner = a.owner
  claim : a'.claim = a.claim
  stage : a.stage.Alike a'.stage

namespace Race

open Redis

/-- **Two races side by side**: the databases are twins, and all the rest is the same. -/
structure Twins (P : Option String → Option String → Prop) (s s' : Race RedisStore) : Prop where
  world : RedisStore.WorldTwins P s.world s'.world
  clocks : s'.clocks = s.clocks
  members : s'.members = s.members
  history : s'.history = s.history
  attempts : ∀ k, Option.Rel Attempt.Alike (s.attempts k) (s'.attempts k)

section

variable {P : Option String → Option String → Prop} {s s' : Race RedisStore} {a a' : Attempt}

namespace Twins

theorem lock (h : s.Twins P s') (n : Nat) : s'.lock n = s.lock n := by rw [Race.lock, Race.lock, h.members]

theorem reading (h : s.Twins P s') (n : Nat) : s'.reading n = s.reading n := by
  rw [Race.reading, Race.reading, h.members, h.clocks]

theorem leaseOf (h : s.Twins P s') (ha : a.Alike a') : s'.leaseOf a' = s.leaseOf a := by
  rw [Race.leaseOf, Race.leaseOf, ha.claim, ha.owner, h.lock]

/-- **A call that is looked up** is there in both, and the two stand alike, or it is there in neither. -/
theorem lookup (h : s.Twins P s') (k : Nat) : (s.attempts k = none ∧ s'.attempts k = none) ∨
    ∃ a a', s.attempts k = some a ∧ s'.attempts k = some a' ∧ a.Alike a' := by
  have hk := h.attempts k
  generalize s.attempts k = x at hk ⊢
  generalize s'.attempts k = x' at hk ⊢
  cases hk with
  | none => exact .inl ⟨rfl, rfl⟩
  | some ha => exact .inr ⟨_, _, rfl, rfl, ha⟩

theorem tell (h : s.Twins P s') (m : Mark) : (s.tell m).Twins P (s'.tell m) :=
  ⟨h.world, h.clocks, h.members, congrArg (· ++ [m]) h.history, h.attempts⟩

/-- A call moves on in both. -/
theorem update (h : s.Twins P s') (k : Nat) (ha : a.Alike a') :
    Twins P { s with attempts := Function.update s.attempts k (some a) }
      { s' with attempts := Function.update s'.attempts k (some a') } where
  world := h.world
  clocks := h.clocks
  members := h.members
  history := h.history
  attempts n := by
    by_cases hn : n = k
    · subst hn
      simp only [Function.update_self]
      exact .some ha
    · simp only [Function.update_of_ne hn]
      exact h.attempts n

theorem setStage (h : s.Twins P s') (k : Nat) (ha : a.Alike a') {stage stage' : Stage} (hs : stage.Alike stage') :
    (s.setStage k a stage).Twins P (s'.setStage k a' stage') :=
  h.update k ⟨ha.owner, ha.claim, hs⟩

theorem setLock (h : s.Twins P s') (owner : Nat) (lock : Lock) (ledger : Ledger) :
    (s.setLock owner lock ledger).Twins P (s'.setLock owner lock ledger) where
  world := ⟨h.world.store, rfl⟩
  clocks := h.clocks
  members := by rw [Race.setLock, Race.setLock, h.members]
  history := h.history
  attempts := h.attempts

/-- **A call ends the same way in both.** -/
theorem settle (h : s.Twins P s') (k : Nat) (ha : a.Alike a') (purpose : Purpose) {o o' : Outcome LeaseRecord}
    (ho : o.SameEnd o') : (s.settle k a purpose o).Twins P (s'.settle k a' purpose o') := by
  cases purpose with
  | acquire =>
    simp only [Race.settle, ha.owner, ha.claim, h.lock, h.world.ledger, Lock.settleAcquire_sameEnd _ _ ho]
    exact ((h.setLock ..).setStage k ha (.same _)).tell _
  | release lease u =>
    simp only [Race.settle, ha.owner, h.lock, h.world.ledger, Lock.settleRelease_sameEnd _ _ _ ho]
    exact ((h.setLock ..).setStage k ha (.same _)).tell _

theorem abandon (h : s.Twins P s') (k : Nat) (ha : a.Alike a') (purpose : Purpose) :
    (s.abandon k a purpose).Twins P (s'.abandon k a' purpose) := by
  cases purpose with
  | acquire => exact (h.setStage k ha (.same _)).tell _
  | release lease u => exact (h.setStage k ha (.same _)).tell _

theorem releaseWith (h : s.Twins P s') (k : Nat) (ha : a.Alike a') (lease : Lease) :
    (s.releaseWith k a lease).Twins P (s'.releaseWith k a' lease) := by
  simp only [Race.releaseWith, ha.owner, h.reading]
  split
  · have hnoted : (s'.world.note .warning lease.doneText).ledger = (s.world.note .warning lease.doneText).ledger := by
      simp only [World.note, h.world.ledger]
    refine Twins.tell ?_ _
    exact ⟨⟨h.world.store, hnoted⟩, h.clocks, h.members, h.history, h.attempts⟩
  split
  · exact h.tell _
  · exact h.setStage k ha (.same _)

end Twins

/-- **A request that stumbles over a crack**: the release of a lease whose record it would end. -/
def Stumbles (s s' : Race RedisStore) (purpose : Purpose) : Prop :=
  ∃ lease u, purpose = .release lease u ∧ Crack s.world.store.database s'.world.store.database
    (s.world.store.key (.text lease.name)) lease.atMost.truncate.timestamp

/-- A request does the same in both. -/
theorem carry_twins (h : s.Twins P s') (hrefl : ∀ x, P x x) (ha : a.Alike a') (purpose : Purpose) :
    RedisStore.WorldTwins P (s.carry RedisStore.store a purpose).1 (s'.carry RedisStore.store a' purpose).1 ∧
      (Stumbles s s' purpose ∨
        (s.carry RedisStore.store a purpose).2.SameEnd (s'.carry RedisStore.store a' purpose).2) := by
  cases purpose with
  | acquire =>
    simp only [carry, ha.claim, ha.owner, h.lock]
    obtain ⟨hworld, hend⟩ := RedisStore.acquire_twins h.world hrefl (a.claim.request (s.lock a.owner).identity)
    exact ⟨hworld, .inr hend⟩
  | release lease u =>
    obtain ⟨hworld, hcrack | hend⟩ := RedisStore.release_twins h.world hrefl lease u
    · exact ⟨hworld, .inl ⟨lease, u, rfl, hcrack⟩⟩
    · exact ⟨hworld, .inr hend⟩

theorem markWritten_sameEnd {o o' : Outcome LeaseRecord} (h : o.SameEnd o') (m : Mark) :
    markWritten m o' = markWritten m o := by
  cases h <;> rfl

/-- **A request arrives the same way in both**, unless it stumbles over a crack. -/
theorem arriveWith_twins (h : s.Twins P s') (hrefl : ∀ x, P x x) (k : Nat) (ha : a.Alike a') (purpose : Purpose) :
    Stumbles s s' purpose ∨
      (s.arriveWith RedisStore.store k a purpose).Twins P (s'.arriveWith RedisStore.store k a' purpose) := by
  obtain ⟨hworld, hcrack | hend⟩ := carry_twins h hrefl ha purpose
  · exact .inl hcrack
  · have hmark : s'.writeMark k a' purpose = s.writeMark k a purpose := by
      cases purpose with
      | acquire => exact congrArg (Mark.acquired k) (h.leaseOf ha)
      | release lease u => rfl
    have hstage := h.setStage k ha (.called purpose hend)
    refine .inr ⟨hworld, h.clocks, h.members, ?_, hstage.attempts⟩
    rw [arriveWith, arriveWith, hmark, h.history, markWritten_sameEnd hend]

/-! ## Runs side by side -/

/-- **An event whose request stumbles over a crack.** -/
def StumblesAt (s s' : Race RedisStore) (e : Event (Option String)) : Prop :=
  ∃ k a purpose, e = .arrive k ∧ s.attempts k = some a ∧ a.stage = .calling purpose ∧ Stumbles s s' purpose

namespace Twins

theorem setClock (h : s.Twins P s') (c : ClockChoice) (reading : DateTime) :
    Option.Rel (Twins P) (s.setClock c reading) (s'.setClock c reading) := by
  simp only [Race.setClock, h.clocks]
  split
  · exact .some ⟨h.world, rfl, h.members, h.history, h.attempts⟩
  · exact .none

theorem ask (h : s.Twins P s') (k owner : Nat) (name : Value) (atMost atLeast : GivenTime) :
    Option.Rel (Twins P) (s.ask k owner name atMost atLeast) (s'.ask k owner name atMost atLeast) := by
  simp only [Race.ask, h.reading]
  rcases h.lookup k with ⟨hk, hk'⟩ | ⟨a, a', hk, hk', -⟩ <;> simp only [hk, hk']
  · cases Claim.ofGiven (.time (s.reading owner)) name atMost atLeast with
    | error e => exact .some (h.tell _)
    | ok claim => exact .some (h.update k ⟨rfl, rfl, .same _⟩)
  · exact .none

/-- A request arrives in both or in neither, unless it stumbles over a crack. -/
theorem arrive (h : s.Twins P s') (hrefl : ∀ x, P x x) (k : Nat) :
    StumblesAt s s' (.arrive k) ∨
      Option.Rel (Twins P) (s.arrive RedisStore.store k) (s'.arrive RedisStore.store k) := by
  simp only [Race.arrive]
  rcases h.lookup k with ⟨hk, hk'⟩ | ⟨a, a', hk, hk', ha⟩ <;> simp only [hk, hk']
  · exact .inr .none
  rcases ha.stage.eq_or_called with hsame | ⟨purpose, o, o', hcalled, hcalled'⟩
  · rw [hsame]
    cases hstage : a.stage with
    | calling purpose =>
      exact (arriveWith_twins h hrefl k ha purpose).imp (fun hcrack => ⟨k, a, purpose, rfl, hk, hstage, hcrack⟩) .some
    | called _ _ => exact .inr .none
    | held _ => exact .inr .none
    | closed => exact .inr .none
  · rw [hcalled, hcalled']
    exact .inr .none

theorem finish (h : s.Twins P s') (k : Nat) : Option.Rel (Twins P) (s.finish k) (s'.finish k) := by
  simp only [Race.finish]
  rcases h.lookup k with ⟨hk, hk'⟩ | ⟨a, a', hk, hk', ha⟩ <;> simp only [hk, hk']
  · exact .none
  have hanswered := ha.stage.answered
  simp only [Option.bind_eq_bind, Option.bind_some]
  generalize a.stage.answered? = y at hanswered ⊢
  generalize a'.stage.answered? = y' at hanswered ⊢
  cases hanswered with
  | none => exact .none
  | @some p p' hp =>
    obtain ⟨purpose, o⟩ := p
    obtain ⟨purpose', o'⟩ := p'
    obtain ⟨rfl, hend⟩ := hp
    exact .some (h.settle k ha _ hend)

theorem expire (h : s.Twins P s') (k : Nat) : Option.Rel (Twins P) (s.expire k) (s'.expire k) := by
  simp only [Race.expire]
  rcases h.lookup k with ⟨hk, hk'⟩ | ⟨a, a', hk, hk', ha⟩ <;> simp only [hk, hk']
  · exact .none
  simp only [Option.bind_eq_bind, Option.bind_some, ha.stage.unanswered]
  cases a.stage.unanswered? with
  | none => exact .none
  | some purpose => exact .some (h.settle k ha purpose .silent)

theorem cancel (h : s.Twins P s') (k : Nat) : Option.Rel (Twins P) (s.cancel k) (s'.cancel k) := by
  simp only [Race.cancel]
  rcases h.lookup k with ⟨hk, hk'⟩ | ⟨a, a', hk, hk', ha⟩ <;> simp only [hk, hk']
  · exact .none
  simp only [Option.bind_eq_bind, Option.bind_some, ha.stage.unanswered]
  cases a.stage.unanswered? with
  | none => exact .none
  | some purpose => exact .some (h.abandon k ha purpose)

theorem release (h : s.Twins P s') (k : Nat) : Option.Rel (Twins P) (s.release k) (s'.release k) := by
  simp only [Race.release]
  rcases h.lookup k with ⟨hk, hk'⟩ | ⟨a, a', hk, hk', ha⟩ <;> simp only [hk, hk']
  · exact .none
  rcases ha.stage.eq_or_called with hsame | ⟨purpose, o, o', hcalled, hcalled'⟩
  · rw [hsame]
    cases a.stage with
    | held lease => exact .some (h.releaseWith k ha lease)
    | calling _ => exact .none
    | called _ _ => exact .none
    | closed => exact .none
  · rw [hcalled, hcalled']
    exact .none

end Twins

/-- **One event** can happen in both or in neither, and leads from twins to twins. -/
theorem next_twins (h : s.Twins P s') (hrefl : ∀ x, P x x) (e : Event (Option String)) :
    StumblesAt s s' e ∨ Option.Rel (Twins P) (s.next RedisStore.site e) (s'.next RedisStore.site e) := by
  cases e with
  | clock c reading => exact .inr (h.setClock c reading)
  | trouble outage =>
    obtain ⟨⟨⟨-, hkeys⟩, hprefix, hconnected⟩, hledger⟩ := h.world
    exact .inr (.some ⟨⟨⟨⟨rfl, hkeys⟩, hprefix, hconnected⟩, hledger⟩, h.clocks, h.members, h.history, h.attempts⟩)
  | ask k owner name atMost atLeast => exact .inr (h.ask k owner name atMost atLeast)
  | arrive k => exact h.arrive hrefl k
  | finish k => exact .inr (h.finish k)
  | expire k => exact .inr (h.expire k)
  | cancel k => exact .inr (h.cancel k)
  | release k => exact .inr (h.release k)

/-- **A run** likewise, up to the first event that stumbles. -/
theorem run_twins (h : s.Twins P s') (hrefl : ∀ x, P x x) (es : List (Event (Option String))) :
    Option.Rel (Twins P) (s.run RedisStore.site es) (s'.run RedisStore.site es) ∨
      ∃ front e back m m', es = front ++ e :: back ∧ s.run RedisStore.site front = some m ∧
        s'.run RedisStore.site front = some m' ∧ m.Twins P m' ∧ StumblesAt m m' e := by
  -- on the events; the first that stumbles is where the list is split
  induction es generalizing s s' with
  | nil => exact .inl (.some h)
  | cons e es ih =>
    rcases next_twins h hrefl e with hstumbles | hnext
    · exact .inr ⟨[], e, es, s, s', rfl, rfl, rfl, h, hstumbles⟩
    · simp only [run, Option.bind_eq_bind]
      generalize hx : s.next RedisStore.site e = x at hnext ⊢
      generalize hx' : s'.next RedisStore.site e = x' at hnext ⊢
      cases hnext with
      | none => exact .inl .none
      | some htwins =>
        rcases ih htwins with hall | ⟨front, e', back, m, m', rfl, hm, hm', hmid, hstumbles⟩
        · exact .inl hall
        · refine .inr ⟨e :: front, e', back, m, m', rfl, ?_, ?_, hmid, hstumbles⟩
          · simp only [run, hx, Option.bind_eq_bind, Option.bind_some, hm]
          · simp only [run, hx', Option.bind_eq_bind, Option.bind_some, hm']

end

/-! ## What can be told -/

/-- The race with another database. -/
def onDatabase (db : Database) (s : Race RedisStore) : Race RedisStore :=
  { s with world := { s.world with store := { s.world.store with database := db } } }

/-- The lease that a call has in hand. -/
def InHand {σ : Type} (s : Race σ) (k : Nat) (lease : Lease) : Prop := ∃ a, s.attempts k = some a ∧ a.stage = .held lease

/-- **Two races tell the same**: how calls ended and which writes were applied, what the locks counted and the ledger
says, which leases are in hand, released or not, and where all records end. -/
structure SameTelling (s s' : Race RedisStore) : Prop where
  history : s'.history = s.history
  members : s'.members = s.members
  ledger : s'.world.ledger = s.world.ledger
  inHand : ∀ k lease, s'.InHand k lease ↔ s.InHand k lease
  ends : ∀ key, s'.world.store.database.hget key lockUntilKey = s.world.store.database.hget key lockUntilKey

variable {P : Option String → Option String → Prop} {s s' : Race RedisStore} {db db' : Database}

/-- Calls that stand alike have the same leases in hand. -/
theorem Twins.inHand (h : s.Twins P s') (k : Nat) (lease : Lease) : s'.InHand k lease ↔ s.InHand k lease := by
  have hk := h.attempts k
  simp only [InHand]
  generalize s.attempts k = x at hk ⊢
  generalize s'.attempts k = x' at hk ⊢
  cases hk with
  | none => exact Iff.rfl
  | @some a a' ha =>
    have hstage : a'.stage = .held lease ↔ a.stage = .held lease := by
      have hstage := ha.stage
      generalize a.stage = y at hstage ⊢
      generalize a'.stage = y' at hstage ⊢
      cases hstage with
      | same => exact Iff.rfl
      | called purpose _ => exact iff_of_false (by rintro ⟨⟩) (by rintro ⟨⟩)
    simp [hstage]

theorem Twins.sameTelling (h : s.Twins P s') : s.SameTelling s' :=
  ⟨h.history, h.members, h.world.ledger, h.inHand, h.world.store.database.ends⟩

theorem twins_onDatabase (h : db.Twins P db') (s : Race RedisStore) : (s.onDatabase db).Twins P (s.onDatabase db') where
  world := ⟨⟨h, rfl, rfl⟩, rfl⟩
  clocks := rfl
  members := rfl
  history := rfl
  attempts k := by
    show Option.Rel Attempt.Alike (s.attempts k) (s.attempts k)
    cases s.attempts k with
    | none => exact .none
    | some a => exact .some ⟨rfl, rfl, .same _⟩

/-- **A lock goes by the end of its record alone**, as far as remarks can be read.  Take any race, with any leases in hand
and any calls on their way, over two databases that differ in remarks only.  If all remarks are read alike, whatever
happens next happens in both, and the two races tell the same.  In general they do so up to the first release that is
applied to a record whose remarks are not read alike (`Crack`). -/
theorem remarks_unread (s : Race RedisStore) (h : db.Twins (fun _ _ => True) db') (es : List (Event (Option String))) :
    (db.Twins ReadAlike db' →
      Option.Rel SameTelling ((s.onDatabase db).run RedisStore.site es) ((s.onDatabase db').run RedisStore.site es)) ∧
    (Option.Rel SameTelling ((s.onDatabase db).run RedisStore.site es) ((s.onDatabase db').run RedisStore.site es) ∨
      ∃ front e back m m', es = front ++ e :: back ∧ (s.onDatabase db).run RedisStore.site front = some m ∧
        (s.onDatabase db').run RedisStore.site front = some m' ∧ m.SameTelling m' ∧ StumblesAt m m' e) := by
  have htell : ∀ {P : Option String → Option String → Prop} {x x' : Option (Race RedisStore)},
      Option.Rel (Twins P) x x' → Option.Rel SameTelling x x' := by
    rintro P x x' (⟨hx⟩ | _)
    · exact .some hx.sameTelling
    · exact .none
  refine ⟨fun hread => ?_, ?_⟩
  · rcases run_twins (twins_onDatabase hread s) ReadAlike.refl es with hall | ⟨front, e, back, m, m', -, -, -, hmid, k, a,
      purpose, -, -, -, lease, u, -, hcrack⟩
    · exact htell hall
    · exact absurd hcrack (hmid.world.store.database.no_crack _ _)
  · rcases run_twins (twins_onDatabase h s) (fun _ => trivial) es with hall | ⟨front, e, back, m, m', hes, hm, hm', hmid, hat⟩
    · exact .inl (htell hall)
    · exact .inr ⟨front, e, back, m, m', hes, hm, hm', hmid.sameTelling, hat⟩

/-! ## One release, with and without a remark

A lease of a minute is in hand, and one second after it was taken it is given back. -/

/-- The record of the lease, with the remark on when it was taken. -/
def remarked (taken : String) : Database where
  entries := [("lease:report", .hash [("lockUntil", (later 80000).timestamp), ("lockedAt", taken), ("lockedBy", "node-a")])]
  outage := none

/-- The record of the lease without its remarks. -/
def unremarked : Database where
  entries := [("lease:report", .hash [("lockUntil", (later 80000).timestamp)])]
  outage := none

def minuteOfReport : Lease := ⟨"report", later 80000, later 20000, later 20000, .text "node-a", false⟩

/-- The race over a server that is connected, with the lease in hand. -/
def inHand : Race Redis.RedisStore where
  world := ⟨⟨.empty, "lease:", true⟩, .empty⟩
  clocks _ := .utc (later 21000)
  members _ := ⟨⟨.text "node-a", .int 5, .zero⟩, .system⟩
  attempts k := if k = 0 then
    some ⟨0, ⟨"report", later 80000, later 20000, later 20000, by decide, by decide, by decide⟩, .held minuteOfReport⟩ else none
  history := []

def givenBack : List (Event (Option String)) := [.release 0, .arrive 0, .finish 0]

/-- Two databases with one hash under one key are twins if the hashes agree. -/
theorem twins_single {key : String} {fields fields' : Fields} (h : Agree P fields fields')
    (hrefl : ∀ x, P x x) : Database.Twins P ⟨[(key, .hash fields)], none⟩ ⟨[(key, .hash fields')], none⟩ where
  outage := rfl
  keys other := by
    by_cases hkey : key = other
    · subst hkey
      simpa [Database.fieldsOf, Database.find?] using Except.Like.ok h
    · have hnil : Agree P [] [] := ⟨List.nodup_nil, List.nodup_nil, fun _ _ _ => rfl, hrefl none⟩
      simpa [Database.fieldsOf, Database.find?, hkey] using Except.Like.ok hnil

theorem remarked_twins {taken taken' : String} (hrefl : ∀ x, P x x) (h : P (some taken) (some taken')) :
    (remarked taken).Twins P (remarked taken') := by
  refine twins_single ⟨by simp, by simp, fun field hat hby => ?_, h⟩ hrefl
  have hat' : ("lockedAt" == field) = false := beq_false_of_ne hat.symm
  simp [Database.find?, List.find?_cons, hat']

theorem unremarked_twins {taken : String} (hrefl : ∀ x, P x x) (h : P (some taken) none) :
    (remarked taken).Twins P unremarked := by
  refine twins_single ⟨by simp, by simp, fun field hat hby => ?_, h⟩ hrefl
  have hat' : ("lockedAt" == field) = false := beq_false_of_ne hat.symm
  have hby' : ("lockedBy" == field) = false := beq_false_of_ne hby.symm
  simp [Database.find?, List.find?_cons, hat', hby']

/-- Without its remarks the lease is released as it is with them. -/
theorem given_back_unremarked :
    (remarked (later 20000).timestamp).Twins (fun _ _ => True) unremarked ∧
      (remarked (later 20000).timestamp).Twins ReadAlike unremarked ∧
      ((inHand.onDatabase unremarked).run RedisStore.site givenBack).map (·.history) =
        some [.released 0 (later 21000), .settled 0 (.ok ())] := by
  have hread : ReadAlike (some (later 20000).timestamp) none := .ok trivial
  have htwins : (remarked (later 20000).timestamp).Twins (fun _ _ => True) unremarked :=
    unremarked_twins (fun _ => trivial) trivial
  have halike := unremarked_twins ReadAlike.refl hread
  refine ⟨htwins, halike, ?_⟩
  have htold := (remarks_unread inHand htwins givenBack).1 halike
  have hhistory : ((inHand.onDatabase (remarked (later 20000).timestamp)).run RedisStore.site givenBack).map (·.history) =
      some [.released 0 (later 21000), .settled 0 (.ok ())] := rfl
  generalize (inHand.onDatabase (remarked (later 20000).timestamp)).run RedisStore.site givenBack = x at htold hhistory
  generalize (inHand.onDatabase unremarked).run RedisStore.site givenBack = x' at htold ⊢
  cases htold with
  | none => cases hhistory
  | some hsame =>
    rw [Option.map_some] at hhistory ⊢
    rw [hsame.history]
    exact hhistory

/-- **With a remark that is no time the release fails**, though it is written, and the lock says nothing of it. -/
theorem given_back_illegible :
    (remarked (later 20000).timestamp).Twins (fun _ _ => True) (remarked "yesterday") ∧
      ((inHand.onDatabase (remarked (later 20000).timestamp)).run RedisStore.site givenBack).map (·.history) =
        some [.released 0 (later 21000), .settled 0 (.ok ())] ∧
      ((inHand.onDatabase (remarked "yesterday")).run RedisStore.site givenBack).map (·.history) =
        some [.settled 0 (.error (.time (.notIso "yesterday")))] ∧
      ((inHand.onDatabase (remarked "yesterday")).run RedisStore.site givenBack).map
          (·.world.store.database.hget "lease:report" lockUntilKey) = some (.ok (some (later 21000).timestamp)) :=
  ⟨remarked_twins (fun _ => trivial) trivial, rfl, rfl, rfl⟩

end Race
end Leasehold
