/-
  A contest: calls that ask for one lock at one moment, side by side.

  Any number of calls, of any locks, try to acquire a name, and the clocks that they read show the same moment.  Some
  of their requests hang, and some are lost, as trouble lies ahead of the store.  A call whose request hangs runs out
  of time, and no other does; nobody is cancelled.  Apart from that calls go on in any order, and strangers come and
  go at the gate.

  1. **`Contest`** — the runs of a loop in which nothing else happens;
  2. **`Leg`** — where a call is on its way through a contest: its visit, and its caller.  There are eight legs, and
     none of them is that of a call that was cut short;
  3. **`Visit.Bout`**, **`Stride`** — all that an event can do: a stranger comes or goes, a call begins, moves on by
     one leg, or is settled and counted (`Entered.stride`);
  4. **`Entered.run`** — so every call of a contest stays on its way;
  5. **`Entered.rest_run`, `Entered.goes_on`** — a contest has no more than six steps for each of its calls, and while no
     stranger is inside the gate, it can go on until all of them are over.
-/
import Mathlib.Algebra.Order.BigOperators.Group.Finset
import Leasehold.Proofs.PhantomWrites
import Leasehold.Proofs.Verdicts
namespace Leasehold

/-! ## Asking -/

/-- **Whoever asks with a deadline after the moment, and without a floor, is let in.** -/
theorem Claim.ofGiven_floorless {reading : GivenTime} {now most : Instant} {name : String} {t : DateTime}
    (hnow : reading.truncate = .ok now) (hname : name ≠ "") (haware : t.isAware = true) (hmost : t.truncate = .ok most)
    (hafter : now.micros < most.micros) :
    ∃ c, Claim.ofGiven reading (.text name) (.time t) .none = .ok c ∧ c.takenAt = now := by
  have hcut : now.truncate = now := GivenTime.truncate_isWhole hnow
  have hfloor : (DateTime.utc now).truncate = .ok now := by rw [DateTime.truncate_utc, hcut]
  have hclaim : Claim.ofInstants ⟨name, hname⟩ most now now = .ok ⟨name, most, now, now, hname, hafter, hafter.le⟩ := by
    rw [Claim.ofInstants, dif_neg (Nat.not_le.mpr hafter), dif_neg (Nat.not_lt.mpr hafter.le)]
  have hgiven : Claim.ofGiven reading (.text name) (.time t) .none =
      (Claim.ofInstants ⟨name, hname⟩ most now now).mapError Error.terms := by
    have hasked : Claim.nameOf (.text name) = .ok ⟨name, hname⟩ := dif_neg hname
    have hdeadline : Claim.deadline .atMost (.time t) = .ok t := if_pos haware
    have hleast : Claim.deadline .atLeast (.moment now) = .ok (.utc now) := rfl
    simp only [Claim.ofGiven, hnow, hasked, hdeadline, GivenTime.none, GivenTime.isNone, Value.isNull, if_true, hleast,
      hmost, hfloor, Except.mapError, bind, Except.bind]
  rw [hgiven, hclaim]
  exact ⟨_, rfl, rfl⟩

/-! ## Counting, and writing -/

theorem Lock.identity_tick (lock : Lock) (t : Tick) : (lock.tick t).identity = lock.identity := by
  rcases t with x | x <;> cases x <;> rfl

namespace Memory

/-- A store that has refused a write. -/
def refuse (m : Memory) : Memory := { m with conditionsFailed := m.conditionsFailed + 1 }

/-- **The write of an acquire**: the record of the claim is put if the name is free, and refused otherwise. -/
theorem write_claim {c : Claim} (hc : c.IsWhole) (who : Value) (m : Memory) :
    (m.Free c.name c.takenAt ∧
        (Loop.Job.acquire c).write who m = (m.put c.name (c.record who), .ok (c.record who))) ∨
      (¬m.Free c.name c.takenAt ∧
        (Loop.Job.acquire c).write who m = (m.refuse, .error (.conditionNotMet (.text c.name) .store))) := by
  have hdecided : (Loop.Job.acquire c).write who m = m.apply (.text c.name)
      (.ok (if m.Free c.name c.takenAt then .written (c.record who) else .rejected)) := by
    rw [← decision_acquire hc who m]
    rfl
  by_cases hfree : m.Free c.name c.takenAt
  · rw [hdecided, if_pos hfree]
    exact Or.inl ⟨hfree, rfl⟩
  · rw [hdecided, if_neg hfree]
    exact Or.inr ⟨hfree, rfl⟩

end Memory

namespace Loop

/-! ## Contests -/

/-- The request of a call hangs. -/
def Hangs (s : Loop) (k : Nat) : Prop := ∃ v, s.calls k = some (.sent v) ∧ v.place = .hanging

/-- **An event of a contest** for a name at a moment.  Its calls ask for the name, by readings that are cut to the
moment, with deadlines that make sense.  Visits take turns and callers go on as they like; time runs out for requests
that hang, and for no others. -/
def Proper (name : String) (now : Instant) (calls : Finset Nat) (s : Loop) : Event → Prop
  | .tryAcquire k _ reading asked atMost atLeast =>
    k ∈ calls ∧ asked = .text name ∧ ∃ c, Claim.ofGiven reading asked atMost atLeast = .ok c ∧ c.takenAt = now
  | .interrupt k cause => cause = .timeout ∧ s.Hangs k
  | .turn _ => True
  | .resume _ => True
  | .enter => True
  | .exit => True
  | .trouble _ => False
  | .release _ _ _ => False
  | .quit _ => False

/-- **A contest**: events of it, one after the other. -/
inductive Contest (name : String) (now : Instant) (calls : Finset Nat) : Loop → List Event → Loop → Prop where
  | still (s : Loop) : Contest name now calls s [] s
  | step {s s₁ s' : Loop} {e : Event} {es : List Event} (proper : s.Proper name now calls e) (next : s.next e = some s₁)
      (rest : Contest name now calls s₁ es s') : Contest name now calls s (e :: es) s'

/-! ## The way of a call -/

/-- What the store says to a request, and what the call counts as. -/
inductive Hears (c : Claim) (who : Value) : Except Error LeaseRecord → AcquireOutcome → Prop where
  | lost : Hears c who (.error .injected) .failed
  | refused : Hears c who (.error (.conditionNotMet (.text c.name) .store)) .contended
  | written : Hears c who (.ok (c.record who)) .acquired

theorem Hears.counts {c : Claim} {who : Value} {r : Except Error LeaseRecord} {x : AcquireOutcome} (h : Hears c who r x) :
    AcquireOutcome.of? c (.ofExcept r) = some x := by
  cases h with
  | lost => rfl
  | refused => rfl
  | written => exact AcquireOutcome.of?_acquired.mpr ⟨_, rfl, rfl⟩

/-- How a call ends that counts: with a lease if it acquired, and with none otherwise. -/
def endingOf (c : Claim) (who : Value) (x : AcquireOutcome) : Ending :=
  .acquired (.ok (if x = .acquired then some (.ofClaim c who) else none))

/-- **The legs of the way of a call**, by its place, whether its visit was told to end, and its caller. -/
inductive Leg (c : Claim) (who : Value) : Place → Bool → Caller → Prop where
  | before {p : Place} (before : p.IsBefore) : Leg c who p false .waiting
  | queueing : Leg c who .queueing false .waiting
  | hanging : Leg c who .hanging false .waiting
  | told : Leg c who .hanging true (.stopping .timeout)
  | stopped : Leg c who (.ended none) true (.stopping .timeout)
  | timedOut : Leg c who (.ended none) true (.returned (endingOf c who .failed))
  | heard {r : Except Error LeaseRecord} {x : AcquireOutcome} (hears : Hears c who r x) :
      Leg c who (.ended (some r)) false .waiting
  | closed {r : Except Error LeaseRecord} {x : AcquireOutcome} (hears : Hears c who r x) :
      Leg c who (.ended (some r)) false (.returned (endingOf c who x))

/-- **A visit of a contest**: an acquire of the name at the moment, somewhere on its way. -/
structure Visit.Enters (name : String) (now : Instant) (who : Value) (c : Claim) (v : Visit) : Prop where
  job : v.job = .acquire c
  whole : c.IsWhole
  name : c.name = name
  takenAt : c.takenAt = now
  leg : Leg c who v.place v.isTold v.caller

/-- The outcome that a request has come to. -/
def Place.outcome? : Place → Option (Outcome LeaseRecord)
  | hanging => some .silent
  | ended none => some .silent
  | ended (some r) => some (.ofExcept r)
  | _ => none

/-- A visit that is settled. -/
def Visit.IsOver (v : Visit) : Prop := ∃ ending, v.caller = .returned ending

/-- **How a visit moves on**, and what becomes of the store: before it is settled. -/
inductive Visit.Bout (c : Claim) (who : Value) (v : Visit) (m : Memory) : Visit → Memory → Prop where
  | pauses (starting : v.place = .starting) : Bout c who v m (v.goTo .pausing) m
  /-- Trouble is in its way. -/
  | falters (before : v.place.IsBefore) (way : m.pass.2 ≠ .through) {place : Place}
      (met : place = .hanging ∨ place = .ended (some (.error .injected))) : Bout c who v m (v.goTo place) m.pass.1
  | queues (before : v.place.IsBefore) (way : m.pass.2 = .through) : Bout c who v m (v.goTo .queueing) m
  | written (way : v.place.IsBefore ∧ m.pass.2 = .through ∨ v.place = .queueing) (free : m.Free c.name c.takenAt) :
      Bout c who v m (v.goTo (.ended (some (.ok (c.record who))))) (m.put c.name (c.record who))
  | refused (way : v.place.IsBefore ∧ m.pass.2 = .through ∨ v.place = .queueing) (taken : ¬m.Free c.name c.takenAt) :
      Bout c who v m (v.goTo (.ended (some (.error (.conditionNotMet (.text c.name) .store))))) m.refuse
  | told (hangs : v.place = .hanging) (untold : v.isTold = false) (waits : v.caller = .waiting) :
      Bout c who v m (v.tell (.stopping .timeout)) m
  | cut (hangs : v.place = .hanging) (told : v.isTold = true) : Bout c who v m (v.goTo (.ended none)) m

/-- **What holds of the calls of a contest**: they are calls of it, and on their way. -/
structure Entered (name : String) (now : Instant) (calls : Finset Nat) (s : Loop) : Prop where
  sound : s.Sound
  enters : ∀ k call, s.calls k = some call →
    k ∈ calls ∧ ∃ v c, call = .sent v ∧ v.Enters name now (s.locks v.owner).identity c

/-- **All that an event of a contest can do.** -/
inductive Stride (name : String) (now : Instant) (calls : Finset Nat) (s : Loop) (e : Event) (s' : Loop) : Prop where
  /-- No call takes a step. -/
  | outside (call : e.call? = none) (calls : s'.calls = s.calls) (locks : s'.locks = s.locks) (world : s'.world = s.world)
  /-- A call begins. -/
  | begins {k owner : Nat} {c : Claim} (call : e.call? = some k) (mem : k ∈ calls) (unknown : s.calls k = none)
      (whole : c.IsWhole) (name : c.name = name) (takenAt : c.takenAt = now)
      (calls : s'.calls = Function.update s.calls k (some (.sent ⟨owner, .acquire c, .starting, false, .waiting⟩)))
      (locks : s'.locks = s.locks) (world : s'.world = s.world)
  /-- A call moves on. -/
  | moves {k : Nat} {v v' : Visit} {c : Claim} (call : e.call? = some k) (known : s.calls k = some (.sent v))
      (enters : v.Enters name now (s.locks v.owner).identity c)
      (calls : s'.calls = Function.update s.calls k (some (.sent v'))) (locks : s'.locks = s.locks)
      (ledger : s.world.ledger.SameCalls s'.world.ledger)
      (bout : v.Bout c (s.locks v.owner).identity s.world.store v' s'.world.store)
  /-- A call is settled, and counted. -/
  | settles {k : Nat} {v : Visit} {c : Claim} {o : Outcome LeaseRecord} {x : AcquireOutcome} (call : e.call? = some k)
      (known : s.calls k = some (.sent v)) (enters : v.Enters name now (s.locks v.owner).identity c) (waits : ¬v.IsOver)
      (ended : v.place.result?.isSome = true) (outcome : v.place.outcome? = some o)
      (counts : AcquireOutcome.of? c o = some x)
      (calls : s'.calls =
        Function.update s.calls k (some (.sent (v.close (endingOf c (s.locks v.owner).identity x)))))
      (locks : s'.locks = Function.update s.locks v.owner ((s.locks v.owner).tick (.acquire x)))
      (ledger : (s.world.ledger.count (·.tick c.name (.acquire x))).SameCalls s'.world.ledger)
      (store : s'.world.store = s.world.store)

section

variable {name : String} {now : Instant} {calls : Finset Nat} {s s₁ s' : Loop} {e : Event} {es : List Event} {k : Nat}
  {v v' : Visit} {c : Claim} {who : Value}

/-- A call that asks with a deadline after the moment is a call of the contest. -/
theorem proper_ask {owner : Nat} {reading : GivenTime} {most : Instant} {t : DateTime} (hk : k ∈ calls)
    (hnow : reading.truncate = .ok now) (hname : name ≠ "") (haware : t.isAware = true) (hmost : t.truncate = .ok most)
    (hafter : now.micros < most.micros) :
    s.Proper name now calls (.tryAcquire k owner reading (.text name) (.time t) .none) :=
  ⟨hk, rfl, Claim.ofGiven_floorless hnow hname haware hmost hafter⟩

/-! ## What an event does -/

/-- A visit moves on from one loop to another. -/
def MovesOn (k : Nat) (c : Claim) (v : Visit) (s s' : Loop) : Prop :=
  ∃ v', s'.calls = Function.update s.calls k (some (.sent v')) ∧ s'.locks = s.locks ∧
    s.world.ledger.SameCalls s'.world.ledger ∧
    v.Bout c (s.locks v.owner).identity s.world.store v' s'.world.store

theorem carryOut_movesOn (hjob : v.job = .acquire c) (hc : c.IsWhole)
    (way : v.place.IsBefore ∧ s.world.store.pass.2 = .through ∨ v.place = .queueing) (g : Gate) :
    MovesOn k c v s (s.carryOut k v g) := by
  have hledger : ∀ r, s.world.ledger.SameCalls (Memory.noteApplied (.ofExcept r) s.world.ledger) := by
    intro r
    cases r <;> exact ⟨rfl, rfl⟩
  refine ⟨_, rfl, rfl, hledger _, ?_⟩
  rw [carryOut, hjob]
  rcases Memory.write_claim hc (s.locks v.owner).identity s.world.store with ⟨hfree, hw⟩ | ⟨htaken, hw⟩
  · rw [hw]
    exact .written way hfree
  · rw [hw]
    exact .refused way htaken

theorem arrive_movesOn (hjob : v.job = .acquire c) (hc : c.IsWhole) (hb : v.place.IsBefore) :
    MovesOn k c v s (s.arrive k v) := by
  have hfalters : ∀ {m : Memory} {p : Memory.Passage}, s.world.store.pass = (m, p) → p ≠ .through → ∀ {place : Place},
      place = .hanging ∨ place = .ended (some (.error .injected)) →
      MovesOn k c v s ((s.setStore m).setVisit k (v.goTo place)) := by
    intro m p hp hway place met
    have hbout : v.Bout c (s.locks v.owner).identity s.world.store (v.goTo place) s.world.store.pass.1 :=
      .falters hb (by rw [hp]; exact hway) met
    rw [hp] at hbout
    exact ⟨_, rfl, rfl, ⟨rfl, rfl⟩, hbout⟩
  unfold arrive
  split
  · rename_i m hp
    exact hfalters hp nofun (Or.inl rfl)
  · rename_i m hp
    exact hfalters hp nofun (Or.inr rfl)
  · rename_i m hp
    have hway : s.world.store.pass.2 = .through := by rw [hp]
    split
    · exact carryOut_movesOn hjob hc (Or.inl ⟨hb, hway⟩) _
    · exact ⟨_, rfl, rfl, ⟨rfl, rfl⟩, .queues hb hway⟩

theorem turnOf_movesOn (hv : v.Enters name now (s.locks v.owner).identity c) (h : s.turnOf k v = some s') :
    MovesOn k c v s s' := by
  obtain ⟨owner, job, place, isTold, caller⟩ := v
  obtain ⟨hjob, hc, -, -, hleg⟩ := hv
  dsimp only at hleg
  -- a turn is for a visit that has not come to the store, is woken in the row, or was told to end
  cases hleg with
  | before hb =>
    rcases hb with rfl | rfl
    · cases h
      split
      · exact ⟨_, rfl, rfl, ⟨rfl, rfl⟩, .pauses rfl⟩
      · exact arrive_movesOn hjob hc (Or.inl rfl)
    · cases h
      exact arrive_movesOn hjob hc (Or.inr rfl)
  | queueing =>
    have h : (if s.gate.isWoken k then some (s.carryOut k _ (s.gate.drop k).shut.leave) else none) = some s' := h
    split at h
    · cases h
      exact carryOut_movesOn hjob hc (Or.inr rfl) _
    · cases h
  | told =>
    cases h
    exact ⟨_, rfl, rfl, ⟨rfl, rfl⟩, .cut rfl rfl⟩
  | hanging => cases h
  | stopped => cases h
  | timedOut => cases h
  | heard hears => cases h
  | closed hears => cases h

/-- Time that runs out for a request that hangs has its visit told to end. -/
theorem interruptOf_movesOn (hv : v.Enters name now (s.locks v.owner).identity c) (hangs : v.place = .hanging)
    (h : s.interruptOf k v .timeout = some s') : MovesOn k c v s s' := by
  obtain ⟨owner, job, place, isTold, caller⟩ := v
  obtain ⟨hjob, hc, -, -, hleg⟩ := hv
  dsimp only at hleg
  cases hleg with
  | hanging =>
    cases h
    exact ⟨_, rfl, rfl, ⟨rfl, rfl⟩, .told rfl rfl rfl⟩
  | told => cases h
  | before hb => rcases hb with rfl | rfl <;> cases hangs
  | queueing => cases hangs
  | stopped => cases hangs
  | timedOut => cases hangs
  | heard hears => cases hangs
  | closed hears => cases hangs

/-- **A call is settled** by what counts. -/
theorem settle_stride (hk : s.calls k = some (.sent v)) (he : e.call? = some k)
    (hv : v.Enters name now (s.locks v.owner).identity c) (waits : ¬v.IsOver) (ended : v.place.result?.isSome = true)
    {o : Outcome LeaseRecord} (outcome : v.place.outcome? = some o) {x : AcquireOutcome}
    (hx : AcquireOutcome.of? c o = some x) : Stride name now calls s e (s.settle k v o) := by
  obtain ⟨hlock, hledger, hresult⟩ := (s.locks v.owner).settleAcquire_verdict hx s.world.ledger
  have hcalls : (s.settle k v o).calls =
      Function.update s.calls k (some (.sent (v.close (endingOf c (s.locks v.owner).identity x)))) := by
    simp only [settle, hv.job, setVisit, setCall, calls_keep, setLock, hresult, endingOf]
  have hlocks : (s.settle k v o).locks = Function.update s.locks v.owner ((s.locks v.owner).tick (.acquire x)) := by
    simp only [settle, hv.job, setVisit, setCall, locks_keep, setLock, hlock]
  have hworld : (s.settle k v o).world =
      { s.world with ledger := ((s.locks v.owner).settleAcquire c o s.world.ledger).2.1 } := by
    simp only [settle, hv.job, setVisit, setCall, world_keep, setLock]
  exact .settles he hk hv waits ended outcome hx hcalls hlocks (by rw [hworld]; exact hledger) (by rw [hworld])

theorem resumeOf_stride (hk : s.calls k = some (.sent v)) (he : e.call? = some k)
    (hv : v.Enters name now (s.locks v.owner).identity c) (h : s.resumeOf k v = some s') :
    Stride name now calls s e s' := by
  have hsettle : ¬v.IsOver → v.place.result?.isSome = true → ∀ {o : Outcome LeaseRecord}, v.place.outcome? = some o →
      ∀ {x : AcquireOutcome}, AcquireOutcome.of? c o = some x → Stride name now calls s e (s.settle k v o) :=
    settle_stride hk he hv
  obtain ⟨owner, job, place, isTold, caller⟩ := v
  obtain ⟨-, -, -, -, hleg⟩ := hv
  dsimp only at hleg
  cases hleg with
  | stopped =>
    cases h
    exact hsettle nofun rfl rfl rfl
  | heard hears =>
    cases h
    exact hsettle nofun rfl rfl hears.counts
  | before hb => rcases hb with rfl | rfl <;> cases h
  | queueing => cases h
  | hanging => cases h
  | told => cases h
  | timedOut => cases h
  | closed hears => cases h

/-- A visit that is known to a contest is one of it, and on its way. -/
theorem Entered.known (hs : s.Entered name now calls) (hk : s.calls k = some (.sent v)) :
    k ∈ calls ∧ ∃ c, v.Enters name now (s.locks v.owner).identity c := by
  obtain ⟨hmem, w, c, hw, hc⟩ := hs.enters k _ hk
  cases hw
  exact ⟨hmem, c, hc⟩

/-- **What an event of a contest does is a stride.** -/
theorem Entered.stride (hs : s.Entered name now calls) (he : s.Proper name now calls e) (h : s.next e = some s') :
    Stride name now calls s e s' := by
  have hmoves : ∀ {k v c}, e.call? = some k → s.calls k = some (.sent v) →
      v.Enters name now (s.locks v.owner).identity c → MovesOn k c v s s' → Stride name now calls s e s' := by
    intro k v c he hk hc hmoved
    obtain ⟨v', hcalls, hlocks, hledger, hbout⟩ := hmoved
    exact .moves he hk hc hcalls hlocks hledger hbout
  cases e with
  | tryAcquire k owner reading asked atMost atLeast =>
    obtain ⟨hmem, rfl, c, hc, hnow⟩ := he
    simp only [next, Loop.tryAcquire, hc] at h
    split at h
    · cases h
    · rename_i hk
      cases h
      obtain ⟨htaken, hname, hmost, hleast⟩ := Claim.ofGiven_parts hc
      have hwhole : c.IsWhole := ⟨hmost, hleast, GivenTime.truncate_isWhole htaken⟩
      exact .begins rfl hmem hk hwhole (Value.text.inj hname).symm hnow rfl rfl rfl
  | turn k =>
    obtain ⟨v, hv, hstep⟩ := visiting_some h
    obtain ⟨-, c, hc⟩ := hs.known hv
    exact hmoves rfl hv hc (turnOf_movesOn hc hstep)
  | interrupt k cause =>
    obtain ⟨rfl, w, hw, hangs⟩ := he
    obtain ⟨v, hv, hstep⟩ := visiting_some h
    obtain ⟨-, c, hc⟩ := hs.known hv
    obtain rfl : w = v := by
      rw [hw] at hv
      cases hv
      rfl
    exact hmoves rfl hv hc (interruptOf_movesOn hc hangs hstep)
  | resume k =>
    obtain ⟨v, hv, hstep⟩ := visiting_some h
    obtain ⟨-, c, hc⟩ := hs.known hv
    exact resumeOf_stride hv rfl hc hstep
  | enter =>
    simp only [next] at h
    split at h
    · cases h
      exact .outside rfl rfl rfl rfl
    · cases h
  | exit =>
    simp only [next] at h
    split at h
    · cases h
      exact .outside rfl rfl rfl rfl
    · cases h
  | trouble t => exact he.elim
  | release j number reading => exact he.elim
  | quit j => exact he.elim

/-! ## What an event keeps -/

theorem Leg.onTheWay {p : Place} {told : Bool} {caller : Caller} (h : Leg c who p told caller) (hp : p.OnTheWay) :
    told = false ∧ caller = .waiting := by
  cases h with
  | before => exact ⟨rfl, rfl⟩
  | queueing => exact ⟨rfl, rfl⟩
  | heard => exact ⟨rfl, rfl⟩
  | hanging => exact ⟨rfl, rfl⟩
  | told => rcases hp with (hp | hp) | hp <;> cases hp
  | stopped => rcases hp with (hp | hp) | hp <;> cases hp
  | timedOut => rcases hp with (hp | hp) | hp <;> cases hp
  | closed => rcases hp with (hp | hp) | hp <;> cases hp

/-- A visit on its way that goes to the place of a leg, and is told nothing. -/
theorem Visit.Enters.goTo (hv : v.Enters name now who c) (hway : v.place.OnTheWay) {p : Place}
    (hleg : Leg c who p false .waiting) : (v.goTo p).Enters name now who c := by
  obtain ⟨ht, hw⟩ := hv.leg.onTheWay hway
  refine ⟨hv.job, hv.whole, hv.name, hv.takenAt, ?_⟩
  show Leg c who p v.isTold v.caller
  rw [ht, hw]
  exact hleg

theorem Visit.Bout.owner {m m' : Memory} (h : v.Bout c who m v' m') : v'.owner = v.owner := by
  cases h <;> rfl

theorem Visit.Bout.job {m m' : Memory} (h : v.Bout c who m v' m') : v'.job = v.job := by
  cases h <;> rfl

/-- **A visit that moves on is on its way still,** -/
theorem Visit.Bout.enters {m m' : Memory} (h : v.Bout c who m v' m') (hv : v.Enters name now who c) :
    v'.Enters name now who c := by
  cases h with
  | pauses starting => exact hv.goTo (Or.inl (Or.inl starting)) (.before (Or.inr rfl))
  | falters before way met =>
    rcases met with rfl | rfl
    · exact hv.goTo (Or.inl before) .hanging
    · exact hv.goTo (Or.inl before) (.heard .lost)
  | queues before way => exact hv.goTo (Or.inl before) .queueing
  | written way free => exact hv.goTo (way.imp And.left id) (.heard .written)
  | refused way taken => exact hv.goTo (way.imp And.left id) (.heard .refused)
  | told hangs untold waits =>
    refine ⟨hv.job, hv.whole, hv.name, hv.takenAt, ?_⟩
    show Leg c who v.place true (.stopping .timeout)
    rw [hangs]
    exact .told
  | cut hangs told =>
    refine ⟨hv.job, hv.whole, hv.name, hv.takenAt, ?_⟩
    have hleg := hv.leg
    rw [hangs, told] at hleg
    show Leg c who (.ended none) v.isTold v.caller
    rw [told]
    generalize v.caller = caller at hleg ⊢
    cases hleg
    exact .stopped

/-- and so is one that is settled. -/
theorem Visit.Enters.close (hv : v.Enters name now who c) (waits : ¬v.IsOver) (ended : v.place.result?.isSome = true)
    {o : Outcome LeaseRecord} (outcome : v.place.outcome? = some o) {x : AcquireOutcome}
    (counts : AcquireOutcome.of? c o = some x) : (v.close (endingOf c who x)).Enters name now who c := by
  obtain ⟨owner, job, place, isTold, caller⟩ := v
  obtain ⟨hjob, hc, hname, hnow, hleg⟩ := hv
  refine ⟨hjob, hc, hname, hnow, ?_⟩
  show Leg c who place isTold (.returned (endingOf c who x))
  dsimp only at hleg
  cases hleg with
  | stopped =>
    cases outcome
    cases counts
    exact .timedOut
  | heard hears =>
    cases outcome
    rw [hears.counts] at counts
    cases counts
    exact .closed hears
  | before hb => rcases hb with rfl | rfl <;> cases ended
  | queueing => cases ended
  | hanging => cases ended
  | told => cases ended
  | timedOut => exact absurd ⟨_, rfl⟩ waits
  | closed => exact absurd ⟨_, rfl⟩ waits

/-- Locks stay who they are. -/
theorem Stride.identity (h : Stride name now calls s e s') (n : Nat) : (s'.locks n).identity = (s.locks n).identity := by
  cases h with
  | outside call calls locks world => rw [locks]
  | begins call mem unknown whole name takenAt calls locks world => rw [locks]
  | moves call known enters calls locks ledger bout => rw [locks]
  | @settles k v c o x call known enters waits ended outcome counts calls locks ledger store =>
    rw [locks]
    by_cases hn : n = v.owner
    · rw [hn, Function.update_self, Lock.identity_tick]
    · rw [Function.update_of_ne hn]

/-- **Every event keeps the calls of a contest on their way.** -/
theorem Entered.next (hs : s.Entered name now calls) (he : s.Proper name now calls e) (h : s.next e = some s') :
    s'.Entered name now calls := by
  have hstride := hs.stride he h
  have hidentity := hstride.identity
  -- whoever is not the call that took a step is where it was
  have hothers : ∀ {k : Nat} {v : Visit} {c : Claim}, k ∈ calls → v.Enters name now (s'.locks v.owner).identity c →
      s'.calls = Function.update s.calls k (some (.sent v)) → s'.Entered name now calls := by
    intro k v c hmem hv hcalls
    refine ⟨hs.sound.next h, fun n call hn => ?_⟩
    rcases calls_cases hcalls hn with ⟨rfl, rfl⟩ | ⟨-, hn⟩
    · exact ⟨hmem, v, c, rfl, hv⟩
    · obtain ⟨hmem, w, d, rfl, hw⟩ := hs.enters n call hn
      refine ⟨hmem, w, d, rfl, ?_⟩
      rw [hidentity]
      exact hw
  cases hstride with
  | outside call calls locks world =>
    refine ⟨hs.sound.next h, ?_⟩
    rw [calls, locks]
    exact hs.enters
  | begins call mem unknown whole name takenAt calls locks world =>
    exact hothers mem ⟨rfl, whole, name, takenAt, .before (Or.inl rfl)⟩ calls
  | @moves k v v' c call known enters calls locks ledger bout =>
    have hmoved : v'.Enters name now (s'.locks v'.owner).identity c := by
      rw [hidentity, bout.owner]
      exact bout.enters enters
    exact hothers (hs.known known).1 hmoved calls
  | @settles k v c o x call known enters waits ended outcome counts calls locks ledger store =>
    have hclosed : (v.close (endingOf c (s.locks v.owner).identity x)).Enters name now (s'.locks v.owner).identity c := by
      rw [hidentity]
      exact enters.close waits ended outcome counts
    exact hothers (hs.known known).1 hclosed calls

theorem Fresh.entered (h : s.Fresh) : s.Entered name now calls where
  sound := h.sound
  enters k call hk := by
    rw [h.calls k] at hk
    cases hk

theorem Entered.run (hs : s.Entered name now calls) (h : Contest name now calls s es s') : s'.Entered name now calls := by
  induction h with
  | still s => exact hs
  | step proper next rest ih => exact ih (hs.next proper next)

/-! ## A contest comes to its end -/

/-- How many steps a visit that was told to end has ahead at most, by its place; any other has one more. -/
def Place.rest : Place → Nat
  | starting => 4
  | pausing => 3
  | hanging => 2
  | queueing => 2
  | ended _ => 1

def Visit.rest (v : Visit) : Nat :=
  match v.caller with
  | .returned _ => 0
  | _ => v.place.rest + if v.isTold then 0 else 1

/-- How many steps a call has ahead at most, begun or not. -/
def Call.rest : Option Call → Nat
  | none => 6
  | some (sent v) => v.rest
  | some (unsent _) => 0

/-- **How many steps the calls of a contest have ahead** at most. -/
def rest (calls : Finset Nat) (s : Loop) : Nat := ∑ k ∈ calls, Call.rest (s.calls k)

theorem Visit.rest_waits (waits : ¬v.IsOver) : v.rest = v.place.rest + if v.isTold then 0 else 1 := by
  unfold rest
  split
  · rename_i ending hc
    exact absurd ⟨ending, hc⟩ waits
  · rfl

theorem Place.rest_pos (p : Place) : 0 < p.rest := by
  cases p <;> exact Nat.succ_pos _

/-- On its way to the store a visit is before the end, -/
theorem Place.OnTheWay.rest_lt {p : Place} (h : p.OnTheWay) (result : Option (Except Error LeaseRecord)) :
    (Place.ended result).rest < p.rest := by
  rcases h with (rfl | rfl) | rfl <;> simp [Place.rest]

/-- and before the row at the gate, as long as it has not come there. -/
theorem Place.IsBefore.rest_lt {p : Place} (h : p.IsBefore) : Place.queueing.rest < p.rest := by
  rcases h with rfl | rfl <;> decide

/-- The caller of a call that moves on has not returned. -/
theorem Visit.Bout.waits {m m' : Memory} (h : v.Bout c who m v' m') (hv : v.Enters name now who c) : ¬v.IsOver := by
  have honTheWay : v.place.OnTheWay → ¬v.IsOver := by
    rintro hway ⟨ending, hc⟩
    rw [(hv.leg.onTheWay hway).2] at hc
    cases hc
  cases h with
  | pauses starting => exact honTheWay (Or.inl (Or.inl starting))
  | falters before way met => exact honTheWay (Or.inl before)
  | queues before way => exact honTheWay (Or.inl before)
  | written way free => exact honTheWay (way.imp And.left id)
  | refused way taken => exact honTheWay (way.imp And.left id)
  | told hangs untold waits =>
    rintro ⟨ending, hc⟩
    rw [waits] at hc
    cases hc
  | cut hangs told =>
    rintro ⟨ending, hc⟩
    have hleg := hv.leg
    rw [hangs, told, hc] at hleg
    cases hleg

/-- A visit that moves on has fewer steps ahead. -/
theorem Visit.Bout.rest_lt {m m' : Memory} (h : v.Bout c who m v' m') (hv : v.Enters name now who c) :
    v'.rest < v.rest := by
  have hwaits := h.waits hv
  have hgoTo : ∀ {p : Place}, p.rest < v.place.rest → (v.goTo p).rest < v.rest := by
    intro p hlt
    have hsame : (v.goTo p).rest = p.rest + if v.isTold then 0 else 1 := (v.goTo p).rest_waits hwaits
    rw [hsame, v.rest_waits hwaits]
    exact Nat.add_lt_add_right hlt _
  cases h with
  | pauses starting => exact hgoTo (by rw [starting]; decide)
  | falters before way met =>
    rcases met with rfl | rfl
    · exact hgoTo before.rest_lt
    · exact hgoTo (Place.OnTheWay.rest_lt (Or.inl before) _)
  | queues before way => exact hgoTo before.rest_lt
  | written way free => exact hgoTo (Place.OnTheWay.rest_lt (way.imp And.left id) _)
  | refused way taken => exact hgoTo (Place.OnTheWay.rest_lt (way.imp And.left id) _)
  | told hangs untold waits =>
    rw [v.rest_waits hwaits, untold]
    exact Nat.lt_succ_self _
  | cut hangs told => exact hgoTo (by rw [hangs]; exact Nat.lt_succ_self 1)

/-- **Every step of a call leaves one step less.** -/
theorem Entered.rest_next (hs : s.Entered name now calls) (he : s.Proper name now calls e) (h : s.next e = some s') :
    s'.rest calls + (if e.call?.isSome then 1 else 0) ≤ s.rest calls := by
  have hstep : ∀ {k : Nat} {call : Call}, k ∈ calls → s'.calls = Function.update s.calls k (some call) →
      Call.rest (some call) < Call.rest (s.calls k) → s'.rest calls < s.rest calls := by
    intro k call hmem hcalls hlt
    -- one summand is less, and the others are as they were
    refine Finset.sum_lt_sum (fun n _ => ?_) ⟨k, hmem, by rwa [hcalls, Function.update_self]⟩
    rw [hcalls]
    by_cases hn : n = k
    · rw [hn, Function.update_self]
      exact hlt.le
    · rw [Function.update_of_ne hn]
  cases hs.stride he h with
  | outside call calls locks world =>
    rw [call, rest, calls]
    exact le_refl _
  | begins call mem unknown whole name takenAt calls locks world =>
    rw [call]
    exact hstep mem calls (by rw [unknown]; exact Nat.lt_succ_self 5)
  | moves call known enters calls locks ledger bout =>
    rw [call]
    exact hstep (hs.known known).1 calls (by rw [known]; exact bout.rest_lt enters)
  | @settles k v c o x call known enters waits ended outcome counts calls locks ledger store =>
    rw [call]
    refine hstep (hs.known known).1 calls ?_
    rw [known]
    exact lt_of_lt_of_eq (Nat.add_pos_left v.place.rest_pos _) (v.rest_waits waits).symm

/-- **A contest takes no more steps of calls than they had ahead.** -/
theorem Entered.rest_run (hs : s.Entered name now calls) (h : Contest name now calls s es s') :
    es.countP (·.call?.isSome) + s'.rest calls ≤ s.rest calls := by
  induction h with
  | still s => exact Nat.le_of_eq (Nat.zero_add _)
  | step proper next rest ih =>
    have hfirst := hs.rest_next proper next
    have hthen := ih (hs.next proper next)
    rw [List.countP_cons]
    omega

theorem Fresh.rest (h : s.Fresh) : s.rest calls = calls.card * 6 :=
  Finset.sum_const_nat fun k _ => congrArg Call.rest (h.calls k)

/-- **While no stranger is inside the gate, a call that is not over can go on**, or somebody can who is before it
there. -/
theorem Entered.goes_on (hs : s.Entered name now calls) (hopen : s.gate.isShut = false)
    (hk : s.calls k = some (.sent v)) (waits : ¬v.IsOver) :
    ∃ e s', e.call?.isSome ∧ s.Proper name now calls e ∧ s.next e = some s' := by
  obtain ⟨-, c, hv⟩ := hs.known hk
  have hleg := hv.leg
  generalize hp : v.place = place at hleg
  generalize ht : v.isTold = told at hleg
  generalize hc : v.caller = caller at hleg
  have hresume : ∀ {s'}, s.resumeOf k v = some s' →
      ∃ e s', e.call?.isSome ∧ s.Proper name now calls e ∧ s.next e = some s' := fun {s'} h =>
    ⟨.resume k, s', rfl, trivial, by simpa only [Loop.next, visiting, hk] using h⟩
  cases hleg with
  | before hb =>
    obtain ⟨s', hgo⟩ : ∃ s', s.goOn k v = some s' := by
      rcases hb with rfl | rfl <;> exact ⟨_, by simp only [goOn, hp]; rfl⟩
    exact ⟨.turn k, s', rfl, trivial, (next_untold hk ht (by rw [hp]; exact hb.going)).trans hgo⟩
  | queueing =>
    -- the first in the row has its turn, whether it is this call or another
    have hqueued : s.queued k = some v.isTold := by
      rw [queued_sent hk, hp]
      rfl
    have hmem : k ∈ s.row := hs.sound.gate.row.listed k _ hqueued
    obtain ⟨j, rest, hrow⟩ := List.exists_cons_of_ne_nil (List.ne_nil_of_mem hmem)
    obtain ⟨s', hn, -⟩ := hs.sound.head_turn hopen hrow
    exact ⟨.turn j, s', rfl, trivial, hn⟩
  | hanging =>
    refine ⟨.interrupt k .timeout, s.tell k v (.stopping .timeout), rfl, ⟨rfl, v, hk, hp⟩, ?_⟩
    simp only [Loop.next, visiting, hk, interruptOf, hc, hp, Place.result?]
  | told => exact ⟨.turn k, _, rfl, trivial, next_told hk ht (by rw [hp]; rfl)⟩
  | stopped => exact hresume (by simp only [resumeOf, hc, hp, Place.result?]; rfl)
  | heard hears => exact hresume (by simp only [resumeOf, hc, hp, Place.result?]; rfl)
  | timedOut => exact absurd ⟨_, hc⟩ waits
  | closed hears => exact absurd ⟨_, hc⟩ waits

end

end Loop
end Leasehold
