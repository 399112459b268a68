/-
  What an event of the loop can do.

  There are nine kinds of events, and a turn alone can end in six ways.  All of it is told here once, so that nobody opens
  `Loop.next` again for an invariant:

  1. **`Visit.Moves`** — how a call moves on, with what becomes of the gate and of the store meanwhile;
  2. **`Change`** — an event leaves all calls alone, or begins one, or moves one on (`Sound.change`);
  3. **`Moves.store`** — a move spares the store, or writes what the job of the call asks for; and then, and only then, the
     call becomes one whose write is applied;
  4. **`Sound`** — what holds of every call, and of the gate.  That a call which is over ended as the store knows it is
     part of it, and every event keeps it (`Sound.next`).
-/
import Leasehold.Proofs.Loop
namespace Leasehold

/-! ## What a job does to the store -/

/-- **The records of a store, and its count of writes, are what they were.** -/
structure Memory.Spared (m m' : Memory) : Prop where
  records : m'.records = m.records
  writes : m'.writesApplied = m.writesApplied

namespace Memory

theorem Spared.refl (m : Memory) : Spared m m := ⟨rfl, rfl⟩

/-- A store that was written to was not spared. -/
theorem not_spared_put (m : Memory) (name : String) (r : LeaseRecord) : ¬Spared m (m.put name r) := by
  intro h
  have hw : m.writesApplied + 1 = m.writesApplied := h.writes
  omega

theorem pass_spared (m : Memory) : Spared m m.pass.1 := by
  refine ⟨m.pass_records, ?_⟩
  simp only [pass]
  split
  · rfl
  split <;> rfl

theorem Trouble.befall_spared (t : Trouble) (m : Memory) : Spared m (t.befall m) := by
  cases t <;> exact ⟨rfl, rfl⟩

/-- A decision that is carried out is a write with its record, or spares the store. -/
theorem apply_cases (m : Memory) (name : String) (d : Except Error Decision) :
    (∃ r, d = .ok (.written r) ∧ m.apply (.text name) d = (m.put name r, .ok r)) ∨
      ∃ m' e, m.apply (.text name) d = (m', .error e) ∧ Spared m m' := by
  match d with
  | .error e => exact Or.inr ⟨m, e, rfl, .refl m⟩
  | .ok .rejected => exact Or.inr ⟨_, _, rfl, rfl, rfl⟩
  | .ok (.written r) => exact Or.inl ⟨r, rfl, rfl⟩

end Memory

namespace Loop

/-- A job whose claim was made of given times. -/
def Job.IsWhole : Job → Prop
  | acquire claim => claim.IsWhole
  | release _ _ _ => True

/-- The record that a job asks for: an acquire asks for one that ends with its claim. -/
def Job.Asks (r : LeaseRecord) : Job → Prop
  | acquire claim => r.lockUntil = claim.atMost
  | release _ _ _ => True

/-- **A job writes what it asks for, or spares the store**, and says which. -/
theorem Job.write_cases {job : Job} (hj : job.IsWhole) (identity : Value) (m : Memory) :
    (∃ r, job.Asks r ∧ job.write identity m = (m.put job.name r, .ok r)) ∨
      ∃ m' e, job.write identity m = (m', .error e) ∧ m.Spared m' := by
  cases job with
  | acquire claim =>
    rcases m.apply_cases claim.name
      (do Decision.forAcquire (← m.lookup (.text claim.name)) (claim.request identity)) with ⟨r, hd, hm⟩ | hno
    · refine Or.inl ⟨r, ?_, hm⟩
      rw [Memory.decision_acquire hj] at hd
      split at hd
      · cases hd
        rfl
      · cases hd
    · exact Or.inr hno
  | release number lease lockUntil =>
    rcases m.apply_cases lease.name
      (do Decision.forRelease (← m.lookup (.text lease.name)) (lease.releaseRequest lockUntil)) with ⟨r, -, hm⟩ | hno
    · exact Or.inl ⟨r, trivial, hm⟩
    · exact Or.inr hno

/-! ## What holds of a visit -/

/-- The store has applied the write of a visit. -/
def Visit.Applied (v : Visit) : Prop := ∃ r, v.place = .ended (some (.ok r))

/-- **What holds of a visit.**  Only one that was not told to end comes to a result; and a call that is over ended as the
store knows it, and its visit has nothing to write any more. -/
structure Visit.Sound (v : Visit) : Prop where
  whole : v.job.IsWhole
  told : v.isTold = true → ∀ r, v.place ≠ .ended (some r)
  stopping : ∀ cause, v.caller = .stopping cause → v.isTold = true
  answer : ∀ r, v.place = .ended (some (.ok r)) → v.job.Asks r
  returned : ∀ ending, v.caller = .returned ending →
    (ending.Wrote ↔ v.Applied) ∧ (v.isTold = true ∨ v.place.result?.isSome = true)

theorem Visit.Sound.not_applied {v : Visit} (hv : v.Sound) (ht : v.isTold = true) : ¬v.Applied := by
  rintro ⟨r, hr⟩
  exact hv.told ht _ hr

/-- A visit has a result only if it is over. -/
theorem Place.eq_ended {p : Place} {result : Option (Except Error LeaseRecord)} (h : p.result? = some result) :
    p = .ended result := by
  cases p with
  | ended r =>
    cases h
    rfl
  | _ => cases h

/-- An acquire tells of a write exactly if it comes to a lease. -/
theorem Ending.acquired_wrote {result : Except Error (Option Lease)} :
    (acquired result).Wrote ↔ ∃ l, result = .ok (some l) := by
  match result with
  | .error e => exact ⟨False.elim, nofun⟩
  | .ok none => exact ⟨False.elim, nofun⟩
  | .ok (some l) => exact ⟨fun _ => ⟨l, rfl⟩, fun _ => trivial⟩

theorem Ending.released_wrote {x : Option ReleaseOutcome} {result : Except Error Unit} :
    (released x result).Wrote ↔ x = some .released := by
  match x with
  | none => exact ⟨False.elim, nofun⟩
  | some .released => exact ⟨fun _ => rfl, fun _ => trivial⟩
  | some .lost => exact ⟨False.elim, nofun⟩
  | some .failed => exact ⟨False.elim, nofun⟩

theorem Job.cutShort_wrote (job : Job) : ¬job.cutShort.Wrote := by
  cases job <;> exact id

/-! ## How a call moves on -/

/-- **How a call moves on**, with what becomes of the gate and of the store meanwhile. -/
inductive Visit.Moves (k : Nat) (v : Visit) (g : Gate) (m : Memory) : Visit → Gate → Memory → Prop where
  /-- It ends where it waits. -/
  | cut (told : v.isTold = true) (going : v.place.result? = none) :
      Moves k v g m (v.goTo (.ended none)) (if v.place.isQueueing then g.retreat k else g) m
  /-- It pauses, it hangs, or it fails with the injected failure. -/
  | troubled (untold : v.isTold = false) (before : v.place.IsBefore) {place : Place}
      (trouble : place = .pausing ∨ place = .hanging ∨ place = .ended (some (.error .injected))) {m' : Memory}
      (spared : m.Spared m') : Moves k v g m (v.goTo place) g m'
  /-- It joins the row at the gate. -/
  | queues (untold : v.isTold = false) (before : v.place.IsBefore) (closed : g.isOpen = false) :
      Moves k v g m (v.goTo .queueing) (g.join k) m
  /-- It goes through the open gate, or was woken there, and writes. -/
  | writes (untold : v.isTold = false) {g' : Gate}
      (way : v.place.IsBefore ∧ g' = g ∨ v.place = .queueing ∧ g' = (g.drop k).shut.leave)
      (identity : Value) :
      Moves k v g m (v.goTo (.ended (some (v.job.write identity m).2))) g' (v.job.write identity m).1
  /-- It is told to end. -/
  | told (going : v.place.result? = none) {caller : Caller}
      (same : caller = v.caller ∨ ∃ cause, caller = .stopping cause) :
      Moves k v g m (v.tell caller) (g.tell k) m
  /-- Its caller is done with it. -/
  | closes {ending : Ending} (honest : ending.Wrote ↔ v.Applied)
      (idle : v.isTold = true ∨ v.place.result?.isSome = true) :
      Moves k v g m (v.close ending) g m

/-- How a call begins: it ends at once, or goes out. -/
inductive Call.Begins : Call → Prop where
  | unsent {ending : Ending} (silent : ¬ending.Wrote) : Begins (.unsent ending)
  | sent {owner : Nat} {job : Job} (whole : job.IsWhole) : Begins (.sent ⟨owner, job, .starting, false, .waiting⟩)

/-- **All that an event can do.** -/
inductive Change (s : Loop) (e : Event) (s' : Loop) : Prop where
  /-- No call takes a step. -/
  | outside (call : e.call? = none) (calls : s'.calls = s.calls) (spared : s.world.store.Spared s'.world.store)
      (gate : s'.gate = s.gate ∨ e = .enter ∧ s'.gate = s.gate.shut ∨ s'.gate = s.gate.leave)
  /-- A call begins. -/
  | begins {k : Nat} (call : e.call? = some k) (unknown : s.calls k = none) {c : Call} (begins : c.Begins)
      (calls : s'.calls = Function.update s.calls k (some c)) (store : s'.world.store = s.world.store)
      (gate : s'.gate = s.gate)
  /-- A call moves on. -/
  | moves {k : Nat} (call : e.call? = some k) {v v' : Visit} (known : s.calls k = some (.sent v))
      (calls : s'.calls = Function.update s.calls k (some (.sent v')))
      (moves : v.Moves k s.gate s.world.store v' s'.gate s'.world.store)

section

variable {s s' : Loop} {k : Nat} {v : Visit}

/-- A step of a call moves the call on. -/
def Steps (k : Nat) (v : Visit) (s s' : Loop) : Prop :=
  ∃ v', s'.calls = Function.update s.calls k (some (.sent v')) ∧
    v.Moves k s.gate s.world.store v' s'.gate s'.world.store

theorem carryOut_steps (ht : v.isTold = false) {g : Gate}
    (way : v.place.IsBefore ∧ g = s.gate ∨ v.place = .queueing ∧ g = (s.gate.drop k).shut.leave) :
    Steps k v s (s.carryOut k v g) :=
  ⟨_, rfl, .writes ht way _⟩

theorem arrive_steps (ht : v.isTold = false) (hb : v.place.IsBefore) : Steps k v s (s.arrive k v) := by
  have hspared := s.world.store.pass_spared
  unfold arrive
  split
  · rename_i m hp
    rw [hp] at hspared
    exact ⟨_, rfl, .troubled ht hb (Or.inr (Or.inl rfl)) hspared⟩
  · rename_i m hp
    rw [hp] at hspared
    exact ⟨_, rfl, .troubled ht hb (Or.inr (Or.inr rfl)) hspared⟩
  · split
    · rename_i hopen
      exact carryOut_steps ht (Or.inl ⟨hb, Gate.leave_shut hopen⟩)
    · rename_i hclosed
      exact ⟨_, rfl, .queues ht hb (Bool.not_eq_true _ ▸ hclosed)⟩

theorem turnOf_steps (h : s.turnOf k v = some s') : Steps k v s s' := by
  unfold turnOf at h
  split at h
  · cases h
  rename_i hgoing
  have hgoing : v.place.result? = none := by simpa using hgoing
  split at h
  · rename_i ht
    cases h
    exact ⟨_, rfl, .cut ht hgoing⟩
  rename_i ht
  have ht : v.isTold = false := by simpa using ht
  unfold goOn at h
  split at h
  · rename_i hp
    cases h
    split
    · exact ⟨_, rfl, .troubled ht (Or.inl hp) (Or.inl rfl) (.refl _)⟩
    · exact arrive_steps ht (Or.inl hp)
  · rename_i hp
    cases h
    exact arrive_steps ht (Or.inr hp)
  · rename_i hp
    split at h
    · cases h
      exact carryOut_steps ht (Or.inr ⟨hp, rfl⟩)
    · cases h
  · cases h
  · cases h

/-- **A call that is settled tells of a write exactly if its outcome is an answer.** -/
theorem settle_steps {o : Outcome LeaseRecord} (ha : ∀ r, o = .answered r → v.job.Asks r)
    (happlied : v.Applied ↔ ∃ r, o = .answered r) (idle : v.isTold = true ∨ v.place.result?.isSome = true) :
    Steps k v s (s.settle k v o) := by
  unfold settle
  cases hj : v.job with
  | acquire claim =>
    have hwrote : (Ending.acquired ((s.locks v.owner).settleAcquire claim o s.world.ledger).2.2).Wrote ↔ v.Applied := by
      rw [Ending.acquired_wrote, happlied]
      constructor
      · rintro ⟨l, hl⟩
        exact (Lock.settleAcquire_lease hl).1
      · rintro ⟨r, rfl⟩
        have hr := ha r rfl
        rw [hj] at hr
        exact ⟨_, Lock.settleAcquire_answered _ claim hr _⟩
    refine ⟨_, congrArg (Function.update · k _) (calls_keep ..), ?_⟩
    simp only [setVisit, setCall, gate_keep, world_keep]
    exact .closes hwrote idle
  | release number lease lockUntil =>
    refine ⟨_, rfl, .closes ?_ idle⟩
    rw [Ending.released_wrote, ReleaseOutcome.of?_released, happlied]

theorem abandon_steps (hno : ¬v.Applied) (idle : v.isTold = true ∨ v.place.result?.isSome = true) :
    Steps k v s (s.abandon k v) :=
  ⟨_, rfl, .closes (iff_of_false v.job.cutShort_wrote hno) idle⟩

theorem close_steps (hv : v.Sound) {result : Option (Except Error LeaseRecord)} (hr : v.place.result? = some result) :
    Steps k v s (s.close k v result) := by
  have hp := Place.eq_ended hr
  have idle : v.isTold = true ∨ v.place.result?.isSome = true := Or.inr (by rw [hr]; rfl)
  match result with
  | none =>
    refine abandon_steps ?_ idle
    rintro ⟨r, hr⟩
    rw [hp] at hr
    cases hr
  | some (.error e) =>
    refine settle_steps nofun (iff_of_false ?_ nofun) idle
    rintro ⟨r, hr⟩
    rw [hp] at hr
    cases hr
  | some (.ok r) =>
    refine settle_steps (fun r' h => ?_) ⟨fun _ => ⟨r, rfl⟩, fun _ => ⟨r, hp⟩⟩ idle
    cases h
    exact hv.answer r hp

theorem interruptOf_steps (hv : v.Sound) {cause : Cause} (h : s.interruptOf k v cause = some s') : Steps k v s s' := by
  unfold interruptOf at h
  split at h
  · rename_i result _ hr
    cases h
    exact close_steps hv hr
  · rename_i hr
    cases h
    exact ⟨_, rfl, .told hr (Or.inr ⟨cause, rfl⟩)⟩
  · rename_i cause' hc
    split at h
    · cases h
      have ht := hv.stopping cause' hc
      exact abandon_steps (hv.not_applied ht) (Or.inl ht)
    · cases h
  · cases h

theorem resumeOf_steps (hv : v.Sound) (h : s.resumeOf k v = some s') : Steps k v s s' := by
  unfold resumeOf at h
  split at h
  · rename_i result _ hr
    cases h
    exact close_steps hv hr
  · rename_i r hc hr
    -- a visit that is told to end does not come to a result
    exact absurd (Place.eq_ended hr) (hv.told (hv.stopping _ hc) r)
  · rename_i hc hr
    cases h
    have ht := hv.stopping _ hc
    exact settle_steps nofun (iff_of_false (hv.not_applied ht) nofun) (Or.inl ht)
  · rename_i hc _
    cases h
    have ht := hv.stopping _ hc
    exact abandon_steps (hv.not_applied ht) (Or.inl ht)
  · cases h

theorem quitOf_steps (h : s.quitOf k v = some s') : Steps k v s s' := by
  unfold quitOf at h
  split at h
  · cases h
  · rename_i hgoing
    cases h
    exact ⟨_, rfl, .told (by simpa using hgoing) (Or.inl rfl)⟩

/-- A step of a call is a step of one that went out. -/
theorem visiting_some {step : Visit → Option Loop} (h : s.visiting k step = some s') :
    ∃ v, s.calls k = some (.sent v) ∧ step v = some s' := by
  unfold visiting at h
  split at h
  · rename_i v hv
    exact ⟨v, hv, h⟩
  · cases h

end

/-! ## What holds of a loop -/

/-- Who waits at the gate, and was told to end. -/
def queued (s : Loop) (k : Nat) : Option Bool := (s.calls k).bind Call.queued

/-- **What holds of a loop**: of every call, and of the gate. -/
structure Sound (s : Loop) : Prop where
  visits : ∀ k v, s.calls k = some (.sent v) → v.Sound
  unsent : ∀ k ending, s.calls k = some (.unsent ending) → ¬ending.Wrote
  gate : s.gate.Orderly s.queued

section

variable {s s' : Loop} {e : Event} {k : Nat} {v v' : Visit} {g g' : Gate} {m m' : Memory}

theorem queued_sent (hk : s.calls k = some (.sent v)) :
    s.queued k = if v.place.isQueueing then some v.isTold else none := by
  unfold queued
  rw [hk]
  rfl

/-- Whoever waits at the gate is a call that went out, and is there. -/
theorem sent_of_queued {told : Bool} (h : s.queued k = some told) :
    ∃ v, s.calls k = some (.sent v) ∧ v.place = .queueing ∧ v.isTold = told := by
  obtain ⟨c, hc, hcq⟩ := Option.bind_eq_some_iff.mp h
  cases c with
  | unsent ending => cases hcq
  | sent v =>
    simp only [Call.queued] at hcq
    split at hcq
    · rename_i hplace
      refine ⟨v, hc, ?_, Option.some.inj hcq⟩
      cases hp : v.place with
      | queueing => rfl
      | _ =>
        rw [hp] at hplace
        cases hplace
    · cases hcq

theorem Fresh.sound (h : s.Fresh) : s.Sound where
  visits k v hk := by
    rw [h.calls k] at hk
    cases hk
  unsent k ending hk := by
    rw [h.calls k] at hk
    cases hk
  gate := by
    rw [h.gate]
    refine Gate.Orderly.clear fun k => ?_
    unfold queued
    rw [h.calls k]
    rfl

theorem tryAcquire_change {owner : Nat} {now : GivenTime} {name : Value} {atMost atLeast : GivenTime}
    (h : s.tryAcquire k owner now name atMost atLeast = some s') :
    Change s (.tryAcquire k owner now name atMost atLeast) s' := by
  unfold tryAcquire at h
  split at h
  · cases h
  rename_i hk
  split at h
  · cases h
    exact .begins rfl hk (.unsent id) rfl rfl rfl
  · rename_i claim hc
    cases h
    obtain ⟨hnow, -, hmost, hleast⟩ := Claim.ofGiven_parts hc
    have hwhole : (Job.acquire claim).IsWhole := ⟨hmost, hleast, GivenTime.truncate_isWhole hnow⟩
    exact .begins rfl hk (.sent hwhole) rfl rfl rfl

theorem release_change {number : Nat} {now : GivenTime} (h : s.release k number now = some s') :
    Change s (.release k number now) s' := by
  unfold release at h
  split at h
  · rename_i holding hk _
    cases h
    unfold releaseOf
    split
    · exact .begins rfl hk (.unsent id) rfl rfl rfl
    split
    · exact .begins rfl hk (.unsent id) rfl rfl rfl
    · exact .begins rfl hk (.sent (show Job.IsWhole (.release _ _ _) from trivial)) rfl rfl rfl
  · cases h

/-- A step of a call is a change. -/
theorem visiting_change {step : Visit → Option Loop} (he : e.call? = some k)
    (hsteps : ∀ v, s.calls k = some (.sent v) → step v = some s' → Steps k v s s') (h : s.visiting k step = some s') :
    Change s e s' := by
  obtain ⟨v, hv, hstep⟩ := visiting_some h
  obtain ⟨v', hcalls, hmoves⟩ := hsteps v hv hstep
  exact .moves he hv hcalls hmoves

/-- **What an event does is a change.** -/
theorem Sound.change (hs : s.Sound) (h : s.next e = some s') : Change s e s' := by
  cases e with
  | trouble t =>
    cases h
    exact .outside rfl rfl (t.befall_spared _) (Or.inl rfl)
  | enter =>
    simp only [next] at h
    split at h
    · cases h
      exact .outside rfl rfl (.refl _) (Or.inr (Or.inl ⟨rfl, rfl⟩))
    · cases h
  | exit =>
    simp only [next] at h
    split at h
    · cases h
      exact .outside rfl rfl (.refl _) (Or.inr (Or.inr rfl))
    · cases h
  | tryAcquire j owner now name atMost atLeast => exact tryAcquire_change h
  | release j number now => exact release_change h
  | turn j => exact visiting_change rfl (fun v _ => turnOf_steps) h
  | interrupt j cause => exact visiting_change rfl (fun v hv => interruptOf_steps (hs.visits j v hv)) h
  | resume j => exact visiting_change rfl (fun v hv => resumeOf_steps (hs.visits j v hv)) h
  | quit j => exact visiting_change rfl (fun v _ => quitOf_steps) h

/-! ## What a move keeps -/

theorem Place.OnTheWay.going {p : Place} (h : p.OnTheWay) : p.result? = none := by
  rcases h with (rfl | rfl) | rfl <;> rfl

theorem Place.IsBefore.going {p : Place} (h : p.IsBefore) : p.result? = none := Place.OnTheWay.going (Or.inl h)

/-- A visit that was not told to end, and is not over, belongs to a call that is not over. -/
theorem Visit.Sound.goTo (hv : v.Sound) (ht : v.isTold = false) (hgoing : v.place.result? = none) {place : Place}
    (hanswer : ∀ r, place = .ended (some (.ok r)) → v.job.Asks r) : (v.goTo place).Sound where
  whole := hv.whole
  told htold := by
    rw [show v.isTold = true from htold] at ht
    cases ht
  stopping := hv.stopping
  answer := hanswer
  returned ending he := by
    rcases (hv.returned ending he).2 with htold | hended
    · rw [htold] at ht
      cases ht
    · rw [hgoing] at hended
      cases hended

/-- **A call that moves on stays sound.** -/
theorem Visit.Moves.sound (hv : v.Sound) (hm : v.Moves k g m v' g' m') : v'.Sound := by
  cases hm with
  | cut told going =>
    refine ⟨hv.whole, fun _ r => nofun, hv.stopping, nofun, fun ending he => ⟨iff_of_false ?_ nofun, Or.inl told⟩⟩
    rw [(hv.returned ending he).1]
    exact hv.not_applied told
  | troubled untold before trouble spared =>
    refine hv.goTo untold before.going fun r hr => ?_
    rcases trouble with rfl | rfl | rfl <;> cases hr
  | queues untold before closed => exact hv.goTo untold before.going nofun
  | writes untold way identity =>
    have hgoing := Place.OnTheWay.going (way.imp And.left And.left)
    refine hv.goTo untold hgoing fun r hr => ?_
    rcases Job.write_cases hv.whole identity m with ⟨r', hasks, hw⟩ | ⟨m', e, hw, -⟩
    · rw [hw] at hr
      cases hr
      exact hasks
    · rw [hw] at hr
      cases hr
  | told going same =>
    refine ⟨hv.whole, fun _ r hr => ?_, fun _ _ => rfl, hv.answer, fun ending he => ?_⟩
    · rw [show v.place = .ended (some r) from hr] at going
      cases going
    · rcases same with rfl | ⟨cause, rfl⟩
      · exact ⟨(hv.returned ending he).1, Or.inl rfl⟩
      · cases he
  | closes honest idle =>
    refine ⟨hv.whole, hv.told, nofun, hv.answer, fun ending he => ?_⟩
    cases he
    exact ⟨honest, idle⟩

/-- **A move spares the store, or writes what the job asks for**, and only then the write of the call is applied. -/
theorem Visit.Moves.store (hv : v.Sound) (hm : v.Moves k g m v' g' m') :
    (m.Spared m' ∧ (v'.Applied ↔ v.Applied)) ∨
      ((∃ r, v.job.Asks r ∧ m' = m.put v.job.name r) ∧ ¬v.Applied ∧ v'.Applied) := by
  have hno : v.place.result? = none → ¬v.Applied := by
    rintro hgoing ⟨r, hr⟩
    rw [hr] at hgoing
    cases hgoing
  cases hm with
  | cut told going => exact Or.inl ⟨.refl _, iff_of_false nofun (hno going)⟩
  | troubled untold before trouble spared =>
    refine Or.inl ⟨spared, iff_of_false ?_ (hno before.going)⟩
    rintro ⟨r, hr⟩
    rcases trouble with rfl | rfl | rfl <;> cases hr
  | queues untold before closed => exact Or.inl ⟨.refl _, iff_of_false nofun (hno before.going)⟩
  | writes untold way identity =>
    have hgoing := Place.OnTheWay.going (way.imp And.left And.left)
    rcases Job.write_cases hv.whole identity m with ⟨r, hasks, hw⟩ | ⟨m', e, hw, hspared⟩
    · rw [hw]
      exact Or.inr ⟨⟨r, hasks, rfl⟩, hno hgoing, ⟨r, rfl⟩⟩
    · rw [hw]
      exact Or.inl ⟨hspared, iff_of_false nofun (hno hgoing)⟩
  | told going same => exact Or.inl ⟨.refl _, Iff.rfl⟩
  | closes honest idle => exact Or.inl ⟨.refl _, Iff.rfl⟩

/-- **A move keeps order at the gate.** -/
theorem Visit.Moves.gate {queued : Nat → Option Bool} (hg : g.Orderly queued) (hq : queued k = (Call.sent v).queued)
    (hm : v.Moves k g m v' g' m') : g'.Orderly (Function.update queued k (Call.sent v').queued) := by
  have hbefore : v.place.IsBefore → queued k = none := by
    intro hb
    rw [hq]
    rcases hb with hp | hp <;> simp only [Call.queued, hp, Place.isQueueing, Bool.false_eq_true, if_false]
  cases hm with
  | cut told going =>
    have hnone : (Call.sent (v.goTo (.ended none))).queued = none := rfl
    rw [hnone]
    split
    · exact hg.retreat k
    · rename_i hp
      exact hg.same (by rw [hq]; simp only [Call.queued, hp, Bool.false_eq_true, if_false])
  | troubled untold before trouble spared =>
    refine hg.same ?_
    rw [hbefore before]
    rcases trouble with rfl | rfl | rfl <;> rfl
  | queues untold before closed =>
    have hsome : (Call.sent (v.goTo .queueing)).queued = some false := congrArg some untold
    rw [hsome]
    exact hg.join (hbefore before) closed
  | writes untold way identity =>
    have hnone : (Call.sent (v.goTo (.ended (some (v.job.write identity m).2)))).queued = none := rfl
    rcases way with ⟨before, rfl⟩ | ⟨-, rfl⟩
    · exact hg.same (hbefore before)
    · rw [hnone]
      exact .leave (hg.row.drop k)
  | @told going caller same =>
    have htell : (Call.sent (v.tell caller)).queued = (queued k).map fun _ => true := by
      rw [hq]
      show (if v.place.isQueueing then some true else none) = (if v.place.isQueueing then some v.isTold else none).map _
      split <;> rfl
    rw [htell]
    exact hg.tell k
  | closes honest idle => exact hg.same hq

/-! ## What an event keeps -/

/-- A call that changed is the only one at the gate that did. -/
theorem queued_update {c : Call} (hcalls : s'.calls = Function.update s.calls k (some c)) :
    s'.queued = Function.update s.queued k c.queued := by
  funext n
  unfold queued
  rw [hcalls]
  by_cases hn : n = k
  · rw [hn, Function.update_self, Function.update_self]
    rfl
  · rw [Function.update_of_ne hn, Function.update_of_ne hn]

/-- After a call changed, every call is this one or is as it was. -/
theorem calls_cases {c c' : Call} {n : Nat} (hcalls : s'.calls = Function.update s.calls k (some c))
    (hn : s'.calls n = some c') : n = k ∧ c' = c ∨ n ≠ k ∧ s.calls n = some c' := by
  rw [hcalls] at hn
  by_cases hnk : n = k
  · rw [hnk, Function.update_self] at hn
    cases hn
    exact Or.inl ⟨hnk, rfl⟩
  · rw [Function.update_of_ne hnk] at hn
    exact Or.inr ⟨hnk, hn⟩

/-- **Every event keeps what holds of a loop.** -/
theorem Sound.next (hs : s.Sound) (h : s.next e = some s') : s'.Sound := by
  cases hs.change h with
  | outside call calls spared gate =>
    have hqueued : s'.queued = s.queued := by
      funext n
      unfold queued
      rw [calls]
    refine ⟨by rw [calls]; exact hs.visits, by rw [calls]; exact hs.unsent, ?_⟩
    rw [hqueued]
    rcases gate with hg | ⟨-, hg⟩ | hg <;> rw [hg]
    · exact hs.gate
    · exact hs.gate.shut
    · exact .leave hs.gate.row
  | begins call unknown begins calls store gate =>
    refine ⟨fun n v hn => ?_, fun n ending hn => ?_, ?_⟩
    · rcases calls_cases calls hn with ⟨-, rfl⟩ | ⟨-, hn⟩
      · cases begins with
        | sent whole => exact ⟨whole, nofun, nofun, nofun, nofun⟩
      · exact hs.visits n v hn
    · rcases calls_cases calls hn with ⟨-, rfl⟩ | ⟨-, hn⟩
      · cases begins with
        | unsent silent => exact silent
      · exact hs.unsent n ending hn
    · rw [gate, queued_update calls]
      refine hs.gate.same ?_
      unfold queued
      rw [unknown]
      cases begins <;> rfl
  | moves call known calls moves =>
    refine ⟨fun n w hn => ?_, fun n ending hn => ?_, ?_⟩
    · rcases calls_cases calls hn with ⟨-, hw⟩ | ⟨-, hn⟩
      · cases hw
        exact moves.sound (hs.visits _ _ known)
      · exact hs.visits n w hn
    · rcases calls_cases calls hn with ⟨-, hw⟩ | ⟨-, hn⟩
      · cases hw
      · exact hs.unsent n ending hn
    · rw [queued_update calls]
      exact moves.gate hs.gate (queued_sent known)

theorem Sound.run {es : List Event} (hs : s.Sound) (h : s.run es = some s') : s'.Sound := by
  induction es generalizing s with
  | nil =>
    cases h
    exact hs
  | cons e es ih =>
    obtain ⟨s₁, hn, hr⟩ := Option.bind_eq_some_iff.mp h
    exact ih (hs.next hn) hr

end

end Loop
end Leasehold
