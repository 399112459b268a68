/-
  A fleet that runs a task under a lock does what a scene does.

  What a fleet runs is a fiber, and others may go on wherever it waits.  Left ALONE, a fiber that waits for its turn, for a
  program or for the time goes on at once.  Then a call of a lock is made with nothing else happening meanwhile, and the fleet
  shows the scene of the lock: its world, with what the clock called `main` shows, the lock, and the lock's clock.

  1. **`Fiber.alone`, `Evaluation.alone`** — what a fiber comes to, and how that goes along what follows it;
  2. **`Fleet.acquire_alone`, `Fleet.release_alone`** — acquiring under terms and releasing do to the scene what they do there;
  3. **`Fleet.guarded_alone`** — hence so does the whole run, for every task that does to the scene what the scene's task
     does.
-/
import Leasehold.Fleet.Act
import Leasehold.Proofs.Execution
namespace Leasehold

/-! ## Fibers left alone -/

namespace Fiber

variable {σ ω β α γ : Type}

/-- **What a fiber comes to if nobody else goes on**, unless it waits for ever, or hands work over. -/
def alone : Fiber σ ω β α → σ → Option (α × σ)
  | done a, s => some (a, s)
  | look rest, s => alone (rest s) s
  | put s rest, _ => alone rest s
  | wait .ever _, _ => none
  | wait _ rest, s => alone (rest .due) s
  | beside _ _, _ => none
  | watch _ _, _ => none

theorem alone_bind (x : Fiber σ ω β α) (k : α → Fiber σ ω β γ) (s : σ) :
    (x >>= k).alone s = (x.alone s).bind fun p => (k p.1).alone p.2 := by
  show (bind x k).alone s = _
  induction x generalizing s with
  | done a => rfl
  | look rest ih => exact ih s s
  | put t rest ih => exact ih t
  | wait w rest ih =>
    cases w with
    | ever => rfl
    | turn => exact ih .due s
    | program => exact ih .due s
    | time _ => exact ih .due s
  | beside orders rest => rfl
  | watch order rest => rfl

theorem alone_bind_of {x : Fiber σ ω β α} {s t : σ} {a : α} (h : x.alone s = some (a, t)) (k : α → Fiber σ ω β γ) :
    (x >>= k).alone s = (k a).alone t := by
  rw [alone_bind, h, Option.bind_some]

theorem alone_turns (n : Nat) (s : σ) : (turns n : Fiber σ ω β Unit).alone s = some ((), s) := by
  induction n with
  | zero => rfl
  | succ n ih => exact ih

end Fiber

/-- Fibers that keep something, left alone. -/
def Evaluation.alone (τ σ ω β : Type) : Evaluation (StateT τ (Fiber σ ω β)) (τ × σ) where
  eval x s := ((x.run s.1).alone s.2).map fun p => (p.1.1, p.1.2, p.2)
  eval_pure _ _ := rfl
  eval_bind x k s := by
    rw [StateT.run_bind, Fiber.alone_bind]
    cases (x.run s.1).alone s.2 <;> rfl

theorem Evaluation.alone_lift {τ σ ω β α : Type} {x : Fiber σ ω β α} {s s' : σ} {a : α} (h : x.alone s = some (a, s'))
    (t : τ) : (Evaluation.alone τ σ ω β).eval (StateT.lift x) (t, s) = some (a, t, s') := by
  show (((x >>= fun a => Pure.pure (a, t)).alone s).map fun p => (p.1.1, p.1.2, p.2)) = _
  rw [Fiber.alone_bind_of h]
  rfl

namespace Fleet

variable {ω β τ : Type}

/-! ## The scene of a lock -/

/-- A call on the store of a fleet: its node is told first what the clock called `main` shows. -/
def clockedCall {α : Type} (call : World Backend → World Backend × α) (w : World (Backend × GivenTime)) :
    World (Backend × GivenTime) × α :=
  let (after, a) := call ⟨w.store.1.atTime w.store.2, w.ledger⟩
  (⟨(after.store, w.store.2), after.ledger⟩, a)

/-- The store of a fleet, with what the clock called `main` shows. -/
def clockedStore : LeaseStore (Backend × GivenTime) where
  tryUpdate r := clockedCall (Backend.store.tryUpdate r)
  update r := clockedCall (Backend.store.update r)
  get name := clockedCall (Backend.store.get name)
  createTable arguments := clockedCall (Backend.store.createTable arguments)
  close w := (clockedCall (fun w => (Backend.store.close w, ())) w).1

/-- **The scene of a lock** in a fleet. -/
def sceneOf (m : Member) (f : Fleet) : Scene (Backend × GivenTime) :=
  ⟨⟨(f.world.store, f.now), f.world.ledger⟩, m.lock, f.nowFor m.clock⟩

/-- A fleet shows a scene of the lock of a number, which goes by the identity and the clock that it was made with. -/
def Shows (owner : Nat) (member : Member) (f : Fleet) (s : Scene (Backend × GivenTime)) : Prop :=
  ∃ m, f.members.get? owner = some m ∧ m.clock = member.clock ∧ m.lock.identity = member.lock.identity ∧ f.sceneOf m = s

/-- Besides it has a lease of this lock under a number. -/
def ShowsLease (owner : Nat) (member : Member) (number : Nat) (f : Fleet) (l : Lease)
    (s : Scene (Backend × GivenTime)) : Prop :=
  f.Shows owner member s ∧ f.holdings.get? number = some ⟨l, owner⟩

/-- **A call of a lock** left alone has the outcome that the store gives at once. -/
theorem callWithin_alone {α : Type} (timeout : Value) (work : World Backend → World Backend × Outcome α) (f : Fleet) :
    (callWithin timeout work : Fiber Fleet ω β (Option (Outcome α))).alone f =
      some (some (f.useStore work).2, (f.useStore work).1) := by
  have hcall : (call work : Fiber Fleet ω β (Outcome α)).alone f = some ((f.useStore work).2, (f.useStore work).1) := by
    have hwork : (Fiber.act (·.useStore work) : Fiber Fleet ω β (Outcome α)).alone f =
      some ((f.useStore work).2, (f.useStore work).1) := rfl
    have hsee : (Fiber.see fun f : Fleet => f.world.store.distance : Fiber Fleet ω β Nat).alone f =
      some (f.world.store.distance, f) := rfl
    rw [call, Fiber.alone_bind_of hsee, Fiber.alone_bind_of (Fiber.alone_turns _ f), Fiber.alone_bind_of hwork,
      Fiber.alone_bind_of (Fiber.alone_turns _ _)]
    rfl
  rw [callWithin, Fiber.alone_bind_of (Fiber.alone_turns 1 f), Fiber.alone_bind_of hcall]
  cases (f.useStore work).2 <;> rfl

/-! ## Acquiring and releasing -/

section

variable {owner : Nat} {member : Member} {f : Fleet} {s : Scene (Backend × GivenTime)}

/-- A lock that was put in the place of its number is there. -/
theorem get_set_member {m : Member} (hm : f.members.get? owner = some m) (lock : Lock) :
    (f.members.set owner { m with lock }).get? owner = some { m with lock } := by
  refine Pool.get_set _ _ ?_
  by_contra hlt
  rw [Pool.get?, List.getElem?_eq_none (Nat.not_lt.mp hlt)] at hm
  cases hm

/-- The verdict on an acquire is the lock's, and a lease that it gives out is there under a number. -/
theorem settleAcquire_shows {m : Member} (hm : f.members.get? owner = some m) (hclock : m.clock = member.clock)
    (hid : m.lock.identity = member.lock.identity) (claim : Claim) (o : Outcome LeaseRecord) :
    Guarded.AcquiredAlike (Shows owner member) (ShowsLease owner member) (f.settleAcquire owner claim o).2
      (f.settleAcquire owner claim o).1 (m.lock.settleAcquire claim o f.world.ledger).2.2
      ⟨⟨(f.world.store, f.now), (m.lock.settleAcquire claim o f.world.ledger).2.1⟩,
        (m.lock.settleAcquire claim o f.world.ledger).1, f.nowFor m.clock⟩ := by
  have hid' := (m.lock.settleAcquire_identity claim o f.world.ledger).trans hid
  have hset := get_set_member hm (m.lock.settleAcquire claim o f.world.ledger).1
  simp only [settleAcquire, hm]
  generalize m.lock.settleAcquire claim o f.world.ledger = verdict at hid' hset ⊢
  obtain ⟨lock, ledger, result⟩ := verdict
  match result with
  | .error e => exact ⟨rfl, _, hset, hclock, hid', rfl⟩
  | .ok none => exact ⟨_, hset, hclock, hid', rfl⟩
  | .ok (some l) => exact ⟨⟨_, hset, hclock, hid', rfl⟩, Pool.get_add _ _⟩

/-- **Acquiring under terms**, left alone, does to the scene what it does there. -/
theorem acquire_alone (terms : Terms) (task : SceneTask (Backend × GivenTime)) (h : f.Shows owner member s) :
    ∃ r f', (acquireUnder owner member terms : Fiber Fleet ω β _).alone f = some (r, f') ∧
      Guarded.AcquiredAlike (Shows owner member) (ShowsLease owner member) r f'
        ((Scene.guarded clockedStore terms task).acquire s).1 ((Scene.guarded clockedStore terms task).acquire s).2 := by
  obtain ⟨m, hm, hclock, hid, rfl⟩ := h
  have hsee : (Fiber.see fun f => Claim.ofTerms terms (f.nowFor member.clock) : Fiber Fleet ω β _).alone f =
    some (Claim.ofTerms terms (f.nowFor member.clock), f) := rfl
  have hreading : (f.sceneOf m).clock = f.nowFor member.clock := congrArg f.nowFor hclock
  rw [acquireUnder, Fiber.alone_bind_of hsee]
  simp only [Scene.guarded, hreading]
  cases Claim.ofTerms terms (f.nowFor member.clock) with
  | error e => exact ⟨_, f, rfl, rfl, m, hm, hclock, hid, rfl⟩
  | ok claim =>
    simp only
    rw [acquire, Fiber.alone_bind_of (callWithin_alone _ _ f), ← hid]
    exact ⟨_, _, rfl, settleAcquire_shows (f := (f.useStore _).1) hm hclock hid claim _⟩

/-- The verdict on a release is the lock's. -/
theorem settleRelease_shows {m : Member} (hm : f.members.get? owner = some m) (hclock : m.clock = member.clock)
    (hid : m.lock.identity = member.lock.identity) {n : Nat} {l : Lease} (hn : f.holdings.get? n = some ⟨l, owner⟩)
    (u : Instant) (o : Outcome LeaseRecord) :
    (f.settleRelease n u o).2 = (m.lock.settleRelease l u o f.world.ledger).2.2.2 ∧
      (f.settleRelease n u o).1.Shows owner member
        ⟨⟨(f.world.store, f.now), (m.lock.settleRelease l u o f.world.ledger).2.2.1⟩,
          (m.lock.settleRelease l u o f.world.ledger).1, f.nowFor m.clock⟩ := by
  have hid' := (m.lock.settleRelease_identity l u o f.world.ledger).trans hid
  have hset := get_set_member hm (m.lock.settleRelease l u o f.world.ledger).1
  simp only [settleRelease, hn, hm]
  exact ⟨trivial, _, hset, hclock, hid', rfl⟩

/-- **Releasing**, left alone, does to the scene what it does there. -/
theorem release_alone {n : Nat} {l : Lease} (terms : Terms) (task : SceneTask (Backend × GivenTime))
    (h : f.ShowsLease owner member n l s) :
    ∃ f', (release n : Fiber Fleet ω β _).alone f = some (((Scene.guarded clockedStore terms task).release l s).1, f') ∧
      f'.Shows owner member ((Scene.guarded clockedStore terms task).release l s).2 := by
  obtain ⟨⟨m, hm, hclock, hid, rfl⟩, hn⟩ := h
  have hact : (Fiber.act (·.beginRelease n) : Fiber Fleet ω β _).alone f = some ((f.beginRelease n).2, (f.beginRelease n).1) :=
    rfl
  rw [release, Fiber.alone_bind_of hact]
  simp only [Scene.guarded, Scene.afterRelease, Lock.release, beginRelease, hn, hm]
  by_cases hdone : l.released = true
  · simp only [hdone, if_true]
    exact ⟨_, rfl, m, hm, hclock, hid, rfl⟩
  simp only [hdone, Bool.false_eq_true, if_false]
  have hreading : (f.sceneOf m).clock = f.nowFor m.clock := rfl
  rw [hreading]
  cases (f.nowFor m.clock).truncate with
  | error e => exact ⟨_, rfl, m, hm, hclock, hid, rfl⟩
  | ok now =>
    simp only
    rw [Fiber.alone_bind_of (callWithin_alone _ _ f)]
    obtain ⟨hresult, hshows⟩ := settleRelease_shows (f := (f.useStore _).1) hm hclock hid hn (l.releaseUntil now) _
    exact ⟨_, congrArg (fun r => some (r, _)) hresult, hshows⟩

end

/-! ## Runs -/

/-- **A fleet that is left alone runs a task under a lock as a scene does**, if its task does to the scene what the scene's
does.  So whatever holds of a run in a scene (`Scene.execute_loses_nothing`) holds of it. -/
theorem guarded_alone {owner : Nat} {member : Member} (terms : Terms)
    (task : StateT τ (Fiber Fleet ω β) (Except Error Value)) (sceneTask : SceneTask (Backend × GivenTime))
    (htask : ∀ (n : Nat) (l : Lease) (x : τ × Fleet) (s : Scene (Backend × GivenTime)),
      x.2.ShowsLease owner member n l s → (Evaluation.alone τ Fleet ω β).Alike (.ofState _) task x sceneTask s
        fun r y r' t => r = r' ∧ y.2.ShowsLease owner member n l t)
    {f : Fleet} (hm : f.members.get? owner = some member) (kept : τ) :
    ∃ kept' f', (Evaluation.alone τ Fleet ω β).eval ((guarded owner member terms task).run terms.name) (kept, f) =
        some (((f.sceneOf member).execute clockedStore terms sceneTask).1, kept', f') ∧
      f'.Shows owner member ((f.sceneOf member).execute clockedStore terms sceneTask).2 := by
  have halike : (Evaluation.alone τ Fleet ω β).Alike (.ofState _) ((guarded owner member terms task).run terms.name)
      (kept, f) ((Scene.guarded clockedStore terms sceneTask).run terms.name) (f.sceneOf member)
      fun r y r' t => r = r' ∧ y.2.Shows owner member t := by
    refine Guarded.run_alike (R := fun (x : τ × Fleet) (s : Scene (Backend × GivenTime)) => x.2.Shows owner member s)
      (H := fun (n : Nat) (x : τ × Fleet) (l : Lease) (s : Scene (Backend × GivenTime)) =>
        x.2.ShowsLease owner member n l s) ?_ ?_ ?_ ?_ _ ⟨member, hm, rfl, rfl, rfl⟩
    · rintro ⟨t, f⟩ s h
      obtain ⟨r, f', heval, halike⟩ := acquire_alone (ω := ω) (β := β) terms sceneTask h
      exact ⟨_, _, _, _, Evaluation.alone_lift heval t, rfl, halike.imp id fun _ _ => id⟩
    · exact fun n x l s h => htask n l x s h
    · rintro n ⟨t, f⟩ l s h
      obtain ⟨f', heval, hshows⟩ := release_alone (ω := ω) (β := β) terms sceneTask h
      exact ⟨_, _, _, _, Evaluation.alone_lift heval t, rfl, rfl, hshows⟩
    · rintro level text ⟨t, f⟩ _ ⟨m, hm, hclock, hid, rfl⟩
      have hnote : (Fiber.act fun f => (Fleet.note level text f, ()) : Fiber Fleet ω β Unit).alone f =
        some ((), f.note level text) := rfl
      exact ⟨_, _, _, _, Evaluation.alone_lift hnote t, rfl, m, hm, hclock, hid, rfl⟩
  obtain ⟨r, ⟨kept', f'⟩, r', t', heval, hscene, rfl, hshows⟩ := halike
  have hscene : (f.sceneOf member).execute clockedStore terms sceneTask = (r, t') := Option.some.inj hscene
  rw [hscene]
  exact ⟨kept', f', heval, hshows⟩

/-- A task that ends at once is the same in a fleet and in a scene. -/
example {f : Fleet} {owner : Nat} {member : Member} (hm : f.members.get? owner = some member) (terms : Terms)
    (ending : Except Error Value) (kept : τ) :
    ∃ kept' f', (Evaluation.alone τ Fleet ω β).eval ((guarded owner member terms (pure ending)).run terms.name) (kept, f) =
        some (((f.sceneOf member).execute clockedStore terms fun s => (ending, s)).1, kept', f') ∧
      f'.Shows owner member ((f.sceneOf member).execute clockedStore terms fun s => (ending, s)).2 :=
  guarded_alone terms (pure ending) _ (fun _ _ _ _ h => ⟨_, _, _, _, rfl, rfl, rfl, h⟩) hm kept

end Fleet
end Leasehold
