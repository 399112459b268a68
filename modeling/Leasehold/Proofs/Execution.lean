/-
  Running a task under a lock loses no outcome.

  `Guarded.run` is the algorithm: acquire, run the task, give the lease back, and decide what the caller sees.  Here it runs in
  a SCENE, a world with one lock and its clock, over any store that keeps its contract.  The task may do whatever it
  likes to the scene: use the store, move the clock, change the statistics.

  What is done is told by a TAPE.  A store on tape (`LeaseStore.taped`) notes the writes that it is asked for, a task on tape
  notes that it began and how it ended, and the task itself cannot reach the tape.

  1. **`Evaluation`** — what the actions of a monad come to.  Actions whose ends are alike are followed by alike ends
     (`Evaluation.Alike.bind`);
  2. **`Guarded.run_guarded`, `Guarded.run_alike`** — what the caller sees of a task and of the release after it
     (`Guarded.verdict`), and that runs whose steps come to the same come to the same;
  3. **`Scene.execute`, `Scene.deeds`** — the run in a scene, and its tape.  The tape changes nothing (`execute_untaped`);
  4. **`Scene.execute_refused`, `Scene.execute_guarded`** — what is done, and in which order, without a lease and with one;
  5. **`Scene.execute_loses_nothing`** — that, and what the caller sees, told by how the acquire, the task and the release
     came out.
-/
import Leasehold.Lock.Execution
import Leasehold.Proofs.Verdicts
namespace Leasehold

/-! ## Evaluating actions -/

/-- **A way to evaluate the actions of a monad** from states `σ`: what they come to, if they come to an end. -/
structure Evaluation (m : Type → Type) [Monad m] (σ : Type) where
  eval : ∀ {α : Type}, m α → σ → Option (α × σ)
  eval_pure : ∀ {α : Type} (a : α) (s : σ), eval (pure a) s = some (a, s)
  eval_bind : ∀ {α β : Type} (x : m α) (k : α → m β) (s : σ),
    eval (x >>= k) s = (eval x s).bind fun p => eval (k p.1) p.2

/-- Functions on states come to an end. -/
def Evaluation.ofState (σ : Type) : Evaluation (StateM σ) σ where
  eval x s := some (x s)
  eval_pure _ _ := rfl
  eval_bind _ _ _ := rfl

namespace Evaluation

variable {m m' : Type → Type} [Monad m] [Monad m'] {σ σ' α α' β β' : Type} (E : Evaluation m σ)
  (E' : Evaluation m' σ')

theorem eval_bind_of {x : m α} {s t : σ} {a : α} (h : E.eval x s = some (a, t)) (k : α → m β) :
    E.eval (x >>= k) s = E.eval (k a) t := by
  rw [E.eval_bind, h, Option.bind_some]

/-- **Two actions come to ends that are alike.** -/
def Alike (x : m α) (s : σ) (x' : m' α') (s' : σ') (P : α → σ → α' → σ' → Prop) : Prop :=
  ∃ a t a' t', E.eval x s = some (a, t) ∧ E'.eval x' s' = some (a', t') ∧ P a t a' t'

variable {E E'} {x : m α} {x' : m' α'} {s : σ} {s' : σ'}

theorem Alike.pure {P : α → σ → α' → σ' → Prop} {a : α} {a' : α'} (h : P a s a' s') :
    E.Alike E' (pure a : m α) s (pure a' : m' α') s' P :=
  ⟨a, s, a', s', E.eval_pure a s, E'.eval_pure a' s', h⟩

/-- What follows alike from alike ends comes to alike ends. -/
theorem Alike.bind {P : α → σ → α' → σ' → Prop} {Q : β → σ → β' → σ' → Prop} (h : E.Alike E' x s x' s' P) {k : α → m β}
    {k' : α' → m' β'} (hk : ∀ a t a' t', P a t a' t' → E.Alike E' (k a) t (k' a') t' Q) :
    E.Alike E' (x >>= k) s (x' >>= k') s' Q := by
  obtain ⟨a, t, a', t', hx, hx', hP⟩ := h
  obtain ⟨b, u, b', u', hb, hb', hQ⟩ := hk a t a' t' hP
  refine ⟨b, u, b', u', ?_, ?_, hQ⟩
  · rw [E.eval_bind_of hx, hb]
  · rw [E'.eval_bind_of hx', hb']

end Evaluation

/-! ## Runs under a lock -/

namespace Guarded

variable {m m' : Type → Type} [Monad m] [Monad m'] {σ σ' L L' : Type}

/-- **What the caller sees** of a task that was run, and of giving the lease back. -/
def verdict : Except Error Value → Except Error Unit → Except Error (Option Value)
  | .ok v, .ok () => .ok (some v)
  | .ok _, .error e => .error e
  | .error failure, .ok () => .error failure
  | .error failure, .error e => if e.isA .release then .error failure else .error e

section

variable (E : Evaluation m σ) (g : Guarded m L) {s s₁ s₂ s₃ : σ}

/-- A state that may have been noted about. -/
def Noted (s s' : σ) : Prop := s' = s ∨ ∃ level text, E.eval (g.note level text) s = some ((), s')

/-- Noting something comes to an end. -/
def Notes : Prop := ∀ level text s, ∃ s', E.eval (g.note level text) s = some ((), s')

variable {E g}

theorem run_rejected {e : Error} (h : E.eval g.acquire s = some (.error e, s₁)) (name : String) :
    E.eval (g.run name) s = some (.error e, s₁) := by
  rw [run, E.eval_bind_of h]
  exact E.eval_pure _ _

/-- Without a lease nothing is run, and nothing is given back. -/
theorem run_refused (hn : Notes E g) (h : E.eval g.acquire s = some (.ok none, s₁)) (name : String) :
    ∃ s', E.eval (g.run name) s = some (.ok none, s') ∧ Noted E g s₁ s' := by
  obtain ⟨s', hs'⟩ := hn .info ("Not executing '" ++ name ++ "', lock not acquired") s₁
  refine ⟨s', ?_, .inr ⟨_, _, hs'⟩⟩
  rw [run, E.eval_bind_of h]
  simp only [E.eval_bind_of hs']
  exact E.eval_pure _ _

/-- **With a lease the task runs, and then the lease is given back.** -/
theorem run_guarded (hn : Notes E g) {lease : L} {ending : Except Error Value} {back : Except Error Unit}
    (ha : E.eval g.acquire s = some (.ok (some lease), s₁)) (ht : E.eval g.task s₁ = some (ending, s₂))
    (hr : E.eval (g.release lease) s₂ = some (back, s₃)) (name : String) :
    ∃ s', E.eval (g.run name) s = some (verdict ending back, s') ∧ Noted E g s₃ s' := by
  rw [run, E.eval_bind_of ha]
  simp only [E.eval_bind_of ht]
  cases ending with
  | ok v =>
    simp only [E.eval_bind_of hr]
    cases back <;> exact ⟨s₃, E.eval_pure _ _, .inl rfl⟩
  | error failure =>
    simp only [afterFailure, E.eval_bind_of hr]
    cases back with
    | ok _ => exact ⟨s₃, E.eval_pure _ _, .inl rfl⟩
    | error e =>
      simp only [verdict]
      by_cases he : e.isA .release = true
      · obtain ⟨s', hs'⟩ := hn .error ("Release after failed task '" ++ name ++ "' failed: " ++ e.message) s₃
        simp only [he, if_true, E.eval_bind_of hs']
        exact ⟨s', E.eval_pure _ _, .inr ⟨_, _, hs'⟩⟩
      · simp only [he, Bool.false_eq_true, if_false]
        exact ⟨s₃, E.eval_pure _ _, .inl rfl⟩

end

/-- Two acquires came to the same, with leases that are alike if there are any. -/
def AcquiredAlike (R : σ → σ' → Prop) (H : L → σ → L' → σ' → Prop) :
    Except Error (Option L) → σ → Except Error (Option L') → σ' → Prop
  | .error e, s, .error e', s' => e = e' ∧ R s s'
  | .ok none, s, .ok none, s' => R s s'
  | .ok (some l), s, .ok (some l'), s' => H l s l' s'
  | _, _, _, _ => False

theorem AcquiredAlike.refl {R : σ → σ' → Prop} {H : L → σ → L → σ' → Prop} {s : σ} {s' : σ'} (hR : R s s')
    (hH : ∀ l, H l s l s') (r : Except Error (Option L)) : AcquiredAlike R H r s r s' :=
  match r with
  | .error _ => ⟨rfl, hR⟩
  | .ok none => hR
  | .ok (some l) => hH l

theorem AcquiredAlike.imp {τ τ' : Type} {R : σ → σ' → Prop} {H : L → σ → L' → σ' → Prop} {P : τ → τ' → Prop}
    {K : L → τ → L' → τ' → Prop} {s : σ} {s' : σ'} {t : τ} {t' : τ'} {r : Except Error (Option L)}
    {r' : Except Error (Option L')} (h : AcquiredAlike R H r s r' s') (hR : R s s' → P t t')
    (hH : ∀ l l', H l s l' s' → K l t l' t') : AcquiredAlike P K r t r' t' :=
  match r, r', h with
  | .error _, .error _, ⟨he, hs⟩ => ⟨he, hR hs⟩
  | .ok none, .ok none, hs => hR hs
  | .ok (some l), .ok (some l'), hl => hH l l' hl

/-- **Two runs whose steps come to the same come to the same.** -/
theorem run_alike {E : Evaluation m σ} {E' : Evaluation m' σ'} {g : Guarded m L} {g' : Guarded m' L'} {R : σ → σ' → Prop}
    {H : L → σ → L' → σ' → Prop}
    (ha : ∀ s s', R s s' → E.Alike E' g.acquire s g'.acquire s' (AcquiredAlike R H))
    (ht : ∀ l s l' s', H l s l' s' → E.Alike E' g.task s g'.task s' fun r t r' t' => r = r' ∧ H l t l' t')
    (hr : ∀ l s l' s', H l s l' s' →
      E.Alike E' (g.release l) s (g'.release l') s' fun r t r' t' => r = r' ∧ R t t')
    (hn : ∀ level text s s', R s s' → E.Alike E' (g.note level text) s (g'.note level text) s' fun _ t _ t' => R t t')
    (name : String) {s : σ} {s' : σ'} (h : R s s') :
    E.Alike E' (g.run name) s (g'.run name) s' fun r t r' t' => r = r' ∧ R t t' := by
  refine (ha s s' h).bind fun a t a' t' hacquired => ?_
  match a, a', hacquired with
  | .error e, .error e', ⟨he, ht'⟩ => exact .pure ⟨congrArg Except.error he, ht'⟩
  | .ok none, .ok none, ht' => exact (hn _ _ t t' ht').bind fun _ _ _ _ hu => .pure ⟨rfl, hu⟩
  | .ok (some l), .ok (some l'), hl =>
    refine (ht l t l' t' hl).bind fun r u r' u' hended => ?_
    obtain ⟨rfl, hu⟩ := hended
    match r with
    | .ok v =>
      refine (hr l u l' u' hu).bind fun b w b' w' hback => ?_
      obtain ⟨rfl, hw⟩ := hback
      match b with
      | .ok () => exact .pure ⟨rfl, hw⟩
      | .error e => exact .pure ⟨rfl, hw⟩
    | .error failure =>
      refine (hr l u l' u' hu).bind fun b w b' w' hback => ?_
      obtain ⟨rfl, hw⟩ := hback
      match b with
      | .ok () => exact .pure ⟨rfl, hw⟩
      | .error e =>
        show E.Alike E' (if e.isA .release then _ else _) w (if e.isA .release then _ else _) w' _
        by_cases he : e.isA .release = true
        · rw [if_pos he, if_pos he]
          exact (hn _ _ w w' hw).bind fun _ _ _ _ hu => .pure ⟨rfl, hu⟩
        · rw [if_neg he, if_neg he]
          exact .pure ⟨rfl, hw⟩

end Guarded

/-! ## Scenes -/

/-- **A scene**: a world with a lock in it, and what the clock of the lock shows. -/
structure Scene (σ : Type) where
  world : World σ
  lock : Lock
  clock : GivenTime

/-- A task: it does something to the scene, and ends with a value or a failure. -/
abbrev SceneTask (σ : Type) := StateM (Scene σ) (Except Error Value)

namespace Scene

variable {σ : Type}

/-- The scene once the lock has come to a verdict on a claim. -/
def afterAcquire (S : LeaseStore σ) (claim : Claim) (s : Scene σ) : Scene σ :=
  { s with world := (s.lock.tryAcquire S claim s.world).1, lock := (s.lock.tryAcquire S claim s.world).2.1 }

/-- The scene once the lock has come to a verdict on a release. -/
def afterRelease (S : LeaseStore σ) (lease : Lease) (s : Scene σ) : Scene σ :=
  { s with
    world := (s.lock.release S lease s.clock s.world).1
    lock := (s.lock.release S lease s.clock s.world).2.1 }

/-- **A task under the lock of a scene.** -/
def guarded (S : LeaseStore σ) (terms : Terms) (task : SceneTask σ) : Guarded (StateM (Scene σ)) Lease where
  acquire s := match Claim.ofTerms terms s.clock with
    | .error e => (.error e, s)
    | .ok claim => ((s.lock.tryAcquire S claim s.world).2.2, s.afterAcquire S claim)
  task := task
  release lease s := ((s.lock.release S lease s.clock s.world).2.2.2, s.afterRelease S lease)
  note level text s := ((), { s with world := s.world.note level text })

/-- **Runs a task under the lock**: what the caller sees, and the scene afterwards. -/
def execute (S : LeaseStore σ) (terms : Terms) (task : SceneTask σ) (s : Scene σ) :
    Except Error (Option Value) × Scene σ :=
  (guarded S terms task).run terms.name s

end Scene

/-! ## Tapes -/

/-- **What is done in a run under a lock**: the two writes that the store is asked for, with their outcomes, and the task. -/
inductive Deed where
  | asked (request : AcquireRequest) (outcome : Outcome LeaseRecord)
  | began
  | ended (result : Except Error Value)
  | gaveBack (request : ReleaseRequest) (outcome : Outcome LeaseRecord)

/-- A store with the deeds so far. -/
structure Taped (σ : Type) where
  store : σ
  tape : List Deed

variable {σ : Type}

/-- The world without its tape, -/
def World.plain (w : World (Taped σ)) : World σ := ⟨w.store.store, w.ledger⟩

/-- and with one. -/
def World.onTape (tape : List Deed) (w : World σ) : World (Taped σ) := ⟨⟨w.store, tape⟩, w.ledger⟩

/-- **A store on tape**: it notes the writes that it is asked for. -/
def LeaseStore.taped (S : LeaseStore σ) : LeaseStore (Taped σ) where
  tryUpdate r w :=
    let (after, o) := S.tryUpdate r w.plain
    (after.onTape (w.store.tape ++ [.asked r o]), o)
  update r w :=
    let (after, o) := S.update r w.plain
    (after.onTape (w.store.tape ++ [.gaveBack r o]), o)
  get name w :=
    let (after, o) := S.get name w.plain
    (after.onTape w.store.tape, o)
  createTable arguments w :=
    let (after, o) := S.createTable arguments w.plain
    (after.onTape w.store.tape, o)
  close w := (S.close w.plain).onTape w.store.tape

namespace Scene

/-- The scene without its tape, -/
def plain (s : Scene (Taped σ)) : Scene σ := ⟨s.world.plain, s.lock, s.clock⟩

/-- and with one. -/
def onTape (tape : List Deed) (s : Scene σ) : Scene (Taped σ) := ⟨s.world.onTape tape, s.lock, s.clock⟩

/-- **A task on tape**: that it began is noted, and how it ended. -/
def tapedTask (task : SceneTask σ) : SceneTask (Taped σ) := fun s =>
  let (ending, after) := task s.plain
  (ending, after.onTape (s.world.store.tape ++ [.began, .ended ending]))

/-- The run on tape, -/
def executeTaped (S : LeaseStore σ) (terms : Terms) (task : SceneTask σ) (s : Scene σ) :
    Except Error (Option Value) × Scene (Taped σ) :=
  execute S.taped terms (tapedTask task) (s.onTape [])

/-- **and what is done in it**, in order. -/
def deeds (S : LeaseStore σ) (terms : Terms) (task : SceneTask σ) (s : Scene σ) : List Deed :=
  (s.executeTaped S terms task).2.world.store.tape

/-- Notes come to an end in a scene. -/
theorem guarded_notes (S : LeaseStore σ) (terms : Terms) (task : SceneTask σ) :
    Guarded.Notes (.ofState (Scene σ)) (guarded S terms task) := fun _ _ _ => ⟨_, rfl⟩

section

variable (S : LeaseStore σ) (terms : Terms) (task : SceneTask σ)

theorem acquire_untaped (t : Scene (Taped σ)) :
    (guarded S terms task).acquire t.plain =
      (((guarded S.taped terms (tapedTask task)).acquire t).1,
        ((guarded S.taped terms (tapedTask task)).acquire t).2.plain) := by
  have hclock : t.plain.clock = t.clock := rfl
  simp only [guarded, hclock]
  cases Claim.ofTerms terms t.clock <;> rfl

theorem release_untaped (lease : Lease) (t : Scene (Taped σ)) :
    (guarded S terms task).release lease t.plain =
      (((guarded S.taped terms (tapedTask task)).release lease t).1,
        ((guarded S.taped terms (tapedTask task)).release lease t).2.plain) := by
  have hclock : t.plain.clock = t.clock := rfl
  simp only [guarded, afterRelease, Lock.release, hclock]
  by_cases hdone : lease.released = true
  · simp only [hdone, if_true]
    rfl
  · simp only [hdone, Bool.false_eq_true, if_false]
    cases t.clock.truncate <;> rfl

/-- **The tape changes nothing.** -/
theorem execute_untaped (s : Scene σ) :
    s.execute S terms task = ((s.executeTaped S terms task).1, (s.executeTaped S terms task).2.plain) := by
  -- a scene goes with its copies on tape, and a lease with itself
  have halike : (Evaluation.ofState (Scene σ)).Alike (.ofState (Scene (Taped σ))) ((guarded S terms task).run terms.name) s
      ((guarded S.taped terms (tapedTask task)).run terms.name) (s.onTape []) fun r t r' t' => r = r' ∧ t = t'.plain := by
    refine Guarded.run_alike (R := fun (s : Scene σ) (t : Scene (Taped σ)) => s = t.plain)
      (H := fun (l : Lease) (s : Scene σ) (l' : Lease) (t : Scene (Taped σ)) => l = l' ∧ s = t.plain) ?_ ?_ ?_ ?_ _ rfl
    · rintro _ t rfl
      refine ⟨_, _, _, _, congrArg some (acquire_untaped S terms task t), rfl, ?_⟩
      refine Guarded.AcquiredAlike.refl ?_ (fun l => ?_) _
      · rfl
      · exact ⟨rfl, rfl⟩
    · rintro l _ l' t ⟨rfl, rfl⟩
      exact ⟨_, _, _, _, rfl, rfl, rfl, rfl, rfl⟩
    · rintro l _ l' t ⟨rfl, rfl⟩
      exact ⟨_, _, _, _, congrArg some (release_untaped S terms task l t), rfl, rfl, rfl⟩
    · rintro level text _ t rfl
      exact ⟨_, _, _, _, rfl, rfl, rfl⟩
  obtain ⟨r, _, r', t', hplain, htaped, rfl, rfl⟩ := halike
  have hplain : s.execute S terms task = (r, t'.plain) := Option.some.inj hplain
  have htaped : s.executeTaped S terms task = (r, t') := Option.some.inj htaped
  rw [hplain, htaped]

end

/-! ## What is done, and what the caller sees -/

section

variable {S : LeaseStore σ} (terms : Terms) (task : SceneTask σ) {s : Scene σ} {claim : Claim}

/-- Notes are not on the tape. -/
theorem tape_noted {t t' : Scene (Taped σ)}
    (h : Guarded.Noted (.ofState _) (guarded S.taped terms (tapedTask task)) t t') :
    t'.world.store.tape = t.world.store.tape := by
  rcases h with rfl | ⟨level, text, hnote⟩
  · rfl
  · cases hnote
    rfl

/-- **An acquire on tape**: the store is asked once, and the lock has a lease if that counts as acquired. -/
theorem acquire_taped (hclaim : Claim.ofTerms terms s.clock = .ok claim) {x : AcquireOutcome}
    (hx : AcquireOutcome.of? claim (S.tryUpdate (claim.request s.lock.identity) s.world).2 = some x) :
    (Evaluation.ofState _).eval (guarded S.taped terms (tapedTask task)).acquire (s.onTape []) =
      some (.ok (if x = .acquired then some (.ofClaim claim s.lock.identity) else none),
        (s.afterAcquire S claim).onTape
          [.asked (claim.request s.lock.identity) (S.tryUpdate (claim.request s.lock.identity) s.world).2]) := by
  obtain ⟨-, -, hresult⟩ := s.lock.settleAcquire_verdict hx (S.tryUpdate (claim.request s.lock.identity) s.world).1.ledger
  have hclock : (s.onTape []).clock = s.clock := rfl
  simp only [Evaluation.ofState, guarded, hclock, hclaim]
  exact congrArg some (Prod.ext hresult rfl)

/-- **A task on tape**: its beginning and its end. -/
theorem task_taped {ending : Except Error Value} {t : Scene σ} (htask : task s = (ending, t)) (tape : List Deed) :
    (Evaluation.ofState _).eval (guarded S.taped terms (tapedTask task)).task (s.onTape tape) =
      some (ending, t.onTape (tape ++ [.began, .ended ending])) := by
  have hplain : (s.onTape tape).plain = s := rfl
  simp only [Evaluation.ofState, guarded, tapedTask, hplain, htask]
  rfl

/-- **A release on tape**: the store is asked once, and the release fails if that counts as a failure. -/
theorem release_taped (t : Scene σ) (tape : List Deed) {lease : Lease} (hopen : lease.released = false) {now : Instant}
    (hnow : t.clock.truncate = .ok now) {x : ReleaseOutcome}
    (hx : ReleaseOutcome.of? (S.update (lease.releaseRequest (lease.releaseUntil now)) t.world).2 = some x) :
    ∃ back, (Evaluation.ofState _).eval ((guarded S.taped terms (tapedTask task)).release lease) (t.onTape tape) =
        some (back, (t.afterRelease S lease).onTape (tape ++
          [.gaveBack (lease.releaseRequest (lease.releaseUntil now))
            (S.update (lease.releaseRequest (lease.releaseUntil now)) t.world).2])) ∧
      if x = .failed then ∃ cause, back = .error (.releaseFailed lease.name t.lock.timeout cause) else back = .ok () := by
  obtain ⟨-, -, -, hresult⟩ := t.lock.settleRelease_verdict lease (lease.releaseUntil now) hx
    (S.update (lease.releaseRequest (lease.releaseUntil now)) t.world).1.ledger
  have hclock : (t.onTape tape).clock = t.clock := rfl
  refine ⟨_, ?_, hresult⟩
  simp only [Evaluation.ofState, guarded, afterRelease, Lock.release, hopen, hclock, hnow, Bool.false_eq_true, if_false]
  rfl

/-- **Arguments that make no claim** are told, and nothing is done. -/
theorem execute_rejected {e : Error} (h : Claim.ofTerms terms s.clock = .error e) :
    (s.execute S terms task).1 = .error e ∧ s.deeds S terms task = [] := by
  have hclock : (s.onTape []).clock = s.clock := rfl
  have hacquire : (Evaluation.ofState _).eval (guarded S.taped terms (tapedTask task)).acquire (s.onTape []) =
      some (.error e, s.onTape []) := by
    simp only [Evaluation.ofState, guarded, hclock, h]
  have hrun : s.executeTaped S terms task = (.error e, s.onTape []) :=
    Option.some.inj (Guarded.run_rejected hacquire terms.name)
  rw [execute_untaped, deeds, hrun]
  exact ⟨rfl, rfl⟩

/-- **Without a lease** the store is asked once, and that is all. -/
theorem execute_refused (hclaim : Claim.ofTerms terms s.clock = .ok claim) {x : AcquireOutcome} (hnot : x ≠ .acquired)
    (hx : AcquireOutcome.of? claim (S.tryUpdate (claim.request s.lock.identity) s.world).2 = some x) :
    (s.execute S terms task).1 = .ok none ∧ s.deeds S terms task =
      [.asked (claim.request s.lock.identity) (S.tryUpdate (claim.request s.lock.identity) s.world).2] := by
  have hacquire := acquire_taped terms task hclaim hx
  rw [if_neg hnot] at hacquire
  obtain ⟨t, heval, hnoted⟩ := Guarded.run_refused (guarded_notes S.taped terms _) hacquire terms.name
  have hrun : s.executeTaped S terms task = (.ok none, t) := Option.some.inj heval
  rw [execute_untaped, deeds, hrun]
  exact ⟨rfl, tape_noted terms task hnoted⟩

/-- **With a lease** the task runs once, and after it the lease is given back once. -/
theorem execute_guarded (hclaim : Claim.ofTerms terms s.clock = .ok claim)
    (hx : AcquireOutcome.of? claim (S.tryUpdate (claim.request s.lock.identity) s.world).2 = some .acquired)
    {ending : Except Error Value} {t : Scene σ} (htask : task (s.afterAcquire S claim) = (ending, t)) {now : Instant}
    (hnow : t.clock.truncate = .ok now) {lease : Lease} (hlease : lease = .ofClaim claim s.lock.identity)
    {y : ReleaseOutcome}
    (hy : ReleaseOutcome.of? (S.update (lease.releaseRequest (lease.releaseUntil now)) t.world).2 = some y) :
    ∃ back, (s.execute S terms task).1 = Guarded.verdict ending back ∧
      s.deeds S terms task =
        [.asked (claim.request s.lock.identity) (S.tryUpdate (claim.request s.lock.identity) s.world).2, .began,
          .ended ending, .gaveBack (lease.releaseRequest (lease.releaseUntil now))
            (S.update (lease.releaseRequest (lease.releaseUntil now)) t.world).2] ∧
      if y = .failed then ∃ cause, back = .error (.releaseFailed lease.name t.lock.timeout cause) else back = .ok () := by
  have hacquire := acquire_taped terms task hclaim hx
  rw [if_pos rfl, ← hlease] at hacquire
  have hopen : lease.released = false := by rw [hlease]; rfl
  obtain ⟨back, hrelease, hback⟩ := release_taped terms task t _ hopen hnow hy
  obtain ⟨u, heval, hnoted⟩ :=
    Guarded.run_guarded (guarded_notes S.taped terms _) hacquire (task_taped terms task htask _) hrelease terms.name
  have hrun : s.executeTaped S terms task = (Guarded.verdict ending back, u) := Option.some.inj heval
  rw [execute_untaped, deeds, hrun]
  exact ⟨back, rfl, tape_noted terms task hnoted, hback⟩

end

/-- **A run under a lock loses no outcome.**  Arguments that make no claim are told, and nothing is done.  Otherwise the
store is asked for the lease once.  Unless it answers with a record that ends where the claim does, the task is not
started, nothing is given back, and the caller sees that nothing was run.  If it does, the task runs once and then the
lease is given back once, and the caller sees

* the failure of the task, if it failed, however the release came out;
* its value, if it has one and the lease was given back or lost;
* the failure of the release, if the task has a value and the release failed. -/
theorem execute_loses_nothing {S : LeaseStore σ} (hS : S.KeepsContract) (terms : Terms) (task : SceneTask σ)
    (s : Scene σ) :
    (∀ e, Claim.ofTerms terms s.clock = .error e →
      (s.execute S terms task).1 = .error e ∧ s.deeds S terms task = []) ∧
    (∀ claim, Claim.ofTerms terms s.clock = .ok claim →
      let request := claim.request s.lock.identity
      let o := (S.tryUpdate request s.world).2
      ((¬∃ r, o = .answered r ∧ r.lockUntil = claim.atMost) →
        (s.execute S terms task).1 = .ok none ∧ s.deeds S terms task = [.asked request o]) ∧
      (∀ r, o = .answered r → r.lockUntil = claim.atMost →
        ∀ ending t, task (s.afterAcquire S claim) = (ending, t) → ∀ now, t.clock.truncate = .ok now →
        let lease := Lease.ofClaim claim s.lock.identity
        let giveBack := lease.releaseRequest (lease.releaseUntil now)
        let o' := (S.update giveBack t.world).2
        s.deeds S terms task = [.asked request o, .began, .ended ending, .gaveBack giveBack o'] ∧
        (∀ e, ending = .error e → (s.execute S terms task).1 = .error e) ∧
        (∀ v, ending = .ok v →
          ((∃ r, o' = .answered r) ∨ (∃ e, o' = .failed e ∧ e.isA .conditionNotMet) →
            (s.execute S terms task).1 = .ok (some v)) ∧
          (o' = .silent ∨ (∃ e, o' = .failed e ∧ e.isA .conditionNotMet = false) →
            ∃ cause, (s.execute S terms task).1 = .error (.releaseFailed claim.name t.lock.timeout cause))))) := by
  refine ⟨fun e he => execute_rejected terms task he, fun claim hclaim => ⟨fun hnot => ?_, ?_⟩⟩
  · obtain ⟨x, hx⟩ := AcquireOutcome.of?_contractual (hS.acquires claim s.lock.identity s.world) claim
    refine execute_refused terms task hclaim (fun hacquired => hnot ?_) hx
    rw [hacquired] at hx
    exact AcquireOutcome.of?_acquired.mp hx
  · intro r hr hend ending t htask now hnow lease giveBack o'
    have hx := AcquireOutcome.of?_acquired.mpr ⟨r, hr, hend⟩
    obtain ⟨y, hy⟩ := ReleaseOutcome.of?_contractual (hS.releases lease (lease.releaseUntil now) t.world)
    obtain ⟨back, hresult, hdeeds, hback⟩ := execute_guarded terms task hclaim hx htask hnow rfl hy
    refine ⟨hdeeds, fun e he => ?_, fun v hv => ⟨fun hkept => ?_, fun hfailed => ?_⟩⟩
    · -- a release fails in no way that hides the failure of a task
      rw [hresult, he]
      by_cases hy' : y = .failed
      · rw [if_pos hy'] at hback
        obtain ⟨cause, rfl⟩ := hback
        rfl
      · rw [if_neg hy'] at hback
        rw [hback]
        rfl
    · have hy' : y ≠ .failed := by
        rintro rfl
        exact ReleaseOutcome.of?_kept hkept hy
      rw [if_neg hy'] at hback
      rw [hresult, hv, hback]
      rfl
    · have hy' := ReleaseOutcome.of?_failed hfailed hy
      rw [if_pos hy'] at hback
      obtain ⟨cause, rfl⟩ := hback
      exact ⟨cause, by rw [hresult, hv]; rfl⟩

/-! ## A store that stops answering

A node runs a task of one second for a minute at most, and meanwhile the store stops answering. -/

def minute : Terms := ⟨"backup", ⟨60000000, by decide, by decide⟩, .zero, by decide, by decide, by decide, by decide⟩

def dawn : Scene Memory := ⟨⟨.empty, .empty⟩, ⟨.text "node-0", .int 5, .zero⟩, .moment (later 30000)⟩

def minuteClaim : Claim := ⟨"backup", later 90000, later 30000, later 30000, by decide, by decide, by decide⟩

/-- The task, with its end. -/
def outlasting (ending : Except Error Value) : SceneTask Memory := fun s =>
  (ending, { s with world := { s.world with store := s.world.store.hangNext 1 }, clock := .moment (later 31000) })

/-- A task that was cancelled stays cancelled, and of one that returned the caller hears that the release failed. -/
theorem outlasting_heard :
    (dawn.execute Memory.store minute (outlasting (.error .cancelled))).1 = .error .cancelled ∧
    ∃ cause, (dawn.execute Memory.store minute (outlasting (.ok (.int 7)))).1 =
      .error (.releaseFailed "backup" (.int 5) cause) := by
  have hclaim : Claim.ofTerms minute dawn.clock = .ok minuteClaim := rfl
  constructor
  · obtain ⟨-, hrun⟩ := execute_loses_nothing Memory.keepsContract minute (outlasting (.error .cancelled)) dawn
    obtain ⟨-, hlease⟩ := hrun minuteClaim hclaim
    obtain ⟨-, hraised, -⟩ := hlease _ rfl rfl _ _ rfl (later 31000) rfl
    exact hraised _ rfl
  · obtain ⟨-, hrun⟩ := execute_loses_nothing Memory.keepsContract minute (outlasting (.ok (.int 7))) dawn
    obtain ⟨-, hlease⟩ := hrun minuteClaim hclaim
    obtain ⟨-, -, hvalue⟩ := hlease _ rfl rfl _ _ rfl (later 31000) rfl
    obtain ⟨-, hfailed⟩ := hvalue _ rfl
    exact hfailed (.inl rfl)

end Scene
end Leasehold
