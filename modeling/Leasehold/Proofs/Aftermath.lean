/-
  What a run under a lock leaves in the store.

  `Guarded.run` acquires, runs a task and gives the lease back.  Here its steps are those of a call in a race over a store
  in memory, and everybody else is in the race as well: the task may move clocks, acquire and release leases of this name
  or another, through this lock or others, and whoever it has set to work goes on while the requests of the run itself are
  on their way.

  1. **`Play`** — what others do: events that are not about the run's own call, and no trouble.  Which ones, and how many,
     may depend on everything there is; an event that cannot happen is passed over.  A task is a play that comes to an end
     (`Program`);
  2. **`guarded`**, **`execute`** — the run, over states of the race;
  3. **`through_calm`** — a request of the call comes to an outcome, whatever others do before and after it arrives;
  4. **`acquire_obtains`**, **`release_returns`** — the two calls of the run: with a lease, the call has it in hand; and the
     release raises nothing;
  5. **`execute_leaves`** — the records afterwards, told by who holds the name when the release arrives.
-/
import Leasehold.Proofs.Execution
import Leasehold.Proofs.Floor
import Leasehold.Proofs.Possession
namespace Leasehold

/-- An event that is not about the call, and is no trouble. -/
def Event.IsForeign (k : Nat) (e : Event Memory.Trouble) : Prop := e.call? ≠ some k ∧ ∀ t, e ≠ .trouble t

namespace Race

variable {s s' : Race Memory} {k owner : Nat} {a : Attempt} {l : Lease} {u : Instant} {purpose : Purpose}
  {es : List (Event Memory.Trouble)}

/-! ## What others do -/

/-- What an event does, if it can happen. -/
def happen (s : Race Memory) (e : Event Memory.Trouble) : Race Memory := (s.next Memory.site e).getD s

/-- **What others do** beside a call. -/
structure Play (k : Nat) where
  events : Race Memory → List (Event Memory.Trouble)
  foreign : ∀ s, ∀ e ∈ events s, e.IsForeign k

/-- The state that the events of a play come to, one after the other. -/
def Play.pass (p : Play k) (s : Race Memory) : Race Memory := (p.events s).foldl happen s

/-- **A task**: it does something, and ends with a value or a failure. -/
structure Program (k : Nat) extends Play k where
  ending : Race Memory → Except Error Value

/-- Events that happen, or are passed over, are a run. -/
theorem happen_run (es : List (Event Memory.Trouble)) (s : Race Memory) :
    ∃ es', (∀ e ∈ es', e ∈ es) ∧ s.run Memory.site es' = some (es.foldl happen s) := by
  induction es generalizing s with
  | nil => exact ⟨[], nofun, rfl⟩
  | cons e es ih =>
    obtain ⟨es', hsub, hr⟩ := ih (s.happen e)
    have hsub' : ∀ x ∈ es', x ∈ e :: es := fun x hx => List.mem_cons_of_mem _ (hsub x hx)
    cases hn : s.next Memory.site e with
    | none =>
      have hsame : s.happen e = s := by rw [happen, hn, Option.getD_none]
      refine ⟨es', hsub', ?_⟩
      rw [List.foldl_cons, ← hr, hsame]
    | some s₁ =>
      have hgoes : s.happen e = s₁ := by rw [happen, hn, Option.getD_some]
      refine ⟨e :: es', fun x hx => ?_, ?_⟩
      · rcases List.mem_cons.mp hx with rfl | hx
        · exact List.mem_cons_self
        · exact hsub' x hx
      · rw [hgoes] at hr
        rw [List.foldl_cons, hgoes]
        exact Option.bind_eq_some_iff.mpr ⟨s₁, hn, hr⟩

/-- **A state without trouble**: it can be reached, and requests get through to the store. -/
structure Calm (s : Race Memory) : Prop where
  reachable : Reachable Memory.site s
  clear : s.world.store.pass.2 = .through

theorem Calm.next {e : Event Memory.Trouble} (h : s.Calm) (hn : s.next Memory.site e = some s')
    (ht : ∀ t, e ≠ .trouble t) : s'.Calm :=
  ⟨h.reachable.next e hn, h.reachable.sound.way_next hn ht h.clear⟩

theorem Calm.run (h : s.Calm) (hr : s.run Memory.site es = some s') (ht : ∀ e ∈ es, ∀ t, e ≠ .trouble t) : s'.Calm := by
  induction es generalizing s with
  | nil =>
    cases hr
    exact h
  | cons e es ih =>
    obtain ⟨s₁, hn, hr⟩ := run_cons hr
    exact ih (h.next hn (ht e List.mem_cons_self)) hr fun x hx => ht x (List.mem_cons_of_mem _ hx)

/-- **While others act** the call stays where it is, locks stay who they are, and there is no trouble. -/
structure Aside (k : Nat) (s s' : Race Memory) : Prop where
  calm : s'.Calm
  attempts : s'.attempts k = s.attempts k
  identity : ∀ n, (s'.lock n).identity = (s.lock n).identity

theorem Play.aside (p : Play k) (h : s.Calm) : Aside k s (p.pass s) := by
  obtain ⟨es, hsub, hr⟩ := happen_run (p.events s) s
  have hforeign : ∀ e ∈ es, e.IsForeign k := fun e he => p.foreign s e (hsub e he)
  exact ⟨h.run hr fun e he => (hforeign e he).2, attempts_run hr fun e he => (hforeign e he).1, identity_run hr⟩

/-! ## The run -/

/-- A request of the call is on its way. -/
def isOut (s : Race Memory) (k : Nat) : Bool :=
  match s.attempts k with
  | some ⟨_, _, .calling _⟩ => true
  | _ => false

/-- The request arrives and the call is finished; before, and between the two, others act. -/
def through (s : Race Memory) (others : Play k) : Race Memory :=
  (others.pass ((others.pass s).happen (.arrive k))).happen (.finish k)

/-- A call that was begun goes on, unless it came to its end at once. -/
def call (s : Race Memory) (others : Play k) : Race Memory := if s.isOut k then s.through others else s

/-- What was told last, if it is how an acquire ended, -/
def lastReturned (s : Race Memory) : Except Error (Option Lease) :=
  match s.history.getLast? with
  | some (.returned _ r) => r
  | _ => .error .cancelled

/-- or how a release ended. -/
def lastSettled (s : Race Memory) : Except Error Unit :=
  match s.history.getLast? with
  | some (.settled _ r) => r
  | _ => .error .cancelled

/-- **A task under a lock**, among others. -/
def guarded (terms : Terms) (owner : Nat) (others : Play k) (task : Program k) : Guarded (StateM (Race Memory)) Lease where
  acquire s := match terms.deadlines (.time (s.reading owner)) with
    | .error e => (.error e, s)
    | .ok (atMost, atLeast) =>
      let after := (s.happen (.ask k owner (.text terms.name) atMost atLeast)).call others
      (after.lastReturned, after)
  task s := (task.ending s, task.pass s)
  release _ s :=
    let after := (s.happen (.release k)).call others
    (after.lastSettled, after)
  note level text s := ((), { s with world := s.world.note level text })

/-- **Runs a task under a lock**: what the caller sees, and the state afterwards. -/
def execute (terms : Terms) (owner : Nat) (others : Play k) (task : Program k) (s : Race Memory) :
    Except Error (Option Value) × Race Memory :=
  (guarded terms owner others task).run terms.name s

/-! ## A request goes through -/

/-- The arrival of a request of the call. -/
theorem arrive_happens (ha : s.attempts k = some a) (hp : a.stage = .calling purpose) :
    s.next Memory.site (.arrive k) = some (s.arriveWith Memory.store k a purpose) := by
  simp only [next, arrive, ha, hp]
  rfl

/-- The end of a call that has its outcome. -/
theorem finish_happens {o : Outcome LeaseRecord} (ha : s.attempts k = some { a with stage := .called purpose o })
    (ho : o ≠ .silent) :
    s.next Memory.site (.finish k) = some (s.settle k { a with stage := .called purpose o } purpose o) := by
  show Option.bind (s.attempts k) _ = _
  rw [ha]
  cases o with
  | answered r => rfl
  | failed e => rfl
  | silent => exact absurd rfl ho

/-- **A request has an outcome** where there is no trouble: a record, or the refusal that names the lock. -/
theorem Calm.outcome (h : s.Calm) (ha : s.attempts k = some a) (hp : a.stage = .calling purpose) :
    (∃ r, (s.carry Memory.store a purpose).2 = .answered r) ∨
      ∃ name, (s.carry Memory.store a purpose).2 = .failed (.conditionNotMet name .store) := by
  cases purpose with
  | acquire =>
    rcases ((h.reachable.sound.acquire_carried ha hp).2.way h.clear).2 with ⟨-, ho, -⟩ | ⟨-, ho, -⟩
    · exact Or.inl ⟨_, ho⟩
    · exact Or.inr ⟨_, ho⟩
  | release l u =>
    rcases ((h.reachable.sound.release_carried ha hp).2.way h.clear).2 with ⟨-, ho, -⟩ | ⟨-, ho, -⟩
    · exact Or.inl ⟨_, ho⟩
    · exact Or.inr ⟨_, ho⟩

/-- **Whatever others do, a request arrives and its call is finished** with the outcome that the store had for it. -/
theorem through_calm (h : s.Calm) (ha : s.attempts k = some a) (hp : a.stage = .calling purpose) (others : Play k) :
    let s₁ := others.pass s
    let o := (s₁.carry Memory.store a purpose).2
    let s₂ := others.pass (s₁.arriveWith Memory.store k a purpose)
    Aside k s s₁ ∧ s₁.happen (.arrive k) = s₁.arriveWith Memory.store k a purpose ∧
      (s₁.arriveWith Memory.store k a purpose).Calm ∧ s₂.Calm ∧
      s₂.attempts k = some { a with stage := .called purpose o } ∧
      (∀ n, (s₂.lock n).identity = (s.lock n).identity) ∧
      s.through others = s₂.settle k { a with stage := .called purpose o } purpose o ∧
      s₂.next Memory.site (.finish k) = some (s₂.settle k { a with stage := .called purpose o } purpose o) := by
  intro s₁ o s₂
  have hbefore : Aside k s s₁ := others.aside h
  have ha₁ : s₁.attempts k = some a := hbefore.attempts.trans ha
  have harrive := arrive_happens ha₁ hp
  have hcalm : (s₁.arriveWith Memory.store k a purpose).Calm := hbefore.calm.next harrive nofun
  have hafter : Aside k (s₁.arriveWith Memory.store k a purpose) s₂ := others.aside hcalm
  have ha₂ : s₂.attempts k = some { a with stage := .called purpose o } :=
    hafter.attempts.trans (Function.update_self ..)
  have ho : o ≠ .silent := by
    rcases hbefore.calm.outcome ha₁ hp with ⟨r, hr⟩ | ⟨name, hr⟩ <;> exact fun hsilent => nomatch hr.symm.trans hsilent
  have hfinish := finish_happens ha₂ ho
  have hhappens : s₁.happen (.arrive k) = s₁.arriveWith Memory.store k a purpose := by
    rw [happen, harrive, Option.getD_some]
  have hidentity : ∀ n, (s₂.lock n).identity = (s.lock n).identity := by
    intro n
    rw [hafter.identity, (concerns_arriveWith Memory.store k a purpose s₁).identity, hbefore.identity]
  refine ⟨hbefore, hhappens, hcalm, hafter.calm, ha₂, hidentity, ?_, hfinish⟩
  show (others.pass (s₁.happen (.arrive k))).happen (.finish k) = _
  rw [hhappens, happen, hfinish, Option.getD_some]

/-- A call whose request is on its way goes on. -/
theorem call_through (ha : s.attempts k = some a) (hp : a.stage = .calling purpose) (others : Play k) :
    s.call others = s.through others := by
  have hout : s.isOut k = true := by
    obtain ⟨owner, claim, stage⟩ := a
    obtain rfl : stage = .calling purpose := hp
    simp only [isOut, ha]
  rw [call, hout, if_pos rfl]

/-! ## The two calls of the run -/

variable {terms : Terms} {others : Play k} {task : Program k}

/-- What an acquire told as it was settled. -/
theorem lastReturned_settle (s : Race Memory) (a : Attempt) (o : Outcome LeaseRecord) :
    (s.settle k a .acquire o).lastReturned = ((s.lock a.owner).settleAcquire a.claim o s.world.ledger).2.2 := by
  simp only [settle, lastReturned, tell, List.getLast?_append, List.getLast?_singleton]
  rfl

theorem lastSettled_settle (s : Race Memory) (a : Attempt) (o : Outcome LeaseRecord) :
    (s.settle k a (.release l u) o).lastSettled = ((s.lock a.owner).settleRelease l u o s.world.ledger).2.2.2 := by
  simp only [settle, lastSettled, tell, List.getLast?_append, List.getLast?_singleton]
  rfl

section

variable {name : String} {atMost atLeast : GivenTime} (hnew : s.attempts k = none)

include hnew

/-- An acquire that is rejected comes to its end at once, -/
theorem ask_rejected {e : Error} (hclaim : Claim.ofGiven (.time (s.reading owner)) (.text name) atMost atLeast = .error e)
    (others : Play k) : ((s.happen (.ask k owner (.text name) atMost atLeast)).call others).lastReturned = .error e := by
  have hask : s.happen (.ask k owner (.text name) atMost atLeast) = s.tell (.returned k (.error e)) := by
    simp only [happen, next, ask, hnew, hclaim, Option.getD_some]
  have hnone : (s.tell (.returned k (.error e))).attempts k = none := hnew
  have hnot : (s.tell (.returned k (.error e))).isOut k = false := by simp only [isOut, hnone]
  rw [hask, call, hnot, if_neg Bool.false_ne_true]
  simp only [lastReturned, tell, List.getLast?_append, List.getLast?_singleton]
  rfl

/-- and any other sends its request. -/
theorem ask_sends {claim : Claim}
    (hclaim : Claim.ofGiven (.time (s.reading owner)) (.text name) atMost atLeast = .ok claim) :
    s.next Memory.site (.ask k owner (.text name) atMost atLeast) =
      some { s with attempts := Function.update s.attempts k (some ⟨owner, claim, .calling .acquire⟩) } := by
  simp only [next, ask, hnew, hclaim]

end

/-- **What a run has that obtained its lease**: the lease of the claim that its terms make of the reading, in hand. -/
structure Obtained (terms : Terms) (k owner : Nat) (s s₁ : Race Memory) (l : Lease) : Prop where
  calm : s₁.Calm
  claim : ∃ claim, Claim.ofTerms terms (.time (s.reading owner)) = .ok claim ∧
    l = .ofClaim claim (s.lock owner).identity ∧ s₁.attempts k = some ⟨owner, claim, .held l⟩
  acquired : Mark.acquired k l ∈ s₁.history

/-- **An acquire that returns a lease** has it in hand. -/
theorem acquire_obtains (h : s.Calm) (hnew : s.attempts k = none) {s₁ : Race Memory}
    (hacquire : (guarded terms owner others task).acquire s = (.ok (some l), s₁)) : Obtained terms k owner s s₁ l := by
  simp only [guarded] at hacquire
  cases hdeadlines : terms.deadlines (.time (s.reading owner)) with
  | error e =>
    simp only [hdeadlines] at hacquire
    cases hacquire
  | ok deadlines =>
    obtain ⟨atMost, atLeast⟩ := deadlines
    simp only [hdeadlines] at hacquire
    cases hclaim : Claim.ofGiven (.time (s.reading owner)) (.text terms.name) atMost atLeast with
    | error e =>
      obtain ⟨htold, -⟩ := Prod.mk.inj hacquire
      rw [ask_rejected hnew hclaim others] at htold
      cases htold
    | ok claim =>
      have hask := ask_sends hnew hclaim
      generalize hs₀ : ({ s with attempts := Function.update s.attempts k (some ⟨owner, claim, .calling .acquire⟩) } :
        Race Memory) = s₀ at hask
      have ha : s₀.attempts k = some ⟨owner, claim, .calling .acquire⟩ := by
        rw [← hs₀]
        exact Function.update_self ..
      have hidentity₀ : (s₀.lock owner).identity = (s.lock owner).identity := by rw [← hs₀]; rfl
      have hsent : s₀.Calm := h.next hask fun _ he => by cases he
      obtain ⟨-, -, -, hcalm, ha₂, hidentity, hthrough, hfinish⟩ := through_calm hsent ha rfl others
      -- the acquire has told how it ended, and that was with the lease
      rw [happen, hask, Option.getD_some, call_through ha rfl, hthrough] at hacquire
      obtain ⟨htold, rfl⟩ := Prod.mk.inj hacquire
      rw [lastReturned_settle] at htold
      obtain ⟨-, hlease⟩ := Lock.settleAcquire_lease htold
      have hcalm₁ := hcalm.next hfinish fun _ he => by cases he
      refine ⟨hcalm₁, ⟨claim, ?_, ?_, ?_⟩, ?_⟩
      · rw [Claim.ofTerms, hdeadlines]
        exact hclaim
      · rw [hlease, hidentity, hidentity₀]
      · simp only [settle, tell, setStage, Function.update_self, htold]
        rfl
      · refine hcalm₁.reachable.sound.history.returned (List.mem_append_right _ ?_)
        rw [htold]
        exact List.mem_singleton.mpr rfl

/-- **The course of a release** that is sent from a state and arrives in another: the lease is still open there, and the
store makes of the request what it makes of a release that ends at `u`. -/
structure Gives (k : Nat) (l : Lease) (u : Instant) (ended sent arriving written : Race Memory) : Prop where
  sent : sent.world.store = ended.world.store
  calm : arriving.Calm
  stillOpen : arriving.history.Open k l
  effect : ∃ o, Memory.Effect arriving.world.store l.name (arriving.world.store.released l u)
    (arriving.world.store.endOf l.name = some l.atMost) written.world.store o

/-- **The release of a lease in hand** reads the clock, its request arrives, and nothing is raised. -/
theorem release_returns (h : s.Calm) {claim : Claim} (ha : s.attempts k = some ⟨owner, claim, .held l⟩)
    (hopen : l.released = false) {now : Instant} (hnow : (GivenTime.time (s.reading owner)).truncate = .ok now)
    (others : Play k) :
    let sent := s.happen (.release k)
    let arriving := others.pass sent
    let written := arriving.happen (.arrive k)
    Gives k l (l.releaseUntil now) s sent arriving written ∧ (sent.call others).lastSettled = .ok () ∧
      (sent.call others).world.store = (others.pass written).world.store := by
  intro sent arriving written
  let out : Attempt := ⟨owner, claim, .calling (.release l (l.releaseUntil now))⟩
  have hbegins : s.next Memory.site (.release k) = some (s.setStage k ⟨owner, claim, .held l⟩ out.stage) := by
    simp only [next, release, ha, releaseWith, hopen, Bool.false_eq_true, if_false, hnow]
    rfl
  have hsent : sent = s.setStage k ⟨owner, claim, .held l⟩ out.stage := by
    show (s.next Memory.site (.release k)).getD s = _
    rw [hbegins, Option.getD_some]
  have hout : sent.attempts k = some out := by
    rw [hsent]
    exact Function.update_self ..
  have hcalm : sent.Calm := by
    rw [hsent]
    exact h.next hbegins fun _ he => by cases he
  have hcall := call_through hout rfl others
  obtain ⟨hbefore, hwritten, -, -, -, -, hthrough, -⟩ := through_calm hcalm hout rfl others
  have hwritten : written = arriving.arriveWith Memory.store k out (.release l (l.releaseUntil now)) := hwritten
  have hout' : arriving.attempts k = some out := hbefore.attempts.trans hout
  obtain ⟨⟨-, hheld, -⟩, heffect⟩ := hbefore.calm.reachable.sound.release_carried hout' rfl
  refine ⟨⟨by rw [hsent]; rfl, hbefore.calm, hheld, ?_⟩, ?_, ?_⟩
  · rw [hwritten]
    exact ⟨_, heffect⟩
  · rw [hcall, hthrough, lastSettled_settle]
    rcases hbefore.calm.outcome hout' rfl with ⟨r, ho⟩ | ⟨name, ho⟩
    · rw [ho]
      rfl
    · rw [ho]
      rfl
  · rw [hcall, hthrough, settle_store, hwritten]

/-! ## The records afterwards -/

namespace Gives

variable {ended sent arriving written : Race Memory} {name : String}

/-- **The holder's own release** moves the end of the record that its acquire wrote, and nothing else of it. -/
theorem of_holder (h : Gives k l u ended sent arriving written) (hholder : arriving.history.Holder l.name k l) :
    written.world.store.find? (.text l.name) = some { l.record with lockUntil := u } := by
  obtain ⟨o, heffect⟩ := h.effect
  have hrecord : arriving.world.store.find? (.text l.name) = some l.record :=
    h.calm.reachable.possessed l.name k l hholder h.stillOpen.2
  have hend : arriving.world.store.endOf l.name = some l.atMost := by
    rw [Memory.endOf, hrecord]
    rfl
  rcases (heffect.way h.calm.clear).2 with ⟨-, -, hput⟩ | ⟨hnot, -, -⟩
  · rw [hput, Memory.find_put_text, Memory.released, hrecord]
    rfl
  · exact absurd hend hnot

/-- **The release of a lease that was taken over** changes no record. -/
theorem of_takenOver (h : Gives k l u ended sent arriving written) {k' : Nat} {l' : Lease}
    (ht : arriving.history.TakenOver k l k' l') (hopen : ¬arriving.history.Released k') :
    written.world.store.records = arriving.world.store.records := by
  obtain ⟨o, heffect⟩ := h.effect
  have hnot := h.calm.reachable.sound.history.end_ne_takenOver ht h.stillOpen.2 hopen
  exact (heffect.of_not hnot).1

/-- The records of other names stay. -/
theorem other (h : Gives k l u ended sent arriving written) (hne : name ≠ l.name) :
    written.world.store.find? (.text name) = arriving.world.store.find? (.text name) := by
  obtain ⟨o, heffect⟩ := h.effect
  rcases heffect.applied_or_not with ⟨-, -, hput⟩ | ⟨-, hrecords⟩
  · rw [hput]
    exact Memory.find_put_text_other hne ..
  · exact Memory.find_congr hrecords _

end Gives

/-- **What a run leaves in the store** which began in the state `s` and obtained the lease `l` by its call `k`.  Its task ended in
the state `ended`, with a result, and the clock read `e` then; its release was sent, its request was arriving, and it was
written; and `after` is what the caller sees and the state in which the run is over. -/
structure LeavesBehind (terms : Terms) (owner k : Nat) (l : Lease) (others : Play k) (s : Race Memory) (e : Instant)
    (result : Except Error Value) (ended sent arriving written : Race Memory)
    (after : Except Error (Option Value) × Race Memory) : Prop where
  /-- If the run's lease is the last one of its name that was acquired, its record ends at the reading or at the floor that
  was reckoned as the run began, whichever is later, and tells when and by whom the lock was taken. -/
  record : ∃ taken floor until' : Instant, (GivenTime.time (s.reading owner)).truncate = .ok taken ∧
    terms.floorAt (.time (s.reading owner)) = .ok floor ∧ until'.micros = max e.micros floor.micros ∧
    (arriving.history.Holder terms.name k l → written.world.store.find? (.text terms.name) =
      some ⟨.text terms.name, until', some taken, (s.lock owner).identity⟩)
  /-- If another lease has taken the name over, and no release of it was applied, no record changes; that of the last lease
  is as it was written. -/
  takenOver : ∀ k' l', arriving.history.TakenOver k l k' l' → ¬arriving.history.Released k' →
    written.world.store.records = arriving.world.store.records ∧
      (arriving.history.Holder terms.name k' l' →
        written.world.store.find? (.text terms.name) = some l'.record)
  /-- The records of all other names stay. -/
  otherNames : ∀ name ≠ terms.name,
    written.world.store.find? (.text name) = arriving.world.store.find? (.text name)
  /-- Sending the release changes nothing in the store, -/
  sent : sent.world.store = ended.world.store
  /-- and nothing does after the write but what others do. -/
  store : after.2.world.store = (others.pass written).world.store
  /-- The caller sees what the task ended with. -/
  result : after.1 = Guarded.verdict result (.ok ())

/-- **What a run under a lock leaves in the store.**  The store is in memory and without trouble, and the run obtained its
lease.  Its task and everybody else do what they like, but for the run's own call.  When the task has ended, in whatever
way, the release reads the clock, and its request arrives. -/
theorem execute_leaves (h : Reachable Memory.site s) (hclear : s.world.store.pass.2 = .through)
    (hnew : s.attempts k = none) {s₁ : Race Memory}
    (hacquire : (guarded terms owner others task).acquire s = (.ok (some l), s₁)) {e : Instant}
    (he : (GivenTime.time ((task.pass s₁).reading owner)).truncate = .ok e) :
    let ended := task.pass s₁
    let sent := ended.happen (.release k)
    let arriving := others.pass sent
    let written := arriving.happen (.arrive k)
    LeavesBehind terms owner k l others s e (task.ending s₁) ended sent arriving written
      (execute terms owner others task s) := by
  intro ended sent arriving written
  let after := execute terms owner others task s
  obtain ⟨hcalm₁, ⟨claim, hclaim, hl, ha₁⟩, -⟩ := acquire_obtains ⟨h, hclear⟩ hnew hacquire
  have htask : Aside k s₁ ended := task.toPlay.aside hcalm₁
  have hopen : l.released = false := by rw [hl]; rfl
  have hcourse : Gives k l (l.releaseUntil e) ended sent arriving written ∧ (sent.call others).lastSettled = .ok () ∧
      (sent.call others).world.store = (others.pass written).world.store :=
    release_returns htask.calm (htask.attempts.trans ha₁) hopen he others
  obtain ⟨hgives, hsettled, hstore⟩ := hcourse
  -- the times of the lease come from the reading that the run began with
  obtain ⟨⟨atMost, atLeast⟩, hdeadlines, hgiven⟩ := Except.bind_ok hclaim
  obtain ⟨hfloor, hnotNone⟩ := Terms.deadlines_floor hdeadlines
  obtain ⟨htaken, hclaimed, -, -⟩ := Claim.ofGiven_parts hgiven
  have hname : l.name = terms.name := by
    rw [hl]
    exact (Value.text.inj hclaimed).symm
  -- the run is its three steps
  have hback : (Evaluation.ofState _).eval ((guarded terms owner others task).release l) ended =
      some (.ok (), sent.call others) := congrArg some (Prod.ext hsettled rfl)
  have hnotes : Guarded.Notes (.ofState _) (guarded terms owner others task) := fun _ _ _ => ⟨_, rfl⟩
  obtain ⟨final, heval, hnoted⟩ := Guarded.run_guarded hnotes (congrArg some hacquire)
    (rfl : (Evaluation.ofState _).eval (guarded terms owner others task).task s₁ = some (task.ending s₁, ended)) hback
    terms.name
  have hafter : after = (Guarded.verdict (task.ending s₁) (.ok ()), final) := Option.some.inj heval
  -- the record, the takeover, the other names, the store and the caller
  refine ⟨⟨claim.takenAt, claim.atLeast, l.releaseUntil e, htaken, ?_, ?_, fun hholder => ?_⟩, ?_, ?_, hgives.sent, ?_, ?_⟩
  · rw [Terms.floorAt, hfloor]
    exact Claim.ofGiven_floor hnotNone hgiven
  · rw [Lease.releaseUntil_micros, hl]
    rfl
  · have hwritten := hgives.of_holder (hname ▸ hholder)
    rw [← hname, hwritten, hl]
    rfl
  · intro k' l' htakenOver hopen'
    have hrecords := hgives.of_takenOver htakenOver hopen'
    refine ⟨hrecords, fun hholder => ?_⟩
    rw [Memory.find_congr hrecords]
    exact hgives.calm.reachable.possessed terms.name k' l' hholder hopen'
  · intro name hne
    exact hgives.other (hname ▸ hne)
  · show after.2.world.store = _
    rw [hafter, ← hstore]
    rcases hnoted with rfl | ⟨level, text, hnote⟩
    · rfl
    · cases hnote
      rfl
  · show after.1 = _
    rw [hafter]

/-! ## Two tasks

Both have the job for ten seconds at most and four at least (`brief`), and another node asks for it meanwhile.  One task is
cancelled after six seconds, when the other node was told that the job is taken.  The other one outlives its lease, and
fails when the other node has the job. -/

/-- Nobody else does anything. -/
def nobody (k : Nat) : Play k := ⟨fun _ => [], fun _ _ he => nomatch he⟩

/-- The clock goes on, and the other node asks for the job. -/
def meanwhile (now : Instant) : List (Event Memory.Trouble) :=
  [.clock .system (.utc now), .ask 1 1 (.text "job") (.moment secondLease.atMost) .none, .arrive 1, .finish 1]

theorem meanwhile_foreign (now : Instant) : ∀ e ∈ meanwhile now, e.IsForeign 0 := by
  intro e he
  simp only [meanwhile, List.mem_cons, List.not_mem_nil, or_false] at he
  rcases he with rfl | rfl | rfl | rfl <;> exact ⟨nofun, nofun⟩

def cutShort : Program 0 := ⟨⟨fun _ => meanwhile (later 6000), fun _ => meanwhile_foreign _⟩, fun _ => .error .cancelled⟩

def tooLong : Program 0 := ⟨⟨fun _ => meanwhile firstLease.atMost, fun _ => meanwhile_foreign _⟩, fun _ => .error .cancelled⟩

/-- The acquire of both. -/
theorem opening_acquires (task : Program 0) :
    (guarded brief 0 (nobody 0) task).acquire opening = (.ok (some briefLease), obtained) := rfl

/-- What was told when the second task's release arrives. -/
theorem tooLong_history : ((tooLong.pass obtained).happen (.release 0)).history =
    [.acquired 0 briefLease, .returned 0 (.ok (some briefLease)), .acquired 1 secondLease,
      .returned 1 (.ok (some secondLease))] := rfl

/-- The first task's record tells of its lease, and ends where the task did; the second task's is the other node's. -/
theorem two_tasks_leave :
    (∃ until', until'.micros = (later 6000).micros ∧
      ((((cutShort.pass obtained).happen (.release 0)).happen (.arrive 0)).world.store.find? (.text "job") =
        some ⟨.text "job", until', some (later 0), .text "node-0"⟩)) ∧
      (((tooLong.pass obtained).happen (.release 0)).happen (.arrive 0)).world.store.find? (.text "job") =
        some secondLease.record ∧
      (execute brief 0 (nobody 0) tooLong opening).1 = .error .cancelled := by
  have hreachable : Reachable Memory.site opening := .fresh ⟨fun _ => rfl, rfl⟩
  have hshort := execute_leaves hreachable rfl rfl (opening_acquires cutShort) (e := later 6000) rfl
  have hlong := execute_leaves hreachable rfl rfl (opening_acquires tooLong) (e := firstLease.atMost) rfl
  obtain ⟨taken, floor, until', htaken, hfloor, huntil, hrecord⟩ := hshort.record
  refine ⟨⟨until', ?_, ?_⟩, ?_, hlong.result⟩
  · obtain rfl : fourSeconds = floor := Except.ok.inj hfloor
    exact huntil
  · obtain rfl : later 0 = taken := Except.ok.inj htaken
    refine hrecord ⟨rfl, 0, rfl, fun j k' l' hj hmark => ?_⟩
    -- nobody else acquired
    match j, hj with
    | 1, _ => cases hmark
    | 2, _ => cases hmark
    | j + 3, _ => cases hmark
  · refine (hlong.takenOver 1 secondLease ⟨rfl, 0, 2, by decide, rfl, rfl⟩ ?_).2 ⟨rfl, 2, rfl, fun j k' l' hj hmark => ?_⟩
    · rintro ⟨u, hu⟩
      have hu : Mark.released 1 u ∈ ((tooLong.pass obtained).happen (.release 0)).history := hu
      rw [tooLong_history] at hu
      simp at hu
    · match j, hj with
      | 3, _ => cases hmark
      | j + 4, _ => cases hmark

end Race
end Leasehold
