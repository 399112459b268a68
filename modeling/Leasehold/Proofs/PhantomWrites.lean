/-
  No phantom writes: what a call did to the store in memory is what it tells.

  A timeout or a cancellation may hit a call before its visit has started, while it pauses, hangs or waits at the gate, or
  after it has written and before the caller has heard of it.  Whatever a call did is told by its DEEDS, the steps of
  its own with the loops before and after them.

  1. **`Accounted`** — a call whose write is applied has one deed that writes what it asks for, and all its other deeds
     spare the store; the deeds of any other call all spare it.  One event keeps the account (`Accounted.next`), so a run
     keeps it (`Accounted.run`).  With `Visit.Sound.returned` that is the account of how calls end.
  2. **`reaches`** — no ending is in the way of others: while no stranger is inside the gate, the turns of those who wait
     are enough for any call to be served (`drain`).
  3. **`clear_run`, `turns_alone`** — without strangers the gate is always open when a call comes, and a call needs its own
     turns only: these do to the store what one call on it does.
  4. **`tryAcquire_alone`, `release_alone`** — and a caller that nobody interrupts ends as its lock does at once.
-/
import Leasehold.Proofs.Turns
namespace Leasehold
namespace Loop

/-! ## Deeds -/

/-- **A deed**: an event, with the loops before and after it. -/
structure Deed where
  event : Event
  before : Loop
  after : Loop

namespace Deed

/-- A deed after which the records, and the count of writes, are what they were. -/
def Spares (d : Deed) : Prop := d.before.world.store.Spared d.after.world.store

/-- A deed that writes what a job asks for, and nothing else. -/
def Writes (job : Job) (d : Deed) : Prop :=
  ∃ r, job.Asks r ∧ d.after.world.store = d.before.world.store.put job.name r

theorem Writes.not_spares {job : Job} {d : Deed} (h : d.Writes job) : ¬d.Spares := by
  obtain ⟨r, -, hput⟩ := h
  unfold Spares
  rw [hput]
  exact d.before.world.store.not_spared_put job.name r

end Deed

/-- What events do, deed by deed. -/
def deeds (s : Loop) : List Event → List Deed
  | [] => []
  | e :: es => match s.next e with
    | some s' => ⟨e, s, s'⟩ :: deeds s' es
    | none => []

/-- The deeds of a call. -/
def own (k : Nat) (ds : List Deed) : List Deed := ds.filter fun d => d.event.call? = some k

/-- No deed writes anything. -/
def Spared (ds : List Deed) : Prop := ∀ d ∈ ds, d.Spares

/-- **Exactly one deed writes**, and it writes what a job asks for. -/
def WritesOnce (job : Job) (ds : List Deed) : Prop :=
  ∃ front d back, ds = front ++ d :: back ∧ d.Writes job ∧ Spared (front ++ back)

section

variable {s s' s₁ : Loop} {e : Event} {es : List Event} {k : Nat} {v : Visit} {ds : List Deed} {d : Deed} {job : Job}

theorem Spared.concat (h : Spared ds) (hd : d.Spares) : Spared (ds ++ [d]) := by
  intro d' hd'
  rcases List.mem_append.mp hd' with hmem | hmem
  · exact h d' hmem
  · rw [List.mem_singleton.mp hmem]
    exact hd

theorem WritesOnce.concat (h : WritesOnce job ds) (hd : d.Spares) : WritesOnce job (ds ++ [d]) := by
  obtain ⟨front, w, back, rfl, hw, hspared⟩ := h
  refine ⟨front, w, back ++ [d], by simp, hw, ?_⟩
  rw [← List.append_assoc]
  exact hspared.concat hd

/-- Deeds one of which writes do not all spare the store. -/
theorem WritesOnce.not_spared (h : WritesOnce job ds) : ¬Spared ds := by
  obtain ⟨front, w, back, rfl, hw, -⟩ := h
  intro hall
  exact hw.not_spares (hall w (List.mem_append_right _ List.mem_cons_self))

theorem own_concat_self (he : d.event.call? = some k) : own k (ds ++ [d]) = own k ds ++ [d] := by
  unfold own
  rw [List.filter_append, List.filter_cons_of_pos (by simpa using he), List.filter_nil]

theorem own_concat_other (he : d.event.call? ≠ some k) : own k (ds ++ [d]) = own k ds := by
  unfold own
  rw [List.filter_append, List.filter_cons_of_neg (by simpa using he), List.filter_nil, List.append_nil]

/-! ## The account -/

/-- The store has applied the write of a call. -/
def Applied (s : Loop) (k : Nat) : Prop := ∃ v, s.calls k = some (.sent v) ∧ v.Applied

theorem applied_iff (hk : s.calls k = some (.sent v)) : s.Applied k ↔ v.Applied := by
  constructor
  · rintro ⟨w, hw, happlied⟩
    rw [hk] at hw
    cases hw
    exact happlied
  · exact fun happlied => ⟨v, hk, happlied⟩

/-- A call that did not go out has nothing applied. -/
theorem not_applied (hk : ∀ v, s.calls k ≠ some (.sent v)) : ¬s.Applied k := by
  rintro ⟨v, hv, -⟩
  exact hk v hv

/-- **The deeds of a call are its account.** -/
structure AccountOf (ds : List Deed) (s : Loop) (k : Nat) : Prop where
  written : ∀ v, s.calls k = some (.sent v) → v.Applied → WritesOnce v.job (own k ds)
  spared : ¬s.Applied k → Spared (own k ds)

/-- The deeds are the account of all calls. -/
def Accounted (ds : List Deed) (s : Loop) : Prop := ∀ k, AccountOf ds s k

/-- A call that is left alone keeps its account. -/
theorem AccountOf.other (h : AccountOf ds s k) (hd : d.event.call? ≠ some k) (hk : s'.calls k = s.calls k) :
    AccountOf (ds ++ [d]) s' k := by
  have happlied : s'.Applied k ↔ s.Applied k := by
    unfold Applied
    rw [hk]
  refine ⟨?_, ?_⟩ <;> rw [own_concat_other hd]
  · rw [hk]
    exact h.written
  · rw [happlied]
    exact h.spared

/-- A call that begins has written nothing, and its first deed spares the store. -/
theorem AccountOf.begins (h : AccountOf ds s k) (hd : d.event.call? = some k) (hspares : d.Spares)
    (unknown : s.calls k = none) {c : Call} (begins : c.Begins) (hk : s'.calls k = some c) :
    AccountOf (ds ++ [d]) s' k := by
  have hno : ¬s.Applied k := not_applied fun v hv => by
    rw [unknown] at hv
    cases hv
  refine ⟨fun v hv happlied => ?_, fun _ => ?_⟩
  · obtain ⟨r, hr⟩ := happlied
    rw [hk] at hv
    cases hv
    cases begins
    cases hr
  · rw [own_concat_self hd]
    exact (h.spared hno).concat hspares

theorem Visit.Moves.job_eq {g g' : Gate} {m m' : Memory} {v' : Visit} (h : v.Moves k g m v' g' m') : v'.job = v.job := by
  cases h <;> rfl

/-- **A call that moves on keeps its account**: its deed spares the store, or is the one that writes. -/
theorem AccountOf.moves {v' : Visit} (h : AccountOf ds s k) (he : e.call? = some k) (hv : v.Sound)
    (known : s.calls k = some (.sent v)) (hk : s'.calls k = some (.sent v'))
    (moves : v.Moves k s.gate s.world.store v' s'.gate s'.world.store) : AccountOf (ds ++ [⟨e, s, s'⟩]) s' k := by
  have hown : own k (ds ++ [⟨e, s, s'⟩]) = own k ds ++ [⟨e, s, s'⟩] := own_concat_self he
  have hjob : v'.job = v.job := moves.job_eq
  rcases moves.store hv with ⟨hspares, hiff⟩ | ⟨hwrites, hno, hnow⟩
  · refine ⟨fun w hw happlied => ?_, fun hnot => ?_⟩ <;> rw [hown]
    · rw [hk] at hw
      cases hw
      rw [hjob]
      exact (h.written v known (hiff.mp happlied)).concat hspares
    · rw [applied_iff hk, hiff, ← applied_iff known] at hnot
      exact (h.spared hnot).concat hspares
  · have hbefore : Spared (own k ds) := h.spared (by rw [applied_iff known]; exact hno)
    refine ⟨fun w hw _ => ?_, fun hnot => absurd hnow (by rwa [applied_iff hk] at hnot)⟩
    rw [hk] at hw
    cases hw
    rw [hown, hjob]
    refine ⟨own k ds, _, [], rfl, hwrites, ?_⟩
    rw [List.append_nil]
    exact hbefore

/-- **One event keeps the account.** -/
theorem Accounted.next (h : Accounted ds s) (hs : s.Sound) (hn : s.next e = some s') :
    Accounted (ds ++ [⟨e, s, s'⟩]) s' := by
  intro n
  cases hs.change hn with
  | outside call calls spared gate => exact (h n).other (by rw [call]; nofun) (by rw [calls])
  | @begins j call unknown c begins calls store gate =>
    by_cases hnj : n = j
    · subst hnj
      have hspares : Deed.Spares ⟨e, s, s'⟩ := ⟨by rw [store], by rw [store]⟩
      exact (h n).begins call hspares unknown begins (by rw [calls, Function.update_self])
    · exact (h n).other (by rw [call]; exact fun hj => hnj (Option.some.inj hj).symm)
        (by rw [calls, Function.update_of_ne hnj])
  | @moves j call v v' known calls moves =>
    by_cases hnj : n = j
    · subst hnj
      exact (h n).moves call (hs.visits n v known) known (by rw [calls, Function.update_self]) moves
    · exact (h n).other (by rw [call]; exact fun hj => hnj (Option.some.inj hj).symm)
        (by rw [calls, Function.update_of_ne hnj])

/-- **A run keeps the account.** -/
theorem Accounted.run (h : Accounted ds s) (hs : s.Sound) (hr : s.run es = some s') :
    Accounted (ds ++ s.deeds es) s' := by
  induction es generalizing s ds with
  | nil =>
    cases hr
    rw [deeds, List.append_nil]
    exact h
  | cons e es ih =>
    obtain ⟨s₁, hn, hr⟩ := Option.bind_eq_some_iff.mp hr
    have htail := ih (h.next hs hn) (hs.next hn) hr
    rw [List.append_assoc] at htail
    rw [deeds, hn]
    exact htail

theorem Fresh.accounted (h : s.Fresh) : Accounted [] s := by
  intro k
  refine ⟨fun v hv => ?_, fun _ _ hd => nomatch hd⟩
  rw [h.calls k] at hv
  cases hv

/-! ## Runs of turns -/

theorem run_cons (h : s.next e = some s₁) (h' : s₁.run es = some s') : s.run (e :: es) = some s' :=
  Option.bind_eq_some_iff.mpr ⟨s₁, h, h'⟩

theorem run_append {es' : List Event} (h : s.run es = some s₁) (h' : s₁.run es' = some s') :
    s.run (es ++ es') = some s' := by
  induction es generalizing s with
  | nil =>
    cases h
    exact h'
  | cons e es ih =>
    obtain ⟨s₂, hn, hr⟩ := Option.bind_eq_some_iff.mp h
    exact run_cons hn (ih hr)

/-- A visit that was told to end ends in its turn. -/
theorem next_told (hk : s.calls k = some (.sent v)) (ht : v.isTold = true) (hgoing : v.place.result? = none) :
    s.next (.turn k) = some (s.cut k v) := by
  simp only [next, visiting, hk, turnOf, hgoing, ht, Option.isSome_none, Bool.false_eq_true, if_false, if_true]

/-- Any other visit goes on. -/
theorem next_untold (hk : s.calls k = some (.sent v)) (ht : v.isTold = false) (hgoing : v.place.result? = none) :
    s.next (.turn k) = s.goOn k v := by
  simp only [next, visiting, hk, turnOf, hgoing, ht, Option.isSome_none, Bool.false_eq_true, if_false]

/-! ## A visit that nobody disturbs -/

/-- The place of a visit that its request had an outcome at. -/
def Place.ofOutcome : Outcome LeaseRecord → Place
  | .answered r => ended (some (.ok r))
  | .failed e => ended (some (.error e))
  | .silent => hanging

/-- **A visit that comes to an open gate** does to the store what the call of its job does. -/
theorem arrive_open (hopen : s.gate.isOpen = true) :
    let served := v.job.call (s.locks v.owner).identity s.world
    s.arrive k v = { s with world := served.1 }.setVisit k (v.goTo (.ofOutcome served.2)) := by
  have hcall : v.job.call (s.locks v.owner).identity s.world =
      Memory.write (v.job.write (s.locks v.owner).identity) s.world := by
    cases v.job <;> rfl
  simp only [hcall, arrive, Memory.write, Memory.transport]
  cases hp : s.world.store.pass with
  | mk m passage =>
    cases passage with
    | stuck => rfl
    | lost => rfl
    | through =>
      have hsame : s.world.store.pass = (s.world.store, .through) := Memory.pass_through (by rw [hp])
      obtain rfl : s.world.store = m := congrArg Prod.fst (hsame.symm.trans hp)
      simp only [hopen, if_true, carryOut, Gate.leave_shut hopen]
      cases (v.job.write (s.locks v.owner).identity s.world.store).2 <;> rfl

/-- **A visit at an open gate needs its own turns only.** -/
theorem turns_alone (hk : s.calls k = some (.sent v)) (ht : v.isTold = false) (hb : v.place.IsBefore)
    (hopen : s.gate.isOpen = true) :
    let served := v.job.call (s.locks v.owner).identity s.world
    ∃ n, s.run (List.replicate n (.turn k)) =
      some ({ s with world := served.1 }.setVisit k (v.goTo (.ofOutcome served.2))) := by
  intro served
  have harrive : s.arrive k v = { s with world := served.1 }.setVisit k (v.goTo (.ofOutcome served.2)) :=
    arrive_open hopen
  have hnext := next_untold hk ht hb.going
  rcases hb with hp | hp
  · by_cases hj : s.jitters = true
    · -- first it pauses; what it was before does not matter any more
      let paused := s.setVisit k (v.goTo .pausing)
      have hpause : s.next (.turn k) = some paused := by
        rw [hnext]
        simp only [goOn, hp, hj, if_true]
        rfl
      have hthen : paused.next (.turn k) = some (paused.arrive k (v.goTo .pausing)) :=
        next_untold (v := v.goTo .pausing) (Function.update_self ..) ht rfl
      have hsame : paused.arrive k (v.goTo .pausing) = s.arrive k v := by
        rw [harrive, arrive_open (s := paused) hopen]
        simp only [paused, setVisit, setCall, Function.update_idem]
        rfl
      refine ⟨2, ?_⟩
      rw [← harrive, ← hsame]
      exact run_cons hpause (run_cons hthen rfl)
    · refine ⟨1, run_cons ?_ rfl⟩
      rw [hnext, ← harrive]
      simp only [goOn, hp, hj, Bool.false_eq_true, if_false]
  · refine ⟨1, run_cons ?_ rfl⟩
    rw [hnext, ← harrive]
    simp only [goOn, hp]

/-! ## The gate without strangers -/

/-- Nobody waits at a clear gate. -/
theorem Sound.not_queueing (hs : s.Sound) (hclear : s.gate = .clear) (hk : s.calls k = some (.sent v)) :
    v.place.isQueueing = false := by
  by_contra hq
  have hqueued := queued_sent hk
  rw [if_pos (Bool.not_eq_false _ ▸ hq)] at hqueued
  have hmem := hs.gate.row.listed k _ hqueued
  rw [hclear] at hmem
  cases hmem

/-- **Only a stranger leaves a gate that is not clear.** -/
theorem Sound.clear_next (hs : s.Sound) (hclear : s.gate = .clear) (he : e ≠ .enter) (hn : s.next e = some s') :
    s'.gate = .clear := by
  cases hs.change hn with
  | outside call calls spared gate =>
    rcases gate with hg | ⟨henter, -⟩ | hg
    · rw [hg, hclear]
    · exact absurd henter he
    · rw [hg, hclear]
      rfl
  | begins call unknown begins calls store gate => rw [gate, hclear]
  | moves call known calls moves =>
    have hplace := hs.not_queueing hclear known
    generalize hg : s'.gate = g' at moves
    generalize s'.world.store = m' at moves
    cases moves with
    | cut told going => rw [if_neg (by rw [hplace]; nofun), hclear]
    | troubled untold before trouble spared => exact hclear
    | queues untold before closed =>
      rw [hclear] at closed
      cases closed
    | writes untold way identity =>
      rcases way with ⟨-, rfl⟩ | ⟨hq, -⟩
      · exact hclear
      · rw [hq] at hplace
        cases hplace
    | told going same =>
      rw [hclear]
      rfl
    | closes honest idle => exact hclear

theorem Sound.clear_run (hs : s.Sound) (hclear : s.gate = .clear) (hes : ∀ e ∈ es, e ≠ .enter)
    (hr : s.run es = some s') : s'.gate = .clear := by
  induction es generalizing s with
  | nil =>
    cases hr
    exact hclear
  | cons e es ih =>
    obtain ⟨s₁, hn, hr⟩ := Option.bind_eq_some_iff.mp hr
    have hne := hes e List.mem_cons_self
    exact ih (hs.next hn) (hs.clear_next hclear hne hn) (fun e' he' => hes e' (List.mem_cons_of_mem _ he')) hr

/-! ## Those who wait -/

/-- Who stands in the row at the gate. -/
def row (s : Loop) : List Nat := s.gate.waiters.map Prod.fst

/-- **The first in the row takes its turn**: it writes, or ends, and the others in the row and everybody else are where they
were. -/
theorem Sound.head_turn (hs : s.Sound) (hopen : s.gate.isShut = false) {rest : List Nat} (hrow : s.row = k :: rest) :
    ∃ s', s.next (.turn k) = some s' ∧ s'.gate.isShut = false ∧ s'.row = rest ∧ s'.locks = s.locks ∧
      (∀ n, n ≠ k → s'.calls n = s.calls n) ∧
      ∀ v, s.calls k = some (.sent v) → v.isTold = false →
        let written := v.job.write (s.locks v.owner).identity s.world.store
        s'.world.store = written.1 ∧ s'.calls k = some (.sent (v.goTo (.ended (some written.2)))) := by
  obtain ⟨⟨j, p⟩, ws, hw, hj, hws⟩ := List.map_eq_cons_iff.mp hrow
  obtain rfl : j = k := hj
  have hdrop := hs.gate.drop_head hw
  have hother : ∀ (v : Visit) (n : Nat), n ≠ j → Function.update s.calls j (some (.sent v)) n = s.calls n :=
    fun v n hn => Function.update_of_ne hn _ _
  rcases hs.gate.head hopen hw with hq | ⟨hq, hwoken⟩
  · obtain ⟨v, hv, hp, ht⟩ := sent_of_queued hq
    refine ⟨_, next_told hv ht (by rw [hp]; rfl), ?_, ?_, rfl, hother _, fun v' hv' ht' => ?_⟩
    · simp only [cut, setVisit, setCall, hp, Place.isQueueing, if_true, Gate.retreat, hopen, Bool.false_eq_true,
        if_false]
      exact hopen
    · simp only [row, cut, setVisit, setCall, hp, Place.isQueueing, if_true, Gate.retreat, hopen, Bool.false_eq_true,
        if_false]
      rw [← hws, ← hdrop]
      exact Gate.map_wakeFirst _
    · rw [hv] at hv'
      cases hv'
      rw [ht] at ht'
      cases ht'
  · obtain ⟨v, hv, hp, ht⟩ := sent_of_queued hq
    have hgo : s.goOn j v = some (s.carryOut j v (s.gate.drop j).shut.leave) := by
      simp only [goOn, hp, hwoken, if_true]
    refine ⟨_, (next_untold hv ht (by rw [hp]; rfl)).trans hgo, rfl, ?_, rfl, hother _, fun v' hv' _ => ?_⟩
    · rw [← hws, ← hdrop]
      exact Gate.map_wakeFirst _
    · rw [hv] at hv'
      cases hv'
      exact ⟨rfl, Function.update_self ..⟩

/-- **The row gets shorter, turn by turn**, while no stranger is inside. -/
theorem Sound.drain {front rest : List Nat} (hs : s.Sound) (hopen : s.gate.isShut = false)
    (hrow : s.row = front ++ rest) :
    ∃ s', s.run (front.map .turn) = some s' ∧ s'.Sound ∧ s'.gate.isShut = false ∧ s'.row = rest ∧ s'.locks = s.locks ∧
      ∀ n, n ∉ front → s'.calls n = s.calls n := by
  induction front generalizing s with
  | nil => exact ⟨s, rfl, hs, hopen, hrow, rfl, fun _ _ => rfl⟩
  | cons j front ih =>
    obtain ⟨s₁, hn, hopen₁, hrow₁, hlocks₁, hother, -⟩ := hs.head_turn hopen hrow
    obtain ⟨s', hr, hs', hopen', hrow', hlocks', hrest⟩ := ih (hs.next hn) hopen₁ hrow₁
    refine ⟨s', run_cons hn hr, hs', hopen', hrow', hlocks'.trans hlocks₁, fun n hnot => ?_⟩
    rw [List.mem_cons, not_or] at hnot
    rw [hrest n hnot.2, hother n hnot.1]

/-! ## Calls that come to be served -/

/-- **A call is served** from one loop to another: the store does what the call of its job does, or, if it came to the gate
before and had to wait there, what its write does. -/
def Served (k : Nat) (v : Visit) (s s' : Loop) : Prop :=
  (v.place.IsBefore ∧ ∃ o, v.job.call (s.locks v.owner).identity s.world = (s'.world, o) ∧
    s'.calls k = some (.sent (v.goTo (.ofOutcome o)))) ∨
  (v.place = .queueing ∧ ∃ r, v.job.write (s.locks v.owner).identity s.world.store = (s'.world.store, r) ∧
    s'.calls k = some (.sent (v.goTo (.ended (some r)))))

/-- By the turns of visits alone it comes that a call is served. -/
def Reaches (k : Nat) (v : Visit) (s : Loop) : Prop :=
  ∃ (turns : List Nat) (n : Nat) (s₁ s' : Loop), s.run (turns.map .turn) = some s₁ ∧
    s₁.run (List.replicate n (.turn k)) = some s' ∧ Served k v s₁ s'

/-- **Nothing that others left behind keeps a call from being served.** -/
theorem Sound.reaches (hs : s.Sound) (hopen : s.gate.isShut = false) (hk : s.calls k = some (.sent v))
    (ht : v.isTold = false) (hway : v.place.OnTheWay) : Reaches k v s := by
  rcases hway with hb | hp
  · -- everybody who waits goes first, and then the gate is open
    have hrow : s.row = s.row ++ [] := (List.append_nil _).symm
    obtain ⟨s₁, hr, -, hopen₁, hrow₁, -, hcalls⟩ := hs.drain hopen hrow
    have hnot : k ∉ s.row := by
      intro hmem
      obtain ⟨⟨j, p⟩, hw, rfl⟩ := List.mem_map.mp hmem
      obtain ⟨told, hq, -⟩ := hs.gate.row.fits j p hw
      rw [queued_sent hk] at hq
      rcases hb with hp | hp <;> rw [hp] at hq <;> cases hq
    have hgate : s₁.gate.isOpen = true := by
      have hnil : s₁.gate.waiters = [] := List.map_eq_nil_iff.mp hrow₁
      simp [Gate.isOpen, hopen₁, hnil]
    obtain ⟨n, hn⟩ := turns_alone ((hcalls k hnot).trans hk) ht hb hgate
    exact ⟨_, n, s₁, _, hr, hn, Or.inl ⟨hb, _, rfl, Function.update_self ..⟩⟩
  · -- those who came before go first, and then it is the first
    have hqueued : s.queued k = some v.isTold := by
      rw [queued_sent hk, hp]
      rfl
    obtain ⟨front, back, hrow⟩ := List.append_of_mem (hs.gate.row.listed k _ hqueued)
    obtain ⟨s₁, hr, hs₁, hopen₁, hrow₁, hlocks, hcalls⟩ := hs.drain hopen hrow
    have hnodup := hs.gate.row.nodup
    rw [hrow, List.nodup_append'] at hnodup
    have hnot : k ∉ front := fun hmem => hnodup.2.2 hmem List.mem_cons_self
    obtain ⟨s', hn, -, -, -, -, hwrite⟩ := hs₁.head_turn hopen₁ hrow₁
    obtain ⟨hstore, hself⟩ := hwrite v ((hcalls k hnot).trans hk) ht
    exact ⟨front, 1, s₁, s', hr, run_cons hn rfl, Or.inr ⟨hp, _, Prod.ext hstore.symm rfl, hself⟩⟩

/-! ## Calls that nobody disturbs -/

/-- A caller goes on with what the store said. -/
theorem next_resume (hk : s.calls k = some (.sent v)) (hw : v.caller = .waiting) {r : Except Error LeaseRecord}
    (hp : v.place = .ended (some r)) : s.next (.resume k) = some (s.settle k v (.ofExcept r)) := by
  simp only [next, visiting, hk, resumeOf, hw, hp, Place.result?, close]

/-- **A visit that hangs** ends where it hangs once its time has run out, and its caller goes on without an outcome. -/
theorem times_out (hk : s.calls k = some (.sent v)) (hw : v.caller = .waiting) (hp : v.place = .hanging) :
    ∃ (s₁ : Loop) (v₁ : Visit),
      s.run [.interrupt k .timeout, .turn k, .resume k] = some (s₁.settle k v₁ .silent) ∧ s₁.world = s.world ∧
      s₁.locks = s.locks ∧ s₁.leases = s.leases ∧ v₁.job = v.job ∧ v₁.owner = v.owner := by
  let told := v.tell (.stopping .timeout)
  let s₁ := s.tell k v (.stopping .timeout)
  have hcut : (s₁.cut k told).calls k = some (.sent (told.goTo (.ended none))) := Function.update_self ..
  have htold : s.next (.interrupt k .timeout) = some s₁ := by
    simp only [next, visiting, hk, interruptOf, hw, hp, Place.result?]
    rfl
  have hturn : s₁.next (.turn k) = some (s₁.cut k told) :=
    next_told (v := told) (Function.update_self ..) rfl (by simp only [told, Visit.tell, hp, Place.result?])
  have hresume : (s₁.cut k told).next (.resume k) =
      some ((s₁.cut k told).settle k (told.goTo (.ended none)) .silent) := by
    simp only [next, visiting, hcut]
    rfl
  exact ⟨_, _, run_cons htold (run_cons hturn (run_cons hresume rfl)), rfl, rfl, rfl, rfl, rfl⟩

/-- **A call whose steps follow each other is settled** with the outcome that its job has at once; if there is none, its time
runs out. -/
theorem settles_alone (hk : s.calls k = some (.sent v)) (ht : v.isTold = false) (hb : v.place.IsBefore)
    (hw : v.caller = .waiting) (hopen : s.gate.isOpen = true) {w : World Memory} {o : Outcome LeaseRecord}
    (hcall : v.job.call (s.locks v.owner).identity s.world = (w, o)) :
    ∃ (es : List Event) (s₁ : Loop) (v₁ : Visit), (∀ e ∈ es, e.call? = some k) ∧
      s.run es = some (s₁.settle k v₁ o) ∧ s₁.world = w ∧ s₁.locks = s.locks ∧ s₁.leases = s.leases ∧
      v₁.job = v.job ∧ v₁.owner = v.owner := by
  obtain ⟨n, hturns⟩ := turns_alone hk ht hb hopen
  rw [hcall] at hturns
  have hself : (setVisit k (v.goTo (.ofOutcome o)) { s with world := w }).calls k =
      some (.sent (v.goTo (.ofOutcome o))) := Function.update_self ..
  have hown : ∀ es : List Event, (∀ e ∈ es, e.call? = some k) →
      ∀ e ∈ List.replicate n (.turn k) ++ es, e.call? = some k := by
    intro es hes e he
    rcases List.mem_append.mp he with he | he
    · rw [List.eq_of_mem_replicate he]
      rfl
    · exact hes e he
  have hresumes : ∀ e ∈ [Event.resume k], e.call? = some k := by
    intro e he
    rw [List.mem_singleton.mp he]
    rfl
  cases o with
  | answered r =>
    exact ⟨_, _, _, hown _ hresumes, run_append hturns (run_cons (next_resume hself hw rfl) rfl),
      rfl, rfl, rfl, rfl, rfl⟩
  | failed e =>
    exact ⟨_, _, _, hown _ hresumes, run_append hturns (run_cons (next_resume hself hw rfl) rfl),
      rfl, rfl, rfl, rfl, rfl⟩
  | silent =>
    obtain ⟨s₁, v₁, hr, hworld, hlocks, hleases, hjob, howner⟩ := times_out hself hw rfl
    refine ⟨_, s₁, v₁, hown _ fun e he => ?_, run_append hturns hr, hworld, hlocks, hleases, hjob, howner⟩
    simp only [List.mem_cons, List.not_mem_nil, or_false] at he
    rcases he with rfl | rfl | rfl <;> rfl

/-- **An acquire that nobody disturbs is the one that its lock makes at once.** -/
theorem tryAcquire_alone {claim : Claim} (hk : s.calls k = some (.sent v)) (hjob : v.job = .acquire claim)
    (ht : v.isTold = false) (hb : v.place.IsBefore) (hw : v.caller = .waiting) (hopen : s.gate.isOpen = true) :
    let (world, lock, result) := (s.locks v.owner).tryAcquire Memory.store claim s.world
    ∃ (es : List Event) (s' : Loop), (∀ e ∈ es, e.call? = some k) ∧ s.run es = some s' ∧ s'.world = world ∧
      s'.locks v.owner = lock ∧ ∃ v', s'.calls k = some (.sent v') ∧ v'.caller = .returned (.acquired result) := by
  cases hcall : Memory.store.tryUpdate (claim.request (s.locks v.owner).identity) s.world with
  | mk w o =>
    have hserved : v.job.call (s.locks v.owner).identity s.world = (w, o) := by
      rw [hjob]
      exact hcall
    obtain ⟨es, s₁, v₁, hes, hr, hworld, hlocks, -, hjob₁, howner⟩ := settles_alone hk ht hb hw hopen hserved
    simp only [Lock.tryAcquire, hcall]
    rw [hjob] at hjob₁
    refine ⟨es, _, hes, hr, ?_, ?_, ?_⟩
    · simp only [settle, hjob₁, setVisit, setCall, world_keep, setLock, hworld, hlocks, howner]
    · simp only [settle, hjob₁, setVisit, setCall, locks_keep, setLock, hworld, hlocks, howner, Function.update_self]
    · simp only [settle, hjob₁, setVisit, setCall, Function.update_self, hworld, hlocks, howner]
      exact ⟨_, rfl, rfl⟩

/-- **A release that nobody disturbs is the one that its lock makes at once.** -/
theorem release_alone {number : Nat} {lease : Lease} {reading : GivenTime} {now : Instant}
    (hk : s.calls k = some (.sent v)) (hjob : v.job = .release number lease (lease.releaseUntil now))
    (hnow : reading.truncate = .ok now) (hheld : s.leases number = some ⟨lease, v.owner⟩)
    (hunreleased : lease.released = false) (ht : v.isTold = false) (hb : v.place.IsBefore) (hw : v.caller = .waiting)
    (hopen : s.gate.isOpen = true) :
    let (world, lock, after, result) := (s.locks v.owner).release Memory.store lease reading s.world
    ∃ (es : List Event) (s' : Loop), (∀ e ∈ es, e.call? = some k) ∧ s.run es = some s' ∧ s'.world = world ∧
      s'.locks v.owner = lock ∧ s'.leases number = some ⟨after, v.owner⟩ ∧
      ∃ v' outcome, s'.calls k = some (.sent v') ∧ v'.caller = .returned (.released outcome result) := by
  cases hcall : Memory.store.update (lease.releaseRequest (lease.releaseUntil now)) s.world with
  | mk w o =>
    have hserved : v.job.call (s.locks v.owner).identity s.world = (w, o) := by
      rw [hjob]
      exact hcall
    obtain ⟨es, s₁, v₁, hes, hr, hworld, hlocks, hleases, hjob₁, howner⟩ := settles_alone hk ht hb hw hopen hserved
    simp only [Lock.release, hunreleased, Bool.false_eq_true, if_false, hnow, hcall]
    rw [hjob] at hjob₁
    have hlease : s₁.leaseNow number lease = lease := by
      simp only [leaseNow, hleases, hheld, Option.map_some, Option.getD_some]
    refine ⟨es, _, hes, hr, ?_, ?_, ?_, ?_⟩
    · simp only [settle, hjob₁, hlease, setVisit, setCall, setLease, setLock, hworld, hlocks, howner]
    · simp only [settle, hjob₁, hlease, setVisit, setCall, setLease, setLock, hworld, hlocks, howner,
        Function.update_self]
    · simp only [settle, hjob₁, hlease, setVisit, setCall, setLease, setLock, hworld, hlocks, howner,
        Function.update_self]
    · simp only [settle, hjob₁, hlease, setVisit, setCall, setLease, setLock, hworld, hlocks, howner,
        Function.update_self]
      exact ⟨_, _, rfl, rfl⟩

/-! ## No phantom writes -/

/-- **No phantom writes.**  However calls of any number of locks go on side by side, with any trouble ahead, and wherever
timeouts, cancellations and strangers at the gate come between their steps:

1. a call that is over has written exactly if it tells so, by a lease or by the outcome `released`, and then one deed of its
   own writes what it asked for, and the others spare the store; if it tells anything else, all its deeds spare the store,
   those included that its visit still does when the caller is gone;
2. a call that ended before it went out tells of no write, and spares the store;
3. while no stranger is inside the gate, any call on its way, begun before or after such an ending, comes to be served by the
   turns of visits alone;
4. and if no stranger ever came, the gate is free, and a call needs its own turns only. -/
theorem no_phantom_writes (h₀ : s.Fresh) (h : s.run es = some s') :
    (∀ k v ending, s'.calls k = some (.sent v) → v.caller = .returned ending →
      (ending.Wrote ↔ WritesOnce v.job (own k (s.deeds es))) ∧ (¬ending.Wrote → Spared (own k (s.deeds es)))) ∧
    (∀ k ending, s'.calls k = some (.unsent ending) → ¬ending.Wrote ∧ Spared (own k (s.deeds es))) ∧
    (s'.gate.isShut = false → ∀ k v, s'.calls k = some (.sent v) → v.isTold = false → v.place.OnTheWay →
      Reaches k v s') ∧
    ((∀ e ∈ es, e ≠ .enter) → s'.gate = .clear ∧
      ∀ k v, s'.calls k = some (.sent v) → v.isTold = false → v.place.IsBefore →
        ∃ n s₁, s'.run (List.replicate n (.turn k)) = some s₁ ∧ Served k v s' s₁) := by
  have hs : s'.Sound := h₀.sound.run h
  have account : Accounted (s.deeds es) s' := h₀.accounted.run h₀.sound h
  refine ⟨fun k v ending hk hreturned => ?_, fun k ending hk => ?_, ?_, ?_⟩
  · have hwrote : ending.Wrote ↔ v.Applied := ((hs.visits k v hk).returned ending hreturned).1
    have hspared : ¬ending.Wrote → Spared (own k (s.deeds es)) := by
      rw [hwrote, ← applied_iff hk]
      exact (account k).spared
    refine ⟨⟨fun hw => (account k).written v hk (hwrote.mp hw), fun honce => ?_⟩, hspared⟩
    by_contra hno
    exact honce.not_spared (hspared hno)
  · have hno : ¬s'.Applied k := not_applied fun v hv => by
      rw [hk] at hv
      cases hv
    exact ⟨hs.unsent k ending hk, (account k).spared hno⟩
  · exact fun hopen k v hk ht hway => hs.reaches hopen hk ht hway
  · intro hes
    have hclear : s'.gate = .clear := h₀.sound.clear_run h₀.gate hes h
    refine ⟨hclear, fun k v hk ht hb => ?_⟩
    obtain ⟨n, hn⟩ := turns_alone hk ht hb (by rw [hclear]; rfl)
    exact ⟨n, _, hn, Or.inl ⟨hb, _, rfl, Function.update_self ..⟩⟩

end

/-! ## A run with everything in the way

The first call hangs, and its time runs out.  The second finds a stranger at the gate, is woken when the stranger leaves,
writes, and is cancelled before its caller has heard of it.  The third asks for no name.  Then the lease of the second is
released, and one more call has just begun. -/

/-- A loop at its start, over an empty store that jitters. -/
def atStart : Loop where
  world := ⟨.empty, .empty⟩
  jitters := true
  gate := .clear
  locks n := ⟨.text ("node-" ++ toString n), .int 5, .zero⟩
  leases _ := none
  calls _ := none

/-- Asks for a minute of the lock of a name. -/
def askMinute (k : Nat) (name : String) : Event :=
  .tryAcquire k k (.moment (later 5000)) (.text name) (.moment (later 65000)) .none

def beset : List Event :=
  [.trouble (.hanging 1), askMinute 0 "job", .turn 0, .turn 0, askMinute 1 "job", .turn 1, .enter, .turn 1,
   .interrupt 0 .timeout, .turn 0, .resume 0, .exit, .turn 1, .interrupt 1 .cancellation, askMinute 2 "",
   .release 4 1 (.moment (later 15000)), .turn 4, .turn 4, .resume 4, askMinute 3 "job"]

theorem atStart_fresh : atStart.Fresh := ⟨fun _ => rfl, fun _ => rfl, rfl⟩

/-- The loop that the run comes to. -/
def besetEnd : Loop := (atStart.run beset).get rfl

/-- The loop of a call that has just begun. -/
def quietEnd : Loop := (atStart.run [askMinute 0 "job"]).get rfl

/-- In the run, the call that hung and the call without a name have written nothing, the call that was cancelled too late has
its lease and has written once, its release has written once, and the last call comes to be served; without a stranger it
needs its own turns only. -/
theorem beset_writes_once :
    (∃ v₀, besetEnd.calls 0 = some (.sent v₀) ∧ v₀.caller = .returned (.acquired (.ok none)) ∧
      Spared (own 0 (atStart.deeds beset))) ∧
    (∃ v₁ lease, besetEnd.calls 1 = some (.sent v₁) ∧ v₁.caller = .returned (.acquired (.ok (some lease))) ∧
      WritesOnce v₁.job (own 1 (atStart.deeds beset))) ∧
    Spared (own 2 (atStart.deeds beset)) ∧
    (∃ v₄, besetEnd.calls 4 = some (.sent v₄) ∧ v₄.caller = .returned (.released (some .released) (.ok ())) ∧
      WritesOnce v₄.job (own 4 (atStart.deeds beset))) ∧
    (∃ v₃, besetEnd.calls 3 = some (.sent v₃) ∧ Reaches 3 v₃ besetEnd) ∧
    (∃ v n s₁, quietEnd.calls 0 = some (.sent v) ∧ quietEnd.run (List.replicate n (.turn 0)) = some s₁ ∧
      Served 0 v quietEnd s₁) := by
  have hbeset : atStart.run beset = some besetEnd := rfl
  have hasked : atStart.run [askMinute 0 "job"] = some quietEnd := rfl
  obtain ⟨hreturned, hunsent, hreaches, -⟩ := no_phantom_writes atStart_fresh hbeset
  obtain ⟨-, -, -, hquiet⟩ := no_phantom_writes atStart_fresh hasked
  refine ⟨⟨_, rfl, rfl, (hreturned 0 _ _ rfl rfl).2 id⟩, ⟨_, _, rfl, rfl, (hreturned 1 _ _ rfl rfl).1.mp trivial⟩,
    (hunsent 2 _ rfl).2, ⟨_, rfl, rfl, (hreturned 4 _ _ rfl rfl).1.mp trivial⟩,
    ⟨_, rfl, hreaches rfl 3 _ rfl rfl (Or.inl (Or.inl rfl))⟩, ?_⟩
  have hcalm : ∀ e ∈ [askMinute 0 "job"], e ≠ .enter := by
    intro e he henter
    rw [List.mem_singleton.mp he] at henter
    cases henter
  obtain ⟨-, hserved⟩ := hquiet hcalm
  obtain ⟨n, s₁, hrun, hs₁⟩ := hserved 0 _ rfl rfl (Or.inl rfl)
  exact ⟨_, n, s₁, rfl, hrun, hs₁⟩

end Loop
end Leasehold
