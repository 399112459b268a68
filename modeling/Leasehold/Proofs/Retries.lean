/-
  Giving a lease back again and again.

  A release that failed may be tried again, as often as its holder likes, and between two calls anything may happen: the clock
  moves, others use the store, the lock serves other leases (`Interlude`).  What decides is the first call whose outcome
  SETTLES the matter, since the store applied it or since its condition does not hold.

  1. **`Lease.releaseCall`** — a call as it is seen: what the store is asked for in it (on tape, which changes nothing), what the
     caller is told, and the lease afterwards;
  2. **`Tries`, `Idle`** — a call for a lease that is still to be given back asks once, with the deadline of the moment at which
     it is made; a call for a lease that is done with does nothing (`releaseCall_tries`, `releaseCall_idle`);
  3. **`releaseCall_lease`** — the one step: a call makes the lease done if it settles the matter, and leaves it otherwise;
  4. **`releaseCalls_sequence`** — by induction over the calls: up to and including the first that settles the matter they
     try, and after it they are idle.
-/
import Leasehold.Proofs.Execution
namespace Leasehold

/-! ## Outcomes -/

/-- **An outcome that settles a release**: the store applied it, or its condition does not hold. -/
def Outcome.Settles (o : Outcome LeaseRecord) : Prop :=
  (∃ r, o = .answered r) ∨ ∃ e, o = .failed e ∧ e.isA .conditionNotMet = true

/-- An outcome counts as a failure just if it does not settle the release. -/
theorem Outcome.settles_iff {o : Outcome LeaseRecord} {x : ReleaseOutcome} (h : ReleaseOutcome.of? o = some x) :
    o.Settles ↔ x ≠ .failed := by
  constructor
  · intro hsettles hx
    rw [hx] at h
    exact ReleaseOutcome.of?_kept hsettles h
  · intro hx
    refine Classical.byContradiction fun hnot => hx (ReleaseOutcome.of?_failed ?_ h)
    cases o with
    | answered r => exact absurd (Or.inl ⟨r, rfl⟩) hnot
    | silent => exact Or.inl rfl
    | failed e => exact Or.inr ⟨e, rfl, Bool.eq_false_iff.mpr fun hunmet => hnot (Or.inr ⟨e, rfl, hunmet⟩)⟩

/-- **A release that failed tells why**: the cause is the failure of the store, or that the time ran out. -/
theorem Lock.settleRelease_cause (lock : Lock) (l : Lease) (u : Instant) {o : Outcome LeaseRecord}
    (h : ReleaseOutcome.of? o = some .failed) (ledger : Ledger) :
    ∃ cause, o.orElse .timedOut = .error cause ∧
      (lock.settleRelease l u o ledger).2.2.2 = .error (.releaseFailed l.name lock.timeout cause) := by
  cases o with
  | answered r => cases h
  | silent => exact ⟨.timedOut, rfl, rfl⟩
  | failed e =>
    refine ⟨e, rfl, ?_⟩
    simp only [ReleaseOutcome.of?] at h
    simp only [settleRelease]
    by_cases hunmet : e.isA .conditionNotMet = true
    · rw [if_pos hunmet] at h
      cases h
    rw [if_neg hunmet] at h ⊢
    by_cases htimeout : e.isA .timeout = true
    · rw [if_pos htimeout]
      rfl
    rw [if_neg htimeout] at h ⊢
    by_cases htransport : e.isA .transport = true
    · rw [if_pos htransport]
      rfl
    · rw [if_neg htransport] at h
      cases h

namespace Lease

@[simp] theorem done_done (l : Lease) : l.done.done = l.done := rfl

@[simp] theorem done_released (l : Lease) : l.done.released = true := rfl

theorem done_of_released {l : Lease} (h : l.released = true) : l.done = l := by
  cases l
  cases h
  rfl

end Lease

/-! ## Calls -/

variable {σ : Type}

/-- **A call that gives a lease back**, as it is seen: the scene that it finds and the one that it leaves, what is done in it,
what the caller is told, and the lease afterwards. -/
structure ReleaseCall (σ : Type) where
  found : Scene σ
  deeds : List Deed
  result : Except Error Unit
  left : Scene σ
  lease : Lease

/-- What happens before a call: anything may. -/
abbrev Interlude (σ : Type) := Scene σ → Scene σ

namespace Lease

/-- The call for a lease in a scene. -/
def releaseCall (S : LeaseStore σ) (lease : Lease) (s : Scene σ) : ReleaseCall σ :=
  let (w, lock, lease, result) := s.lock.release S.taped lease s.clock (s.world.onTape [])
  { found := s, deeds := w.store.tape, result, left := ⟨w.plain, lock, s.clock⟩, lease }

/-- **One call after another**, each after its interlude. -/
def releaseCalls (S : LeaseStore σ) (lease : Lease) (s : Scene σ) : List (Interlude σ) → List (ReleaseCall σ)
  | [] => []
  | interlude :: rest =>
    let call := lease.releaseCall S (interlude s)
    call :: call.lease.releaseCalls S call.left rest

end Lease

namespace ReleaseCall

/-- **A call that settles the matter**: the store is asked in it, and its outcome does. -/
def Settled (c : ReleaseCall σ) : Prop := ∃ request o, .gaveBack request o ∈ c.deeds ∧ o.Settles

/-- **A call that tries to give a lease back.**  At a moment that its clock shows it asks the store once: for the name of the
lease, until the moment or the floor of the lease, and on the condition that the record still ends at the ceiling of the lease.
If that settles the matter it is fine and the lease is released; if not, the caller is told the cause and nothing of the lease
changes.  A clock that shows no moment ends the call before anything is done. -/
structure Tries (lease : Lease) (c : ReleaseCall σ) : Prop where
  asks : ∀ now, c.found.clock.truncate = .ok now → ∃ u o,
    c.deeds = [.gaveBack ⟨.text lease.name, .moment u, .moment lease.atMost⟩ o] ∧
      u.micros = max now.micros lease.atLeast.micros
  settled : c.Settled → c.result = .ok () ∧ c.lease = lease.done
  failed : ∀ request o, .gaveBack request o ∈ c.deeds → ¬o.Settles → c.lease = lease ∧
    ∃ cause, o.orElse .timedOut = .error cause ∧
      c.result = .error (.releaseFailed lease.name c.found.lock.timeout cause)
  unread : ∀ e, c.found.clock.truncate = .error e →
    c.deeds = [] ∧ c.result = .error e ∧ c.lease = lease ∧ c.left = c.found

/-- **A call that does nothing**: the store is not asked, no count of the lock or of the metrics changes, and all is well. -/
structure Idle (lease : Lease) (c : ReleaseCall σ) : Prop where
  deeds : c.deeds = []
  result : c.result = .ok ()
  lease : c.lease = lease.done
  lock : c.left.lock = c.found.lock
  metrics : c.left.world.ledger.metrics = c.found.world.ledger.metrics
  store : c.left.world.store = c.found.world.store

theorem Idle.not_settled {lease : Lease} {c : ReleaseCall σ} (h : c.Idle lease) : ¬c.Settled := by
  rintro ⟨request, o, hmem, -⟩
  rw [h.deeds] at hmem
  cases hmem

end ReleaseCall

namespace Lease

/-- **The tape changes nothing** of a call: it is the release of the lock. -/
theorem releaseCall_untaped (S : LeaseStore σ) (lease : Lease) (s : Scene σ) :
    ((lease.releaseCall S s).left.world, (lease.releaseCall S s).left.lock, (lease.releaseCall S s).lease,
      (lease.releaseCall S s).result) = s.lock.release S lease s.clock s.world := by
  simp only [releaseCall, Lock.release]
  by_cases hdone : lease.released = true
  · simp only [hdone, if_true]
    rfl
  · simp only [hdone, Bool.false_eq_true, if_false]
    cases s.clock.truncate <;> rfl

section Step

variable (S : LeaseStore σ) (lease : Lease) (s : Scene σ)

/-- A call for a lease that is done with does nothing. -/
theorem releaseCall_idle (hdone : lease.released = true) : (lease.releaseCall S s).Idle lease := by
  have hcall : lease.releaseCall S s =
      ⟨s, [], .ok (), ⟨s.world.note .warning lease.doneText, s.lock, s.clock⟩, lease⟩ := by
    simp only [releaseCall, Lock.release, hdone, if_true]
    rfl
  rw [hcall]
  exact ⟨rfl, rfl, (done_of_released hdone).symm, rfl, rfl, rfl⟩

variable {S lease s}

/-- A call at a moment that the clock shows. -/
theorem releaseCall_at (hheld : lease.released = false) {now : Instant} (hnow : s.clock.truncate = .ok now) :
    let u := lease.releaseUntil now
    let answer := S.update (lease.releaseRequest u) s.world
    let verdict := s.lock.settleRelease lease u answer.2 answer.1.ledger
    (lease.releaseCall S s).deeds = [.gaveBack (lease.releaseRequest u) answer.2] ∧
      (lease.releaseCall S s).result = verdict.2.2.2 ∧ (lease.releaseCall S s).lease = verdict.2.1 := by
  simp only [releaseCall, Lock.release, hheld, hnow, Bool.false_eq_true, if_false]
  exact ⟨rfl, rfl, rfl⟩

/-- A call at a time that is no moment. -/
theorem releaseCall_unread (hheld : lease.released = false) {e : Error} (he : s.clock.truncate = .error e) :
    lease.releaseCall S s = ⟨s, [], .error e, s, lease⟩ := by
  simp only [releaseCall, Lock.release, hheld, he, Bool.false_eq_true, if_false]
  rfl

/-- **A call for a lease that is still to be given back tries that.** -/
theorem releaseCall_tries (hS : ∀ u w, (S.update (lease.releaseRequest u) w).2.IsContractual)
    (hheld : lease.released = false) : (lease.releaseCall S s).Tries lease := by
  cases hclock : s.clock.truncate with
  | error e =>
    rw [releaseCall_unread hheld hclock]
    refine ⟨fun now hnow => ?_, ?_, nofun, fun e' he' => ?_⟩
    · rw [hclock] at hnow
      cases hnow
    · rintro ⟨request, o, hmem, -⟩
      cases hmem
    · rw [hclock] at he'
      cases he'
      exact ⟨rfl, rfl, rfl, rfl⟩
  | ok now =>
    obtain ⟨hdeeds, hresult, hlease⟩ := releaseCall_at (S := S) hheld hclock
    obtain ⟨x, hx⟩ := ReleaseOutcome.of?_contractual (hS (lease.releaseUntil now) s.world)
    obtain ⟨-, -, hafter, htold⟩ := s.lock.settleRelease_verdict lease (lease.releaseUntil now) hx
      (S.update (lease.releaseRequest (lease.releaseUntil now)) s.world).1.ledger
    have hmine : ∀ {request o}, .gaveBack request o ∈ (lease.releaseCall S s).deeds →
        o = (S.update (lease.releaseRequest (lease.releaseUntil now)) s.world).2 := by
      intro request o hmem
      rw [hdeeds] at hmem
      cases List.mem_singleton.mp hmem
      rfl
    refine ⟨fun now' hnow' => ?_, ?_, fun request o hmem hnot => ?_, fun e he => ?_⟩
    · obtain rfl : now = now' := Except.ok.inj (hclock.symm.trans hnow')
      exact ⟨_, _, hdeeds, lease.releaseUntil_micros now⟩
    · rintro ⟨request, o, hmem, hsettles⟩
      have hkept : x ≠ .failed := (Outcome.settles_iff hx).mp (hmine hmem ▸ hsettles)
      rw [hresult, hlease, hafter]
      rw [if_neg hkept] at htold ⊢
      exact ⟨htold, rfl⟩
    · obtain rfl : x = .failed :=
        Classical.byContradiction fun hkept => hnot (hmine hmem ▸ (Outcome.settles_iff hx).mpr hkept)
      obtain ⟨cause, hcause, herror⟩ := s.lock.settleRelease_cause lease (lease.releaseUntil now) hx
        (S.update (lease.releaseRequest (lease.releaseUntil now)) s.world).1.ledger
      rw [hresult, hlease, hafter, hmine hmem]
      exact ⟨rfl, cause, hcause, herror⟩
    · have hne : (lease.releaseCall S s).found.clock.truncate = .ok now := hclock
      rw [hne] at he
      cases he

/-- **What one call makes of the lease**: it is done with if it was before, or if the call settles the matter. -/
theorem releaseCall_lease (hS : ∀ u w, (S.update (lease.releaseRequest u) w).2.IsContractual) :
    ((lease.released = true ∨ (lease.releaseCall S s).Settled) → (lease.releaseCall S s).lease = lease.done) ∧
      (¬(lease.released = true ∨ (lease.releaseCall S s).Settled) → (lease.releaseCall S s).lease = lease) := by
  by_cases hdone : lease.released = true
  · have hidle := releaseCall_idle S lease s hdone
    exact ⟨fun _ => hidle.lease, fun hnot => absurd (Or.inl hdone) hnot⟩
  have hheld : lease.released = false := by simpa using hdone
  have htries := releaseCall_tries (s := s) hS hheld
  refine ⟨fun h => (htries.settled (h.resolve_left hdone)).2, fun hnot => ?_⟩
  cases hclock : s.clock.truncate with
  | error e => exact (htries.unread e hclock).2.2.1
  | ok now =>
    obtain ⟨u, o, hdeeds, -⟩ := htries.asks now hclock
    have hmem : .gaveBack ⟨.text lease.name, .moment u, .moment lease.atMost⟩ o ∈ (lease.releaseCall S s).deeds := by
      rw [hdeeds]
      exact List.mem_singleton_self _
    exact (htries.failed _ o hmem fun hsettles => hnot (Or.inr ⟨_, o, hmem, hsettles⟩)).1

end Step

/-! ## Sequences of calls -/

/-- **Calls that give a lease back, one after another.**  Over any store that fails, if it does, as the contract allows, and
whatever happens between the calls: each call up to and including the first that settles the matter tries to give the lease
back, and every later one does nothing; on a lease that is done with already, so does every call. -/
theorem releaseCalls_sequence {S : LeaseStore σ} (lease : Lease)
    (hS : ∀ u w, (S.update (lease.releaseRequest u) w).2.IsContractual) (s : Scene σ) (interludes : List (Interlude σ))
    {before after : List (ReleaseCall σ)} {c : ReleaseCall σ}
    (h : lease.releaseCalls S s interludes = before ++ c :: after) :
    (¬(lease.released = true ∨ ∃ b ∈ before, b.Settled) → c.Tries lease) ∧
      ((lease.released = true ∨ ∃ b ∈ before, b.Settled) → c.Idle lease) := by
  induction before generalizing lease s interludes with
  | nil =>
    cases interludes with
    | nil => cases h
    | cons interlude rest =>
      obtain ⟨rfl, -⟩ := List.cons.inj h
      refine ⟨fun hnot => ?_, fun hover => ?_⟩
      · have hheld : lease.released = false := by simpa using fun hdone => hnot (Or.inl hdone)
        exact releaseCall_tries hS hheld
      · have hdone : lease.released = true := hover.resolve_right (by simp)
        exact releaseCall_idle S lease _ hdone
  | cons b bs ih =>
    cases interludes with
    | nil => cases h
    | cons interlude rest =>
      obtain ⟨hhead, htail⟩ := List.cons.inj h
      obtain ⟨hsettled, hleft⟩ := releaseCall_lease (s := interlude s) hS
      rw [hhead] at hsettled hleft
      replace htail : b.lease.releaseCalls S b.left rest = bs ++ c :: after := hhead ▸ htail
      have hsplit : (lease.released = true ∨ ∃ b' ∈ b :: bs, b'.Settled) ↔
          (lease.released = true ∨ b.Settled) ∨ ∃ b' ∈ bs, b'.Settled := by
        simp only [List.mem_cons, exists_eq_or_imp, or_assoc]
      rw [hsplit]
      by_cases hover : lease.released = true ∨ b.Settled
      · -- the lease is done with by now, and all that follows finds it so
        rw [hsettled hover] at htail
        have hidle := (ih lease.done hS b.left rest htail).2 (Or.inl rfl)
        refine ⟨fun hnot => absurd (Or.inl hover) hnot, fun _ => ?_⟩
        exact ⟨hidle.deeds, hidle.result, hidle.lease, hidle.lock, hidle.metrics, hidle.store⟩
      · rw [hleft hover] at htail
        obtain ⟨htries, hidle⟩ := ih lease hS b.left rest htail
        refine ⟨fun hnot => htries fun hlater => hnot ?_, fun hor => hidle ?_⟩
        · exact hlater.elim (fun hdone => Or.inl (Or.inl hdone)) Or.inr
        · exact hor.elim (fun hnow => absurd hnow hover) Or.inr

/-! ## A release that is tried three times -/

/-- A lease on a name until a minute after the start, to be kept for a second. -/
def minuteLease : Lease := ⟨"nightly", later 78000, later 19000, later 18000, .text "node-a", false⟩

/-- The store has the record of that lease, and its next request fails. -/
def troubledScene : Scene Memory where
  world := ⟨(Memory.empty.put "nightly" ⟨.text "nightly", later 78000, some (later 18000), .text "node-a"⟩).failNext 1, .empty⟩
  lock := ⟨.text "node-a", .int 5, .zero⟩
  clock := .moment (later 18000)

/-- Nothing but the clock goes on. -/
def untilClock (millis : Nat) (h : 63839664000000000 + millis * 1000 < calendarMicros := by decide) : Interlude Memory :=
  fun s => { s with clock := .moment (later millis h) }

/-- The first call fails, before the floor of the lease; the second is applied, with the deadline of its own moment, behind the
floor; and the third does nothing. -/
theorem releaseCalls_three : ∃ first second third o o',
    minuteLease.releaseCalls Memory.store troubledScene [untilClock 18500, untilClock 22000, untilClock 23000] =
      [first, second, third] ∧
    first.deeds = [.gaveBack ⟨.text "nightly", .moment (later 19000), .moment (later 78000)⟩ o] ∧ ¬o.Settles ∧
    second.deeds = [.gaveBack ⟨.text "nightly", .moment (later 22000), .moment (later 78000)⟩ o'] ∧ o'.Settles ∧
    third.Idle minuteLease := by
  have hS : ∀ u w, (Memory.store.update (minuteLease.releaseRequest u) w).2.IsContractual :=
    Memory.keepsContract.releases minuteLease
  refine ⟨_, _, _, _, _, rfl, rfl, ?_, rfl, Or.inl ⟨_, rfl⟩, ?_⟩
  · rintro (⟨r, hr⟩ | ⟨e, he, hunmet⟩)
    · cases hr
    · cases he
      cases hunmet
  · refine (releaseCalls_sequence minuteLease hS troubledScene [untilClock 18500, untilClock 22000, untilClock 23000]
      (show _ = [_, _] ++ _ :: [] from rfl)).2 (Or.inr ?_)
    exact ⟨_, List.mem_cons_of_mem _ List.mem_cons_self, _, _, List.mem_cons_self, Or.inl ⟨_, rfl⟩⟩

end Lease
end Leasehold
