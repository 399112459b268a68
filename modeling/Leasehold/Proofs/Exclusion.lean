/-
  Mutual exclusion over a store in memory, and whose release it is.

  Locks race for the leases of a store in memory (`Race`), and the clocks of different locks may show anything.  The whole
  argument is one invariant, `Race.Sound`: the chronicle is sound together with the ends of the records
  (`Chronicle.Sound`), and every call stands where the chronicle says (`Race.CallSound`).

  1. **Steps** — every event keeps the invariant (`Sound.next`).  Only the arrival of a request touches the records, and
     there `acquire_effect` and `release_effect` say what happens;
  2. **Runs** — so it holds of every state that can be reached (`Reachable.sound`);
  3. **`exclusive_leases`** and **`release_by_owner`** are read off it.
-/
import Leasehold.Proofs.Memory
import Leasehold.Proofs.Standing
namespace Leasehold
namespace Race

/-! ## The invariant -/

section

variable {s s' : Race Memory} {k : Nat} {a : Attempt}

/-- **The invariant of races over a store in memory.** -/
structure Sound (s : Race Memory) : Prop where
  history : s.history.Sound s.world.store.endOf
  calls : ∀ k a, s.attempts k = some a → s.CallSound k a
  others : ∀ k, s.attempts k = none → s.history.Unknown k

namespace Sound

/-- A step that concerns one call keeps the invariant, if it does so for the chronicle and for this call. -/
theorem step (hs : s.Sound) (hc : Concerns k s s') (hh : s'.history.Sound s'.world.store.endOf)
    (ha : s'.attempts k = some a) (hk : s'.CallSound k a) : s'.Sound where
  history := hh
  calls := by
    intro n b hb
    by_cases hn : n = k
    · subst hn
      rw [ha] at hb
      cases hb
      exact hk
    · rw [hc.attempts n hn] at hb
      exact hc.callSound_other hn (hs.calls n b hb)
  others := by
    intro n hn
    by_cases hk : n = k
    · subst hk
      rw [ha] at hn
      cases hn
    · rw [hc.attempts n hk] at hn
      exact (hc.history n hk).unknown_iff.mpr (hs.others n hn)

/-- A call is moved on, and perhaps its end is told, while the records stay as they are. -/
theorem move (hs : s.Sound) (ha : s.attempts k = some a) (hc : Concerns k s s') {stage : Stage}
    (hstage : s'.attempts k = some { a with stage }) (hstore : s'.world.store = s.world.store)
    (hhist : s'.history = s.history ∨ ∃ m : Mark, ¬m.IsWrite ∧ s'.history = s.history ++ [m] ∧
      ∀ k l, m = .returned k (.ok (some l)) → Mark.acquired k l ∈ s.history)
    (hf : stage.Fits s.history k (s.leaseOf a)) : s'.Sound := by
  have hcall := hs.calls k a ha
  rcases hhist with hh | ⟨m, hm, hh, hret⟩
  · refine hs.step hc ?_ hstage (hc.callSound hcall ?_)
    · rw [hh, hstore]
      exact hs.history
    · rw [hh]
      exact hf
  · refine hs.step hc ?_ hstage (hc.callSound hcall ?_)
    · rw [hh, hstore]
      exact hs.history.ending hm hret
    · rw [hh]
      exact hf.congr (Chronicle.agree_ending hm)

/-! ## Steps -/

/-- Before the first call. -/
theorem fresh (h : s.Fresh) : s.Sound where
  history := by
    rw [h.history]
    exact .nil
  calls := by
    intro k a ha
    rw [h.attempts k] at ha
    cases ha
  others := by
    intro k _
    rw [h.history]
    constructor
    · intro l hm
      cases hm
    · rintro ⟨u, hm⟩
      cases hm

/-- **A clock goes on**: what was taken at its readings stays in the past. -/
theorem setClock (hs : s.Sound) {c : ClockChoice} {reading : DateTime} (h : s.setClock c reading = some s') :
    s'.Sound := by
  simp only [Race.setClock] at h
  split at h
  · rename_i hle
    cases h
    refine ⟨hs.history, fun k a ha => ?_, hs.others⟩
    have hcall := hs.calls k a ha
    refine ⟨hcall.whole, ?_, hcall.fits⟩
    have htaken := hcall.takenAt
    simp only [Race.reading] at htaken ⊢
    by_cases hc : (s.members a.owner).clock = c
    · rw [hc] at htaken ⊢
      rw [Function.update_self]
      omega
    · rw [Function.update_of_ne hc]
      exact htaken
  · cases h

/-- **An acquire reads the clock.** -/
theorem ask (hs : s.Sound) {owner : Nat} {name : Value} {atMost atLeast : GivenTime}
    (h : s.ask k owner name atMost atLeast = some s') : s'.Sound := by
  simp only [Race.ask] at h
  split at h
  · cases h
  rename_i hnone
  have hunknown := hs.others k hnone
  split at h
  · -- a rejected call leaves a mark, and nothing else
    rename_i e _
    cases h
    have hm : ¬(Mark.returned k (.error e)).IsWrite := id
    refine ⟨hs.history.ending hm (fun _ _ h => by cases h), fun n b hb => ?_, fun n hn => ?_⟩
    · have hcall := hs.calls n b hb
      exact ⟨hcall.whole, hcall.takenAt, hcall.fits.congr (Chronicle.agree_ending hm)⟩
    · exact (Chronicle.agree_ending hm).unknown_iff.mpr (hs.others n hn)
  · rename_i claim hclaim
    cases h
    exact hs.step (Concerns.attempt k s _) hs.history (Function.update_self ..)
      ⟨Claim.ofGiven_whole hclaim, Claim.ofGiven_takenAt hclaim, hunknown⟩

/-- What the request of an acquire does to the store. -/
theorem acquire_carried (hs : s.Sound) (ha : s.attempts k = some a) (hp : a.stage = .calling .acquire) :
    s.history.Unknown k ∧
      Memory.Effect s.world.store a.claim.name (a.claim.record (s.lock a.owner).identity)
        (s.world.store.Free a.claim.name a.claim.takenAt)
        (s.carry Memory.store a .acquire).1.store (s.carry Memory.store a .acquire).2 := by
  have hcall := hs.calls k a ha
  have hfit := hcall.fits
  rw [hp] at hfit
  exact ⟨hfit, Memory.acquire_effect hcall.whole _ _⟩

/-- What the request of a release does to the store. -/
theorem release_carried (hs : s.Sound) (ha : s.attempts k = some a) {l : Lease} {u : Instant}
    (hp : a.stage = .calling (.release l u)) :
    (l = s.leaseOf a ∧ s.history.Open k l ∧ l.takenAt.micros ≤ u.micros) ∧
      Memory.Effect s.world.store l.name (s.world.store.released l u) (s.world.store.endOf l.name = some l.atMost)
        (s.carry Memory.store a (.release l u)).1.store (s.carry Memory.store a (.release l u)).2 := by
  have hcall := hs.calls k a ha
  have hfit := hcall.fits
  rw [hp] at hfit
  obtain ⟨rfl, hopen, now, rfl, hwhole, hnow⟩ := hfit
  have hlease : (s.leaseOf a).IsWhole := ⟨hcall.whole.atMost, hcall.whole.atLeast⟩
  exact ⟨⟨rfl, hopen, Nat.le_trans hnow (Lease.le_releaseUntil _ _)⟩,
    Memory.release_effect hlease (hlease.releaseUntil hwhole) _⟩

/-- **The request of an acquire arrives.** -/
theorem arriveAcquire (hs : s.Sound) (ha : s.attempts k = some a) (hp : a.stage = .calling .acquire) :
    (s.arriveWith Memory.store k a .acquire).Sound := by
  have hcall := hs.calls k a ha
  have hc := concerns_arriveWith Memory.store k a .acquire s
  have hh := history_arriveWith Memory.store k a .acquire s
  obtain ⟨hunknown, he⟩ := hs.acquire_carried ha hp
  rcases he.applied_or_not with ⟨hfree, ho, hm⟩ | ⟨hno, hm⟩
  · -- the write is applied: the name was free when the claim was made
    rw [ho] at hh
    refine hs.step hc ?_ (Function.update_self ..) (hc.callSound hcall ?_)
    · rw [hh]
      show Chronicle.Sound _ (s.carry Memory.store a .acquire).1.store.endOf
      rw [hm]
      exact hs.history.acquired hunknown a.claim.future hfree (Memory.endOf_put_self ..)
        fun name hn => Memory.endOf_put_other hn ..
    · rw [hh, ho]
      exact ⟨rfl, List.mem_append_right _ (List.mem_singleton.mpr rfl), fun hr =>
        (Chronicle.released_concat.mp hr).elim hunknown.2 nofun⟩
  · rw [markWritten_unanswered hno, List.append_nil] at hh
    refine hs.step hc ?_ (Function.update_self ..) (hc.callSound hcall ?_)
    · rw [hh]
      show Chronicle.Sound _ (s.carry Memory.store a .acquire).1.store.endOf
      rw [Memory.endOf_congr hm]
      exact hs.history
    · rw [hh]
      exact Stage.fits_unanswered hno hunknown

/-- **The request of a release arrives.** -/
theorem arriveRelease (hs : s.Sound) (ha : s.attempts k = some a) {l : Lease} {u : Instant}
    (hp : a.stage = .calling (.release l u)) :
    (s.arriveWith Memory.store k a (.release l u)).Sound := by
  have hcall := hs.calls k a ha
  have hc := concerns_arriveWith Memory.store k a (.release l u) s
  have hh := history_arriveWith Memory.store k a (.release l u) s
  obtain ⟨⟨rfl, hopen, hu⟩, he⟩ := hs.release_carried ha hp
  rcases he.applied_or_not with ⟨hend, ho, hm⟩ | ⟨hno, hm⟩
  · -- the write is applied: the record ended at the lease's own ceiling
    rw [ho] at hh
    refine hs.step hc ?_ (Function.update_self ..) (hc.callSound hcall ?_)
    · rw [hh]
      show Chronicle.Sound _ (s.carry Memory.store a (.release (s.leaseOf a) u)).1.store.endOf
      rw [hm]
      exact hs.history.released hopen hend hu (Memory.endOf_put_self ..) fun name hn => Memory.endOf_put_other hn ..
    · rw [hh, ho]
      exact ⟨rfl, List.mem_append_left _ hopen.1⟩
  · rw [markWritten_unanswered hno, List.append_nil] at hh
    refine hs.step hc ?_ (Function.update_self ..) (hc.callSound hcall ?_)
    · rw [hh]
      show Chronicle.Sound _ (s.carry Memory.store a (.release (s.leaseOf a) u)).1.store.endOf
      rw [Memory.endOf_congr hm]
      exact hs.history
    · rw [hh]
      exact Stage.fits_unanswered hno ⟨rfl, hopen⟩

/-- The verdict on an acquire is a lease if its write was applied, and none if it was not. -/
theorem settleAcquire_fits {h : Chronicle} (lock : Lock) {c : Claim} {o : Outcome LeaseRecord} (ledger : Ledger)
    (hf : (Stage.called .acquire o).Fits h k (.ofClaim c lock.identity)) :
    ((lock.settleAcquire c o ledger).2.2 = .ok (some (.ofClaim c lock.identity)) ∧
        h.Open k (.ofClaim c lock.identity)) ∨
      (Stage.ofResult (lock.settleAcquire c o ledger).2.2 = .closed ∧ h.Unknown k) := by
  cases o with
  | answered r => exact Or.inl ⟨lock.settleAcquire_answered c hf.1 ledger, hf.2⟩
  | failed e => exact Or.inr ⟨lock.settleAcquire_unanswered c (by intro r hr; cases hr) ledger, hf⟩
  | silent => exact Or.inr ⟨lock.settleAcquire_unanswered c (by intro r hr; cases hr) ledger, hf⟩

/-- **A call ends** with an outcome that the chronicle knows of. -/
theorem settle (hs : s.Sound) (ha : s.attempts k = some a) {purpose : Purpose} {o : Outcome LeaseRecord}
    (hf : (Stage.called purpose o).Fits s.history k (s.leaseOf a)) : (s.settle k a purpose o).Sound := by
  have hc := concerns_settle k a purpose o s
  cases purpose with
  | acquire =>
    have hverdict := settleAcquire_fits (s.lock a.owner) s.world.ledger hf
    refine hs.move ha hc (Function.update_self ..) rfl (Or.inr ⟨_, id, rfl, fun n l hl => ?_⟩) ?_
    · injection hl with hn hl
      subst hn
      rcases hverdict with ⟨hres, hopen⟩ | ⟨hclosed, -⟩
      · rw [hres] at hl
        cases hl
        exact hopen.1
      · rw [hl] at hclosed
        cases hclosed
    · rcases hverdict with ⟨hres, hopen⟩ | ⟨hclosed, hunknown⟩
      · rw [hres]
        exact Or.inl ⟨rfl, hopen⟩
      · rw [hclosed]
        exact hunknown
  | release l u =>
    refine hs.move ha hc (Function.update_self ..) rfl (Or.inr ⟨_, id, rfl, fun _ _ h => by cases h⟩) ?_
    rcases (s.lock a.owner).settleRelease_lease l u o s.world.ledger with hl | ⟨hl, hno⟩
    · rw [hl]
      cases o with
      | answered r => exact Or.inr ⟨by rw [hf.1], hf.2⟩
      | failed e => exact Or.inr ⟨by rw [hf.1], hf.2.1⟩
      | silent => exact Or.inr ⟨by rw [hf.1], hf.2.1⟩
    · rw [hl]
      cases o with
      | answered r => exact absurd rfl (hno r)
      | failed e => exact Or.inl hf
      | silent => exact Or.inl hf

/-- A call without an answer ends: its time runs out, or it is cancelled. -/
theorem giveUp (hs : s.Sound) (ha : s.attempts k = some a) {purpose : Purpose}
    (hu : a.stage.unanswered? = some purpose) :
    (s.settle k a purpose .silent).Sound ∧ (s.abandon k a purpose).Sound := by
  have hfit := (hs.calls k a ha).fits.unanswered hu
  cases purpose with
  | acquire =>
    refine ⟨hs.settle ha hfit, ?_⟩
    exact hs.move ha (concerns_abandon k a _ s) (Function.update_self ..) rfl (Or.inr ⟨_, id, rfl, nofun⟩) hfit
  | release l u =>
    refine ⟨hs.settle ha hfit, ?_⟩
    exact hs.move ha (concerns_abandon k a _ s) (Function.update_self ..) rfl (Or.inr ⟨_, id, rfl, nofun⟩) (Or.inl hfit)

/-- **A release reads the clock.** -/
theorem releaseWith (hs : s.Sound) (ha : s.attempts k = some a) {l : Lease} (hp : a.stage = .held l) :
    (s.releaseWith k a l).Sound := by
  have hcall := hs.calls k a ha
  have hfit := hcall.fits
  rw [hp] at hfit
  have hc := concerns_releaseWith k a l s
  simp only [Race.releaseWith] at hc ⊢
  split
  · rename_i hdone
    rw [if_pos hdone] at hc
    exact hs.move ha hc ha rfl (Or.inr ⟨_, id, rfl, fun _ _ h => by cases h⟩) hcall.fits
  rename_i hopen
  rw [if_neg hopen] at hc
  split
  · rename_i e he
    simp only [he] at hc
    exact hs.move ha hc ha rfl (Or.inr ⟨_, id, rfl, fun _ _ h => by cases h⟩) hcall.fits
  · rename_i now hnow
    simp only [hnow] at hc
    refine hs.move ha hc (Function.update_self ..) rfl (Or.inl rfl) ?_
    rcases hfit with ⟨rfl, hfit⟩ | ⟨rfl, -⟩
    · -- the clock did not go back since the claim was made
      exact ⟨rfl, hfit, now, rfl, (GivenTime.truncate_time hnow).1,
        GivenTime.le_of_whole hnow hcall.whole.takenAt hcall.takenAt⟩
    · exact absurd rfl hopen

/-- Trouble changes no record. -/
theorem trouble (hs : s.Sound) (t : Memory.Trouble) :
    ({ s with world := { s.world with store := t.befall s.world.store } } : Race Memory).Sound := by
  refine ⟨?_, fun n b hb => ?_, hs.others⟩
  · show Chronicle.Sound _ (t.befall s.world.store).endOf
    rw [Memory.endOf_congr (t.befall_records s.world.store)]
    exact hs.history
  · have hcall := hs.calls n b hb
    exact ⟨hcall.whole, hcall.takenAt, hcall.fits⟩

/-- **Every event keeps the invariant.** -/
theorem next (hs : s.Sound) {e : Event Memory.Trouble} (h : s.next Memory.site e = some s') : s'.Sound := by
  cases e with
  | clock c reading => exact hs.setClock h
  | trouble t =>
    cases h
    exact hs.trouble t
  | ask k owner name atMost atLeast => exact hs.ask h
  | arrive k =>
    obtain ⟨a, purpose, ha, hp, rfl⟩ := next_arrive h
    cases purpose with
    | acquire => exact hs.arriveAcquire ha hp
    | release l u => exact hs.arriveRelease ha hp
  | finish k =>
    obtain ⟨a, ha, h⟩ := Option.bind_eq_some_iff.mp h
    obtain ⟨⟨purpose, o⟩, ho, h⟩ := Option.bind_eq_some_iff.mp h
    cases h
    have hfit := (hs.calls k a ha).fits
    rw [Stage.answered_eq ho] at hfit
    exact hs.settle ha hfit
  | expire k =>
    obtain ⟨a, ha, h⟩ := Option.bind_eq_some_iff.mp h
    obtain ⟨purpose, hu, h⟩ := Option.bind_eq_some_iff.mp h
    cases h
    exact (hs.giveUp ha hu).1
  | cancel k =>
    obtain ⟨a, ha, h⟩ := Option.bind_eq_some_iff.mp h
    obtain ⟨purpose, hu, h⟩ := Option.bind_eq_some_iff.mp h
    cases h
    exact (hs.giveUp ha hu).2
  | release k =>
    simp only [Race.next, Race.release] at h
    split at h
    · rename_i a ha
      split at h
      · rename_i l hp
        cases h
        exact hs.releaseWith ha hp
      · cases h
    · cases h

end Sound

/-- **The invariant holds of every state that can be reached.** -/
theorem Reachable.sound (h : Reachable Memory.site s) : s.Sound := by
  induction h with
  | fresh hf => exact .fresh hf
  | next _ e hn ih => exact ih.next hn

/-! ## What the chronicle leaves out -/

/-- **Whatever happens short of an arrival** leaves the records, and is told without a write. -/
theorem next_quiet {e : Event Memory.Trouble} (h : s.next Memory.site e = some s') (he : ∀ k, e ≠ .arrive k) :
    s'.world.store.records = s.world.store.records ∧
      ∃ ms : Chronicle, (∀ m ∈ ms, ¬m.IsWrite) ∧ s'.history = s.history ++ ms := by
  have hnone : ∃ ms : Chronicle, (∀ m ∈ ms, ¬m.IsWrite) ∧ s.history = s.history ++ ms :=
    ⟨[], nofun, (List.append_nil _).symm⟩
  have hone {m : Mark} (hm : ¬m.IsWrite) :
      ∃ ms : Chronicle, (∀ m ∈ ms, ¬m.IsWrite) ∧ s.history ++ [m] = s.history ++ ms :=
    ⟨[m], fun x hx => by rwa [List.mem_singleton.mp hx], rfl⟩
  cases e with
  | clock c reading =>
    simp only [next, setClock] at h
    split at h
    · cases h
      exact ⟨rfl, hnone⟩
    · cases h
  | trouble t =>
    cases h
    exact ⟨t.befall_records _, hnone⟩
  | ask k owner name atMost atLeast =>
    simp only [next, ask] at h
    split at h
    · cases h
    split at h
    · cases h
      exact ⟨rfl, hone id⟩
    · cases h
      exact ⟨rfl, hnone⟩
  | arrive k => exact absurd rfl (he k)
  | finish k =>
    obtain ⟨a, -, h⟩ := Option.bind_eq_some_iff.mp h
    obtain ⟨⟨purpose, o⟩, -, h⟩ := Option.bind_eq_some_iff.mp h
    cases h
    cases purpose <;> exact ⟨rfl, hone id⟩
  | expire k =>
    obtain ⟨a, -, h⟩ := Option.bind_eq_some_iff.mp h
    obtain ⟨purpose, -, h⟩ := Option.bind_eq_some_iff.mp h
    cases h
    cases purpose <;> exact ⟨rfl, hone id⟩
  | cancel k =>
    obtain ⟨a, -, h⟩ := Option.bind_eq_some_iff.mp h
    obtain ⟨purpose, -, h⟩ := Option.bind_eq_some_iff.mp h
    cases h
    cases purpose <;> exact ⟨rfl, hone id⟩
  | release k =>
    simp only [next, release] at h
    split at h
    · split at h
      · cases h
        simp only [releaseWith]
        split
        · exact ⟨rfl, hone id⟩
        split
        · exact ⟨rfl, hone id⟩
        · exact ⟨rfl, hnone⟩
      · cases h
    · cases h

/-- **No write goes untold**: an event that changes a record is told as a write. -/
theorem write_told {e : Event Memory.Trouble} (hs : s.Sound) (h : s.next Memory.site e = some s')
    (hr : s'.world.store.records ≠ s.world.store.records) :
    ∃ m : Mark, m.IsWrite ∧ s'.history = s.history ++ [m] := by
  by_cases he : ∃ k, e = .arrive k
  · obtain ⟨k, rfl⟩ := he
    obtain ⟨a, purpose, ha, hp, rfl⟩ := next_arrive h
    have hh := history_arriveWith Memory.store k a purpose s
    cases purpose with
    | acquire =>
      rcases (hs.acquire_carried ha hp).2.applied_or_not with ⟨-, ho, -⟩ | ⟨-, hm⟩
      · rw [ho] at hh
        exact ⟨.acquired k (s.leaseOf a), trivial, hh⟩
      · exact absurd hm hr
    | release l u =>
      rcases (hs.release_carried ha hp).2.applied_or_not with ⟨-, ho, -⟩ | ⟨-, hm⟩
      · rw [ho] at hh
        exact ⟨.released k u, trivial, hh⟩
      · exact absurd hm hr
  · exact absurd (next_quiet h fun k hk => he ⟨k, hk⟩).1 hr

/-! ## Mutual exclusion -/

/-- A lease was taken before the clock of its lock shows what it shows. -/
theorem Sound.taken_before (hs : s.Sound) {l : Lease} (hl : Mark.acquired k l ∈ s.history) :
    ∃ a, s.attempts k = some a ∧ l = s.leaseOf a ∧ (l.takenAt.micros : Int) ≤ (s.reading a.owner).position := by
  cases ha : s.attempts k with
  | none => exact absurd hl ((hs.others k ha).1 l)
  | some a =>
    have hcall := hs.calls k a ha
    rcases hcall.fits.acquired_or_not with hl' | hunknown
    · obtain rfl := hs.history.lease_unique hl hl'
      exact ⟨a, rfl, rfl, hcall.takenAt⟩
    · exact absurd hl (hunknown.1 l)

/-- Of two leases of a name that were not released, the later one was taken when the earlier one had run out: on one clock
they are not good at the same time. -/
theorem Sound.not_both (hs : s.Sound) {c : ClockChoice} (hc : ∀ n, (s.members n).clock = c) {i j k k' : Nat}
    {l l' : Lease} (hij : i < j) (hi : s.history[i]? = some (.acquired k l))
    (hj : s.history[j]? = some (.acquired k' l')) (hname : l.name = l'.name) (hopen : ¬s.history.Released k) :
    (l.atMost.micros : Int) ≤ (s.clocks c).position := by
  have hle := hs.history.ordered hij hi hj hname fun n u _ hn => hopen ⟨u, Chronicle.mem_of_at hn⟩
  obtain ⟨a, -, -, htaken⟩ := hs.taken_before (Chronicle.mem_of_at hj)
  rw [reading, hc] at htaken
  omega

/-- **Mutual exclusion.**  The leases that calls return were acquired; of two that were acquired under one name, the later
one was taken when the earlier one had run out, unless this had been released before; and while all locks go by one clock,
no two leases of a name that were not released are good at the same time. -/
theorem exclusive_leases (h : Reachable Memory.site s) :
    (∀ k l, Mark.returned k (.ok (some l)) ∈ s.history → Mark.acquired k l ∈ s.history) ∧
    (∀ (i j k k' : Nat) (l l' : Lease), i < j → s.history[i]? = some (.acquired k l) →
      s.history[j]? = some (.acquired k' l') → l.name = l'.name →
      (∀ n u, n < j → s.history[n]? ≠ some (.released k u)) → l.atMost.micros ≤ l'.takenAt.micros) ∧
    (∀ c, (∀ n, (s.members n).clock = c) → ∀ k k' l l', k ≠ k' → s.history.Open k l → s.history.Open k' l' →
      l.name = l'.name →
      ¬((s.clocks c).position < l.atMost.micros ∧ (s.clocks c).position < l'.atMost.micros)) := by
  have hs := h.sound
  refine ⟨fun k l => hs.history.returned, fun i j k k' l l' => hs.history.ordered, ?_⟩
  rintro c hc k k' l l' hk hl hl' hname ⟨hnow, hnow'⟩
  obtain ⟨i, hi⟩ := Chronicle.at_of_mem hl.1
  obtain ⟨j, hj⟩ := Chronicle.at_of_mem hl'.1
  rcases Nat.lt_trichotomy i j with hij | rfl | hij
  · have hle := hs.not_both hc hij hi hj hname hl.2
    omega
  · rw [hi] at hj
    cases hj
    exact hk rfl
  · have hle := hs.not_both hc hij hj hi hname.symm hl'.2
    omega

/-! ## A contest

Two nodes share a store and a clock.  The first takes a lease of ten seconds and lets it run out, the second takes one of
fifty seconds, and now the first comes to release. -/

/-- Nodes at the start of their clock, and an empty store. -/
def opening : Race Memory where
  world := ⟨.empty, .empty⟩
  clocks _ := .utc (later 0)
  members n := ⟨⟨.text ("node-" ++ toString n), .int 5, .zero⟩, .system⟩
  attempts _ := none
  history := []

def contest : List (Event Memory.Trouble) :=
  [.ask 0 0 (.text "job") (.moment (later 10000)) .none, .arrive 0, .finish 0, .clock .system (.utc (later 10000)),
   .ask 1 1 (.text "job") (.moment (later 60000)) .none, .arrive 1, .finish 1, .release 0]

/-- The state that the contest comes to. -/
def contested : Race Memory := (opening.run Memory.site contest).get rfl

def firstLease : Lease := ⟨"job", later 10000, later 0, later 0, .text "node-0", false⟩

def secondLease : Lease := ⟨"job", later 60000, later 10000, later 10000, .text "node-1", false⟩

theorem contested_history : contested.history =
    [.acquired 0 firstLease, .returned 0 (.ok (some firstLease)), .acquired 1 secondLease,
      .returned 1 (.ok (some secondLease))] := rfl

theorem contested_run : opening.run Memory.site contest = some contested := rfl

theorem contested_reachable : Reachable Memory.site contested :=
  (Reachable.fresh ⟨fun _ => rfl, rfl⟩).run contested_run

theorem contested_open (k : Nat) : ¬contested.history.Released k := by
  rintro ⟨u, hu⟩
  rw [contested_history] at hu
  simp at hu

/-- In the contest the second lease starts when the first has run out. -/
theorem contest_takes_turns : firstLease.atMost.micros ≤ secondLease.takenAt.micros ∧
    ¬((contested.clocks .system).position < firstLease.atMost.micros ∧
      (contested.clocks .system).position < secondLease.atMost.micros) := by
  obtain ⟨-, hordered, hshared⟩ := exclusive_leases contested_reachable
  refine ⟨hordered 0 2 0 1 _ _ (by decide) rfl rfl rfl fun n u _ hn => ?_, ?_⟩
  · exact contested_open 0 ⟨u, Chronicle.mem_of_at hn⟩
  · refine hshared .system (clockOf_run contested_run) 0 1 _ _ (by decide) ⟨?_, contested_open 0⟩ ⟨?_, contested_open 1⟩ rfl
    · rw [contested_history]
      exact List.mem_cons_self
    · rw [contested_history]
      exact List.mem_cons_of_mem _ (List.mem_cons_of_mem _ List.mem_cons_self)

/-! ## Whose release it is -/

/-- **A release is lost**: the lease is done with, the loss is counted once, nothing is raised, and the store is left
alone. -/
structure EndsLost (k : Nat) (a : Attempt) (l : Lease) (s s' : Race Memory) : Prop where
  store : s'.world.store = s.world.store
  lease : s'.attempts k = some { a with stage := .held l.done }
  lock : s'.lock a.owner = (s.lock a.owner).countLost
  metrics : s'.world.ledger.metrics = s.world.ledger.metrics.countRelease l.name .lost
  raised : s'.history = s.history ++ [.settled k (.ok ())]

theorem settle_lost {l : Lease} {u : Instant} {e : Error} (he : e.isA .conditionNotMet = true) :
    EndsLost k a l s (s.settle k a (.release l u) (.failed e)) := by
  have hverdict : ∀ (lock : Lock) (ledger : Ledger), lock.settleRelease l u (.failed e) ledger =
      (lock.countLost, l.done, (ledger.count (·.countRelease l.name .lost)).note .warning
        ("Lock '" ++ l.name ++ "' is no longer held by this lease, leaving the current holder untouched"), .ok ()) := by
    intro lock ledger
    simp only [Lock.settleRelease, he, if_true]
  simp only [settle, hverdict]
  refine ⟨rfl, Function.update_self .., ?_, rfl, rfl⟩
  rw [lock_tell, lock_setStage, lock_setLock_self]

/-- **The release of a lease is its owner's.**  When the release of a lease is applied, every later lease of the name was
released before.  If a later one was not, the release that arrives leaves every record as it is; and once it has got
through to the store it is lost, whatever others do before it is finished. -/
theorem release_by_owner (h : Reachable Memory.site s) :
    (∀ (i j n k k' : Nat) (l l' : Lease) (u : Instant), i < j → j < n → s.history[i]? = some (.acquired k l) →
      s.history[j]? = some (.acquired k' l') → s.history[n]? = some (.released k u) → l.name = l'.name →
      ∃ n' u', n' < n ∧ s.history[n']? = some (.released k' u')) ∧
    (∀ (i j k k' : Nat) (a : Attempt) (l l' : Lease) (u : Instant), s.attempts k = some a →
      a.stage = .calling (.release l u) → i < j → s.history[i]? = some (.acquired k l) →
      s.history[j]? = some (.acquired k' l') → l.name = l'.name → ¬s.history.Released k' →
      ∃ s₁, s.next Memory.site (.arrive k) = some s₁ ∧ s₁.world.store.records = s.world.store.records ∧
        (s.world.store.pass.2 = .through → ∀ es s₂, (∀ e ∈ es, e.call? ≠ some k) → s₁.run Memory.site es = some s₂ →
          ∃ s₃, s₂.next Memory.site (.finish k) = some s₃ ∧ EndsLost k a l s₂ s₃)) := by
  have hs := h.sound
  refine ⟨fun i j n k k' l l' u => hs.history.owned, ?_⟩
  intro i j k k' a l l' u ha hp hij hi hj hname hopen'
  obtain ⟨⟨-, hopen, -⟩, he⟩ := hs.release_carried ha hp
  obtain ⟨hrecords, hlost⟩ := he.of_not (hs.history.end_ne hij hi hj hname hopen.2 hopen')
  have harrive : s.next Memory.site (.arrive k) = some (s.arriveWith Memory.store k a (.release l u)) := by
    simp only [next, arrive, ha, hp]
    rfl
  refine ⟨_, harrive, hrecords, fun hthrough es s₂ hes hrun => ?_⟩
  -- nobody else moves this call, so it still waits to be finished
  have ha₂ : s₂.attempts k = some { a with stage := .called (.release l u) (s.carry Memory.store a (.release l u)).2 } := by
    rw [attempts_run hrun hes]
    exact Function.update_self ..
  rw [hlost hthrough] at ha₂
  have hkind : (Error.conditionNotMet (.text l.name) .store).isA .conditionNotMet = true := rfl
  refine ⟨_, ?_, settle_lost (u := u) hkind⟩
  show Option.bind (s₂.attempts k) _ = _
  rw [ha₂]
  rfl

/-- In the contest the release of the first lease is lost, and the record of the second stays. -/
theorem contest_release_lost : ∃ a s₁ s₃, contested.next Memory.site (.arrive 0) = some s₁ ∧
    s₁.world.store.records = contested.world.store.records ∧ s₁.next Memory.site (.finish 0) = some s₃ ∧
    EndsLost 0 a firstLease s₁ s₃ := by
  obtain ⟨-, hrelease⟩ := release_by_owner contested_reachable
  obtain ⟨s₁, harrive, hrecords, hlost⟩ := hrelease 0 2 0 1 ((contested.attempts 0).get rfl) firstLease secondLease
    (later 10000) rfl rfl (by decide) rfl rfl rfl (contested_open 1)
  obtain ⟨s₃, hfinish, hends⟩ := hlost rfl [] s₁ nofun rfl
  exact ⟨_, s₁, s₃, harrive, hrecords, hfinish, hends⟩

end

end Race
end Leasehold
