/-
  Where the calls of a race stand, and what one step leaves alone.

  This holds over every store.  What a lock makes of an outcome is known from here on by a few facts (`settleAcquire_…`,
  `settleRelease_…`), and by nothing else.

  1. **`Stage.Fits`** — the chronicle tells of a call what its stage says: nothing was written for one that is on its
     way to acquire, and a lease that is on its way to be released was acquired and not released yet;
  2. **`Race.CallSound`** — a claim was made of a reading of its lock's clock, and the call stands where the chronicle
     says;
  3. **`Race.Concerns`** — a step of one call is no matter of the others: clocks, identities, their stages and what is
     told of them stay.  Arriving, ending, being cut short and beginning a release all concern one call only.
-/
import Leasehold.Proofs.Race
namespace Leasehold

/-! ## Verdicts -/

namespace Lock

/-- A verdict leaves a lock who it is. -/
theorem settleAcquire_identity (lock : Lock) (c : Claim) (o : Outcome LeaseRecord) (ledger : Ledger) :
    (lock.settleAcquire c o ledger).1.identity = lock.identity := by
  cases o with
  | answered r =>
    simp only [settleAcquire]
    split <;> rfl
  | silent => rfl
  | failed e =>
    simp only [settleAcquire]
    split
    · rfl
    split
    · rfl
    split <;> rfl

theorem settleRelease_identity (lock : Lock) (l : Lease) (u : Instant) (o : Outcome LeaseRecord) (ledger : Ledger) :
    (lock.settleRelease l u o ledger).1.identity = lock.identity := by
  cases o with
  | answered r => rfl
  | silent => rfl
  | failed e =>
    simp only [settleRelease]
    split
    · rfl
    split
    · rfl
    split <;> rfl

/-- The record that the claim asked for makes a lease. -/
theorem settleAcquire_answered (lock : Lock) (c : Claim) {r : LeaseRecord} (hr : r.lockUntil = c.atMost)
    (ledger : Ledger) :
    (lock.settleAcquire c (.answered r) ledger).2.2 = .ok (some (.ofClaim c lock.identity)) := by
  simp only [settleAcquire, hr, ne_eq, not_true_eq_false, if_false]

/-- A lease comes of an answer only, and it is the lease of the claim. -/
theorem settleAcquire_lease {lock : Lock} {c : Claim} {o : Outcome LeaseRecord} {ledger : Ledger} {l : Lease}
    (h : (lock.settleAcquire c o ledger).2.2 = .ok (some l)) :
    (∃ r, o = .answered r) ∧ l = .ofClaim c lock.identity := by
  cases o with
  | answered r =>
    simp only [settleAcquire] at h
    split at h
    · cases h
    · cases h
      exact ⟨⟨r, rfl⟩, rfl⟩
  | silent => cases h
  | failed e =>
    simp only [settleAcquire] at h
    split at h
    · cases h
    split at h
    · cases h
    split at h <;> cases h

/-- Without an answer there is no lease. -/
theorem settleAcquire_unanswered (lock : Lock) (c : Claim) {o : Outcome LeaseRecord} (ho : ∀ r, o ≠ .answered r)
    (ledger : Ledger) : Stage.ofResult (lock.settleAcquire c o ledger).2.2 = .closed := by
  cases hr : (lock.settleAcquire c o ledger).2.2 with
  | error e => rfl
  | ok lease =>
    cases lease with
    | none => rfl
    | some l =>
      obtain ⟨⟨r, hanswered⟩, -⟩ := settleAcquire_lease hr
      exact absurd hanswered (ho r)

/-- A release leaves the lease as it is, or done with; with an answer it is done with. -/
theorem settleRelease_lease (lock : Lock) (l : Lease) (u : Instant) (o : Outcome LeaseRecord) (ledger : Ledger) :
    (lock.settleRelease l u o ledger).2.1 = l.done ∨
      ((lock.settleRelease l u o ledger).2.1 = l ∧ ∀ r, o ≠ .answered r) := by
  cases o with
  | answered r => exact Or.inl rfl
  | silent => exact Or.inr ⟨rfl, nofun⟩
  | failed e =>
    simp only [settleRelease]
    split
    · exact Or.inl rfl
    split
    · exact Or.inr ⟨rfl, nofun⟩
    split <;> exact Or.inr ⟨rfl, nofun⟩

end Lock

/-! ## Where a call stands, and what was written for it -/

namespace Chronicle

variable {h h' : Chronicle} {k : Nat}

/-- Two chronicles tell the same writes of a call. -/
structure Agree (h h' : Chronicle) (k : Nat) : Prop where
  acquired : ∀ l, Mark.acquired k l ∈ h' ↔ Mark.acquired k l ∈ h
  released : h'.Released k ↔ h.Released k

theorem Agree.refl (h : Chronicle) (k : Nat) : h.Agree h k := ⟨fun _ => Iff.rfl, Iff.rfl⟩

theorem Agree.trans {h'' : Chronicle} (h₁ : h.Agree h' k) (h₂ : h'.Agree h'' k) : h.Agree h'' k :=
  ⟨fun l => (h₂.acquired l).trans (h₁.acquired l), h₂.released.trans h₁.released⟩

theorem agree_other {m : Mark} (hm : m.call ≠ k) : h.Agree (h ++ [m]) k :=
  ⟨fun _ => acquired_other hm, released_other hm⟩

theorem agree_ending {m : Mark} (hm : ¬m.IsWrite) : h.Agree (h ++ [m]) k :=
  ⟨fun _ => acquired_ending hm, released_ending hm⟩

theorem Agree.open_iff (ha : h.Agree h' k) (l : Lease) : h'.Open k l ↔ h.Open k l := by
  simp only [Open, ha.acquired, ha.released]

theorem Agree.unknown_iff (ha : h.Agree h' k) : h'.Unknown k ↔ h.Unknown k := by
  simp only [Unknown, ha.acquired, ha.released]

end Chronicle

/-- What the chronicle tells of a call that nobody answered. -/
def Purpose.Pending (h : Chronicle) (k : Nat) (l : Lease) : Purpose → Prop
  | acquire => h.Unknown k
  | release l' _ => l' = l ∧ h.Open k l

namespace Stage

/-- **Where a call stands is what the chronicle tells of it.**  An end that a release asks for comes from a reading of the
clock that was made after the lease was taken. -/
def Fits (h : Chronicle) (k : Nat) (l : Lease) : Stage → Prop
  | calling .acquire => h.Unknown k
  | calling (.release l' u) =>
    l' = l ∧ h.Open k l ∧ ∃ now : Instant, u = l.releaseUntil now ∧ now.IsWhole ∧ l.takenAt.micros ≤ now.micros
  | called .acquire (.answered r) => r.lockUntil = l.atMost ∧ h.Open k l
  | called .acquire _ => h.Unknown k
  | called (.release l' _) (.answered _) => l' = l ∧ Mark.acquired k l ∈ h
  | called (.release l' _) _ => l' = l ∧ h.Open k l
  | held l' => (l' = l ∧ h.Open k l) ∨ (l' = l.done ∧ Mark.acquired k l ∈ h)
  | closed => h.Unknown k

theorem Fits.congr {h h' : Chronicle} {k : Nat} {l : Lease} (ha : h.Agree h' k) {stage : Stage}
    (hf : stage.Fits h k l) : stage.Fits h' k l := by
  have hopen := ha.open_iff
  have hunknown := ha.unknown_iff
  have hacq := ha.acquired
  cases stage with
  | calling purpose => cases purpose <;> simpa only [Fits, hopen, hunknown] using hf
  | called purpose outcome =>
    cases purpose <;> cases outcome <;> simpa only [Fits, hopen, hunknown, hacq] using hf
  | held l' => simpa only [Fits, hopen, hacq] using hf
  | closed => simpa only [Fits, hunknown] using hf

theorem answered_eq {stage : Stage} {p : Purpose × Outcome LeaseRecord} (h : stage.answered? = some p) :
    stage = .called p.1 p.2 := by
  cases stage with
  | called purpose o =>
    cases o with
    | silent => cases h
    | _ =>
      cases h
      rfl
  | _ => cases h

/-- Either the lease was acquired, or nothing was written for the call. -/
theorem Fits.acquired_or_not {h : Chronicle} {k : Nat} {l : Lease} {stage : Stage} (hf : stage.Fits h k l) :
    Mark.acquired k l ∈ h ∨ h.Unknown k := by
  cases stage with
  | calling purpose =>
    cases purpose with
    | acquire => exact Or.inr hf
    | release l' u => exact Or.inl hf.2.1.1
  | called purpose o =>
    cases purpose with
    | acquire =>
      cases o with
      | answered r => exact Or.inl hf.2.1
      | failed e => exact Or.inr hf
      | silent => exact Or.inr hf
    | release l' u =>
      cases o with
      | answered r => exact Or.inl hf.2
      | failed e => exact Or.inl hf.2.1
      | silent => exact Or.inl hf.2.1
  | held l' =>
    rcases hf with hf | hf
    · exact Or.inl hf.2.1
    · exact Or.inl hf.2
  | closed => exact Or.inr hf

/-- A request that was not answered leaves its call as it was. -/
theorem fits_unanswered {h : Chronicle} {k : Nat} {l : Lease} {purpose : Purpose} {o : Outcome LeaseRecord}
    (ho : ∀ r, o ≠ .answered r) (hp : purpose.Pending h k l) : (called purpose o).Fits h k l := by
  cases o with
  | answered r => exact absurd rfl (ho r)
  | failed e => cases purpose <;> exact hp
  | silent => cases purpose <;> exact hp

/-- A call without an answer has written nothing yet. -/
theorem Fits.unanswered {h : Chronicle} {k : Nat} {l : Lease} {stage : Stage} {purpose : Purpose}
    (hu : stage.unanswered? = some purpose) (hf : stage.Fits h k l) : purpose.Pending h k l := by
  cases stage with
  | calling p =>
    cases hu
    cases purpose with
    | acquire => exact hf
    | release l' u => exact ⟨hf.1, hf.2.1⟩
  | called p o =>
    cases o with
    | silent =>
      cases hu
      cases purpose <;> exact hf
    | _ => cases hu
  | _ => cases hu

end Stage

namespace Race

variable {σ : Type} {s s' s'' : Race σ} {k n : Nat} {a : Attempt}

/-- **What holds of a call**: its claim was made of a reading of its lock's clock, and it stands where the chronicle
says. -/
structure CallSound (s : Race σ) (k : Nat) (a : Attempt) : Prop where
  whole : a.claim.IsWhole
  takenAt : (a.claim.takenAt.micros : Int) ≤ (s.reading a.owner).position
  fits : a.stage.Fits s.history k (s.leaseOf a)

/-! ## Frame -/

/-- **A step that concerns one call**: it leaves the clocks, who the locks are, the other calls, and what is told of
them. -/
structure Concerns (k : Nat) (s s' : Race σ) : Prop where
  clocks : s'.clocks = s.clocks
  clockOf : ∀ n, (s'.members n).clock = (s.members n).clock
  identity : ∀ n, (s'.lock n).identity = (s.lock n).identity
  attempts : ∀ n, n ≠ k → s'.attempts n = s.attempts n
  history : ∀ n, n ≠ k → s.history.Agree s'.history n

namespace Concerns

theorem trans (h : Concerns k s s') (h' : Concerns k s' s'') : Concerns k s s'' where
  clocks := h'.clocks.trans h.clocks
  clockOf n := (h'.clockOf n).trans (h.clockOf n)
  identity n := (h'.identity n).trans (h.identity n)
  attempts n hn := (h'.attempts n hn).trans (h.attempts n hn)
  history n hn := (h.history n hn).trans (h'.history n hn)

theorem tell {m : Mark} (hm : m.call = k) : Concerns k s (s.tell m) where
  clocks := rfl
  clockOf _ := rfl
  identity _ := rfl
  attempts _ _ := rfl
  history _ hn := Chronicle.agree_other (by rw [hm]; exact hn.symm)

theorem world (k : Nat) (s : Race σ) (w : World σ) : Concerns k s { s with world := w } where
  clocks := rfl
  clockOf _ := rfl
  identity _ := rfl
  attempts _ _ := rfl
  history n _ := .refl _ n

theorem attempt (k : Nat) (s : Race σ) (a : Attempt) :
    Concerns k s { s with attempts := Function.update s.attempts k (some a) } where
  clocks := rfl
  clockOf _ := rfl
  identity _ := rfl
  attempts _ hn := Function.update_of_ne hn _ _
  history n _ := .refl _ n

theorem setStage (k : Nat) (s : Race σ) (a : Attempt) (stage : Stage) : Concerns k s (s.setStage k a stage) :=
  attempt k s { a with stage }

theorem setLock {owner : Nat} {lock : Lock} (hid : lock.identity = (s.lock owner).identity) (k : Nat)
    (ledger : Ledger) : Concerns k s (s.setLock owner lock ledger) where
  clocks := rfl
  clockOf n := by
    by_cases hn : n = owner
    · subst hn
      simp only [Race.setLock, Function.update_self]
    · simp only [Race.setLock, Function.update_of_ne hn]
  identity n := by
    by_cases hn : n = owner
    · subst hn
      rw [lock_setLock_self, hid]
    · simp only [Race.lock, Race.setLock, Function.update_of_ne hn]
  attempts _ _ := rfl
  history n _ := .refl _ n

theorem reading (h : Concerns k s s') (n : Nat) : s'.reading n = s.reading n := by
  simp only [Race.reading, h.clocks, h.clockOf]

theorem leaseOf (h : Concerns k s s') (a : Attempt) : s'.leaseOf a = s.leaseOf a := by
  simp only [Race.leaseOf, h.identity]

/-- A call that is moved on stays sound, if it stands where the chronicle says. -/
theorem callSound (h : Concerns k s s') (ha : s.CallSound k a) {stage : Stage}
    (hf : stage.Fits s'.history k (s.leaseOf a)) : s'.CallSound k { a with stage } where
  whole := ha.whole
  takenAt := by
    rw [h.reading]
    exact ha.takenAt
  fits := by
    rw [h.leaseOf]
    exact hf

/-- The other calls stay sound. -/
theorem callSound_other (h : Concerns k s s') (hn : n ≠ k) (ha : s.CallSound n a) : s'.CallSound n a where
  whole := ha.whole
  takenAt := by
    rw [h.reading]
    exact ha.takenAt
  fits := by
    rw [h.leaseOf]
    exact ha.fits.congr (h.history n hn)

end Concerns

/-- **The arrival of a request concerns its call.** -/
theorem concerns_arriveWith (S : LeaseStore σ) (k : Nat) (a : Attempt) (purpose : Purpose) (s : Race σ) :
    Concerns k s (s.arriveWith S k a purpose) where
  clocks := rfl
  clockOf _ := rfl
  identity _ := rfl
  attempts _ hn := Function.update_of_ne hn _ _
  history n hn := by
    simp only [arriveWith]
    cases (s.carry S a purpose).2 with
    | answered r =>
      refine Chronicle.agree_other (k := n) ?_
      cases purpose <;> exact hn.symm
    | failed e => simpa only [markWritten, List.append_nil] using .refl _ n
    | silent => simpa only [markWritten, List.append_nil] using .refl _ n

theorem history_arriveWith (S : LeaseStore σ) (k : Nat) (a : Attempt) (purpose : Purpose) (s : Race σ) :
    (s.arriveWith S k a purpose).history =
      s.history ++ markWritten (s.writeMark k a purpose) (s.carry S a purpose).2 := rfl

theorem markWritten_unanswered {m : Mark} {o : Outcome LeaseRecord} (ho : ∀ r, o ≠ .answered r) :
    markWritten m o = [] := by
  cases o with
  | answered r => exact absurd rfl (ho r)
  | failed e => rfl
  | silent => rfl

/-- **The end of a call concerns it.** -/
theorem concerns_settle (k : Nat) (a : Attempt) (purpose : Purpose) (o : Outcome LeaseRecord) (s : Race σ) :
    Concerns k s (s.settle k a purpose o) := by
  cases purpose with
  | acquire =>
    have hid := (s.lock a.owner).settleAcquire_identity a.claim o s.world.ledger
    exact ((Concerns.setLock hid k _).trans (.setStage k _ a _)).trans (.tell rfl)
  | release l u =>
    have hid := (s.lock a.owner).settleRelease_identity l u o s.world.ledger
    exact ((Concerns.setLock hid k _).trans (.setStage k _ a _)).trans (.tell rfl)

theorem concerns_abandon (k : Nat) (a : Attempt) (purpose : Purpose) (s : Race σ) :
    Concerns k s (s.abandon k a purpose) := by
  cases purpose with
  | acquire => exact (Concerns.setStage k s a _).trans (.tell rfl)
  | release l u => exact (Concerns.setStage k s a _).trans (.tell rfl)

theorem concerns_releaseWith (k : Nat) (a : Attempt) (l : Lease) (s : Race σ) :
    Concerns k s (s.releaseWith k a l) := by
  simp only [releaseWith]
  split
  · exact (Concerns.world k s _).trans (.tell rfl)
  split
  · exact .tell rfl
  · exact .setStage k s a _

/-! ## Events -/

/-- **An event of a call concerns this call.** -/
theorem concerns_next {τ : Type} {site : Site σ τ} {e : Event τ} (hn : s.next site e = some s')
    (he : e.call? = some k) : Concerns k s s' := by
  cases e with
  | clock c reading => cases he
  | trouble t => cases he
  | ask j owner name atMost atLeast =>
    cases he
    simp only [next, ask] at hn
    split at hn
    · cases hn
    split at hn
    · cases hn
      exact .tell rfl
    · cases hn
      exact .attempt k s _
  | arrive j =>
    cases he
    simp only [next, arrive] at hn
    split at hn
    · split at hn
      · cases hn
        exact concerns_arriveWith ..
      · cases hn
    · cases hn
  | finish j =>
    cases he
    obtain ⟨a, -, hn⟩ := Option.bind_eq_some_iff.mp hn
    obtain ⟨p, -, hn⟩ := Option.bind_eq_some_iff.mp hn
    cases hn
    exact concerns_settle ..
  | expire j =>
    cases he
    obtain ⟨a, -, hn⟩ := Option.bind_eq_some_iff.mp hn
    obtain ⟨p, -, hn⟩ := Option.bind_eq_some_iff.mp hn
    cases hn
    exact concerns_settle ..
  | cancel j =>
    cases he
    obtain ⟨a, -, hn⟩ := Option.bind_eq_some_iff.mp hn
    obtain ⟨p, -, hn⟩ := Option.bind_eq_some_iff.mp hn
    cases hn
    exact concerns_abandon ..
  | release j =>
    cases he
    simp only [next, release] at hn
    split at hn
    · split at hn
      · cases hn
        exact concerns_releaseWith ..
      · cases hn
    · cases hn

/-- Any other event moves no call, and changes no lock. -/
theorem next_none {τ : Type} {site : Site σ τ} {e : Event τ} (hn : s.next site e = some s') (he : e.call? = none) :
    s'.attempts = s.attempts ∧ s'.members = s.members := by
  cases e with
  | clock c reading =>
    simp only [next, setClock] at hn
    split at hn
    · cases hn
      exact ⟨rfl, rfl⟩
    · cases hn
  | trouble t =>
    cases hn
    exact ⟨rfl, rfl⟩
  | _ => cases he

/-- An arrival is the arrival of a request that is on its way. -/
theorem next_arrive {τ : Type} {site : Site σ τ} (hn : s.next site (.arrive k) = some s') :
    ∃ a purpose, s.attempts k = some a ∧ a.stage = .calling purpose ∧ s' = s.arriveWith site.store k a purpose := by
  simp only [next, arrive] at hn
  split at hn
  · rename_i a ha
    split at hn
    · rename_i purpose hp
      cases hn
      exact ⟨a, purpose, ha, hp, rfl⟩
    · cases hn
  · cases hn

/-- **While others act, a call stays where it is.** -/
theorem attempts_run {τ : Type} {site : Site σ τ} {es : List (Event τ)} (hr : s.run site es = some s')
    (hes : ∀ e ∈ es, e.call? ≠ some k) : s'.attempts k = s.attempts k := by
  induction es generalizing s with
  | nil =>
    cases hr
    rfl
  | cons e es ih =>
    obtain ⟨s₁, hn, hr⟩ := Option.bind_eq_some_iff.mp hr
    rw [ih hr fun e' he' => hes e' (List.mem_cons_of_mem _ he')]
    have hek := hes e List.mem_cons_self
    cases he : e.call? with
    | none => rw [(next_none hn he).1]
    | some j =>
      rw [he] at hek
      exact (concerns_next hn he).attempts k fun h => hek (congrArg some h.symm)

/-- Locks keep their clocks. -/
theorem clockOf_run {τ : Type} {site : Site σ τ} {es : List (Event τ)} (hr : s.run site es = some s') (n : Nat) :
    (s'.members n).clock = (s.members n).clock := by
  induction es generalizing s with
  | nil =>
    cases hr
    rfl
  | cons e es ih =>
    obtain ⟨s₁, hn, hr⟩ := Option.bind_eq_some_iff.mp hr
    rw [ih hr]
    cases he : e.call? with
    | none => rw [(next_none hn he).2]
    | some j => exact (concerns_next hn he).clockOf n

end Race
end Leasehold
