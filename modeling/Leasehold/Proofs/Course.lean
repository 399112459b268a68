/-
  The course of a race: what one event does to the end of a record, and when.

  Bounds on the ends of records are kept by every event, for reasons that differ from bound to bound.  What an event can do
  is the same for all of them, and it is told here once, so that nobody opens `Race.next` again for a bound:

  1. **`Took`, `Gave`, `Idle`** — an acquire is applied, or a release is, or the ends of all records stay.  The two writes
     tell everything that is known of them: the condition they found, the end they wrote, and that they touched no other
     name.
  2. **`Sound.change`** — an event is one of the three.  Whichever it is, no clock goes back (`clocks_next`), and nothing
     that was told is taken back (`history_run`).
  3. **`next_stage`** — how one event may move one call.  Hence a call keeps the claim that it began with (`claim_run`),
     and a release that is on its way was begun by an event that read the clock (`next_pending`).
  4. **`OneClock`, `Reached`** — all locks may go by one clock, and a clock has come to a moment.  What was taken was taken
     when the clock had come there (`Sound.taken_reached`).
-/
import Leasehold.Proofs.Exclusion
namespace Leasehold
namespace Race

variable {s s' : Race Memory} {k n : Nat} {a : Attempt} {l l' : Lease} {u : Instant} {e : Event Memory.Trouble}

/-- When the record of a name ends. -/
def ends (s : Race Memory) : String → Option Instant := s.world.store.endOf

/-! ## What an event can do -/

/-- **An acquire is applied**: the name was free when the claim was made, and its record ends with the lease now. -/
structure Took (s s' : Race Memory) (k : Nat) (l : Lease) : Prop where
  history : s'.history = s.history ++ [.acquired k l]
  unknown : s.history.Unknown k
  claimed : ∃ a, s.attempts k = some a ∧ l = s.leaseOf a
  whole : l.atMost.IsWhole
  free : ∀ e, s.ends l.name = some e → e.micros ≤ l.takenAt.micros
  self : s'.ends l.name = some l.atMost
  other : ∀ name, name ≠ l.name → s'.ends name = s.ends name
  clocks : s'.clocks = s.clocks

/-- **A release is applied**: the lease was not released before, the record ended with it, and ends at `u` now. -/
structure Gave (s s' : Race Memory) (k : Nat) (l : Lease) (u : Instant) : Prop where
  history : s'.history = s.history ++ [.released k u]
  stillOpen : s.history.Open k l
  pending : ∃ a, s.attempts k = some a ∧ a.stage = .calling (.release l u)
  until' : ∃ now, u = l.releaseUntil now
  whole : u.IsWhole
  held : s.ends l.name = some l.atMost
  self : s'.ends l.name = some u
  other : ∀ name, name ≠ l.name → s'.ends name = s.ends name
  clocks : s'.clocks = s.clocks

/-- **Nothing is written**, though something may be told, and a clock may go on. -/
structure Idle (s s' : Race Memory) : Prop where
  history : ∃ ms : Chronicle, (∀ m ∈ ms, ¬m.IsWrite) ∧ s'.history = s.history ++ ms
  ends : s'.ends = s.ends
  clocks : ∀ c, (s.clocks c).position ≤ (s'.clocks c).position

/-- No clock goes back. -/
theorem clocks_next {σ τ : Type} {site : Site σ τ} {s s' : Race σ} {e : Event τ} (h : s.next site e = some s')
    (c : ClockChoice) : (s.clocks c).position ≤ (s'.clocks c).position := by
  cases he : e.call? with
  | some k => exact Int.le_of_eq (congrArg (fun f => (f c).position) (concerns_next h he).clocks.symm)
  | none =>
    cases e with
    | clock c' reading =>
      simp only [next, setClock] at h
      split at h
      · rename_i hle
        cases h
        show _ ≤ (Function.update s.clocks c' reading c).position
        by_cases hc : c = c'
        · rw [hc, Function.update_self]
          exact hle
        · have hsame : Function.update s.clocks c' reading c = s.clocks c := Function.update_of_ne hc _ _
          exact Int.le_of_eq (congrArg DateTime.position hsame.symm)
      · cases h
    | trouble t =>
      cases h
      exact Int.le_refl _
    | _ => cases he

/-- The arrival of an acquire. -/
theorem Sound.took_or_idle (hs : s.Sound) (ha : s.attempts k = some a) (hp : a.stage = .calling .acquire) :
    Took s (s.arriveWith Memory.store k a .acquire) k (s.leaseOf a) ∨
      Idle s (s.arriveWith Memory.store k a .acquire) := by
  have hh := history_arriveWith Memory.store k a .acquire s
  obtain ⟨hunknown, he⟩ := hs.acquire_carried ha hp
  rcases he.applied_or_not with ⟨hfree, ho, hm⟩ | ⟨hno, hm⟩
  · rw [ho] at hh
    refine Or.inl ⟨hh, hunknown, ⟨a, ha, rfl⟩, (hs.calls k a ha).whole.atMost, hfree, ?_, fun name hn => ?_, rfl⟩
    · show (s.carry Memory.store a .acquire).1.store.endOf _ = _
      rw [hm]
      exact Memory.endOf_put_self ..
    · show (s.carry Memory.store a .acquire).1.store.endOf _ = _
      rw [hm]
      exact Memory.endOf_put_other hn ..
  · rw [markWritten_unanswered hno] at hh
    exact Or.inr ⟨⟨[], nofun, hh⟩, Memory.endOf_congr hm, fun c => Int.le_refl _⟩

/-- What a release on its way asks for is a whole millisecond. -/
theorem Sound.pending_whole (hs : s.Sound) (ha : s.attempts k = some a) (hp : a.stage = .calling (.release l u)) :
    u.IsWhole := by
  have hcall := hs.calls k a ha
  have hfit := hcall.fits
  rw [hp] at hfit
  obtain ⟨rfl, -, now, rfl, hnow, -⟩ := hfit
  have hlease : (s.leaseOf a).IsWhole := ⟨hcall.whole.atMost, hcall.whole.atLeast⟩
  exact hlease.releaseUntil hnow

/-- The arrival of a release. -/
theorem Sound.gave_or_idle (hs : s.Sound) (ha : s.attempts k = some a) (hp : a.stage = .calling (.release l u)) :
    Gave s (s.arriveWith Memory.store k a (.release l u)) k l u ∨
      Idle s (s.arriveWith Memory.store k a (.release l u)) := by
  have hh := history_arriveWith Memory.store k a (.release l u) s
  have hwhole := hs.pending_whole ha hp
  have hfit := (hs.calls k a ha).fits
  rw [hp] at hfit
  obtain ⟨-, hopen, now, hu, -⟩ := hfit
  obtain ⟨⟨rfl, -, -⟩, he⟩ := hs.release_carried ha hp
  rcases he.applied_or_not with ⟨hend, ho, hm⟩ | ⟨hno, hm⟩
  · rw [ho] at hh
    refine Or.inl ⟨hh, hopen, ⟨a, ha, hp⟩, ⟨now, hu⟩, hwhole, hend, ?_, fun name hn => ?_, rfl⟩
    · show (s.carry Memory.store a (.release (s.leaseOf a) u)).1.store.endOf _ = _
      rw [hm]
      exact Memory.endOf_put_self ..
    · show (s.carry Memory.store a (.release (s.leaseOf a) u)).1.store.endOf _ = _
      rw [hm]
      exact Memory.endOf_put_other hn ..
  · rw [markWritten_unanswered hno] at hh
    exact Or.inr ⟨⟨[], nofun, hh⟩, Memory.endOf_congr hm, fun c => Int.le_refl _⟩

/-- **Every event is one of the three**, and only an arrival writes. -/
theorem Sound.change (hs : s.Sound) (h : s.next Memory.site e = some s') :
    Idle s s' ∨ ∃ k, e = .arrive k ∧ ((∃ l, Took s s' k l) ∨ ∃ l u, Gave s s' k l u) := by
  by_cases he : ∃ k, e = .arrive k
  · obtain ⟨k, rfl⟩ := he
    obtain ⟨a, purpose, ha, hp, rfl⟩ := next_arrive h
    cases purpose with
    | acquire =>
      rcases hs.took_or_idle ha hp with htook | hidle
      · exact Or.inr ⟨k, rfl, Or.inl ⟨_, htook⟩⟩
      · exact Or.inl hidle
    | release l u =>
      rcases hs.gave_or_idle ha hp with hgave | hidle
      · exact Or.inr ⟨k, rfl, Or.inr ⟨l, u, hgave⟩⟩
      · exact Or.inl hidle
  · obtain ⟨hrecords, hhistory⟩ := next_quiet h fun k hk => he ⟨k, hk⟩
    exact Or.inl ⟨hhistory, Memory.endOf_congr hrecords, clocks_next h⟩

/-! ## Runs -/

section

variable {σ τ : Type} {site : Site σ τ} {s s' : Race σ} {e : Event τ} {es : List (Event τ)}

/-- A run of one event more. -/
theorem run_cons (h : s.run site (e :: es) = some s') : ∃ s₁, s.next site e = some s₁ ∧ s₁.run site es = some s' :=
  Option.bind_eq_some_iff.mp h

/-! ## How a call moves -/

theorem ofResult_ne (r : Except Error (Option Lease)) (p : Purpose) : Stage.ofResult r ≠ .calling p := by
  intro h
  cases r with
  | error e => cases h
  | ok lease => cases lease <;> cases h

/-- A call that is settled is on its way no more, -/
theorem settle_stage (s : Race σ) (k : Nat) (a : Attempt) (purpose : Purpose) (o : Outcome LeaseRecord) :
    ∃ stage, (s.settle k a purpose o).attempts k = some { a with stage } ∧ ∀ p, stage ≠ .calling p := by
  cases purpose with
  | acquire => exact ⟨_, Function.update_self .., fun p => ofResult_ne _ p⟩
  | release l u => exact ⟨_, Function.update_self .., fun p hp => by cases hp⟩

/-- and neither is one that is abandoned. -/
theorem abandon_stage (s : Race σ) (k : Nat) (a : Attempt) (purpose : Purpose) :
    ∃ stage, (s.abandon k a purpose).attempts k = some { a with stage } ∧ ∀ p, stage ≠ .calling p := by
  cases purpose with
  | acquire => exact ⟨_, Function.update_self .., fun p hp => by cases hp⟩
  | release l u => exact ⟨_, Function.update_self .., fun p hp => by cases hp⟩

/-- **How one event may move one call**: it begins, or it goes on to another stage with the claim that it has; and only
the beginning of a release, which reads the clock, puts a release on its way. -/
theorem next_stage (h : s.next site e = some s') (n : Nat) :
    s'.attempts n = s.attempts n ∨
    (s.attempts n = none ∧ ∃ owner claim, s'.attempts n = some ⟨owner, claim, .calling .acquire⟩) ∨
    ∃ a stage, s.attempts n = some a ∧ s'.attempts n = some { a with stage } ∧
      ∀ l u, stage = .calling (.release l u) → e = .release n ∧ a.stage = .held l ∧
        ∃ now, (GivenTime.time (s.reading a.owner)).truncate = .ok now ∧ u = l.releaseUntil now := by
  -- events of other calls leave this one
  by_cases hother : e.call? ≠ some n
  · left
    cases he : e.call? with
    | none => rw [(next_none h he).1]
    | some k => exact (concerns_next h he).attempts n fun hn => hother (hn ▸ he)
  cases e with
  | clock c reading => exact absurd (fun hcall => by cases hcall) hother
  | trouble t => exact absurd (fun hcall => by cases hcall) hother
  | ask k owner name atMost atLeast =>
    obtain rfl : k = n := by simpa [Event.call?] using hother
    simp only [next, ask] at h
    split at h
    · cases h
    rename_i hnone
    split at h
    · cases h
      exact Or.inl rfl
    · cases h
      exact Or.inr (Or.inl ⟨hnone, owner, _, Function.update_self ..⟩)
  | arrive k =>
    obtain rfl : k = n := by simpa [Event.call?] using hother
    obtain ⟨a, purpose, ha, -, rfl⟩ := next_arrive h
    exact Or.inr (Or.inr ⟨a, _, ha, Function.update_self .., fun l u hs => by cases hs⟩)
  | finish k =>
    obtain rfl : k = n := by simpa [Event.call?] using hother
    obtain ⟨a, ha, h⟩ := Option.bind_eq_some_iff.mp h
    obtain ⟨⟨purpose, o⟩, -, h⟩ := Option.bind_eq_some_iff.mp h
    cases h
    obtain ⟨stage, hstage, hrest⟩ := s.settle_stage k a purpose o
    exact Or.inr (Or.inr ⟨a, stage, ha, hstage, fun l u hs => absurd hs (hrest _)⟩)
  | expire k =>
    obtain rfl : k = n := by simpa [Event.call?] using hother
    obtain ⟨a, ha, h⟩ := Option.bind_eq_some_iff.mp h
    obtain ⟨purpose, -, h⟩ := Option.bind_eq_some_iff.mp h
    cases h
    obtain ⟨stage, hstage, hrest⟩ := s.settle_stage k a purpose .silent
    exact Or.inr (Or.inr ⟨a, stage, ha, hstage, fun l u hs => absurd hs (hrest _)⟩)
  | cancel k =>
    obtain rfl : k = n := by simpa [Event.call?] using hother
    obtain ⟨a, ha, h⟩ := Option.bind_eq_some_iff.mp h
    obtain ⟨purpose, -, h⟩ := Option.bind_eq_some_iff.mp h
    cases h
    obtain ⟨stage, hstage, hrest⟩ := s.abandon_stage k a purpose
    exact Or.inr (Or.inr ⟨a, stage, ha, hstage, fun l u hs => absurd hs (hrest _)⟩)
  | release k =>
    obtain rfl : k = n := by simpa [Event.call?] using hother
    simp only [next, release] at h
    split at h
    · rename_i a ha
      split at h
      · rename_i l hp
        cases h
        simp only [releaseWith]
        split
        · exact Or.inl rfl
        split
        · exact Or.inl rfl
        · rename_i now hnow
          refine Or.inr (Or.inr ⟨a, _, ha, Function.update_self .., fun l' u hs => ?_⟩)
          cases hs
          exact ⟨trivial, hp, now, hnow, rfl⟩
      · cases h
    · cases h

/-- A call keeps its claim and its owner. -/
theorem claim_run {a : Attempt} {n : Nat} (h : s.run site es = some s') (ha : s.attempts n = some a) :
    ∃ stage, s'.attempts n = some { a with stage } := by
  induction es generalizing s a with
  | nil =>
    cases h
    exact ⟨a.stage, ha⟩
  | cons e es ih =>
    obtain ⟨s₁, hn, hr⟩ := run_cons h
    rcases next_stage hn n with hsame | ⟨hnone, -⟩ | ⟨a', stage, ha', hstage, -⟩
    · exact ih hr (hsame.trans ha)
    · rw [ha] at hnone
      cases hnone
    · rw [ha] at ha'
      cases ha'
      obtain ⟨stage', hend⟩ := ih hr hstage
      exact ⟨stage', hend⟩

/-- A lock keeps who it is. -/
theorem identity_run (h : s.run site es = some s') (n : Nat) : (s'.lock n).identity = (s.lock n).identity := by
  induction es generalizing s with
  | nil =>
    cases h
    rfl
  | cons e es ih =>
    obtain ⟨s₁, hn, hr⟩ := run_cons h
    rw [ih hr]
    cases he : e.call? with
    | none => simp only [Race.lock, (next_none hn he).2]
    | some j => exact (concerns_next hn he).identity n

/-- **A release on its way** was on its way before, or its lease was in hand and the clock was read. -/
theorem next_pending {a : Attempt} {n : Nat} {l : Lease} {u : Instant} (h : s.next site e = some s')
    (ha : s'.attempts n = some a) (hp : a.stage = .calling (.release l u)) :
    s.attempts n = some a ∨ e = .release n ∧ ∃ b, s.attempts n = some b ∧ b.owner = a.owner ∧ b.stage = .held l ∧
      ∃ now, (GivenTime.time (s.reading b.owner)).truncate = .ok now ∧ u = l.releaseUntil now := by
  rcases next_stage h n with hsame | ⟨-, owner, claim, hnew⟩ | ⟨b, stage, hb, hstage, hrelease⟩
  · exact Or.inl (hsame ▸ ha)
  · rw [ha] at hnew
    cases hnew
    cases hp
  · rw [ha] at hstage
    cases hstage
    obtain ⟨he, hheld, hnow⟩ := hrelease l u hp
    exact Or.inr ⟨he, b, hb, rfl, hheld, hnow⟩

end

/-- Nothing that was told is taken back. -/
theorem history_next (hs : s.Sound) (h : s.next Memory.site e = some s') : ∃ ms, s'.history = s.history ++ ms := by
  rcases hs.change h with hidle | ⟨k, -, ⟨l, htook⟩ | ⟨l, u, hgave⟩⟩
  · obtain ⟨ms, -, hh⟩ := hidle.history
    exact ⟨ms, hh⟩
  · exact ⟨_, htook.history⟩
  · exact ⟨_, hgave.history⟩

theorem history_run {es : List (Event Memory.Trouble)} (hs : s.Sound) (h : s.run Memory.site es = some s') :
    ∃ ms, s'.history = s.history ++ ms := by
  induction es generalizing s with
  | nil =>
    cases h
    exact ⟨[], (List.append_nil _).symm⟩
  | cons e es ih =>
    obtain ⟨s₁, hn, hr⟩ := run_cons h
    obtain ⟨ms, hms⟩ := history_next hs hn
    obtain ⟨ms', hms'⟩ := ih (hs.next hn) hr
    exact ⟨ms ++ ms', by rw [hms', hms, List.append_assoc]⟩

/-- The invariant holds after a run, if it held before. -/
theorem Sound.run {es : List (Event Memory.Trouble)} (hs : s.Sound) (h : s.run Memory.site es = some s') :
    s'.Sound := by
  induction es generalizing s with
  | nil =>
    cases h
    exact hs
  | cons e es ih =>
    obtain ⟨s₁, hn, hr⟩ := run_cons h
    exact ih (hs.next hn) hr

/-! ## One clock -/

section

variable {σ τ : Type} {site : Site σ τ} {s s' : Race σ} {e : Event τ} {es : List (Event τ)} {c : ClockChoice}
  {i j : Instant}

/-- **All locks go by one clock.** -/
def OneClock (s : Race σ) (c : ClockChoice) : Prop := ∀ n, (s.members n).clock = c

/-- **A clock has come to a moment.** -/
def Reached (s : Race σ) (c : ClockChoice) (i : Instant) : Prop := (i.micros : Int) ≤ (s.clocks c).position

theorem OneClock.reading (h : s.OneClock c) (n : Nat) : s.reading n = s.clocks c := by rw [Race.reading, h n]

theorem oneClock_run (h : s.run site es = some s') : s'.OneClock c ↔ s.OneClock c := by
  simp only [OneClock, clockOf_run h]

theorem oneClock_next (h : s.next site e = some s') : s'.OneClock c ↔ s.OneClock c := by
  have hrun : s.run site [e] = some s' := by
    show (do run site (← s.next site e) []) = some s'
    rw [h]
    rfl
  exact oneClock_run hrun

/-- A clock has come to what lies before a moment that it has come to, -/
theorem Reached.of_le (h : s.Reached c j) (hij : i.micros ≤ j.micros) : s.Reached c i := by
  simp only [Reached] at *
  omega

/-- ... and does not go back. -/
theorem Reached.of_clocks (h : s.Reached c i) (hc : s'.clocks = s.clocks) : s'.Reached c i := by
  rwa [Reached, hc]

theorem Reached.later (h : s.Reached c i) (hle : (s.clocks c).position ≤ (s'.clocks c).position) : s'.Reached c i :=
  Int.le_trans h hle

end

/-- What was taken was taken when the clock had come there. -/
theorem Sound.taken_reached (hs : s.Sound) {c : ClockChoice} (hc : s.OneClock c)
    (hl : Mark.acquired k l ∈ s.history) : s.Reached c l.takenAt := by
  obtain ⟨a, -, -, htaken⟩ := hs.taken_before hl
  rwa [hc.reading] at htaken

/-- The floor of a lease does not lie after its ceiling. -/
theorem Sound.floor_le_ceiling (hs : s.Sound) (hl : Mark.acquired k l ∈ s.history) :
    l.atLeast.micros ≤ l.atMost.micros := by
  obtain ⟨a, -, rfl, -⟩ := hs.taken_before hl
  exact a.claim.ordered

/-- The claim of an acquire that is applied was made when the clock had come there. -/
theorem Took.taken_reached (h : Took s s' k l) (hs : s.Sound) {c : ClockChoice} (hc : s.OneClock c) :
    s.Reached c l.takenAt := by
  obtain ⟨a, ha, rfl⟩ := h.claimed
  have htaken := (hs.calls k a ha).takenAt
  rwa [hc.reading] at htaken

/-- Its floor does not lie after its ceiling either. -/
theorem Took.floor_le_ceiling (h : Took s s' k l) : l.atLeast.micros ≤ l.atMost.micros := by
  obtain ⟨a, -, rfl⟩ := h.claimed
  exact a.claim.ordered

end Race
end Leasehold
