/-
  Accepted terms can be executed.

  Terms are checked to the microsecond, deadlines to the millisecond, and both deadlines are told from ONE reading of the
  clock by what it shows.  A ceiling above zero passes the first check, and yet it may end in the millisecond in which it
  begins; then a run under a lock tells that the terms make no sense, although they were accepted.  Where a zone is as far
  from UTC at the deadlines as it is now, that is the only way in which it does.  Where clocks go back in between, a ceiling
  of ten minutes may lie before the reading.

  1. **`Terms.KeepsOffset`** — the zone keeps its distance from UTC until the deadlines.  Then so much time passes as the
     terms say (`KeepsOffset.moments`); clocks at a fixed distance from UTC always do (`keepsOffset_time`);
  2. **`Claim.ofTerms_cases`** — whether terms become a claim is a matter of three moments, cut to milliseconds: those of the
     reading, of the ceiling and of the floor;
  3. **`Scene.execute_error`** — whose failure it is that a run tells, over any store and for any task;
  4. **`Scene.execute_rejects`** — hence when a run rejects terms that were accepted.
-/
import Leasehold.Proofs.Admission
namespace Leasehold

/-! ## Reading and deadlines -/

/-- What is shown a duration later. -/
theorem Instant.add_micros {w w' : Instant} {d : Duration} (h : w.add d = .ok w') :
    (w'.micros : Int) = w.micros + d.micros := by
  rw [add, ofMicros] at h
  split at h
  · rename_i hin
    cases h
    exact Int.toNat_of_nonneg hin.1
  · cases h

/-- The distance from UTC of a time that was given, if it is known. -/
def GivenTime.offset? (g : GivenTime) : Option Int := g.dateTime?.bind (·.offset)

/-- So much time passes as was added, if the distance from UTC is the same then. -/
theorem GivenTime.add_position {g g' : GivenTime} {t t' : DateTime} {d : Duration} (hadd : g.add d = .ok g')
    (ht : g.dateTime? = some t) (ht' : g'.dateTime? = some t') (hoffset : g'.offset? = g.offset?) :
    t'.position = t.position + d.micros := by
  obtain ⟨u, hu, hwall, -⟩ := add_dateTime ht hadd
  obtain rfl := Option.some.inj (hu.symm.trans ht')
  have hsame : u.offset = t.offset := by
    rw [offset?, offset?, ht, hu] at hoffset
    exact hoffset
  have hmicros := Instant.add_micros hwall
  rw [DateTime.position, DateTime.position, hsame]
  omega

namespace Terms

variable {terms : Terms} {reading : GivenTime}

/-- **The zone of a reading is as far from UTC at the deadlines of the terms as it is now.** -/
structure KeepsOffset (terms : Terms) (reading : GivenTime) : Prop where
  atMost : ∀ most, reading.add terms.ceiling = .ok most → most.offset? = reading.offset?
  atLeast : ∀ least, reading.add terms.floor = .ok least → least.offset? = reading.offset?

/-- Clocks at a fixed distance from UTC keep it. -/
theorem keepsOffset_time (terms : Terms) (t : DateTime) : terms.KeepsOffset (.time t) := by
  have hfixed : ∀ (d : Duration) (g : GivenTime), (GivenTime.time t).add d = .ok g → g.offset? = t.offset := by
    intro d g hadd
    obtain ⟨u, hu, rfl⟩ := Except.map_ok (Except.mapError_ok hadd)
    obtain ⟨wall, -, rfl⟩ := Except.map_ok hu
    rfl
  exact ⟨hfixed _, hfixed _⟩

/-- The moments of the deadlines, counted from the reading. -/
theorem KeepsOffset.moments (h : terms.KeepsOffset reading) {now : DateTime} (hnow : reading.dateTime? = some now)
    {most least : GivenTime} {i j : Instant} (hmost : reading.add terms.ceiling = .ok most) (hi : most.Denotes i)
    (hleast : reading.add terms.floor = .ok least) (hj : least.Denotes j) :
    (i.micros : Int) = now.position + terms.ceiling.micros ∧ (j.micros : Int) = now.position + terms.floor.micros := by
  obtain ⟨t, ht, -, hi⟩ := hi
  obtain ⟨u, hu, -, hj⟩ := hj
  constructor
  · rw [DateTime.toUtc_position hi, GivenTime.add_position hmost hnow ht (h.atMost most hmost)]
  · rw [DateTime.toUtc_position hj, GivenTime.add_position hleast hnow hu (h.atLeast least hleast)]

end Terms

namespace Claim

/-- The claim of terms whose two deadlines can be told. -/
theorem ofTerms_deadlines {terms : Terms} {reading most least : GivenTime} (hmost : reading.add terms.ceiling = .ok most)
    (hleast : reading.add terms.floor = .ok least) :
    ofTerms terms reading = ofGiven reading (.text terms.name) most least := by
  rw [ofTerms, Terms.deadlines, hmost, hleast]
  rfl

/-- **Deadlines that do not make sense at a moment**: the ceiling does not end in a later millisecond, or the floor ends in a
later one than the ceiling. -/
def Disordered (now most least : Instant) : Prop :=
  most.truncate.micros ≤ now.truncate.micros ∨ most.truncate.micros < least.truncate.micros

/-- **What becomes of terms whose deadlines stand for moments.**  If the reading stands for a moment too, it is a matter of
the three moments whether they become a claim; else the reading is out of range. -/
theorem ofTerms_cases {terms : Terms} {reading most least : GivenTime} {i j : Instant} (haware : reading.IsAware)
    (hmost : reading.add terms.ceiling = .ok most) (hi : most.Denotes i) (hleast : reading.add terms.floor = .ok least)
    (hj : least.Denotes j) :
    (∃ n, reading.Denotes n ∧ Disordered n i j ∧ ∃ fault, ofTerms terms reading = .error (.terms fault)) ∨
      (∃ n, reading.Denotes n ∧ ¬Disordered n i j ∧ ∃ claim, ofTerms terms reading = .ok claim) ∨
      (¬∃ n, reading.Denotes n) ∧ ofTerms terms reading = .error (.time .outOfCalendar) := by
  obtain ⟨now, hnow, haware⟩ := haware
  rw [ofTerms_deadlines hmost hleast]
  rcases DateTime.toUtc_aware haware with ⟨n, hn⟩ | herror
  · have hn' : reading.Denotes n := ⟨now, hnow, haware, hn⟩
    have hgiven : least.isNone = false := by
      obtain ⟨u, hu, -⟩ := hj
      exact GivenTime.isNone_dateTime hu
    have hj' : (floorMeant n least).Denotes j := by
      rw [floorMeant, hgiven]
      exact hj
    by_cases hdisordered : Disordered n i j
    · left
      have hnot : ¬∃ name m l, Admitted n (.text terms.name) most least name m l := by
        rintro ⟨name, m, l, h⟩
        obtain rfl := h.atMost.unique hi
        obtain rfl := h.atLeast.unique hj'
        rcases hdisordered with hpast | hfloor
        · exact Nat.not_lt.mpr hpast h.future
        · exact Nat.not_lt.mpr h.ordered hfloor
      obtain ⟨e, he, ⟨hunreachable, -⟩ | ⟨-, fault, rfl⟩⟩ := ofGiven_refused hnow hn hnot
      · rcases hunreachable.missing with hmissing | hmissing
        · exact absurd ⟨i, hi⟩ hmissing
        · exact absurd ⟨j, hj'⟩ hmissing
      · exact ⟨n, hn', hdisordered, fault, he⟩
    · right
      left
      obtain ⟨hfuture, hordered⟩ := not_or.mp hdisordered
      have hadmitted : Admitted n (.text terms.name) most least terms.name i j :=
        ⟨rfl, terms.named, hi, hj', Nat.not_le.mp hfuture, Nat.not_lt.mp hordered⟩
      obtain ⟨claim, hclaim, -⟩ := ofGiven_admitted hnow hn hadmitted
      exact ⟨n, hn', hdisordered, claim, hclaim⟩
  · right
    right
    constructor
    · rintro ⟨n, t, ht, -, hn⟩
      obtain rfl := Option.some.inj (hnow.symm.trans ht)
      rw [herror] at hn
      cases hn
    · rw [ofGiven, GivenTime.truncate_dateTime hnow, DateTime.truncate, herror]
      rfl

end Claim

/-- **Where the zone keeps its distance from UTC, it is a matter of one millisecond** whether the deadlines make sense. -/
theorem Terms.KeepsOffset.disordered_iff {terms : Terms} {reading : GivenTime} (h : terms.KeepsOffset reading)
    {most least : GivenTime} {i j n : Instant} (hmost : reading.add terms.ceiling = .ok most) (hi : most.Denotes i)
    (hleast : reading.add terms.floor = .ok least) (hj : least.Denotes j) (hn : reading.Denotes n) :
    Claim.Disordered n i j ↔ n.truncate = i.truncate := by
  obtain ⟨now, hnow, -, hutc⟩ := hn
  obtain ⟨hceiling, hfloor⟩ := h.moments hnow hmost hi hleast hj
  have hreading := DateTime.toUtc_position hutc
  have hlasting := terms.lasting
  have hwithin := terms.floorWithin
  have hlater : n.truncate.micros ≤ i.truncate.micros := Instant.truncate_mono (by omega)
  have hordered : j.truncate.micros ≤ i.truncate.micros := Instant.truncate_mono (by omega)
  constructor
  · rintro (hpast | hfloor')
    · exact Instant.ext_micros (Nat.le_antisymm hlater hpast)
    · exact absurd hordered (Nat.not_le.mpr hfloor')
  · intro hsame
    exact .inl (Nat.le_of_eq (congrArg Instant.micros hsame).symm)

/-! ## Whose failure it is -/

/-- **A deed fails with an error**: the store raises it in a call, or the task does. -/
def Deed.FailsWith : Deed → Error → Prop
  | .asked _ o, e => o = .failed e
  | .began, _ => False
  | .ended result, e => result = .error e
  | .gaveBack _ o, e => o = .failed e

/-- A failure of a release itself: it tells that the release failed, or the clock does not tell the time. -/
def Error.OfRelease (e : Error) : Prop :=
  (∃ name timeout cause, e = .releaseFailed name timeout cause) ∨ ∃ now : GivenTime, now.truncate = .error e

/-- No release rejects terms. -/
theorem Error.OfRelease.not_configuration {e : Error} (h : e.OfRelease) : e.isA .configuration = false := by
  rcases h with ⟨name, timeout, cause, rfl⟩ | ⟨now, hnow⟩
  · rfl
  rcases now.dateTime?_cases with ⟨t, ht⟩ | ⟨v, rfl⟩
  · rw [GivenTime.truncate_dateTime ht] at hnow
    obtain ⟨fault, -, rfl⟩ := Except.mapError_error hnow
    cases fault <;> rfl
  · cases hnow
    rfl

/-- What the caller sees fail is the task or the release. -/
theorem Guarded.verdict_error {ending : Except Error Value} {back : Except Error Unit} {e : Error}
    (h : verdict ending back = .error e) : ending = .error e ∨ back = .error e := by
  cases ending with
  | ok v =>
    cases back with
    | ok _ => cases h
    | error e' =>
      cases h
      exact .inr rfl
  | error failure =>
    cases back with
    | ok _ =>
      cases h
      exact .inl rfl
    | error e' =>
      rw [verdict] at h
      split at h
      · cases h
        exact .inl rfl
      · cases h
        exact .inr rfl

namespace Scene

variable {σ : Type}

section

variable (S : LeaseStore σ) (terms : Terms) (task : SceneTask σ)

/-- An acquire on tape, whatever the store makes of it. -/
theorem acquire_onTape {s : Scene σ} {claim : Claim} (hclaim : Claim.ofTerms terms s.clock = .ok claim) :
    (Evaluation.ofState _).eval (guarded S.taped terms (tapedTask task)).acquire (s.onTape []) =
      some ((s.lock.tryAcquire S claim s.world).2.2, (s.afterAcquire S claim).onTape
        [.asked (claim.request s.lock.identity) (S.tryUpdate (claim.request s.lock.identity) s.world).2]) := by
  have hclock : (s.onTape []).clock = s.clock := rfl
  simp only [Evaluation.ofState, guarded, hclock, hclaim]
  rfl

/-- A release on tape, whatever the store makes of it: the tape goes on, and a failure is the store's or its own. -/
theorem release_onTape (lease : Lease) (t : Scene σ) (tape : List Deed) :
    ∃ back u, (Evaluation.ofState _).eval ((guarded S.taped terms (tapedTask task)).release lease) (t.onTape tape) =
        some (back, u) ∧
      tape <+: u.world.store.tape ∧ ∀ e, back = .error e → (∃ d ∈ u.world.store.tape, d.FailsWith e) ∨ e.OfRelease := by
  have hclock : (t.onTape tape).clock = t.clock := rfl
  simp only [Evaluation.ofState, guarded, afterRelease, Lock.release, hclock]
  by_cases hdone : lease.released = true
  · simp only [hdone, if_true]
    exact ⟨_, _, rfl, List.prefix_rfl, fun e he => by cases he⟩
  simp only [hdone, Bool.false_eq_true, if_false]
  cases hnow : t.clock.truncate with
  | error e =>
    refine ⟨_, _, rfl, List.prefix_rfl, fun e' he => ?_⟩
    cases he
    exact .inr (.inr ⟨_, hnow⟩)
  | ok now =>
    refine ⟨_, _, rfl, List.prefix_append tape [.gaveBack _ _], fun e he => ?_⟩
    rcases Lock.settleRelease_error he with ⟨ho, -⟩ | ⟨cause, rfl⟩
    · exact .inl ⟨_, List.mem_append_right tape (List.mem_singleton.mpr rfl), ho⟩
    · exact .inr (.inl ⟨_, _, _, rfl⟩)

section

variable {s : Scene σ} {claim : Claim} {e : Error} (hclaim : Claim.ofTerms terms s.clock = .ok claim)
include hclaim

/-- A run whose acquire fails tells the failure of the store in that call. -/
theorem executeTaped_failed (hresult : (s.lock.tryAcquire S claim s.world).2.2 = .error e) :
    (s.executeTaped S terms task).1 = .error e ∧ ∃ d ∈ s.deeds S terms task, d.FailsWith e := by
  have hacquire := acquire_onTape S terms task hclaim
  rw [hresult] at hacquire
  have hrun : s.executeTaped S terms task = (.error e, _) := Option.some.inj (Guarded.run_rejected hacquire terms.name)
  obtain ⟨ho, -⟩ := Lock.settleAcquire_error hresult
  rw [deeds, hrun]
  exact ⟨rfl, _, List.mem_singleton.mpr rfl, ho⟩

/-- A run that gets no lease tells no failure. -/
theorem executeTaped_skipped (hresult : (s.lock.tryAcquire S claim s.world).2.2 = .ok none) :
    (s.executeTaped S terms task).1 = .ok none := by
  have hacquire := acquire_onTape S terms task hclaim
  rw [hresult] at hacquire
  obtain ⟨u, heval, -⟩ := Guarded.run_refused (guarded_notes S.taped terms _) hacquire terms.name
  have hrun : s.executeTaped S terms task = (.ok none, u) := Option.some.inj heval
  rw [hrun]

/-- A run that gets its lease tells a failure of the task, of the store in the release, or of the release. -/
theorem executeTaped_guarded {lease : Lease} (hresult : (s.lock.tryAcquire S claim s.world).2.2 = .ok (some lease))
    (h : (s.executeTaped S terms task).1 = .error e) : (∃ d ∈ s.deeds S terms task, d.FailsWith e) ∨ e.OfRelease := by
  have hacquire := acquire_onTape S terms task hclaim
  rw [hresult] at hacquire
  obtain ⟨ending, t, htask⟩ : ∃ ending t, task (s.afterAcquire S claim) = (ending, t) := ⟨_, _, rfl⟩
  obtain ⟨back, u, hrelease, hprefix, hback⟩ := release_onTape S terms task lease t
    ([.asked _ _] ++ [.began, .ended ending])
  obtain ⟨v, heval, hnoted⟩ :=
    Guarded.run_guarded (guarded_notes S.taped terms _) hacquire (task_taped terms task htask _) hrelease terms.name
  have hrun : s.executeTaped S terms task = (Guarded.verdict ending back, v) := Option.some.inj heval
  rw [hrun] at h
  rw [deeds, hrun, tape_noted terms task hnoted]
  rcases Guarded.verdict_error h with hended | hfailed
  · exact .inl ⟨.ended ending, hprefix.mem (by simp), hended⟩
  · exact hback e hfailed

end

/-- **Whose failure a run tells**: that of the terms, of the store in a call, of the task, or of the release. -/
theorem execute_error {s : Scene σ} {e : Error} (h : (s.execute S terms task).1 = .error e) :
    Claim.ofTerms terms s.clock = .error e ∨ (∃ d ∈ s.deeds S terms task, d.FailsWith e) ∨ e.OfRelease := by
  cases hclaim : Claim.ofTerms terms s.clock with
  | error e' =>
    rw [(execute_rejected terms task hclaim).1] at h
    cases h
    exact .inl rfl
  | ok claim =>
    right
    rw [execute_untaped] at h
    cases hresult : (s.lock.tryAcquire S claim s.world).2.2 with
    | error e' =>
      obtain ⟨hrun, hraised⟩ := executeTaped_failed S terms task hclaim hresult
      rw [hrun] at h
      cases h
      exact .inl hraised
    | ok lease =>
      cases lease with
      | none =>
        rw [executeTaped_skipped S terms task hclaim hresult] at h
        cases h
      | some lease => exact executeTaped_guarded S terms task hclaim hresult h

/-- **A run rejects its terms**: it tells that they make no sense, and neither the store nor the task said so. -/
def Rejects (s : Scene σ) : Prop :=
  ∃ e, (s.execute S terms task).1 = .error e ∧ e.isA .configuration = true ∧ ¬∃ d ∈ s.deeds S terms task, d.FailsWith e

/-- **When a run rejects terms that were accepted**, the ceiling ending at the moment `i` and the floor at `j`. -/
structure RejectionRule (s : Scene σ) (i j : Instant) : Prop where
  /-- Exactly if the deadlines do not make sense at the moment of the reading. -/
  disordered : s.Rejects S terms task ↔ ∃ n, s.clock.Denotes n ∧ Claim.Disordered n i j
  /-- Where the zone keeps its distance from UTC, exactly if the ceiling ends in the millisecond of the reading, -/
  sameMillisecond : terms.KeepsOffset s.clock → (s.Rejects S terms task ↔ ∃ n, s.clock.Denotes n ∧ n.truncate = i.truncate)
  /-- and so never if the ceiling is a millisecond or more, whatever the floor is. -/
  long : terms.KeepsOffset s.clock → 1000 ≤ terms.ceiling.micros → ¬s.Rejects S terms task

/-- **Terms that were accepted are rejected by a run** exactly as the rule says: at any reading of a known distance from UTC,
in any zone, over any store and for any task. -/
theorem execute_rejects {s : Scene σ} {most least : GivenTime} {i j : Instant} (haware : s.clock.IsAware)
    (hmost : s.clock.add terms.ceiling = .ok most) (hi : most.Denotes i)
    (hleast : s.clock.add terms.floor = .ok least) (hj : least.Denotes j) : s.RejectionRule S terms task i j := by
  have hdisordered : s.Rejects S terms task ↔ ∃ n, s.clock.Denotes n ∧ Claim.Disordered n i j := by
    constructor
    · rintro ⟨e, he, hconfiguration, hnobody⟩
      rcases execute_error S terms task he with hclaim | hraised | hrelease
      · rcases Claim.ofTerms_cases haware hmost hi hleast hj with ⟨n, hn, hnot, -⟩ | ⟨-, -, -, claim, hok⟩ | ⟨-, hout⟩
        · exact ⟨n, hn, hnot⟩
        · rw [hok] at hclaim
          cases hclaim
        · rw [hout] at hclaim
          cases hclaim
          cases hconfiguration
      · exact absurd hraised hnobody
      · rw [hrelease.not_configuration] at hconfiguration
        cases hconfiguration
    · rintro ⟨n, hn, hnot⟩
      obtain ⟨fault, hfault⟩ : ∃ fault, Claim.ofTerms terms s.clock = .error (.terms fault) := by
        rcases Claim.ofTerms_cases haware hmost hi hleast hj with ⟨-, -, -, hfault⟩ | ⟨n', hn', hsense, -⟩ | ⟨hout, -⟩
        · exact hfault
        · obtain rfl := hn.unique hn'
          exact absurd hnot hsense
        · exact absurd ⟨n, hn⟩ hout
      obtain ⟨hresult, hdeeds⟩ := execute_rejected (S := S) terms task hfault
      refine ⟨_, hresult, rfl, ?_⟩
      rw [hdeeds]
      rintro ⟨d, hd, -⟩
      cases hd
  have hsame : terms.KeepsOffset s.clock →
      (s.Rejects S terms task ↔ ∃ n, s.clock.Denotes n ∧ n.truncate = i.truncate) := fun hkeeps =>
    hdisordered.trans (exists_congr fun _ => and_congr_right (hkeeps.disordered_iff hmost hi hleast hj))
  refine ⟨hdisordered, hsame, fun hkeeps hlong hrejects => ?_⟩
  -- a millisecond later is another millisecond
  obtain ⟨n, ⟨now, hnow, haware, hn⟩, hmillisecond⟩ := (hsame hkeeps).mp hrejects
  obtain ⟨hceiling, -⟩ := hkeeps.moments hnow hmost hi hleast hj
  have hreading := DateTime.toUtc_position hn
  have hmicros : n.micros / 1000 * 1000 = i.micros / 1000 * 1000 := congrArg Instant.micros hmillisecond
  omega

end

/-! ## Ceilings around half a millisecond

A clock in the east shows 500 microseconds after a full millisecond. -/

/-- Terms with a ceiling of so many microseconds, and no floor. -/
def brief (micros : Nat) (h : 0 < (micros : Int) ∧ (micros : Int) < 86400000000000000000 := by decide) : Terms :=
  { minute with ceiling := ⟨micros, by omega, h.2⟩, lasting := h.1, floorWithin := Int.natCast_nonneg micros }

/-- A task that returns at once. -/
def returning : SceneTask Memory := fun s => (.ok (.int 7), s)

/-- What the clock in the east shows, -/
def easternReading : DateTime := ⟨⟨63839689200000500, by decide⟩, some 25200000000⟩

/-- and what is told from it in a duration. -/
theorem easternReading_add {d : Duration} {t : DateTime} (h : easternReading.add d = .ok t) :
    inTheEast.clock.add d = .ok (.time t) := by
  show ((easternReading.add d).map GivenTime.time).mapError Error.time = _
  rw [h]
  rfl

theorem inTheEast_denotes : inTheEast.clock.Denotes ⟨63839664000000500, by decide⟩ :=
  ⟨easternReading, rfl, rfl, by decide +kernel⟩

/-- With 499 microseconds the run is rejected, with 500 it is not. -/
theorem brief_rejected :
    inTheEast.Rejects Memory.store (brief 499) returning ∧ ¬inTheEast.Rejects Memory.store (brief 500) returning := by
  have haware : inTheEast.clock.IsAware := ⟨easternReading, rfl, rfl⟩
  have hleast : ∀ d : Duration, d = .zero → inTheEast.clock.add d = .ok (.time easternReading) := by
    rintro d rfl
    exact easternReading_add (by decide +kernel)
  constructor
  · have hadd : easternReading.add (brief 499).ceiling = .ok ⟨⟨63839689200000999, by decide⟩, some 25200000000⟩ := by
      decide +kernel
    have hrule := execute_rejects Memory.store (brief 499) returning haware (easternReading_add hadd)
      (i := ⟨63839664000000999, by decide⟩) ⟨_, rfl, rfl, by decide +kernel⟩ (hleast _ rfl) inTheEast_denotes
    exact (hrule.sameMillisecond ((brief 499).keepsOffset_time easternReading)).mpr ⟨_, inTheEast_denotes, by decide⟩
  · have hadd : easternReading.add (brief 500).ceiling = .ok ⟨⟨63839689200001000, by decide⟩, some 25200000000⟩ := by
      decide +kernel
    have hrule := execute_rejects Memory.store (brief 500) returning haware (easternReading_add hadd)
      (i := ⟨63839664000001000, by decide⟩) ⟨_, rfl, rfl, by decide +kernel⟩ (hleast _ rfl) inTheEast_denotes
    intro hrejects
    obtain ⟨n, hn, hmillisecond⟩ := (hrule.sameMillisecond ((brief 500).keepsOffset_time easternReading)).mp hrejects
    obtain rfl := hn.unique inTheEast_denotes
    exact absurd hmillisecond (by decide)

/-! ## A night in autumn

At 03:00 on 27 October 2024 the clocks of a zone go back to 02:00, from two hours east of UTC to one.  It is 02:30 for the
second time. -/

/-- The zone around that night. -/
def goingBack : Zone where
  offset wall second :=
    if wall.micros < 63865591200000000 ∨ wall.micros < 63865594800000000 ∧ second = false then 7200000000 else 3600000000
  withinDay wall second := by
    split <;> decide

def autumnNight : Scene Memory := { inTheEast with clock := .zoned ⟨goingBack, ⟨63865593000000000, by decide⟩, true⟩ }

/-- A task that raises a fault in terms of its own. -/
def senseless : SceneTask Memory := fun s => (.error (.terms .emptyName), s)

/-- **Neither sameness of the millisecond nor the length of the ceiling settles it.**  Ten minutes after 02:30 the clocks show
02:40, which they showed for the first time fifty minutes before: the run is rejected, although the reading and the deadline
lie in different milliseconds.  And in any zone, a run ends with the error that its task raises. -/
theorem autumnNight_rejected :
    (∃ e, (autumnNight.execute Memory.store (brief 600000000) returning).1 = .error e ∧ e.isA .configuration = true) ∧
    (∃ most n i, autumnNight.clock.add (brief 600000000).ceiling = .ok most ∧ autumnNight.clock.Denotes n ∧
      most.Denotes i ∧ n.truncate ≠ i.truncate) ∧
    (∃ e, (inTheEast.execute Memory.store (brief 600000000) senseless).1 = .error e ∧ e.isA .configuration = true) ∧
    ∃ most n i, inTheEast.clock.add (brief 600000000).ceiling = .ok most ∧ inTheEast.clock.Denotes n ∧
      most.Denotes i ∧ n.truncate ≠ i.truncate := by
  refine ⟨?_, ?_, ?_, ?_⟩
  · exact ⟨_, rfl, rfl⟩
  · refine ⟨.zoned ⟨goingBack, ⟨63865593600000000, by decide⟩, false⟩, ⟨63865589400000000, by decide⟩,
      ⟨63865586400000000, by decide⟩, ?_, ⟨_, rfl, rfl, ?_⟩, ⟨_, rfl, rfl, ?_⟩, by decide⟩
    · rfl
    · rfl
    · rfl
  · exact ⟨_, rfl, rfl⟩
  · exact ⟨_, _, ⟨63839664600000500, by decide⟩, easternReading_add (t := ⟨⟨63839689800000500, by decide⟩, some 25200000000⟩)
      (by decide +kernel), inTheEast_denotes, ⟨_, rfl, rfl, by decide +kernel⟩, by decide⟩

end Scene
end Leasehold
