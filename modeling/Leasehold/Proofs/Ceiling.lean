/-
  No lock outlives its deadline.

  A release may come early, late, more than once, or from a lease whose lock went to somebody else; a node may crash and
  never release at all.  Whatever happens, the record of a name ends by the ceiling of the lease that was acquired last,
  or it has run out:

  1. **what a release writes** — the clock's reading or the floor of its own lease, whichever is later.  A reading lies in
     the past from then on, and the floor lies before the ceiling that the record ended at.  So a release takes time away
     from a lock, and gives none;
  2. **`Ceiled`** — the invariant: the end of a record has been reached by the clock or is no later than the last lease's
     ceiling (`bounded`), and the same is true of what the releases on their way ask for (`pending`).  The lease that was
     acquired last is read off the chronicle (`Chronicle.lastLease`);
  3. **`Overtaken`** — a release that read the clock after a claim did may be applied before the claim arrives; then the claim
     is refused, although the lease of the release has ended (`overtaken_refused`);
  4. **`free_run`** — a name that is free for a claim stays free until the claim arrives, as long as nobody else acquires
     it and no release overtakes the claim;
  5. **`ceiling_holds`** — hence a release never prolongs a lock, every record keeps to the ceiling of its last lease, and
     from then on an acquire that is not overtaken succeeds (`KeepsCeilings`).
-/
import Leasehold.Proofs.Course
namespace Leasehold

/-! ## The last lease of a name -/

/-- The lease of a name that a mark tells of. -/
def Mark.leaseOn? (name : String) : Mark → Option Lease
  | .acquired _ l => if l.name = name then some l else none
  | _ => none

namespace Chronicle

variable {h : Chronicle} {m : Mark} {name : String}

/-- **The lease that was acquired last**, of the leases of a name. -/
def lastLease (h : Chronicle) (name : String) : Option Lease := h.reverse.findSome? (·.leaseOn? name)

theorem lastLease_concat : lastLease (h ++ [m]) name = (m.leaseOn? name <|> h.lastLease name) := by
  simp only [lastLease, List.reverse_append, List.reverse_cons, List.reverse_nil, List.nil_append, List.singleton_append,
    List.findSome?_cons]
  cases m.leaseOn? name <;> rfl

theorem lastLease_acquired (k : Nat) (l : Lease) : lastLease (h ++ [.acquired k l]) l.name = some l := by
  rw [lastLease_concat, Mark.leaseOn?, if_pos rfl]
  rfl

theorem lastLease_acquired_other {k : Nat} {l : Lease} (hne : name ≠ l.name) :
    lastLease (h ++ [.acquired k l]) name = h.lastLease name := by
  rw [lastLease_concat, Mark.leaseOn?, if_neg (Ne.symm hne)]
  rfl

theorem lastLease_released (k : Nat) (u : Instant) : lastLease (h ++ [.released k u]) name = h.lastLease name :=
  lastLease_concat

/-- What is no write tells of no lease. -/
theorem lastLease_quiet {ms : Chronicle} (hms : ∀ m ∈ ms, ¬m.IsWrite) : lastLease (h ++ ms) name = h.lastLease name := by
  have hnone : ms.reverse.findSome? (·.leaseOn? name) = none := by
    refine List.findSome?_eq_none_iff.mpr fun m hm => ?_
    have hquiet := hms m (List.mem_reverse.mp hm)
    cases m with
    | acquired k l => exact absurd trivial hquiet
    | _ => rfl
  rw [lastLease, List.reverse_append, List.findSome?_append, hnone]
  rfl

end Chronicle

namespace Race

variable {s s' : Race Memory} {c : ClockChoice} {k owner : Nat} {a : Attempt} {l : Lease} {u : Instant}
  {e : Event Memory.Trouble} {es : List (Event Memory.Trouble)} {name : String}

/-! ## The invariant -/

/-- A race before the first call, over an empty store. -/
structure Blank (s : Race Memory) : Prop where
  fresh : s.Fresh
  records : s.world.store.records = []

/-- **The invariant of ceilings**, while all locks go by one clock. -/
structure Ceiled (c : ClockChoice) (s : Race Memory) : Prop where
  /-- A record has run out, or ends by the ceiling of the lease that was acquired last. -/
  bounded : ∀ {name : String} {e : Instant}, s.ends name = some e →
    e.IsWhole ∧ ∃ l, s.history.lastLease name = some l ∧ (s.Reached c e ∨ e.micros ≤ l.atMost.micros)
  /-- A release on its way asks for a moment that the clock has reached, or for the floor of its lease. -/
  pending : ∀ {k : Nat} {a : Attempt} {l : Lease} {u : Instant}, s.attempts k = some a →
    a.stage = .calling (.release l u) → s.Reached c u ∨ u = l.atLeast

namespace Ceiled

theorem blank (h : s.Blank) : Ceiled c s where
  bounded := by
    intro name e he
    simp [ends, Memory.endOf, Memory.find?, h.records] at he
  pending := by
    intro k a l u ha
    rw [h.fresh.attempts k] at ha
    cases ha

/-- The time that a release asks for is its reading of the clock, or the floor. -/
theorem reached_or_floor {now : Instant} (hnow : s.Reached c now) (l : Lease) :
    s.Reached c (l.releaseUntil now) ∨ l.releaseUntil now = l.atLeast := by
  rw [Lease.releaseUntil]
  split
  · exact Or.inr rfl
  · exact Or.inl hnow

/-- What is on its way after an event. -/
theorem pending_next (hi : Ceiled c s) (hc : s.OneClock c) (h : s.next Memory.site e = some s')
    (ha : s'.attempts k = some a) (hp : a.stage = .calling (.release l u)) : s'.Reached c u ∨ u = l.atLeast := by
  rcases next_pending h ha hp with hold | ⟨-, b, -, -, -, now, hnow, rfl⟩
  · exact (hi.pending hold hp).imp (·.later (clocks_next h c)) id
  · rw [hc.reading] at hnow
    have hreached : s.Reached c now := (GivenTime.truncate_time hnow).2
    exact (reached_or_floor hreached l).imp (·.later (clocks_next h c)) id

/-- The records after an acquire. -/
theorem bounded_took (hi : Ceiled c s) (h : Took s s' k l) {e : Instant} (he : s'.ends name = some e) :
    e.IsWhole ∧ ∃ l', s'.history.lastLease name = some l' ∧ (s'.Reached c e ∨ e.micros ≤ l'.atMost.micros) := by
  rw [h.history]
  by_cases hname : name = l.name
  · subst hname
    rw [h.self] at he
    cases he
    exact ⟨h.whole, l, Chronicle.lastLease_acquired k l, Or.inr (Nat.le_refl _)⟩
  · rw [h.other name hname] at he
    obtain ⟨hw, l', hlast, hle⟩ := hi.bounded he
    exact ⟨hw, l', (Chronicle.lastLease_acquired_other hname).trans hlast, hle.imp (·.of_clocks h.clocks) id⟩

/-- The records after a release: the end that it found was bounded, and it wrote the clock's reading or an earlier
end. -/
theorem bounded_gave (hi : Ceiled c s) (hs : s.Sound) (h : Gave s s' k l u) {e : Instant}
    (he : s'.ends name = some e) :
    e.IsWhole ∧ ∃ l', s'.history.lastLease name = some l' ∧ (s'.Reached c e ∨ e.micros ≤ l'.atMost.micros) := by
  have hclock : ∀ {i}, s.Reached c i → s'.Reached c i := fun hreached => hreached.of_clocks h.clocks
  rw [h.history, Chronicle.lastLease_released]
  by_cases hname : name = l.name
  · subst hname
    rw [h.self] at he
    cases he
    obtain ⟨-, l', hlast, hle⟩ := hi.bounded h.held
    refine ⟨h.whole, l', hlast, ?_⟩
    obtain ⟨a, ha, hp⟩ := h.pending
    rcases hi.pending ha hp with hreached | hfloor
    · exact Or.inl (hclock hreached)
    · have hfc := hs.floor_le_ceiling h.stillOpen.1
      rw [hfloor]
      rcases hle with hreached | hle
      · exact Or.inl (hclock (hreached.of_le hfc))
      · exact Or.inr (Nat.le_trans hfc hle)
  · rw [h.other name hname] at he
    obtain ⟨hw, l', hlast, hle⟩ := hi.bounded he
    exact ⟨hw, l', hlast, hle.imp hclock id⟩

/-- **Every event keeps the ceilings.** -/
theorem next (hi : Ceiled c s) (hs : s.Sound) (hc : s.OneClock c) (h : s.next Memory.site e = some s') :
    Ceiled c s' where
  pending := hi.pending_next hc h
  bounded := by
    intro name end' he
    rcases hs.change h with hidle | ⟨k, -, ⟨l, htook⟩ | ⟨l, u, hgave⟩⟩
    · obtain ⟨ms, hms, hh⟩ := hidle.history
      rw [hidle.ends] at he
      obtain ⟨hw, l', hlast, hle⟩ := hi.bounded he
      refine ⟨hw, l', ?_, hle.imp (·.later (hidle.clocks c)) id⟩
      rw [hh, Chronicle.lastLease_quiet hms, hlast]
    · exact hi.bounded_took htook he
    · exact hi.bounded_gave hs hgave he

/-- **The ceilings are kept in every run.** -/
theorem run (hi : Ceiled c s) (hs : s.Sound) (hc : s.OneClock c) (h : s.run Memory.site es = some s') :
    Ceiled c s' := by
  induction es generalizing s with
  | nil =>
    cases h
    exact hi
  | cons e es ih =>
    obtain ⟨s₁, hn, hr⟩ := run_cons h
    exact ih (hi.next hs hc hn) (hs.next hn) ((oneClock_next hn).mpr hc) hr

end Ceiled

/-! ## What a release takes away -/

/-- The lock of a name is taken at a moment. -/
def LockedAt (s : Race Memory) (name : String) (t : DateTime) : Prop :=
  ∃ r, s.world.store.find? (.text name) = some r ∧ r.isLocked (.time t) = .ok true

/-- A lock is taken as long as the record lasts. -/
theorem lockedAt_iff {t : DateTime} (ht : t.isAware = true) :
    s.LockedAt name t ↔ ∃ e, s.ends name = some e ∧ t.position < e.micros := by
  have hlocked : ∀ r : LeaseRecord, r.isLocked (.time t) = .ok true ↔ t.position < r.lockUntil.micros := by
    intro r
    have hboth : t.isAware = (DateTime.utc r.lockUntil).isAware := ht
    have hposition : (DateTime.utc r.lockUntil).position = r.lockUntil.micros := by
      simp [DateTime.position, DateTime.utc]
    have hbefore : t.before (.utc r.lockUntil) = .ok (decide (t.position < r.lockUntil.micros)) := by
      simp only [DateTime.before, hboth, if_true, hposition]
    show (t.before (.utc r.lockUntil)).mapError Error.time = .ok true ↔ _
    rw [hbefore]
    show (.ok (decide (t.position < r.lockUntil.micros)) : Except Error Bool) = .ok true ↔ _
    rw [Except.ok.injEq, decide_eq_true_eq]
  constructor
  · rintro ⟨r, hr, hlock⟩
    exact ⟨r.lockUntil, by simp [ends, Memory.endOf, hr], (hlocked r).mp hlock⟩
  · rintro ⟨e, he, hlt⟩
    obtain ⟨r, hr, rfl⟩ := Option.map_eq_some_iff.mp he
    exact ⟨r, hr, (hlocked r).mpr hlt⟩

/-- **A release that is applied** was begun by an event that read the clock, however long ago. -/
theorem gave_of_begun {s₀ s₁ s₂ s₃ : Race Memory} (hs : s₂.Sound) (ha : s₀.attempts k = some a)
    (hp : a.stage = .held l) (hbegin : s₀.next Memory.site (.release k) = some s₁)
    (hr : s₁.run Memory.site es = some s₂) (hes : ∀ e ∈ es, e.call? ≠ some k)
    (harrive : s₂.next Memory.site (.arrive k) = some s₃) (hh : s₃.history = s₂.history ++ [.released k u]) :
    Gave s₂ s₃ k l u ∧
      ∃ now, (GivenTime.time (s₀.reading a.owner)).truncate = .ok now ∧ u = l.releaseUntil now := by
  rcases hs.change harrive with hidle | ⟨k', -, ⟨l', htook⟩ | ⟨l', u', hgave⟩⟩
  · obtain ⟨ms, hms, hh'⟩ := hidle.history
    rw [hh] at hh'
    have hms' : ms = [.released k u] := (List.append_cancel_left hh').symm
    exact absurd trivial (hms (.released k u) (by rw [hms']; exact List.mem_cons_self))
  · have hh' := htook.history
    rw [hh] at hh'
    cases List.append_cancel_left hh'
  · have hh' := hgave.history
    rw [hh] at hh'
    cases List.append_cancel_left hh'
    -- nobody else moved the call since it was begun
    obtain ⟨b, hb, hpb⟩ := hgave.pending
    rw [attempts_run hr hes] at hb
    rcases next_pending hbegin hb hpb with hold | ⟨-, b', hb', -, hheld, now, hnow, hu⟩
    · rw [ha] at hold
      cases hold
      rw [hp] at hpb
      cases hpb
    · rw [ha] at hb'
      cases hb'
      rw [hp] at hheld
      cases hheld
      exact ⟨hgave, now, hnow, hu⟩

/-- A release takes time away: whenever the lock is taken from the reading on, it was taken before as well, and the floor
is still to come. -/
theorem Gave.takes_away (h : Gave s s' k l u) (hs : s.Sound) {r t : DateTime} {now : Instant}
    (hnow : (GivenTime.time r).truncate = .ok now) (hu : u = l.releaseUntil now) (ht : t.isAware = true)
    (hrt : r.position ≤ t.position) (hlocked : s'.LockedAt l.name t) :
    s.LockedAt l.name t ∧ t.position < l.atLeast.micros := by
  obtain ⟨e, he, hlt⟩ := (lockedAt_iff ht).mp hlocked
  rw [h.self] at he
  cases he
  have hle : (now.micros : Int) ≤ r.position := (GivenTime.truncate_time hnow).2
  have hfc := hs.floor_le_ceiling h.stillOpen.1
  -- what is locked after the reading is locked by the floor
  have hfloor : t.position < l.atLeast.micros := by
    rw [hu, Lease.releaseUntil] at hlt
    split at hlt
    · exact hlt
    · omega
  exact ⟨(lockedAt_iff ht).mpr ⟨l.atMost, h.held, by omega⟩, hfloor⟩

/-! ## A name that stays free -/

/-- **A claim of a name is overtaken** on the way from one state to another: a release is applied there, of a lease of the name,
that asks for a later moment than the claim was taken at. -/
def Overtaken (name : String) (takenAt : Instant) (s s' : Race Memory) : Prop :=
  ∃ ms, s'.history = s.history ++ ms ∧ ∃ j l u, Mark.acquired j l ∈ s'.history ∧ l.name = name ∧
    Mark.released j u ∈ ms ∧ takenAt.micros < u.micros

/-- Whatever overtakes later on the way overtakes on the whole way. -/
theorem Overtaken.of_next {now : Instant} {s₁ : Race Memory} (hs : s.Sound) (h : s.next Memory.site e = some s₁)
    (hover : Overtaken name now s₁ s') : Overtaken name now s s' := by
  obtain ⟨ms, hms, j, l, u, hl, hname, hu, hlater⟩ := hover
  obtain ⟨ms', hms'⟩ := history_next hs h
  exact ⟨ms' ++ ms, by rw [hms, hms', List.append_assoc], j, l, u, hl, hname, List.mem_append_right _ hu, hlater⟩

/-- **A free name stays free** for a claim, if no other lease of it is acquired and the claim is not overtaken. -/
theorem free_run {now : Instant} (hs : s.Sound) (hr : s.run Memory.site es = some s')
    (hover : ¬Overtaken name now s s')
    (hno : ∀ k' l', Mark.acquired k' l' ∈ s'.history → l'.name = name → Mark.acquired k' l' ∈ s.history)
    (hfree : ∀ e, s.ends name = some e → e.micros ≤ now.micros) :
    ∀ e, s'.ends name = some e → e.micros ≤ now.micros := by
  induction es generalizing s with
  | nil =>
    cases hr
    exact hfree
  | cons e es ih =>
    obtain ⟨s₁, hn, hr⟩ := run_cons hr
    obtain ⟨ms, hms⟩ := history_run (hs.next hn) hr
    obtain ⟨ms', hms'⟩ := history_next hs hn
    refine ih (hs.next hn) hr (fun hlater => hover (hlater.of_next hs hn)) ?_ ?_
    · intro k' l' hl' hname
      rw [hms']
      exact List.mem_append_left _ (hno k' l' hl' hname)
    · intro end' he
      rcases hs.change hn with hidle | ⟨k', -, ⟨l', htook⟩ | ⟨l', u', hgave⟩⟩
      · rw [hidle.ends] at he
        exact hfree end' he
      · by_cases hname : name = l'.name
        · have hmem : Mark.acquired k' l' ∈ s'.history := by
            rw [hms, htook.history]
            simp
          exact absurd (hno k' l' hmem hname.symm) (htook.unknown.1 l')
        · rw [htook.other name hname] at he
          exact hfree end' he
      · by_cases hname : name = l'.name
        · rw [hname, hgave.self] at he
          obtain rfl := Option.some.inj he
          -- a release that asks for a later moment would overtake the claim
          by_contra hlater
          have hacquired : Mark.acquired k' l' ∈ s'.history := by
            rw [hms, hms']
            exact List.mem_append_left _ (List.mem_append_left _ hgave.stillOpen.1)
          refine hover ⟨.released k' u' :: ms, ?_, k', l', u', hacquired, hname.symm, List.mem_cons_self,
            Nat.not_le.mp hlater⟩
          rw [hms, hgave.history, List.append_assoc, List.singleton_append]
        · rw [hgave.other name hname] at he
          exact hfree end' he

/-- When the clock has come to the ceiling of the last lease, the name is free for a claim that is made now. -/
theorem Ceiled.free (hi : Ceiled c s) (hpast : ∀ l, s.history.lastLease name = some l → s.Reached c l.atMost)
    {now : Instant} (hnow : (GivenTime.time (s.clocks c)).truncate = .ok now) :
    ∀ e, s.ends name = some e → e.micros ≤ now.micros := by
  intro e he
  obtain ⟨hw, l, hlast, hle⟩ := hi.bounded he
  have hreached : s.Reached c e := hle.elim id fun hle => (hpast l hlast).of_le hle
  exact GivenTime.le_of_whole hnow hw hreached

/-- **The request of an acquire gets its lease**, if it finds its name free and its way clear, whatever others do before
the call is finished. -/
theorem acquire_succeeds (hs : s.Sound) (ha : s.attempts k = some a) (hp : a.stage = .calling .acquire)
    (hfree : ∀ e, s.ends a.claim.name = some e → e.micros ≤ a.claim.takenAt.micros)
    (hway : s.world.store.pass.2 = .through) :
    ∃ s₁, s.next Memory.site (.arrive k) = some s₁ ∧ s₁.history = s.history ++ [.acquired k (s.leaseOf a)] ∧
      ∀ es s₂, (∀ e ∈ es, e.call? ≠ some k) → s₁.run Memory.site es = some s₂ →
        ∃ s₃, s₂.next Memory.site (.finish k) = some s₃ ∧
          s₃.history = s₂.history ++ [.returned k (.ok (some (s.leaseOf a)))] := by
  have harrive : s.next Memory.site (.arrive k) = some (s.arriveWith Memory.store k a .acquire) := by
    simp only [Race.next, Race.arrive, ha, hp]
    rfl
  have hh := history_arriveWith Memory.store k a .acquire s
  have hc := concerns_arriveWith Memory.store k a .acquire s
  have ho : (s.carry Memory.store a .acquire).2 = .answered (a.claim.record (s.lock a.owner).identity) :=
    (hs.acquire_carried ha hp).2.of_holds hfree hway
  rw [ho] at hh
  refine ⟨_, harrive, hh, fun es s₂ hes hr => ?_⟩
  -- nobody else moves the call, and its lock stays who it is
  have ha₂ : s₂.attempts k = some { a with stage := .called .acquire (s.carry Memory.store a .acquire).2 } := by
    rw [attempts_run hr hes]
    exact Function.update_self ..
  have hid : (s₂.lock a.owner).identity = (s.lock a.owner).identity :=
    (identity_run hr a.owner).trans (hc.identity a.owner)
  rw [ho] at ha₂
  have hverdict := (s₂.lock a.owner).settleAcquire_answered a.claim
    (show (a.claim.record (s.lock a.owner).identity).lockUntil = a.claim.atMost from rfl) s₂.world.ledger
  rw [hid] at hverdict
  refine ⟨s₂.settle k { a with stage := .called .acquire (.answered (a.claim.record (s.lock a.owner).identity)) } .acquire
    (.answered (a.claim.record (s.lock a.owner).identity)), ?_, ?_⟩
  · show Option.bind (s₂.attempts k) _ = _
    rw [ha₂]
    rfl
  · show s₂.history ++ [Mark.returned k _] = _
    rw [hverdict]
    rfl

/-- **An acquire that is asked for after the ceiling gets its lease**, if no other lease of the name is acquired before its
request arrives, no release overtakes it, and its way is clear then. -/
theorem Ceiled.ask_succeeds (hi : Ceiled c s) (hs : s.Sound) (hc : s.OneClock c)
    (hpast : ∀ l, s.history.lastLease name = some l → s.Reached c l.atMost) (hnew : s.attempts k = none)
    {atMost atLeast : GivenTime} {claim : Claim}
    (hclaim : Claim.ofGiven (.time (s.clocks c)) (.text name) atMost atLeast = .ok claim) (owner : Nat) :
    ∃ s₁, s.next Memory.site (.ask k owner (.text name) atMost atLeast) = some s₁ ∧
      ∀ es s₂, (∀ e ∈ es, e.call? ≠ some k) → s₁.run Memory.site es = some s₂ →
        (∀ k' l', Mark.acquired k' l' ∈ s₂.history → l'.name = name → Mark.acquired k' l' ∈ s.history) →
        ¬Overtaken name claim.takenAt s s₂ → s₂.world.store.pass.2 = .through →
        ∃ s₃, s₂.next Memory.site (.arrive k) = some s₃ ∧
          ∀ es' s₄, (∀ e ∈ es', e.call? ≠ some k) → s₃.run Memory.site es' = some s₄ →
            ∃ s₅, s₄.next Memory.site (.finish k) = some s₅ ∧
              Mark.returned k (.ok (some (.ofClaim claim (s.lock owner).identity))) ∈ s₅.history := by
  obtain ⟨hnow, hname, -, -⟩ := Claim.ofGiven_parts hclaim
  have hask : s.next Memory.site (.ask k owner (.text name) atMost atLeast) =
      some { s with attempts := Function.update s.attempts k (some ⟨owner, claim, .calling .acquire⟩) } := by
    simp only [Race.next, Race.ask, hnew, hc.reading, hclaim]
  refine ⟨_, hask, fun es s₂ hes hr hno hover hway => ?_⟩
  have hs₁ : Sound _ := hs.next hask
  have hs₂ : s₂.Sound := hs₁.run hr
  -- the name is free for the claim when it is made, and stays so until it arrives
  have hfree₂ := free_run hs₁ hr (fun hlater => hover (hlater.of_next hs hask)) hno (hi.free hpast hnow)
  have ha₂ : s₂.attempts k = some ⟨owner, claim, .calling .acquire⟩ := by
    rw [attempts_run hr hes]
    exact Function.update_self ..
  cases hname
  obtain ⟨s₃, harrive, -, hfinish⟩ := acquire_succeeds hs₂ ha₂ rfl hfree₂ hway
  refine ⟨s₃, harrive, fun es' s₄ hes' hr' => ?_⟩
  obtain ⟨s₅, hfinish, hh⟩ := hfinish es' s₄ hes' hr'
  refine ⟨s₅, hfinish, ?_⟩
  have hid : (s₂.lock owner).identity = (s.lock owner).identity := identity_run hr owner
  have hlease : s₂.leaseOf ⟨owner, claim, .calling .acquire⟩ = .ofClaim claim (s.lock owner).identity :=
    congrArg (Lease.ofClaim claim) hid
  rw [hh, hlease]
  exact List.mem_append_right _ List.mem_cons_self

/-! ## The ceiling -/

/-- **What the ceilings of leases come to** in a state of a race whose locks go by one clock. -/
structure KeepsCeilings (c : ClockChoice) (s : Race Memory) : Prop where
  /-- A release that is begun when the clock reads `r` and is applied later takes time away only: at every moment from `r`
  on, if the lock is taken after the write, it was taken before it too, and the floor of the lease is still to come. -/
  release : ∀ k a l u es s₁ s₂ s₃, s.attempts k = some a → a.stage = .held l →
    s.next Memory.site (.release k) = some s₁ → s₁.run Memory.site es = some s₂ → (∀ e ∈ es, e.call? ≠ some k) →
    s₂.next Memory.site (.arrive k) = some s₃ → s₃.history = s₂.history ++ [.released k u] →
    ∀ t : DateTime, t.isAware = true → (s.clocks c).position ≤ t.position → s₃.LockedAt l.name t →
      s₂.LockedAt l.name t ∧ t.position < l.atLeast.micros
  /-- Every record ends by the ceiling of the lease that was acquired last, or has run out. -/
  record : ∀ name r, s.world.store.find? (.text name) = some r → ∃ l, s.history.lastLease name = some l ∧
    (r.lockUntil.micros : Int) ≤ max (s.clocks c).position l.atMost.micros
  /-- Once the clock has come to this ceiling, an acquire that makes sense gets its lease, whatever became of the calls
  before it: if no other lease of the name is acquired before its request arrives, nothing stands in the way of the request,
  and no release overtakes it. -/
  acquire : ∀ k owner name atMost atLeast claim, (∀ l, s.history.lastLease name = some l → s.Reached c l.atMost) →
    s.attempts k = none → Claim.ofGiven (.time (s.clocks c)) (.text name) atMost atLeast = .ok claim →
    ∃ s₁, s.next Memory.site (.ask k owner (.text name) atMost atLeast) = some s₁ ∧
      ∀ es s₂, (∀ e ∈ es, e.call? ≠ some k) → s₁.run Memory.site es = some s₂ →
        (∀ k' l', Mark.acquired k' l' ∈ s₂.history → l'.name = name → Mark.acquired k' l' ∈ s.history) →
        ¬Overtaken name claim.takenAt s s₂ → s₂.world.store.pass.2 = .through →
        ∃ s₃, s₂.next Memory.site (.arrive k) = some s₃ ∧
          ∀ es' s₄, (∀ e ∈ es', e.call? ≠ some k) → s₃.run Memory.site es' = some s₄ →
            ∃ s₅, s₄.next Memory.site (.finish k) = some s₅ ∧
              Mark.returned k (.ok (some (.ofClaim claim (s.lock owner).identity))) ∈ s₅.history

/-- **No lock outlives its deadline**, in any run of locks that go by one clock, over a store that was empty at first. -/
theorem ceiling_holds {s₀ : Race Memory} (hb : s₀.Blank) (hc₀ : s₀.OneClock c)
    (hr₀ : s₀.run Memory.site es = some s) : s.KeepsCeilings c := by
  have hs : s.Sound := (Sound.fresh hb.fresh).run hr₀
  have hc : s.OneClock c := (oneClock_run hr₀).mpr hc₀
  have hi : Ceiled c s := (Ceiled.blank hb).run (Sound.fresh hb.fresh) hc₀ hr₀
  constructor
  case release =>
    intro k a l u es s₁ s₂ s₃ ha hp hbegin hr hes harrive hh t ht hrt hlocked
    have hs₂ : s₂.Sound := (hs.next hbegin).run hr
    obtain ⟨hgave, now, hnow, hu⟩ := gave_of_begun hs₂ ha hp hbegin hr hes harrive hh
    rw [hc.reading] at hnow
    exact hgave.takes_away hs₂ hnow hu ht hrt hlocked
  case record =>
    intro name r hr
    obtain ⟨-, l, hlast, hle⟩ := hi.bounded (show s.ends name = some r.lockUntil by simp [ends, Memory.endOf, hr])
    refine ⟨l, hlast, ?_⟩
    rcases hle with hreached | hle
    · simp only [Reached] at hreached
      omega
    · omega
  case acquire =>
    intro k owner name atMost atLeast claim hpast hnew hclaim
    exact hi.ask_succeeds hs hc hpast hnew hclaim owner

/-! ## A node that crashed

A node takes a lease of ten seconds and is never heard of again.  Ten seconds later the lock goes to the next. -/

/-- It is the contest as far as the moment when the first lease has run out. -/
def crash : List (Event Memory.Trouble) := contest.take 4

def crashed : Race Memory := (opening.run Memory.site crash).get rfl

theorem opening_blank : opening.Blank := ⟨⟨fun _ => rfl, rfl⟩, rfl⟩

theorem crashed_history : crashed.history = [.acquired 0 firstLease, .returned 0 (.ok (some firstLease))] := rfl

/-- The next node gets its lease when the lease of the first has run out. -/
theorem crashed_taken_over : opening.Blank ∧ ∃ s₁ s₂ s₃,
    crashed.next Memory.site (.ask 1 1 (.text "job") (.moment (later 60000)) .none) = some s₁ ∧
      s₁.next Memory.site (.arrive 1) = some s₂ ∧ s₂.next Memory.site (.finish 1) = some s₃ ∧
      Mark.returned 1 (.ok (some secondLease)) ∈ s₃.history := by
  have hclock : opening.OneClock .system := fun _ => rfl
  have hrun : opening.run Memory.site crash = some crashed := rfl
  have hacquire := (ceiling_holds opening_blank hclock hrun).acquire
  have hpast : ∀ l, crashed.history.lastLease "job" = some l → crashed.Reached .system l.atMost := by
    intro l hl
    rw [crashed_history] at hl
    cases hl
    show (_ : Int) ≤ _
    decide
  have hclaim : Claim.ofGiven (.time (crashed.clocks .system)) (.text "job") (.moment (later 60000)) .none =
      .ok ⟨"job", later 60000, later 10000, later 10000, by decide, by decide, by decide⟩ := rfl
  obtain ⟨s₁, hask, hnext⟩ := hacquire 1 1 "job" _ _ _ hpast rfl hclaim
  have hs₁ : s₁.world.store.pass.2 = .through ∧ s₁.history = crashed.history := by
    cases hask
    exact ⟨rfl, rfl⟩
  have hnot : ¬Overtaken "job" (later 10000) crashed s₁ := by
    rintro ⟨ms, hms, j, l, u, -, -, hu, -⟩
    rw [hs₁.2] at hms
    rw [List.self_eq_append_right.mp hms] at hu
    cases hu
  obtain ⟨s₂, harrive, hfinish⟩ := hnext [] s₁ nofun rfl (fun k l hl _ => hs₁.2 ▸ hl) hnot hs₁.1
  obtain ⟨s₃, hfinish, hreturned⟩ := hfinish [] s₂ nofun rfl
  exact ⟨opening_blank, s₁, s₂, s₃, hask, harrive, hfinish, hreturned⟩

/-! ## A release that overtakes

The first node is only late: when its lease has run out and the next has asked for the lock, the clock goes on, and the late
release reads it and arrives first. -/

/-- What happens after the first lease has run out. -/
def overtaking : List (Event Memory.Trouble) :=
  [.ask 1 1 (.text "job") (.moment secondLease.atMost) .none, .clock .system (.utc (later 12000)), .release 0, .arrive 0,
   .arrive 1, .finish 1]

/-- **An acquire may be refused after the deadline**, in a run of locks that go by one clock: the clock has come to the ceiling of
the last lease, nothing stands in the way of requests, no other lease is acquired, and yet no lease is got. -/
theorem overtaken_refused :
    opening.Blank ∧ opening.OneClock .system ∧ opening.run Memory.site crash = some crashed ∧
      (∀ l, crashed.history.lastLease "job" = some l → crashed.Reached .system l.atMost) ∧
      (∃ claim, Claim.ofGiven (.time (crashed.clocks .system)) (.text "job") (.moment (later 60000)) .none = .ok claim) ∧
      ∃ s, crashed.run Memory.site overtaking = some s ∧
        s.history = crashed.history ++ [.released 0 (later 12000), .returned 1 (.ok none)] ∧
        s.world.store.pass.2 = .through := by
  refine ⟨opening_blank, fun _ => rfl, rfl, ?_, ⟨_, rfl⟩, _, rfl, rfl, rfl⟩
  intro l hl
  rw [crashed_history] at hl
  cases hl
  show (_ : Int) ≤ _
  decide

end Race
end Leasehold
