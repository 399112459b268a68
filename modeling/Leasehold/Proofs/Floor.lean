/-
  The least time that a lease is kept.

  A lease has a floor: until then its lock stays taken, even if the lease is given back at once.  No part of the protocol
  enforces this alone.  Three things have to come together, and they do so in one invariant, `Floored`:

  1. a release writes the later one of the clock's reading and the floor, so as long as the lease is the last one of its
     name THE RECORD ENDS AT THE FLOOR AT THE EARLIEST (`Floored.kept`);
  2. a claim's floor does not lie after its ceiling, so the record of a lease that was not released covers the floor;
  3. a stale release, of a lease with a later one beside it, may still find the end that it asks for: the later lease may
     have been given back at the very moment when the older one ran out.  But then THE CLOCK HAS PASSED that moment, and
     with it the floor of the later lease.

  So once a later lease of a name was taken, the clock has come to the floor of the earlier one (`Floored.passed`), and
  that is all there is to show: `floor_kept` reads it off, for single acquires and for tasks that are run under a lock.
-/
import Leasehold.Proofs.Course
namespace Leasehold
namespace Race

variable {s s' : Race Memory} {c : ClockChoice} {k k' owner : Nat} {l l' : Lease} {u : Instant}
  {e : Event Memory.Trouble}

/-! ## The invariant -/

/-- **The invariant of floors**, while all locks go by one clock. -/
structure Floored (c : ClockChoice) (s : Race Memory) : Prop where
  /-- The clock has come to the floor of a lease, or the record stands for it. -/
  kept : ∀ {k : Nat} {l : Lease}, Mark.acquired k l ∈ s.history →
    s.Reached c l.atLeast ∨ ∃ e, s.ends l.name = some e ∧ l.atLeast.micros ≤ e.micros
  /-- When a later lease of the name was taken, the clock had come to the floor. -/
  passed : ∀ {i j k k' : Nat} {l l' : Lease}, i < j → s.history[i]? = some (.acquired k l) →
    s.history[j]? = some (.acquired k' l') → l.name = l'.name → s.Reached c l.atLeast

namespace Floored

theorem fresh (h : s.Fresh) : Floored c s where
  kept := by
    intro k l hl
    rw [h.history] at hl
    cases hl
  passed := by
    intro i j k k' l l' _ hi
    rw [h.history] at hi
    simp at hi

/-- While nothing is written, the floors are kept. -/
theorem idle (hf : Floored c s) (h : Idle s s') : Floored c s' := by
  obtain ⟨ms, hms, hh⟩ := h.history
  have hmem {k l} : Mark.acquired k l ∈ s'.history → Mark.acquired k l ∈ s.history := by
    intro hl
    rw [hh] at hl
    rcases List.mem_append.mp hl with hl | hl
    · exact hl
    · exact absurd trivial (hms _ hl)
  have hat {i : Nat} {k l} : s'.history[i]? = some (.acquired k l) → s.history[i]? = some (.acquired k l) := by
    intro hi
    rw [hh] at hi
    rcases Nat.lt_or_ge i s.history.length with hlt | hge
    · rwa [List.getElem?_append_left hlt] at hi
    · rw [List.getElem?_append_right hge] at hi
      exact absurd trivial (hms _ (List.mem_of_getElem? hi))
  constructor
  · intro k l hl
    rw [h.ends]
    exact (hf.kept (hmem hl)).imp (·.later (h.clocks c)) id
  · intro i j k k' l l' hij hi hj hname
    exact (hf.passed hij (hat hi) (hat hj) hname).later (h.clocks c)

/-- **An acquire keeps the floors**: it found the record run out, so the clock has come to whatever the record stood
for. -/
theorem took (hf : Floored c s) (hs : s.Sound) (hc : s.OneClock c) (h : Took s s' k l) : Floored c s' := by
  have htaken : s.Reached c l.takenAt := h.taken_reached hs hc
  have hclock : ∀ {i}, s.Reached c i → s'.Reached c i := by
    intro i hi
    exact hi.of_clocks h.clocks
  -- of the leases of this name that were there before
  have hname : ∀ {k₁ l₁}, Mark.acquired k₁ l₁ ∈ s.history → l₁.name = l.name → s.Reached c l₁.atLeast := by
    intro k₁ l₁ hl₁ hsame
    rcases hf.kept hl₁ with hreached | ⟨e, he, hle⟩
    · exact hreached
    · rw [hsame] at he
      have hend := h.free e he
      exact htaken.of_le (by omega)
  constructor
  · intro k₁ l₁ hl₁
    rw [h.history] at hl₁
    rcases List.mem_append.mp hl₁ with hl₁ | hl₁
    · by_cases hsame : l₁.name = l.name
      · exact Or.inl (hclock (hname hl₁ hsame))
      · rw [h.other _ hsame]
        exact (hf.kept hl₁).imp hclock id
    · cases List.mem_singleton.mp hl₁
      exact Or.inr ⟨l.atMost, h.self, h.floor_le_ceiling⟩
  · intro i j k₁ k₂ l₁ l₂ hij hi hj hsame
    rw [h.history] at hi hj
    rcases Chronicle.at_concat.mp hj with hj | ⟨rfl, hx⟩
    · rcases Chronicle.at_concat.mp hi with hi | ⟨rfl, -⟩
      · exact hclock (hf.passed hij hi hj hsame)
      · have hlen := Chronicle.lt_of_at hj
        omega
    · cases hx
      rcases Chronicle.at_concat.mp hi with hi | ⟨rfl, -⟩
      · exact hclock (hname (Chronicle.mem_of_at hi) hsame)
      · omega

/-- **A release keeps the floors**: it ends the record of its own lease at the floor or later, and if it finds the end of
another lease, the clock has come there. -/
theorem gave (hf : Floored c s) (hs : s.Sound) (hc : s.OneClock c) (h : Gave s s' k l u) : Floored c s' := by
  have hclock : ∀ {i}, s.Reached c i → s'.Reached c i := by
    intro i hi
    exact hi.of_clocks h.clocks
  have hat {i : Nat} {k₁ l₁} (hi : s'.history[i]? = some (.acquired k₁ l₁)) : s.history[i]? = some (.acquired k₁ l₁) := by
    rw [h.history] at hi
    rcases Chronicle.at_concat.mp hi with hi | ⟨-, hx⟩
    · exact hi
    · cases hx
  obtain ⟨now, hu⟩ := h.until'
  constructor
  · intro k₁ l₁ hl₁
    obtain ⟨i, hi⟩ := Chronicle.at_of_mem hl₁
    have hi := hat hi
    by_cases hsame : l₁.name = l.name
    · rcases hf.kept (Chronicle.mem_of_at hi) with hreached | ⟨e, he, hle⟩
      · exact Or.inl (hclock hreached)
      rw [hsame, h.held] at he
      cases he
      obtain ⟨j, hj⟩ := Chronicle.at_of_mem h.stillOpen.1
      rcases Nat.lt_trichotomy i j with hij | rfl | hij
      · exact Or.inl (hclock (hf.passed hij hi hj hsame))
      · -- the lease that is given back
        rw [hi] at hj
        cases hj
        refine Or.inr ⟨u, h.self, ?_⟩
        rw [hu]
        exact l.floor_le_releaseUntil now
      · -- a later lease, whose record ends where the older lease did: the clock is past that
        have hold := hs.history.ordered hij hj hi hsame.symm fun n v _ hn => h.stillOpen.2 ⟨v, Chronicle.mem_of_at hn⟩
        have htaken := hs.taken_reached hc (Chronicle.mem_of_at hi)
        exact Or.inl (hclock (htaken.of_le (by omega)))
    · rw [h.other _ hsame]
      exact (hf.kept (Chronicle.mem_of_at hi)).imp hclock id
  · intro i j k₁ k₂ l₁ l₂ hij hi hj hsame
    exact hclock (hf.passed hij (hat hi) (hat hj) hsame)

/-- **Every event keeps the floors.** -/
theorem next (hf : Floored c s) (hs : s.Sound) (hc : s.OneClock c) (h : s.next Memory.site e = some s') :
    Floored c s' := by
  rcases hs.change h with hidle | ⟨k, -, ⟨l, htook⟩ | ⟨l, u, hgave⟩⟩
  · exact hf.idle hidle
  · exact hf.took hs hc htook
  · exact hf.gave hs hc hgave

end Floored

/-- **The floors are kept in every state that can be reached.** -/
theorem Reachable.floored (h : Reachable Memory.site s) (hc : s.OneClock c) : Floored c s := by
  induction h with
  | fresh hf => exact .fresh hf
  | next hr e hn ih =>
    have hc' := (oneClock_next hn).mp hc
    exact (ih hc').next hr.sound hc' hn

/-! ## Tasks that are run under a lock -/

end Race

namespace Claim

/-- The floor of a claim is the one that was given, cut to milliseconds. -/
theorem ofGiven_floor {now : GivenTime} {name : Value} {atMost atLeast : GivenTime} {c : Claim}
    (hgiven : atLeast.isNone = false) (h : ofGiven now name atMost atLeast = .ok c) :
    atLeast.truncate = .ok c.atLeast := by
  obtain ⟨takenAt, -, h⟩ := Except.bind_ok h
  obtain ⟨n, -, h⟩ := Except.bind_ok h
  obtain ⟨most, -, h⟩ := Except.bind_ok h
  obtain ⟨least, hleast, h⟩ := Except.bind_ok h
  obtain ⟨mostCut, -, h⟩ := Except.bind_ok h
  obtain ⟨leastCut, hcut, h⟩ := Except.bind_ok h
  obtain ⟨-, -, hfloor, -⟩ := ofInstants_parts (Except.mapError_ok h)
  simp only [hgiven, Bool.false_eq_true, if_false] at hleast
  rw [GivenTime.truncate_dateTime (deadline_dateTime hleast), hfloor]
  exact hcut

end Claim

namespace Terms

/-- The floor of a run that starts now, cut to milliseconds. -/
def floorAt (t : Terms) (now : GivenTime) : Except Error Instant := do (← now.add t.floor).truncate

/-- The floor of a run is a time that is given. -/
theorem deadlines_floor {t : Terms} {now atMost atLeast : GivenTime} (h : t.deadlines now = .ok (atMost, atLeast)) :
    now.add t.floor = .ok atLeast ∧ atLeast.isNone = false := by
  obtain ⟨most, -, h⟩ := Except.bind_ok h
  obtain ⟨least, hleast, h⟩ := Except.bind_ok h
  cases h
  refine ⟨hleast, ?_⟩
  rcases now.dateTime?_cases with ⟨u, hu⟩ | ⟨v, rfl⟩
  · obtain ⟨u', hu', -⟩ := GivenTime.add_dateTime hu hleast
    exact GivenTime.isNone_dateTime hu'
  · cases hleast

end Terms

namespace Race

/-- **A run under a lock begins**: in `s₀` it reads the clock for its deadlines, and in `s` its acquire goes out with them.
Others may take their steps in between, and the acquire reads the clock again. -/
structure Begins (terms : Terms) (k owner : Nat) (s₀ s : Race Memory) : Prop where
  asks : ∃ atMost atLeast, terms.deadlines (.time (s₀.reading owner)) = .ok (atMost, atLeast) ∧
    ∃ es s₁, s₀.run Memory.site es = some s₁ ∧
      s₁.next Memory.site (.ask k owner (.text terms.name) atMost atLeast) = some s
  isOut : ∃ a, s.attempts k = some a

/-- The steps of a run at once: its claim is the one of its terms at a single reading of the clock. -/
theorem begins_at_once {s : Race Memory} {terms : Terms} {claim : Claim}
    (h : Claim.ofTerms terms (.time (s.reading owner)) = .ok claim) (hnew : s.attempts k = none) :
    ∃ s', Begins terms k owner s s' ∧ s'.attempts k = some ⟨owner, claim, .calling .acquire⟩ := by
  obtain ⟨⟨atMost, atLeast⟩, hdeadlines, hclaim⟩ := Except.bind_ok h
  have hask : s.next Memory.site (.ask k owner (.text terms.name) atMost atLeast) =
      some { s with attempts := Function.update s.attempts k (some ⟨owner, claim, .calling .acquire⟩) } := by
    simp only [next, ask, hnew, hclaim]
  have hout : Function.update s.attempts k (some ⟨owner, claim, .calling .acquire⟩) k =
      some ⟨owner, claim, .calling .acquire⟩ := Function.update_self ..
  exact ⟨_, ⟨⟨atMost, atLeast, hdeadlines, [], s, rfl, hask⟩, _, hout⟩, hout⟩

/-- **The claim of a run** has the name of its terms, and the floor of the reading that the run began with. -/
theorem Begins.claim {terms : Terms} {s₀ s : Race Memory} (h : Begins terms k owner s₀ s) :
    ∃ a, s.attempts k = some a ∧ a.claim.name = terms.name ∧
      terms.floorAt (.time (s₀.reading owner)) = .ok a.claim.atLeast := by
  obtain ⟨atMost, atLeast, hdeadlines, es, s₁, -, hask⟩ := h.asks
  obtain ⟨a, ha⟩ := h.isOut
  obtain ⟨hfloor, hgiven⟩ := Terms.deadlines_floor hdeadlines
  simp only [next, ask] at hask
  split at hask
  · cases hask
  rename_i hnone
  split at hask
  · -- a rejected call is not on its way
    cases hask
    rw [show (s₁.tell _).attempts k = s₁.attempts k from rfl, hnone] at ha
    cases ha
  · rename_i claim hclaim
    cases hask
    refine ⟨_, Function.update_self .., ?_, ?_⟩
    · obtain ⟨-, hname, -, -⟩ := Claim.ofGiven_parts hclaim
      exact (Value.text.inj hname).symm
    · rw [Terms.floorAt, hfloor]
      exact Claim.ofGiven_floor hgiven hclaim

/-- The lease of a run likewise. -/
theorem Begins.lease {terms : Terms} {s₀ s₁ s₂ : Race Memory} {es : List (Event Memory.Trouble)}
    (h : Begins terms k owner s₀ s₁) (hr : s₁.run Memory.site es = some s₂) (hs : s₂.Sound)
    (hl : Mark.acquired k l ∈ s₂.history) :
    l.name = terms.name ∧ terms.floorAt (.time (s₀.reading owner)) = .ok l.atLeast := by
  obtain ⟨a, ha, hname, hfloor⟩ := h.claim
  obtain ⟨stage, ha₂⟩ := claim_run hr ha
  obtain ⟨b, hb, rfl, -⟩ := hs.taken_before hl
  rw [ha₂] at hb
  cases hb
  exact ⟨hname, hfloor⟩

/-! ## The floor -/

/-- **A lock stays taken for the least time of its lease.**  All locks go by one clock.  From the moment a lease is written
on, no other acquire of its name is applied while the clock is before the floor of the lease, whether or not the lease was
given back.  In particular, when a run under a lock has its lease, the floor is the moment that it reckoned from the clock
as it began, cut to milliseconds; and whatever happens then, another lease of the name that was written later is not there
before the clock has come to this floor. -/
theorem floor_kept (h : Reachable Memory.site s) (hc : s.OneClock c) :
    (∀ e s' k k' l l', s.next Memory.site e = some s' → Mark.acquired k l ∈ s.history →
      s'.history = s.history ++ [.acquired k' l'] → l'.name = l.name → s.Reached c l.atLeast) ∧
    (∀ terms k owner s₁ s₂ es l, Begins terms k owner s s₁ → s₁.run Memory.site es = some s₂ →
      Mark.returned k (.ok (some l)) ∈ s₂.history →
      ∃ floor, terms.floorAt (.time (s.clocks c)) = .ok floor ∧ l.name = terms.name ∧
        ∀ es' s₃ (i j : Nat) k' l', s₂.run Memory.site es' = some s₃ → s₃.history[i]? = some (.acquired k l) →
          s₃.history[j]? = some (.acquired k' l') → i < j → l'.name = terms.name → s₃.Reached c floor) := by
  constructor
  · intro e s' k k' l l' hn hl hh hname
    have hf' : Floored c s' := (h.next e hn).floored ((oneClock_next hn).mpr hc)
    obtain ⟨i, hi⟩ := Chronicle.at_of_mem hl
    have hi' : s'.history[i]? = some (.acquired k l) := by
      rw [hh]
      exact Chronicle.at_concat.mpr (Or.inl hi)
    have hj' : s'.history[s.history.length]? = some (.acquired k' l') := by
      rw [hh]
      exact Chronicle.at_concat.mpr (Or.inr ⟨rfl, rfl⟩)
    have hreached := hf'.passed (Chronicle.lt_of_at hi) hi' hj' hname.symm
    -- a write does not move the clock
    rcases h.sound.change hn with hidle | ⟨k₀, -, ⟨l₀, htook⟩ | ⟨l₀, u₀, hgave⟩⟩
    · obtain ⟨ms, hms, hh'⟩ := hidle.history
      rw [hh] at hh'
      have hms' : ms = [.acquired k' l'] := (List.append_cancel_left hh').symm
      exact absurd trivial (hms (.acquired k' l') (by rw [hms']; exact List.mem_cons_self))
    · exact hreached.of_clocks htook.clocks.symm
    · exact hreached.of_clocks hgave.clocks.symm
  · intro terms k owner s₁ s₂ es l hb hr hret
    obtain ⟨atMost, atLeast, -, es₀, s₀, hr₀, hask⟩ := hb.asks
    have h₂ : Reachable Memory.site s₂ := ((h.run hr₀).next _ hask).run hr
    have hc₂ : s₂.OneClock c := (oneClock_run hr).mpr ((oneClock_next hask).mpr ((oneClock_run hr₀).mpr hc))
    obtain ⟨hname, hfloor⟩ := hb.lease hr h₂.sound (h₂.sound.history.returned hret)
    rw [hc.reading] at hfloor
    refine ⟨l.atLeast, hfloor, hname, fun es' s₃ i j k' l' hr' hi hj hij hname' => ?_⟩
    exact ((h₂.run hr').floored ((oneClock_run hr').mpr hc₂)).passed hij hi hj (hname.trans hname'.symm)

/-! ## A task that ends early

A task has its lock for ten seconds at most and four at least.  It ends at once, and gives its lease back; the next node
has to wait until four seconds have passed. -/

/-- The floor of its lease. -/
def fourSeconds : Instant := later 4000

theorem job_named : "job" ≠ "" := by decide

def brief : Terms :=
  ⟨"job", ⟨10000000, by decide, by decide⟩, ⟨4000000, by decide, by decide⟩, job_named, by decide, by decide, by decide⟩

/-- The run has begun, ... -/
def begun : Race Memory :=
  (opening.next Memory.site (.ask 0 0 (.text "job") (.moment firstLease.atMost) (.moment fourSeconds))).get rfl

/-- has its lease, ... -/
def obtained : Race Memory := (begun.run Memory.site [.arrive 0, .finish 0]).get rfl

/-- and gives it back; the next node asks when the clock has come to the floor. -/
def following : List (Event Memory.Trouble) :=
  [.release 0, .arrive 0, .finish 0, .clock .system (.utc fourSeconds),
   .ask 1 1 (.text "job") (.moment secondLease.atMost) .none, .arrive 1]

def followed : Race Memory := (obtained.run Memory.site following).get rfl

def briefLease : Lease := { firstLease with atLeast := fourSeconds }

def nextLease : Lease := { secondLease with atLeast := fourSeconds, takenAt := fourSeconds }

theorem followed_history : followed.history =
    [.acquired 0 briefLease, .returned 0 (.ok (some briefLease)), .released 0 fourSeconds, .settled 0 (.ok ()),
      .acquired 1 nextLease] := rfl

theorem begun_begins : Begins brief 0 0 opening begun :=
  ⟨⟨.moment firstLease.atMost, .moment fourSeconds, rfl, [], opening, rfl, rfl⟩, _, rfl⟩

/-- In this run the first lease is given back at once, and the second is there when the clock has come to the floor that
the task reckoned as it began. -/
theorem followed_after_floor : Begins brief 0 0 opening begun ∧ followed.history.Released 0 ∧
    ∃ floor, brief.floorAt (.time (opening.clocks .system)) = .ok floor ∧ floor = fourSeconds ∧
      followed.Reached .system floor := by
  have hreachable : Reachable Memory.site opening := .fresh ⟨fun _ => rfl, rfl⟩
  have hclock : opening.OneClock .system := fun _ => rfl
  obtain ⟨-, hrun⟩ := floor_kept hreachable hclock
  obtain ⟨floor, hfloor, -, hnext⟩ := hrun brief 0 0 begun obtained [.arrive 0, .finish 0] briefLease begun_begins rfl
    (List.mem_cons_of_mem _ List.mem_cons_self)
  refine ⟨begun_begins, ⟨fourSeconds, ?_⟩, floor, hfloor, ?_, ?_⟩
  · rw [followed_history]
    simp
  · have hshown : brief.floorAt (.time (opening.clocks .system)) = .ok fourSeconds := rfl
    rw [hfloor] at hshown
    exact Except.ok.inj hshown
  · exact hnext following followed 0 4 1 nextLease rfl (by rw [followed_history]; rfl) (by rw [followed_history]; rfl)
      (by decide) rfl

end Race
end Leasehold
