/-
  Who holds a lock over a lossy network.

  A release says which lease it ends by the moment at which that lease would have run out, and by nothing else.  As long as
  these moments differ that is enough, and where they do not it is not:

  1. **`one_holder`** — as long as the acquires that are sent for a name end at moments that differ, at most one lease of
     the name is good, and the node's record ends with it;
  2. **`release_spares`** — a release that arrives finds the record of a lease that is good, and moves its end only if a
     release was called for on another lease that ends at the very same moment;
  3. **`release_shortens`** — and then it does: a release that is called for once more, because nobody heard that it was
     applied, ends the lease of whoever has taken the lock since.
-/
import Leasehold.Proofs.Undisturbed
namespace Leasehold.Network

open Http

variable {s s' : Network} {k n : Nat} {b : Bid}

/-! ## A start

Nodes that reach one lease node, whose store is empty, and a clock at its start. -/

def opening : Network where
  node := ⟨⟨.make 1 "127.0.0.1" 8700, .moment Clock.usualStart⟩, .empty⟩
  clock := .utc Clock.usualStart
  stations n :=
    ⟨⟨.text ("node-" ++ toString n), .int 5, .zero⟩, ⟨⟨.make "http://127.0.0.1:8700" (.int 5), ()⟩, .empty⟩⟩
  bids _ := none
  requests _ := none
  replies _ := none
  posted := 0
  granted := []

theorem opening_reachable : Reachable opening := by
  have hbase : (Client.make "http://127.0.0.1:8700" (.int 5)).baseUrl = "http" ++ "://" ++ "127.0.0.1:8700" := by
    decide +kernel
  have hreaches : (Client.make "http://127.0.0.1:8700" (.int 5)).Reaches :=
    Client.reaches_origin hbase (by decide) (by decide)
  exact .fresh ⟨fun _ => rfl, fun _ => rfl, fun _ => rfl, rfl, fun n => ⟨_, rfl⟩, fun _ => hreaches⟩

/-- A claim to the job, from the reading of the clock to a deadline. -/
def jobClaim (takenAt atMost : Instant) (h : takenAt.micros < atMost.micros := by decide) : Claim :=
  ⟨"job", atMost, takenAt, takenAt, by decide, h, Nat.le_of_lt h⟩

/-- The first call takes the job. -/
theorem opening_takes (atMost : Instant) (h : (later 0).micros < atMost.micros)
    (hc : Claim.ofGiven (.time opening.clock) (.text "job") (.moment atMost) .none = .ok (jobClaim (later 0) atMost h))
    (hsendable : (jobClaim (later 0) atMost h).Sendable ("node-" ++ toString 0)) :
    ∃ s, Reachable s ∧ Takes 0 0 (jobClaim (later 0) atMost h) opening s := by
  have hid : (opening.stations 0).lock.identity = .text ("node-" ++ toString 0) := rfl
  obtain ⟨s, hrun, htakes⟩ := acquire_takes opening_reachable (k := 0) hid rfl hc hsendable rfl nofun
  exact ⟨s, opening_reachable.run hrun, htakes⟩

/-- The job runs out, the second call takes it, and then the first comes to release its lease. -/
theorem contest : ∃ s n identity, Reachable s ∧ s.clock = .utc (later 10000) ∧
    Overtaken 0 ⟨0, jobClaim (later 0) (later 10000), .held (.ofClaim (jobClaim (later 0) (later 10000)) identity), false⟩
      (.ofClaim (jobClaim (later 0) (later 10000)) identity) (later 10000) 1 (jobClaim (later 10000) (later 60000)) n
      opening s := by
  obtain ⟨s₁, h₁, htakes⟩ := opening_takes (later 10000) (by decide) rfl (by decide +kernel)
  obtain ⟨identity, hb⟩ := htakes.bid
  have hlater : s₁.clock.position ≤ (DateTime.utc (later 10000)).position := by
    rw [htakes.clock]
    decide
  have hend : s₁.endOf "job" = some (later 10000) := htakes.endOf
  have hfree : s₁.memory.Free "job" (later 10000) := by
    intro e he
    cases he.symm.trans hend
    exact Nat.le_refl _
  have hc : Claim.ofGiven (.time (.utc (later 10000))) (.text "job") (.moment (later 60000)) .none =
      .ok (jobClaim (later 10000) (later 60000)) := rfl
  have hnow : (GivenTime.time (.utc (later 10000))).truncate = .ok (later 10000) := rfl
  have hid : (s₁.stations 1).lock.identity = .text ("node-" ++ toString 1) := htakes.identity 1
  have hsendable : (jobClaim (later 10000) (later 60000)).Sendable ("node-" ++ toString 1) := by decide +kernel
  obtain ⟨s, n, h, hreading, hover⟩ := overtake (h₁.next _ (next_clock hlater)) hb rfl rfl hid (htakes.others 1 (by decide)) hc
    hsendable (htakes.way rfl) hfree (Int.le_refl _) hnow
  exact ⟨s, n, identity, h, hreading, { hover with
    others := fun j hj hj' => (hover.others j hj hj').trans (htakes.others j hj) }⟩

/-! ## One holder -/

/-- **A lease that is good**: an acquire returned it, nobody called for its release, and its time is not up. -/
def Good (s : Network) (k : Nat) (l : Lease) : Prop :=
  ∃ b, s.bids k = some b ∧ b.standing = .held l ∧ b.surrendered = false ∧ s.clock.position < l.atMost.micros

/-- The acquires that were sent for a name end at moments that differ. -/
def DistinctDeadlines (s : Network) (name : String) : Prop :=
  ∀ j k a b, s.bids j = some a → s.bids k = some b → a.claim.name = name → b.claim.name = name →
    a.claim.atMost = b.claim.atMost → j = k

/-- The claim of a lease that is good was applied; where deadlines differ nobody disputes it, so the record ends with it. -/
theorem Sound.good_kept (hs : s.Sound) {name : String} (hd : s.DistinctDeadlines name) {l : Lease} (hg : s.Good k l)
    (hname : l.name = name) :
    ∃ b, s.bids k = some b ∧ b.standing = .held l ∧ b.claim.name = name ∧ b.claim.atMost = l.atMost ∧
      s.endOf name = some l.atMost := by
  obtain ⟨b, hb, hp, hopen, hnow⟩ := hg
  have hstands := (hs.bids k b hb).stands
  rw [hp] at hstands
  obtain ⟨hfits, hgranted⟩ := hstands
  obtain ⟨b', hb', -, hkept⟩ := hs.kept k b.claim hgranted
  obtain rfl : b = b' := Option.some.inj (hb.symm.trans hb')
  have hclaim : b.claim.name = name := by rw [← hfits.name, hname]
  refine ⟨b, hb, hp, hclaim, hfits.atMost.symm, ?_⟩
  rw [← hclaim, hfits.atMost]
  refine hkept hopen (by rwa [← hfits.atMost]) fun j a ha hsame hcalled hend => ?_
  -- whoever called for a release is somebody else
  obtain rfl := hd j k a b ha hb (hsame.trans hclaim) hclaim hend
  rw [hb] at ha
  cases ha
  rw [hopen] at hcalled
  cases hcalled

/-- **One holder.**  Where the acquires sent for a name end at moments that differ, at most one lease of the name is good, in
every state that can be reached; and while it is, the node's record ends with it. -/
theorem one_holder (h : Reachable s) {name : String} (hd : s.DistinctDeadlines name) :
    (∀ j k l l', s.Good j l → s.Good k l' → l.name = name → l'.name = name → j = k ∧ l = l') ∧
    (∀ k l, s.Good k l → l.name = name → s.endOf name = some l.atMost) := by
  have hs := h.sound
  refine ⟨fun j k l l' hj hk hl hl' => ?_, fun k l hk hl => ?_⟩
  · obtain ⟨a, ha, hpa, hna, hea, hend⟩ := hs.good_kept hd hj hl
    obtain ⟨b, hb, hpb, hnb, heb, hend'⟩ := hs.good_kept hd hk hl'
    have hsame : l.atMost = l'.atMost := Option.some.inj (hend.symm.trans hend')
    obtain rfl := hd j k a b ha hb hna hnb (by rw [hea, heb, hsame])
    rw [ha] at hb
    cases hb
    rw [hpa] at hpb
    cases hpb
    exact ⟨rfl, rfl⟩
  · obtain ⟨b, -, -, -, -, hend⟩ := hs.good_kept hd hk hl
    exact hend

/-- In the contest the lease of the second call is the one that is good, and the record ends with it. -/
theorem contest_one_holder : ∃ s l, Reachable s ∧ s.DistinctDeadlines "job" ∧ s.Good 1 l ∧ l.name = "job" ∧
    s.endOf "job" = some l.atMost ∧ ∀ k l', s.Good k l' → l'.name = "job" → k = 1 ∧ l' = l := by
  obtain ⟨s, n, identity, h, hclock, hover⟩ := contest
  obtain ⟨owner, identity', hholder⟩ := hover.holder
  have hbids : ∀ j a, s.bids j = some a →
      j = 0 ∧ a.claim.atMost = later 10000 ∨ j = 1 ∧ a.claim.atMost = later 60000 := by
    intro j a ha
    rcases hover.calls ha with ⟨hj, hclaim⟩ | ⟨hj, hclaim, -⟩ | hold
    · rw [hclaim]
      exact Or.inl ⟨hj, rfl⟩
    · rw [hclaim]
      exact Or.inr ⟨hj, rfl⟩
    · cases hold
  have hne : later 10000 ≠ later 60000 := by decide
  have hdistinct : s.DistinctDeadlines "job" := by
    intro j k a b ha hb _ _ hsame
    rcases hbids j a ha with ⟨rfl, hend⟩ | ⟨rfl, hend⟩ <;> rcases hbids k b hb with ⟨rfl, hend'⟩ | ⟨rfl, hend'⟩
    · rfl
    · rw [hend, hend'] at hsame
      exact absurd hsame hne
    · rw [hend, hend'] at hsame
      exact absurd hsame.symm hne
    · rfl
  have hgood : s.Good 1 (.ofClaim (jobClaim (later 10000) (later 60000)) identity') := by
    refine ⟨_, hholder, rfl, rfl, ?_⟩
    rw [hclock]
    show (DateTime.utc (later 10000)).position < (later 60000).micros
    decide
  obtain ⟨hone, hrecord⟩ := one_holder h hdistinct
  exact ⟨s, _, h, hdistinct, hgood, rfl, hrecord 1 _ hgood rfl, fun k l' hk hl' => hone k 1 l' _ hk hgood hl' rfl⟩

/-! ## Releases that come late -/

/-- The last acquire of a name was applied to it. -/
theorem lastGrant_mem {name : String} {c : Claim} (h : s.lastGrant name = some (k, c)) :
    (k, c) ∈ s.granted ∧ c.name = name :=
  ⟨List.mem_of_find?_eq_some h,
    of_decide_eq_true (List.find?_some (p := fun g : Nat × Claim => decide (g.2.name = name)) h)⟩

/-- **What the arrival of a release makes of the end of the record**: the release is applied if its lease ends with the
record, the node can read it as it was sent, and it gets through to the node's store. -/
theorem Sound.endOf_release (hs : s.Sound) {m : Message} (hm : s.requests n = some m) {l : Lease} {u : Instant}
    (hp : m.purpose = .release l u) :
    (s.deliverWith n m).endOf l.name =
      if s.endOf l.name = some l.atMost ∧ l.Sendable u ∧ s.memory.pass.2 = .through then some u
      else s.endOf l.name := by
  obtain ⟨b, url, d, -, -, -, -, hserved⟩ := hs.release_arrives hm hp
  rcases hserved.applied_or_not with ⟨⟨hsendable, hend⟩, hway, hmemory, -⟩ | ⟨hrecords, -, hfails⟩
  · rw [if_pos ⟨hend, hsendable, hway⟩, endOf, hmemory, Memory.endOf_put_self]
    rfl
  · rw [if_neg fun hall => hfails hall.2.2 ⟨hall.2.1, hall.1⟩, endOf, Memory.endOf_congr hrecords]
    rfl

/-- **A release that arrives** while the last acquire of its name is one whose lease nobody called to be released and whose
time is not up: if nobody disputes that claim, the record ends with it and stays.  The release moves the end of a record
exactly if that is the end of its own lease: a record that ends with the claim, only if it is itself one of those that
dispute it. -/
theorem release_spares (h : Reachable s) {m : Message} (hm : s.requests n = some m) {l : Lease} {u : Instant}
    (hp : m.purpose = .release l u) {c : Claim} (hlast : s.lastGrant l.name = some (k, c)) (hb : s.bids k = some b)
    (hopen : b.surrendered = false) (hnow : s.clock.position < c.atMost.micros) :
    ∃ s', s.next (.deliver n) = some s' ∧
      (s.Undisputed c → s.endOf l.name = some c.atMost ∧ s'.endOf l.name = s.endOf l.name) ∧
      s'.endOf l.name =
        if s.endOf l.name = some l.atMost ∧ l.Sendable u ∧ s.memory.pass.2 = .through then some u
        else s.endOf l.name := by
  have hs := h.sound
  obtain ⟨hgranted, hname⟩ := lastGrant_mem hlast
  refine ⟨s.deliverWith n m, by simp only [next, deliver, hm, Option.map_some], fun hundisputed => ?_,
    hs.endOf_release hm hp⟩
  obtain ⟨b', hb', -, hkept⟩ := hs.kept k c hgranted
  obtain rfl : b = b' := Option.some.inj (hb.symm.trans hb')
  have hbefore : s.endOf l.name = some c.atMost := by
    rw [← hname]
    exact hkept hopen hnow hundisputed
  obtain ⟨b', hb', -, hkept'⟩ := (hs.deliverWith hm).kept k c (List.mem_append_right _ hgranted)
  obtain rfl : b = b' := Option.some.inj (hb.symm.trans hb')
  refine ⟨hbefore, ?_⟩
  rw [hbefore, ← hname]
  exact hkept' hopen hnow hundisputed

/-- In the contest the release of the first lease arrives, and the record of the second stays. -/
theorem contest_release_spares : ∃ s n s', Reachable s ∧ s.next (.deliver n) = some s' ∧
    s.endOf "job" = some (later 60000) ∧ s'.endOf "job" = some (later 60000) := by
  obtain ⟨s, n, identity, h, hclock, hover⟩ := contest
  obtain ⟨call, hrequest⟩ := hover.request
  obtain ⟨owner, identity', hholder⟩ := hover.holder
  have hnow : s.clock.position < (later 60000).micros := by
    rw [hclock]
    decide
  have hundisputed : s.Undisputed (jobClaim (later 10000) (later 60000)) := by
    intro j b hb _ hcalled
    rcases hover.calls hb with ⟨-, hclaim⟩ | ⟨-, -, hopen⟩ | hold
    · rw [hclaim]
      exact (by decide : later 10000 ≠ later 60000)
    · rw [hopen] at hcalled
      cases hcalled
    · cases hold
  obtain ⟨s', hdeliver, hstays, -⟩ := release_spares h hrequest rfl hover.last hholder rfl hnow
  obtain ⟨hbefore, hafter⟩ := hstays hundisputed
  exact ⟨s, n, s', h, hdeliver, hbefore, hafter.trans hbefore⟩

/-- Who has a lease is not sent with its release. -/
theorem ofClaim_sendable {c : Claim} {now : Instant}
    (h : (Lease.ofClaim c .null).Sendable ((Lease.ofClaim c .null).releaseUntil now)) (identity : Value) :
    (Lease.ofClaim c identity).Sendable ((Lease.ofClaim c identity).releaseUntil now) :=
  ⟨h.inLimit, h.atMost, h.lockUntil⟩

/-- **A release may end the lease of another**: the first call releases the job after a second, and does not hear that this
was done.  The second call takes the job, until the moment at which the first lease would have run out.  Then the first
calls for the release once more, and the record of the second ends. -/
theorem release_shortens : ∃ s s' n m l u k c b, Reachable s ∧ s.requests n = some m ∧ m.purpose = .release l u ∧
    s.lastGrant l.name = some (k, c) ∧ m.bid ≠ k ∧ s.bids k = some b ∧ b.surrendered = false ∧
    s.clock.position < c.atMost.micros ∧ s.next (.deliver n) = some s' ∧ s.endOf l.name = some c.atMost ∧
    s'.endOf l.name = some (later 2000) := by
  obtain ⟨s₁, h₁, htakes⟩ := opening_takes (later 60000) (by decide) rfl (by decide +kernel)
  obtain ⟨identity, hb₁⟩ := htakes.bid
  -- a second goes by, and the release is applied though nobody hears of it
  have hlater₂ : s₁.clock.position ≤ (DateTime.utc (later 1000)).position := by
    rw [htakes.clock]
    decide
  have h₂ := h₁.next _ (next_clock hlater₂)
  have hnow₂ : (GivenTime.time (.utc (later 1000))).truncate = .ok (later 1000) := rfl
  obtain ⟨s₃, hrun, hb₃, hothers₃, hclock₃, -, hmemory₃, hid₃⟩ :=
    release_unheard h₂ hb₁ rfl rfl hnow₂ (ofClaim_sendable (by decide +kernel) _) (htakes.way rfl) htakes.endOf
  have hreading₃ : s₃.clock = .utc (later 1000) := hclock₃
  have hway₃ : s₃.memory.pass.2 = .through := by
    rw [hmemory₃, Memory.pass_put]
    exact htakes.way rfl
  have hfree₃ : s₃.memory.Free "job" (later 1000) := by
    intro e he
    rw [hmemory₃] at he
    cases (Memory.endOf_put_self ..).symm.trans he
    exact Nat.le_refl _
  -- the second call takes the job, and the first calls for the release once more
  have hc : Claim.ofGiven (.time s₃.clock) (.text "job") (.moment (later 60000)) .none =
      .ok (jobClaim (later 1000) (later 60000)) := by
    rw [hreading₃]
    rfl
  have hvacant : s₃.bids 1 = none := (hothers₃ 1 (by decide)).trans (htakes.others 1 (by decide))
  have hlater : s₃.clock.position ≤ (DateTime.utc (later 2000)).position := by
    rw [hreading₃]
    decide
  have hnow : (GivenTime.time (.utc (later 2000))).truncate = .ok (later 2000) := rfl
  have hid : (s₃.stations 1).lock.identity = .text ("node-" ++ toString 1) := (hid₃ 1).trans (htakes.identity 1)
  have hsendable : (jobClaim (later 1000) (later 60000)).Sendable ("node-" ++ toString 1) := by decide +kernel
  obtain ⟨s, n, h, hclock, hover⟩ := overtake (h₂.run hrun) hb₃ rfl rfl hid hvacant hc hsendable hway₃ hfree₃ hlater hnow
  -- it arrives
  obtain ⟨call, hrequest⟩ := hover.request
  obtain ⟨owner, identity', hholder⟩ := hover.holder
  have hend := h.sound.endOf_release hrequest rfl
  rw [if_pos ⟨hover.endOf, ofClaim_sendable (by decide +kernel) _, hover.way⟩] at hend
  refine ⟨s, _, n, _, _, _, 1, _, _, h, hrequest, rfl, hover.last, Nat.zero_ne_one, hholder, rfl, ?_, ?_, hover.endOf,
    hend⟩
  · rw [hclock]
    decide
  · simp only [next, deliver, hrequest, Option.map_some]

end Leasehold.Network
