/-
  What the steps of a call do, and what they leave alone.

  A step of a call is no matter of the other calls, nor of the clock or the node's store (`Leaves`).  So the records change
  only when a request arrives, and while nobody else takes a step, a call goes the way that one would expect:

  1. **`Sound.write_told`** — an acquire that changes a record is told among those that were applied;
  2. **`Sound.begin_sends`** — every call that the invariant allows has a request that can be sent;
  3. **`acquire_takes`** — an acquire of a free lock, sent, delivered and heard, has its lease;
  4. **`release_unheard`** — a release whose answer is lost is applied all the same, and its owner does not know;
  5. **`overtake`** — a lock that has run out passes to another call, and then its former owner calls for the release.
-/
import Leasehold.Proofs.Lossy
namespace Leasehold.Network

open Http

variable {s s' : Network} {k n : Nat} {b : Bid}

/-! ## What a step of a call leaves alone -/

/-- What a lock is called by stays where another state of it is put. -/
theorem identity_setStation {owner : Nat} {st : Station} {s : Network}
    (h : st.lock.identity = (s.stations owner).lock.identity) (n : Nat) :
    ((s.setStation owner st).stations n).lock.identity = (s.stations n).lock.identity := by
  show (Function.update s.stations owner st n).lock.identity = _
  by_cases hn : n = owner
  · subst hn
    rw [Function.update_self, h]
  · rw [Function.update_of_ne hn]

/-- **A step of one call**: the others, the clock, what was applied, the node's store, and what the locks are called by stay. -/
structure Leaves (k : Nat) (s s' : Network) : Prop where
  others : ∀ j, j ≠ k → s'.bids j = s.bids j
  clock : s'.clock = s.clock
  granted : s'.granted = s.granted
  memory : s'.memory = s.memory
  identity : ∀ n, (s'.stations n).lock.identity = (s.stations n).lock.identity

theorem Leaves.trans {s₁ s₂ s₃ : Network} (h : Leaves k s₁ s₂) (h' : Leaves k s₂ s₃) : Leaves k s₁ s₃ where
  others j hj := (h'.others j hj).trans (h.others j hj)
  clock := h'.clock.trans h.clock
  granted := h'.granted.trans h.granted
  memory := h'.memory.trans h.memory
  identity n := (h'.identity n).trans (h.identity n)

theorem leaves_install (k : Nat) (b : Bid) (s : Network) : Leaves k s (s.install k b) :=
  ⟨fun _ hj => bids_install_other hj b s, rfl, rfl, rfl, fun _ => rfl⟩

theorem leaves_setStation (k : Nat) {owner : Nat} {st : Station} {s : Network}
    (h : st.lock.identity = (s.stations owner).lock.identity) : Leaves k s (s.setStation owner st) :=
  ⟨fun _ _ => rfl, rfl, rfl, rfl, identity_setStation h⟩

theorem leaves_setWorld (k owner : Nat) (w : World (HttpStore Unit)) (s : Network) :
    Leaves k s (s.setStation owner { s.stations owner with world := w }) :=
  leaves_setStation k rfl

theorem leaves_settle (k : Nat) (b : Bid) (purpose : Purpose) (o : Outcome LeaseRecord) (s : Network) :
    Leaves k s (s.settle k b purpose o) := by
  cases purpose with
  | acquire => exact (leaves_setStation k (Lock.settleAcquire_identity ..)).trans (leaves_install ..)
  | release l u => exact (leaves_setStation k (Lock.settleRelease_identity ..)).trans (leaves_install ..)

theorem leaves_hearWith (k : Nat) (b : Bid) (purpose : Purpose) (d : Delivery) (s : Network) :
    Leaves k s (s.hearWith k b purpose d) :=
  (leaves_setWorld k b.owner (purpose.heard b.claim d (s.stations b.owner)).1 s).trans (leaves_settle ..)

theorem leaves_begin (k : Nat) (b : Bid) (purpose : Purpose) (s : Network) : Leaves k s (s.begin k b purpose) := by
  simp only [Network.begin]
  split
  · exact leaves_settle ..
  · exact ⟨fun _ hj => Function.update_of_ne hj .., rfl, rfl, rfl, identity_setStation rfl⟩

theorem leaves_releaseWith (k : Nat) (b : Bid) (l : Lease) (s : Network) : Leaves k s (s.releaseWith k b l) := by
  simp only [releaseWith]
  split
  · exact (leaves_setWorld k b.owner _ s).trans (leaves_install ..)
  split
  · exact leaves_install ..
  · exact leaves_begin ..

/-! ## What the node's records depend on -/

/-- **Records change only when a request arrives.** -/
theorem next_records {e : Event} (h : s.next e = some s') (he : ∀ n, e ≠ .deliver n) :
    s'.memory.records = s.memory.records := by
  cases e with
  | clock reading =>
    simp only [next, setClock] at h
    split at h
    · cases h
      rfl
    · cases h
  | trouble t =>
    cases h
    exact t.befall_records s.memory
  | ask k owner name atMost atLeast =>
    simp only [next, ask] at h
    split at h
    · cases h
    split at h
    · cases h
      rfl
    · cases h
      rw [(leaves_begin ..).memory]
  | release k =>
    simp only [next, release] at h
    split at h
    · split at h
      · cases h
        rw [(leaves_releaseWith ..).memory]
      · cases h
    · cases h
  | deliver n => exact absurd rfl (he n)
  | loseRequest n =>
    cases h
    rfl
  | loseReply n =>
    cases h
    rfl
  | hear n =>
    obtain ⟨r, -, h⟩ := Option.bind_eq_some_iff.mp h
    obtain ⟨b, -, h⟩ := Option.bind_eq_some_iff.mp h
    obtain ⟨purpose, -, h⟩ := Option.bind_eq_some_iff.mp h
    cases h
    rw [(leaves_hearWith ..).memory]
    rfl
  | fail k e =>
    obtain ⟨w, -, rfl⟩ := Option.map_eq_some_iff.mp h
    rw [(leaves_hearWith ..).memory]
  | expire k =>
    obtain ⟨w, -, rfl⟩ := Option.map_eq_some_iff.mp h
    rw [(leaves_settle ..).memory]
  | cancel k =>
    obtain ⟨w, -, rfl⟩ := Option.map_eq_some_iff.mp h
    rcases w with ⟨b, purpose⟩
    cases purpose <;> rfl

/-- **No write goes untold**: an acquire whose arrival changes a record is from then on among those that were applied, and
of a name whose record changed otherwise a release arrived. -/
theorem Sound.write_told (hs : s.Sound) {e : Event} (h : s.next e = some s')
    (hr : s'.memory.records ≠ s.memory.records) :
    ∃ n m, e = .deliver n ∧ s.requests n = some m ∧
      ((m.purpose = .acquire ∧ ∃ b, s.bids m.bid = some b ∧ s'.granted = (m.bid, b.claim) :: s.granted) ∨
        ∃ l u, m.purpose = .release l u ∧ s.endOf l.name = some l.atMost) := by
  by_cases he : ∀ n, e ≠ .deliver n
  · exact absurd (next_records h he) hr
  obtain ⟨n, he⟩ := Classical.not_forall.mp he
  obtain rfl : e = .deliver n := Classical.not_not.mp he
  obtain ⟨m, hm, rfl⟩ := Option.map_eq_some_iff.mp h
  refine ⟨n, m, rfl, hm, ?_⟩
  cases hp : m.purpose with
  | acquire =>
    obtain ⟨b, identity, url, d, hb, -, -, hgranted, hserved⟩ := hs.acquire_arrives hm hp
    rcases hserved.applied_or_not with ⟨-, -, -, hd⟩ | ⟨hrecords, -, -⟩
    · rw [if_pos hd] at hgranted
      exact Or.inl ⟨rfl, b, hb, hgranted⟩
    · exact absurd hrecords hr
  | release l u =>
    obtain ⟨b, url, d, -, -, -, -, hserved⟩ := hs.release_arrives hm hp
    rcases hserved.applied_or_not with ⟨⟨-, hend⟩, -, -, -⟩ | ⟨hrecords, -, -⟩
    · exact Or.inr ⟨l, u, rfl, hend⟩
    · exact absurd hrecords hr

/-! ## Calls one after the other -/

/-- The first step of a call: its request is on its way. -/
structure Sends (k : Nat) (b : Bid) (purpose : Purpose) (s s' : Network) : Prop extends Leaves k s s' where
  bid : s'.bids k = some { b with standing := .waiting purpose s.posted }
  request : ∃ call, s'.requests s.posted = some ⟨k, purpose, call⟩ ∧
    ∀ v ∈ call.payload, purpose.payload b.claim (s.stations b.owner).lock.identity = .ok v

/-- **A call that can be sent is sent.** -/
theorem Sound.begin_sends (hs : s.Sound) (hwhole : b.claim.IsWhole) {purpose : Purpose}
    (hsuits : Suits s.granted k b purpose) (hend : ∀ l u, purpose = .release l u → u.IsWhole) :
    Sends k b purpose s (s.begin k b purpose) := by
  obtain ⟨identity, hid⟩ := hs.identity b.owner
  obtain ⟨v, hpayload⟩ : ∃ v, purpose.payload b.claim (s.stations b.owner).lock.identity = .ok v := by
    cases purpose with
    | acquire =>
      rw [hid]
      exact ⟨_, HttpStore.acquirePayload_claim hwhole identity⟩
    | release l u => exact ⟨_, HttpStore.releasePayload_lease hsuits.1.whole (hend l u rfl)⟩
  have hleaves := leaves_begin k b purpose s
  simp only [Network.begin, hpayload] at hleaves ⊢
  exact ⟨hleaves, Function.update_self .., _, Function.update_self .., fun _ hv => by cases hv; exact hpayload⟩

/-- **An acquire that arrives in time is applied**, and its record is on its way back. -/
theorem Sound.deliver_applied (hs : s.Sound) {call : Call} (hm : s.requests n = some ⟨k, .acquire, call⟩)
    (hb : s.bids k = some b) (hsendable : ∀ identity,
      call.payload = some (.object (Json.textsOf (b.claim.sentFields identity))) → b.claim.Sendable identity)
    (hway : s.memory.pass.2 = .through) (hfree : s.memory.Free b.claim.name b.claim.takenAt) :
    ∃ url identity,
      (s.deliverWith n ⟨k, .acquire, call⟩).replies n =
        some ⟨k, NodeParty.grantOf url (b.claim.record (.text identity))⟩ ∧
      (s.deliverWith n ⟨k, .acquire, call⟩).granted = (k, b.claim) :: s.granted ∧
      (s.deliverWith n ⟨k, .acquire, call⟩).memory = s.memory.put b.claim.name (b.claim.record (.text identity)) := by
  obtain ⟨b', identity, url, d, hb', hpayload, hreply, hgranted, hserved⟩ := hs.acquire_arrives hm rfl
  obtain rfl : b = b' := Option.some.inj (hb.symm.trans hb')
  obtain ⟨hmemory, rfl⟩ := hserved.of_holds hway ⟨hsendable identity hpayload, hfree⟩
  refine ⟨url, identity, hreply, ?_, hmemory⟩
  rw [hgranted, if_pos (NodeParty.grantOf_granting ..)]
  rfl

/-- **A grant that is heard is a lease.** -/
theorem Sound.hearWith_grant (hs : s.Sound) (hwhole : b.claim.IsWhole)
    (hlegible : b.claim.atMost.Legible ∧ b.claim.takenAt.Legible) (url identity : String) :
    (s.hearWith k b .acquire (NodeParty.grantOf url (b.claim.record (.text identity)))).bids k =
      some { b with standing := .held (.ofClaim b.claim (s.stations b.owner).lock.identity) } := by
  obtain ⟨own, hid⟩ := hs.identity b.owner
  have hheard : (Purpose.acquire.heard b.claim (NodeParty.grantOf url (b.claim.record (.text identity)))
      (s.stations b.owner)).2 = .answered (b.claim.record (.text identity)) := by
    show (HttpStore.write _ _ _ (HttpStore.acquirePayload _) _).2 = _
    rw [hid, HttpStore.acquirePayload_claim hwhole]
    exact HttpStore.write_grantOf hwhole identity hlegible.1 hlegible.2 ..
  have hrecord : (b.claim.record (.text identity)).lockUntil = b.claim.atMost := rfl
  simp only [Network.hearWith, Network.settle, hheard, bids_install_self, Network.setStation, Function.update_self,
    Lock.settleAcquire_answered _ _ hrecord]
  rfl

/-- **A call takes a free lock**: it has the lease, its acquire is the last one that was applied, and nobody else is
concerned. -/
structure Takes (k owner : Nat) (c : Claim) (s s' : Network) : Prop where
  bid : ∃ identity, s'.bids k = some ⟨owner, c, .held (.ofClaim c identity), false⟩
  others : ∀ j, j ≠ k → s'.bids j = s.bids j
  clock : s'.clock = s.clock
  granted : s'.granted = (k, c) :: s.granted
  memory : ∃ r : LeaseRecord, r.lockUntil = c.atMost ∧ s'.memory = s.memory.put c.name r
  identity : ∀ n, (s'.stations n).lock.identity = (s.stations n).lock.identity

/-- **An acquire that nobody disturbs takes a lock that is free**, if the node can read it as it was sent and its request gets
through to the node's store. -/
theorem acquire_takes (h : Reachable s) {owner : Nat} {identity : String}
    (hid : (s.stations owner).lock.identity = .text identity) {name : Value} {atMost atLeast : GivenTime} {c : Claim}
    (hk : s.bids k = none) (hc : Claim.ofGiven (.time s.clock) name atMost atLeast = .ok c)
    (hsendable : c.Sendable identity) (hway : s.memory.pass.2 = .through) (hfree : s.memory.Free c.name c.takenAt) :
    ∃ s', s.run [.ask k owner name atMost atLeast, .deliver s.posted, .hear s.posted] = some s' ∧
      Takes k owner c s s' := by
  have hs := h.sound
  have hwhole := Claim.ofGiven_whole hc
  have hask : s.next (.ask k owner name atMost atLeast) = some (s.begin k ⟨owner, c, .closed, false⟩ .acquire) := by
    simp only [next, ask, hk, hc]
  -- the request is sent
  have hsends : Sends k ⟨owner, c, .closed, false⟩ .acquire s (s.begin k ⟨owner, c, .closed, false⟩ .acquire) :=
    hs.begin_sends hwhole trivial fun _ _ h => by cases h
  have hs₁ := hs.next hask
  generalize s.begin k ⟨owner, c, .closed, false⟩ .acquire = s₁ at hask hsends hs₁
  obtain ⟨call, hrequest, hpayload⟩ := hsends.request
  -- it arrives, and is applied
  have hdeliver : s₁.next (.deliver s.posted) = some (s₁.deliverWith s.posted ⟨k, .acquire, call⟩) := by
    simp only [next, deliver, hrequest, Option.map_some]
  have hsent : ∀ other, call.payload = some (.object (Json.textsOf (c.sentFields other))) → c.Sendable other := by
    intro other hp
    have hboth := hpayload _ hp
    rw [hid] at hboth
    rwa [Claim.sentFields_inj ((HttpStore.acquirePayload_claim hwhole identity).symm.trans hboth)] at hsendable
  obtain ⟨url, who, hreply, hgranted, hmemory⟩ := hs₁.deliver_applied hrequest hsends.bid hsent
    (by rw [hsends.memory]; exact hway) (by rw [hsends.memory]; exact hfree)
  have hs₂ := hs₁.next hdeliver
  have hbid₂ : (s₁.deliverWith s.posted ⟨k, .acquire, call⟩).bids = s₁.bids := rfl
  have hclock₂ : (s₁.deliverWith s.posted ⟨k, .acquire, call⟩).clock = s₁.clock := rfl
  have hstations₂ : (s₁.deliverWith s.posted ⟨k, .acquire, call⟩).stations = s₁.stations := rfl
  generalize s₁.deliverWith s.posted ⟨k, .acquire, call⟩ = s₂ at *
  -- its answer is heard
  have hb₂ : s₂.bids k = some ⟨owner, c, .waiting .acquire s.posted, false⟩ := by
    rw [hbid₂]
    exact hsends.bid
  have hhear : s₂.next (.hear s.posted) = some ((s₂.dropReply s.posted).hearWith k
      ⟨owner, c, .waiting .acquire s.posted, false⟩ .acquire (NodeParty.grantOf url (c.record (.text who)))) := by
    simp only [next, hear, hreply, hb₂, waitsFor, if_true, Option.bind_eq_bind, Option.bind_some, Option.pure_def]
  have hbid₃ := (hs₂.dropReply s.posted).hearWith_grant (k := k) (b := ⟨owner, c, .waiting .acquire s.posted, false⟩)
    hwhole ⟨hsendable.atMost, hsendable.takenAt⟩ url who
  have hleaves := leaves_hearWith k ⟨owner, c, .waiting .acquire s.posted, false⟩ .acquire
    (NodeParty.grantOf url (c.record (.text who))) (s₂.dropReply s.posted)
  refine ⟨_, ?_, ⟨_, hbid₃⟩, fun j hj => ?_, ?_, ?_, ⟨c.record (.text who), rfl, ?_⟩, fun j => ?_⟩
  · simp only [run, hask, hdeliver, hhear, Option.bind_eq_bind, Option.bind_some]
  · rw [hleaves.others j hj]
    show s₂.bids j = s.bids j
    rw [hbid₂, hsends.others j hj]
  · rw [hleaves.clock]
    exact hclock₂.trans hsends.clock
  · rw [hleaves.granted]
    show s₂.granted = _
    rw [hgranted, hsends.granted]
  · rw [hleaves.memory]
    show s₂.memory = _
    rw [hmemory, hsends.memory]
  · rw [hleaves.identity j]
    show (s₂.stations j).lock.identity = _
    rw [hstations₂, hsends.identity j]

/-- **A release that can be sent is sent**, to end the record now. -/
theorem Sound.release_sends (hs : s.Sound) (hb : s.bids k = some b) {l : Lease} (hp : b.standing = .held l)
    (hopen : l.released = false) {now : Instant} (hnow : (GivenTime.time s.clock).truncate = .ok now) :
    ∃ s', s.next (.release k) = some s' ∧
      Sends k { b with surrendered := true } (.release l (l.releaseUntil now)) s s' := by
  obtain ⟨hwhole, -, hstands⟩ := hs.bids k b hb
  rw [hp] at hstands
  have hsuits : Suits s.granted k { b with surrendered := true } (.release l (l.releaseUntil now)) :=
    ⟨hstands.1, rfl, hstands.2⟩
  have hwhole' : (l.releaseUntil now).IsWhole := hstands.1.whole.releaseUntil (GivenTime.truncate_time hnow).1
  have hwith : s.releaseWith k b l = s.begin k { b with surrendered := true } (.release l (l.releaseUntil now)) := by
    simp only [Network.releaseWith, hopen, hnow]
    rfl
  have hsends : Sends k { b with surrendered := true } (.release l (l.releaseUntil now)) s
      (s.begin k { b with surrendered := true } (.release l (l.releaseUntil now))) := by
    refine hs.begin_sends (b := { b with surrendered := true }) hwhole hsuits fun l' u h => ?_
    cases h
    exact hwhole'
  refine ⟨_, ?_, hsends⟩
  simp only [Network.next, Network.release, hb]
  rw [hp]
  exact congrArg some hwith

/-- **A release that arrives in time is applied.** -/
theorem Sound.release_applied (hs : s.Sound) {m : Message} (hm : s.requests n = some m) {l : Lease} {u : Instant}
    (hp : m.purpose = .release l u) (hsendable : l.Sendable u) (hway : s.memory.pass.2 = .through)
    (hend : s.endOf l.name = some l.atMost) :
    (s.deliverWith n m).memory = s.memory.put l.name (s.memory.released l u) := by
  obtain ⟨b, url, d, -, -, -, -, hserved⟩ := hs.release_arrives hm hp
  exact (hserved.of_holds hway ⟨hsendable, hend⟩).1

/-- **A release whose answer nobody hears** is applied all the same, and its owner still has the lease in hand. -/
theorem release_unheard (h : Reachable s) (hb : s.bids k = some b) {l : Lease} (hp : b.standing = .held l)
    (hopen : l.released = false) {now : Instant} (hnow : (GivenTime.time s.clock).truncate = .ok now)
    (hsendable : l.Sendable (l.releaseUntil now)) (hway : s.memory.pass.2 = .through)
    (hend : s.endOf l.name = some l.atMost) :
    ∃ s', s.run [.release k, .deliver s.posted, .expire k] = some s' ∧
      s'.bids k = some { b with surrendered := true } ∧ (∀ j, j ≠ k → s'.bids j = s.bids j) ∧ s'.clock = s.clock ∧
      s'.granted = s.granted ∧ s'.memory = s.memory.put l.name (s.memory.released l (l.releaseUntil now)) ∧
      ∀ n, (s'.stations n).lock.identity = (s.stations n).lock.identity := by
  obtain ⟨s₁, hrelease, hsends⟩ := h.sound.release_sends hb hp hopen hnow
  have hs₁ := h.sound.next hrelease
  obtain ⟨call, hrequest, -⟩ := hsends.request
  -- it arrives, and is applied
  have hdeliver : s₁.next (.deliver s.posted) =
      some (s₁.deliverWith s.posted ⟨k, .release l (l.releaseUntil now), call⟩) := by
    simp only [next, deliver, hrequest, Option.map_some]
  have hmemory := hs₁.release_applied hrequest rfl hsendable (by rw [hsends.memory]; exact hway)
    (by rw [endOf, hsends.memory]; exact hend)
  have hgranted : (s₁.deliverWith s.posted ⟨k, .release l (l.releaseUntil now), call⟩).granted = s₁.granted := rfl
  have hbids : (s₁.deliverWith s.posted ⟨k, .release l (l.releaseUntil now), call⟩).bids = s₁.bids := rfl
  have hclock : (s₁.deliverWith s.posted ⟨k, .release l (l.releaseUntil now), call⟩).clock = s₁.clock := rfl
  have hstations : (s₁.deliverWith s.posted ⟨k, .release l (l.releaseUntil now), call⟩).stations = s₁.stations := rfl
  generalize s₁.deliverWith s.posted ⟨k, .release l (l.releaseUntil now), call⟩ = s₂ at *
  -- whoever waits for the answer gives up
  have hb₂ := hsends.bid
  rw [← hbids] at hb₂
  have hexpire : s₂.next (.expire k) = some (s₂.settle k
      { b with standing := .waiting (.release l (l.releaseUntil now)) s.posted, surrendered := true }
      (.release l (l.releaseUntil now)) .silent) := by
    simp only [next, waiting, hb₂, Option.map_some]
  have hb₃ : (s₂.settle k
      { b with standing := .waiting (.release l (l.releaseUntil now)) s.posted, surrendered := true }
      (.release l (l.releaseUntil now)) .silent).bids k = some { b with surrendered := true } := by
    rw [hp]
    exact bids_install_self ..
  have hleaves := leaves_settle k
    { b with standing := .waiting (.release l (l.releaseUntil now)) s.posted, surrendered := true }
    (.release l (l.releaseUntil now)) .silent s₂
  refine ⟨_, ?_, hb₃, fun j hj => ?_, ?_, ?_, ?_, fun j => ?_⟩
  · simp only [run, hrelease, hdeliver, hexpire, Option.bind_eq_bind, Option.bind_some]
  · rw [hleaves.others j hj, hbids, hsends.others j hj]
  · rw [hleaves.clock, hclock, hsends.clock]
  · rw [hleaves.granted, hgranted, hsends.granted]
  · rw [hleaves.memory, hmemory, hsends.memory]
  · rw [hleaves.identity j, hstations, hsends.identity j]

/-! ## Locks that change hands -/

theorem next_clock {reading : DateTime} (h : s.clock.position ≤ reading.position) :
    s.next (.clock reading) = some { s with clock := reading } := if_pos h

namespace Takes

variable {owner : Nat} {c : Claim}

theorem endOf (h : Takes k owner c s s') : s'.endOf c.name = some c.atMost := by
  obtain ⟨r, hr, hmemory⟩ := h.memory
  rw [Network.endOf, hmemory, Memory.endOf_put_self, hr]

theorem way (h : Takes k owner c s s') (hway : s.memory.pass.2 = .through) : s'.memory.pass.2 = .through := by
  obtain ⟨r, -, hmemory⟩ := h.memory
  rw [hmemory, Memory.pass_put, hway]

theorem lastGrant (h : Takes k owner c s s') : s'.lastGrant c.name = some (k, c) := by
  rw [Network.lastGrant, h.granted]
  exact List.find?_cons_of_pos (decide_eq_true rfl)

end Takes

/-- **A lock that changed hands**: call `k'` has its lease, nobody called for the release of that, and the record ends
with it; the release of a former lease, that of call `k`, is on its way. -/
structure Overtaken (k : Nat) (b : Bid) (l : Lease) (u : Instant) (k' : Nat) (c : Claim) (n : Nat) (s s' : Network) :
    Prop where
  request : ∃ call, s'.requests n = some ⟨k, .release l u, call⟩
  former : s'.bids k = some { b with standing := .waiting (.release l u) n, surrendered := true }
  holder : ∃ owner identity, s'.bids k' = some ⟨owner, c, .held (.ofClaim c identity), false⟩
  others : ∀ j, j ≠ k → j ≠ k' → s'.bids j = s.bids j
  last : s'.lastGrant c.name = some (k', c)
  endOf : s'.endOf c.name = some c.atMost
  way : s'.memory.pass.2 = .through

/-- Every call is the former one, the one that has the lock, or one that stands where it stood. -/
theorem Overtaken.calls {l : Lease} {u : Instant} {k' : Nat} {c : Claim} (h : Overtaken k b l u k' c n s s') {j : Nat}
    {a : Bid} (ha : s'.bids j = some a) :
    (j = k ∧ a.claim = b.claim) ∨ (j = k' ∧ a.claim = c ∧ a.surrendered = false) ∨ s.bids j = some a := by
  obtain ⟨owner, identity, hholder⟩ := h.holder
  by_cases hj : j = k
  · subst hj
    cases h.former.symm.trans ha
    exact Or.inl ⟨rfl, rfl⟩
  by_cases hj' : j = k'
  · subst hj'
    cases hholder.symm.trans ha
    exact Or.inr (Or.inl ⟨rfl, rfl, rfl⟩)
  · rw [h.others j hj hj'] at ha
    exact Or.inr (Or.inr ha)

/-- **A release may be called for too late**: when another acquire has taken the lock. -/
theorem overtake (h : Reachable s) (hb : s.bids k = some b) {l : Lease} (hp : b.standing = .held l)
    (hopen : l.released = false) {k' owner : Nat} {identity : String}
    (hid : (s.stations owner).lock.identity = .text identity) {name : Value} {atMost atLeast : GivenTime} {c : Claim}
    (hk' : s.bids k' = none) (hc : Claim.ofGiven (.time s.clock) name atMost atLeast = .ok c)
    (hsendable : c.Sendable identity) (hway : s.memory.pass.2 = .through) (hfree : s.memory.Free c.name c.takenAt)
    {reading : DateTime} (hlater : s.clock.position ≤ reading.position) {now : Instant}
    (hnow : (GivenTime.time reading).truncate = .ok now) :
    ∃ s' n, Reachable s' ∧ s'.clock = reading ∧ Overtaken k b l (l.releaseUntil now) k' c n s s' := by
  have hne : k ≠ k' := by
    rintro rfl
    exact absurd (hb.symm.trans hk') nofun
  -- the lock is taken
  obtain ⟨s₁, hrun, htakes⟩ := acquire_takes h hid hk' hc hsendable hway hfree
  -- and time goes by
  rw [← htakes.clock] at hlater
  have h₂ := (h.run hrun).next _ (next_clock hlater)
  have hb₂ : ({ s₁ with clock := reading } : Network).bids k = some b := (htakes.others k hne).trans hb
  -- until the release is sent
  obtain ⟨s₃, hrelease, hsends⟩ := h₂.sound.release_sends hb₂ hp hopen hnow
  obtain ⟨call, hrequest, -⟩ := hsends.request
  obtain ⟨identity, hholder⟩ := htakes.bid
  refine ⟨s₃, s₁.posted, h₂.next _ hrelease, hsends.clock, ⟨call, hrequest⟩, hsends.bid, ⟨owner, identity, ?_⟩,
    fun j hj hj' => ?_, ?_, ?_, ?_⟩
  · rw [hsends.others k' (Ne.symm hne)]
    exact hholder
  · rw [hsends.others j hj]
    exact htakes.others j hj'
  · rw [lastGrant, hsends.granted]
    exact htakes.lastGrant
  · rw [endOf, hsends.memory]
    exact htakes.endOf
  · rw [hsends.memory]
    exact htakes.way hway

end Leasehold.Network
