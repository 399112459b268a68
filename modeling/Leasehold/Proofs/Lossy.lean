/-
  What a lossy network cannot break: the invariant, and that every event keeps it.

  A message may arrive long after whoever sent it has given up, so it is not enough to know where the calls stand:

  1. **`MessageSound`** — a request says what its call asked for, with the very times of its claim or of its lease, and a
     release only what somebody called for;
  2. **`ReplySound`** — a reply that grants goes to the call that waits for it, and its acquire was applied;
  3. **`BidSound`** — a lease in anybody's hands comes from an acquire that was applied;
  4. **`Kept`** — the record ends with a claim that was applied, as long as it is good and nobody DISPUTES it: no release
     was called for on a lease that ends at the same moment.

  The last one carries the rest.  An acquire that arrives late was taken before now, and is refused while a claim is good; a
  release that arrives late ends another lease than the record's, unless it disputes the claim.  What a request comes to at
  the node is told by `Served`, so neither the texts on their way nor the store are opened here.
-/
import Leasehold.Proofs.Network
import Leasehold.Proofs.Standing
namespace Leasehold

open Http Json

/-! ## Leases of a claim -/

theorem Standing.ofResult_ne (r : Except Error (Option Lease)) (p : Purpose) (n : Nat) : ofResult r ≠ .waiting p n := by
  cases r with
  | error e => nofun
  | ok lease => cases lease <;> nofun

/-- A lease that was made of a claim, whether it is done with or not. -/
structure Lease.Fits (l : Lease) (c : Claim) : Prop where
  name : l.name = c.name
  atMost : l.atMost = c.atMost
  whole : l.IsWhole

theorem Lease.fits_ofClaim {c : Claim} (hc : c.IsWhole) (lockedBy : Value) : (Lease.ofClaim c lockedBy).Fits c :=
  ⟨rfl, rfl, hc.atMost, hc.atLeast⟩

theorem Lease.Fits.done {l : Lease} {c : Claim} (h : l.Fits c) : l.done.Fits c :=
  ⟨h.name, h.atMost, h.whole.atMost, h.whole.atLeast⟩

namespace Network

variable {s s' : Network} {k n : Nat} {b : Bid}

/-! ## The invariant -/

/-- What a call asks for goes with its bid: a release is the release of a lease of the bid, which was applied. -/
def Suits (granted : List (Nat × Claim)) (k : Nat) (b : Bid) : Purpose → Prop
  | .acquire => True
  | .release l _ => l.Fits b.claim ∧ b.surrendered = true ∧ (k, b.claim) ∈ granted

/-- **Where a call stands**: it waits for a message that was posted, or it has a lease, which was applied. -/
def Stands (posted : Nat) (granted : List (Nat × Claim)) (k : Nat) (b : Bid) : Standing → Prop
  | .waiting purpose n => n < posted ∧ Suits granted k b purpose
  | .held l => l.Fits b.claim ∧ (k, b.claim) ∈ granted
  | .closed => True

/-- **What holds of a call.** -/
structure BidSound (s : Network) (k : Nat) (b : Bid) : Prop where
  whole : b.claim.IsWhole
  takenAt : (b.claim.takenAt.micros : Int) ≤ s.clock.position
  stands : Stands s.posted s.granted k b b.standing

/-- **What a request carries**: the claim of its bid, or the release of a lease whose owner called for it. -/
inductive Carries (b : Bid) : Purpose → Call → Prop where
  | acquire {client : Client} (reaches : client.Reaches) (identity : String) :
      Carries b .acquire (client.callOf "/api/lease/acquire" (.object (textsOf (b.claim.sentFields identity))))
  | release {client : Client} (reaches : client.Reaches) {l : Lease} {u : Instant} (fits : l.Fits b.claim)
      (whole : u.IsWhole) (called : b.surrendered = true) :
      Carries b (.release l u) (client.callOf "/api/lease/update" (.object (textsOf (l.sentFields u))))

/-- **What holds of a request on its way.** -/
structure MessageSound (s : Network) (n : Nat) (m : Message) : Prop where
  number : n < s.posted
  bid : ∃ b, s.bids m.bid = some b ∧ Carries b m.purpose m.call ∧ ∀ p, b.standing = .waiting p n → p = m.purpose

/-- **What holds of a reply on its way**: it grants to the acquire that waits for it only what was applied. -/
structure ReplySound (s : Network) (n : Nat) (r : Reply) : Prop where
  number : n < s.posted
  granting : ∀ b, s.bids r.bid = some b → b.standing = .waiting .acquire n → r.delivery.Granting →
    (r.bid, b.claim) ∈ s.granted

/-- **Nobody disputes a claim** as long as no lease that ends with it under its name was called to be released. -/
def Undisputed (s : Network) (c : Claim) : Prop :=
  ∀ j b, s.bids j = some b → b.claim.name = c.name → b.surrendered = true → b.claim.atMost ≠ c.atMost

/-- **A claim that was applied is kept**: the record ends with it while it is good, nobody called for its release, and
nobody disputes it. -/
def Kept (s : Network) (k : Nat) (c : Claim) : Prop :=
  ∃ b, s.bids k = some b ∧ b.claim = c ∧
    (b.surrendered = false → s.clock.position < c.atMost.micros → s.Undisputed c → s.endOf c.name = some c.atMost)

/-- **What holds of a network.** -/
structure Sound (s : Network) : Prop where
  reaches : ∀ n, (s.stations n).client.Reaches
  identity : ∀ n, ∃ identity, (s.stations n).lock.identity = .text identity
  bids : ∀ k b, s.bids k = some b → s.BidSound k b
  requests : ∀ n m, s.requests n = some m → s.MessageSound n m
  replies : ∀ n r, s.replies n = some r → s.ReplySound n r
  kept : ∀ k c, (k, c) ∈ s.granted → s.Kept k c

/-! ## What a call leaves alone -/

theorem Carries.congr {b : Bid} (b' : Bid) (hclaim : b'.claim = b.claim) (hcalled : b.surrendered = true → b'.surrendered = true)
    {purpose : Purpose} {call : Call} (h : Carries b purpose call) : Carries b' purpose call := by
  cases h with
  | acquire reaches identity =>
    rw [← hclaim]
    exact .acquire reaches identity
  | release reaches fits whole called =>
    rw [← hclaim] at fits
    exact .release reaches fits whole (hcalled called)

/-- A bid that may be put in the place of a call: the same claim, and no release that was called for is forgotten. -/
def Supersedes (s : Network) (k : Nat) (b : Bid) : Prop :=
  ∀ b₀, s.bids k = some b₀ → b.claim = b₀.claim ∧ (b₀.surrendered = true → b.surrendered = true)

/-- What is disputed stays disputed. -/
theorem Supersedes.undisputed (h : s.Supersedes k b) {c : Claim} (hc : (s.install k b).Undisputed c) :
    s.Undisputed c := by
  intro j b₀ hb₀ hname hcalled
  by_cases hj : j = k
  · subst hj
    obtain ⟨hclaim, hmono⟩ := h b₀ hb₀
    have hb := hc j b (bids_install_self ..)
    rw [hclaim] at hb
    exact hb hname (hmono hcalled)
  · exact hc j b₀ ((bids_install_other hj b s).trans hb₀) hname hcalled

/-- **A step that is no matter of the calls**: the clock, where they stand, what was applied and the records stay, and no
reply comes from nowhere. -/
structure Apart (s s' : Network) : Prop where
  clock : s'.clock = s.clock
  bids : s'.bids = s.bids
  posted : s.posted ≤ s'.posted
  granted : s'.granted = s.granted
  endOf : s'.endOf = s.endOf
  replies : ∀ n r, s'.replies n = some r → s.replies n = some r

theorem Stands.mono {posted posted' : Nat} {granted granted' : List (Nat × Claim)} (hp : posted ≤ posted')
    (hg : granted ⊆ granted') {standing : Standing} (h : Stands posted granted k b standing) :
    Stands posted' granted' k b standing := by
  cases standing with
  | waiting purpose n =>
    refine ⟨Nat.lt_of_lt_of_le h.1 hp, ?_⟩
    cases purpose with
    | acquire => trivial
    | release l u => exact ⟨h.2.1, h.2.2.1, hg h.2.2.2⟩
  | held l => exact ⟨h.1, hg h.2⟩
  | closed => trivial

namespace Sound

theorem apart (hs : s.Sound) (h : Apart s s') (hreaches : ∀ n, (s'.stations n).client.Reaches)
    (hidentity : ∀ n, ∃ identity, (s'.stations n).lock.identity = .text identity)
    (hrequests : ∀ n m, s'.requests n = some m → s.requests n = some m ∨ s'.MessageSound n m) : s'.Sound where
  reaches := hreaches
  identity := hidentity
  bids k b hb := by
    rw [h.bids] at hb
    obtain ⟨hwhole, htaken, hstands⟩ := hs.bids k b hb
    exact ⟨hwhole, by rwa [h.clock], hstands.mono h.posted (by rw [h.granted]; exact List.Subset.refl _)⟩
  requests n m hm := by
    rcases hrequests n m hm with hold | hnew
    · obtain ⟨hnumber, hbid⟩ := hs.requests n m hold
      exact ⟨Nat.lt_of_lt_of_le hnumber h.posted, by rwa [h.bids]⟩
    · exact hnew
  replies n r hr := by
    obtain ⟨hnumber, hgranting⟩ := hs.replies n r (h.replies n r hr)
    exact ⟨Nat.lt_of_lt_of_le hnumber h.posted, by rwa [h.bids, h.granted]⟩
  kept k c hc := by
    rw [h.granted] at hc
    have hkept := hs.kept k c hc
    simpa only [Kept, Undisputed, h.bids, h.clock, h.endOf] using hkept

/-- A lock and its client may change, not who the lock is and not where the client sends. -/
theorem setStation (hs : s.Sound) (owner : Nat) (st : Station)
    (hid : st.lock.identity = (s.stations owner).lock.identity)
    (hbase : st.client.baseUrl = (s.stations owner).client.baseUrl) : (s.setStation owner st).Sound := by
  refine hs.apart ⟨rfl, rfl, Nat.le_refl _, rfl, rfl, fun _ _ => id⟩ (fun n => ?_) (fun n => ?_) fun _ _ => Or.inl
  · by_cases hn : n = owner
    · subst hn
      simp only [Network.setStation, Function.update_self]
      exact (hs.reaches n).congr hbase
    · simp only [Network.setStation, Function.update_of_ne hn]
      exact hs.reaches n
  · by_cases hn : n = owner
    · subst hn
      simp only [Network.setStation, Function.update_self, hid]
      exact hs.identity n
    · simp only [Network.setStation, Function.update_of_ne hn]
      exact hs.identity n

/-- A request may be lost, -/
theorem dropRequest (hs : s.Sound) (n : Nat) : (s.dropRequest n).Sound := by
  refine hs.apart ⟨rfl, rfl, Nat.le_refl _, rfl, rfl, fun _ _ => id⟩ hs.reaches hs.identity fun j m hm => Or.inl ?_
  by_cases hj : j = n
  · subst hj
    simp only [Network.dropRequest, Function.update_self] at hm
    cases hm
  · simpa only [Network.dropRequest, Function.update_of_ne hj] using hm

/-- and so may a reply. -/
theorem dropReply (hs : s.Sound) (n : Nat) : (s.dropReply n).Sound := by
  refine hs.apart ⟨rfl, rfl, Nat.le_refl _, rfl, rfl, fun j r hr => ?_⟩ hs.reaches hs.identity fun _ _ => Or.inl
  by_cases hj : j = n
  · subst hj
    simp only [Network.dropReply, Function.update_self] at hr
    cases hr
  · simpa only [Network.dropReply, Function.update_of_ne hj] using hr

/-- Trouble changes no record. -/
theorem befall (hs : s.Sound) (t : Memory.Trouble) : (s.befall t).Sound :=
  hs.apart ⟨rfl, rfl, Nat.le_refl _, rfl, Memory.endOf_congr (t.befall_records s.memory), fun _ _ => id⟩ hs.reaches
    hs.identity fun _ _ => Or.inl

/-- A number may be set aside, -/
theorem number (hs : s.Sound) : ({ s with posted := s.posted + 1 } : Network).Sound :=
  hs.apart ⟨rfl, rfl, Nat.le_succ _, rfl, rfl, fun _ _ => id⟩ hs.reaches hs.identity fun _ _ => Or.inl

/-- since no message has it, -/
theorem vacant (hs : s.Sound) : s.requests s.posted = none ∧ s.replies s.posted = none := by
  constructor
  · cases hm : s.requests s.posted with
    | none => rfl
    | some m => exact absurd (hs.requests _ m hm).number (Nat.lt_irrefl _)
  · cases hr : s.replies s.posted with
    | none => rfl
    | some r => exact absurd (hs.replies _ r hr).number (Nat.lt_irrefl _)

/-- and a request be sent. -/
theorem addRequest (hs : s.Sound) {n : Nat} {m : Message} (hm : s.MessageSound n m) :
    ({ s with requests := Function.update s.requests n (some m) } : Network).Sound := by
  refine hs.apart ⟨rfl, rfl, Nat.le_refl _, rfl, rfl, fun _ _ => id⟩ hs.reaches hs.identity fun j m' hm' => ?_
  by_cases hj : j = n
  · subst hj
    simp only [Function.update_self] at hm'
    cases hm'
    exact Or.inr ⟨hm.number, hm.bid⟩
  · simp only [Function.update_of_ne hj] at hm'
    exact Or.inl hm'

/-- **A call may be put where it stands**, if it is sound there and does not wait for the message of another. -/
theorem install (hs : s.Sound) (h : s.Supersedes k b) (hb : s.BidSound k b)
    (hwaits : ∀ p n, b.standing = .waiting p n →
      (∃ b₀, s.bids k = some b₀ ∧ b₀.standing = .waiting p n) ∨ (s.requests n = none ∧ s.replies n = none)) :
    (s.install k b).Sound where
  reaches := hs.reaches
  identity := hs.identity
  bids j b' hb' := by
    by_cases hj : j = k
    · subst hj
      rw [bids_install_self] at hb'
      cases hb'
      exact ⟨hb.whole, hb.takenAt, hb.stands⟩
    · have hold := hs.bids j b' ((bids_install_other hj b s).symm.trans hb')
      exact ⟨hold.whole, hold.takenAt, hold.stands⟩
  requests n m hm := by
    obtain ⟨hnumber, b₀, hb₀, hcarries, hlink⟩ := hs.requests n m hm
    refine ⟨hnumber, ?_⟩
    by_cases hj : m.bid = k
    · subst hj
      obtain ⟨hclaim, hmono⟩ := h b₀ hb₀
      refine ⟨b, bids_install_self .., hcarries.congr b hclaim hmono, fun p hp => ?_⟩
      rcases hwaits p n hp with ⟨b₁, hb₁, hp₁⟩ | ⟨hnone, -⟩
      · rw [hb₀] at hb₁
        cases hb₁
        exact hlink p hp₁
      · exact absurd (hm.symm.trans hnone) nofun
    · exact ⟨b₀, (bids_install_other hj b s).trans hb₀, hcarries, hlink⟩
  replies n r hr := by
    obtain ⟨hnumber, hgranting⟩ := hs.replies n r hr
    refine ⟨hnumber, fun b' hb' hp hd => ?_⟩
    by_cases hj : r.bid = k
    · subst hj
      rw [bids_install_self] at hb'
      cases hb'
      rcases hwaits _ n hp with ⟨b₁, hb₁, hp₁⟩ | ⟨-, hnone⟩
      · have hgranted := hgranting b₁ hb₁ hp₁ hd
        rw [← (h b₁ hb₁).1] at hgranted
        exact hgranted
      · exact absurd (hr.symm.trans hnone) nofun
    · exact hgranting b' ((bids_install_other hj b s).symm.trans hb') hp hd
  kept j c hc := by
    obtain ⟨b₀, hb₀, hclaim₀, hkept⟩ := hs.kept j c hc
    by_cases hj : j = k
    · subst hj
      obtain ⟨hclaim, hmono⟩ := h b₀ hb₀
      refine ⟨b, bids_install_self .., hclaim.trans hclaim₀, fun hopen hnow hundisputed => ?_⟩
      refine hkept ?_ hnow (h.undisputed hundisputed)
      cases hcalled : b₀.surrendered with
      | false => rfl
      | true =>
        rw [hmono hcalled] at hopen
        cases hopen
    · exact ⟨b₀, (bids_install_other hj b s).trans hb₀, hclaim₀,
        fun hopen hnow hundisputed => hkept hopen hnow (h.undisputed hundisputed)⟩

/-! ## Every step keeps the invariant -/

/-- **A request is sent**: its call waits for a number that nobody had. -/
theorem post (hs : s.Sound) (h : s.Supersedes k b) (hwhole : b.claim.IsWhole)
    (htaken : (b.claim.takenAt.micros : Int) ≤ s.clock.position) {purpose : Purpose} {call : Call}
    (hsuits : Suits s.granted k b purpose) (hcarries : Carries b purpose call) : (s.post k b purpose call).Sound := by
  have hvacant := hs.vacant
  have hinstall : (({ s with posted := s.posted + 1 } : Network).install k
      { b with standing := .waiting purpose s.posted }).Sound := by
    refine hs.number.install h ⟨hwhole, htaken, Nat.lt_succ_self _, ?_⟩ fun p n hp => ?_
    · cases purpose <;> exact hsuits
    · cases hp
      exact Or.inr hvacant
  have hsent : Carries { b with standing := .waiting purpose s.posted } purpose call :=
    Carries.congr (b := b) { b with standing := .waiting purpose s.posted } rfl id hcarries
  refine hinstall.addRequest ⟨Nat.lt_succ_self _, _, bids_install_self .., hsent, fun p hp => ?_⟩
  cases hp
  rfl

/-- **A call ends**: of an acquire comes a lease only where one was applied. -/
theorem settle (hs : s.Sound) (h : s.Supersedes k b) (hwhole : b.claim.IsWhole)
    (htaken : (b.claim.takenAt.micros : Int) ≤ s.clock.position) {purpose : Purpose}
    (hsuits : Suits s.granted k b purpose) {o : Outcome LeaseRecord}
    (ho : purpose = .acquire → (∃ r, o = .answered r) → (k, b.claim) ∈ s.granted) : (s.settle k b purpose o).Sound := by
  generalize hst : s.stations b.owner = st
  cases purpose with
  | acquire =>
    have hid := st.lock.settleAcquire_identity b.claim o st.world.ledger
    simp only [Network.settle, hst]
    generalize hv : st.lock.settleAcquire b.claim o st.world.ledger = verdict at hid ⊢
    have hset : (s.setStation b.owner ⟨verdict.1, { st.world with ledger := verdict.2.1 }⟩).Sound :=
      hs.setStation _ _ (by rw [hst]; exact hid) (by rw [hst]; rfl)
    refine hset.install (b := { b with standing := .ofResult verdict.2.2 }) h ⟨hwhole, htaken, ?_⟩
      fun p n hp => absurd hp (Standing.ofResult_ne _ p n)
    subst hv
    cases hr : (st.lock.settleAcquire b.claim o st.world.ledger).2.2 with
    | error e => trivial
    | ok lease =>
      cases lease with
      | none => trivial
      | some l =>
        obtain ⟨hanswered, rfl⟩ := Lock.settleAcquire_lease hr
        exact ⟨Lease.fits_ofClaim hwhole _, ho rfl hanswered⟩
  | release l u =>
    have hid := st.lock.settleRelease_identity l u o st.world.ledger
    have hlease := st.lock.settleRelease_lease l u o st.world.ledger
    simp only [Network.settle, hst]
    generalize st.lock.settleRelease l u o st.world.ledger = verdict at hid hlease ⊢
    have hset : (s.setStation b.owner ⟨verdict.1, { st.world with ledger := verdict.2.2.1 }⟩).Sound :=
      hs.setStation _ _ (by rw [hst]; exact hid) (by rw [hst]; rfl)
    refine hset.install (b := { b with standing := .held verdict.2.1 }) h ⟨hwhole, htaken, ?_⟩ nofun
    rcases hlease with hl | ⟨hl, -⟩
    · rw [hl]
      exact ⟨hsuits.1.done, hsuits.2.2⟩
    · rw [hl]
      exact ⟨hsuits.1, hsuits.2.2⟩

/-- **A call begins.** -/
theorem begin (hs : s.Sound) (h : s.Supersedes k b) (hwhole : b.claim.IsWhole)
    (htaken : (b.claim.takenAt.micros : Int) ≤ s.clock.position) {purpose : Purpose}
    (hsuits : Suits s.granted k b purpose) (hend : ∀ l u, purpose = .release l u → u.IsWhole) :
    (s.begin k b purpose).Sound := by
  obtain ⟨identity, hid⟩ := hs.identity b.owner
  have hset : (s.setStation b.owner { s.stations b.owner with
      world := HttpStore.ensureOpen (Delivery.broken .timedOut).party (s.stations b.owner).world }).Sound :=
    hs.setStation _ _ rfl (HttpStore.ensureOpen_baseUrl ..)
  cases purpose with
  | acquire =>
    have hpayload : Purpose.acquire.payload b.claim (s.stations b.owner).lock.identity =
        .ok (.object (textsOf (b.claim.sentFields identity))) := by
      rw [hid]
      exact HttpStore.acquirePayload_claim hwhole identity
    simp only [Network.begin, hpayload]
    exact hset.post h hwhole htaken hsuits (.acquire (hs.reaches b.owner) identity)
  | release l u =>
    have hpayload : (Purpose.release l u).payload b.claim (s.stations b.owner).lock.identity =
        .ok (.object (textsOf (l.sentFields u))) := HttpStore.releasePayload_lease hsuits.1.whole (hend l u rfl)
    simp only [Network.begin, hpayload]
    exact hset.post h hwhole htaken hsuits (.release (hs.reaches b.owner) hsuits.1 (hend l u rfl) hsuits.2.1)

/-- **A release begins.** -/
theorem releaseWith (hs : s.Sound) (hb : s.bids k = some b) {l : Lease} (hp : b.standing = .held l) :
    (s.releaseWith k b l).Sound := by
  obtain ⟨hwhole, htaken, hstands⟩ := hs.bids k b hb
  rw [hp] at hstands
  have hsupersedes : s.Supersedes k { b with surrendered := true } := by
    intro b₀ hb₀
    rw [hb] at hb₀
    cases hb₀
    exact ⟨rfl, fun _ => rfl⟩
  have hstands' : Stands s.posted s.granted k { b with surrendered := true } b.standing := by
    rw [hp]
    exact hstands
  have hrest : ∀ {s' : Network} p n, b.standing = .waiting p n →
      (∃ b₀, s'.bids k = some b₀ ∧ b₀.standing = .waiting p n) ∨ (s'.requests n = none ∧ s'.replies n = none) := by
    intro s' p n hw
    rw [hp] at hw
    cases hw
  simp only [Network.releaseWith]
  split
  · have hset : (s.setStation b.owner { s.stations b.owner with
        world := (s.stations b.owner).world.note .warning l.doneText }).Sound := hs.setStation _ _ rfl rfl
    exact hset.install hsupersedes ⟨hwhole, htaken, hstands'⟩ hrest
  split
  · exact hs.install hsupersedes ⟨hwhole, htaken, hstands'⟩ hrest
  · rename_i now hnow
    refine hs.begin hsupersedes hwhole htaken ⟨hstands.1, rfl, hstands.2⟩ fun l' u h => ?_
    cases h
    exact hstands.1.whole.releaseUntil (GivenTime.truncate_time hnow).1

/-- **An acquire begins.** -/
theorem ask (hs : s.Sound) {owner : Nat} {name : Value} {atMost atLeast : GivenTime}
    (h : s.ask k owner name atMost atLeast = some s') : s'.Sound := by
  simp only [Network.ask] at h
  split at h
  · cases h
  rename_i hnone
  split at h
  · cases h
    exact hs
  · rename_i c hc
    cases h
    refine hs.begin (fun b₀ hb₀ => ?_) (Claim.ofGiven_whole hc) (Claim.ofGiven_takenAt hc) trivial nofun
    rw [hnone] at hb₀
    cases hb₀

/-- What a call that waits has in hand. -/
theorem suits (hs : s.Sound) (hb : s.bids k = some b) {purpose : Purpose} (hp : b.standing = .waiting purpose n) :
    Suits s.granted k b purpose := by
  have hstands := (hs.bids k b hb).stands
  rw [hp] at hstands
  exact hstands.2

theorem supersedes_self (hb : s.bids k = some b) : s.Supersedes k b := by
  intro b₀ hb₀
  rw [hb] at hb₀
  cases hb₀
  exact ⟨rfl, id⟩

/-- **A delivery is heard**: by an acquire only where it was applied, if the delivery says so. -/
theorem hearWith (hs : s.Sound) (hb : s.bids k = some b) {purpose : Purpose} (hp : b.standing = .waiting purpose n)
    {d : Delivery} (hd : purpose = .acquire → d.Granting → (k, b.claim) ∈ s.granted) :
    (s.hearWith k b purpose d).Sound := by
  obtain ⟨hwhole, htaken, -⟩ := hs.bids k b hb
  have hset : (s.setStation b.owner { s.stations b.owner with
      world := (purpose.heard b.claim d (s.stations b.owner)).1 }).Sound := by
    refine hs.setStation _ _ rfl ?_
    cases purpose <;> exact HttpStore.write_baseUrl ..
  refine hset.settle (supersedes_self hb) hwhole htaken (hs.suits hb hp) fun hacquire ho => ?_
  subst hacquire
  obtain ⟨r, hr⟩ := ho
  exact hd rfl (HttpStore.write_granting hr)

theorem waitsFor_eq {purpose : Purpose} (h : waitsFor b n = some purpose) : b.standing = .waiting purpose n := by
  simp only [waitsFor] at h
  split at h
  · rename_i p number hp
    split at h
    · rename_i hn
      cases h
      rw [hp, hn]
    · cases h
  · cases h

theorem waiting_eq {w : Bid × Purpose} (h : s.waiting k = some w) :
    s.bids k = some w.1 ∧ ∃ n, w.1.standing = .waiting w.2 n := by
  simp only [Network.waiting] at h
  split at h
  · rename_i b hb
    split at h
    · rename_i p n hp
      cases h
      exact ⟨hb, n, hp⟩
    · cases h
  · cases h

/-- **A call is cut short.** -/
theorem abandon (hs : s.Sound) (hb : s.bids k = some b) {purpose : Purpose} (hp : b.standing = .waiting purpose n) :
    (s.abandon k b purpose).Sound := by
  obtain ⟨hwhole, htaken, -⟩ := hs.bids k b hb
  have hsuits := hs.suits hb hp
  have hsupersedes : s.Supersedes k b := supersedes_self hb
  cases purpose with
  | acquire => exact hs.install (b := { b with standing := .closed }) hsupersedes ⟨hwhole, htaken, trivial⟩ nofun
  | release l u =>
    exact hs.install (b := { b with standing := .held l }) hsupersedes ⟨hwhole, htaken, hsuits.1, hsuits.2.2⟩ nofun

/-- A clock that goes on. -/
theorem setClock (hs : s.Sound) {reading : DateTime} (h : s.setClock reading = some s') : s'.Sound := by
  simp only [Network.setClock] at h
  split at h
  · rename_i hle
    cases h
    refine ⟨hs.reaches, hs.identity, fun k b hb => ?_, fun n m hm => ?_, fun n r hr => ?_, fun k c hc => ?_⟩
    · obtain ⟨hwhole, htaken, hstands⟩ := hs.bids k b hb
      exact ⟨hwhole, Int.le_trans htaken hle, hstands⟩
    · exact ⟨(hs.requests n m hm).number, (hs.requests n m hm).bid⟩
    · exact ⟨(hs.replies n r hr).number, (hs.replies n r hr).granting⟩
    · obtain ⟨b, hb, hclaim, hkept⟩ := hs.kept k c hc
      exact ⟨b, hb, hclaim, fun hopen hnow => hkept hopen (Int.lt_of_le_of_lt hle hnow)⟩
  · cases h

end Sound

/-! ## The arrival of a request -/

/-- What the node makes of an acquire. -/
theorem Carries.acquire_served {call : Call} (h : Carries b .acquire call) (hwhole : b.claim.IsWhole)
    (w : World NodeParty) :
    ∃ identity, call.payload = some (.object (textsOf (b.claim.sentFields identity))) ∧
      Served w.store.node.memory b.claim.name (b.claim.record (.text identity))
        (b.claim.Sendable identity ∧ w.store.node.memory.Free b.claim.name b.claim.takenAt)
        (NodeParty.urlOf call) (NodeParty.send call w).1.store.node.memory (NodeParty.send call w).2 := by
  cases h with
  | acquire reaches identity => exact ⟨identity, rfl, NodeParty.send_acquire reaches hwhole identity rfl w⟩

/-- What the node makes of a release. -/
theorem Carries.release_served {l : Lease} {u : Instant} {call : Call} (h : Carries b (.release l u) call)
    (w : World NodeParty) :
    l.Fits b.claim ∧ b.surrendered = true ∧
      Served w.store.node.memory l.name (w.store.node.memory.released l u)
        (l.Sendable u ∧ w.store.node.memory.endOf l.name = some l.atMost)
        (NodeParty.urlOf call) (NodeParty.send call w).1.store.node.memory (NodeParty.send call w).2 := by
  cases h with
  | release reaches fits whole called =>
    have hname : l.name ≠ "" := by
      rw [fits.name]
      exact b.claim.named
    exact ⟨fits, called, NodeParty.send_release reaches fits.whole hname whole rfl w⟩

theorem grants_acquire {m : Message} (hp : m.purpose = .acquire) (hb : s.bids m.bid = some b) (d : Delivery) :
    s.grants m d = if d.Granting then [(m.bid, b.claim)] else [] := by
  simp only [grants, hp, hb]

theorem grants_release {m : Message} {l : Lease} {u : Instant} (hp : m.purpose = .release l u) (d : Delivery) :
    s.grants m d = [] := by
  simp only [grants, hp]

namespace Sound

/-- **An acquire arrives**: it is served, and told if it is granted. -/
theorem acquire_arrives (hs : s.Sound) {m : Message} (hm : s.requests n = some m) (hp : m.purpose = .acquire) :
    ∃ b identity url d, s.bids m.bid = some b ∧
      m.call.payload = some (.object (textsOf (b.claim.sentFields identity))) ∧
      (s.deliverWith n m).replies n = some ⟨m.bid, d⟩ ∧
      (s.deliverWith n m).granted = (if d.Granting then [(m.bid, b.claim)] else []) ++ s.granted ∧
      Served s.memory b.claim.name (b.claim.record (.text identity))
        (b.claim.Sendable identity ∧ s.memory.Free b.claim.name b.claim.takenAt) url
        (s.deliverWith n m).memory d := by
  obtain ⟨-, b, hb, hcarries, -⟩ := hs.requests n m hm
  rw [hp] at hcarries
  obtain ⟨identity, hpayload, hserved⟩ := hcarries.acquire_served (hs.bids m.bid b hb).whole s.node
  refine ⟨b, identity, _, _, hb, hpayload, Function.update_self .., ?_, hserved⟩
  rw [← grants_acquire hp hb]
  rfl

/-- **A release arrives**: somebody called for it, and it is served. -/
theorem release_arrives (hs : s.Sound) {m : Message} (hm : s.requests n = some m) {l : Lease} {u : Instant}
    (hp : m.purpose = .release l u) :
    ∃ b url d, s.bids m.bid = some b ∧ l.Fits b.claim ∧ b.surrendered = true ∧ (s.deliverWith n m).granted = s.granted ∧
      Served s.memory l.name (s.memory.released l u)
        (l.Sendable u ∧ s.memory.endOf l.name = some l.atMost) url (s.deliverWith n m).memory d := by
  obtain ⟨-, b, hb, hcarries, -⟩ := hs.requests n m hm
  rw [hp] at hcarries
  obtain ⟨hfits, hcalled, hserved⟩ := hcarries.release_served s.node
  refine ⟨b, _, _, hb, hfits, hcalled, ?_, hserved⟩
  show s.grants m _ ++ s.granted = s.granted
  rw [grants_release hp, List.nil_append]

/-- **An acquire that arrives spoils no claim that is kept**: the claim is good when the acquire is made, so the name is
not free. -/
theorem kept_acquire (hs : s.Sound) {m : Message} (hm : s.requests n = some m) (hp : m.purpose = .acquire) {c : Claim}
    (hc : (k, c) ∈ (s.deliverWith n m).granted) : (s.deliverWith n m).Kept k c := by
  obtain ⟨b, identity, url, d, hb, -, -, hgranted, hserved⟩ := hs.acquire_arrives hm hp
  rw [hgranted] at hc
  rcases hserved.applied_or_not with ⟨⟨-, hfree⟩, -, hmemory, hd⟩ | ⟨hrecords, hd, -⟩
  · rw [if_pos hd, List.singleton_append, List.mem_cons, Prod.mk.injEq] at hc
    rcases hc with ⟨rfl, rfl⟩ | hc
    · refine ⟨b, hb, rfl, fun _ _ _ => ?_⟩
      rw [endOf, hmemory, Memory.endOf_put_self]
      rfl
    · obtain ⟨b₀, hb₀, hclaim, hkept⟩ := hs.kept k c hc
      refine ⟨b₀, hb₀, hclaim, fun hopen hnow hundisputed => ?_⟩
      have hold : s.endOf c.name = some c.atMost := hkept hopen hnow hundisputed
      rw [endOf, hmemory]
      by_cases hname : c.name = b.claim.name
      · obtain ⟨-, htaken, -⟩ := hs.bids m.bid b hb
        rw [hname] at hold
        have hended : c.atMost.micros ≤ b.claim.takenAt.micros := hfree _ hold
        have hgood : s.clock.position < c.atMost.micros := hnow
        omega
      · rw [Memory.endOf_put_other hname]
        exact hold
  · rw [if_neg hd, List.nil_append] at hc
    have hends : (s.deliverWith n m).endOf = s.endOf := Memory.endOf_congr hrecords
    simp only [Kept, hends]
    exact hs.kept k c hc

/-- **A release that arrives spoils no claim that is kept**: the record ends with the claim, so the release is one that
disputes it. -/
theorem kept_release (hs : s.Sound) {m : Message} (hm : s.requests n = some m) {l : Lease} {u : Instant}
    (hp : m.purpose = .release l u) {c : Claim} (hc : (k, c) ∈ (s.deliverWith n m).granted) :
    (s.deliverWith n m).Kept k c := by
  obtain ⟨b, url, d, hb, hfits, hcalled, hgranted, hserved⟩ := hs.release_arrives hm hp
  rw [hgranted] at hc
  obtain ⟨b₀, hb₀, hclaim, hkept⟩ := hs.kept k c hc
  refine ⟨b₀, hb₀, hclaim, fun hopen hnow hundisputed => ?_⟩
  have hold : s.endOf c.name = some c.atMost := hkept hopen hnow hundisputed
  rcases hserved.applied_or_not with ⟨⟨-, hend⟩, -, hmemory, -⟩ | ⟨hrecords, -, -⟩
  · rw [endOf, hmemory]
    by_cases hname : c.name = l.name
    · -- the release would end the very claim, and it was called for
      rw [hname] at hold
      have hatMost : l.atMost = c.atMost := Option.some.inj (hend.symm.trans hold)
      refine absurd ?_ (hundisputed m.bid b hb ?_ hcalled)
      · rw [← hfits.atMost, hatMost]
      · rw [← hfits.name, hname]
    · rw [Memory.endOf_put_other hname]
      exact hold
  · rw [endOf, Memory.endOf_congr hrecords]
    exact hold

/-- **A request arrives.** -/
theorem deliverWith (hs : s.Sound) {m : Message} (hm : s.requests n = some m) : (s.deliverWith n m).Sound := by
  have hdropped := hs.dropRequest n
  have hmore : s.granted ⊆ (s.deliverWith n m).granted := List.subset_append_right _ _
  refine ⟨hs.reaches, hs.identity, fun k b hb => ?_, fun j m' hm' => ?_, fun j r hr => ?_, fun k c hc => ?_⟩
  · obtain ⟨hwhole, htaken, hstands⟩ := hs.bids k b hb
    exact ⟨hwhole, htaken, hstands.mono (Nat.le_refl _) hmore⟩
  · exact ⟨(hdropped.requests j m' hm').number, (hdropped.requests j m' hm').bid⟩
  · by_cases hj : j = n
    · subst hj
      obtain ⟨hnumber, b, hb, -, hlink⟩ := hs.requests j m hm
      simp only [Network.deliverWith, Function.update_self, Option.some.injEq] at hr
      subst hr
      refine ⟨hnumber, fun b' hb' hp hd => ?_⟩
      obtain rfl : b = b' := Option.some.inj (hb.symm.trans hb')
      show _ ∈ s.grants m _ ++ s.granted
      rw [grants_acquire (hlink _ hp).symm hb, if_pos hd]
      exact List.mem_append_left _ List.mem_cons_self
    · simp only [Network.deliverWith, Function.update_of_ne hj] at hr
      obtain ⟨hnumber, hgranting⟩ := hs.replies j r hr
      exact ⟨hnumber, fun b hb hp hd => hmore (hgranting b hb hp hd)⟩
  · cases hp : m.purpose with
    | acquire => exact hs.kept_acquire hm hp hc
    | release l u => exact hs.kept_release hm hp hc

/-- **Before the first call** everything holds. -/
theorem fresh (h : s.Fresh) : s.Sound where
  reaches := h.reaches
  identity := h.identity
  bids k b hb := by
    rw [h.bids] at hb
    cases hb
  requests n m hm := by
    rw [h.requests] at hm
    cases hm
  replies n r hr := by
    rw [h.replies] at hr
    cases hr
  kept k c hc := by
    rw [h.granted] at hc
    cases hc

/-- **Every event keeps the invariant.** -/
theorem next (hs : s.Sound) {e : Event} (h : s.next e = some s') : s'.Sound := by
  cases e with
  | clock reading => exact hs.setClock h
  | trouble t =>
    cases h
    exact hs.befall t
  | ask k owner name atMost atLeast => exact hs.ask h
  | release k =>
    simp only [Network.next, Network.release] at h
    split at h
    · rename_i b hb
      split at h
      · rename_i l hp
        cases h
        exact hs.releaseWith hb hp
      · cases h
    · cases h
  | deliver n =>
    obtain ⟨m, hm, rfl⟩ := Option.map_eq_some_iff.mp h
    exact hs.deliverWith hm
  | loseRequest n =>
    cases h
    exact hs.dropRequest n
  | loseReply n =>
    cases h
    exact hs.dropReply n
  | hear n =>
    obtain ⟨r, hr, h⟩ := Option.bind_eq_some_iff.mp h
    obtain ⟨b, hb, h⟩ := Option.bind_eq_some_iff.mp h
    obtain ⟨purpose, hw, h⟩ := Option.bind_eq_some_iff.mp h
    cases h
    have hp := waitsFor_eq hw
    refine (hs.dropReply n).hearWith hb hp fun hacquire hd => ?_
    rw [hacquire] at hp
    exact (hs.replies n r hr).granting b hb hp hd
  | fail k e =>
    obtain ⟨w, hw, rfl⟩ := Option.map_eq_some_iff.mp h
    obtain ⟨hb, n, hp⟩ := waiting_eq hw
    exact hs.hearWith hb hp nofun
  | expire k =>
    obtain ⟨w, hw, rfl⟩ := Option.map_eq_some_iff.mp h
    obtain ⟨hb, n, hp⟩ := waiting_eq hw
    obtain ⟨hwhole, htaken, -⟩ := hs.bids k w.1 hb
    exact hs.settle (supersedes_self hb) hwhole htaken (hs.suits hb hp) nofun
  | cancel k =>
    obtain ⟨w, hw, rfl⟩ := Option.map_eq_some_iff.mp h
    obtain ⟨hb, n, hp⟩ := waiting_eq hw
    exact hs.abandon hb hp

end Sound

/-- **The invariant holds of every state that can be reached.** -/
theorem Reachable.sound (h : Reachable s) : s.Sound := by
  induction h with
  | fresh hf => exact .fresh hf
  | next _ e hn ih => exact ih.next hn

end Network
end Leasehold
