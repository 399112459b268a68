/-
  The score of a contest: what its calls come to, and what that makes of the store.

  When calls contend for a name that is free, those whose requests meet trouble fail; of the others the first to write
  has the name, and the rest are refused.  Which calls these are is a matter of the order in which they come.  How many
  there are is not.

  1. **`Memory.Ahead`** — how many requests of a store will meet trouble.  Each request that does leaves one less, and
     none gets through before that (`Ahead.pass`, `Ahead.through`);
  2. **`fate?`** — what a call will count as, known as soon as its visit is decided.  It is set once, and **`tally`**
     counts the calls of a fate (`tally_update`);
  3. **`Score`** — the invariant: the fates of all calls account for the trouble that was met, and for what became of
     the store.  The record of the name is as it was, or that of the one call that wrote (`Taken`);
  4. **`Score.falters`, `Score.wins`, `Score.comesLate`** — the three ways in which a call is decided, each of which the
     store takes note of.  Whatever else a call does leaves the score (`Score.quiet`).
-/
import Mathlib.Algebra.BigOperators.Group.Finset.Piecewise
import Leasehold.Proofs.Contest
namespace Leasehold

/-! ## Trouble ahead -/

namespace Memory

variable {m : Memory} {n n' : Nat}

/-- **So many requests will meet trouble**: those that hang and those that are lost. -/
def Ahead (m : Memory) (n : Nat) : Prop := ∃ h f : Nat, m.hanging = h ∧ m.failing = f ∧ h + f = n

theorem Ahead.unique (h : m.Ahead n) (h' : m.Ahead n') : n = n' := by
  obtain ⟨a, b, ha, hb, rfl⟩ := h
  obtain ⟨c, d, hc, hd, rfl⟩ := h'
  omega

/-- A request gets through if no trouble is ahead, -/
theorem Ahead.through (h : m.Ahead n) (hway : m.pass.2 = .through) : n = 0 := by
  obtain ⟨a, b, ha, hb, rfl⟩ := h
  rw [pass_way, ha, hb] at hway
  split at hway
  · cases hway
  split at hway
  · cases hway
  · omega

/-- and otherwise leaves one less. -/
theorem Ahead.pass (h : m.Ahead n) (hway : m.pass.2 ≠ .through) : ∃ n', m.pass.1.Ahead n' ∧ n = n' + 1 := by
  obtain ⟨a, b, ha, hb, rfl⟩ := h
  simp only [Memory.pass, ha, hb] at hway ⊢
  by_cases hhangs : (a : Int) ≠ 0
  · rw [if_pos hhangs]
    exact ⟨a - 1 + b, ⟨a - 1, b, by dsimp only; omega, rfl, rfl⟩, by omega⟩
  rw [if_neg hhangs] at hway ⊢
  by_cases hfails : (b : Int) ≠ 0
  · rw [if_pos hfails]
    exact ⟨a + (b - 1), ⟨a, b - 1, rfl, by dsimp only; omega, rfl⟩, by omega⟩
  · rw [if_neg hfails] at hway
    exact absurd rfl hway

/-- A request on its way changes no count of the store. -/
theorem pass_conditionsFailed (m : Memory) : m.pass.1.conditionsFailed = m.conditionsFailed := by
  simp only [Memory.pass]
  split
  · rfl
  split <;> rfl

/-- Whether a name is free is a matter of the records. -/
theorem free_congr {m m' : Memory} (h : m'.records = m.records) (name : String) (t : Instant) :
    m'.Free name t ↔ m.Free name t := by
  rw [Free, Free, endOf_congr h]

/-- Who has just taken a name has it still. -/
theorem not_free_put {c : Claim} (m : Memory) (who : Value) : ¬(m.put c.name (c.record who)).Free c.name c.takenAt := by
  intro hfree
  have hend := hfree c.atMost (m.endOf_put_self c.name (c.record who))
  have hfuture := c.future
  omega

end Memory

namespace Loop

/-! ## Tallies -/

section

variable {β : Type} [DecidableEq β] {calls : Finset Nat} {fates fates' : Nat → Option β} {k : Nat} {b : β}

/-- How many calls have a fate. -/
def tally (calls : Finset Nat) (fates : Nat → Option β) (b : β) : Nat := (calls.filter fun k => fates k = some b).card

/-- **A call whose fate was open counts from now on.** -/
theorem tally_update (hk : k ∈ calls) (hopen : fates k = none) (hfates : fates' = Function.update fates k (some b))
    (b' : β) : tally calls fates' b' = tally calls fates b' + if b = b' then 1 else 0 := by
  subst hfates
  have hrest : ∑ j ∈ calls.erase k, (if Function.update fates k (some b) j = some b' then 1 else 0) =
      ∑ j ∈ calls.erase k, if fates j = some b' then 1 else 0 := by
    refine Finset.sum_congr rfl fun j hj => ?_
    rw [Function.update_of_ne (Finset.ne_of_mem_erase hj)]
  simp only [tally, Finset.card_filter]
  rw [← Finset.add_sum_erase _ _ hk, ← Finset.add_sum_erase calls (fun j => if fates j = some b' then 1 else 0) hk,
    hrest]
  simp only [Function.update_self, hopen, Option.some.injEq, reduceCtorEq, if_false]
  omega

/-- Where no call has a fate yet, none counts. -/
theorem tally_none (h : ∀ k, fates k = none) (b : β) : tally calls fates b = 0 :=
  Finset.card_eq_zero.mpr (Finset.filter_false_of_mem fun k _ hk => by rw [h k] at hk; cases hk)

theorem tally_pos (hk : k ∈ calls) (hb : fates k = some b) : 0 < tally calls fates b :=
  Finset.card_pos.mpr ⟨k, Finset.mem_filter.mpr ⟨hk, hb⟩⟩

/-- No call has a fate that is not counted. -/
theorem not_fate_of_tally (h : tally calls fates b = 0) (hk : k ∈ calls) : fates k ≠ some b := fun hb =>
  absurd h (tally_pos hk hb).ne'

/-- The only call that has a fate is the one that is known to. -/
theorem eq_of_tally {j : Nat} (h : tally calls fates b = 1) (hk : k ∈ calls) (hb : fates k = some b) (hj : j ∈ calls)
    (hb' : fates j = some b) : j = k :=
  Finset.card_le_one.mp h.le j (Finset.mem_filter.mpr ⟨hj, hb'⟩) k (Finset.mem_filter.mpr ⟨hk, hb⟩)

end

/-- If every call has one of the three fates, they make up all calls. -/
theorem tally_total {calls : Finset Nat} {fates : Nat → Option AcquireOutcome} (h : ∀ k ∈ calls, ∃ x, fates k = some x) :
    tally calls fates .failed + tally calls fates .contended + tally calls fates .acquired = calls.card := by
  simp only [tally, Finset.card_filter]
  rw [← Finset.sum_add_distrib, ← Finset.sum_add_distrib, Finset.card_eq_sum_ones]
  refine Finset.sum_congr rfl fun k hk => ?_
  obtain ⟨x, hx⟩ := h k hk
  rw [hx]
  cases x <;> rfl

/-! ## Fates -/

/-- **What a visit will count as**, known when it hangs or is over. -/
def Visit.fate? (v : Visit) : Option AcquireOutcome :=
  match v.job with
  | .acquire c => v.place.outcome?.bind (AcquireOutcome.of? c)
  | .release _ _ _ => none

def Call.fate? : Call → Option AcquireOutcome
  | sent v => v.fate?
  | unsent _ => none

/-- The fates of all calls. -/
def fate? (s : Loop) (k : Nat) : Option AcquireOutcome := (s.calls k).bind Call.fate?

section

variable {name : String} {now : Instant} {calls : Finset Nat} {s₀ s s' : Loop} {e : Event} {es : List Event} {k : Nat}
  {v v' : Visit} {c : Claim} {who : Value} {call : Call} {trouble : Nat}

/-- When a call changes, what can be seen of it is the only thing that does. -/
theorem seen_update {β : Type} (hcalls : s'.calls = Function.update s.calls k (some call)) (see : Call → Option β) :
    (fun n => (s'.calls n).bind see) = Function.update (fun n => (s.calls n).bind see) k (see call) := by
  funext n
  rw [hcalls]
  by_cases hn : n = k
  · rw [hn, Function.update_self, Function.update_self]
    rfl
  · rw [Function.update_of_ne hn, Function.update_of_ne hn]

/-- Before the first call there is nothing to be seen of any. -/
theorem Fresh.unseen {β : Type} (h₀ : s.Fresh) (see : Call → Option β) (k : Nat) : (s.calls k).bind see = none := by
  rw [h₀.calls k]
  rfl

theorem fate_sent (hk : s.calls k = some (.sent v)) : s.fate? k = v.fate? := by
  rw [fate?, hk]
  rfl

theorem fate_update (hcalls : s'.calls = Function.update s.calls k (some call)) :
    s'.fate? = Function.update s.fate? k call.fate? :=
  seen_update hcalls Call.fate?

/-- A call that moves on without a decision leaves the fates as they are. -/
theorem fate_same (hk : s.fate? k = call.fate?) (hcalls : s'.calls = Function.update s.calls k (some call)) :
    s'.fate? = s.fate? := by
  rw [fate_update hcalls, ← hk, Function.update_eq_self]

theorem Visit.Enters.fate (hv : v.Enters name now who c) : v.fate? = v.place.outcome?.bind (AcquireOutcome.of? c) := by
  rw [Visit.fate?, hv.job]

theorem Place.OnTheWay.undecided {p : Place} (h : p.OnTheWay) : p.outcome? = none := by
  rcases h with (rfl | rfl) | rfl <;> rfl

/-- On its way a visit is not decided yet. -/
theorem Visit.Enters.fate_onTheWay (hv : v.Enters name now who c) (hway : v.place.OnTheWay) : v.fate? = none := by
  rw [hv.fate, hway.undecided]
  rfl

/-- A call that is over has ended as its fate tells. -/
theorem Visit.Enters.ending (hv : v.Enters name now who c) (hover : v.IsOver) :
    ∃ x, v.fate? = some x ∧ v.caller = .returned (endingOf c who x) := by
  rw [hv.fate]
  obtain ⟨ending, hc⟩ := hover
  have hleg := hv.leg
  rw [hc] at hleg ⊢
  generalize v.place = p at hleg ⊢
  generalize v.isTold = told at hleg
  cases hleg with
  | timedOut => exact ⟨.failed, rfl, rfl⟩
  | closed hears => exact ⟨_, hears.counts, rfl⟩

/-! ## The score -/

/-- A call asks for a record. -/
def Wants (s : Loop) (k : Nat) (r : LeaseRecord) : Prop :=
  ∃ v c, s.calls k = some (.sent v) ∧ v.job = .acquire c ∧ r = c.record (s.locks v.owner).identity

/-- **The record of the name** so far: as it was, while nobody has written, or that of the one who has. -/
inductive Taken (name : String) (calls : Finset Nat) (s₀ s : Loop) : Prop where
  | untouched (unwritten : tally calls s.fate? .acquired = 0) (unrefused : tally calls s.fate? .contended = 0)
      (records : s.world.store.records = s₀.world.store.records)
  | written {k : Nat} {r : LeaseRecord} (once : tally calls s.fate? .acquired = 1) (wants : s.Wants k r)
      (fate : s.fate? k = some .acquired) (records : s.world.store.records = (s₀.world.store.put name r).records)
      (clear : s.world.store.Ahead 0)

/-- **The score of a contest**: the fates account for the trouble that was met, and for what became of the store.  Whoever
stands in the row at the gate shows that no trouble is left. -/
structure Score (name : String) (calls : Finset Nat) (trouble : Nat) (s₀ s : Loop) : Prop where
  ahead : ∃ n, s.world.store.Ahead n ∧ tally calls s.fate? .failed + n = trouble
  row : ∀ k v, s.calls k = some (.sent v) → v.place = .queueing → s.world.store.Ahead 0
  writes : s.world.store.writesApplied = s₀.world.store.writesApplied + tally calls s.fate? .acquired
  refusals : s.world.store.conditionsFailed = s₀.world.store.conditionsFailed + tally calls s.fate? .contended
  taken : Taken name calls s₀ s

/-- What a call asks for does not change. -/
theorem Stride.wants (h : Stride name now calls s e s') {r : LeaseRecord} (hr : s.Wants k r) : s'.Wants k r := by
  obtain ⟨v, c, hv, hjob, rfl⟩ := hr
  have hidentity := h.identity v.owner
  have hmoved : ∀ {j : Nat} {w w' : Visit}, s.calls j = some (.sent w) →
      s'.calls = Function.update s.calls j (some (.sent w')) → w'.job = w.job → w'.owner = w.owner →
      s'.Wants k (c.record (s.locks v.owner).identity) := by
    intro j w w' hw hcalls hjob' howner
    by_cases hk : k = j
    · subst hk
      rw [hw] at hv
      cases hv
      exact ⟨w', c, by rw [hcalls, Function.update_self], hjob'.trans hjob, by rw [howner, hidentity]⟩
    · exact ⟨v, c, by rw [hcalls, Function.update_of_ne hk, hv], hjob, by rw [hidentity]⟩
  cases h with
  | outside call calls locks world => exact ⟨v, c, by rw [calls, hv], hjob, by rw [hidentity]⟩
  | begins call mem unknown whole name takenAt calls locks world =>
    refine ⟨v, c, ?_, hjob, by rw [hidentity]⟩
    rw [calls, Function.update_of_ne ?_, hv]
    rintro rfl
    rw [unknown] at hv
    cases hv
  | moves call known enters calls locks ledger bout => exact hmoved known calls bout.job bout.owner
  | settles call known enters waits ended outcome counts calls locks ledger store => exact hmoved known calls rfl rfl

/-- **While nobody has written, the name is free, and when somebody has, it is not.** -/
theorem Taken.free_iff (h : Taken name calls s₀ s) (hs : s.Entered name now calls)
    (hfree : s₀.world.store.Free name now) :
    s.world.store.Free name now ↔ tally calls s.fate? .acquired = 0 := by
  cases h with
  | untouched unwritten unrefused records => exact iff_of_true ((Memory.free_congr records name now).mpr hfree) unwritten
  | written once wants fate records clear =>
    refine iff_of_false (fun hnow => ?_) (by omega)
    obtain ⟨v, c, hv, hjob, rfl⟩ := wants
    obtain ⟨-, d, hd⟩ := hs.known hv
    rw [hd.job] at hjob
    cases hjob
    have hput := (Memory.free_congr records name now).mp hnow
    rw [← hd.name, ← hd.takenAt] at hput
    exact Memory.not_free_put _ _ hput

section

variable (h : Score name calls trouble s₀ s) (hwants : ∀ {j r}, s.Wants j r → s'.Wants j r)
  (hrow : ∀ j w, s'.calls j = some (.sent w) → w.place = .queueing → s'.world.store.Ahead 0)

include h hwants hrow

/-- A step that decides nothing leaves the score, -/
theorem Score.quiet (hfates : s'.fate? = s.fate?) (hstore : s'.world.store = s.world.store) :
    Score name calls trouble s₀ s' := by
  refine ⟨?_, hrow, ?_, ?_, ?_⟩
  · rw [hfates, hstore]
    exact h.ahead
  · rw [hfates, hstore]
    exact h.writes
  · rw [hfates, hstore]
    exact h.refusals
  · cases h.taken with
    | untouched unwritten unrefused records =>
      exact .untouched (by rw [hfates, unwritten]) (by rw [hfates, unrefused]) (by rw [hstore, records])
    | written once wants fate records clear =>
      exact .written (by rw [hfates, once]) (hwants wants) (by rw [hfates, fate]) (by rw [hstore, records])
        (by rw [hstore]; exact clear)

variable (hk : k ∈ calls) (hopen : s.fate? k = none)

include hk hopen

omit hwants in
/-- trouble that is met is one more failure, -/
theorem Score.falters (hfates : s'.fate? = Function.update s.fate? k (some .failed))
    (hstore : s'.world.store = s.world.store.pass.1) (way : s.world.store.pass.2 ≠ .through) :
    Score name calls trouble s₀ s' := by
  have htally := tally_update hk hopen hfates
  obtain ⟨n, hn, hfailed⟩ := h.ahead
  obtain ⟨n', hn', rfl⟩ := hn.pass way
  refine ⟨⟨n', by rw [hstore]; exact hn', ?_⟩, hrow, ?_, ?_, ?_⟩
  · rw [htally, if_pos rfl]
    omega
  · rw [htally, hstore, s.world.store.pass_spared.writes, h.writes]
    rfl
  · rw [htally, hstore, s.world.store.pass_conditionsFailed, h.refusals]
    rfl
  · cases h.taken with
    | untouched unwritten unrefused records =>
      refine .untouched ?_ ?_ ?_
      · rw [htally, unwritten]
        rfl
      · rw [htally, unrefused]
        rfl
      · rw [hstore, s.world.store.pass_records, records]
    -- once somebody has written, nobody meets trouble any more
    | written once wants fate records clear => exact absurd (hn.unique clear) (Nat.succ_ne_zero n')

/-- the first to write is the one whose record it is, -/
theorem Score.wins (hfates : s'.fate? = Function.update s.fate? k (some .acquired)) {r : LeaseRecord} (hr : s.Wants k r)
    (hstore : s'.world.store = s.world.store.put name r) (clear : s.world.store.Ahead 0)
    (hfree : tally calls s.fate? .acquired = 0) : Score name calls trouble s₀ s' := by
  have htally := tally_update hk hopen hfates
  have hclear : s'.world.store.Ahead 0 := by
    rw [hstore]
    exact clear
  obtain ⟨n, hn, hfailed⟩ := h.ahead
  obtain rfl := hn.unique clear
  refine ⟨⟨0, hclear, by rw [htally]; exact hfailed⟩, hrow, ?_, ?_, ?_⟩
  · rw [htally, hstore, if_pos rfl]
    exact congrArg (· + 1) h.writes
  · rw [htally, hstore]
    exact h.refusals
  · refine .written (by rw [htally, hfree]; rfl) (hwants hr) (by rw [hfates, Function.update_self]) ?_ hclear
    cases h.taken with
    | untouched unwritten unrefused records =>
      rw [hstore]
      exact congrArg (Memory.putRecord (.text name) r) records
    | written once wants fate records clear => omega

/-- and who comes later is refused. -/
theorem Score.comesLate (hfates : s'.fate? = Function.update s.fate? k (some .contended))
    (hstore : s'.world.store = s.world.store.refuse) (clear : s.world.store.Ahead 0)
    (htaken : tally calls s.fate? .acquired ≠ 0) : Score name calls trouble s₀ s' := by
  have htally := tally_update hk hopen hfates
  have hclear : s'.world.store.Ahead 0 := by
    rw [hstore]
    exact clear
  obtain ⟨n, hn, hfailed⟩ := h.ahead
  obtain rfl := hn.unique clear
  refine ⟨⟨0, hclear, by rw [htally]; exact hfailed⟩, hrow, ?_, ?_, ?_⟩
  · rw [htally, hstore]
    exact h.writes
  · rw [htally, hstore, if_pos rfl]
    exact congrArg (· + 1) h.refusals
  · cases h.taken with
    | untouched unwritten unrefused records => exact absurd unwritten htaken
    | @written j r once wants fate records clear =>
      refine .written (by rw [htally, once]; rfl) (hwants wants) ?_ (by rw [hstore]; exact records) hclear
      rw [hfates, Function.update_of_ne, fate]
      rintro rfl
      rw [hopen] at fate
      cases fate

end

/-- Nobody stands in the row while trouble is left. -/
theorem Score.row_next (h : Score name calls trouble s₀ s)
    (hcalls : s'.calls = Function.update s.calls k (some (.sent v')))
    (hkeeps : s.world.store.Ahead 0 → s'.world.store.Ahead 0) (hself : v'.place = .queueing → s'.world.store.Ahead 0) :
    ∀ j w, s'.calls j = some (.sent w) → w.place = .queueing → s'.world.store.Ahead 0 := by
  intro j w hw hq
  rcases calls_cases hcalls hw with ⟨-, hsame⟩ | ⟨-, hold⟩
  · cases hsame
    exact hself hq
  · exact hkeeps (h.row j w hold hq)

/-- **Every visit that moves on keeps the score.** -/
theorem Score.moves (h : Score name calls trouble s₀ s) (hs : s.Entered name now calls)
    (hfree : s₀.world.store.Free name now) (hwants : ∀ {j r}, s.Wants j r → s'.Wants j r)
    (known : s.calls k = some (.sent v))
    (enters : v.Enters name now (s.locks v.owner).identity c)
    (hcalls : s'.calls = Function.update s.calls k (some (.sent v')))
    (bout : v.Bout c (s.locks v.owner).identity s.world.store v' s'.world.store) : Score name calls trouble s₀ s' := by
  have hmem : k ∈ calls := (hs.known known).1
  have hfate := fate_sent known
  have hopen : v.place.OnTheWay → s.fate? k = none := fun hway => hfate.trans (enters.fate_onTheWay hway)
  have hfates : s'.fate? = Function.update s.fate? k v'.fate? := fate_update hcalls
  have hsame : s.fate? k = v'.fate? → s'.fate? = s.fate? := fun heq => by rw [hfates, ← heq, Function.update_eq_self]
  have hnext : v'.fate? = v'.place.outcome?.bind (AcquireOutcome.of? c) := (bout.enters enters).fate
  have hthrough : s.world.store.pass.2 = .through → s.world.store.Ahead 0 := by
    intro hway
    obtain ⟨n, hn, -⟩ := h.ahead
    exact hn.through hway ▸ hn
  have hclear : v.place.IsBefore ∧ s.world.store.pass.2 = .through ∨ v.place = .queueing → s.world.store.Ahead 0 := by
    rintro (⟨-, hway⟩ | hq)
    · exact hthrough hway
    · exact h.row k v known hq
  -- the store decides by the record of the name, and the score tells what that is
  have hmine : s.world.store.Free c.name c.takenAt ↔ tally calls s.fate? .acquired = 0 := by
    rw [enters.name, enters.takenAt]
    exact h.taken.free_iff hs hfree
  generalize hstore : s'.world.store = m' at bout
  cases bout with
  | pauses starting =>
    have hrow := h.row_next hcalls (by rw [hstore]; exact id) nofun
    exact h.quiet hwants hrow (hsame ((hopen (Or.inl (Or.inl starting))).trans hnext.symm)) hstore
  | queues before way =>
    have hrow := h.row_next hcalls (by rw [hstore]; exact id) (fun _ => by rw [hstore]; exact hthrough way)
    exact h.quiet hwants hrow (hsame ((hopen (Or.inl before)).trans hnext.symm)) hstore
  | told hangs untold waits =>
    have hrow := h.row_next hcalls (by rw [hstore]; exact id) (fun hq => by
      rw [show v.place = .queueing from hq] at hangs
      cases hangs)
    exact h.quiet hwants hrow (hsame hfate) hstore
  | cut hangs told =>
    have hrow := h.row_next hcalls (by rw [hstore]; exact id) nofun
    refine h.quiet hwants hrow (hsame (hfate.trans ?_)) hstore
    rw [enters.fate, hangs]
    exact hnext.symm
  | @falters before way place met =>
    have hfailed : (v.goTo place).fate? = some .failed := by
      rcases met with rfl | rfl <;> exact hnext
    have hkeeps : s.world.store.Ahead 0 → s'.world.store.Ahead 0 := by
      intro hzero
      obtain ⟨n, -, hlt⟩ := hzero.pass way
      exact absurd hlt (Nat.succ_ne_zero n).symm
    have hrow := h.row_next hcalls hkeeps (fun hq => by rcases met with rfl | rfl <;> cases hq)
    exact h.falters hrow hmem (hopen (Or.inl before)) (hfailed ▸ hfates) hstore way
  | written way free =>
    have hrow := h.row_next hcalls (by rw [hstore]; exact id) nofun
    have hacquired := hnext.trans Hears.written.counts
    refine h.wins hwants hrow hmem (hopen (way.imp And.left id)) (hacquired ▸ hfates) ⟨v, c, known, enters.job, rfl⟩ ?_
      (hclear way) (hmine.mp free)
    rw [hstore, enters.name]
  | refused way taken =>
    have hrow := h.row_next hcalls (by rw [hstore]; exact id) nofun
    have hcontended := hnext.trans (Hears.refused : Hears c (s.locks v.owner).identity _ _).counts
    exact h.comesLate hwants hrow hmem (hopen (way.imp And.left id)) (hcontended ▸ hfates) hstore (hclear way)
      (mt hmine.mpr taken)

/-- **Every event of a contest keeps the score.** -/
theorem Score.next (h : Score name calls trouble s₀ s) (hs : s.Entered name now calls)
    (hfree : s₀.world.store.Free name now) (hstride : Stride name now calls s e s') : Score name calls trouble s₀ s' := by
  have hwants : ∀ {j r}, s.Wants j r → s'.Wants j r := hstride.wants
  cases hstride with
  | outside call calls locks world =>
    refine h.quiet hwants (fun j w hw hq => ?_) (by funext n; rw [fate?, fate?, calls]) (by rw [world])
    rw [calls] at hw
    rw [world]
    exact h.row j w hw hq
  | begins call mem unknown whole name takenAt calls locks world =>
    have hrow := h.row_next calls (by rw [world]; exact id) nofun
    refine h.quiet hwants hrow (fate_same ?_ calls) (by rw [world])
    rw [fate?, unknown]
    rfl
  | moves call known enters calls locks ledger bout => exact h.moves hs hfree hwants known enters calls bout
  | @settles k v c o x call known enters waits ended outcome counts calls locks ledger store =>
    have hrow := h.row_next calls (by rw [store]; exact id) (fun hq => by
      rw [show v.place = .queueing from hq] at ended
      cases ended)
    exact h.quiet hwants hrow (fate_same (fate_sent known) calls) store

theorem Fresh.score (h₀ : s.Fresh) (hahead : s.world.store.Ahead trouble) : Score name calls trouble s s := by
  have hzero : ∀ x, tally calls s.fate? x = 0 := tally_none (h₀.unseen Call.fate?)
  refine ⟨⟨trouble, hahead, by rw [hzero, Nat.zero_add]⟩, fun k v hk => ?_, by rw [hzero]; rfl, by rw [hzero]; rfl,
    .untouched (hzero _) (hzero _) rfl⟩
  rw [h₀.calls k] at hk
  cases hk

end

end Loop
end Leasehold
