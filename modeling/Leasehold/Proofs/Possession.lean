/-
  Whose record it is.

  The ends of records are bounded from above and from below elsewhere.  Here the whole record is told: who wrote it, when,
  and until when.  Locks race for the leases of a store in memory, and trouble may befall it.

  1. **`Chronicle.Holder`** — the lease of a name that was acquired last, by its call, since two leases may be the same but
     for the calls that acquired them;
  2. **`Possessed`** — the invariant: while the holder's lease is not released, the record of the name is just the record
     that its acquire wrote.  An acquire writes the record of the new holder.  A release of another lease of the name would
     have to find the end of that other lease, and does not (`Chronicle.Sound.end_ne`);
  3. **`Sound.way_next`** — a store that is not told to make trouble makes none.
-/
import Leasehold.Proofs.Course
import Leasehold.Proofs.StoreCall
namespace Leasehold

/-- The record that the acquire of a lease writes. -/
def Lease.record (l : Lease) : LeaseRecord := ⟨.text l.name, l.atMost, some l.takenAt, l.lockedBy⟩

/-! ## The holder of a name -/

namespace Chronicle

variable {h : Chronicle} {m : Mark} {ms : List Mark} {name : String} {k k' : Nat} {l l' : Lease}

/-- **The holder of a name**: of the acquires under the name, that of the lease is the last. -/
def Holder (h : Chronicle) (name : String) (k : Nat) (l : Lease) : Prop :=
  l.name = name ∧ ∃ i : Nat, h[i]? = some (.acquired k l) ∧
    ∀ (j k' : Nat) (l' : Lease), i < j → h[j]? = some (.acquired k' l') → l'.name ≠ name

/-- **A name was taken over**: another lease of it was acquired after the first. -/
def TakenOver (h : Chronicle) (k : Nat) (l : Lease) (k' : Nat) (l' : Lease) : Prop :=
  l'.name = l.name ∧ ∃ i j : Nat, i < j ∧ h[i]? = some (.acquired k l) ∧ h[j]? = some (.acquired k' l')

theorem Holder.mem (hh : h.Holder name k l) : Mark.acquired k l ∈ h := by
  obtain ⟨-, i, hi, -⟩ := hh
  exact mem_of_at hi

/-- Every other lease of the name was acquired before the holder's. -/
theorem Holder.takenOver (hh : h.Holder name k l) (hl : Mark.acquired k' l' ∈ h) (hname : l'.name = name) (hk : k' ≠ k) :
    h.TakenOver k' l' k l := by
  obtain ⟨hself, j, hj, hlast⟩ := hh
  obtain ⟨i, hi⟩ := at_of_mem hl
  rcases Nat.lt_trichotomy i j with hij | rfl | hij
  · exact ⟨hself.trans hname.symm, i, j, hij, hi, hj⟩
  · rw [hi] at hj
    cases hj
    exact absurd rfl hk
  · exact absurd hname (hlast i k' l' hij hi)

/-- What is told of no acquire under the name leaves its holder. -/
theorem Holder.of_concat (hh : Holder (h ++ [m]) name k l) (hm : ∀ k' l', m = .acquired k' l' → l'.name ≠ name) :
    h.Holder name k l := by
  obtain ⟨hname, i, hi, hlast⟩ := hh
  rcases at_concat.mp hi with hi | ⟨-, hx⟩
  · exact ⟨hname, i, hi, fun j k' l' hij hj => hlast j k' l' hij (at_concat.mpr (Or.inl hj))⟩
  · exact absurd hname (hm k l hx.symm)

/-- Whoever acquires under the name is its holder. -/
theorem Holder.of_acquired (hh : Holder (h ++ [.acquired k' l']) name k l) (hname : l'.name = name) : k = k' ∧ l = l' := by
  obtain ⟨-, i, hi, hlast⟩ := hh
  rcases at_concat.mp hi with hi | ⟨-, hx⟩
  · exact absurd hname (hlast h.length k' l' (lt_of_at hi) (at_concat.mpr (Or.inr ⟨rfl, rfl⟩)))
  · cases hx
    exact ⟨rfl, rfl⟩

/-- What is no write leaves the holder likewise, and tells of no release. -/
theorem Holder.of_quiet (hh : Holder (h ++ ms) name k l) (hms : ∀ m ∈ ms, ¬m.IsWrite) : h.Holder name k l := by
  induction ms generalizing h with
  | nil => rwa [List.append_nil] at hh
  | cons m ms ih =>
    rw [List.append_cons] at hh
    refine (ih hh fun x hx => hms x (List.mem_cons_of_mem _ hx)).of_concat fun k' l' hm => ?_
    subst hm
    exact absurd trivial (hms _ List.mem_cons_self)

/-- The record of a name ends at the ceiling of no open lease that was taken over by another one. -/
theorem Sound.end_ne_takenOver {ends : String → Option Instant} (hs : h.Sound ends) (ht : h.TakenOver k l k' l')
    (hopen : ¬h.Released k) (hopen' : ¬h.Released k') : ends l.name ≠ some l.atMost := by
  obtain ⟨hname, i, j, hij, hi, hj⟩ := ht
  exact hs.end_ne hij hi hj hname.symm hopen hopen'

theorem released_append (hr : h.Released k) : Released (h ++ ms) k := by
  obtain ⟨u, hu⟩ := hr
  exact ⟨u, List.mem_append_left _ hu⟩

end Chronicle

namespace Memory

theorem find_congr {m m' : Memory} (h : m'.records = m.records) (name : Value) : m'.find? name = m.find? name := by
  simp only [find?, h]

/-- A write that gets through leaves the way clear. -/
theorem Effect.way {m m' : Memory} {name : String} {r : LeaseRecord} {condition : Prop} {o : Outcome LeaseRecord}
    (h : Effect m name r condition m' o) (hway : m.pass.2 = .through) :
    m'.pass.2 = .through ∧ ((condition ∧ o = .answered r ∧ m' = m.put name r) ∨
      (¬condition ∧ o = .failed (.conditionNotMet (.text name) .store) ∧ m'.records = m.records)) := by
  cases h with
  | applied way holds => exact ⟨(m.pass_put name r).trans hway, Or.inl ⟨holds, rfl, rfl⟩⟩
  | refused way fails =>
    refine ⟨?_, Or.inr ⟨fails, rfl, rfl⟩⟩
    rw [pass_way] at hway ⊢
    exact hway
  | lost way =>
    rw [hway] at way
    cases way
  | stuck way =>
    rw [hway] at way
    cases way

end Memory

namespace Race

variable {s s' : Race Memory} {k : Nat} {a : Attempt} {l : Lease} {u : Instant} {e : Event Memory.Trouble}

/-! ## The record of the holder -/

/-- **The invariant**: the record of a name is the one that its holder wrote, unless a release of the lease was applied. -/
def Possessed (s : Race Memory) : Prop :=
  ∀ (name : String) (k : Nat) (l : Lease), s.history.Holder name k l → ¬s.history.Released k →
    s.world.store.find? (.text name) = some l.record

namespace Possessed

theorem fresh (h : s.Fresh) : s.Possessed := by
  intro name k l hh
  have hmem := hh.mem
  rw [h.history] at hmem
  cases hmem

/-- While no record changes and no write is told, the holders keep their records. -/
theorem quiet (hp : s.Possessed) (hr : s'.world.store.records = s.world.store.records) {ms : Chronicle}
    (hms : ∀ m ∈ ms, ¬m.IsWrite) (hh : s'.history = s.history ++ ms) : s'.Possessed := by
  intro name k l hholder hopen
  rw [hh] at hholder hopen
  rw [Memory.find_congr hr]
  exact hp name k l (hholder.of_quiet hms) fun hreleased => hopen (Chronicle.released_append hreleased)

/-- **An acquire writes the record of the new holder.** -/
theorem arriveAcquire (hp : s.Possessed) (hs : s.Sound) (ha : s.attempts k = some a) (hstage : a.stage = .calling .acquire) :
    (s.arriveWith Memory.store k a .acquire).Possessed := by
  have hh := history_arriveWith Memory.store k a .acquire s
  rcases (hs.acquire_carried ha hstage).2.applied_or_not with ⟨-, ho, hm⟩ | ⟨hno, hm⟩
  · rw [ho] at hh
    intro name k₁ l₁ hholder hopen
    rw [hh] at hholder hopen
    show (s.carry Memory.store a .acquire).1.store.find? _ = _
    rw [hm]
    by_cases hname : a.claim.name = name
    · obtain ⟨rfl, rfl⟩ := hholder.of_acquired hname
      subst hname
      exact Memory.find_put_text ..
    · rw [Memory.find_put_text_other (Ne.symm hname)]
      refine hp name k₁ l₁ (hholder.of_concat fun k' l' hx => ?_) fun hr => hopen (Chronicle.released_append hr)
      cases hx
      exact hname
  · rw [markWritten_unanswered hno] at hh
    exact hp.quiet hm (List.forall_mem_nil _) hh

/-- **A release moves the end of no record but that of its own lease's holder**, which is released then. -/
theorem arriveRelease (hp : s.Possessed) (hs : s.Sound) (ha : s.attempts k = some a)
    (hstage : a.stage = .calling (.release l u)) : (s.arriveWith Memory.store k a (.release l u)).Possessed := by
  have hh := history_arriveWith Memory.store k a (.release l u) s
  obtain ⟨⟨rfl, hopen, -⟩, he⟩ := hs.release_carried ha hstage
  rcases he.applied_or_not with ⟨hend, ho, hm⟩ | ⟨hno, hm⟩
  · rw [ho] at hh
    intro name k₁ l₁ hholder hopen₁
    rw [hh] at hholder hopen₁
    have hold := hholder.of_concat nofun
    have hopen₁' : ¬s.history.Released k₁ := fun hr => hopen₁ (Chronicle.released_append hr)
    show (s.carry Memory.store a (.release (s.leaseOf a) u)).1.store.find? _ = _
    rw [hm]
    by_cases hname : (s.leaseOf a).name = name
    · -- the release would have found its own end under a later lease
      by_cases hk : k = k₁
      · subst hk
        exact absurd (Chronicle.released_concat.mpr (Or.inr ⟨u, rfl⟩)) hopen₁
      · exact absurd hend (hs.history.end_ne_takenOver (hold.takenOver hopen.1 hname hk) hopen.2 hopen₁')
    · rw [Memory.find_put_text_other (Ne.symm hname)]
      exact hp name k₁ l₁ hold hopen₁'
  · rw [markWritten_unanswered hno] at hh
    exact hp.quiet hm (List.forall_mem_nil _) hh

/-- **Every event leaves the holders their records.** -/
theorem next (hp : s.Possessed) (hs : s.Sound) (hn : s.next Memory.site e = some s') : s'.Possessed := by
  by_cases he : ∃ k, e = .arrive k
  · obtain ⟨k, rfl⟩ := he
    obtain ⟨a, purpose, ha, hstage, rfl⟩ := next_arrive hn
    cases purpose with
    | acquire => exact hp.arriveAcquire hs ha hstage
    | release l u => exact hp.arriveRelease hs ha hstage
  · obtain ⟨hrecords, ms, hms, hh⟩ := next_quiet hn fun k hk => he ⟨k, hk⟩
    exact hp.quiet hrecords hms hh

end Possessed

/-- **In every state that can be reached** the holders have their records. -/
theorem Reachable.possessed (h : Reachable Memory.site s) : s.Possessed := by
  induction h with
  | fresh hf => exact .fresh hf
  | next hr e hn ih => exact ih.next hr.sound hn

/-! ## A store without trouble -/

theorem settle_store (s : Race Memory) (k : Nat) (a : Attempt) (purpose : Purpose) (o : Outcome LeaseRecord) :
    (s.settle k a purpose o).world.store = s.world.store := by
  cases purpose <;> rfl

theorem releaseWith_store (s : Race Memory) (k : Nat) (a : Attempt) (l : Lease) :
    (s.releaseWith k a l).world.store = s.world.store := by
  simp only [releaseWith]
  split
  · rfl
  split <;> rfl

/-- An event that is neither an arrival nor trouble leaves the store. -/
theorem next_store (hn : s.next Memory.site e = some s') (he : ∀ k, e ≠ .arrive k) (ht : ∀ t, e ≠ .trouble t) :
    s'.world.store = s.world.store := by
  cases e with
  | clock c reading =>
    simp only [Race.next, setClock] at hn
    split at hn
    · cases hn
      rfl
    · cases hn
  | trouble t => exact absurd rfl (ht t)
  | ask k owner name atMost atLeast =>
    simp only [Race.next, ask] at hn
    split at hn
    · cases hn
    split at hn <;> cases hn <;> rfl
  | arrive k => exact absurd rfl (he k)
  | finish k =>
    obtain ⟨a, -, hn⟩ := Option.bind_eq_some_iff.mp hn
    obtain ⟨⟨purpose, o⟩, -, hn⟩ := Option.bind_eq_some_iff.mp hn
    cases hn
    exact s.settle_store k a purpose o
  | expire k =>
    obtain ⟨a, -, hn⟩ := Option.bind_eq_some_iff.mp hn
    obtain ⟨purpose, -, hn⟩ := Option.bind_eq_some_iff.mp hn
    cases hn
    exact s.settle_store k a purpose .silent
  | cancel k =>
    obtain ⟨a, -, hn⟩ := Option.bind_eq_some_iff.mp hn
    obtain ⟨purpose, -, hn⟩ := Option.bind_eq_some_iff.mp hn
    cases hn
    cases purpose <;> rfl
  | release k =>
    simp only [Race.next, release] at hn
    split at hn
    · split at hn
      · cases hn
        exact s.releaseWith_store ..
      · cases hn
    · cases hn

/-- **A store that is not told to make trouble makes none**: the way of its requests stays clear. -/
theorem Sound.way_next (hs : s.Sound) (hn : s.next Memory.site e = some s') (ht : ∀ t, e ≠ .trouble t)
    (hway : s.world.store.pass.2 = .through) : s'.world.store.pass.2 = .through := by
  by_cases he : ∃ k, e = .arrive k
  · obtain ⟨k, rfl⟩ := he
    obtain ⟨a, purpose, ha, hstage, rfl⟩ := next_arrive hn
    cases purpose with
    | acquire => exact ((hs.acquire_carried ha hstage).2.way hway).1
    | release l u => exact ((hs.release_carried ha hstage).2.way hway).1
  · rw [next_store hn (fun k hk => he ⟨k, hk⟩) ht]
    exact hway

end Race
end Leasehold
