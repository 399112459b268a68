/-
  Chronicles: what was written for whom, in order.

  A chronicle tells the writes that a store applied, and how calls ended.  Who asks whether two leases can be good at the
  same time needs nothing else but the chronicle and, for each name, when its record ends.

  1. **`Chronicle.Sound`** — what holds of a chronicle and of the ends of the records together.  A lease that was not
     released is covered by the record of its name (`covered`); a lease of the same name that comes later was taken when
     it had run out already (`ordered`), unless it was released before; and no release that was applied had a later lease
     beside it that was not released itself (`owned`);
  2. **`Sound.acquired`, `Sound.released`** — the two writes keep it.  The acquire needs a record that has run out by the
     time of the claim, the release needs one that ends at the lease's own ceiling;
  3. **`Sound.strictlyLater`** — why a release finds no other lease's record: of two leases that were not released the
     later one ends strictly later, so the record cannot end at the ceiling of the earlier one.
-/
import Leasehold.Lock.Basic
namespace Leasehold

/-! ## Marks -/

/-- **What happens to a call**: its write is applied, or it ends.  Calls have numbers; a release goes by the number of the
acquire that its lease came from. -/
inductive Mark where
  | acquired (call : Nat) (lease : Lease)
  | released (call : Nat) (lockUntil : Instant)
  | returned (call : Nat) (result : Except Error (Option Lease))
  | settled (call : Nat) (result : Except Error Unit)

/-- The number of the call that a mark is about. -/
def Mark.call : Mark → Nat
  | acquired n _ => n
  | released n _ => n
  | returned n _ => n
  | settled n _ => n

/-- Whether a mark tells of a write. -/
def Mark.IsWrite : Mark → Prop
  | acquired _ _ => True
  | released _ _ => True
  | returned _ _ => False
  | settled _ _ => False

/-- What happened, the first of it first. -/
abbrev Chronicle := List Mark

namespace Chronicle

variable {h : Chronicle} {m : Mark} {k k' i j n : Nat} {l l' : Lease} {u : Instant}

/-- A place in a chronicle that grew by one mark. -/
theorem at_concat {x : Mark} : (h ++ [m])[i]? = some x ↔ h[i]? = some x ∨ (i = h.length ∧ x = m) := by
  rcases Nat.lt_trichotomy i h.length with hi | rfl | hi
  · rw [List.getElem?_append_left hi]
    constructor
    · exact Or.inl
    · rintro (hx | ⟨rfl, -⟩)
      · exact hx
      · omega
  · simp [eq_comm]
  · rw [List.getElem?_append_right (by omega), List.getElem?_eq_none (by simp; omega),
      List.getElem?_eq_none (by omega)]
    constructor
    · intro hx; cases hx
    · rintro (hx | ⟨rfl, -⟩)
      · cases hx
      · omega

theorem lt_of_at {x : Mark} (hx : h[i]? = some x) : i < h.length := by
  rcases Nat.lt_or_ge i h.length with hlt | hge
  · exact hlt
  · rw [List.getElem?_eq_none hge] at hx
    cases hx

/-- What comes before a mark of a chronicle is in the chronicle. -/
theorem at_before {x y : Mark} (hij : i < j) (hj : h[j]? = some y) (hi : (h ++ [m])[i]? = some x) : h[i]? = some x := by
  rcases at_concat.mp hi with hi | ⟨rfl, -⟩
  · exact hi
  · have hlen := lt_of_at hj
    omega

theorem mem_of_at {x : Mark} (hx : h[i]? = some x) : x ∈ h := List.mem_of_getElem? hx

theorem at_of_mem {x : Mark} (hx : x ∈ h) : ∃ i : Nat, h[i]? = some x := List.mem_iff_getElem?.mp hx

/-! ## Calls in a chronicle -/

/-- A release of the lease was applied. -/
def Released (h : Chronicle) (k : Nat) : Prop := ∃ u, Mark.released k u ∈ h

/-- The lease was acquired, and not released since. -/
def Open (h : Chronicle) (k : Nat) (l : Lease) : Prop := Mark.acquired k l ∈ h ∧ ¬h.Released k

/-- Nothing was written for the call. -/
def Unknown (h : Chronicle) (k : Nat) : Prop := (∀ l, Mark.acquired k l ∉ h) ∧ ¬h.Released k

theorem released_concat : Released (h ++ [m]) k ↔ h.Released k ∨ ∃ u, m = .released k u := by
  simp only [Released, List.mem_append, List.mem_singleton]
  constructor
  · rintro ⟨u, hu | rfl⟩
    · exact Or.inl ⟨u, hu⟩
    · exact Or.inr ⟨u, rfl⟩
  · rintro (⟨u, hu⟩ | ⟨u, rfl⟩)
    · exact ⟨u, Or.inl hu⟩
    · exact ⟨u, Or.inr rfl⟩

/-- What is told of one call changes nothing for the others. -/
theorem released_other (hm : m.call ≠ k) : Released (h ++ [m]) k ↔ h.Released k := by
  rw [released_concat]
  constructor
  · rintro (hr | ⟨u, rfl⟩)
    · exact hr
    · exact absurd rfl hm
  · exact Or.inl

theorem acquired_other (hm : m.call ≠ k) : Mark.acquired k l ∈ h ++ [m] ↔ Mark.acquired k l ∈ h := by
  rw [List.mem_append, List.mem_singleton]
  constructor
  · rintro (ha | rfl)
    · exact ha
    · exact absurd rfl hm
  · exact Or.inl

/-- The end of a call is no write. -/
theorem released_ending (hm : ¬m.IsWrite) : Released (h ++ [m]) k ↔ h.Released k := by
  rw [released_concat]
  constructor
  · rintro (hr | ⟨u, rfl⟩)
    · exact hr
    · exact absurd trivial hm
  · exact Or.inl

theorem acquired_ending (hm : ¬m.IsWrite) : Mark.acquired k l ∈ h ++ [m] ↔ Mark.acquired k l ∈ h := by
  rw [List.mem_append, List.mem_singleton]
  constructor
  · rintro (ha | rfl)
    · exact ha
    · exact absurd trivial hm
  · exact Or.inl

/-! ## Sound chronicles -/

/-- **What holds of a chronicle together with the ends of the records.** -/
structure Sound (h : Chronicle) (ends : String → Option Instant) : Prop where
  /-- No call acquires twice. -/
  once : ∀ {i j k : Nat} {l l' : Lease}, h[i]? = some (.acquired k l) → h[j]? = some (.acquired k l') → i = j
  /-- A lease that a call returned was acquired. -/
  returned : ∀ {k : Nat} {l : Lease}, Mark.returned k (.ok (some l)) ∈ h → Mark.acquired k l ∈ h
  /-- A lease starts before it ends. -/
  lasting : ∀ {k : Nat} {l : Lease}, Mark.acquired k l ∈ h → l.takenAt.micros < l.atMost.micros
  /-- The record does not end before a lease that was not released. -/
  covered : ∀ {k : Nat} {l : Lease}, h.Open k l → ∃ e, ends l.name = some e ∧ l.atMost.micros ≤ e.micros
  /-- A later lease was taken when an earlier one had run out, or been released. -/
  ordered : ∀ {i j k k' : Nat} {l l' : Lease}, i < j → h[i]? = some (.acquired k l) →
    h[j]? = some (.acquired k' l') → l.name = l'.name → (∀ n u, n < j → h[n]? ≠ some (.released k u)) →
    l.atMost.micros ≤ l'.takenAt.micros
  /-- A release that was applied had no later lease beside it. -/
  owned : ∀ {i j n k k' : Nat} {l l' : Lease} {u : Instant}, i < j → j < n → h[i]? = some (.acquired k l) →
    h[j]? = some (.acquired k' l') → h[n]? = some (.released k u) → l.name = l'.name →
    ∃ n' u', n' < n ∧ h[n']? = some (.released k' u')

namespace Sound

variable {ends ends' : String → Option Instant}

/-- Nothing happened yet. -/
theorem nil : Sound [] ends where
  once := by intro _ _ _ _ _ h; simp at h
  returned := by intro _ _ h; cases h
  lasting := by intro _ _ h; cases h
  covered := by rintro _ _ ⟨h, -⟩; cases h
  ordered := by intro _ _ _ _ _ _ _ h; simp at h
  owned := by intro _ _ _ _ _ _ _ _ _ _ h; simp at h

/-- A call has one lease. -/
theorem lease_unique (hs : Sound h ends) (h1 : Mark.acquired k l ∈ h) (h2 : Mark.acquired k l' ∈ h) : l = l' := by
  obtain ⟨i, hi⟩ := at_of_mem h1
  obtain ⟨j, hj⟩ := at_of_mem h2
  obtain rfl := hs.once hi hj
  rw [hi] at hj
  cases hj
  rfl

/-- **Of two leases that were not released the later one ends strictly later.** -/
theorem strictlyLater (hs : Sound h ends) (hij : i < j) (hi : h[i]? = some (.acquired k l))
    (hj : h[j]? = some (.acquired k' l')) (hname : l.name = l'.name) (hopen : ¬h.Released k) :
    l.atMost.micros < l'.atMost.micros := by
  have hle := hs.ordered hij hi hj hname (fun n u _ hn => hopen ⟨u, mem_of_at hn⟩)
  have hlt := hs.lasting (mem_of_at hj)
  omega

/-- So the record of a name ends at the ceiling of no lease that has a later one beside it. -/
theorem end_ne (hs : Sound h ends) (hij : i < j) (hi : h[i]? = some (.acquired k l))
    (hj : h[j]? = some (.acquired k' l')) (hname : l.name = l'.name) (hopen : ¬h.Released k)
    (hopen' : ¬h.Released k') : ends l.name ≠ some l.atMost := by
  intro he
  have hlt := hs.strictlyLater hij hi hj hname hopen
  obtain ⟨e, he', hle⟩ := hs.covered ⟨mem_of_at hj, hopen'⟩
  rw [← hname, he] at he'
  cases he'
  omega

/-! ### One mark more -/

/-- Returned leases are still acquired, unless the new mark returns another one. -/
theorem returned_concat (hs : Sound h ends) (hret : ∀ k l, m = .returned k (.ok (some l)) → Mark.acquired k l ∈ h)
    (hr : Mark.returned k (.ok (some l)) ∈ h ++ [m]) : Mark.acquired k l ∈ h ++ [m] := by
  rcases List.mem_append.mp hr with hr | hr
  · exact List.mem_append_left _ (hs.returned hr)
  · exact List.mem_append_left _ (hret k l (List.mem_singleton.mp hr).symm)

/-- Leases that were taken before are in order, -/
theorem ordered_concat (hs : Sound h ends) (hij : i < j) (hi : (h ++ [m])[i]? = some (.acquired k l))
    (hj : h[j]? = some (.acquired k' l')) (hname : l.name = l'.name)
    (hno : ∀ n u, n < j → (h ++ [m])[n]? ≠ some (.released k u)) : l.atMost.micros ≤ l'.takenAt.micros :=
  hs.ordered hij (at_before hij hj hi) hj hname fun n u hn hr => hno n u hn (at_concat.mpr (Or.inl hr))

/-- and no release that was applied before had a later lease beside it. -/
theorem owned_concat (hs : Sound h ends) (hij : i < j) (hjn : j < n) (hi : (h ++ [m])[i]? = some (.acquired k l))
    (hj : (h ++ [m])[j]? = some (.acquired k' l')) (hn : h[n]? = some (.released k u)) (hname : l.name = l'.name) :
    ∃ n' u', n' < n ∧ (h ++ [m])[n']? = some (.released k' u') := by
  have hj := at_before hjn hn hj
  obtain ⟨n', u', hlt, hn'⟩ := hs.owned hij hjn (at_before hij hj hi) hj hn hname
  exact ⟨n', u', hlt, at_concat.mpr (Or.inl hn')⟩

/-- The end of a call changes nothing. -/
theorem ending (hs : Sound h ends) (hm : ¬m.IsWrite)
    (hret : ∀ k l, m = .returned k (.ok (some l)) → Mark.acquired k l ∈ h) : Sound (h ++ [m]) ends where
  returned := hs.returned_concat hret
  once := by
    intro i j k l l' hi hj
    rcases at_concat.mp hi with hi | ⟨-, rfl⟩
    · rcases at_concat.mp hj with hj | ⟨-, rfl⟩
      · exact hs.once hi hj
      · exact absurd trivial hm
    · exact absurd trivial hm
  lasting ha := hs.lasting ((acquired_ending hm).mp ha)
  covered ho := hs.covered ⟨(acquired_ending hm).mp ho.1, fun hr => ho.2 ((released_ending hm).mpr hr)⟩
  ordered := by
    intro i j k k' l l' hij hi hj hname hno
    rcases at_concat.mp hj with hj | ⟨-, rfl⟩
    · exact hs.ordered_concat hij hi hj hname hno
    · exact absurd trivial hm
  owned := by
    intro i j n k k' l l' u hij hjn hi hj hn hname
    rcases at_concat.mp hn with hn | ⟨-, rfl⟩
    · exact hs.owned_concat hij hjn hi hj hn hname
    · exact absurd trivial hm

/-- **An acquire keeps a chronicle sound**, if the record of the name has run out by the time of the claim. -/
theorem acquired (hs : Sound h ends) (hnew : h.Unknown k) (hlast : l.takenAt.micros < l.atMost.micros)
    (hfree : ∀ e, ends l.name = some e → e.micros ≤ l.takenAt.micros) (hself : ends' l.name = some l.atMost)
    (hother : ∀ name, name ≠ l.name → ends' name = ends name) : Sound (h ++ [Mark.acquired k l]) ends' where
  once := by
    intro i j k₁ l₁ l₂ hi hj
    rcases at_concat.mp hi with hi | ⟨rfl, hx⟩
    · rcases at_concat.mp hj with hj | ⟨rfl, hx⟩
      · exact hs.once hi hj
      · cases hx
        exact absurd (mem_of_at hi) (hnew.1 _)
    · rcases at_concat.mp hj with hj | ⟨rfl, -⟩
      · cases hx
        exact absurd (mem_of_at hj) (hnew.1 _)
      · rfl
  returned := hs.returned_concat nofun
  lasting := by
    intro k₁ l₁ ha
    rcases List.mem_append.mp ha with ha | ha
    · exact hs.lasting ha
    · cases List.mem_singleton.mp ha
      exact hlast
  covered := by
    rintro k₁ l₁ ⟨ha, hr⟩
    rcases List.mem_append.mp ha with ha | ha
    · obtain ⟨e, he, hle⟩ := hs.covered ⟨ha, fun hr' => hr (released_concat.mpr (Or.inl hr'))⟩
      by_cases hname : l₁.name = l.name
      · -- the older lease has run out when the new one is taken
        rw [hname] at he ⊢
        have hend := hfree e he
        exact ⟨l.atMost, hself, by omega⟩
      · exact ⟨e, by rw [hother _ hname, he], hle⟩
    · cases List.mem_singleton.mp ha
      exact ⟨l.atMost, hself, Nat.le_refl _⟩
  ordered := by
    intro i j k₁ k₂ l₁ l₂ hij hi hj hname hno
    rcases at_concat.mp hj with hj | ⟨rfl, hx⟩
    · exact hs.ordered_concat hij hi hj hname hno
    · cases hx
      rcases at_concat.mp hi with hi | ⟨rfl, -⟩
      · have hopen : ¬h.Released k₁ := by
          rintro ⟨u, hu⟩
          obtain ⟨n, hn⟩ := at_of_mem hu
          exact hno n u (lt_of_at hn) (at_concat.mpr (Or.inl hn))
        obtain ⟨e, he, hle⟩ := hs.covered ⟨mem_of_at hi, hopen⟩
        rw [hname] at he
        have hend := hfree e he
        omega
      · omega
  owned := by
    intro i j n k₁ k₂ l₁ l₂ u hij hjn hi hj hn hname
    rcases at_concat.mp hn with hn | ⟨-, hx⟩
    · exact hs.owned_concat hij hjn hi hj hn hname
    · cases hx

/-- **A release keeps a chronicle sound**, if the record ends at the ceiling of the lease, and does not end before the
lease was taken afterwards. -/
theorem released (hs : Sound h ends) (hopen : h.Open k l) (hend : ends l.name = some l.atMost)
    (hu : l.takenAt.micros ≤ u.micros) (hself : ends' l.name = some u)
    (hother : ∀ name, name ≠ l.name → ends' name = ends name) : Sound (h ++ [Mark.released k u]) ends' where
  once := by
    intro i j k₁ l₁ l₂ hi hj
    rcases at_concat.mp hi with hi | ⟨-, hx⟩
    · rcases at_concat.mp hj with hj | ⟨-, hx⟩
      · exact hs.once hi hj
      · cases hx
    · cases hx
  returned := hs.returned_concat nofun
  lasting := by
    intro k₁ l₁ ha
    rcases List.mem_append.mp ha with ha | ha
    · exact hs.lasting ha
    · cases List.mem_singleton.mp ha
  covered := by
    rintro k₁ l₁ ⟨ha, hr⟩
    rcases List.mem_append.mp ha with ha | ha
    · have hopen₁ : ¬h.Released k₁ := fun hr' => hr (released_concat.mpr (Or.inl hr'))
      obtain ⟨e, he, hle⟩ := hs.covered ⟨ha, hopen₁⟩
      by_cases hname : l₁.name = l.name
      · obtain ⟨i, hi⟩ := at_of_mem ha
        obtain ⟨j, hj⟩ := at_of_mem hopen.1
        rcases Nat.lt_trichotomy i j with hij | rfl | hij
        · -- an older lease had run out when the released one was taken
          have hold := hs.ordered hij hi hj hname (fun n v _ hn => hopen₁ ⟨v, mem_of_at hn⟩)
          exact ⟨u, by rw [hname, hself], by omega⟩
        · rw [hi] at hj
          cases hj
          exact absurd (released_concat.mpr (Or.inr ⟨u, rfl⟩)) hr
        · exact absurd hend (hs.end_ne hij hj hi hname.symm hopen.2 hopen₁)
      · exact ⟨e, by rw [hother _ hname, he], hle⟩
    · cases List.mem_singleton.mp ha
  ordered := by
    intro i j k₁ k₂ l₁ l₂ hij hi hj hname hno
    rcases at_concat.mp hj with hj | ⟨-, hx⟩
    · exact hs.ordered_concat hij hi hj hname hno
    · cases hx
  owned := by
    intro i j n k₁ k₂ l₁ l₂ v hij hjn hi hj hn hname
    rcases at_concat.mp hn with hn | ⟨rfl, hx⟩
    · exact hs.owned_concat hij hjn hi hj hn hname
    · -- the new mark is the release: both leases were acquired before
      cases hx
      rcases at_concat.mp hj with hj | ⟨-, hx⟩
      · have hi := at_before hij hj hi
        obtain rfl := hs.lease_unique hopen.1 (mem_of_at hi)
        by_cases hopen₂ : h.Released k₂
        · obtain ⟨u', hu'⟩ := hopen₂
          obtain ⟨n', hn'⟩ := at_of_mem hu'
          exact ⟨n', u', lt_of_at hn', at_concat.mpr (Or.inl hn')⟩
        · exact absurd hend (hs.end_ne hij hi hj hname hopen.2 hopen₂)
      · cases hx

end Sound
end Chronicle
end Leasehold
