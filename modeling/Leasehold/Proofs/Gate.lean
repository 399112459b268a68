/-
  The lock of the store in memory, and those who wait for it.

  A write of the store in memory is made under a lock of the store's own, a GATE.  Whoever finds it shut, or others waiting,
  stands in a row and holds a PROMISE.  Leaving opens the gate and keeps the promise of the first in the row, no more: the
  one who was woken still has to come and take its turn.  A task that is told to end while it waits has its promise
  cancelled, stays in the row until its turn, and then retreats; if the gate is open by then, it wakes the next.

  Two things could go wrong in a row like this: somebody could be let in who was told to end, or everybody could wait
  for a promise that nobody is left to keep.  **`Orderly`** says that neither happens, and every change keeps it.

  1. **`InRow`** — the row is the row of those who wait, and a promise suits whether its holder was told to end;
  2. **`Orderly.stirred`** — while the gate is open, the first in the row does not wait for anybody else;
  3. **`Orderly.head`** — so the first in the row can always take a turn, and the row gets shorter by it
     (`drop_head`).
-/
import Mathlib.Data.List.Nodup
import Mathlib.Logic.Function.Basic
namespace Leasehold

/-- What somebody holds who waits at a gate. -/
inductive Promise where
  | pending
  | woken
  | cancelled
  deriving DecidableEq, Repr

namespace Promise

/-- A promise whose holder is told to end: one that was kept already stays so. -/
def cancel : Promise → Promise
  | pending => cancelled
  | p => p

/-- A promise suits whether its holder was told to end. -/
def Suits (told : Bool) : Promise → Prop
  | pending => told = false
  | woken => True
  | cancelled => told = true

end Promise

/-- **A gate**, with the row of those who wait at it. -/
structure Gate where
  isShut : Bool
  waiters : List (Nat × Promise)
  deriving DecidableEq, Repr

namespace Gate

/-! ## What can be done at a gate -/

/-- A gate that stands open, and nobody waits. -/
def clear : Gate := ⟨false, []⟩

/-- Whether somebody who comes now may go through: nobody is inside, and nobody waits who was not told to end. -/
def isOpen (g : Gate) : Bool := !g.isShut && g.waiters.all (·.2 == .cancelled)

/-- Goes through, and shuts the gate. -/
def shut (g : Gate) : Gate := { g with isShut := true }

/-- Keeps the promise of the first in a row. -/
def wakeFirst : List (Nat × Promise) → List (Nat × Promise)
  | (k, .pending) :: rest => (k, .woken) :: rest
  | ws => ws

def wake (g : Gate) : Gate := { g with waiters := wakeFirst g.waiters }

/-- **Leaves**: the gate opens, and the first in the row is woken. -/
def leave (g : Gate) : Gate := { g with isShut := false }.wake

/-- Joins the row. -/
def join (k : Nat) (g : Gate) : Gate := { g with waiters := g.waiters ++ [(k, .pending)] }

/-- Leaves the row. -/
def drop (k : Nat) (g : Gate) : Gate := { g with waiters := g.waiters.filter (·.1 != k) }

/-- **Leaves the row without going through**: if the gate is open, it is the next one's turn. -/
def retreat (k : Nat) (g : Gate) : Gate := if g.isShut then g.drop k else (g.drop k).wake

/-- Tells somebody to end. -/
def tell (k : Nat) (g : Gate) : Gate :=
  { g with waiters := g.waiters.map fun p => if p.1 = k then (p.1, p.2.cancel) else p }

/-- Whether somebody's promise was kept. -/
def isWoken (k : Nat) (g : Gate) : Bool := g.waiters.contains (k, .woken)

/-! ## The row -/

/-- **A row of those who wait.**  `queued` tells who waits, and whether they were told to end. -/
structure InRow (ws : List (Nat × Promise)) (queued : Nat → Option Bool) : Prop where
  nodup : (ws.map Prod.fst).Nodup
  listed : ∀ k told, queued k = some told → k ∈ ws.map Prod.fst
  fits : ∀ k p, (k, p) ∈ ws → ∃ told, queued k = some told ∧ p.Suits told

theorem map_wakeFirst (ws : List (Nat × Promise)) : (wakeFirst ws).map Prod.fst = ws.map Prod.fst := by
  unfold wakeFirst
  split <;> rfl

/-- Whoever stands in a row after the first was woken stood there before, and was woken or is as before. -/
theorem mem_wakeFirst {ws : List (Nat × Promise)} {k : Nat} {p : Promise} (h : (k, p) ∈ wakeFirst ws) :
    (k, p) ∈ ws ∨ p = .woken ∧ (k, .pending) ∈ ws := by
  unfold wakeFirst at h
  split at h
  · rename_i j rest
    rcases List.mem_cons.mp h with h | h
    · cases h
      exact Or.inr ⟨rfl, List.mem_cons_self⟩
    · exact Or.inl (List.mem_cons_of_mem _ h)
  · exact Or.inl h

/-- The first in the row does not wait once it was woken. -/
theorem wakeFirst_head {ws rest : List (Nat × Promise)} {k : Nat} {p : Promise} (h : wakeFirst ws = (k, p) :: rest) :
    p ≠ .pending := by
  unfold wakeFirst at h
  split at h
  · cases h
    nofun
  · rename_i hnot
    rintro rfl
    exact hnot k rest h

/-- Nobody is woken in a row where everybody was told to end. -/
theorem wakeFirst_cancelled {ws : List (Nat × Promise)} (h : ws.all (·.2 == .cancelled) = true) : wakeFirst ws = ws := by
  unfold wakeFirst
  split
  · simp at h
  · rfl

namespace InRow

variable {ws : List (Nat × Promise)} {queued : Nat → Option Bool} {k : Nat}

theorem stir (h : InRow ws queued) : InRow (wakeFirst ws) queued where
  nodup := by
    rw [map_wakeFirst]
    exact h.nodup
  listed := by
    rw [map_wakeFirst]
    exact h.listed
  fits j p hj := by
    rcases mem_wakeFirst hj with hmem | ⟨rfl, hmem⟩
    · exact h.fits j p hmem
    · obtain ⟨told, hq, -⟩ := h.fits j .pending hmem
      exact ⟨told, hq, trivial⟩

theorem drop (h : InRow ws queued) (k : Nat) : InRow (ws.filter (·.1 != k)) (Function.update queued k none) where
  nodup := h.nodup.sublist (List.filter_sublist.map Prod.fst)
  listed j told hj := by
    by_cases hjk : j = k
    · rw [hjk, Function.update_self] at hj
      cases hj
    · rw [Function.update_of_ne hjk] at hj
      obtain ⟨p, hp, rfl⟩ := List.mem_map.mp (h.listed j told hj)
      exact List.mem_map.mpr ⟨p, List.mem_filter.mpr ⟨hp, bne_iff_ne.mpr hjk⟩, rfl⟩
  fits j p hj := by
    obtain ⟨hmem, hne⟩ := List.mem_filter.mp hj
    rw [Function.update_of_ne (bne_iff_ne.mp hne)]
    exact h.fits j p hmem

theorem join (h : InRow ws queued) (hk : queued k = none) :
    InRow (ws ++ [(k, .pending)]) (Function.update queued k (some false)) where
  nodup := by
    rw [List.map_append]
    refine List.nodup_append'.mpr ⟨h.nodup, List.nodup_singleton _, ?_⟩
    rw [List.map_singleton, List.disjoint_singleton]
    intro hmem
    obtain ⟨⟨j, p⟩, hp, rfl⟩ := List.mem_map.mp hmem
    obtain ⟨told, hq, -⟩ := h.fits j p hp
    rw [hk] at hq
    cases hq
  listed j told hj := by
    rw [List.map_append]
    by_cases hjk : j = k
    · rw [hjk]
      exact List.mem_append_right _ List.mem_cons_self
    · rw [Function.update_of_ne hjk] at hj
      exact List.mem_append_left _ (h.listed j told hj)
  fits j p hj := by
    rcases List.mem_append.mp hj with hj | hj
    · obtain ⟨told, hq, hp⟩ := h.fits j p hj
      have hjk : j ≠ k := by
        rintro rfl
        rw [hk] at hq
        cases hq
      exact ⟨told, by rw [Function.update_of_ne hjk, hq], hp⟩
    · cases List.mem_singleton.mp hj
      exact ⟨false, Function.update_self .., rfl⟩

theorem tell (h : InRow ws queued) (k : Nat) :
    InRow (ws.map fun p => if p.1 = k then (p.1, p.2.cancel) else p)
      (Function.update queued k ((queued k).map fun _ => true)) := by
  have hfst : (ws.map fun p => if p.1 = k then (p.1, p.2.cancel) else p).map Prod.fst = ws.map Prod.fst := by
    rw [List.map_map]
    refine List.map_congr_left fun p _ => ?_
    show (if p.1 = k then (p.1, p.2.cancel) else p).1 = p.1
    split <;> rfl
  refine ⟨by rw [hfst]; exact h.nodup, fun j told hj => ?_, fun j p hj => ?_⟩
  · rw [hfst]
    by_cases hjk : j = k
    · rw [hjk, Function.update_self] at hj
      obtain ⟨told', hq, -⟩ := Option.map_eq_some_iff.mp hj
      rw [hjk]
      exact h.listed k told' hq
    · rw [Function.update_of_ne hjk] at hj
      exact h.listed j told hj
  · obtain ⟨⟨i, q⟩, hmem, hq⟩ := List.mem_map.mp hj
    obtain ⟨told, hqueued, hsuits⟩ := h.fits i q hmem
    by_cases hik : i = k
    · rw [if_pos hik] at hq
      cases hq
      -- a promise that was pending is cancelled, any other suits whoever was told to end
      refine ⟨true, by rw [← hik, Function.update_self, hqueued]; rfl, ?_⟩
      cases q <;> trivial
    · rw [if_neg hik] at hq
      cases hq
      exact ⟨told, by rw [Function.update_of_ne hik, hqueued], hsuits⟩

end InRow

/-! ## Order at the gate -/

/-- **Order at a gate**: its row is the row of those who wait, and while the gate is open, the first does not wait for
anybody else. -/
structure Orderly (g : Gate) (queued : Nat → Option Bool) : Prop where
  row : InRow g.waiters queued
  stirred : g.isShut = false → ∀ k p rest, g.waiters = (k, p) :: rest → p ≠ .pending

namespace Orderly

variable {g : Gate} {queued : Nat → Option Bool} {k : Nat}

theorem clear {queued : Nat → Option Bool} (h : ∀ k, queued k = none) : clear.Orderly queued where
  row :=
    { nodup := List.nodup_nil
      listed := fun k told hk => by rw [h k] at hk; cases hk
      fits := nofun }
  stirred _ _ _ _ hw := nomatch hw

/-- A change that moves nobody in or out of the row. -/
theorem same (h : g.Orderly queued) {x : Option Bool} (hx : queued k = x) :
    g.Orderly (Function.update queued k x) := by
  rw [← hx, Function.update_eq_self]
  exact h

theorem wake (h : InRow g.waiters queued) : g.wake.Orderly queued where
  row := h.stir
  stirred _ _ _ _ hw := wakeFirst_head hw

theorem leave (h : InRow g.waiters queued) : g.leave.Orderly queued := wake h

theorem shut (h : g.Orderly queued) : g.shut.Orderly queued where
  row := h.row
  stirred hs := nomatch hs

theorem retreat (h : g.Orderly queued) (k : Nat) : (g.retreat k).Orderly (Function.update queued k none) := by
  unfold Gate.retreat
  split
  · rename_i hshut
    exact ⟨h.row.drop k, fun hopen => by rw [show g.isShut = false from hopen] at hshut; cases hshut⟩
  · exact wake (h.row.drop k)

/-- Whoever may not go through joins the row.  If nobody is inside, somebody waits who was not told to end, so the first
of the row was there before. -/
theorem join (h : g.Orderly queued) (hk : queued k = none) (hclosed : g.isOpen = false) :
    (g.join k).Orderly (Function.update queued k (some false)) where
  row := h.row.join hk
  stirred hopen j p rest hw := by
    have hopen : g.isShut = false := hopen
    have hw : g.waiters ++ [(k, .pending)] = (j, p) :: rest := hw
    cases hws : g.waiters with
    | nil =>
      unfold isOpen at hclosed
      rw [hopen, hws] at hclosed
      cases hclosed
    | cons q qs =>
      rw [hws, List.cons_append, List.cons.injEq] at hw
      exact h.stirred hopen j p qs (by rw [hws, hw.1])

theorem tell (h : g.Orderly queued) (k : Nat) :
    (g.tell k).Orderly (Function.update queued k ((queued k).map fun _ => true)) where
  row := h.row.tell k
  stirred hopen j p rest hw := by
    have hw : (g.waiters.map fun p => if p.1 = k then (p.1, p.2.cancel) else p) = (j, p) :: rest := hw
    cases hws : g.waiters with
    | nil =>
      rw [hws] at hw
      cases hw
    | cons q qs =>
      have hq := h.stirred hopen q.1 q.2 qs hws
      rw [hws, List.map_cons, List.cons.injEq] at hw
      obtain ⟨hfirst, -⟩ := hw
      split at hfirst
      · obtain ⟨-, rfl⟩ := Prod.ext_iff.mp hfirst
        show q.2.cancel ≠ .pending
        cases q.2 <;> nofun
      · rw [hfirst] at hq
        exact hq

/-- **The first in the row can go on** while the gate is open: it was told to end, or its promise was kept. -/
theorem head (h : g.Orderly queued) (hopen : g.isShut = false) {p : Promise} {rest : List (Nat × Promise)}
    (hw : g.waiters = (k, p) :: rest) :
    queued k = some true ∨ queued k = some false ∧ g.isWoken k = true := by
  have hnot := h.stirred hopen k p rest hw
  obtain ⟨told, hq, hsuits⟩ := h.row.fits k p (by rw [hw]; exact List.mem_cons_self)
  cases told with
  | true => exact Or.inl hq
  | false =>
    refine Or.inr ⟨hq, ?_⟩
    cases p with
    | pending => exact absurd rfl hnot
    | woken =>
      unfold isWoken
      rw [hw]
      simp
    | cancelled => cases hsuits

/-- ... and then the rest of the row is left. -/
theorem drop_head (h : g.Orderly queued) {p : Promise} {rest : List (Nat × Promise)} (hw : g.waiters = (k, p) :: rest) :
    (g.drop k).waiters = rest := by
  have hnodup := h.row.nodup
  rw [hw, List.map_cons, List.nodup_cons] at hnodup
  show g.waiters.filter (·.1 != k) = rest
  rw [hw, List.filter_cons_of_neg (by simp), List.filter_eq_self]
  intro q hq
  refine bne_iff_ne.mpr fun hqk => hnodup.1 ?_
  rw [← hqk]
  exact List.mem_map.mpr ⟨q, hq, rfl⟩

end Orderly

/-- Going through an open gate and leaving again changes nothing at it. -/
theorem leave_shut {g : Gate} (h : g.isOpen = true) : g.shut.leave = g := by
  unfold isOpen at h
  obtain ⟨hshut, hall⟩ := (Bool.and_eq_true _ _).mp h
  have hshut : g.isShut = false := by simpa using hshut
  show (⟨false, wakeFirst g.waiters⟩ : Gate) = g
  rw [wakeFirst_cancelled hall, ← hshut]

end Gate
end Leasehold
