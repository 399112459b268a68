/-
  Fibers: work on a shared state that is done in turns.

  A fiber works on the state until it has to WAIT; then others go on, and what they do to the state is there when the
  fiber comes to its next turn.  A fiber that waits may be cut short, and sees that it was.

  Besides, a fiber can hand work over: to be done side by side, until all of it is done, or to be watched, and cut
  short once nothing else goes on.  What it hands over are orders `ω`, and what comes of each is a `β`; so fibers do not
  contain one another.

  Fibers are a monad, and a lawful one: what follows a fiber follows it wherever it ends.
-/
namespace Leasehold

/-- What a fiber waits for. -/
inductive Wait where
  | turn
  | program
  | time (micros : Nat)
  | ever
  deriving DecidableEq, Repr

/-- How a wait ends: what was waited for is there, or somebody cut the wait short. -/
inductive Wake where
  | due
  | cut
  deriving DecidableEq, Repr

/-- **A fiber** on states `σ`, which may hand over orders `ω` with results `β`, and ends with an `α`. -/
inductive Fiber (σ ω β α : Type) where
  | done (a : α)
  | look (rest : σ → Fiber σ ω β α)
  | put (s : σ) (rest : Fiber σ ω β α)
  | wait (w : Wait) (rest : Wake → Fiber σ ω β α)
  | beside (orders : List ω) (rest : Option (List β) → Fiber σ ω β α)
  | watch (order : ω) (rest : Option β → Fiber σ ω β α)

namespace Fiber

variable {σ ω β α γ : Type}

/-- A fiber, and what follows it. -/
def bind (x : Fiber σ ω β α) (next : α → Fiber σ ω β γ) : Fiber σ ω β γ :=
  match x with
  | done a => next a
  | look rest => look fun s => bind (rest s) next
  | put s rest => put s (bind rest next)
  | wait w rest => wait w fun wake => bind (rest wake) next
  | beside orders rest => beside orders fun r => bind (rest r) next
  | watch order rest => watch order fun r => bind (rest r) next

instance : Monad (Fiber σ ω β) where
  pure := done
  bind := bind

theorem bind_done (x : Fiber σ ω β α) : bind x done = x := by
  induction x with
  | done a => rfl
  | look rest ih => exact congrArg look (funext ih)
  | put s rest ih => exact congrArg (put s) ih
  | wait w rest ih => exact congrArg (wait w) (funext ih)
  | beside orders rest ih => exact congrArg (beside orders) (funext ih)
  | watch order rest ih => exact congrArg (watch order) (funext ih)

theorem bind_bind {δ : Type} (x : Fiber σ ω β α) (next : α → Fiber σ ω β γ) (after : γ → Fiber σ ω β δ) :
    bind (bind x next) after = bind x fun a => bind (next a) after := by
  induction x with
  | done a => rfl
  | look rest ih => exact congrArg look (funext ih)
  | put s rest ih => exact congrArg (put s) ih
  | wait w rest ih => exact congrArg (wait w) (funext ih)
  | beside orders rest ih => exact congrArg (beside orders) (funext ih)
  | watch order rest ih => exact congrArg (watch order) (funext ih)

instance : LawfulMonad (Fiber σ ω β) :=
  LawfulMonad.mk' (Fiber σ ω β) (fun x => bind_done x) (fun _ _ => rfl) (fun x f g => bind_bind x f g)

/-! ## Small fibers -/

/-- Does something to the state at once. -/
def act (work : σ → σ × α) : Fiber σ ω β α :=
  look fun s => let (s, a) := work s; put s (done a)

/-- Looks at the state. -/
def see (view : σ → α) : Fiber σ ω β α := look fun s => done (view s)

/-- Waits, and tells how the wait ended. -/
def pause (w : Wait) : Fiber σ ω β Wake := wait w done

/-- Lets so many turns pass. -/
def turns : Nat → Fiber σ ω β Unit
  | 0 => done ()
  | n + 1 => wait .turn fun _ => turns n

end Fiber
end Leasehold
