/-
  Pools: things that are kept by number and found by name.

  A name may pass from one thing to another, and things that have lost their name, or never had one, are still there
  for whoever knows their number.
-/
namespace Leasehold

/-- A pool. -/
structure Pool (α : Type) where
  items : List α
  names : List (String × Nat)
  deriving Repr

namespace Pool

variable {α : Type}

def empty : Pool α := ⟨[], []⟩

instance : Inhabited (Pool α) := ⟨empty⟩

/-- Puts a thing into the pool: its number comes back. -/
def add (a : α) (p : Pool α) : Pool α × Nat := ({ p with items := p.items ++ [a] }, p.items.length)

/-- Gives a name to a number, in the place the name has already. -/
def rename (name : String) (n : Nat) : List (String × Nat) → List (String × Nat)
  | [] => [(name, n)]
  | (k, m) :: rest => if k = name then (name, n) :: rest else (k, m) :: rename name n rest

/-- Puts a thing into the pool under a name. -/
def addNamed (name : String) (a : α) (p : Pool α) : Pool α :=
  let (p, n) := p.add a
  { p with names := rename name n p.names }

/-- The number that a name stands for. -/
def find? (name : String) (p : Pool α) : Option Nat := (p.names.find? (·.1 = name)).map (·.2)

/-- The thing of a number. -/
def get? (n : Nat) (p : Pool α) : Option α := p.items[n]?

/-- Puts another thing in the place of a number. -/
def set (n : Nat) (a : α) (p : Pool α) : Pool α := { p with items := p.items.set n a }

/-- The things that have names. -/
def named (p : Pool α) : List (String × α) := p.names.filterMap fun (name, n) => (p.get? n).map (name, ·)

/-- The thing of a name. -/
def named? (name : String) (p : Pool α) : Option α := (p.find? name).bind p.get?

theorem get_add (a : α) (p : Pool α) : (p.add a).1.get? (p.add a).2 = some a := by
  simp [add, get?]

theorem get_set {n : Nat} (a : α) (p : Pool α) (h : n < p.items.length) : (p.set n a).get? n = some a := by
  simp [set, get?, h]

end Pool
end Leasehold
