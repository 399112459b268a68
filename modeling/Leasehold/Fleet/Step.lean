/-
  Steps: acts, and what can be made of them.

  1. **`execute`** runs steps as the task of a lock: they run only if the lock is obtained, and the lease is given back
     when they end, however they end;
  2. **`cancel`** starts a step, lets everything go on that can, and then cuts the step short if it has not ended;
  3. **`gather`** lets steps run side by side, turn by turn.  Cut short, they are cut short all at once.

  A step is told about in a `Report`: its answer, the calls that the store's party saw meanwhile, the new entries of
  the journal, and the state of the fleet after it.  Steps inside a task have reports of their own, in which the work
  of others shows that was done meanwhile.
-/
import Leasehold.Fleet.Act
namespace Leasehold

/-! ## Steps and reports -/

/-- How a task ends: with a value, with a failure, or not before somebody cuts it short. -/
inductive TaskEnd where
  | returns (v : Value)
  | raises (e : Error)
  | waits
  deriving Repr

/-- **A step.** -/
inductive Step where
  | act (a : Act)
  | execute (lock : String) (terms : List GivenDuration) (task : List Step) (ending : TaskEnd)
  | cancel (step : Step)
  | gather (steps : List Step) (counting : Bool)

instance : Inhabited Step := ⟨.act default⟩

mutual

/-- What a step answers. -/
inductive Answer where
  | simple (a : ActAnswer)
  | executed (task : List Report) (result : Except Error (Option Value))
  | gathered (answers : List (Except Error Answer))

/-- What is told about a step. -/
inductive Report where
  | mk (outcome : Except Error Answer) (calls : List Value) (entries : Journal) (state : List (String × Value))

end

/-- An answer that is there and is no null. -/
def Answer.isPresent : Except Error Answer → Bool
  | .ok (.simple (.value .null)) => false
  | .ok _ => true
  | .error _ => false

namespace Fleet

/-- Work of a fleet: what is handed over are steps, and they come to answers. -/
abbrev Work (α : Type) := Fiber Fleet Step (Except Error Answer) α

/-- What there is to tell about a step, from the fleets before and after it. -/
def reportBetween (before after : Fleet) (outcome : Except Error Answer) : Report :=
  .mk outcome (after.world.store.calls.drop before.world.store.calls.length)
    (after.world.ledger.journal.drop before.world.ledger.journal.length) after.fields

/-- Does something and tells about it. -/
def reporting (work : Work (Except Error Answer)) : Work Report := do
  let before ← Fiber.see id
  let outcome ← work
  let after ← Fiber.see id
  return reportBetween before after outcome

/-! ## Tasks -/

/-- Ends a task. -/
def conclude : TaskEnd → Work (Except Error Value)
  | .returns v => return .ok v
  | .raises e => return .error e
  | .waits => do
    let _ ← Fiber.pause .ever
    return .error .cancelled

/-- Runs steps as the task of a lock. -/
def execute (lock : String) (terms : List GivenDuration) (steps : Work (List Report)) (ending : TaskEnd) :
    Work (Except Error Answer) := do
  match ← Fiber.see fun f => (f.members.find? lock, f.members.named? lock) with
  | (some owner, some member) =>
    match Terms.ofArguments terms with
    | .error e => return .error e
    | .ok terms =>
      let task : StateT (List Report) (Fiber Fleet Step (Except Error Answer)) (Except Error Value) := do
        set (← StateT.lift steps)
        StateT.lift (conclude ending)
      let (result, told) ← ((guarded owner member terms task).run terms.name).run []
      return .ok (.executed told result)
  | _ => return .ok (.simple (.value (.text "no lock")))

/-- The answer of steps side by side: their answers, or how many of these are there. -/
def gatheredAnswer (counting : Bool) (answers : List (Except Error Answer)) : Answer :=
  if counting then .simple (.value (.int (answers.filter Answer.isPresent).length)) else .gathered answers

/-! ## All steps -/

mutual

/-- **A step as a fiber.** -/
def fiberOf (s : Step) : Work (Except Error Answer) :=
  match s with
  | .act a => do return (← fiberOfAct a).map .simple
  | .execute lock terms task ending => execute lock terms (fiberOfAll task) ending
  | .cancel step => .watch step fun r => .done (r.getD (.error .cancelled))
  | .gather steps counting => .beside steps fun
    | some answers => .done (.ok (gatheredAnswer counting answers))
    | none => .done (.error .cancelled)

/-- Steps one after another, each with its report. -/
def fiberOfAll (steps : List Step) : Work (List Report) :=
  match steps with
  | [] => .done []
  | s :: rest => do
    let report ← reporting (fiberOf s)
    return report :: (← fiberOfAll rest)

end

mutual

/-- A bound for the rounds that a step takes, far above what it needs. -/
def roundsOf (s : Step) : Nat :=
  match s with
  | .act _ => 64
  | .execute _ _ task _ => 64 + roundsOfAll task
  | .cancel step => 64 + roundsOf step
  | .gather steps _ => 64 + roundsOfAll steps

def roundsOfAll (steps : List Step) : Nat :=
  match steps with
  | [] => 0
  | s :: rest => roundsOf s + roundsOfAll rest

end

/-- **Runs a step** to its end. -/
def runStep (s : Step) (f : Fleet) : Fleet × Report :=
  let (after, outcome) := Process.run fiberOf (roundsOf s) 0 (.ready (fiberOf s)) f
  (after, reportBetween f after (outcome.getD (.error .cancelled)))

/-- **Runs steps in order**, and tells about each. -/
def runSteps : List Step → Fleet → Fleet × List Report
  | [], f => (f, [])
  | s :: rest, f =>
    let (f, report) := runStep s f
    let (f, reports) := runSteps rest f
    (f, report :: reports)

end Fleet
end Leasehold
