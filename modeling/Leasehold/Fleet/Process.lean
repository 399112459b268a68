/-
  Processes: fibers on their way.

  In a TURN every fiber that can go on does so once, in order.  A fiber that hands work over becomes the fibers of this
  work, in its own place; once they have ended it goes on itself, after the turn in which it hears of it.

  When nobody can go on, somebody has to be woken (`Process.stir`):

  1. work that is watched is cut short, if it has not ended;
  2. else programs end;
  3. else the time passes up to the next moment that a fiber waits for;
  4. else nothing is to come any more, and every wait is cut short.
-/
import Leasehold.Fleet.Fiber
namespace Leasehold

/-- **A process**: it is over, its turn comes, it waits, or others are at work for it.  A wait for the time to run out
names the moment. -/
inductive Process (σ ω β : Type) where
  | ended (b : β)
  | ready (fiber : Fiber σ ω β β)
  | waiting (w : Wait) (rest : Wake → Fiber σ ω β β)
  | beside (parts : List (Process σ ω β)) (isCut : Bool) (rest : Option (List β) → Fiber σ ω β β)
  | watching (part : Process σ ω β) (isCut : Bool) (rest : Option β → Fiber σ ω β β)

namespace Process

variable {σ ω β : Type}

/-- What a process came to, if it is over. -/
def result? : Process σ ω β → Option β
  | ended b => some b
  | _ => none

/-- What processes came to, if all of them are over. -/
def results? (parts : List (Process σ ω β)) : Option (List β) := parts.mapM result?

/-! ## Turns -/

/-- Lets a fiber go on to its next wait, at a moment. -/
def advance (fiberOf : ω → Fiber σ ω β β) (now : Nat) : Fiber σ ω β β → σ → σ × Process σ ω β
  | .done b, s => (s, ended b)
  | .look rest, s => advance fiberOf now (rest s) s
  | .put s rest, _ => advance fiberOf now rest s
  | .wait .turn rest, s => (s, ready (rest .due))
  | .wait (.time micros) rest, s => (s, waiting (.time (now + micros)) rest)
  | .wait w rest, s => (s, waiting w rest)
  | .beside [] rest, s => advance fiberOf now (rest (some [])) s
  | .beside orders rest, s => (s, beside (orders.map fun o => ready (fiberOf o)) false rest)
  | .watch order rest, s => (s, watching (ready (fiberOf order)) false rest)

/-- What becomes of work side by side after a turn. -/
def regroup (parts : List (Process σ ω β)) (isCut : Bool) (rest : Option (List β) → Fiber σ ω β β) : Process σ ω β :=
  match results? parts with
  | some bs => ready (.wait .turn fun _ => rest (if isCut then none else some bs))
  | none => beside parts isCut rest

/-- What becomes of watched work after a turn: once it was cut short, its end is waited for. -/
def rewatch (part : Process σ ω β) (isCut : Bool) (rest : Option β → Fiber σ ω β β) : Process σ ω β :=
  match part, isCut with
  | ended b, true => ready (rest (some b))
  | part, _ => watching part isCut rest

mutual

/-- **One turn.** -/
def turn (fiberOf : ω → Fiber σ ω β β) (now : Nat) (p : Process σ ω β) (s : σ) : σ × Process σ ω β :=
  match p with
  | ended b => (s, ended b)
  | ready fiber => advance fiberOf now fiber s
  | waiting w rest => (s, waiting w rest)
  | beside parts isCut rest =>
    let (s, parts) := turnAll fiberOf now parts s
    (s, regroup parts isCut rest)
  | watching part isCut rest =>
    let (s, part) := turn fiberOf now part s
    (s, rewatch part isCut rest)

/-- One turn of every process, in order. -/
def turnAll (fiberOf : ω → Fiber σ ω β β) (now : Nat) (parts : List (Process σ ω β)) (s : σ) :
    σ × List (Process σ ω β) :=
  match parts with
  | [] => (s, [])
  | p :: rest =>
    let (s, p) := turn fiberOf now p s
    let (s, rest) := turnAll fiberOf now rest s
    (s, p :: rest)

end

/-! ## Looks -/

mutual

/-- Whether anybody can go on in the next turn. -/
def isReady (p : Process σ ω β) : Bool :=
  match p with
  | ready _ => true
  | beside parts _ _ => anyReady parts
  | watching part _ _ => isReady part
  | _ => false

def anyReady (parts : List (Process σ ω β)) : Bool :=
  match parts with
  | [] => false
  | p :: rest => isReady p || anyReady rest

end

mutual

/-- Whether work is watched that was not cut short yet. -/
def isWatched (p : Process σ ω β) : Bool :=
  match p with
  | beside parts _ _ => anyWatched parts
  | watching part isCut _ => !isCut || isWatched part
  | _ => false

def anyWatched (parts : List (Process σ ω β)) : Bool :=
  match parts with
  | [] => false
  | p :: rest => isWatched p || anyWatched rest

end

mutual

/-- What the processes wait for. -/
def waits (p : Process σ ω β) : List Wait :=
  match p with
  | waiting w _ => [w]
  | beside parts _ _ => allWaits parts
  | watching part _ _ => waits part
  | _ => []

def allWaits (parts : List (Process σ ω β)) : List Wait :=
  match parts with
  | [] => []
  | p :: rest => waits p ++ allWaits rest

end

/-- The first moment that anybody waits for. -/
def nextMoment? (p : Process σ ω β) : Option Nat :=
  (p.waits.filterMap fun | .time moment => some moment | _ => none).min?

/-! ## Waking -/

mutual

/-- Cuts every wait short.  Work that is watched is left to itself. -/
def cut (p : Process σ ω β) : Process σ ω β :=
  match p with
  | waiting _ rest => ready (rest .cut)
  | beside parts _ rest => beside (cutAll parts) true rest
  | watching _ _ rest => ready (rest none)
  | p => p

def cutAll (parts : List (Process σ ω β)) : List (Process σ ω β) :=
  match parts with
  | [] => []
  | p :: rest => cut p :: cutAll rest

end

mutual

/-- Ends the watching: work that is over is told, any other work is cut short. -/
def unwatch (p : Process σ ω β) : Process σ ω β :=
  match p with
  | watching (ended b) _ rest => ready (rest (some b))
  | watching part false rest => watching part.cut true rest
  | watching part true rest => watching (unwatch part) true rest
  | beside parts isCut rest => beside (unwatchAll parts) isCut rest
  | p => p

def unwatchAll (parts : List (Process σ ω β)) : List (Process σ ω β) :=
  match parts with
  | [] => []
  | p :: rest => unwatch p :: unwatchAll rest

end

mutual

/-- Wakes everybody who waits for something. -/
def wake (w : Wait) (p : Process σ ω β) : Process σ ω β :=
  match p with
  | waiting v rest => if v = w then ready (rest .due) else waiting v rest
  | beside parts isCut rest => beside (wakeAll w parts) isCut rest
  | watching part isCut rest => watching (wake w part) isCut rest
  | p => p

def wakeAll (w : Wait) (parts : List (Process σ ω β)) : List (Process σ ω β) :=
  match parts with
  | [] => []
  | p :: rest => wake w p :: wakeAll w rest

end

/-- **Wakes somebody** when nobody can go on: the process, and the moment that it is then. -/
def stir (now : Nat) (p : Process σ ω β) : Process σ ω β × Nat :=
  if p.isWatched then (p.unwatch, now)
  else if p.waits.contains .program then (p.wake .program, now)
  else match p.nextMoment? with
    | some moment => (p.wake (.time moment), moment)
    | none => (p.cut, now)

/-! ## Runs -/

/-- Runs a process to its end, in so many rounds at most. -/
def run (fiberOf : ω → Fiber σ ω β β) : Nat → Nat → Process σ ω β → σ → σ × Option β
  | 0, _, p, s => (s, p.result?)
  | rounds + 1, now, p, s =>
    match p.result? with
    | some b => (s, some b)
    | none =>
      if p.isReady then let (s, p) := p.turn fiberOf now s; run fiberOf rounds now p s
      else let (p, now) := p.stir now; run fiberOf rounds now p s

end Process
end Leasehold
