/-
  Patterns of a shell.

  A pattern is a row of characters, each with a note whether it stands for itself in any case.  A star stands for any
  characters, a question mark for one, and brackets for one of those between them.
-/
namespace Leasehold.Shell

/-- A pattern: its characters, and whether they were quoted. -/
abbrev Pattern := List (Char × Bool)

namespace Pattern

/-- A text as a pattern that matches only itself. -/
def literal (s : String) : Pattern := s.toList.map (·, true)

/-- Whether a character is one of those between brackets: characters, and ranges of them. -/
def inSet (c : Char) : List Char → Bool
  | a :: '-' :: b :: rest => (a ≤ c && c ≤ b) || inSet c rest
  | a :: rest => a = c || inSet c rest
  | [] => false

/-- The characters between brackets and what is behind them, once the first bracket was taken. -/
def takeSet (acc : List Char) : Pattern → Option (List Char × Pattern)
  | [] => none
  | (c, quoted) :: rest =>
    if c = ']' && !quoted && !acc.isEmpty then some (acc.reverse, rest) else takeSet (c :: acc) rest

/-- Whether a character is meant by brackets, a sign at the front turning the meaning round. -/
def meant (c : Char) : List Char → Bool
  | '!' :: set => !(inSet c set)
  | '^' :: set => !(inSet c set)
  | set => inSet c set

/-- Whether a pattern matches characters, with a bound for the steps. -/
def matchesWithin : Nat → Pattern → List Char → Bool
  | 0, _, _ => false
  | _ + 1, [], cs => cs.isEmpty
  | n + 1, (p, quoted) :: ps, cs =>
    if p = '*' && !quoted then
      matchesWithin n ps cs || match cs with
        | _ :: rest => matchesWithin n ((p, quoted) :: ps) rest
        | [] => false
    else match cs with
      | [] => false
      | c :: rest =>
        if p = '?' && !quoted then matchesWithin n ps rest
        else match if p = '[' && !quoted then takeSet [] ps else none with
          | some (set, ps) => meant c set && matchesWithin n ps rest
          | none => p = c && matchesWithin n ps rest

/-- **Whether a pattern matches** all of some characters. -/
def matchesAll (p : Pattern) (cs : List Char) : Bool := matchesWithin (p.length + cs.length + 1) p cs

/-- The characters without a part at their front that a pattern matches. -/
def trimFront (longest : Bool) (p : Pattern) (cs : List Char) : List Char :=
  let cuts := (List.range (cs.length + 1)).filter fun n => matchesAll p (cs.take n)
  cs.drop ((if longest then cuts.getLast? else cuts.head?).getD 0)

/-- The characters without a part at their end that a pattern matches. -/
def trimEnd (longest : Bool) (p : Pattern) (cs : List Char) : List Char :=
  let cuts := (List.range (cs.length + 1)).filter fun n => matchesAll p (cs.drop n)
  cs.take ((if longest then cuts.head? else cuts.getLast?).getD cs.length)

end Pattern

/-! ## Samples -/

example : Pattern.matchesAll [('*', false), ('b', false)] "aab".toList = true := by decide
example : Pattern.matchesAll [('*', true)] "a".toList = false := by decide

end Leasehold.Shell
