/-
  Fields: the words that a command gets.

  When a word is read, each of its pieces becomes a PART.  What was written out or stands in quotes is fixed; what came
  from elsewhere is loose, and cut at the characters that the shell cuts at.  `fieldsOf` makes fields of parts.
-/
import Leasehold.Shell.Pattern
namespace Leasehold.Shell

/-- A part of a word: a fixed text, a loose one, or the place between two arguments. -/
inductive Part where
  | fixed (s : String) (quoted : Bool)
  | loose (s : String)
  | gap
  deriving DecidableEq, Repr

namespace Part

/-- A value, which is loose unless it stands in quotes. -/
def value (quoted : Bool) (s : String) : Part := if quoted then .fixed s true else .loose s

/-- The text of a part where nothing is cut. -/
def text : Part → String
  | .fixed s _ | .loose s => s
  | .gap => " "

/-- A part as a pattern. -/
def pattern : Part → Pattern
  | .fixed s quoted => s.toList.map (·, quoted)
  | .loose s => s.toList.map (·, false)
  | .gap => [(' ', false)]

/-- What was written out becomes loose, as it is between the braces of a parameter. -/
def loosened : Part → Part
  | .fixed s false => .loose s
  | p => p

end Part

/-- The text of parts. -/
def textOf (ps : List Part) : String := String.join (ps.map Part.text)

/-- The pattern of parts. -/
def patternOf (ps : List Part) : Pattern := ps.flatMap Part.pattern

/-! ## Cutting -/

/-- Fields on the way: those that are done, the last one first; the one that grows, its last character first, if one
does; and whether a blank ended the last one. -/
structure Cutting where
  done : List String
  open? : Option (List Char)
  afterBlank : Bool

namespace Cutting

/-- Adds characters to the field that grows. -/
def add (cs : List Char) (k : Cutting) : Cutting :=
  { k with open? := some (cs.reverse ++ k.open?.getD []), afterBlank := false }

/-- Ends the field that grows, if one does. -/
def cut (k : Cutting) : Cutting :=
  match k.open? with
  | some cs => { k with done := String.ofList cs.reverse :: k.done, open? := none }
  | none => k

/-- Takes a character of a loose text.  Blanks end a field; another character that cuts ends one even if it is empty. -/
def step (cutters : List Char) (k : Cutting) (c : Char) : Cutting :=
  if !(cutters.contains c) then k.add [c]
  else if c = ' ' || c = '\t' || c = '\n' then { k.cut with afterBlank := k.afterBlank || k.open?.isSome }
  else if k.afterBlank then { k with afterBlank := false }
  else (k.add []).cut

/-- Takes a part. -/
def take (cutters : List Char) (k : Cutting) : Part → Cutting
  | .fixed s quoted => if s = "" && !quoted then k else k.add s.toList
  | .loose s => s.toList.foldl (step cutters) k
  | .gap => { k.cut with afterBlank := false }

end Cutting

/-- **The fields of parts.** -/
def fieldsOf (cutters : List Char) (ps : List Part) : List String :=
  (ps.foldl (Cutting.take cutters) ⟨[], none, false⟩).cut.done.reverse

/-! ## Samples -/

example : fieldsOf [' '] [.loose " a  b", .fixed "c" false] = ["a", "bc"] := by decide +kernel
example : fieldsOf [':'] [.loose "a::b:"] = ["a", "", "b"] := by decide +kernel
example : fieldsOf [' '] [.loose " "] = [] := by decide +kernel

end Leasehold.Shell
