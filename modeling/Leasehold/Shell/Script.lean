/-
  Scripts of a shell: what commands are made of.

  A WORD is a row of pieces, some of which stand for texts that are only known when the command runs: a parameter, the
  output of a script, the value of an expression.  A `Command` is a simple one, words that name a program or a function
  and its arguments, or it is made of others.  One that runs `aside` is not waited for.
-/
namespace Leasehold.Shell

/-- What is asked of a parameter: its value, its length, something else in its place, or its value without a part at
one end. -/
inductive Mode where
  | value
  | length
  | fallback (sign : Char) (evenEmpty : Bool)
  | trimmed (atFront longest : Bool)
  deriving DecidableEq, Repr

/-- Whether a part of the value is to be taken away. -/
def Mode.trims : Mode → Bool
  | .trimmed .. => true
  | _ => false

/-- Where the output of a command goes, or its input comes from; `here` is for an input that the script holds itself. -/
inductive Direction where
  | write
  | append
  | copy
  | read
  | here
  deriving DecidableEq, Repr

mutual

/-- A piece of a word; what stands in quotes is not split and matches only itself. -/
inductive Piece where
  | text (s : String) (quoted : Bool)
  | parameter (name : String) (mode : Mode) (argument : List Piece) (quoted : Bool)
  | output (c : Command) (quoted : Bool)
  | number (expression : List Piece) (quoted : Bool)

/-- A command; a simple one knows how many lines of the script are still to come. -/
inductive Command where
  | simple (linesLeft : Nat) (assignments : List (String × List Piece)) (words : List (List Piece))
      (redirections : List (Nat × Direction × List Piece))
  | pipe (parts : List Command)
  | both (ifGood : Bool) (first second : Command)
  | negated (c : Command)
  | aside (c : Command)
  | row (parts : List Command)
  | cond (test good bad : Command)
  | loop (whileGood : Bool) (test body : Command)
  | each (name : String) (words : Option (List (List Piece))) (body : Command)
  | choose (word : List Piece) (arms : List (List (List Piece) × Command))
  | define (name : String) (body : Command)
  | group (apart : Bool) (body : Command) (redirections : List (Nat × Direction × List Piece))

end

/-- The command that does nothing. -/
def Command.nothing : Command := .row []

instance : Inhabited Command := ⟨.nothing⟩

/-- A word. -/
abbrev Word := List Piece

/-- Where a stream of a command goes: the number of the stream, the direction, and a word for the other end. -/
abbrev Redirection := Nat × Direction × Word

end Leasehold.Shell
