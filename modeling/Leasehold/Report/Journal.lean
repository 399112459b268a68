/-
  The journal: what a process says about its work, entry by entry, oldest first.
-/
namespace Leasehold

/-- How much an entry matters. -/
inductive Level where
  | debug
  | info
  | warning
  | error
  deriving DecidableEq, Repr

def Level.name : Level → String
  | .debug => "DEBUG"
  | .info => "INFO"
  | .warning => "WARNING"
  | .error => "ERROR"

/-- One entry of a journal. -/
structure Entry where
  level : Level
  text : String
  deriving DecidableEq, Repr

abbrev Journal := List Entry

end Leasehold
