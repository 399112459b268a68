/-
  Who holds a lock: the name that a process writes into the records of its leases.

  The settings may give it; else it is the name of the host; and where the host has none, or cannot tell it, the
  process goes by `unknown`.
-/
import Leasehold.Report.Ledger
import Leasehold.Settings.Settings
namespace Leasehold

/-- What the host answers when it is asked for its name. -/
inductive HostName where
  | named (name : String)
  | fails (reason : String)
  deriving DecidableEq, Repr, Inhabited

/-- **The identity of a process**, and its ledger with the warning if the host fails. -/
def Settings.identity (s : Settings) (host : HostName) (ledger : Ledger) : String × Ledger :=
  if s.lockedBy ≠ "" then (s.lockedBy, ledger)
  else match host with
    | .named name => (if name = "" then "unknown" else name, ledger)
    | .fails reason => ("unknown", ledger.note .warning ("Could not resolve hostname: " ++ reason))

end Leasehold
