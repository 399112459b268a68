/-
  The ledger of a process: its journal and its metrics together.
-/
import Leasehold.Report.Journal
import Leasehold.Report.Metrics
namespace Leasehold

/-- What a process reports. -/
structure Ledger where
  journal : Journal
  metrics : Metrics
  deriving Repr

namespace Ledger

def empty : Ledger := ⟨[], .empty⟩

instance : Inhabited Ledger := ⟨empty⟩

/-- Adds an entry to the journal. -/
def note (level : Level) (text : String) (l : Ledger) : Ledger :=
  { l with journal := l.journal ++ [⟨level, text⟩] }

/-- Counts something. -/
def count (f : Metrics → Metrics) (l : Ledger) : Ledger := { l with metrics := f l.metrics }

@[simp] theorem metrics_note (level : Level) (text : String) (l : Ledger) :
    (l.note level text).metrics = l.metrics := rfl

@[simp] theorem journal_count (f : Metrics → Metrics) (l : Ledger) : (l.count f).journal = l.journal := rfl

end Ledger
end Leasehold
