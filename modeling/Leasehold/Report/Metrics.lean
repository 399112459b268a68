/-
  Metrics: how often what happened.

  A `Tally` counts under labels and keeps the labels in the order of their first use.  A process has five of
  them, for acquires, releases, store calls, and requests by their number and by their latencies, and one gauge.
  `lines` is the page that shows them: one line per label set, its labels in alphabetical order.
-/
import Leasehold.Text.Quoted
namespace Leasehold

/-- Counts under labels, in the order of the labels' first use. -/
abbrev Tally (κ : Type) := List (κ × Nat)

namespace Tally

variable {κ : Type} [DecidableEq κ]

/-- Counts one under a label. -/
def add (label : κ) : Tally κ → Tally κ
  | [] => [(label, 1)]
  | (l, n) :: rest => if l = label then (l, n + 1) :: rest else (l, n) :: add label rest

/-- The count under a label. -/
def count (label : κ) (t : Tally κ) : Nat := ((t.find? (·.1 = label)).map (·.2)).getD 0

theorem count_add_self (label : κ) (t : Tally κ) : (t.add label).count label = t.count label + 1 := by
  induction t with
  | nil => simp [add, count]
  | cons p rest ih =>
    obtain ⟨l, n⟩ := p
    by_cases h : l = label
    · simp [add, count, h]
    · simpa [add, count, h] using ih

theorem count_add_other {label other : κ} (h : other ≠ label) (t : Tally κ) :
    (t.add label).count other = t.count other := by
  induction t with
  | nil => simp [add, count, Ne.symm h]
  | cons p rest ih =>
    obtain ⟨l, n⟩ := p
    by_cases hl : l = label
    · subst hl; simp [add, count, Ne.symm h]
    · by_cases ho : l = other
      · subst ho; simp [add, count, hl]
      · simpa [add, count, hl, ho] using ih

end Tally

/-- How an acquire ended, as far as metrics tell. -/
inductive AcquireOutcome where
  | acquired
  | contended
  | failed
  deriving DecidableEq, Repr

def AcquireOutcome.label : AcquireOutcome → String
  | .acquired => "acquired"
  | .contended => "contended"
  | .failed => "failed"

/-- How a release ended, as far as metrics tell. -/
inductive ReleaseOutcome where
  | released
  | lost
  | failed
  deriving DecidableEq, Repr

def ReleaseOutcome.label : ReleaseOutcome → String
  | .released => "released"
  | .lost => "lost"
  | .failed => "failed"

/-- The metrics of a process. -/
structure Metrics where
  acquires : Tally (String × AcquireOutcome)
  releases : Tally (String × ReleaseOutcome)
  storeCalls : Tally String
  requests : Tally (String × String)
  leaseRecords : Nat
  deriving Repr

namespace Metrics

/-- Nothing counted yet. -/
def empty : Metrics := ⟨[], [], [], [], 0⟩

instance : Inhabited Metrics := ⟨empty⟩

def countAcquire (name : String) (outcome : AcquireOutcome) (m : Metrics) : Metrics :=
  { m with acquires := m.acquires.add (name, outcome) }

def countRelease (name : String) (outcome : ReleaseOutcome) (m : Metrics) : Metrics :=
  { m with releases := m.releases.add (name, outcome) }

def countStoreCall (operation : String) (m : Metrics) : Metrics :=
  { m with storeCalls := m.storeCalls.add operation }

/-- Counts a request under its method and the path of its route. -/
def countRequest (method path : String) (m : Metrics) : Metrics :=
  { m with requests := m.requests.add (method, path) }

/-! ## Counts in order -/

/-- The order of rows of labels: by the first label that differs. -/
def labelsBefore : List String → List String → Bool
  | [], _ => true
  | _ :: _, [] => false
  | a :: as, b :: bs => if a = b then labelsBefore as bs else decide (a < b)

/-- Rows of labels with their counts, in the order of the labels. -/
def sorted (rows : List (List String × Nat)) : List (List String × Nat) :=
  rows.mergeSort fun a b => labelsBefore a.1 b.1

/-- The counts of acquires by lock and outcome. -/
def acquireRows (m : Metrics) : List (List String × Nat) :=
  sorted (m.acquires.map fun p => ([p.1.1, p.1.2.label], p.2))

/-- The counts of releases by lock and outcome. -/
def releaseRows (m : Metrics) : List (List String × Nat) :=
  sorted (m.releases.map fun p => ([p.1.1, p.1.2.label], p.2))

/-- The counts of store calls by operation. -/
def storeCallRows (m : Metrics) : List (List String × Nat) := sorted (m.storeCalls.map fun p => ([p.1], p.2))

/-- The counts of requests by method and route. -/
def requestRows (m : Metrics) : List (List String × Nat) := sorted (m.requests.map fun p => ([p.1.1, p.1.2], p.2))

/-! ## The page -/

/-- A label's value between double quotes: backslash, double quote and line feed are escaped. -/
def labelText (s : String) : String :=
  let cs := s.toList.flatMap fun c =>
    if c = '\\' then ['\\', '\\']
    else if c = Text.doubleQuote then ['\\', Text.doubleQuote]
    else if c = '\n' then ['\\', 'n']
    else [c]
  String.ofList (Text.doubleQuote :: cs ++ [Text.doubleQuote])

/-- One line: a name, labels with their values, a number. -/
def line (name : String) (labels : List (String × String)) (n : Nat) : String :=
  let inner := ",".intercalate (labels.map fun l => l.1 ++ "=" ++ labelText l.2)
  name ++ (if labels.isEmpty then "" else "\x7b" ++ inner ++ "\x7d") ++ " " ++ toString n ++ ".0"

/-- **The lines of the page.** -/
def lines (m : Metrics) : List String :=
  m.acquires.map (fun p => line "lease_acquire_total" [("name", p.1.1), ("outcome", p.1.2.label)] p.2)
    ++ m.releases.map (fun p => line "lease_release_total" [("name", p.1.1), ("outcome", p.1.2.label)] p.2)
    ++ m.storeCalls.map (fun p => line "lease_store_latency_seconds_count" [("operation", p.1)] p.2)
    ++ m.requests.map (fun p => line "request_total" [("endpoint", p.1.2), ("method", p.1.1)] p.2)
    ++ m.requests.map (fun p => line "request_latency_seconds_count" [("endpoint", p.1.2), ("method", p.1.1)] p.2)
    ++ [line "lease_records" [] m.leaseRecords]

end Metrics
end Leasehold
