/-
  Commands close their stores.

  A command gets a store that was made for it, and whoever gets a store has to close it: once, however the command ends, and
  after everything else that it asks of it.  The store is any store here, and so is what becomes of its calls: they may be
  answered, fail in any way, also because the command is cut short, or stay without an answer; and the program that is run
  may end, fail, or be cut short.

  1. **`ClosedOnce`** — calls that end with the only one that closes;
  2. **`Run.Follows`** — the invariant of a run: the logged run is where the plain one is, and nothing was closed so far.  Every
     step keeps it (`acquire_follows`, `start_follows`, `release_follows`), hence so does a whole run under a lock;
  3. **`runner_closes`** — a run with a lock ends with closing, whatever happened;
  4. **`commands_close`** — so do all commands, but for one gap: if the time to wait in the settings is none that a lock takes,
     `run` ends before anything is tried and leaves its store OPEN (`backup_leaves_open`).
-/
import Leasehold.CommandLine.Commands
import Leasehold.Proofs.Contacts
import Leasehold.Proofs.Execution
namespace Leasehold.CommandLine

variable {σ : Type}

/-! ## Closing -/

/-- **Calls of a store that is closed once, after all other calls.** -/
def ClosedOnce (calls : List Contact) : Prop := ∃ others, calls = others ++ [.close] ∧ .close ∉ others

namespace Run

/-- A run without its log. -/
def unlogged (r : Run (Logged σ)) : Run σ := ⟨r.world.unlogged, r.lock, r.child⟩

/-- **The invariant of a run**: the logged run is where the plain one is, and the store was not closed so far. -/
structure Follows (r : Run σ) (t : Run (Logged σ)) : Prop where
  plain : r = t.unlogged
  notClosed : .close ∉ t.world.store.calls

/-- A run that has a lease besides. -/
def Holds (l : Lease) (r : Run σ) (l' : Lease) (t : Run (Logged σ)) : Prop := l = l' ∧ r.Follows t

/-- A call that does not close is added to the log. -/
theorem not_close_append {calls : List Contact} (h : .close ∉ calls) {c : Contact} (hc : c ≠ .close) :
    .close ∉ calls ++ [c] := by
  rw [List.mem_append, List.mem_singleton, not_or]
  exact ⟨h, fun heq => hc heq.symm⟩

/-- What two functions on states come to is alike if their values are. -/
theorem alike_of_values {τ τ' α α' : Type} {x : StateM τ α} {x' : StateM τ' α'} {s : τ} {s' : τ'}
    {P : α → τ → α' → τ' → Prop} (h : P (x s).1 (x s).2 (x' s').1 (x' s').2) :
    (Evaluation.ofState τ).Alike (.ofState τ') x s x' s' P :=
  ⟨_, _, _, _, rfl, rfl, h⟩

section

variable (S : LeaseStore σ) {r : Run σ} {t : Run (Logged σ)}

/-- Acquiring keeps the invariant. -/
theorem acquire_follows (terms : Terms) (now : GivenTime) (h : r.Follows t) :
    (Evaluation.ofState (Run σ)).Alike (.ofState (Run (Logged σ))) (acquire S terms now) r (acquire S.logged terms now) t
      (Guarded.AcquiredAlike Follows Holds) := by
  obtain ⟨rfl, hopen⟩ := h
  refine alike_of_values ?_
  simp only [acquire]
  cases Claim.ofTerms terms now with
  | error e => exact ⟨rfl, rfl, hopen⟩
  | ok claim =>
    have hasked := not_close_append hopen (c := .tryUpdate (claim.request t.lock.identity)) nofun
    simp only [Lock.tryAcquire_logged]
    exact .refl ⟨rfl, hasked⟩ (fun l => ⟨rfl, rfl, hasked⟩) _

/-- Notes keep it, -/
theorem note_follows (level : Level) (text : String) (h : r.Follows t) :
    (Evaluation.ofState (Run σ)).Alike (.ofState (Run (Logged σ))) (note level text) r (note level text) t
      fun _ r' _ t' => r'.Follows t' := by
  obtain ⟨rfl, hopen⟩ := h
  exact alike_of_values ⟨rfl, hopen⟩

/-- and so does the program that is run, however it ends. -/
theorem start_follows (around : Surroundings) (words : List String) (h : r.Follows t) :
    (Evaluation.ofState (Run σ)).Alike (.ofState (Run (Logged σ))) (start around words) r (start around words) t
      fun v r' v' t' => v = v' ∧ r'.Follows t' := by
  obtain ⟨rfl, hopen⟩ := h
  refine alike_of_values ?_
  simp only [start]
  cases around.spawn words with
  | ok ended => exact ⟨rfl, rfl, hopen⟩
  | error e =>
    simp only
    cases startFailure words e with
    | ok noted => exact ⟨rfl, rfl, hopen⟩
    | error e => exact ⟨rfl, rfl, hopen⟩

/-- Releasing keeps it. -/
theorem release_follows (now : GivenTime) (lease : Lease) (h : r.Follows t) :
    (Evaluation.ofState (Run σ)).Alike (.ofState (Run (Logged σ))) (release S now lease) r (release S.logged now lease) t
      fun b r' b' t' => b = b' ∧ r'.Follows t' := by
  obtain ⟨rfl, hopen⟩ := h
  have hasked : .close ∉ t.world.store.calls ++ Lock.contactsOfRelease lease now := by
    rw [Lock.contactsOfRelease]
    split
    · rwa [List.append_nil]
    split
    · rwa [List.append_nil]
    · exact not_close_append hopen (fun h => by cases h)
  refine alike_of_values ?_
  simp only [release, Lock.release_logged]
  exact ⟨rfl, rfl, hasked⟩

/-- A run under terms keeps it. -/
theorem guarded_follows (around : Surroundings) (words : List String) (terms : Terms) (h : r.Follows t) :
    (Evaluation.ofState (Run σ)).Alike (.ofState (Run (Logged σ)))
      (((runner S around words).guarded terms).run terms.name) r
      (((runner S.logged around words).guarded terms).run terms.name) t fun v r' v' t' => v = v' ∧ r'.Follows t' := by
  refine Guarded.run_alike (R := Follows) (H := Holds) (fun _ _ => acquire_follows S terms around.now) ?_ ?_
    (fun level text _ _ => note_follows level text) terms.name h
  · rintro l r l' t ⟨hlease, hfollows⟩
    obtain ⟨v, r', v', t', hr, ht, hv, hfollows'⟩ := start_follows around words hfollows
    exact ⟨v, r', v', t', hr, ht, hv, hlease, hfollows'⟩
  · rintro l r l' t ⟨rfl, hfollows⟩
    exact release_follows S around.now l hfollows

/-- **A run with a lock ends with closing its store**, and the log changes nothing. -/
theorem runner_closes (around : Surroundings) (terms : List GivenDuration) (words : List String) (h : r.Follows t) :
    (Evaluation.ofState (Run σ)).Alike (.ofState (Run (Logged σ))) ((runner S around words).run terms) r
      ((runner S.logged around words).run terms) t
      fun ending r' ending' t' => ending = ending' ∧ r' = t'.unlogged ∧ ClosedOnce t'.world.store.calls := by
  have hclose : ∀ (ending : Ending) {r : Run σ} {t : Run (Logged σ)}, r.Follows t →
      (Evaluation.ofState (Run σ)).Alike (.ofState (Run (Logged σ)))
        (do (runner S around words).close; return ending) r (do (runner S.logged around words).close; return ending) t
        fun ending r' ending' t' => ending = ending' ∧ r' = t'.unlogged ∧ ClosedOnce t'.world.store.calls := by
    rintro ending r t ⟨rfl, hopen⟩
    exact alike_of_values ⟨rfl, rfl, t.world.store.calls, rfl, hopen⟩
  rw [Runner.run, Runner.run]
  cases Terms.ofArguments terms with
  | error e => exact hclose _ h
  | ok terms =>
    refine (guarded_follows S around words terms h).bind fun v r' v' t' hended => ?_
    obtain ⟨rfl, rfl, hopen⟩ := hended
    exact hclose _ ⟨rfl, hopen⟩

end

end Run

/-! ## Commands -/

/-- What is done with a store, of whatever kind it is. -/
abbrev StoreWork := ∀ τ : Type, LeaseStore τ → World τ → World τ × Ending

namespace StoreWork

/-- **The calls that some work makes** on a store in a world. -/
def contacts (work : StoreWork) (S : LeaseStore σ) (w : World σ) : List Contact :=
  (work (Logged σ) S.logged (w.logged [])).1.store.calls

/-- **Work that closes its store**: once and last, and that its calls are logged changes nothing. -/
structure Closes (work : StoreWork) (S : LeaseStore σ) (w : World σ) : Prop where
  closedOnce : ClosedOnce (work.contacts S w)
  unlogged : work σ S w =
    ((work (Logged σ) S.logged (w.logged [])).1.unlogged, (work (Logged σ) S.logged (w.logged [])).2)

end StoreWork

/-- A lock that is made of the settings alone: it is refused for its time to wait, and for nothing else. -/
theorem makeLock_cases (settings : Settings) (host : HostName) (ledger : Ledger) :
    (∃ e, Lock.timeoutFault? settings.storeTimeout = some e ∧
        Lock.make settings host .null .null ledger = (ledger, .error e)) ∨
      Lock.timeoutFault? settings.storeTimeout = none ∧
        ∃ ledger' lock, Lock.make settings host .null .null ledger = (ledger', .ok lock) := by
  have hwait : (if Value.null.isNull then settings.storeTimeout else Value.null) = settings.storeTimeout := rfl
  rw [Lock.make, hwait]
  cases Lock.timeoutFault? settings.storeTimeout with
  | some e => exact .inl ⟨e, rfl, rfl⟩
  | none => exact .inr ⟨rfl, _, _, rfl⟩

/-- **Every command closes its store, once and after everything else**, whatever becomes of the calls on the store and of the
program that is run, with one gap: `run` asks nothing of its store, and does not close it either, if the time to wait in the
settings is none that a lock takes. -/
theorem commands_close (S : LeaseStore σ) (around : Surroundings) (w : World σ) :
    (∀ label, StoreWork.Closes (fun _ S => createTable S label) S w) ∧
    (∀ name, StoreWork.Closes (fun _ S => status S name) S w) ∧
    ∀ terms words,
      (Lock.timeoutFault? around.settings.storeTimeout = none →
        StoreWork.Closes (fun _ S => run S around terms words) S w) ∧
      (Lock.timeoutFault? around.settings.storeTimeout ≠ none →
        StoreWork.contacts (fun _ S => run S around terms words) S w = []) := by
  refine ⟨fun label => ⟨⟨[.createTable []], rfl, nofun⟩, rfl⟩, fun name => ⟨⟨[.get name], rfl, nofun⟩, rfl⟩,
    fun terms words => ?_⟩
  have hledger : (w.logged []).ledger = w.ledger := rfl
  rcases makeLock_cases around.settings around.host w.ledger with ⟨e, hfault, hmade⟩ | ⟨hfault, ledger, lock, hmade⟩
  · refine ⟨fun h => absurd (hfault.symm.trans h) nofun, fun _ => ?_⟩
    simp only [StoreWork.contacts, run, hledger, hmade]
    rfl
  · refine ⟨fun _ => ?_, fun h => absurd hfault h⟩
    -- the run begins where nothing was logged
    have hfollows : Run.Follows ⟨{ w with ledger }, lock, ""⟩ ⟨{ w.logged [] with ledger }, lock, ""⟩ := ⟨rfl, nofun⟩
    obtain ⟨ending, r, ending', t, hr, ht, rfl, rfl, hclosed⟩ := Run.runner_closes S around terms words hfollows
    have hplain : ((Run.runner S around words).run terms).run ⟨{ w with ledger }, lock, ""⟩ = (ending, t.unlogged) :=
      Option.some.inj hr
    have hlogged : ((Run.runner S.logged around words).run terms).run ⟨{ w.logged [] with ledger }, lock, ""⟩ = (ending, t) :=
      Option.some.inj ht
    constructor
    · simp only [StoreWork.contacts, run, hledger, hmade, hlogged]
      exact hclosed
    · simp only [run, hledger, hmade, hplain, hlogged]
      rfl

/-! ## A backup that is cut short

The settings tell how long a lock waits for its store. -/

def waitingFor (timeout : Value) : Surroundings :=
  ⟨{ Settings.usual with storeTimeout := timeout }, .named "node-0", .moment Clock.usualStart, fun _ => .error .cancelled,
    fun _ => .ok ()⟩

def backup (timeout : Value) : StoreWork :=
  fun _ S => run S (waitingFor timeout) [.value (.text "backup"), .value (.int 60)] ["rsync"]

/-- With five seconds the store is closed, although the program is cut short; -/
theorem backup_closes : (backup (.int 5)).Closes Memory.store ⟨.empty, .empty⟩ := by
  obtain ⟨-, -, hrun⟩ := commands_close Memory.store (waitingFor (.int 5)) ⟨.empty, .empty⟩
  exact (hrun _ _).1 rfl

/-- with no time at all it is **left open**. -/
theorem backup_leaves_open :
    (backup (.int 0) Memory Memory.store ⟨.empty, .empty⟩).2.result = .error (.terms (.timeoutNotPositive (.int 0))) ∧
      ¬ClosedOnce ((backup (.int 0)).contacts Memory.store ⟨.empty, .empty⟩) := by
  refine ⟨rfl, ?_⟩
  rintro ⟨others, hothers, -⟩
  have hnone : (backup (.int 0)).contacts Memory.store ⟨.empty, .empty⟩ = [] := rfl
  rw [hnone] at hothers
  exact absurd hothers.symm (List.append_ne_nil_of_right_ne_nil others (List.cons_ne_nil _ _))

end Leasehold.CommandLine
