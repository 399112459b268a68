/-
  What the words of a command come to.

  The words of a command line are gathered by its grammar, and what is gathered comes from options of this grammar and from
  nowhere else.  So it is enough to look at the options: those of `run` read numbers, whatever the words are and in whatever
  order they come, shortened, joined or given twice.

  1. **`Grammar.Yields`** — a value that some option of a grammar reads;
  2. **`Reading.IsOf`, `readWord_isOf`** — a word that is an option is one of the grammar;
  3. **`consume_yields`, `read_yields`** — the invariant of using up the words: every value so far is yielded by the grammar;
  4. **`Arguments.run_durations`** — both durations of a `run` that can be read are numbers.
-/
import Leasehold.CommandLine.Arguments
import Leasehold.Proofs.Moments
namespace Leasehold.CommandLine

/-! ## Options and their values -/

namespace Grammar

/-- **A value that some option of a grammar reads** from a text. -/
def Yields (g : Grammar) (v : Value) : Prop := ∃ rule ∈ g.options, ∃ text, rule.read text = .ok v

theorem rule_mem {g : Grammar} {form : String} {rule : OptionRule} (h : g.rule? form = some rule) : rule ∈ g.options :=
  List.mem_of_find?_eq_some h

theorem beginning_mem {g : Grammar} {front form : String} {rule : OptionRule} (h : (form, rule) ∈ g.beginning front) :
    rule ∈ g.options := by
  obtain ⟨r, hr, hform⟩ := List.mem_flatMap.mp h
  obtain ⟨f, -, hf⟩ := List.mem_map.mp hform
  obtain ⟨-, rfl⟩ := Prod.mk.inj hf
  exact hr

end Grammar

/-- A reading that names no option, or one of the grammar. -/
def Reading.IsOf (g : Grammar) : Reading → Prop
  | .option rule _ => rule ∈ g.options
  | .cluster rule _ => rule ∈ g.options
  | _ => True

namespace Grammar

variable {g : Grammar}

theorem readOther_isOf (w : String) : (readOther w).IsOf g := by
  rw [readOther]
  split <;> trivial

theorem readLong_isOf {w : String} {r : Reading} (h : g.readLong w = .ok r) : r.IsOf g := by
  simp only [readLong] at h
  split at h
  · cases h
    exact readOther_isOf w
  · rename_i form rule hone
    cases h
    exact beginning_mem (hone ▸ List.mem_singleton.mpr rfl)
  · cases h

theorem readShort_isOf (w : String) : (g.readShort w).IsOf g := by
  rw [readShort]
  split
  · split
    · rename_i hrule
      exact rule_mem hrule
    · exact readOther_isOf w
  · exact readOther_isOf w

/-- **A word that is an option is one of the grammar.** -/
theorem readWord_isOf {w : String} {r : Reading} (h : g.readWord w = .ok r) : r.IsOf g := by
  simp only [readWord] at h
  split at h
  · rename_i c rest hw
    split at h
    · -- the word is a form of an option
      rename_i hrule
      cases h
      exact rule_mem hrule
    · -- what stands before its equals sign is one
      rename_i hrule
      cases h
      split <;> exact rule_mem hrule
    · split at h
      · exact readLong_isOf h
      · cases h
        exact readShort_isOf w
  · cases h
    trivial

theorem readings_areOf {words : List String} {readings : List Reading} (h : words.mapM g.readWord = .ok readings) :
    ∀ r ∈ readings, r.IsOf g := by
  induction words generalizing readings with
  | nil =>
    cases h
    exact nofun
  | cons w words ih =>
    rw [List.mapM_cons] at h
    obtain ⟨r, hr, h⟩ := Except.bind_ok h
    obtain ⟨rest, hrest, h⟩ := Except.bind_ok h
    cases h
    rintro r' hr'
    rcases List.mem_cons.mp hr' with rfl | hmem
    · exact readWord_isOf hr
    · exact ih hrest r' hmem

/-! ## Using up the words -/

/-- Everything that was gathered so far is yielded by the grammar. -/
def Gathers (g : Grammar) (got : Gathered) : Prop := ∀ p ∈ got.values, g.Yields p.2

theorem putField_yields {values : List (String × Value)} (h : ∀ p ∈ values, g.Yields p.2) {key : String} {v : Value}
    (hv : g.Yields v) : ∀ p ∈ Value.putField key v values, g.Yields p.2 := by
  induction values with
  | nil =>
    rintro p hp
    rw [List.mem_singleton.mp hp]
    exact hv
  | cons f rest ih =>
    obtain ⟨hf, hrest⟩ := List.forall_mem_cons.mp h
    rw [Value.putField]
    split
    · exact List.forall_mem_cons.mpr ⟨hv, hrest⟩
    · exact List.forall_mem_cons.mpr ⟨hf, ih hrest⟩

/-- **Using up words keeps it.** -/
theorem consume_yields {items : List (String × Reading)} {acc got : Gathered} (hitems : ∀ p ∈ items, p.2.IsOf g)
    (hacc : g.Gathers acc) (h : g.consume items acc = .ok got) : g.Gathers got := by
  fun_induction g.consume items acc
  -- the words are used up, or the rest is the command's own
  case case1 | case3 =>
    cases h
    exact hacc
  case case4 | case7 | case9 | case11 => cases h
  -- words that are no options
  case case2 ih | case5 ih | case6 ih => exact ih (List.forall_mem_cons.mp hitems).2 hacc h
  -- an option with its text in the same word, and one with its text in the next word
  case case8 w rule text rest acc ih =>
    obtain ⟨hrule, hrest⟩ := List.forall_mem_cons.mp hitems
    obtain ⟨v, hv, h⟩ := Except.bind_ok h
    exact ih v hrest (putField_yields hacc ⟨rule, hrule, text, hv⟩) h
  case case10 w rule acc hwant text rest ih =>
    obtain ⟨hrule, hrest⟩ := List.forall_mem_cons.mp hitems
    obtain ⟨v, hv, h⟩ := Except.bind_ok h
    exact ih v (List.forall_mem_cons.mp hrest).2 (putField_yields hacc ⟨rule, hrule, text, hv⟩) h

/-- **What is gathered is yielded by the grammar.** -/
theorem read_yields {words : List String} {got : Gathered} (h : g.read words = .ok got) : g.Gathers got := by
  obtain ⟨readings, hreadings, h⟩ := Except.bind_ok h
  obtain ⟨gathered, hgathered, h⟩ := Except.bind_ok h
  have hitems : ∀ p ∈ words.zip readings, p.2.IsOf g := by
    rintro ⟨w, r⟩ hp
    exact readings_areOf (Except.mapError_ok hreadings) r (List.of_mem_zip hp).2
  have hempty : g.Gathers .empty := List.forall_mem_nil _
  have hyields := consume_yields hitems hempty hgathered
  split at h
  · cases h
    exact hyields
  · cases h

/-- The value under a key is yielded by the grammar, if there is one. -/
theorem field_yields {got : Gathered} (h : g.Gathers got) {key : String} {v : Value}
    (hv : Value.field? key got.values = some v) : g.Yields v := by
  obtain ⟨p, hp, rfl⟩ := Option.map_eq_some_iff.mp hv
  exact h p (List.mem_of_find?_eq_some hp)

end Grammar

/-! ## The durations of `run` -/

/-- No command has an option that reads anything but numbers. -/
theorem commandGrammar_yields {name : String} {v : Value} (h : (commandGrammar name).Yields v) : ∃ x, v = .real x := by
  obtain ⟨rule, hrule, text, hread⟩ := h
  have hwant : rule.want = .help ∨ rule.want = .number := by
    rw [commandGrammar] at hrule
    split at hrule
    · exact .inl (congrArg OptionRule.want (List.mem_singleton.mp hrule))
    split at hrule
    · rcases List.mem_cons.mp hrule with rfl | hrule
      · exact .inl rfl
      rcases List.mem_cons.mp hrule with rfl | hrule
      · exact .inr rfl
      · exact .inr (congrArg OptionRule.want (List.mem_singleton.mp hrule))
    · exact .inl (congrArg OptionRule.want (List.mem_singleton.mp hrule))
  rw [OptionRule.read] at hread
  rcases hwant with hwant | hwant
  · rw [hwant] at hread
    cases hread
  · rw [hwant] at hread
    simp only at hread
    split at hread
    · cases hread
      exact ⟨_, rfl⟩
    · cases hread

/-- **Both durations of a `run` are numbers**, whatever the words are that can be read. -/
theorem Arguments.run_durations {words : List String} {a : Arguments} (h : ofWords words = .ok a)
    (hrun : a.command.name = "run") : ∃ name atMost atLeast, a.command = .run name (.real atMost) (.real atLeast) := by
  obtain ⟨got, -, h⟩ := Except.bind_ok h
  obtain ⟨own, hown, h⟩ := Except.bind_ok h
  have hyields := Grammar.read_yields (Except.mapError_ok hown)
  have hseconds : ∀ key, ∃ x, (Value.field? key own.values).getD (.real (Binary64.ofInt 0)) = .real x := by
    intro key
    cases hv : Value.field? key own.values with
    | none => exact ⟨_, rfl⟩
    | some v => exact commandGrammar_yields (Grammar.field_yields hyields hv)
  split at h
  · cases h
  split at h
  · cases h
  cases h
  obtain ⟨atMost, hmost⟩ := hseconds "--at-most"
  obtain ⟨atLeast, hleast⟩ := hseconds "--at-least"
  simp only [Command.ofGathered] at hrun ⊢
  split at hrun
  · exact absurd hrun (show ¬"node" = "run" by decide)
  split at hrun
  · exact absurd hrun (show ¬"create-table" = "run" by decide)
  split at hrun
  · exact absurd hrun (show ¬"status" = "run" by decide)
  rw [if_neg ‹_›, if_neg ‹_›, if_neg ‹_›, hmost, hleast]
  exact ⟨_, _, _, rfl⟩

end Leasehold.CommandLine
