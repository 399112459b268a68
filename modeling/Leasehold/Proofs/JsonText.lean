/-
  Texts travel through JSON.

  What is sent between a lock and a lease node is an object of texts.  It is written as JSON, and read as JSON; that its
  characters come through as bytes is no matter of JSON (`Text.Utf8.decode_encode`).

  1. **`scanText_writeChar`** — every character, escaped or not, is read as itself; a character past the first plane as
     the pair of its surrogates.  Hence a written text is read as itself (`scanText_written`);
  2. **`read_texts`** — hence an object of texts, no key of which comes twice, is read as this object.
-/
import Leasehold.Json.Reader
import Leasehold.Json.Writer
import Leasehold.Proofs.Utf8
namespace Leasehold.Json

open Text Value

/-! ## Characters that were written -/

theorem hexRow_hexWide {n : Nat} (h : n < 65536) : hexRow? (hexWide 4 n) = some n := by
  have h1 : n / 16 / 16 / 16 % 16 < 16 := Nat.mod_lt _ (by decide)
  have h2 : n / 16 / 16 % 16 < 16 := Nat.mod_lt _ (by decide)
  have h3 : n / 16 % 16 < 16 := Nat.mod_lt _ (by decide)
  have h4 : n % 16 < 16 := Nat.mod_lt _ (by decide)
  simp only [hexWide, List.nil_append, List.cons_append, hexRow?, List.foldl_cons, List.foldl_nil, hexValue_hexDigit h1,
    hexValue_hexDigit h2, hexValue_hexDigit h3, hexValue_hexDigit h4]
  show some _ = some n
  congr 1
  omega

theorem keep_ok (c : Char) (cs rest : List Char) : keep c (.ok (cs, rest)) = .ok (c :: cs, rest) := rfl

/-- An escaped number that is no first half of a pair is a character by itself. -/
theorem scanText_unit {n : Nat} (h : n < 65536) (hn : isHighSurrogate n = false) (opened : Nat) (x : Char)
    (rest : List Char) :
    scanText opened (unitEscape n ++ x :: rest) = keep (characterOf n) (scanText opened (x :: rest)) := by
  have hrow := hexRow_hexWide h
  obtain ⟨a, b, c, d, hw⟩ : ∃ a b c d, hexWide 4 n = [a, b, c, d] := ⟨_, _, _, _, rfl⟩
  rw [hw] at hrow
  rw [unitEscape, hw]
  simp only [List.cons_append, List.nil_append]
  rw [scanText.eq_def]
  split
  case h_4 heq =>
    cases heq
    simp only [hrow, hn, Bool.false_eq_true, if_false]
  case h_5 heq =>
    cases heq
    simp only [hrow]
  case h_6 hno heq =>
    cases heq
    exact absurd rfl (hno _ _ _ _ _ _)
  case h_7 hno heq =>
    cases heq
    exact absurd rfl hno
  case h_8 hno heq =>
    cases heq
    exact absurd rfl (hno _ _ rfl)
  all_goals
    rename_i heq
    cases heq

/-- The two halves of a pair are one character. -/
theorem scanText_pair {high low : Nat} {ch : Char} (hh : high < 65536) (hl : low < 65536)
    (hn : isHighSurrogate high = true) (hp : pairOf? high low = some ch) (opened : Nat) (x : Char) (rest : List Char) :
    scanText opened (unitEscape high ++ unitEscape low ++ x :: rest) = keep ch (scanText opened (x :: rest)) := by
  have hrow := hexRow_hexWide hh
  have hrow' := hexRow_hexWide hl
  obtain ⟨a, b, c, d, hw⟩ : ∃ a b c d, hexWide 4 high = [a, b, c, d] := ⟨_, _, _, _, rfl⟩
  obtain ⟨a', b', c', d', hw'⟩ : ∃ a b c d, hexWide 4 low = [a, b, c, d] := ⟨_, _, _, _, rfl⟩
  rw [hw] at hrow
  rw [hw'] at hrow'
  rw [unitEscape, unitEscape, hw, hw']
  simp only [List.cons_append, List.nil_append]
  rw [scanText]
  simp only [hrow, hrow', hn, hp, if_true]

/-- A character behind a backslash. -/
theorem scanText_letter {e ch : Char} (he : escapeLetter? e = some ch) (opened : Nat) (x : Char) (rest : List Char) :
    scanText opened ('\\' :: e :: x :: rest) = keep ch (scanText opened (x :: rest)) := by
  have hu : e ≠ 'u' := by
    rintro rfl
    cases he
  rw [scanText]
  · simp only [he]
  all_goals
    intros
    contradiction

/-- A character as it is. -/
theorem scanText_plain {c : Char} (hq : c ≠ '"') (hb : c ≠ '\\') (hc : ¬c.toNat < 0x20) (opened : Nat)
    (rest : List Char) : scanText opened (c :: rest) = keep c (scanText opened rest) := by
  rw [scanText]
  · simp only [hc, if_false]
  all_goals
    intros
    contradiction

/-- **Every character is read as it was written.** -/
theorem scanText_writeChar (opened : Nat) (c x : Char) (rest : List Char) :
    scanText opened (writeChar c ++ x :: rest) = keep c (scanText opened (x :: rest)) := by
  have hvalid := Utf8.toNat_valid c
  simp only [writeChar]
  split
  · rename_i h
    refine scanText_letter ?_ opened x rest
    rcases Bool.or_eq_true_iff.mp h with h | h <;> simp_all [escapeLetter?]
  split
  · rename_i h
    subst h
    exact scanText_letter rfl opened x rest
  split
  · rename_i h
    subst h
    exact scanText_letter rfl opened x rest
  split
  · rename_i h
    subst h
    exact scanText_letter rfl opened x rest
  split
  · rename_i h
    obtain rfl : c = Char.ofNat 8 := by rw [← h, Char.ofNat_toNat]
    exact scanText_letter rfl opened x rest
  split
  · rename_i h
    obtain rfl : c = Char.ofNat 12 := by rw [← h, Char.ofNat_toNat]
    exact scanText_letter rfl opened x rest
  split
  · rename_i hspecial _ _ _ _ _ h
    simp only [Bool.or_eq_true, decide_eq_true_eq, not_or, Bool.and_eq_true] at hspecial h
    exact scanText_plain hspecial.1 hspecial.2 (by omega) opened (x :: rest)
  split
  · rename_i h
    -- one unit, and no half of a pair, since it is a character
    have hchar : characterOf c.toNat = c := by
      rw [characterOf, if_neg (by simp; omega), Char.ofNat_toNat]
    rw [scanText_unit h (by simp [isHighSurrogate]; omega), hchar]
  · rename_i h
    -- two units: the halves put together are the character again
    have hpair : pairOf? (0xd800 + (c.toNat - 0x10000) / 1024) (0xdc00 + (c.toNat - 0x10000) % 1024) = some c := by
      have hcode : 0x10000 + 1024 * (0xd800 + (c.toNat - 0x10000) / 1024 - 0xd800)
          + (0xdc00 + (c.toNat - 0x10000) % 1024 - 0xdc00) = c.toNat := by omega
      rw [pairOf?, if_pos (by simp; omega), hcode, Char.ofNat_toNat]
    exact scanText_pair (by omega) (by omega) (by simp [isHighSurrogate]; omega) hpair opened x rest

/-- **A written text is read up to its closing quote.** -/
theorem scanText_written (opened : Nat) (cs rest : List Char) :
    scanText opened (cs.flatMap writeChar ++ '"' :: rest) = .ok (cs, rest) := by
  induction cs with
  | nil =>
    rw [List.flatMap_nil, List.nil_append, scanText]
  | cons c cs ih =>
    obtain ⟨x, more, hmore⟩ : ∃ x more, cs.flatMap writeChar ++ '"' :: rest = x :: more :=
      List.exists_cons_of_ne_nil (by simp)
    rw [List.flatMap_cons, List.append_assoc, hmore, scanText_writeChar, ← hmore, ih, keep_ok]

/-! ## Objects of texts -/

/-- The object that has a text under each key. -/
def textsOf (fields : List (String × String)) : List (String × Value) := fields.map fun f => (f.1, .text f.2)

/-- The fields that are read one after the other. -/
def putAll (done fields : List (String × Value)) : List (String × Value) :=
  fields.foldl (fun acc f => putField f.1 f.2 acc) done

theorem putField_new {key : String} {fields : List (String × Value)} (hkey : key ∉ fields.map (·.1)) (v : Value) :
    putField key v fields = fields ++ [(key, v)] := by
  induction fields with
  | nil => rfl
  | cons f rest ih =>
    rw [List.map_cons, List.mem_cons, not_or] at hkey
    rw [putField, if_neg (by simpa using Ne.symm hkey.1), ih hkey.2]
    rfl

/-- Where no key comes twice, the fields that are read are the fields. -/
theorem putAll_distinct {done fields : List (String × Value)} (hkeys : ((done ++ fields).map (·.1)).Nodup) :
    putAll done fields = done ++ fields := by
  induction fields generalizing done with
  | nil => exact (List.append_nil done).symm
  | cons f rest ih =>
    have hnew : f.1 ∉ done.map (·.1) := by
      rw [List.map_append, List.map_cons] at hkeys
      exact fun hf => (List.nodup_append.mp hkeys).2.2 _ hf _ List.mem_cons_self rfl
    have hstep : putAll done (f :: rest) = putAll (done ++ [f]) rest := by
      show putAll (putField f.1 f.2 done) rest = _
      rw [putField_new hnew]
    have happend : done ++ [f] ++ rest = done ++ f :: rest := List.append_assoc done [f] rest
    rw [hstep, ih (by rwa [happend]), happend]

/-- The characters of a written text. -/
theorem toList_writeText (s : String) : (writeText s).toList = '"' :: (s.toList.flatMap writeChar ++ ['"']) := by
  rw [writeText, String.toList_ofList]
  rfl

/-- The characters of fields with commas between them. -/
def fieldsChars : List (String × String) → List Char
  | [] => []
  | [f] => (writeText f.1).toList ++ ':' :: ' ' :: (writeText f.2).toList
  | f :: rest => (writeText f.1).toList ++ ':' :: ' ' :: ((writeText f.2).toList ++ ',' :: ' ' :: fieldsChars rest)

theorem fieldsChars_cons (f g : String × String) (more : List (String × String)) :
    fieldsChars (f :: g :: more) =
      (writeText f.1).toList ++ ':' :: ' ' :: ((writeText f.2).toList ++ ',' :: ' ' :: fieldsChars (g :: more)) := by
  rw [fieldsChars]
  simp

theorem toList_commaList (fields : List (String × String)) :
    (commaList (writeFields (textsOf fields))).toList = fieldsChars fields := by
  induction fields with
  | nil => rfl
  | cons f rest ih =>
    cases rest with
    | nil => simp [textsOf, writeFields, commaList, fieldsChars, write]
    | cons g more =>
      rw [fieldsChars_cons, ← ih]
      simp [textsOf, writeFields, commaList, write]

theorem toList_write (fields : List (String × String)) :
    (Value.object (textsOf fields)).write.toList = '\x7b' :: (fieldsChars fields ++ ['\x7d']) := by
  simp [write, ← toList_commaList]

/-! ## Reading them back -/

theorem skipBlanks_written (s : String) (rest : List Char) :
    skipBlanks ((writeText s).toList ++ rest) = (writeText s).toList ++ rest := by
  rw [toList_writeText]
  rfl

theorem skipBlanks_fields (f : String × String) (more : List (String × String)) (rest : List Char) :
    skipBlanks (fieldsChars (f :: more) ++ rest) = fieldsChars (f :: more) ++ rest := by
  cases more with
  | nil =>
    rw [fieldsChars, List.append_assoc]
    exact skipBlanks_written _ _
  | cons g more =>
    rw [fieldsChars_cons, List.append_assoc]
    exact skipBlanks_written _ _

/-- A written text is read up to its end. -/
theorem scanText_text (opened : Nat) (s : String) (rest : List Char) :
    scanText opened (s.toList.flatMap writeChar ++ ['"'] ++ rest) = .ok (s.toList, rest) := by
  rw [List.append_assoc]
  exact scanText_written opened s.toList rest

theorem scanValue_text (depth fuel : Nat) (s : String) (rest : List Char) :
    scanValue depth (fuel + 1) ((writeText s).toList ++ rest) = .ok (.text s, rest) := by
  rw [toList_writeText, List.cons_append, scanValue, scanText_text]
  simp only [bind, Except.bind, pure, Except.pure, String.ofList_toList]

/-- One field is read, and what stands behind it decides. -/
theorem scanFields_field (depth fuel : Nat) (f : String × String) (done : List (String × Value)) (c : Char)
    (hc : isBlank c = false) (rest : List Char) :
    scanFields depth (fuel + 2) done
        ((writeText f.1).toList ++ ':' :: ' ' :: ((writeText f.2).toList ++ c :: rest)) =
      let fields := putField f.1 (.text f.2) done
      if c = '\x7d' then .ok (fields, rest)
      else if c = ',' then scanFields depth (fuel + 1) fields (skipBlanks rest)
      else missing .comma (c :: rest) := by
  have hcolon : ∀ cs, skipBlanks (':' :: cs) = ':' :: cs := fun _ => rfl
  have hspace : ∀ cs, skipBlanks (' ' :: cs) = skipBlanks cs := fun _ => rfl
  have hend : skipBlanks (c :: rest) = c :: rest := by simp [skipBlanks, hc]
  rw [toList_writeText f.1, List.cons_append, scanFields, scanText_text]
  simp only [bind, Except.bind, pure, Except.pure, String.ofList_toList, hcolon, hspace, skipBlanks_written,
    scanValue_text, hend]
  split
  · rename_i heq
    cases heq
    rfl
  · rename_i heq
    cases heq
    rfl
  · rename_i hbrace hcomma
    have h1 : c ≠ '\x7d' := fun h => hbrace rest (by rw [h])
    have h2 : c ≠ ',' := fun h => hcomma rest (by rw [h])
    rw [if_neg h1, if_neg h2]

/-- **Fields that were written are read** up to the closing brace, one after the other. -/
theorem scanFields_written (depth : Nat) {fields : List (String × String)} (hne : fields ≠ []) (fuel : Nat)
    (hfuel : fields.length < fuel) (done : List (String × Value)) (rest : List Char) :
    scanFields depth fuel done (fieldsChars fields ++ '\x7d' :: rest) = .ok (putAll done (textsOf fields), rest) := by
  induction fields generalizing fuel done with
  | nil => exact absurd rfl hne
  | cons f more ih =>
    rw [List.length_cons] at hfuel
    obtain ⟨fuel, rfl⟩ : ∃ n, fuel = n + 2 := ⟨fuel - 2, by omega⟩
    cases more with
    | nil =>
      have hstep := scanFields_field depth fuel f done '\x7d' rfl rest
      rw [if_pos rfl] at hstep
      rw [fieldsChars, List.append_assoc]
      exact hstep
    | cons g more =>
      have hstep := scanFields_field depth fuel f done ',' rfl (' ' :: (fieldsChars (g :: more) ++ '\x7d' :: rest))
      rw [if_neg (by decide), if_pos rfl] at hstep
      have hskip : skipBlanks (' ' :: (fieldsChars (g :: more) ++ '\x7d' :: rest))
          = fieldsChars (g :: more) ++ '\x7d' :: rest := skipBlanks_fields g more _
      have hih := ih (List.cons_ne_nil g more) (fuel + 1) (by omega) (putField f.1 (.text f.2) done)
      rw [hskip, hih] at hstep
      rw [fieldsChars_cons, List.append_assoc, List.cons_append, List.cons_append, List.append_assoc, List.cons_append,
        List.cons_append]
      exact hstep

theorem length_fields (fields : List (String × String)) : fields.length ≤ (fieldsChars fields).length := by
  induction fields with
  | nil => exact Nat.le_refl 0
  | cons f more ih =>
    cases more with
    | nil =>
      rw [fieldsChars]
      simp only [List.length_append, List.length_cons, List.length_nil]
      omega
    | cons g more =>
      rw [fieldsChars_cons]
      simp only [List.length_append, List.length_cons] at ih ⊢
      omega

/-- **An object of texts is read as it was written.** -/
theorem read_texts {fields : List (String × String)} (hne : fields ≠ []) (hkeys : (fields.map (·.1)).Nodup) :
    read (Value.object (textsOf fields)).write.toList = .ok (.object (textsOf fields)) := by
  have hall : putAll [] (textsOf fields) = textsOf fields :=
    putAll_distinct (by simpa [textsOf, Function.comp_def] using hkeys)
  obtain ⟨f, more, rfl⟩ := List.exists_cons_of_ne_nil hne
  obtain ⟨chars, hchars⟩ : ∃ chars, fieldsChars (f :: more) ++ ['\x7d'] = '"' :: chars := by
    cases more with
    | nil => exact ⟨_, by rw [fieldsChars, toList_writeText]; rfl⟩
    | cons g more => exact ⟨_, by rw [fieldsChars_cons, toList_writeText]; rfl⟩
  have hlength := length_fields (f :: more)
  have hfields := scanFields_written 974 hne (2 * ('\x7b' :: (fieldsChars (f :: more) ++ ['\x7d'])).length + 1)
    (by simp only [List.length_cons, List.length_append] at hlength ⊢; omega) [] []
  have hskip := skipBlanks_fields f more ['\x7d']
  rw [hchars, hall] at hfields
  rw [hchars] at hskip
  have hvalue : scanValue maxDepth (2 * ('\x7b' :: '"' :: chars).length + 2) ('\x7b' :: '"' :: chars)
      = .ok (.object (textsOf (f :: more)), []) := by
    rw [scanValue, if_neg (by decide), hskip]
    show (scanFields 974 _ [] _ >>= _) = _
    rw [hfields]
    rfl
  have hopen : skipBlanks ('\x7b' :: '"' :: chars) = '\x7b' :: '"' :: chars := rfl
  rw [toList_write, hchars, read, readChars]
  · rw [hopen, hvalue]
    rfl
  · intro rest h
    cases h

end Leasehold.Json
