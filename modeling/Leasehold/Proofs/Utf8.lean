/-
  UTF-8 is read as it was written.

  A character is written as a lead byte and the tail that this byte asks for (`Spells`), in one of four lengths
  (`spells_one` to `spells_four`).

  1. **`classify_encodeChar`** — hence every front of its bytes is the beginning of a character, and all of them together
     are the character itself.  This is all that a reader needs, whatever it does with the bytes;
  2. **`decode_encode`** — so any text is read from its bytes, by the codec of a body too (`codec_decode_encode`).  The
     induction is over the characters, and for each of them over the bytes that are still to come (`decodeFrom_char`).
-/
import Leasehold.Text.Charset
namespace Leasehold.Text.Utf8

/-! ## Numbers of characters and bytes -/

/-- The number of a character is no surrogate. -/
theorem toNat_valid (c : Char) : c.toNat < 0xd800 ∨ 0xdfff < c.toNat ∧ c.toNat < 0x110000 := c.valid

theorem toNat_byte {n : Nat} (h : n < 256) : (UInt8.ofNat n).toNat = n := by
  rw [UInt8.toNat_ofNat', Nat.mod_eq_of_lt h]

/-- The continuation byte that holds the last six bits of a number. -/
def tailByte (n : Nat) : UInt8 := UInt8.ofNat (n % 64 + 128)

theorem toNat_tailByte (n : Nat) : (tailByte n).toNat = n % 64 + 128 := toNat_byte (by omega)

theorem isContinuation_tailByte (n : Nat) : isContinuation (tailByte n) = true := by
  simp only [isContinuation, UInt8.le_iff_toNat_le, toNat_tailByte, UInt8.reduceToNat, Bool.and_eq_true,
    decide_eq_true_eq]
  omega

/-! ## Rows of bytes that spell a character -/

/-- **A row of bytes that spells a character**: a lead byte, and the tail that it asks for. -/
structure Spells (c : Char) (lead : UInt8) (tail : List UInt8) : Prop where
  length : lengthOf? lead = some (tail.length + 1)
  second : ∀ b ∈ tail.head?, (secondByteRange lead).1 ≤ b ∧ b ≤ (secondByteRange lead).2
  continues : ∀ b ∈ tail, isContinuation b = true
  char : Char.ofNat (codePoint (leadBits lead (tail.length + 1)) tail) = c

/-- Every front of such a row is a beginning, and the whole row is the character. -/
theorem Spells.classify_front {c : Char} {lead : UInt8} {begun more : List UInt8} (h : Spells c lead (begun ++ more)) :
    classify (lead :: begun) = if more = [] then .whole c else .beginning := by
  have hall : begun.all isContinuation = true :=
    List.all_eq_true.mpr fun b hb => h.continues b (List.mem_append_left _ hb)
  have hshort : ¬(begun ++ more).length + 1 ≤ begun.length := by
    rw [List.length_append]
    omega
  have hwhole : begun.length + 1 = (begun ++ more).length + 1 ↔ more = [] := by simp
  have hchar : more = [] → Char.ofNat (codePoint (leadBits lead ((begun ++ more).length + 1)) begun) = c := by
    rintro rfl
    simpa using h.char
  have hreading : (if begun.length + 1 = (begun ++ more).length + 1 then
      .whole (Char.ofNat (codePoint (leadBits lead ((begun ++ more).length + 1)) begun)) else .beginning) =
      if more = [] then Reading.whole c else .beginning := by
    simp only [hwhole]
    split
    · rw [hchar ‹_›]
    · rfl
  rw [← hreading]
  cases begun with
  | nil => simp [classify, h.length]
  | cons second rest =>
    have hfits := h.second second rfl
    simp only [classify, h.length, hall, hshort, hfits, decide_true, decide_false, Bool.and_self, Bool.not_true,
      Bool.or_self]
    rfl

/-- The second byte is held to a narrower range behind four of the lead bytes. -/
theorem second_fits {lead second : UInt8} (h : 0x80 ≤ second.toNat ∧ second.toNat ≤ 0xbf)
    (he0 : lead.toNat = 0xe0 → 0xa0 ≤ second.toNat) (hed : lead.toNat = 0xed → second.toNat ≤ 0x9f)
    (hf0 : lead.toNat = 0xf0 → 0x90 ≤ second.toNat) (hf4 : lead.toNat = 0xf4 → second.toNat ≤ 0x8f) :
    (secondByteRange lead).1 ≤ second ∧ second ≤ (secondByteRange lead).2 := by
  simp only [secondByteRange, ← UInt8.toNat_inj, UInt8.le_iff_toNat_le]
  split
  · exact ⟨he0 ‹_›, h.2⟩
  split
  · exact ⟨h.1, hed ‹_›⟩
  split
  · exact ⟨hf0 ‹_›, h.2⟩
  split
  · exact ⟨h.1, hf4 ‹_›⟩
  · exact h

/-! ## The four lengths -/

theorem spells_one {c : Char} (h : c.toNat ≤ 0x7f) : Spells c (UInt8.ofNat c.toNat) [] where
  length := by
    simp only [lengthOf?, UInt8.lt_iff_toNat_lt, UInt8.reduceToNat, toNat_byte (show c.toNat < 256 by omega)]
    rw [if_pos (by omega)]
    rfl
  second := nofun
  continues := nofun
  char := by
    show Char.ofNat (UInt8.ofNat c.toNat).toNat = c
    rw [toNat_byte (by omega), Char.ofNat_toNat]

theorem spells_two {c : Char} (h : ¬c.toNat ≤ 0x7f) (h' : c.toNat ≤ 0x7ff) :
    Spells c (UInt8.ofNat (c.toNat / 64 % 32 + 192)) [tailByte c.toNat] := by
  have hlead : (UInt8.ofNat (c.toNat / 64 % 32 + 192)).toNat = c.toNat / 64 % 32 + 192 := toNat_byte (by omega)
  constructor
  · simp only [lengthOf?, UInt8.lt_iff_toNat_lt, UInt8.le_iff_toNat_le, UInt8.reduceToNat, hlead, Bool.and_eq_true,
      decide_eq_true_eq]
    rw [if_neg (by omega), if_pos (by omega)]
    rfl
  · rintro _ ⟨⟩
    apply second_fits <;> rw [toNat_tailByte] <;> omega
  · simp only [List.forall_mem_singleton, isContinuation_tailByte]
  · have hsum : 64 * ((c.toNat / 64 % 32 + 192) % 32) + (c.toNat % 64 + 128) % 64 = c.toNat := by omega
    simp only [codePoint, leadBits, List.length_cons, List.length_nil, List.foldl_cons, List.foldl_nil, hlead,
      toNat_tailByte]
    rw [hsum, Char.ofNat_toNat]

theorem spells_three {c : Char} (h : ¬c.toNat ≤ 0x7ff) (h' : c.toNat ≤ 0xffff) :
    Spells c (UInt8.ofNat (c.toNat / 4096 % 16 + 224)) [tailByte (c.toNat / 64), tailByte c.toNat] := by
  have hlead : (UInt8.ofNat (c.toNat / 4096 % 16 + 224)).toNat = c.toNat / 4096 % 16 + 224 := toNat_byte (by omega)
  have hvalid := toNat_valid c
  constructor
  · simp only [lengthOf?, UInt8.lt_iff_toNat_lt, UInt8.le_iff_toNat_le, UInt8.reduceToNat, hlead, Bool.and_eq_true,
      decide_eq_true_eq]
    rw [if_neg (by omega), if_neg (by omega), if_pos (by omega)]
    rfl
  · -- behind 0xed the surrogates would come
    rintro _ ⟨⟩
    apply second_fits <;> rw [toNat_tailByte] <;> omega
  · simp only [List.forall_mem_cons, isContinuation_tailByte, true_and]
    nofun
  · have hsum : 64 * (64 * ((c.toNat / 4096 % 16 + 224) % 16) + (c.toNat / 64 % 64 + 128) % 64) +
        (c.toNat % 64 + 128) % 64 = c.toNat := by omega
    simp only [codePoint, leadBits, List.length_cons, List.length_nil, List.foldl_cons, List.foldl_nil, hlead,
      toNat_tailByte]
    rw [hsum, Char.ofNat_toNat]

theorem spells_four {c : Char} (h : ¬c.toNat ≤ 0xffff) :
    Spells c (UInt8.ofNat (c.toNat / 262144 % 8 + 240))
      [tailByte (c.toNat / 4096), tailByte (c.toNat / 64), tailByte c.toNat] := by
  have hlead : (UInt8.ofNat (c.toNat / 262144 % 8 + 240)).toNat = c.toNat / 262144 % 8 + 240 := toNat_byte (by omega)
  have hvalid := toNat_valid c
  constructor
  · simp only [lengthOf?, UInt8.lt_iff_toNat_lt, UInt8.le_iff_toNat_le, UInt8.reduceToNat, hlead, Bool.and_eq_true,
      decide_eq_true_eq]
    rw [if_neg (by omega), if_neg (by omega), if_neg (by omega), if_pos (by omega)]
    rfl
  · -- behind 0xf4 the numbers past the last character would come
    rintro _ ⟨⟩
    apply second_fits <;> rw [toNat_tailByte] <;> omega
  · simp only [List.forall_mem_cons, isContinuation_tailByte, true_and]
    nofun
  · have hsum : 64 * (64 * (64 * ((c.toNat / 262144 % 8 + 240) % 8) + (c.toNat / 4096 % 64 + 128) % 64) +
        (c.toNat / 64 % 64 + 128) % 64) + (c.toNat % 64 + 128) % 64 = c.toNat := by omega
    simp only [codePoint, leadBits, List.length_cons, List.length_nil, List.foldl_cons, List.foldl_nil, hlead,
      toNat_tailByte]
    rw [hsum, Char.ofNat_toNat]

/-! ## Characters and their bytes -/

theorem encodeChar_ascii {c : Char} (h : c.toNat < 128) : String.utf8EncodeChar c = [UInt8.ofNat c.toNat] :=
  if_pos (Nat.le_of_lt_succ h)

/-- The bytes of any other character are no ASCII. -/
theorem encodeChar_high {c : Char} (h : ¬c.toNat < 128) : ∀ b ∈ String.utf8EncodeChar c, 128 ≤ b.toNat := by
  have hone : ¬c.val.toNat ≤ 0x7f := fun hle => h (Nat.lt_succ_of_le hle)
  simp only [String.utf8EncodeChar, hone, if_false]
  split
  · simp only [List.forall_mem_cons, UInt8.toNat_ofNat']
    exact ⟨by omega, by omega, nofun⟩
  split
  · simp only [List.forall_mem_cons, UInt8.toNat_ofNat']
    exact ⟨by omega, by omega, by omega, nofun⟩
  · simp only [List.forall_mem_cons, UInt8.toNat_ofNat']
    exact ⟨by omega, by omega, by omega, by omega, nofun⟩

/-- The bytes of a character spell it. -/
theorem encodeChar_spells (c : Char) : ∃ lead tail, String.utf8EncodeChar c = lead :: tail ∧ Spells c lead tail := by
  by_cases h1 : c.toNat ≤ 0x7f
  · exact ⟨_, _, encodeChar_ascii (Nat.lt_succ_of_le h1), spells_one h1⟩
  by_cases h2 : c.toNat ≤ 0x7ff
  · exact ⟨_, _, (if_neg h1).trans (if_pos h2), spells_two h1 h2⟩
  by_cases h3 : c.toNat ≤ 0xffff
  · exact ⟨_, _, (if_neg h1).trans ((if_neg h2).trans (if_pos h3)), spells_three h2 h3⟩
  · exact ⟨_, _, (if_neg h1).trans ((if_neg h2).trans (if_neg h3)), spells_four h3⟩

/-- **Every front of a character's bytes is a beginning**, and all of them are the character. -/
theorem classify_encodeChar {c : Char} {begun more : List UInt8} (h : String.utf8EncodeChar c = begun ++ more)
    (hbegun : begun ≠ []) : classify begun = if more = [] then .whole c else .beginning := by
  obtain ⟨lead, tail, hbytes, hspells⟩ := encodeChar_spells c
  obtain ⟨first, begun, rfl⟩ := List.exists_cons_of_ne_nil hbegun
  rw [hbytes, List.cons_append] at h
  obtain ⟨rfl, rfl⟩ := List.cons.inj h
  exact hspells.classify_front

/-! ## Texts and their bytes -/

/-- The bytes that are left of a character are read to its end. -/
theorem decodeFrom_char {c : Char} {pending more : List UInt8} (h : String.utf8EncodeChar c = pending ++ more)
    (hmore : more ≠ []) (place : Nat) (rest : List UInt8) :
    ∃ place', decodeFrom place pending (more ++ rest) = (decodeFrom place' [] rest).map (c :: ·) := by
  induction more generalizing pending with
  | nil => exact absurd rfl hmore
  | cons b more ih =>
    have hnext : String.utf8EncodeChar c = pending ++ [b] ++ more := by
      rw [h, List.append_assoc]
      rfl
    have hreading := classify_encodeChar hnext (by simp)
    cases more with
    | nil =>
      rw [if_pos rfl] at hreading
      exact ⟨place + pending.length + 1, by simp only [List.cons_append, List.nil_append, decodeFrom, hreading]⟩
    | cons b' more =>
      rw [if_neg (List.cons_ne_nil _ _)] at hreading
      obtain ⟨place', hrest⟩ := ih hnext (List.cons_ne_nil _ _)
      exact ⟨place', by simp only [← hrest, List.cons_append, decodeFrom, hreading]⟩

/-- **Any text is read from its bytes.** -/
theorem decode_encode (cs : List Char) : decode (encode cs) = .ok cs := by
  suffices hfrom : ∀ place, decodeFrom place [] (encode cs) = .ok cs from hfrom 0
  induction cs with
  | nil => exact fun _ => rfl
  | cons c cs ih =>
    intro place
    obtain ⟨place', hchar⟩ :=
      decodeFrom_char (List.nil_append _).symm (String.utf8EncodeChar_ne_nil (c := c)) place (encode cs)
    show decodeFrom place [] (String.utf8EncodeChar c ++ encode cs) = _
    rw [hchar, ih place']
    rfl

/-- So does the codec that reads bodies. -/
theorem codec_decode_encode (cs : List Char) : Charset.utf8.codec.decode (encode cs) = .ok cs := by
  show (decode (encode cs)).mapError _ = _
  rw [decode_encode]
  rfl

end Leasehold.Text.Utf8
