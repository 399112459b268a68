/-
  A name as one segment of a path.

  A name is escaped, the URL that it stands in is tidied, the path is cut into segments, the escapes are read, the routes
  are tried, and what is left of the escapes is read.  Here the name is followed on this way, one character after the
  other: after each change of spelling a name is the row of its characters, each of them spelled in its own way.

  1. **`tidyChars_encodeChar`** — the tidy URL shows an escaped character as it is if a path may show it, and leaves the
     escapes of its bytes alone otherwise (`tidied`);
  2. **`decodeSafeFrom_tidied`** — either way the character is read, a slash and a percent sign but for one escape;
  3. **`unwrap_shown`** — and these two are read last.  So every name comes through as long as its segment does;
  4. **`destination_record`** — which it does if it is `Addressable`: it is no dot segment, which the tidy URL would
     resolve, and has no brace, which the route does not take.  Any other name leads nowhere.
-/
import Leasehold.Http.Route
import Leasehold.Proofs.Utf8
namespace Leasehold

namespace Text.Percent

/-! ## Characters that a path shows -/

/-- A property of all characters of a row is looked up in the row, and not among all characters that there are. -/
theorem forall_of_all {p : Char → Prop} [DecidablePred p] {cs : List Char}
    (h : (cs.all fun c => decide (p c)) = true) : ∀ c ∈ cs, p c :=
  fun c hc => of_decide_eq_true (List.all_eq_true.mp h c hc)

theorem shows_of_unreserved {c : Char} (h : isUnreserved c = true) : showsInPath c = true := by
  rw [showsInPath, h, Bool.true_or]

/-- A character that a path shows is ASCII, -/
theorem ascii_of_shows {c : Char} (h : showsInPath c = true) : c.toNat < 128 := by
  have hmark : ∀ d ∈ "@:!$'()*,&=;".toList, d.toNat < 128 := forall_of_all (by decide)
  simp only [showsInPath, isUnreserved, Bool.or_eq_true, decide_eq_true_eq, List.contains_iff_mem] at h
  rcases h with ((((h | rfl) | rfl) | rfl) | rfl) | h
  · delta Char.isAlphanum Char.isAlpha Char.isUpper Char.isLower Char.isDigit at h
    simp only [UInt32.le_iff_toNat_le, Bool.or_eq_true, Bool.and_eq_true, decide_eq_true_eq, ge_iff_le, Char.toNat_val,
      Char.reduceToNat] at h
    omega
  · decide
  · decide
  · decide
  · decide
  · exact hmark c h

/-- and no mark of a URL. -/
theorem plain_of_shows {c : Char} (h : showsInPath c = true) : c ≠ '%' ∧ c ≠ '/' ∧ c ≠ '?' ∧ c ≠ '#' := by
  have hmark : ∀ d ∈ ['%', '/', '?', '#'], ¬showsInPath d = true := forall_of_all (by decide)
  have hne : ∀ d ∈ ['%', '/', '?', '#'], c ≠ d := by
    rintro d hd rfl
    exact hmark c hd h
  exact ⟨hne _ (by decide), hne _ (by decide), hne _ (by decide), hne _ (by decide)⟩

/-! ## Escapes -/

theorem hexDigitUpper_plain {n : Nat} (h : n < 16) : (hexDigitUpper n).toUpper = hexDigitUpper n ∧
    hexDigitUpper n ≠ '/' ∧ hexDigitUpper n ≠ '?' ∧ hexDigitUpper n ≠ '#' := by
  have hall : ∀ k : Fin 16, (hexDigitUpper k.val).toUpper = hexDigitUpper k.val ∧ hexDigitUpper k.val ≠ '/' ∧
      hexDigitUpper k.val ≠ '?' ∧ hexDigitUpper k.val ≠ '#' := by decide
  exact hall ⟨n, h⟩

theorem digits_lt (b : UInt8) : b.toNat / 16 < 16 ∧ b.toNat % 16 < 16 := by
  have hbyte := b.toNat_lt
  omega

/-- The two digits of an escape make up the byte. -/
theorem digits_byte (b : UInt8) : 16 * (b.toNat / 16) + b.toNat % 16 = b.toNat := Nat.div_add_mod _ _

/-! ## The tidy URL -/

/-- **How the tidy URL spells a character of a name.** -/
def tidied (c : Char) : List Char :=
  if showsInPath c then [c] else (String.utf8EncodeChar c).flatMap escapeByte

/-- A character that is no percent sign is spelled for itself, -/
theorem tidyChars_cons {c : Char} (h : c ≠ '%') (rest : List Char) :
    tidyChars (c :: rest) = tidyChar c ++ tidyChars rest := by
  rw [tidyChars.eq_def]
  split
  · rename_i heq
    cases heq
    exact absurd rfl h
  · rename_i heq
    cases heq
    rfl
  · rename_i heq
    cases heq

/-- and an escape is unwritten if its byte is a character that a path shows. -/
theorem tidyChars_escapeByte (b : UInt8) (rest : List Char) : tidyChars (escapeByte b ++ rest) =
    (if showsInPath (Char.ofNat b.toNat) then [Char.ofNat b.toNat] else escapeByte b) ++ tidyChars rest := by
  obtain ⟨hhi, hlo⟩ := digits_lt b
  show tidyChars ('%' :: hexDigitUpper (b.toNat / 16) :: hexDigitUpper (b.toNat % 16) :: rest) = _
  rw [tidyChars.eq_def]
  simp only [hexValue_hexDigitUpper hhi, hexValue_hexDigitUpper hlo, digits_byte, (hexDigitUpper_plain hhi).1,
    (hexDigitUpper_plain hlo).1]
  split <;> rfl

/-- The escapes of bytes that are no ASCII stay. -/
theorem tidyChars_escapes {bytes : List UInt8} (h : ∀ b ∈ bytes, 128 ≤ b.toNat) (rest : List Char) :
    tidyChars (bytes.flatMap escapeByte ++ rest) = bytes.flatMap escapeByte ++ tidyChars rest := by
  induction bytes with
  | nil => rfl
  | cons b bytes ih =>
    have hbyte := b.toNat_lt
    have hchar : (Char.ofNat b.toNat).toNat = b.toNat := by
      rw [Char.ofNat, dif_pos (Or.inl (by omega))]
      rfl
    have hhidden : ¬showsInPath (Char.ofNat b.toNat) = true := fun hshows => by
      have hlt := ascii_of_shows hshows
      have hge := h b List.mem_cons_self
      omega
    rw [List.flatMap_cons, List.append_assoc, tidyChars_escapeByte, if_neg hhidden,
      ih fun b' hb' => h b' (List.mem_cons_of_mem _ hb'), List.append_assoc]

/-- **The tidy URL shows an escaped character as it is, or leaves its escapes alone.** -/
theorem tidyChars_encodeChar (c : Char) (rest : List Char) :
    tidyChars (encodeChar c ++ rest) = tidied c ++ tidyChars rest := by
  by_cases hkept : isUnreserved c = true
  · have hshows := shows_of_unreserved hkept
    rw [encodeChar, if_pos hkept, tidied, if_pos hshows, List.singleton_append,
      tidyChars_cons (plain_of_shows hshows).1, tidyChar, if_pos (by simp [hshows])]
  · rw [encodeChar, if_neg hkept, tidied]
    by_cases hascii : c.toNat < 128
    · have hbyte : (UInt8.ofNat c.toNat).toNat = c.toNat := Utf8.toNat_byte (by omega)
      rw [Utf8.encodeChar_ascii hascii, List.flatMap_singleton, tidyChars_escapeByte, hbyte, Char.ofNat_toNat]
    · rw [if_neg fun hshows => hascii (ascii_of_shows hshows), tidyChars_escapes (Utf8.encodeChar_high hascii)]

/-- A name is tidied character by character. -/
theorem tidyChars_encode (cs : List Char) : tidyChars (cs.flatMap encodeChar) = cs.flatMap tidied := by
  induction cs with
  | nil => rw [List.flatMap_nil, List.flatMap_nil, tidyChars.eq_def]
  | cons c cs ih => rw [List.flatMap_cons, List.flatMap_cons, tidyChars_encodeChar, ih]

/-- No character of a tidy name ends its segment. -/
theorem tidied_plain {c d : Char} (h : d ∈ tidied c) : d ≠ '/' ∧ d ≠ '?' ∧ d ≠ '#' := by
  rw [tidied] at h
  split at h
  · rename_i hshows
    rw [List.mem_singleton.mp h]
    exact (plain_of_shows hshows).2
  · obtain ⟨b, -, hd⟩ := List.mem_flatMap.mp h
    obtain ⟨hhi, hlo⟩ := digits_lt b
    simp only [escapeByte, List.mem_cons, List.not_mem_nil, or_false] at hd
    rcases hd with rfl | rfl | rfl
    · decide
    · exact (hexDigitUpper_plain hhi).2
    · exact (hexDigitUpper_plain hlo).2

/-! ## Reading escapes -/

theorem decodeSafeFrom_cons {c : Char} (h : c ≠ '%') (rest : List Char) :
    decodeSafeFrom [] (c :: rest) = c :: decodeSafeFrom [] rest := by
  rw [decodeSafeFrom.eq_def]
  split
  · rename_i heq
    cases heq
  · rename_i heq
    cases heq
    exact absurd rfl h
  · rename_i heq
    cases heq
    rfl

/-- An escape is put to the pending bytes, and they are read together. -/
theorem decodeSafeFrom_escapeByte (pending : List (UInt8 × List Char)) (b : UInt8) (rest : List Char)
    {reading : Utf8.Reading} (h : Utf8.classify (pending.map (·.1) ++ [b]) = reading) :
    (∀ c, reading = .whole c → decodeSafeFrom pending (escapeByte b ++ rest) = shownSafe c ++ decodeSafeFrom [] rest) ∧
      (reading = .beginning →
        decodeSafeFrom pending (escapeByte b ++ rest) = decodeSafeFrom (pending ++ [(b, escapeByte b)]) rest) := by
  obtain ⟨hhi, hlo⟩ := digits_lt b
  have hbyte : UInt8.ofNat (16 * (b.toNat / 16) + b.toNat % 16) = b := by rw [digits_byte, UInt8.ofNat_toNat]
  have hread : decodeSafeFrom pending (escapeByte b ++ rest) = decodeSafeFrom pending
      ('%' :: hexDigitUpper (b.toNat / 16) :: hexDigitUpper (b.toNat % 16) :: rest) := rfl
  rw [hread, decodeSafeFrom.eq_def]
  simp only [hexValue_hexDigitUpper hhi, hexValue_hexDigitUpper hlo, hbyte, h]
  constructor
  · rintro c rfl
    rfl
  · rintro rfl
    rfl

/-- **The escapes that are left of a character are read to its end.** -/
theorem decodeSafeFrom_escapes {c : Char} {pending : List (UInt8 × List Char)} {more : List UInt8}
    (h : String.utf8EncodeChar c = pending.map (·.1) ++ more) (hmore : more ≠ []) (rest : List Char) :
    decodeSafeFrom pending (more.flatMap escapeByte ++ rest) = shownSafe c ++ decodeSafeFrom [] rest := by
  induction more generalizing pending with
  | nil => exact absurd rfl hmore
  | cons b more ih =>
    have hnext : String.utf8EncodeChar c = pending.map (·.1) ++ [b] ++ more := by
      rw [h, List.append_assoc]
      rfl
    obtain ⟨hwhole, hbeginning⟩ := decodeSafeFrom_escapeByte pending b (more.flatMap escapeByte ++ rest)
      (Utf8.classify_encodeChar hnext (by simp))
    rw [List.flatMap_cons, List.append_assoc]
    cases more with
    | nil => exact hwhole c (if_pos rfl)
    | cons b' more =>
      rw [hbeginning (if_neg (List.cons_ne_nil _ _))]
      exact ih (by simpa using hnext) (List.cons_ne_nil _ _)

/-- **A character of a tidy name is read**, but for the slash and the percent sign, which keep an escape. -/
theorem decodeSafeFrom_tidied (c : Char) (rest : List Char) :
    decodeSafeFrom [] (tidied c ++ rest) = shownSafe c ++ decodeSafeFrom [] rest := by
  rw [tidied]
  split
  · rename_i hshows
    obtain ⟨hpercent, hslash, -⟩ := plain_of_shows hshows
    rw [shownSafe, if_neg hslash, if_neg hpercent]
    exact decodeSafeFrom_cons hpercent rest
  · have hbytes : String.utf8EncodeChar c = ([] : List (UInt8 × List Char)).map (·.1) ++ String.utf8EncodeChar c := rfl
    exact decodeSafeFrom_escapes hbytes String.utf8EncodeChar_ne_nil rest

theorem decodeSafeFrom_name (cs : List Char) : decodeSafeFrom [] (cs.flatMap tidied) = cs.flatMap shownSafe := by
  induction cs with
  | nil => rw [List.flatMap_nil, List.flatMap_nil, decodeSafeFrom.eq_def, rawOf, List.flatMap_nil]
  | cons c cs ih => rw [List.flatMap_cons, List.flatMap_cons, decodeSafeFrom_tidied, ih]

/-! ## The two escapes that are left -/

/-- A character when the slashes are read back. -/
def shownPercent (c : Char) : List Char := if c = '%' then "%25".toList else [c]

theorem unwrapSlash_cons {c : Char} (h : c ≠ '%') (rest : List Char) :
    unwrapSlash (c :: rest) = c :: unwrapSlash rest := by
  rw [unwrapSlash]
  rintro more rfl
  exact absurd rfl h

theorem unwrapPercent_cons {c : Char} (h : c ≠ '%') (rest : List Char) :
    unwrapPercent (c :: rest) = c :: unwrapPercent rest := by
  rw [unwrapPercent]
  rintro more rfl
  exact absurd rfl h

theorem unwrapSlash_shown (c : Char) (rest : List Char) :
    unwrapSlash (shownSafe c ++ rest) = shownPercent c ++ unwrapSlash rest := by
  rw [shownSafe, shownPercent]
  split
  · rename_i h
    subst h
    rfl
  split
  · exact congrArg ('%' :: ·) ((unwrapSlash_cons (by decide) _).trans
      (congrArg ('2' :: ·) (unwrapSlash_cons (by decide) rest)))
  · rename_i h
    exact unwrapSlash_cons h rest

theorem unwrapPercent_shown (c : Char) (rest : List Char) :
    unwrapPercent (shownPercent c ++ rest) = c :: unwrapPercent rest := by
  rw [shownPercent]
  split
  · rename_i h
    subst h
    rfl
  · rename_i h
    exact unwrapPercent_cons h rest

theorem unwrapSlash_name (cs : List Char) : unwrapSlash (cs.flatMap shownSafe) = cs.flatMap shownPercent := by
  induction cs with
  | nil => rfl
  | cons c cs ih => rw [List.flatMap_cons, List.flatMap_cons, unwrapSlash_shown, ih]

/-- **What was left is read back**, and it is the name. -/
theorem unwrap_shown (cs : List Char) : unwrap (cs.flatMap shownSafe) = cs := by
  rw [unwrap, unwrapSlash_name]
  induction cs with
  | nil => rfl
  | cons c cs ih => rw [List.flatMap_cons, unwrapPercent_shown, ih]

/-! ## In front of a segment -/

/-- What stands in a path as it is stays in front, when the path is tidied -/
theorem tidyChars_front {front : List Char} (h : ∀ c ∈ front, c ≠ '%' ∧ tidyChar c = [c]) (rest : List Char) :
    tidyChars (front ++ rest) = front ++ tidyChars rest := by
  induction front with
  | nil => rfl
  | cons c front ih =>
    obtain ⟨hpercent, hkept⟩ := h c List.mem_cons_self
    rw [List.cons_append, tidyChars_cons hpercent, hkept, ih fun d hd => h d (List.mem_cons_of_mem _ hd)]
    rfl

/-- and when its escapes are read. -/
theorem decodeSafeFrom_front {front : List Char} (h : ∀ c ∈ front, c ≠ '%') (rest : List Char) :
    decodeSafeFrom [] (front ++ rest) = front ++ decodeSafeFrom [] rest := by
  induction front with
  | nil => rfl
  | cons c front ih =>
    rw [List.cons_append, decodeSafeFrom_cons (h c List.mem_cons_self), ih fun d hd => h d (List.mem_cons_of_mem _ hd)]
    rfl

theorem resolveSegments_last (done : List String) {s : String} (h : s ≠ "." ∧ s ≠ "..") :
    resolveSegments done [s] = done ++ [s] := by
  rw [resolveSegments.eq_def]
  split
  · rename_i heq
    cases heq
  · rename_i heq
    cases heq
    exact absurd rfl h.1
  · rename_i heq
    cases heq
    exact absurd rfl h.2
  · rename_i heq
    cases heq
    exact absurd rfl h.1
  · rename_i heq
    cases heq
    exact absurd rfl h.2
  · rename_i heq
    cases heq
    rfl

end Text.Percent

namespace Http

open Text.Percent

/-! ## The path of a record -/

/-- **A name that has a path**: it is no dot segment, and it has no brace. -/
structure Addressable (name : String) : Prop where
  here : name ≠ "."
  above : name ≠ ".."
  opening : '\x7b' ∉ name.toList
  closing : '\x7d' ∉ name.toList

instance (name : String) : Decidable (Addressable name) :=
  decidable_of_iff (name ≠ "." ∧ name ≠ ".." ∧ '\x7b' ∉ name.toList ∧ '\x7d' ∉ name.toList)
    ⟨fun h => ⟨h.1, h.2.1, h.2.2.1, h.2.2.2⟩, fun h => ⟨h.here, h.above, h.opening, h.closing⟩⟩

/-- The path of a record as it is asked for. -/
def recordPath (name : String) : String := "/api/lease/" ++ encode name

/-- A name that is spelled as a dot segment is that dot segment. -/
theorem tidied_injective {cs ds : List Char} (h : cs.flatMap tidied = ds.flatMap tidied) : cs = ds := by
  rw [← unwrap_shown cs, ← unwrap_shown ds, ← decodeSafeFrom_name cs, ← decodeSafeFrom_name ds, h]

theorem join_record (segment : String) :
    ("/" ++ "/".intercalate ["api", "lease", segment]).toList = "/api/lease/".toList ++ segment.toList := by
  simp [String.intercalate_cons_cons]

theorem tidyPath_record {name : String} (h : name ≠ "." ∧ name ≠ "..") :
    (tidyPath (recordPath name)).toList = recordFront ++ name.toList.flatMap tidied := by
  have hfront : ∀ c ∈ recordFront, c ≠ '%' ∧ tidyChar c = [c] := forall_of_all (by decide)
  have hpath : (recordPath name).toList = recordFront ++ name.toList.flatMap encodeChar := by
    have hencode : (encode name).toList = name.toList.flatMap encodeChar := String.toList_ofList
    rw [← hencode]
    exact String.toList_append
  have hchars : tidyChars (recordPath name).toList =
      [] ++ '/' :: ("api".toList ++ '/' :: ("lease".toList ++ '/' :: name.toList.flatMap tidied)) := by
    rw [hpath, tidyChars_front hfront, tidyChars_encode]
    rfl
  have hsegment : '/' ∉ name.toList.flatMap tidied := fun hslash => by
    obtain ⟨c, -, hc⟩ := List.mem_flatMap.mp hslash
    exact (tidied_plain hc).1 rfl
  have hsplit : ((tidyChars (recordPath name).toList).splitOn '/').map String.ofList =
      ["", "api", "lease", String.ofList (name.toList.flatMap tidied)] := by
    rw [hchars, List.splitOn_append_cons_self_of_not_mem (by decide), List.splitOn_append_cons_self_of_not_mem (by decide),
      List.splitOn_append_cons_self_of_not_mem (by decide), List.splitOn_eq_singleton hsegment]
    rfl
  have hdots : ∀ dots : String, dots.toList.flatMap tidied = dots.toList → name ≠ dots →
      String.ofList (name.toList.flatMap tidied) ≠ dots := by
    intro dots hself hne heq
    refine hne (String.toList_inj.mp (tidied_injective ?_))
    rw [hself, ← heq, String.toList_ofList]
  have hlast := resolveSegments_last ["api", "lease"] ⟨hdots "." (by decide) h.1, hdots ".." (by decide) h.2⟩
  rw [tidyPath, hsplit]
  show ("/" ++ "/".intercalate (resolveSegments ["api", "lease"] [_])).toList = _
  rw [hlast]
  exact (join_record _).trans (congrArg (recordFront ++ ·) String.toList_ofList)

/-! ## The route of a record -/

/-- But for the characters of the two escapes, the segment of a name has those of the name, and no slash. -/
theorem mem_shown {cs : List Char} {d : Char} (h : d ∉ "%2F5".toList) :
    d ∈ cs.flatMap shownSafe ↔ d ∈ cs ∧ d ≠ '/' := by
  have hslash : ∀ e ∈ "%2F".toList, e ∈ "%2F5".toList := forall_of_all (by decide)
  have hpercent : ∀ e ∈ "%25".toList, e ∈ "%2F5".toList := forall_of_all (by decide)
  have hone : ∀ c, d ∈ shownSafe c ↔ c = d ∧ d ≠ '/' := by
    intro c
    rw [shownSafe]
    split
    · refine iff_of_false (fun hd => h (hslash d hd)) ?_
      rintro ⟨rfl, hne⟩
      exact hne ‹_›
    split
    · refine iff_of_false (fun hd => h (hpercent d hd)) ?_
      rintro ⟨rfl, -⟩
      exact h (hpercent c (by rw [‹c = '%'›]; decide))
    · rename_i hne _
      rw [List.mem_singleton]
      constructor
      · rintro rfl
        exact ⟨rfl, hne⟩
      · exact fun hd => hd.1.symm
  simp only [List.mem_flatMap, hone]
  constructor
  · rintro ⟨c, hc, rfl, hne⟩
    exact ⟨hc, hne⟩
  · rintro ⟨hc, hne⟩
    exact ⟨d, hc, rfl, hne⟩

/-- The segment of a name is that of a record, unless it is empty or has a brace. -/
theorem recordName_shown (cs : List Char) : recordName? (recordFront ++ cs.flatMap shownSafe) =
    if cs = [] ∨ '\x7b' ∈ cs ∨ '\x7d' ∈ cs then none else some (String.ofList cs) := by
  have hempty : (cs.flatMap shownSafe).isEmpty = true ↔ cs = [] := by
    cases cs with
    | nil => simp
    | cons c cs =>
      refine iff_of_false (fun h => ?_) (List.cons_ne_nil c cs)
      have hname := unwrap_shown (c :: cs)
      rw [List.isEmpty_iff.mp h] at hname
      cases hname
  have hslash : '/' ∉ cs.flatMap shownSafe := fun h => ((mem_shown (by decide)).mp h).2 rfl
  have hopening : '\x7b' ∈ cs.flatMap shownSafe ↔ '\x7b' ∈ cs :=
    (mem_shown (by decide)).trans (and_iff_left (by decide))
  have hclosing : '\x7d' ∈ cs.flatMap shownSafe ↔ '\x7d' ∈ cs :=
    (mem_shown (by decide)).trans (and_iff_left (by decide))
  have hstops : ((cs.flatMap shownSafe).any fun c => c = '/' || c = '\x7b' || c = '\x7d') = true ↔
      '\x7b' ∈ cs ∨ '\x7d' ∈ cs := by
    rw [← hopening, ← hclosing, List.any_eq_true]
    simp only [Bool.or_eq_true, decide_eq_true_eq]
    constructor
    · rintro ⟨c, hc, (rfl | rfl) | rfl⟩
      · exact absurd hc hslash
      · exact .inl hc
      · exact .inr hc
    · rintro (hc | hc)
      · exact ⟨_, hc, .inl (.inr rfl)⟩
      · exact ⟨_, hc, .inr rfl⟩
  have hfront : recordFront.isPrefixOf (recordFront ++ cs.flatMap shownSafe) = true := by
    rw [List.isPrefixOf_iff_prefix]
    exact List.prefix_append _ _
  simp only [recordName?, hfront, if_true, List.drop_left, Bool.or_eq_true, hempty, hstops, unwrap_shown]

/-- A path with a name leads to the record, since the fixed routes that have such a path take only writes; -/
theorem destination_of_name {target name : String} {segment : List Char}
    (h : decodeSafe (pathOf target) = recordFront ++ segment)
    (hname : recordName? (recordFront ++ segment) = some name) : destination "GET" target = .route (.record name) := by
  have hfixed : ∀ r ∈ [Route.acquire, .update, .status, .metrics, .health],
      recordFront.isPrefixOf r.path.toList = true → r.methods.contains "GET" = false := by decide +kernel
  have hnone : (([Route.acquire, .update, .status, .metrics, .health].filter fun r =>
      r.path.toList = recordFront ++ segment).find? fun r => r.methods.contains "GET") = none := by
    refine List.find?_eq_none.mpr fun r hr => ?_
    obtain ⟨hmem, hpath⟩ := List.mem_filter.mp hr
    rw [hfixed r hmem]
    · nofun
    · rw [of_decide_eq_true hpath, List.isPrefixOf_iff_prefix]
      exact List.prefix_append _ _
  simp only [destination, routesOf, h, hname, List.find?_append, hnone]
  rfl

/-- and one with a brace leads nowhere. -/
theorem destination_of_brace {target : String} {segment : List Char}
    (h : decodeSafe (pathOf target) = recordFront ++ segment)
    (hname : recordName? (recordFront ++ segment) = none) (hbrace : '\x7b' ∈ segment ∨ '\x7d' ∈ segment) :
    destination "GET" target = .nowhere := by
  have hfixed : ∀ r ∈ [Route.acquire, .update, .status, .metrics, .health],
      '\x7b' ∉ r.path.toList ∧ '\x7d' ∉ r.path.toList := by decide +kernel
  have hnil : ([Route.acquire, .update, .status, .metrics, .health].filter fun r =>
      r.path.toList = recordFront ++ segment) = [] := by
    refine List.filter_eq_nil_iff.mpr fun r hr hpath => ?_
    obtain ⟨hopening, hclosing⟩ := hfixed r hr
    rw [of_decide_eq_true hpath] at hopening hclosing
    exact hbrace.elim (fun hb => hopening (List.mem_append_right _ hb)) fun hb => hclosing (List.mem_append_right _ hb)
  simp only [destination, routesOf, h, hname, hnil]
  rfl

/-- **Where a name leads.**  The path of a record leads to the record of that very name if the name is addressable, and
nowhere otherwise. -/
theorem destination_record {name : String} (hname : name ≠ "") : destination "GET" (tidyPath (recordPath name)) =
    if Addressable name then .route (.record name) else .nowhere := by
  by_cases hhere : name = "."
  · rw [hhere]
    decide +kernel
  by_cases habove : name = ".."
  · rw [habove]
    decide +kernel
  have hplain : ∀ c ∈ recordFront ++ name.toList.flatMap tidied, (c ≠ '?' && c ≠ '#') = true := by
    intro c hc
    rcases List.mem_append.mp hc with hc | hc
    · have hfront : ∀ c ∈ recordFront, (c ≠ '?' && c ≠ '#') = true := forall_of_all (by decide)
      exact hfront c hc
    · obtain ⟨d, -, hd⟩ := List.mem_flatMap.mp hc
      simpa using (tidied_plain hd).2
  have htake : (recordFront ++ name.toList.flatMap tidied).takeWhile (fun c => c ≠ '?' && c ≠ '#') =
      recordFront ++ name.toList.flatMap tidied := by
    rw [← List.append_nil (recordFront ++ _), List.takeWhile_append_of_pos hplain]
    rfl
  have hpath : decodeSafe (pathOf (tidyPath (recordPath name))) = recordFront ++ name.toList.flatMap shownSafe := by
    rw [pathOf, tidyPath_record ⟨hhere, habove⟩, htake, decodeSafe, decodeSafeFrom_front (forall_of_all (by decide)),
      decodeSafeFrom_name]
  have hread := recordName_shown name.toList
  have hsome : name.toList ≠ [] := fun hnil => hname (String.toList_eq_nil_iff.mp hnil)
  by_cases hbrace : '\x7b' ∈ name.toList ∨ '\x7d' ∈ name.toList
  · rw [if_pos (.inr hbrace)] at hread
    rw [if_neg fun haddress => hbrace.elim haddress.opening haddress.closing]
    refine destination_of_brace hpath hread (hbrace.imp ?_ ?_)
    · exact fun h => (mem_shown (by decide)).mpr ⟨h, by decide⟩
    · exact fun h => (mem_shown (by decide)).mpr ⟨h, by decide⟩
  · rw [if_neg (not_or.mpr ⟨hsome, hbrace⟩), String.ofList_toList] at hread
    rw [if_pos ⟨hhere, habove, fun h => hbrace (.inl h), fun h => hbrace (.inr h)⟩]
    exact destination_of_name hpath hread

end Http
end Leasehold
