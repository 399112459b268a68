/-
  Everything that may come back from a server, and what a client makes of it.

  After a request the exchange may break down, before a response began or while its body was read; or a whole response
  comes back, with any status, any content type and any body.  That is a `ServerReply`.

  What the client makes of it is one of four things (`Sense`):

  1. a RECORD, which only a status of 200 brings (`Grants`);
  2. an UNMET condition, which is a status of 409 (`Refuses`);
  3. NOTHING that can be used, which is a failed call;
  4. an ESCAPE: an error that the client does not catch (`Escapes`).  There are three of them, and no others: a
     `LookupError` for a body in a coding that is no charset, a `RecursionError` for JSON that is nested too deep, and an
     `OverflowError` for a record with a time that lies outside the years 1 to 9999 in UTC.

  **`write_heard`** is the fact that is used from here on: a write comes to what the sense of its reply says.

  Between the reply and its sense stand three readers, of timestamps, of records and of JSON.  For each of them there is one
  lemma that tells every fault it may end in: `ofTimestamp_fault`, `ofFields_fault` and `readJson_fault`.
-/
import Leasehold.Proofs.Client
namespace Leasehold

/-! ## The faults of a timestamp -/

namespace Instant

/-- A count of microseconds that is no moment lies outside the calendar, -/
theorem ofMicros_fault {micros : Int} {fault : TimeFault} (h : ofMicros micros = .error fault) :
    fault = .outOfCalendar := by
  simp only [ofMicros] at h
  split at h
  · cases h
  · cases h
    rfl

/-- parts that are no date and time are malformed, unless they lie outside the calendar, -/
theorem ofParts_fault {date : Calendar.Date} {hour minute second micro : Nat} {fault : TimeFault}
    (h : ofParts date hour minute second micro = .error fault) : fault = .outOfCalendar ∨ fault.kind = .malformed := by
  simp only [ofParts] at h
  iterate 6
    split at h
    · cases h
      exact .inr rfl
  exact .inl (ofMicros_fault h)

end Instant

/-- a week without a year is malformed, -/
theorem IsoReader.WrittenDate.resolve_fault {written : WrittenDate} {fault : TimeFault}
    (h : written.resolve = .error fault) : fault.kind = .malformed := by
  cases written with
  | parts date => cases h
  | weekday number =>
    simp only [resolve] at h
    split at h
    · cases h
      rfl
    split at h
    · cases h
      rfl
    · cases h

/-- **and so a text that is no timestamp is malformed, or spells a time outside the calendar.** -/
theorem Instant.ofTimestamp_fault {text : String} {fault : TimeFault} (h : ofTimestamp text = .error fault) :
    fault = .outOfCalendar ∨ fault.kind = .malformed := by
  simp only [ofTimestamp, IsoReader.readMoment] at h
  split at h
  · cases h
    exact .inr rfl
  split at h
  · cases h
    exact .inr rfl
  -- the date, the time of day, and their moment in UTC
  rcases Except.bind_error h with hdate | ⟨date, -, h⟩
  · exact .inr (IsoReader.WrittenDate.resolve_fault hdate)
  rcases Except.bind_error h with hwall | ⟨wall, -, h⟩
  · exact ofParts_fault hwall
  · exact .inl (ofMicros_fault h)

/-! ## The faults of a record -/

namespace LeaseRecord

/-- **Fields that spell a record** that ends at a moment: it has a name, and when the lock was taken is left out, blank, or
a time that can be read. -/
structure Spells (fields : List (String × Value)) (ending : Instant) : Prop where
  named : (Value.field? nameKey fields).isSome
  ends : ∃ text, Value.field? lockUntilKey fields = some (.text text) ∧ Instant.ofTimestamp text = .ok ending
  taken : ∀ v, Value.field? lockedAtKey fields = some v → v.truthy = true →
    ∃ text at', v = .text text ∧ Instant.ofTimestamp text = .ok at'

/-- **Fields whose reading overflows**: they name a record, and its end is a timestamp outside the years 1 to 9999 in UTC, or
its end can be read and when it was taken is such a timestamp. -/
inductive Overflows (fields : List (String × Value)) : Prop where
  | ends {text : String} (named : (Value.field? nameKey fields).isSome)
      (ends : Value.field? lockUntilKey fields = some (.text text))
      (overflows : Instant.ofTimestamp text = .error .outOfCalendar)
  | taken {until' text : String} {ending : Instant} (named : (Value.field? nameKey fields).isSome)
      (ends : Value.field? lockUntilKey fields = some (.text until')) (ending : Instant.ofTimestamp until' = .ok ending)
      (taken : Value.field? lockedAtKey fields = some (.text text)) (given : text ≠ "")
      (overflows : Instant.ofTimestamp text = .error .outOfCalendar)

theorem readTime_ok {v : Value} {i : Instant} (h : readTime v = .ok i) :
    ∃ text, v = .text text ∧ Instant.ofTimestamp text = .ok i := by
  cases v with
  | text s => exact ⟨s, rfl, Except.mapError_ok h⟩
  | _ => cases h

/-- A value that is no time is a fault in the data, or a time outside the calendar. -/
theorem readTime_fault {v : Value} {e : Error} (h : readTime v = .error e) :
    e.isDataFault = true ∨
      ∃ text, v = .text text ∧ Instant.ofTimestamp text = .error .outOfCalendar ∧ e = .time .outOfCalendar := by
  cases v with
  | text s =>
    obtain ⟨fault, hs, rfl⟩ := Except.mapError_error h
    rcases Instant.ofTimestamp_fault hs with rfl | hkind
    · exact .inr ⟨s, rfl, hs, rfl⟩
    · have hvalue : (Error.time fault).kind = .value := by simp only [Error.kind, hkind]
      refine .inl ?_
      simp only [Error.isDataFault, Error.isA, hvalue]
      rfl
  | _ =>
    cases h
    exact .inl rfl

/-- So is one that may be missing or blank. -/
theorem readOptionalTime_fault {key : String} {fields : List (String × Value)} {e : Error}
    (h : readOptionalTime key fields = .error e) :
    e.isDataFault = true ∨ ∃ text, Value.field? key fields = some (.text text) ∧ text ≠ "" ∧
      Instant.ofTimestamp text = .error .outOfCalendar ∧ e = .time .outOfCalendar := by
  simp only [readOptionalTime] at h
  split at h
  · rename_i v hv
    split at h
    · rename_i htrue
      cases hread : readTime v with
      | ok i =>
        rw [hread] at h
        cases h
      | error fault =>
        rw [hread] at h
        cases h
        rcases readTime_fault hread with hdata | ⟨text, rfl, htext, rfl⟩
        · exact .inl hdata
        · exact .inr ⟨text, hv, bne_iff_ne.mp htrue, htext, rfl⟩
    · cases h
  · cases h

theorem required_ok {key : String} {fields : List (String × Value)} {v : Value} (h : required key fields = .ok v) :
    Value.field? key fields = some v := by
  simp only [required] at h
  split at h
  · cases h
    assumption
  · cases h

theorem required_fault {key : String} {fields : List (String × Value)} {e : Error} (h : required key fields = .error e) :
    e.isDataFault = true := by
  simp only [required] at h
  split at h
  · cases h
  · cases h
    rfl

/-- A record that can be read is spelled by its fields. -/
theorem ofFields_spells {fields : List (String × Value)} {r : LeaseRecord} (h : ofFields fields = .ok r) :
    Spells fields r.lockUntil := by
  obtain ⟨name, hname, h⟩ := Except.bind_ok h
  obtain ⟨until', huntil, h⟩ := Except.bind_ok h
  obtain ⟨ending, hending, h⟩ := Except.bind_ok h
  obtain ⟨at', hat, h⟩ := Except.bind_ok h
  cases h
  obtain ⟨text, rfl, htext⟩ := readTime_ok hending
  refine ⟨Option.isSome_of_eq_some (required_ok hname), ⟨text, required_ok huntil, htext⟩, ?_⟩
  intro v hv htrue
  simp only [readOptionalTime, hv, htrue, if_true] at hat
  obtain ⟨i, hi, -⟩ := Except.map_ok hat
  obtain ⟨taken, rfl, htaken⟩ := readTime_ok hi
  exact ⟨taken, i, rfl, htaken⟩

/-- **Fields that spell a record can be read**, and the record ends when they say. -/
theorem Spells.ofFields {fields : List (String × Value)} {ending : Instant} (h : Spells fields ending) :
    ∃ r, ofFields fields = .ok r ∧ r.lockUntil = ending := by
  obtain ⟨name, hname⟩ := Option.isSome_iff_exists.mp h.named
  obtain ⟨text, huntil, htext⟩ := h.ends
  have hu : readTime (.text text) = .ok ending := by rw [readTime, htext]; rfl
  have hat : ∃ at', readOptionalTime lockedAtKey fields = .ok at' := by
    simp only [readOptionalTime]
    cases hv : Value.field? lockedAtKey fields with
    | none => exact ⟨none, rfl⟩
    | some v =>
      by_cases htrue : v.truthy = true
      · obtain ⟨taken, i, rfl, htaken⟩ := h.taken v hv htrue
        refine ⟨some i, ?_⟩
        simp only [htrue, if_true, readTime, htaken]
        rfl
      · exact ⟨none, by simp only [htrue]; rfl⟩
  obtain ⟨at', hat⟩ := hat
  exact ⟨_, ofFields_ok hname huntil hu hat, rfl⟩

/-- **What is wrong with fields that spell no record** is a fault in the data, or a time outside the calendar. -/
theorem ofFields_fault {fields : List (String × Value)} {e : Error} (h : ofFields fields = .error e) :
    e.isDataFault = true ∨ (Overflows fields ∧ e = .time .outOfCalendar) := by
  -- the fields are read one after the other, and the first that is wrong is told
  rcases Except.bind_error h with hname | ⟨name, hname, h⟩
  · exact .inl (required_fault hname)
  have hnamed : (Value.field? nameKey fields).isSome := Option.isSome_of_eq_some (required_ok hname)
  rcases Except.bind_error h with huntil | ⟨until', huntil, h⟩
  · exact .inl (required_fault huntil)
  rcases Except.bind_error h with hends | ⟨ending, hends, hrest⟩
  · rcases readTime_fault hends with hdata | ⟨text, rfl, htext, rfl⟩
    · exact .inl hdata
    · exact .inr ⟨.ends hnamed (required_ok huntil) htext, rfl⟩
  obtain ⟨text, rfl, htext⟩ := readTime_ok hends
  rcases Except.bind_error hrest with hat | ⟨at', -, hrest⟩
  · rcases readOptionalTime_fault hat with hdata | ⟨taken, htaken, hgiven, hoverflows, rfl⟩
    · exact .inl hdata
    · exact .inr ⟨.taken hnamed (required_ok huntil) htext htaken hgiven hoverflows, rfl⟩
  · cases hrest

/-- Reading such fields fails with the time outside the calendar. -/
theorem Overflows.ofFields {fields : List (String × Value)} (h : Overflows fields) :
    ofFields fields = .error (.time .outOfCalendar) := by
  cases h with
  | ends named ends overflows =>
    obtain ⟨name, hname⟩ := Option.isSome_iff_exists.mp named
    simp only [LeaseRecord.ofFields, required, hname, ends, readTime, overflows, bind, Except.bind]
    rfl
  | taken named ends ending taken given overflows =>
    obtain ⟨name, hname⟩ := Option.isSome_iff_exists.mp named
    have htrue : (Value.text _).truthy = true := bne_iff_ne.mpr given
    simp only [LeaseRecord.ofFields, required, readOptionalTime, hname, ends, readTime, ending, taken, htrue, if_true,
      overflows, bind, Except.bind]
    rfl

end LeaseRecord

/-- **An error of a kind that a lock neither catches nor raises itself**: no unmet condition, no timeout, no failure of the
transport and none of a release. -/
structure Error.IsForeign (e : Error) : Prop where
  notUnmet : e.isA .conditionNotMet = false
  notTimeout : e.isA .timeout = false
  notTransport : e.isA .transport = false
  notRelease : e.isA .release = false

namespace Http

/-! ## The faults of a body -/

/-- The failure of a body that is said to be in a coding. -/
def codingFault (coding : String) : Error := .raised notTextKind (Text.Charset.codingText coding)

/-- Bytes that a codec reads are malformed, if they are no JSON, or nested too deep. -/
theorem readWith_fault {codec : Text.Codec} {bytes : List UInt8} {e : Error} (h : readWith codec bytes = .error e) :
    (e.isA .client || e.isA .value) = true ∨ ∃ fault inList, e = .document fault ∧ fault.missing = .lessNesting inList := by
  simp only [readWith] at h
  split at h
  · obtain ⟨fault, -, rfl⟩ := Except.mapError_error h
    by_cases hdeep : ∃ inList, fault.missing = .lessNesting inList
    · obtain ⟨inList, hmissing⟩ := hdeep
      exact .inr ⟨fault, inList, rfl, hmissing⟩
    · refine .inl ?_
      simp only [Error.isA, Error.kind]
      cases hmissing : fault.missing with
      | lessNesting inList => exact absurd ⟨inList, hmissing⟩ hdeep
      | _ => rfl
  · cases h
    exact .inl rfl

/-- **What is wrong with a body that cannot be read**: an error of the client's library or a malformed value, which the client
catches, or the body is in a coding that is no charset, or it is nested too deep. -/
theorem readJson_fault {codecs : Text.Codecs} {status : Int} {contentType url : String} {body : List UInt8} {e : Error}
    (h : readJson codecs status contentType body url = .error e) :
    (e.isA .client || e.isA .value) = true ∨ (∃ coding, e = codingFault coding) ∨
      ∃ fault inList, e = .document fault ∧ fault.missing = .lessNesting inList := by
  simp only [readJson] at h
  split at h
  · cases h
    exact .inl rfl
  split at h
  · cases h
  -- the body is in a charset, in a coding, or in a charset that is not known and passed over
  split at h
  · exact (readWith_fault h).imp_right .inr
  · rename_i coding _
    cases h
    exact .inr (.inl ⟨coding, rfl⟩)
  · exact (readWith_fault h).imp_right .inr

/-- The URL is no matter, but for the words of one failure that a client catches. -/
theorem readJson_url (codecs : Text.Codecs) (status : Int) (contentType url : String) (body : List UInt8) :
    readJson codecs status contentType body url = readJson codecs status contentType body "" ∨
      ∃ type, readJson codecs status contentType body url = .error (.contentType status type url) ∧
        readJson codecs status contentType body "" = .error (.contentType status type "") := by
  by_cases htype : isJsonType (Text.lower contentType) = true
  · left
    simp only [readJson, htype]
    rfl
  · right
    refine ⟨Text.lower contentType, ?_, ?_⟩ <;> simp only [readJson, htype] <;> rfl

/-- What can be read can be read whatever the URL, -/
theorem readJson_ok {codecs : Text.Codecs} {status : Int} {contentType : String} {body : List UInt8} {v : Value}
    (h : readJson codecs status contentType body "" = .ok v) (url : String) :
    readJson codecs status contentType body url = .ok v := by
  rcases readJson_url codecs status contentType url body with hsame | ⟨type, -, hfails⟩
  · exact hsame.trans h
  · rw [hfails] at h
    cases h

/-- and a failure that a client does not catch comes whatever the URL, as do those that it catches. -/
theorem readJson_error {codecs : Text.Codecs} {status : Int} {contentType : String} {body : List UInt8} {e : Error}
    (h : readJson codecs status contentType body "" = .error e) (url : String) :
    ∃ e', readJson codecs status contentType body url = .error e' ∧
      (e.isA .client || e.isA .value) = (e'.isA .client || e'.isA .value) ∧
      ((e.isA .client || e.isA .value) = false → e' = e) := by
  rcases readJson_url codecs status contentType url body with hsame | ⟨type, hurl, hfails⟩
  · exact ⟨e, hsame.trans h, rfl, fun _ => rfl⟩
  · rw [hfails] at h
    cases h
    exact ⟨_, hurl, rfl, fun hc => by cases hc⟩

/-! ## Replies -/

/-- What an exchange breaks down with: it runs out of time, or the connection or the message fails. -/
structure Breakdown where
  error : Error
  known : (error.isA .timeout || error.isA .client) = true

/-- **What may come back** after a request.  A whole response stands with the codecs that the client has to read it. -/
inductive ServerReply where
  | broken (b : Breakdown)
  | torn (status : Int) (b : Breakdown)
  | whole (status : Int) (contentType : String) (body : List UInt8) (codecs : Text.Codecs)

namespace ServerReply

/-- A reply as it is delivered. -/
def delivery (url : String) : ServerReply → Delivery
  | broken b => .broken b.error
  | torn status b => .response status (.error b.error)
  | whole status contentType body codecs => .response status (readJson codecs status contentType body url)

/-- **The party that gives this reply.**  What becomes of itself is left to it. -/
def party {ω : Type} (reply : ServerReply) (P : Party ω) : Party ω :=
  { P with send := fun call w => ((P.send call w).1, reply.delivery (NodeParty.urlOf call)) }

/-- A reply that is whole and readable. -/
def Delivers (reply : ServerReply) (status : Int) (v : Value) : Prop :=
  ∃ contentType body codecs, reply = whole status contentType body codecs ∧
    readJson codecs status contentType body "" = .ok v

/-- **A reply that grants**: JSON with a status of 200, an object that spells a record that ends at a moment. -/
def Grants (reply : ServerReply) (ending : Instant) : Prop :=
  ∃ fields, reply.Delivers 200 (.object fields) ∧ LeaseRecord.Spells fields ending

/-- A reply that tells of an unmet condition: JSON with a status of 409. -/
def Refuses (reply : ServerReply) : Prop := ∃ v, reply.Delivers 409 v

/-- **A reply that makes the client raise an error which it does not catch**, and that error. -/
inductive Escapes : ServerReply → Error → Prop where
  | coding {status : Int} {contentType coding : String} {body : List UInt8} {codecs : Text.Codecs}
      (h : readJson codecs status contentType body "" = .error (codingFault coding)) :
      Escapes (whole status contentType body codecs) (codingFault coding)
  | nesting {status : Int} {contentType : String} {body : List UInt8} {codecs : Text.Codecs} {fault : Json.Located}
      {inList : Bool} (h : readJson codecs status contentType body "" = .error (.document fault))
      (deep : fault.missing = .lessNesting inList) :
      Escapes (whole status contentType body codecs) (.document fault)
  | calendar {contentType : String} {body : List UInt8} {codecs : Text.Codecs} {fields : List (String × Value)}
      (h : readJson codecs 200 contentType body "" = .ok (.object fields)) (overflows : LeaseRecord.Overflows fields) :
      Escapes (whole 200 contentType body codecs) (.time .outOfCalendar)

end ServerReply

/-! ## What a reply amounts to -/

/-- What a client makes of a reply. -/
inductive Sense where
  | record (r : LeaseRecord)
  | unmet
  | nothing
  | escape (e : Error)

namespace ServerReply

/-- **The sense of a reply.** -/
def sense : ServerReply → Sense
  | broken _ => .nothing
  | torn _ _ => .nothing
  | whole status contentType body codecs =>
    match readJson codecs status contentType body "" with
    | .error e => if e.isA .client || e.isA .value then .nothing else .escape e
    | .ok v =>
      if status = 200 then
        match LeaseRecord.ofValue v with
        | .ok r => .record r
        | .error e => if e.isDataFault then .nothing else .escape e
      else if status = 409 then .unmet
      else .nothing

/-- **A sense has its reason**: a record is granted, an unmet condition was told, and what escapes is one of the three. -/
theorem sense_cases (reply : ServerReply) :
    (∃ r, reply.Grants r.lockUntil ∧ reply.sense = .record r) ∨ (reply.Refuses ∧ reply.sense = .unmet) ∨
      (∃ e, reply.Escapes e ∧ reply.sense = .escape e) ∨ reply.sense = .nothing := by
  cases reply with
  | broken b => exact .inr (.inr (.inr rfl))
  | torn status b => exact .inr (.inr (.inr rfl))
  | whole status contentType body codecs =>
    cases hread : readJson codecs status contentType body "" with
    | error e =>
      by_cases hcaught : (e.isA .client || e.isA .value) = true
      · exact .inr (.inr (.inr (by simp only [sense, hread, if_pos hcaught])))
      · refine .inr (.inr (.inl ⟨e, ?_, by simp only [sense, hread, if_neg hcaught]⟩))
        rcases readJson_fault hread with h | ⟨coding, rfl⟩ | ⟨fault, inList, rfl, hdeep⟩
        · exact absurd h hcaught
        · exact .coding hread
        · exact .nesting hread hdeep
    | ok v =>
      have hdelivers : (whole status contentType body codecs).Delivers status v := ⟨contentType, body, codecs, rfl, hread⟩
      by_cases hstatus : status = 200
      · subst hstatus
        cases v with
        | object fields =>
          cases hfields : LeaseRecord.ofFields fields with
          | ok r =>
            refine .inl ⟨r, ⟨fields, hdelivers, LeaseRecord.ofFields_spells hfields⟩, ?_⟩
            simp only [sense, hread, if_true, LeaseRecord.ofValue, hfields]
          | error e =>
            rcases LeaseRecord.ofFields_fault hfields with hdata | ⟨hoverflows, rfl⟩
            · exact .inr (.inr (.inr (by simp only [sense, hread, if_true, LeaseRecord.ofValue, hfields, hdata])))
            · refine .inr (.inr (.inl ⟨_, .calendar hread hoverflows, ?_⟩))
              simp only [sense, hread, if_true, LeaseRecord.ofValue, hfields]
              rfl
        | _ => exact .inr (.inr (.inr (by simp only [sense, hread]; rfl)))
      by_cases hunmet : status = 409
      · subst hunmet
        exact .inr (.inl ⟨⟨v, hdelivers⟩, by simp only [sense, hread]; rfl⟩)
      · exact .inr (.inr (.inr (by simp only [sense, hread, if_neg hstatus, if_neg hunmet])))

/-- **The record of a reply is the one it grants.** -/
theorem grants_iff {reply : ServerReply} {ending : Instant} :
    reply.Grants ending ↔ ∃ r, reply.sense = .record r ∧ r.lockUntil = ending := by
  constructor
  · rintro ⟨fields, ⟨contentType, body, codecs, rfl, hread⟩, hspells⟩
    obtain ⟨r, hr, hends⟩ := hspells.ofFields
    exact ⟨r, by simp only [sense, hread, if_true, LeaseRecord.ofValue, hr], hends⟩
  · rintro ⟨r, hsense, rfl⟩
    rcases reply.sense_cases with ⟨r', hgrants, h⟩ | ⟨-, h⟩ | ⟨e, -, h⟩ | h <;> rw [h] at hsense <;> cases hsense
    exact hgrants

theorem refuses_iff {reply : ServerReply} : reply.Refuses ↔ reply.sense = .unmet := by
  constructor
  · rintro ⟨v, contentType, body, codecs, rfl, hread⟩
    simp only [sense, hread]
    rfl
  · intro hsense
    rcases reply.sense_cases with ⟨r, -, h⟩ | ⟨hrefuses, -⟩ | ⟨e, -, h⟩ | h
    case inr.inl => exact hrefuses
    all_goals
      rw [h] at hsense
      cases hsense

/-- **What escapes of a reply is one of the three.** -/
theorem escapes_iff {reply : ServerReply} {e : Error} : reply.Escapes e ↔ reply.sense = .escape e := by
  constructor
  · intro h
    cases h with
    | coding h =>
      simp only [sense, h]
      rfl
    | @nesting status contentType body codecs fault inList h deep =>
      have huncaught : ¬((Error.document fault).isA .client || (Error.document fault).isA .value) = true := by
        simp only [Error.isA, Error.kind, deep]
        decide
      simp only [sense, h, if_neg huncaught]
    | calendar h overflows =>
      simp only [sense, h, if_true, LeaseRecord.ofValue, overflows.ofFields]
      rfl
  · intro hsense
    rcases reply.sense_cases with ⟨r, -, h⟩ | ⟨-, h⟩ | ⟨e', hescapes, h⟩ | h <;> rw [h] at hsense <;> cases hsense
    exact hescapes

end ServerReply

/-! ## A client that gets a reply -/

/-- No error that escapes is one that a lock catches. -/
theorem ServerReply.Escapes.foreign {reply : ServerReply} {e : Error} (h : reply.Escapes e) : e.IsForeign := by
  cases h with
  | coding h => exact ⟨rfl, rfl, rfl, rfl⟩
  | @nesting status contentType body codecs fault inList h deep =>
    have hkind : (Error.document fault).kind = .nesting := by simp only [Error.kind, deep]
    constructor <;> simp only [Error.isA, hkind] <;> rfl
  | calendar h overflows => exact ⟨rfl, rfl, rfl, rfl⟩

/-- **What a call on a store comes to** if a reply has this sense. -/
def Sense.Heard (name : Value) (o : Outcome LeaseRecord) : Sense → Prop
  | .record r => o = .answered r
  | .unmet => o = .failed (.conditionNotMet name .store)
  | .nothing => o = .silent ∨ ∃ e, o = .failed e ∧ e.kind = .transport
  | .escape e => o = .failed e

namespace HttpStore

variable {ω : Type}

/-- What a client makes of a failure. -/
def callFault (url : String) (e : Error) : Error :=
  if e.isA .timeout || e.isA .client || e.isA .value then .callFailed (.http url) e else e

theorem failCall_fault (url : String) (e : Error) (w : World (HttpStore ω)) :
    (failCall url e w).2 = callFault url e := by
  simp only [failCall, callFault]
  split <;> rfl

/-- A failure that a client catches is a failed call; -/
theorem callFault_caught {e : Error} (h : (e.isA .timeout || e.isA .client || e.isA .value) = true) (url : String) :
    (callFault url e).kind = .transport := by
  simp only [callFault, if_pos h]
  rfl

/-- any other is passed on. -/
theorem callFault_uncaught {e : Error} (h : (e.isA .timeout || e.isA .client || e.isA .value) = false) (url : String) :
    callFault url e = e := by
  simp only [callFault, h]
  rfl

/-- **A request whose reply is known** comes to what is delivered, and to nothing else. -/
theorem request_reply (P : Party ω) (reply : ServerReply) (method path : String) (payload : Option Value)
    (w : World (HttpStore ω)) :
    ∃ url shown, (request (reply.party P) method path payload w).2 =
      match reply.delivery shown with
      | .broken e => .error (callFault url e)
      | .response status data => match data with
        | .ok v => .ok (status, v)
        | .error e => .error (callFault url e) := by
  have hopen : ensureOpen (reply.party P) w = ensureOpen P w := rfl
  refine ⟨(ensureOpen P w).store.client.baseUrl ++ path,
    NodeParty.urlOf ⟨method, (ensureOpen P w).store.client.baseUrl ++ path, payload⟩, ?_⟩
  simp only [request, hopen]
  simp only [ServerReply.party]
  cases reply.delivery (NodeParty.urlOf ⟨method, (ensureOpen P w).store.client.baseUrl ++ path, payload⟩) with
  | broken e => exact congrArg Except.error (failCall_fault _ e _)
  | response status data =>
    cases data with
    | ok v => rfl
    | error e => exact congrArg Except.error (failCall_fault _ e _)

/-- What a client makes of JSON and its status. -/
theorem receive_heard (name : Value) (status : Int) (v : Value) (w : World (HttpStore ω)) {contentType : String}
    {body : List UInt8} {codecs : Text.Codecs} (hread : readJson codecs status contentType body "" = .ok v) :
    (ServerReply.whole status contentType body codecs).sense.Heard name (.ofExcept (receive name status v w).2) := by
  simp only [ServerReply.sense, hread, receive]
  by_cases hstatus : status = 200
  · simp only [if_pos hstatus]
    cases hrecord : LeaseRecord.ofValue v with
    | ok r => rfl
    | error e =>
      by_cases hdata : e.isDataFault = true
      · simp only [hdata, if_true]
        exact .inr ⟨_, rfl, rfl⟩
      · simp only [hdata]
        rfl
  · simp only [if_neg hstatus]
    by_cases hunmet : status = 409
    · simp only [if_pos hunmet]
      rfl
    · simp only [if_neg hunmet]
      exact .inr ⟨_, rfl, rfl⟩

/-- **A write comes to what its reply means**, whatever the server does besides. -/
theorem write_heard (P : Party ω) (reply : ServerReply) (path : String) (name payload : Value)
    (w : World (HttpStore ω)) :
    reply.sense.Heard name (write (reply.party P) path name (.ok payload) w).2 := by
  obtain ⟨url, shown, hrequest⟩ := request_reply P reply "POST" path (some payload) w
  simp only [write]
  generalize request (reply.party P) "POST" path (some payload) w = requested at hrequest ⊢
  obtain ⟨w', result⟩ := requested
  simp only at hrequest
  subst hrequest
  cases reply with
  | broken b => exact .inr ⟨_, rfl, callFault_caught (by rw [b.known]; rfl) url⟩
  | torn status b => exact .inr ⟨_, rfl, callFault_caught (by rw [b.known]; rfl) url⟩
  | whole status contentType body codecs =>
    simp only [ServerReply.delivery]
    cases hread : readJson codecs status contentType body "" with
    | ok v =>
      rw [readJson_ok hread shown]
      exact receive_heard name status v w' hread
    | error e =>
      obtain ⟨e', he', hcaught, hsame⟩ := readJson_error hread shown
      rw [he']
      simp only [ServerReply.sense, hread]
      by_cases h : (e.isA .client || e.isA .value) = true
      · rw [if_pos h]
        refine .inr ⟨_, rfl, callFault_caught ?_ url⟩
        rw [Bool.or_assoc, ← hcaught, h, Bool.or_true]
      · have hescapes : (ServerReply.whole status contentType body codecs).Escapes e :=
          ServerReply.escapes_iff.mpr (by simp only [ServerReply.sense, hread, if_neg h])
        rw [if_neg h, hsame (Bool.eq_false_iff.mpr h)]
        refine congrArg Outcome.failed (callFault_uncaught ?_ url)
        rw [Bool.or_assoc, hescapes.foreign.notTimeout, Bool.eq_false_iff.mpr h]
        rfl

end HttpStore
end Http
end Leasehold
