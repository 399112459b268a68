/-
  What a lease node makes of a write.

  A lock over HTTP sends an object of texts to one of two paths, and the node does to its store in memory what the
  lock would do itself, were the store its own.  The steps between are those of a request: the URL leads to a route, the
  body is read as JSON, the fields are read as a request, and the outcome of the write becomes a status.

  1. **`Instant.Legible`** — the year has four digits, so the timestamp can be read back; **`LeaseNode.InLimit`** — a body is
     not too long.  A request with another year, or with a longer body, is refused and changes nothing, any other is
     read as it was sent (`Claim.Sendable`, `Lease.Sendable`);
  2. **`acquireOf_texts`, `releaseOf_texts`** — the request that a node reads is the one that was made; a year of another
     length makes that there is none (`acquireOf_early`, `releaseOf_early`);
  3. **`Served`** — a write is applied and the status is 200, or no record changes and it is not;
  4. **`send_acquire`, `send_release`** — what becomes of the two calls of a client whose base URL is the node's
     (`Client.Reaches`).
-/
import Leasehold.Http.Party
import Leasehold.Proofs.JsonText
import Leasehold.Proofs.Memory
import Leasehold.Proofs.Timestamp
namespace Leasehold

/-! ## Moments on the way -/

/-- A moment whose timestamp can be read back. -/
def Instant.Legible (i : Instant) : Prop := 1000 ≤ i.date.year

instance (i : Instant) : Decidable i.Legible := inferInstanceAs (Decidable (1000 ≤ i.date.year))

/-- No timestamp is empty. -/
theorem Instant.timestamp_ne_empty (i : Instant) : i.timestamp ≠ "" := by
  intro h
  have hchars := congrArg String.toList h
  simp [timestamp] at hchars

namespace LeaseRecord

theorem readTime_legible {i : Instant} (hw : i.IsWhole) (hi : i.Legible) : readTime (.text i.timestamp) = .ok i := by
  rw [readTime, Instant.ofTimestamp_timestamp hi, show i.truncate = i from hw]
  rfl

/-- **The record of some fields**, once its times are read. -/
theorem ofFields_ok {fields : List (String × Value)} {name until' : Value} {u : Instant} {at' : Option Instant}
    (hname : Value.field? nameKey fields = some name) (huntil : Value.field? lockUntilKey fields = some until')
    (hu : readTime until' = .ok u) (hat : readOptionalTime lockedAtKey fields = .ok at') :
    ofFields fields = .ok ⟨name, u, at', (Value.field? lockedByKey fields).getD .null⟩ := by
  simp only [ofFields, required, hname, huntil, hu, hat, bind, Except.bind]
  rfl

theorem readTime_early {i : Instant} (hi : ¬i.Legible) : ∃ e, readTime (.text i.timestamp) = .error e := by
  rw [readTime, Instant.ofTimestamp_early (Nat.lt_of_not_le hi)]
  exact ⟨_, rfl⟩

end LeaseRecord

theorem GivenTime.timestamp_moment (i : Instant) : (GivenTime.moment i).timestamp = .ok i.truncate.timestamp := by
  rw [timestamp, truncate_moment]
  rfl

theorem GivenTime.timestamp_whole {i : Instant} (hw : i.IsWhole) : (GivenTime.moment i).timestamp = .ok i.timestamp := by
  rw [timestamp_moment, show i.truncate = i from hw]

/-! ## Requests on the way -/

open Json Http

/-- What an acquire sends, field by field. -/
def Claim.sentFields (c : Claim) (identity : String) : List (String × String) :=
  [("name", c.name), ("lock_until", c.atMost.timestamp), ("locked_at", c.takenAt.timestamp), ("locked_by", identity),
   ("available_at", c.takenAt.timestamp)]

/-- What an acquire sends tells who sends it. -/
theorem Claim.sentFields_inj {c : Claim} {identity other : String}
    (h : (.ok (.object (textsOf (c.sentFields identity))) : Except Error Value) = .ok (.object (textsOf (c.sentFields other)))) :
    identity = other := by
  simpa [sentFields, textsOf] using h

/-- What a release sends, field by field. -/
def Lease.sentFields (l : Lease) (lockUntil : Instant) : List (String × String) :=
  [("name", l.name), ("lock_until", lockUntil.timestamp), ("held_until", l.atMost.timestamp)]

namespace Http

namespace HttpStore

theorem acquirePayload_claim {c : Claim} (hc : c.IsWhole) (identity : String) :
    acquirePayload (c.request (.text identity)) = .ok (.object (textsOf (c.sentFields identity))) := by
  simp only [acquirePayload, Claim.request, GivenTime.timestamp_whole hc.atMost, GivenTime.timestamp_whole hc.takenAt]
  rfl

theorem releasePayload_lease {l : Lease} (hl : l.IsWhole) {lockUntil : Instant} (hu : lockUntil.IsWhole) :
    releasePayload (l.releaseRequest lockUntil) = .ok (.object (textsOf (l.sentFields lockUntil))) := by
  simp only [releasePayload, Lease.releaseRequest, GivenTime.timestamp_whole hl.atMost, GivenTime.timestamp_whole hu]
  rfl

end HttpStore

namespace LeaseNode

/-- **A value whose text is not too long** for the body of a request. -/
def InLimit (v : Value) : Prop := (Text.Utf8.encode v.write.toList).length < bodyLimit

instance (v : Value) : Decidable (InLimit v) := inferInstanceAs (Decidable (_ < _))

section

variable {server : Server} {call : Call}

/-- Bytes that UTF-8 reads as JSON are a body that is read so. -/
theorem bodyValue_utf8 {req : Request} (htype : charsetName? req.contentType = none) {cs : List Char}
    (hbody : req.body = Text.Utf8.encode cs) (hlimit : req.body.length < bodyLimit) {v : Value} (hread : Json.read cs = .ok v) :
    bodyValue server req = .ok v := by
  -- an empty text is no JSON
  have hfull : req.body.isEmpty = false := by
    rw [Bool.eq_false_iff]
    intro hempty
    have hdecode : Text.Utf8.decode req.body = .ok cs := by rw [hbody, Text.Utf8.decode_encode]
    rw [List.isEmpty_iff.mp hempty] at hdecode
    cases hdecode
    cases hread
  have hcodec : codecOf server.codecs req = some Text.Charset.utf8.codec := by rw [codecOf, htype]
  have hdecode : Text.Charset.utf8.codec.decode req.body = .ok cs := by rw [hbody, Text.Utf8.codec_decode_encode]
  simp only [bodyValue, Nat.not_le.mpr hlimit, hfull, hcodec, decodeBody, hdecode, hread, if_false, Bool.false_eq_true]

variable (server)

/-- **The body that was sent is the body that is read.** -/
theorem bodyValue_texts {fields : List (String × String)} (path : String)
    (hp : call.payload = some (.object (textsOf fields))) (hlimit : InLimit (.object (textsOf fields))) (hne : fields ≠ [])
    (hkeys : (fields.map (·.1)).Nodup) :
    bodyValue server (NodeParty.requestOf call path) = .ok (.object (textsOf fields)) := by
  have hcharset : charsetName? jsonType = none := by decide +kernel
  have hbody : (NodeParty.requestOf call path).body = Text.Utf8.encode (Value.object (textsOf fields)).write.toList := by
    rw [NodeParty.requestOf, hp]
  exact bodyValue_utf8 hcharset hbody (by rw [hbody]; exact hlimit) (read_texts hne hkeys)

/-- A body that is too long is not read. -/
theorem bodyFields_overlong {v : Value} (path : String) (hp : call.payload = some v) (hlimit : ¬InLimit v) :
    ∃ size, bodyFields server (NodeParty.requestOf call path) = .error (.answer (tooLarge size)) := by
  have hbody : (NodeParty.requestOf call path).body = Text.Utf8.encode v.write.toList := by rw [NodeParty.requestOf, hp]
  have hlong : bodyLimit ≤ (NodeParty.requestOf call path).body.length := by
    rw [hbody]
    exact Nat.not_lt.mp hlimit
  refine ⟨server.sizeSeen (NodeParty.requestOf call path).body, ?_⟩
  rw [bodyFields, bodyValue, if_pos hlong]
  rfl

/-- It asks for a name, -/
theorem bodyFields_texts {name : String} {more : List (String × String)} (path : String)
    (hp : call.payload = some (.object (textsOf (("name", name) :: more))))
    (hlimit : InLimit (.object (textsOf (("name", name) :: more)))) (hname : name ≠ "")
    (hkeys : (("name", name) :: more |>.map (·.1)).Nodup) :
    bodyFields server (NodeParty.requestOf call path) = .ok (.text name, textsOf (("name", name) :: more)) := by
  have hvalue := bodyValue_texts server path hp hlimit (List.cons_ne_nil _ _) hkeys
  have hfield : Value.field? "name" (textsOf (("name", name) :: more)) = some (.text name) := rfl
  have htruthy : (Value.text name).truthy = true := by simpa [Value.truthy] using hname
  simp only [bodyFields, hvalue, bind, Except.bind, hfield, htruthy, if_true]
  rfl

/-- but a blank name is none. -/
theorem bodyFields_blank {more : List (String × String)} (path : String)
    (hp : call.payload = some (.object (textsOf (("name", "") :: more))))
    (hlimit : InLimit (.object (textsOf (("name", "") :: more)))) (hkeys : (("name", "") :: more |>.map (·.1)).Nodup) :
    bodyFields server (NodeParty.requestOf call path) = .error (.answer (badBody "name_required")) := by
  have hvalue := bodyValue_texts server path hp hlimit (List.cons_ne_nil _ _) hkeys
  have hfield : Value.field? "name" (textsOf (("name", "") :: more)) = some (.text "") := rfl
  have hblank : (Value.text "").truthy = false := by decide
  simp only [bodyFields, hvalue, bind, Except.bind, hfield, hblank]
  rfl

end

/-- A time that was sent is read. -/
theorem requiredTime_legible {key : String} {i : Instant} {fields : List (String × Value)}
    (hf : Value.field? key fields = some (.text i.timestamp)) (hw : i.IsWhole) (hi : i.Legible) :
    requiredTime key fields = .ok i := by
  simp only [requiredTime, LeaseRecord.required, hf, bind, Except.bind, LeaseRecord.readTime_legible hw hi]

theorem requiredTime_early {key : String} {i : Instant} {fields : List (String × Value)}
    (hf : Value.field? key fields = some (.text i.timestamp)) (hi : ¬i.Legible) :
    ∃ e, requiredTime key fields = .error e := by
  obtain ⟨e, he⟩ := LeaseRecord.readTime_early hi
  exact ⟨e, by simp only [requiredTime, LeaseRecord.required, hf, bind, Except.bind, he]⟩

/-- A time that may be missing likewise. -/
theorem readOptionalTime_text {key : String} {i : Instant} {fields : List (String × Value)}
    (hf : Value.field? key fields = some (.text i.timestamp)) :
    LeaseRecord.readOptionalTime key fields = (LeaseRecord.readTime (.text i.timestamp)).map some := by
  have htruthy : (Value.text i.timestamp).truthy = true := by simpa [Value.truthy] using i.timestamp_ne_empty
  simp only [LeaseRecord.readOptionalTime, hf, htruthy, if_true]

theorem readOptionalTime_legible {key : String} {i : Instant} {fields : List (String × Value)}
    (hf : Value.field? key fields = some (.text i.timestamp)) (hw : i.IsWhole) (hi : i.Legible) :
    LeaseRecord.readOptionalTime key fields = .ok (some i) := by
  rw [readOptionalTime_text hf, LeaseRecord.readTime_legible hw hi]
  rfl

/-- What an acquire sends, field by field. -/
def acquireTexts (name lockedBy : String) (lockUntil lockedAt availableAt : Instant) : List (String × String) :=
  [("name", name), ("lock_until", lockUntil.timestamp), ("locked_at", lockedAt.timestamp), ("locked_by", lockedBy),
   ("available_at", availableAt.timestamp)]

/-- What a release sends, field by field. -/
def releaseTexts (name : String) (lockUntil : Instant) (held : Option Instant) : List (String × String) :=
  ("name", name) :: ("lock_until", lockUntil.timestamp) :: held.toList.map fun i => ("held_until", i.timestamp)

theorem releaseTexts_keys (name : String) (lockUntil : Instant) (held : Option Instant) :
    ((releaseTexts name lockUntil held).map (·.1)).Nodup := by
  cases held with
  | none =>
    show ["name", "lock_until"].Nodup
    decide
  | some i =>
    show ["name", "lock_until", "held_until"].Nodup
    decide

section

variable {name lockedBy : String} {u s a : Instant}

/-- **A node reads the acquire that was sent**, -/
theorem acquireOf_texts (hu : u.IsWhole) (hs : s.IsWhole) (ha : a.IsWhole) (h : u.Legible ∧ s.Legible ∧ a.Legible) :
    acquireOf (.text name) (textsOf (acquireTexts name lockedBy u s a)) =
      .ok (⟨.text name, .moment u, .moment s, .text lockedBy, .moment a⟩, u) := by
  have huntil : requiredTime "lock_until" (textsOf (acquireTexts name lockedBy u s a)) = .ok u :=
    requiredTime_legible rfl hu h.1
  have hat : requiredTime "locked_at" (textsOf (acquireTexts name lockedBy u s a)) = .ok s :=
    requiredTime_legible rfl hs h.2.1
  have havailable : Value.field? "available_at" (textsOf (acquireTexts name lockedBy u s a)) =
      some (.text a.timestamp) := rfl
  have hby : Value.field? "locked_by" (textsOf (acquireTexts name lockedBy u s a)) = some (.text lockedBy) := rfl
  simp only [acquireOf, huntil, hat, havailable, hby, bind, Except.bind, LeaseRecord.readTime_legible ha h.2.2]
  rfl

/-- or none, if a time of it cannot be read back. -/
theorem acquireOf_early (hu : u.IsWhole) (hs : s.IsWhole) (h : ¬(u.Legible ∧ s.Legible ∧ a.Legible)) :
    ∃ e, acquireOf (.text name) (textsOf (acquireTexts name lockedBy u s a)) = .error e := by
  by_cases huntil : u.Legible
  · have hread : requiredTime "lock_until" (textsOf (acquireTexts name lockedBy u s a)) = .ok u :=
      requiredTime_legible rfl hu huntil
    by_cases hat : s.Legible
    · have hread' : requiredTime "locked_at" (textsOf (acquireTexts name lockedBy u s a)) = .ok s :=
        requiredTime_legible rfl hs hat
      have havailable : Value.field? "available_at" (textsOf (acquireTexts name lockedBy u s a)) =
          some (.text a.timestamp) := rfl
      obtain ⟨e, he⟩ := LeaseRecord.readTime_early fun ha => h ⟨huntil, hat, ha⟩
      exact ⟨e, by simp only [acquireOf, hread, hread', havailable, he, bind, Except.bind]⟩
    · obtain ⟨e, he⟩ : ∃ e, requiredTime "locked_at" (textsOf (acquireTexts name lockedBy u s a)) = .error e :=
        requiredTime_early rfl hat
      exact ⟨e, by simp only [acquireOf, hread, he, bind, Except.bind]⟩
  · obtain ⟨e, he⟩ : ∃ e, requiredTime "lock_until" (textsOf (acquireTexts name lockedBy u s a)) = .error e :=
      requiredTime_early rfl huntil
    exact ⟨e, by simp only [acquireOf, he, bind, Except.bind]⟩

variable {held : Option Instant}

/-- **A node reads the release that was sent**, -/
theorem releaseOf_texts (hu : u.IsWhole) (hh : ∀ i ∈ held, i.IsWhole) (h : u.Legible ∧ ∀ i ∈ held, i.Legible) :
    releaseOf (.text name) (textsOf (releaseTexts name u held)) =
      .ok (⟨.text name, .moment u, (held.map .moment).getD .none⟩, u) := by
  have hread : requiredTime "lock_until" (textsOf (releaseTexts name u held)) = .ok u := requiredTime_legible rfl hu h.1
  have hheld : LeaseRecord.readOptionalTime "held_until" (textsOf (releaseTexts name u held)) = .ok held := by
    cases held with
    | none => rfl
    | some i => exact readOptionalTime_legible rfl (hh i rfl) (h.2 i rfl)
  simp only [releaseOf, hread, hheld, bind, Except.bind]
  cases held <;> rfl

/-- or none. -/
theorem releaseOf_early (hu : u.IsWhole) (h : ¬(u.Legible ∧ ∀ i ∈ held, i.Legible)) :
    ∃ e, releaseOf (.text name) (textsOf (releaseTexts name u held)) = .error e := by
  by_cases huntil : u.Legible
  · have hread : requiredTime "lock_until" (textsOf (releaseTexts name u held)) = .ok u :=
      requiredTime_legible rfl hu huntil
    cases held with
    | none => exact absurd ⟨huntil, nofun⟩ h
    | some i =>
      have hearly : ¬i.Legible := fun hi => h ⟨huntil, fun j hj => by cases hj; exact hi⟩
      obtain ⟨e, he⟩ := LeaseRecord.readTime_early hearly
      have hheld : LeaseRecord.readOptionalTime "held_until" (textsOf (releaseTexts name u (some i))) = .error e := by
        rw [readOptionalTime_text rfl, he]
        rfl
      exact ⟨e, by simp only [releaseOf, hread, hheld, bind, Except.bind]⟩
  · obtain ⟨e, he⟩ : ∃ e, requiredTime "lock_until" (textsOf (releaseTexts name u held)) = .error e :=
      requiredTime_early rfl huntil
    exact ⟨e, by simp only [releaseOf, he, bind, Except.bind]⟩

end

end LeaseNode

end Http

/-- **An acquire that a node reads as it was sent**: its body is not too long, and its times can be read back. -/
structure Claim.Sendable (c : Claim) (identity : String) : Prop where
  inLimit : LeaseNode.InLimit (.object (textsOf (c.sentFields identity)))
  atMost : c.atMost.Legible
  takenAt : c.takenAt.Legible

instance (c : Claim) (identity : String) : Decidable (c.Sendable identity) :=
  decidable_of_iff
    (LeaseNode.InLimit (.object (textsOf (c.sentFields identity))) ∧ c.atMost.Legible ∧ c.takenAt.Legible)
    ⟨fun h => ⟨h.1, h.2.1, h.2.2⟩, fun h => ⟨h.inLimit, h.atMost, h.takenAt⟩⟩

/-- A release that a node reads as it was sent. -/
structure Lease.Sendable (l : Lease) (lockUntil : Instant) : Prop where
  inLimit : LeaseNode.InLimit (.object (textsOf (l.sentFields lockUntil)))
  atMost : l.atMost.Legible
  lockUntil : lockUntil.Legible

instance (l : Lease) (u : Instant) : Decidable (l.Sendable u) :=
  decidable_of_iff (LeaseNode.InLimit (.object (textsOf (l.sentFields u))) ∧ l.atMost.Legible ∧ u.Legible)
    ⟨fun h => ⟨h.1, h.2.1, h.2.2⟩, fun h => ⟨h.inLimit, h.atMost, h.lockUntil⟩⟩

namespace Http

/-! ## What becomes of a write -/

/-- What a client takes for the answer to a write. -/
def Delivery.Granting : Delivery → Prop
  | .response status _ => status = 200
  | .broken _ => False

namespace NodeParty

/-- The delivery that an outcome becomes. -/
def deliveryOf (url : String) : Outcome Response → Delivery
  | .answered r => .response r.status (readJson .none r.status r.contentType (pageBytes r.page) url)
  | .failed e => .broken e
  | .silent => .broken .timedOut

/-- The delivery of a record that was written. -/
def grantOf (url : String) (r : LeaseRecord) : Delivery := deliveryOf url (.answered (LeaseNode.json 200 r.toValue))

theorem grantOf_granting (url : String) (r : LeaseRecord) : (grantOf url r).Granting := rfl

end NodeParty

open NodeParty

/-- **What a node makes of a write** of a record `r` under a condition: it is applied and its record delivered, or no
record changes and there is no grant; of a request that gets through to the node's store the condition decides. -/
inductive Served (m : Memory) (name : String) (r : LeaseRecord) (condition : Prop) (url : String) :
    Memory → Delivery → Prop where
  | applied (way : m.pass.2 = .through) (holds : condition) :
      Served m name r condition url (m.put name r) (grantOf url r)
  | refused {m' : Memory} {d : Delivery} (fails : m.pass.2 = .through → ¬condition) (records : m'.records = m.records)
      (told : ¬d.Granting) : Served m name r condition url m' d

theorem Served.congr {m m' : Memory} {name url : String} {r : LeaseRecord} {condition condition' : Prop} {d : Delivery}
    (h : Served m name r condition url m' d) (hc : condition' ↔ condition) : Served m name r condition' url m' d := by
  cases h with
  | applied way holds => exact .applied way (hc.mpr holds)
  | refused fails records told => exact .refused (fun hp h => fails hp (hc.mp h)) records told

/-- **Either the write was applied and granted**, and its condition held, **or it was not**, and the records are what they
were. -/
theorem Served.applied_or_not {m m' : Memory} {name url : String} {r : LeaseRecord} {condition : Prop} {d : Delivery}
    (h : Served m name r condition url m' d) :
    (condition ∧ m.pass.2 = .through ∧ m' = m.put name r ∧ d.Granting) ∨
      (m'.records = m.records ∧ ¬d.Granting ∧ (m.pass.2 = .through → ¬condition)) := by
  cases h with
  | applied way holds => exact Or.inl ⟨holds, way, rfl, grantOf_granting ..⟩
  | refused fails records told => exact Or.inr ⟨records, told, fails⟩

/-- A write that gets through under its condition is applied. -/
theorem Served.of_holds {m m' : Memory} {name url : String} {r : LeaseRecord} {condition : Prop} {d : Delivery}
    (h : Served m name r condition url m' d) (way : m.pass.2 = .through) (holds : condition) :
    m' = m.put name r ∧ d = grantOf url r := by
  cases h with
  | applied => exact ⟨rfl, rfl⟩
  | refused fails => exact absurd holds (fails way)

namespace LeaseNode

variable {m : Memory} {name : String} {r : LeaseRecord} {condition : Prop}

/-- Only a response with a status of 200 is a grant. -/
theorem not_granting {answer : Response} (h : answer.status ≠ 200) (url : String) :
    ¬(deliveryOf url (.answered answer)).Granting := by
  show ¬(answer.status : Int) = 200
  omega

/-- A request that is refused before its write. -/
theorem refusal_served (fails : ¬condition) (e : Error) (url : String) :
    Served m name r condition url m (deliveryOf url (.answered (refusal e))) := by
  refine .refused (fun _ => fails) rfl (not_granting ?_ url)
  simp only [refusal]
  split
  · exact (by decide : (400 : Nat) ≠ 200)
  · exact (by decide : (500 : Nat) ≠ 200)

/-- **The outcome of a write on the node's store, answered**; counting and noting change no record. -/
theorem answerWrite_served {w : World LeaseNode} {o : Outcome LeaseRecord}
    (h : Memory.Effect m name r condition w.store.memory o) (shown : Value)
    {applied rejected : World LeaseNode → World LeaseNode} (ha : (applied w).store.memory = w.store.memory)
    (hr : (rejected w).store.memory = w.store.memory) (url : String) :
    Served m name r condition url (answerWrite shown applied rejected w o).1.store.memory
      (deliveryOf url (answerWrite shown applied rejected w o).2) := by
  generalize hm : w.store.memory = m' at *
  cases h with
  | applied way holds =>
    show Served m name r condition url (applied w).store.memory (grantOf url r)
    rw [ha]
    exact .applied (by rw [way]) holds
  | refused way fails =>
    have hkind : (Error.conditionNotMet (.text name) .store).isA .conditionNotMet = true := rfl
    simp only [answerWrite, hkind, if_true]
    refine .refused (fun _ => fails) ?_ (not_granting (by decide : (409 : Nat) ≠ 200) url)
    rw [hr]
  | lost way =>
    have hkind : Error.injected.isA .conditionNotMet = false := rfl
    simp only [answerWrite, hkind]
    refine .refused (fun hp => ?_) ?_ (not_granting (by decide : (500 : Nat) ≠ 200) url)
    · rw [way] at hp
      cases hp
    · rw [if_neg nofun, hm]
      exact m.pass_records
  | stuck way =>
    refine .refused (fun hp => ?_) ?_ (fun h => h)
    · rw [way] at hp
      cases hp
    · show w.store.memory.records = _
      rw [hm]
      exact m.pass_records

/-- A call by POST is handled by the route of its path; counting it changes neither the store nor the answer. -/
theorem handle_route {call : Call} (hmethod : call.method = "POST") {path : String} {route : Route}
    (hroute : destination "POST" path = .route route) (now : GivenTime) (w : World LeaseNode) :
    (handle now (requestOf call path) w).1.store = (handleRoute now (requestOf call path) w route).1.store ∧
    (handle now (requestOf call path) w).2 = (handleRoute now (requestOf call path) w route).2 := by
  have hhandle : handle now (requestOf call path) w =
      finish "POST" route.path (handleRoute now (requestOf call path) w route).1
        (handleRoute now (requestOf call path) w route).2 := by
    simp only [handle, requestOf, hmethod, hroute]
  rw [hhandle]
  cases (handleRoute now (requestOf call path) w route).2 <;> exact ⟨rfl, rfl⟩

/-- A write whose body is answered before its fields are read leaves the node as it is. -/
theorem handle_unread {call : Call} (hmethod : call.method = "POST") {path : String} {route : Route}
    (hwrite : route = .acquire ∨ route = .update) (hroute : destination "POST" path = .route route) {w : World LeaseNode}
    {answer : Response} (hbody : bodyFields w.store.server (requestOf call path) = .error (.answer answer)) (now : GivenTime) :
    (handle now (requestOf call path) w).1.store = w.store ∧ (handle now (requestOf call path) w).2 = .answered answer := by
  obtain ⟨hstore, hanswer⟩ := handle_route hmethod hroute now w
  have hhandled : handleRoute now (requestOf call path) w route = (w, .answered answer) := by
    rcases hwrite with rfl | rfl <;> simp only [handleRoute, handleAcquire, handleUpdate, hbody]
  rw [hstore, hanswer, hhandled]
  exact ⟨rfl, rfl⟩

/-- A body that is too long is refused on its route. -/
theorem overlong_served (fails : ¬condition) {call : Call} (hmethod : call.method = "POST") {path : String} {route : Route}
    (hwrite : route = .acquire ∨ route = .update) (hroute : destination "POST" path = .route route) {v : Value}
    (hp : call.payload = some v) (hlimit : ¬InLimit v) (now : GivenTime) (w : World LeaseNode) (url : String) :
    Served w.store.memory name r condition url (handle now (requestOf call path) w).1.store.memory
      (deliveryOf url (handle now (requestOf call path) w).2) := by
  obtain ⟨size, hbody⟩ := bodyFields_overlong w.store.server path hp hlimit
  obtain ⟨hstore, hanswer⟩ := handle_unread hmethod hwrite hroute hbody now
  rw [hstore, hanswer]
  exact .refused (fun _ => fails) rfl (not_granting (by decide : (413 : Nat) ≠ 200) url)

/-- **A node serves an acquire**: it is applied if it can be read as it was sent and the name is free. -/
theorem handle_acquire {c : Claim} (hc : c.IsWhole) (identity : String) {call : Call} (hmethod : call.method = "POST")
    (hp : call.payload = some (.object (textsOf (c.sentFields identity)))) (now : GivenTime) (w : World LeaseNode)
    (url : String) :
    Served w.store.memory c.name (c.record (.text identity))
      (c.Sendable identity ∧ w.store.memory.Free c.name c.takenAt) url
      (handle now (requestOf call "/api/lease/acquire") w).1.store.memory
      (deliveryOf url (handle now (requestOf call "/api/lease/acquire") w).2) := by
  have hroute : destination "POST" "/api/lease/acquire" = .route .acquire := by decide +kernel
  by_cases hlimit : InLimit (.object (textsOf (c.sentFields identity)))
  case neg => exact overlong_served (fun h => hlimit h.1.inLimit) hmethod (.inl rfl) hroute hp hlimit now w url
  obtain ⟨hstore, hanswer⟩ := handle_route hmethod hroute now w
  have hkeys : ["name", "lock_until", "locked_at", "locked_by", "available_at"].Nodup := by decide
  have hbody : bodyFields w.store.server (requestOf call "/api/lease/acquire") =
      .ok (.text c.name, textsOf (c.sentFields identity)) := bodyFields_texts _ _ hp hlimit c.named hkeys
  rw [hstore, hanswer]
  by_cases hlegible : c.atMost.Legible ∧ c.takenAt.Legible
  · have heffect := Memory.acquire_effect hc (.text identity) ⟨w.store.memory, w.ledger⟩
    have hread : acquireOf (.text c.name) (textsOf (c.sentFields identity)) =
        .ok (c.request (.text identity), c.atMost) :=
      acquireOf_texts hc.atMost hc.takenAt hc.takenAt ⟨hlegible.1, hlegible.2, hlegible.2⟩
    refine Served.congr ?_ (and_iff_right ⟨hlimit, hlegible.1, hlegible.2⟩)
    simp only [handleRoute, handleAcquire, hbody, hread]
    exact answerWrite_served (w := (onMemory (Memory.store.tryUpdate (c.request (.text identity))) w).1) heffect _ rfl rfl
      url
  · obtain ⟨e, he⟩ : ∃ e, acquireOf (.text c.name) (textsOf (c.sentFields identity)) = .error e :=
      acquireOf_early hc.atMost hc.takenAt fun h => hlegible ⟨h.1, h.2.1⟩
    simp only [handleRoute, handleAcquire, hbody, he]
    exact refusal_served (fun h => hlegible ⟨h.1.atMost, h.1.takenAt⟩) e url

/-- **A node serves a release**: it is applied if it can be read as it was sent and the record ends at the lease's own
ceiling. -/
theorem handle_release {l : Lease} (hl : l.IsWhole) (hname : l.name ≠ "") {u : Instant} (hu : u.IsWhole) {call : Call}
    (hmethod : call.method = "POST") (hp : call.payload = some (.object (textsOf (l.sentFields u)))) (now : GivenTime)
    (w : World LeaseNode) (url : String) :
    Served w.store.memory l.name (w.store.memory.released l u)
      (l.Sendable u ∧ w.store.memory.endOf l.name = some l.atMost) url
      (handle now (requestOf call "/api/lease/update") w).1.store.memory
      (deliveryOf url (handle now (requestOf call "/api/lease/update") w).2) := by
  have hroute : destination "POST" "/api/lease/update" = .route .update := by decide +kernel
  by_cases hlimit : InLimit (.object (textsOf (l.sentFields u)))
  case neg => exact overlong_served (fun h => hlimit h.1.inLimit) hmethod (.inr rfl) hroute hp hlimit now w url
  obtain ⟨hstore, hanswer⟩ := handle_route hmethod hroute now w
  have hkeys : ["name", "lock_until", "held_until"].Nodup := by decide
  have hbody : bodyFields w.store.server (requestOf call "/api/lease/update") =
      .ok (.text l.name, textsOf (l.sentFields u)) := bodyFields_texts _ _ hp hlimit hname hkeys
  rw [hstore, hanswer]
  by_cases hlegible : l.atMost.Legible ∧ u.Legible
  · have heffect := Memory.release_effect hl hu ⟨w.store.memory, w.ledger⟩
    have hread : releaseOf (.text l.name) (textsOf (l.sentFields u)) = .ok (l.releaseRequest u, u) := by
      show releaseOf _ (textsOf (releaseTexts l.name u (some l.atMost))) = _
      refine releaseOf_texts hu ?_ ⟨hlegible.2, ?_⟩
      · rintro _ ⟨⟩
        exact hl.atMost
      · rintro _ ⟨⟩
        exact hlegible.1
    refine Served.congr ?_ (and_iff_right ⟨hlimit, hlegible.1, hlegible.2⟩)
    simp only [handleRoute, handleUpdate, hbody, hread]
    exact answerWrite_served (w := (onMemory (Memory.store.update (l.releaseRequest u)) w).1) heffect _ rfl rfl url
  · obtain ⟨e, he⟩ : ∃ e, releaseOf (.text l.name) (textsOf (l.sentFields u)) = .error e := by
      show ∃ e, releaseOf _ (textsOf (releaseTexts l.name u (some l.atMost))) = .error e
      exact releaseOf_early hu fun h => hlegible ⟨h.2 l.atMost rfl, h.1⟩
    simp only [handleRoute, handleUpdate, hbody, he]
    exact refusal_served (fun h => hlegible ⟨h.1.atMost, h.1.lockUntil⟩) e url

end LeaseNode

/-! ## The way to the node -/

namespace Client

/-- **A base URL that leads to a node**: a call to one of the paths of writes arrives with this path. -/
structure Reaches (c : Client) : Prop where
  acquire : (tidyUrl (c.baseUrl ++ "/api/lease/acquire")).2 = "/api/lease/acquire"
  update : (tidyUrl (c.baseUrl ++ "/api/lease/update")).2 = "/api/lease/update"

/-- What stands before the first colon is the scheme. -/
theorem cutScheme_origin {scheme : List Char} (hs : ':' ∉ scheme) (rest : List Char) :
    cutScheme (scheme ++ ':' :: '/' :: '/' :: rest) = some (scheme, rest) := by
  induction scheme with
  | nil => rfl
  | cons c more ih =>
    rw [List.mem_cons, not_or] at hs
    rw [List.cons_append, cutScheme, ih hs.2]
    · rfl
    · intro tail h _
      exact hs.1 h.symm

theorem splitUrl_origin {scheme host : String} (hs : ':' ∉ scheme.toList) (hh : '/' ∉ host.toList) {path : String}
    {more : List Char} (hpath : path.toList = '/' :: more) :
    splitUrl (scheme ++ "://" ++ host ++ path) = (scheme ++ "://" ++ host, path) := by
  have hchars : (scheme ++ "://" ++ host ++ path).toList =
      scheme.toList ++ ':' :: '/' :: '/' :: (host.toList ++ path.toList) := by
    simp
  have hhost : (host.toList ++ path.toList).takeWhile (· ≠ '/') = host.toList := by
    have hall : ∀ c ∈ host.toList, decide (c ≠ '/') = true := fun c hc => by
      rw [decide_eq_true_eq]
      exact fun h => hh (h ▸ hc)
    rw [List.takeWhile_append_of_pos hall, hpath]
    simp
  rw [splitUrl, hchars, cutScheme_origin hs]
  simp only [hhost, String.ofList_toList, List.drop_left]

/-- **A base URL of scheme and host leads to the node of that host.** -/
theorem reaches_origin {c : Client} {scheme host : String} (hbase : c.baseUrl = scheme ++ "://" ++ host)
    (hs : ':' ∉ scheme.toList) (hh : '/' ∉ host.toList) : c.Reaches where
  acquire := by
    have hpath : Text.Percent.tidyPath "/api/lease/acquire" = "/api/lease/acquire" := by decide +kernel
    rw [hbase, tidyUrl, splitUrl_origin hs hh rfl]
    exact hpath
  update := by
    have hpath : Text.Percent.tidyPath "/api/lease/update" = "/api/lease/update" := by decide +kernel
    rw [hbase, tidyUrl, splitUrl_origin hs hh rfl]
    exact hpath

end Client

/-- The call of a write. -/
def Client.callOf (c : Client) (path : String) (payload : Value) : Call := ⟨"POST", c.baseUrl ++ path, some payload⟩

namespace NodeParty

/-- The URL under which a delivery is known. -/
def urlOf (call : Call) : String := (tidyUrl call.url).1 ++ (tidyUrl call.url).2

/-- A call to a path does what the request to this path does, and the answer is delivered. -/
theorem send_eq (call : Call) {path : String} (hpath : (tidyUrl call.url).2 = path) (w : World NodeParty) :
    (send call w).1.store.node.memory =
        (LeaseNode.handle w.store.clock (requestOf call path) ⟨w.store.node, w.ledger⟩).1.store.memory ∧
      (send call w).2 = deliveryOf (urlOf call)
        (LeaseNode.handle w.store.clock (requestOf call path) ⟨w.store.node, w.ledger⟩).2 := by
  subst hpath
  refine ⟨rfl, ?_⟩
  simp only [send, onNode]
  cases (LeaseNode.handle w.store.clock (requestOf call (tidyUrl call.url).2) ⟨w.store.node, w.ledger⟩).2 <;> rfl

/-- So what the request is served is what the call is served. -/
theorem send_served {m : Memory} {name : String} {r : LeaseRecord} {condition : Prop} (call : Call) {path : String}
    (hpath : (tidyUrl call.url).2 = path) {w : World NodeParty}
    (h : ∀ now, Served m name r condition (urlOf call)
      (LeaseNode.handle now (requestOf call path) ⟨w.store.node, w.ledger⟩).1.store.memory
      (deliveryOf (urlOf call) (LeaseNode.handle now (requestOf call path) ⟨w.store.node, w.ledger⟩).2)) :
    Served m name r condition (urlOf call) (send call w).1.store.node.memory (send call w).2 := by
  obtain ⟨hmemory, hdelivery⟩ := send_eq call hpath w
  rw [hmemory, hdelivery]
  exact h w.store.clock

/-- **The call of an acquire.** -/
theorem send_acquire {client : Client} (hr : client.Reaches) {c : Claim} (hc : c.IsWhole) (identity : String)
    {call : Call} (hcall : call = client.callOf "/api/lease/acquire" (.object (textsOf (c.sentFields identity))))
    (w : World NodeParty) :
    Served w.store.node.memory c.name (c.record (.text identity))
      (c.Sendable identity ∧ w.store.node.memory.Free c.name c.takenAt) (urlOf call)
      (send call w).1.store.node.memory (send call w).2 := by
  have hmethod : call.method = "POST" := by rw [hcall]; rfl
  have hpayload : call.payload = some (.object (textsOf (c.sentFields identity))) := by rw [hcall]; rfl
  have hpath : (tidyUrl call.url).2 = "/api/lease/acquire" := by rw [hcall]; exact hr.acquire
  exact send_served call hpath fun now =>
    LeaseNode.handle_acquire hc identity hmethod hpayload now ⟨w.store.node, w.ledger⟩ _

/-- **The call of a release.** -/
theorem send_release {client : Client} (hr : client.Reaches) {l : Lease} (hl : l.IsWhole) (hname : l.name ≠ "")
    {u : Instant} (hu : u.IsWhole) {call : Call}
    (hcall : call = client.callOf "/api/lease/update" (.object (textsOf (l.sentFields u)))) (w : World NodeParty) :
    Served w.store.node.memory l.name (w.store.node.memory.released l u)
      (l.Sendable u ∧ w.store.node.memory.endOf l.name = some l.atMost) (urlOf call)
      (send call w).1.store.node.memory (send call w).2 := by
  have hmethod : call.method = "POST" := by rw [hcall]; rfl
  have hpayload : call.payload = some (.object (textsOf (l.sentFields u))) := by rw [hcall]; rfl
  have hpath : (tidyUrl call.url).2 = "/api/lease/update" := by rw [hcall]; exact hr.update
  exact send_served call hpath fun now =>
    LeaseNode.handle_release hl hname hu hmethod hpayload now ⟨w.store.node, w.ledger⟩ _

end NodeParty
end Http
end Leasehold
