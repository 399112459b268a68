/-
  What a lease node takes in.

  Anything may come to the two routes that take writes: bytes that are no text, a text that is no JSON, JSON that is no object,
  an object without a name, a name of any kind, times of any kind, a body that is too long.  Here is what each of them is
  answered, whatever codecs the server of the node has.

  1. **`Serviceable`** — a body that asks for something: an object with a name that can name an entry, whose times all denote a
     moment of UTC;
  2. **`RaisesUncaught`** — a body that makes the node raise an error which its handlers do not catch: no codec is known by the
     name of its charset (`LookupError`), it is nested too deep (`RecursionError`), its name is a list or an object
     (`TypeError`, raised in the store), or the first time that denotes no moment is a timestamp outside the years 1 to 9999
     in UTC (`OverflowError`);
  3. **`Reads`** — reading the times one by one: all of them denote a moment, or the first that does not is told.  A body's
     times are read so, whichever route it came to (`acquireOf_reads`, `releaseOf_reads`);
  4. **`handle_replies`** — a body that is serviceable is answered by 200 or 409, one that raises such an error by 500, one that
     is too long by 413, and any other by 400 with an object that tells the error; **`intake`** is that as equivalences.
-/
import Leasehold.Proofs.Replies
import Leasehold.Proofs.StoreCall
namespace Leasehold.Http

/-! ## Times as they are stated -/

/-- A value that denotes a moment of UTC. -/
def Denotes (v : Option Value) : Prop := ∃ text i, v = some (.text text) ∧ Instant.ofTimestamp text = .ok i

/-- A timestamp outside the years 1 to 9999 in UTC. -/
def OutOfCalendar (v : Option Value) : Prop :=
  ∃ text, v = some (.text text) ∧ Instant.ofTimestamp text = .error .outOfCalendar

theorem OutOfCalendar.not_denotes {v : Option Value} (h : OutOfCalendar v) : ¬Denotes v := by
  obtain ⟨text, rfl, hout⟩ := h
  rintro ⟨text', i, heq, hdenotes⟩
  cases heq
  rw [hout] at hdenotes
  cases hdenotes

/-- The first of some values that denotes no moment is a timestamp outside the years 1 to 9999 in UTC. -/
inductive FirstOutOfCalendar : List (Option Value) → Prop where
  | here {v : Option Value} {vs : List (Option Value)} (h : OutOfCalendar v) : FirstOutOfCalendar (v :: vs)
  | later {v : Option Value} {vs : List (Option Value)} (h : Denotes v) (rest : FirstOutOfCalendar vs) :
      FirstOutOfCalendar (v :: vs)

theorem FirstOutOfCalendar.not_all {vs : List (Option Value)} (h : FirstOutOfCalendar vs) : ¬∀ v ∈ vs, Denotes v := by
  induction h with
  | here hout => exact fun hall => hout.not_denotes (hall _ List.mem_cons_self)
  | later _ _ ih => exact fun hall => ih fun v hv => hall v (List.mem_cons_of_mem _ hv)

/-- **Reading values one by one**: all of them denote a moment, and what is made of them has a property; or the first that
does not is told, by a fault in the data, or by the error of a time outside the calendar. -/
inductive Reads {α : Type} (P : α → Prop) : List (Option Value) → Except Error α → Prop where
  | all {a : α} (h : P a) : Reads P [] (.ok a)
  | next {v : Option Value} {vs : List (Option Value)} {x : Except Error α} (h : Denotes v) (rest : Reads P vs x) :
      Reads P (v :: vs) x
  | malformed {v : Option Value} {vs : List (Option Value)} {e : Error} (h : ¬Denotes v) (within : ¬OutOfCalendar v)
      (fault : e.isDataFault = true) : Reads P (v :: vs) (.error e)
  | overflows {v : Option Value} {vs : List (Option Value)} (h : OutOfCalendar v) :
      Reads P (v :: vs) (.error (.time .outOfCalendar))

namespace Reads

variable {α : Type} {P : α → Prop} {vs : List (Option Value)}

theorem of_ok {a : α} (h : Reads P vs (.ok a)) : (∀ v ∈ vs, Denotes v) ∧ P a := by
  generalize hx : (Except.ok a : Except Error α) = x at h
  induction h with
  | all h =>
    cases hx
    exact ⟨nofun, h⟩
  | next hdenotes _ ih =>
    obtain ⟨hall, hP⟩ := ih hx
    exact ⟨List.forall_mem_cons.mpr ⟨hdenotes, hall⟩, hP⟩
  | malformed => cases hx
  | overflows => cases hx

theorem of_error {e : Error} (h : Reads P vs (.error e)) : (¬∀ v ∈ vs, Denotes v) ∧
    ((e.isDataFault = true ∧ ¬FirstOutOfCalendar vs) ∨ (e = .time .outOfCalendar ∧ FirstOutOfCalendar vs)) := by
  generalize hx : (Except.error e : Except Error α) = x at h
  induction h with
  | all => cases hx
  | next hdenotes _ ih =>
    obtain ⟨hnot, hfault⟩ := ih hx
    refine ⟨fun hall => hnot fun v hv => hall v (List.mem_cons_of_mem _ hv), hfault.imp ?_ ?_⟩
    · rintro ⟨hdata, hstays⟩
      refine ⟨hdata, fun hfirst => ?_⟩
      cases hfirst with
      | here hout => exact hout.not_denotes hdenotes
      | later _ rest => exact hstays rest
    · exact fun ⟨htime, hfirst⟩ => ⟨htime, .later hdenotes hfirst⟩
  | malformed hnot hwithin hfault =>
    cases hx
    refine ⟨fun hall => hnot (hall _ List.mem_cons_self), .inl ⟨hfault, fun hfirst => ?_⟩⟩
    cases hfirst with
    | here hout => exact hwithin hout
    | later hdenotes _ => exact hnot hdenotes
  | overflows hout =>
    cases hx
    exact ⟨fun hall => hout.not_denotes (hall _ List.mem_cons_self), .inr ⟨rfl, .here hout⟩⟩

/-- The next value is read as a time, -/
theorem time {f : Instant → Except Error α} (v : Value) (h : ∀ i, Reads P vs (f i)) :
    Reads P (some v :: vs) (LeaseRecord.readTime v >>= f) := by
  cases hread : LeaseRecord.readTime v with
  | ok i =>
    obtain ⟨text, rfl, htext⟩ := LeaseRecord.readTime_ok hread
    exact .next ⟨text, i, rfl, htext⟩ (h i)
  | error e =>
    rcases LeaseRecord.readTime_fault hread with hdata | ⟨text, rfl, htext, rfl⟩
    · refine .malformed ?_ ?_ hdata
      · rintro ⟨text, i, heq, htext⟩
        cases heq
        rw [LeaseRecord.readTime, htext] at hread
        cases hread
      · rintro ⟨text, heq, htext⟩
        cases heq
        rw [LeaseRecord.readTime, htext] at hread
        cases hread
        cases hdata
    · exact .overflows ⟨text, rfl, htext⟩

/-- and if it has to be there, it may be missing. -/
theorem required {f : Instant → Except Error α} (key : String) (fields : List (String × Value))
    (h : ∀ i, Reads P vs (f i)) :
    Reads P (Value.field? key fields :: vs) (LeaseNode.requiredTime key fields >>= f) := by
  cases hfield : Value.field? key fields with
  | some v =>
    simp only [LeaseNode.requiredTime, LeaseRecord.required, hfield]
    exact .time v h
  | none =>
    simp only [LeaseNode.requiredTime, LeaseRecord.required, hfield]
    refine .malformed ?_ ?_ rfl
    · rintro ⟨text, i, heq, -⟩
      cases heq
    · rintro ⟨text, heq, -⟩
      cases heq

/-- At the end there may be one more, if it is not blank. -/
theorem optional {f : Option Instant → Except Error α} (key : String) (fields : List (String × Value))
    (h : ∀ t, Reads P [] (f t)) :
    Reads P (((Value.field? key fields).filter (·.truthy)).toList.map some)
      (LeaseRecord.readOptionalTime key fields >>= f) := by
  simp only [LeaseRecord.readOptionalTime]
  cases Value.field? key fields with
  | none => exact h none
  | some v =>
    by_cases htrue : v.truthy = true
    · have hbind : (LeaseRecord.readTime v).map some >>= f = LeaseRecord.readTime v >>= fun i => f (some i) := by
        cases LeaseRecord.readTime v <;> rfl
      simp only [Option.filter_some, htrue, if_true, hbind]
      exact .time v fun i => h (some i)
    · simp only [Option.filter_some, htrue]
      exact h none

end Reads

/-! ## The two routes -/

/-- The routes that take writes. -/
inductive WriteRoute where
  | acquire
  | update

namespace WriteRoute

def route : WriteRoute → Route
  | acquire => .acquire
  | update => .update

/-- **The times that a body states** for a route, in the order in which they are read; one that has to be there may be
missing.  An acquire may state when it asks, and an update, by a value that is not blank, when the lease is held until. -/
def times (fields : List (String × Value)) : WriteRoute → List (Option Value)
  | acquire =>
    Value.field? "lock_until" fields :: Value.field? "locked_at" fields ::
      ((Value.field? "available_at" fields).toList.map some)
  | update =>
    Value.field? "lock_until" fields :: (((Value.field? "held_until" fields).filter (·.truthy)).toList.map some)

end WriteRoute

namespace LeaseNode

/-- An acquire that asks for a name, with moments for its times. -/
def AsksAcquire (name : Value) (p : AcquireRequest × Instant) : Prop :=
  p.1.name = name ∧ ∃ u s a, p.1.lockUntil = .moment u ∧ p.1.lockedAt = .moment s ∧ p.1.availableAt = .moment a

/-- A release that asks for a name, with moments for its times, and perhaps without a condition. -/
def AsksRelease (name : Value) (p : ReleaseRequest × Instant) : Prop :=
  p.1.name = name ∧ ∃ u, p.1.lockUntil = .moment u ∧ (p.1.heldUntil = .none ∨ ∃ h, p.1.heldUntil = .moment h)

/-- **How the fields of an acquire are read**, -/
theorem acquireOf_reads (name : Value) (fields : List (String × Value)) :
    Reads (AsksAcquire name) (WriteRoute.acquire.times fields) (acquireOf name fields) := by
  refine .required "lock_until" fields fun u => .required "locked_at" fields fun s => ?_
  cases Value.field? "available_at" fields with
  | none => exact .all ⟨rfl, u, s, s, rfl, rfl, rfl⟩
  | some v => exact .time v fun a => .all ⟨rfl, u, s, a, rfl, rfl, rfl⟩

/-- **and those of a release.** -/
theorem releaseOf_reads (name : Value) (fields : List (String × Value)) :
    Reads (AsksRelease name) (WriteRoute.update.times fields) (releaseOf name fields) := by
  refine .required "lock_until" fields fun u => .optional "held_until" fields fun held => .all ⟨rfl, u, rfl, ?_⟩
  cases held with
  | none => exact .inl rfl
  | some h => exact .inr ⟨h, rfl⟩

end LeaseNode

/-! ## Bodies -/

/-- A body that a codec reads as a text of JSON, but nested too deep. -/
def TooDeep (codec : Text.Codec) (body : List UInt8) : Prop :=
  ∃ cs fault inList, codec.decode body = .ok cs ∧ Json.read cs = .error fault ∧ fault.missing = .lessNesting inList

namespace Request

/-- A body of so many bytes that it is not read. -/
def TooLong (req : Request) : Prop := LeaseNode.bodyLimit ≤ req.body.length

/-- A body for which a codec is looked up: it is not too long, and not empty. -/
structure NeedsCodec (req : Request) : Prop where
  short : ¬req.TooLong
  full : req.body ≠ []

/-- The body is a JSON object with some fields, one of them a name that is not blank. -/
structure Names (req : Request) (server : Server) (name : Value) (fields : List (String × Value)) : Prop where
  object : LeaseNode.bodyValue server req = .ok (.object fields)
  named : Value.field? "name" fields = some name
  truthy : name.truthy = true

theorem Names.unique {req : Request} {server : Server} {name name' : Value} {fields fields' : List (String × Value)}
    (h : req.Names server name fields) (h' : req.Names server name' fields') : name' = name ∧ fields' = fields := by
  have hobject := h'.object.symm.trans h.object
  injection hobject with hobject
  injection hobject with hfields
  subst hfields
  exact ⟨Option.some.inj (h'.named.symm.trans h.named), rfl⟩

/-- **A body that asks for something**: a name that can name an entry, and times that all denote a moment of UTC. -/
def Serviceable (p : WriteRoute) (server : Server) (req : Request) : Prop :=
  ∃ name fields, req.Names server name fields ∧ name.isKey = true ∧ ∀ v ∈ p.times fields, Denotes v

/-- **A body that makes the node raise an error which its handlers do not catch.** -/
inductive RaisesUncaught (p : WriteRoute) (server : Server) (req : Request) : Prop where
  | charset (needs : req.NeedsCodec) (h : LeaseNode.codecOf server.codecs req = none)
  | nesting (needs : req.NeedsCodec) {codec : Text.Codec} (h : LeaseNode.codecOf server.codecs req = some codec)
      (deep : TooDeep codec req.body)
  | key {name : Value} {fields : List (String × Value)} (h : req.Names server name fields) (nothing : name.isKey = false)
      (times : ∀ v ∈ p.times fields, Denotes v)
  | calendar {name : Value} {fields : List (String × Value)} (h : req.Names server name fields)
      (times : FirstOutOfCalendar (p.times fields))

end Request

namespace LeaseNode

open Request

/-- A fault in JSON is a malformed value, unless it is one of depth. -/
theorem document_isValue (fault : Json.Located) :
    (Error.document fault).isA .value = true ↔ ¬∃ inList, fault.missing = .lessNesting inList := by
  simp only [Error.isA, Error.kind]
  cases fault.missing with
  | lessNesting inList => exact iff_of_false Bool.false_ne_true fun hnot => hnot ⟨inList, rfl⟩
  | _ => exact iff_of_true rfl (by simp)

/-- Decoding a body fails with an error that is not caught if the body is nested too deep; -/
theorem decodeBody_broken (codec : Text.Codec) (body : List UInt8) :
    decodeBody codec body = .error .broken ↔ TooDeep codec body := by
  simp only [decodeBody, TooDeep]
  cases codec.decode body with
  | error e => exact iff_of_false (by simp) (by simp)
  | ok cs =>
    simp only [Except.ok.injEq, exists_and_left, exists_eq_left']
    cases Json.read cs with
    | ok v => exact iff_of_false (by simp) (by simp)
    | error fault =>
      simp only [Except.error.injEq, exists_eq_left']
      by_cases hvalue : (Error.document fault).isA .value = true
      · exact iff_of_false (by simp [hvalue]) ((document_isValue fault).mp hvalue)
      · have hdeep : ∃ inList, fault.missing = .lessNesting inList :=
          Classical.byContradiction fun hno => hvalue ((document_isValue fault).mpr hno)
        exact iff_of_true (by simp [hvalue]) hdeep

/-- and what is no JSON is answered so. -/
theorem decodeBody_answer {codec : Text.Codec} {body : List UInt8} {r : Response}
    (h : decodeBody codec body = .error (.answer r)) : r = badBody "invalid_json" := by
  simp only [decodeBody] at h
  split at h
  · cases h
    rfl
  split at h
  · cases h
  split at h
  · cases h
    rfl
  · cases h

section

variable {p : WriteRoute} {server : Server} {req : Request}

/-- **A body is too long, or empty, or a codec is looked up for it.** -/
theorem bodyValue_cases (server : Server) (req : Request) :
    (req.TooLong ∧ bodyValue server req = .error (.answer (tooLarge (server.sizeSeen req.body)))) ∨
      (¬req.TooLong ∧ req.body = [] ∧ bodyValue server req = .error (.answer (badBody "invalid_json"))) ∨
      (req.NeedsCodec ∧ bodyValue server req =
        (codecOf server.codecs req).elim (.error .broken) fun codec => decodeBody codec req.body) := by
  by_cases hlong : bodyLimit ≤ req.body.length
  · exact .inl ⟨hlong, if_pos hlong⟩
  by_cases hempty : req.body = []
  · refine .inr (.inl ⟨hlong, hempty, ?_⟩)
    rw [bodyValue, if_neg hlong, if_pos (List.isEmpty_iff.mpr hempty)]
  · refine .inr (.inr ⟨⟨hlong, hempty⟩, ?_⟩)
    rw [bodyValue, if_neg hlong, if_neg fun h => hempty (List.isEmpty_iff.mp h)]
    cases codecOf server.codecs req <;> rfl

/-- **Reading a body raises an error that is not caught** just if no codec is known for it, or it is nested too deep. -/
theorem bodyValue_broken : bodyValue server req = .error .broken ↔
    req.NeedsCodec ∧ (codecOf server.codecs req = none ∨
      ∃ codec, codecOf server.codecs req = some codec ∧ TooDeep codec req.body) := by
  rcases bodyValue_cases server req with ⟨hlong, hvalue⟩ | ⟨-, hempty, hvalue⟩ | ⟨hneeds, hvalue⟩
  · rw [hvalue]
    exact iff_of_false nofun fun h => h.1.short hlong
  · rw [hvalue]
    exact iff_of_false nofun fun h => h.1.full hempty
  · rw [hvalue, and_iff_right hneeds]
    cases codecOf server.codecs req with
    | none => simp
    | some codec => simp [decodeBody_broken]

/-- What is answered instead of read is too long, or no JSON. -/
theorem bodyValue_answer {r : Response} (h : bodyValue server req = .error (.answer r)) :
    (req.TooLong ∧ ∃ size, r = tooLarge size) ∨ (¬req.TooLong ∧ r = badBody "invalid_json") := by
  rcases bodyValue_cases server req with ⟨hlong, hvalue⟩ | ⟨hshort, -, hvalue⟩ | ⟨hneeds, hvalue⟩ <;> rw [hvalue] at h
  · cases h
    exact .inl ⟨hlong, _, rfl⟩
  · cases h
    exact .inr ⟨hshort, rfl⟩
  · refine .inr ⟨hneeds.short, ?_⟩
    cases hcodec : codecOf server.codecs req with
    | none =>
      rw [hcodec] at h
      cases h
    | some codec =>
      rw [hcodec] at h
      exact decodeBody_answer h

/-- What can be read is not too long. -/
theorem bodyValue_short {v : Value} (h : bodyValue server req = .ok v) : ¬req.TooLong := by
  intro hlong
  rw [bodyValue, if_pos (show bodyLimit ≤ req.body.length from hlong)] at h
  cases h

/-- **Reading a body**: a name and fields; or an answer to one that is too long, or that has no name; or an error that is not
caught. -/
theorem bodyFields_cases (server : Server) (req : Request) :
    (∃ name fields, bodyFields server req = .ok (name, fields) ∧ req.Names server name fields) ∨
      (req.TooLong ∧ ∃ size, bodyFields server req = .error (.answer (tooLarge size))) ∨
      (¬req.TooLong ∧ bodyValue server req ≠ .error .broken ∧ (∀ name fields, ¬req.Names server name fields) ∧
        ∃ fault, bodyFields server req = .error (.answer (badBody fault))) ∨
      (bodyFields server req = .error .broken ∧ bodyValue server req = .error .broken) := by
  cases hvalue : bodyValue server req with
  | error fault =>
    have hfields : bodyFields server req = .error fault := by
      simp only [bodyFields, hvalue]
      rfl
    cases fault with
    | broken => exact .inr (.inr (.inr ⟨hfields, rfl⟩))
    | answer r =>
      rcases bodyValue_answer hvalue with ⟨hlong, size, rfl⟩ | ⟨hshort, rfl⟩
      · exact .inr (.inl ⟨hlong, size, hfields⟩)
      · refine .inr (.inr (.inl ⟨hshort, by simp, fun name fields h => ?_, _, hfields⟩))
        cases hvalue.symm.trans h.object
  | ok v =>
    have hshort := bodyValue_short hvalue
    have hread : ∀ {name fields}, req.Names server name fields → v = .object fields := fun h =>
      Except.ok.inj (hvalue.symm.trans h.object)
    -- without a name, the answer says that one is required
    have hnameless : bodyFields server req = .error (.answer (badBody "name_required")) →
        (∀ name fields, ¬req.Names server name fields) →
        ¬req.TooLong ∧ Except.ok v ≠ .error BodyFault.broken ∧ (∀ name fields, ¬req.Names server name fields) ∧
          ∃ fault, bodyFields server req = .error (.answer (badBody fault)) :=
      fun hfields hnone => ⟨hshort, by simp, hnone, _, hfields⟩
    cases v with
    | object fields =>
      cases hname : Value.field? "name" fields with
      | none =>
        refine .inr (.inr (.inl (hnameless ?_ fun name fields' h => ?_)))
        · simp only [bodyFields, hvalue, bind, Except.bind, hname]
        · cases hread h
          cases hname.symm.trans h.named
      | some name =>
        by_cases htrue : name.truthy = true
        · refine .inl ⟨name, fields, ?_, hvalue, hname, htrue⟩
          simp only [bodyFields, hvalue, bind, Except.bind, hname, htrue, if_true]
          rfl
        · refine .inr (.inr (.inl (hnameless ?_ fun name' fields' h => ?_)))
          · simp only [bodyFields, hvalue, bind, Except.bind, hname, htrue]
            rfl
          · cases hread h
            obtain rfl := Option.some.inj (hname.symm.trans h.named)
            exact htrue h.truthy
    | _ =>
      refine .inr (.inr (.inl (hnameless (by simp only [bodyFields, hvalue]; rfl) fun name fields h => ?_)))
      cases hread h

/-! ## Replies -/

/-- In a body that can be read, it is the name or a time that raises such an error. -/
theorem raises_read (h : req.RaisesUncaught p server) (hread : bodyValue server req ≠ .error .broken) :
    ∃ name fields, req.Names server name fields ∧
      ((name.isKey = false ∧ ∀ v ∈ p.times fields, Denotes v) ∨ FirstOutOfCalendar (p.times fields)) := by
  cases h with
  | charset hneeds hnone => exact absurd (bodyValue_broken.mpr ⟨hneeds, .inl hnone⟩) hread
  | nesting hneeds hcodec hdeep => exact absurd (bodyValue_broken.mpr ⟨hneeds, .inr ⟨_, hcodec, hdeep⟩⟩) hread
  | key hnames hnothing htimes => exact ⟨_, _, hnames, .inl ⟨hnothing, htimes⟩⟩
  | calendar hnames hfirst => exact ⟨_, _, hnames, .inr hfirst⟩

theorem read_of_names {name : Value} {fields : List (String × Value)} (h : req.Names server name fields) :
    bodyValue server req ≠ .error .broken := by
  rw [h.object]
  nofun

/-- No serviceable body raises such an error, -/
theorem not_raises (h : req.Serviceable p server) : ¬req.RaisesUncaught p server := by
  obtain ⟨name, fields, hnames, hkey, htimes⟩ := h
  intro hraises
  obtain ⟨name', fields', hnames', hwhy⟩ := raises_read hraises (read_of_names hnames)
  obtain ⟨rfl, rfl⟩ := hnames.unique hnames'
  rcases hwhy with ⟨hnothing, -⟩ | hfirst
  · rw [hkey] at hnothing
    cases hnothing
  · exact hfirst.not_all htimes

/-- nor is one too long, -/
theorem short_of_serviceable (h : req.Serviceable p server) : ¬req.TooLong := by
  obtain ⟨_, _, hnames, -⟩ := h
  exact bodyValue_short hnames.object

/-- and a body that is too long raises no such error either. -/
theorem short_of_raises (h : req.RaisesUncaught p server) : ¬req.TooLong := by
  cases h with
  | charset hneeds _ => exact hneeds.short
  | nesting hneeds _ _ => exact hneeds.short
  | key hnames _ _ => exact bodyValue_short hnames.object
  | calendar hnames _ => exact bodyValue_short hnames.object

/-- **What a body is answered**, and why. -/
inductive Replies (p : WriteRoute) (server : Server) (req : Request) : Response → Prop where
  | served {r : Response} (h : req.Serviceable p server) (status : r.status = 200 ∨ r.status = 409) : Replies p server req r
  | tooLong {size : Nat} (h : req.TooLong) : Replies p server req (tooLarge size)
  | malformed {fault : String} (short : ¬req.TooLong) (useless : ¬req.Serviceable p server)
      (clear : ¬req.RaisesUncaught p server) : Replies p server req (badBody fault)
  | broken (h : req.RaisesUncaught p server) : Replies p server req brokenAnswer

namespace Replies

/-- The reply to a body that cannot be read, -/
theorem of_broken (h : bodyValue server req = .error .broken) : Replies p server req brokenAnswer := by
  obtain ⟨hneeds, hnone | ⟨codec, hcodec, hdeep⟩⟩ := bodyValue_broken.mp h
  · exact .broken (.charset hneeds hnone)
  · exact .broken (.nesting hneeds hcodec hdeep)

/-- to a body without a name, -/
theorem of_nameless {fault : String} (hshort : ¬req.TooLong) (hread : bodyValue server req ≠ .error .broken)
    (h : ∀ name fields, ¬req.Names server name fields) : Replies p server req (badBody fault) := by
  refine .malformed hshort ?_ fun hraises => ?_
  · rintro ⟨name, fields, hnames, -⟩
    exact h name fields hnames
  · obtain ⟨name, fields, hnames, -⟩ := raises_read hraises hread
    exact h name fields hnames

variable {α : Type} {P : α → Prop} {name : Value} {fields : List (String × Value)}

/-- and to a body with a name, one of whose times is none. -/
theorem of_fault {e : Error} (hnames : req.Names server name fields)
    (h : Reads P (p.times fields) (.error e)) : Replies p server req (refusal e) := by
  obtain ⟨hnot, ⟨hdata, hwithin⟩ | ⟨rfl, hfirst⟩⟩ := h.of_error
  · have hrefusal : refusal e = badBody ("invalid_request: " ++ e.message) := if_pos hdata
    rw [hrefusal]
    refine .malformed (bodyValue_short hnames.object) ?_ fun hraises => ?_
    · rintro ⟨name', fields', hnames', -, htimes⟩
      obtain ⟨-, rfl⟩ := hnames.unique hnames'
      exact hnot htimes
    · obtain ⟨name', fields', hnames', hwhy⟩ := raises_read hraises (read_of_names hnames)
      obtain ⟨-, rfl⟩ := hnames.unique hnames'
      rcases hwhy with ⟨-, htimes⟩ | hfirst
      · exact hnot htimes
      · exact hwithin hfirst
  · exact .broken (.calendar hnames hfirst)

/-- A body that raises such an error is answered in one way. -/
theorem of_raises {r : Response} (h : Replies p server req r) (hraises : req.RaisesUncaught p server) : r = brokenAnswer := by
  cases h with
  | served hserviceable _ => exact absurd hraises (not_raises hserviceable)
  | tooLong hlong => exact absurd hlong (short_of_raises hraises)
  | malformed _ _ hclear => exact absurd hraises hclear
  | broken _ => rfl

end Replies

end

/-! ## Writes -/

/-- What a write comes to whose decision is always made: it is answered, or told that its condition does not hold, or, if its
name can name nothing, told that. -/
def Decided (name : Value) (o : Outcome LeaseRecord) : Prop :=
  if name.isKey then (∃ record, o = .answered record) ∨ ∃ e, o = .failed e ∧ e.isA .conditionNotMet = true
  else ∃ e, o = .failed e ∧ e.isA .conditionNotMet = false

theorem write_decided {work : Memory → Memory × Except Error LeaseRecord} {name : Value}
    {decision : Option LeaseRecord → Except Error Decision}
    (hwork : ∀ m, work m = m.apply name (do decision (← m.lookup name))) (hd : ∀ existing, ∃ d, decision existing = .ok d)
    {w : World Memory} (hway : w.store.pass = (w.store, .through)) : Decided name (Memory.write work w).2 := by
  rw [(Memory.write_through hway work).2, hwork]
  by_cases hkey : name.isKey = true
  · obtain ⟨d, hdecision⟩ := hd (w.store.find? name)
    have hlookup : w.store.lookup name = .ok (w.store.find? name) := if_pos hkey
    simp only [Decided, hkey, if_true, hlookup, bind, Except.bind, hdecision]
    cases d with
    | rejected => exact .inr ⟨_, rfl, rfl⟩
    | written record => exact .inl ⟨record, rfl⟩
  · have hlookup : w.store.lookup name = .error (.mismatch (.key name.kindName)) := if_neg hkey
    simp only [Decided, hkey, hlookup, bind, Except.bind]
    exact ⟨_, rfl, rfl⟩

/-- **The write that an acquire asks for is decided**, -/
theorem tryUpdate_decided {name : Value} {a : AcquireRequest × Instant} (ha : AsksAcquire name a) {w : World Memory}
    (hway : w.store.pass = (w.store, .through)) : Decided name (Memory.store.tryUpdate a.1 w).2 := by
  obtain ⟨⟨_, _, _, who, _⟩, lockUntil⟩ := a
  obtain ⟨rfl, u, s, t, rfl, rfl, rfl⟩ := ha
  exact write_decided (fun _ => rfl) (fun existing => Decision.forAcquire_moments existing _ who u s t) hway

/-- and so is the one of a release. -/
theorem update_decided {name : Value} {a : ReleaseRequest × Instant} (ha : AsksRelease name a) {w : World Memory}
    (hway : w.store.pass = (w.store, .through)) : Decided name (Memory.store.update a.1 w).2 := by
  obtain ⟨⟨_, _, _⟩, lockUntil⟩ := a
  obtain ⟨rfl, u, rfl, hheld⟩ := ha
  exact write_decided (fun _ => rfl) (fun existing => Decision.forRelease_moments existing _ u hheld) hway

/-- **The answer to a write that is decided**, for a body whose times all denote moments. -/
theorem Decided.replies {p : WriteRoute} {server : Server} {req : Request} {name : Value} {fields : List (String × Value)}
    {o : Outcome LeaseRecord} (h : Decided name o) (hnames : req.Names server name fields)
    (htimes : ∀ v ∈ p.times fields, Denotes v)
    (applied rejected : World LeaseNode → World LeaseNode) (w : World LeaseNode) :
    ∃ r, (answerWrite name applied rejected w o).2 = .answered r ∧ Replies p server req r := by
  by_cases hkey : name.isKey = true
  · have hserved : ∀ {r : Response}, r.status = 200 ∨ r.status = 409 → Replies p server req r :=
      .served ⟨name, fields, hnames, hkey, htimes⟩
    simp only [Decided, hkey, if_true] at h
    rcases h with ⟨record, rfl⟩ | ⟨e, rfl, hunmet⟩
    · exact ⟨_, rfl, hserved (.inl rfl)⟩
    · refine ⟨conflict name, ?_, hserved (.inr rfl)⟩
      simp only [answerWrite, hunmet, if_true]
  · simp only [Decided, hkey] at h
    obtain ⟨e, rfl, hother⟩ := h
    refine ⟨brokenAnswer, ?_, .broken (.key hnames (by simpa using hkey) htimes)⟩
    simp only [answerWrite, hother]
    rfl

/-! ## Requests -/

/-- **Every body is answered, and for its own reason**: on its route, -/
theorem handleRoute_replies (p : WriteRoute) (req : Request) (now : GivenTime) {w : World LeaseNode}
    (hway : w.store.memory.pass = (w.store.memory, .through)) :
    ∃ r, (handleRoute now req w p.route).2 = .answered r ∧ Replies p w.store.server req r := by
  rcases bodyFields_cases w.store.server req with
    ⟨name, fields, hfields, hnames⟩ | ⟨hlong, size, hfields⟩ | ⟨hshort, hread, hnone, fault, hfields⟩ | ⟨hfields, hbroken⟩
  · cases p with
    | acquire =>
      have hreads := acquireOf_reads name fields
      simp only [WriteRoute.route, handleRoute, handleAcquire, hfields]
      cases hask : acquireOf name fields with
      | error e =>
        rw [hask] at hreads
        exact ⟨_, rfl, .of_fault hnames hreads⟩
      | ok a =>
        rw [hask] at hreads
        obtain ⟨htimes, hasks⟩ := hreads.of_ok
        exact (tryUpdate_decided (w := ⟨w.store.memory, w.ledger⟩) hasks hway).replies hnames htimes _ _ _
    | update =>
      have hreads := releaseOf_reads name fields
      simp only [WriteRoute.route, handleRoute, handleUpdate, hfields]
      cases hask : releaseOf name fields with
      | error e =>
        rw [hask] at hreads
        exact ⟨_, rfl, .of_fault hnames hreads⟩
      | ok a =>
        rw [hask] at hreads
        obtain ⟨htimes, hasks⟩ := hreads.of_ok
        exact (update_decided (w := ⟨w.store.memory, w.ledger⟩) hasks hway).replies hnames htimes _ _ _
  · refine ⟨tooLarge size, ?_, .tooLong hlong⟩
    cases p <;> simp only [WriteRoute.route, handleRoute, handleAcquire, handleUpdate, hfields]
  · refine ⟨badBody fault, ?_, .of_nameless hshort hread hnone⟩
    cases p <;> simp only [WriteRoute.route, handleRoute, handleAcquire, handleUpdate, hfields]
  · refine ⟨brokenAnswer, ?_, .of_broken hbroken⟩
    cases p <;> simp only [WriteRoute.route, handleRoute, handleAcquire, handleUpdate, hfields]

/-- and so where it came by its path. -/
theorem handle_replies (p : WriteRoute) (contentType : String) (body : List UInt8) (now : GivenTime) {w : World LeaseNode}
    (hway : w.store.memory.pass = (w.store.memory, .through)) :
    let req : Request := ⟨"POST", p.route.path, contentType, body⟩
    ∃ r, (handle now req w).2 = .answered r ∧ Replies p w.store.server req r := by
  intro req
  obtain ⟨r, hr, hreplies⟩ := handleRoute_replies p req now hway
  have hroute : destination "POST" p.route.path = .route p.route := by cases p <;> decide +kernel
  refine ⟨r, ?_, hreplies⟩
  simp only [handle, req, hroute]
  rw [hr]
  rfl

/-- **What the status of an answer tells about a body.** -/
structure StatusTells (p : WriteRoute) (server : Server) (req : Request) (r : Response) : Prop where
  /-- It is 200 or 409 just if the body is serviceable, -/
  served : (r.status = 200 ∨ r.status = 409) ↔ req.Serviceable p server
  /-- 500 just if the body makes the node raise an error which its handlers do not catch, -/
  broken : r.status = 500 ↔ req.RaisesUncaught p server
  /-- 413 just if the body is too long, -/
  tooLong : r.status = 413 ↔ req.TooLong
  /-- and 400 just if it is none of these; -/
  malformed : r.status = 400 ↔ ¬req.Serviceable p server ∧ ¬req.RaisesUncaught p server ∧ ¬req.TooLong
  /-- then the answer is an object that tells the error. -/
  told : r.status = 400 → ∃ fault, r = json 400 (.object [("error", .text fault)])

/-- **What a node takes in.**  Whatever is sent by POST to one of the two routes that take writes, a node whose store has no
trouble ahead answers it, and the status tells which kind of body it was.  The server of the node may have any codecs. -/
theorem intake (p : WriteRoute) (contentType : String) (body : List UInt8) (now : GivenTime) {w : World LeaseNode}
    (hway : w.store.memory.pass = (w.store.memory, .through)) :
    let req : Request := ⟨"POST", p.route.path, contentType, body⟩
    ∃ r, (handle now req w).2 = .answered r ∧ StatusTells p w.store.server req r := by
  intro req
  obtain ⟨r, hr, hreplies⟩ := handle_replies p contentType body now hway
  refine ⟨r, hr, ?_⟩
  cases hreplies with
  | served hserviceable hstatus =>
    have hnot : r.status ≠ 500 ∧ r.status ≠ 413 ∧ r.status ≠ 400 := by omega
    exact {
      served := iff_of_true hstatus hserviceable
      broken := iff_of_false hnot.1 (not_raises hserviceable)
      tooLong := iff_of_false hnot.2.1 (short_of_serviceable hserviceable)
      malformed := iff_of_false hnot.2.2 fun h => h.1 hserviceable
      told := fun h => absurd h hnot.2.2 }
  | tooLong hlong =>
    exact {
      served := iff_of_false (by rintro (h | h) <;> cases h) fun h => short_of_serviceable h hlong
      broken := iff_of_false nofun fun h => short_of_raises h hlong
      tooLong := iff_of_true rfl hlong
      malformed := iff_of_false nofun fun h => h.2.2 hlong
      told := nofun }
  | malformed hshort huseless hclear =>
    exact {
      served := iff_of_false (by rintro (h | h) <;> cases h) huseless
      broken := iff_of_false nofun hclear
      tooLong := iff_of_false nofun hshort
      malformed := iff_of_true rfl ⟨huseless, hclear, hshort⟩
      told := fun _ => ⟨_, rfl⟩ }
  | broken hraises =>
    exact {
      served := iff_of_false (by decide) fun h => not_raises h hraises
      broken := iff_of_true rfl hraises
      tooLong := iff_of_false nofun (short_of_raises hraises)
      malformed := iff_of_false nofun fun h => h.2.1 hraises
      told := nofun }

/-! ## An acquire that is taken in, and one that is not -/

/-- A node that was just made. -/
def freshNode : World LeaseNode := ⟨.make 1 "node" 5000, .empty⟩

/-- The fields of an acquire until a time. -/
def acquireUntil (lockUntil : String) : List (String × String) :=
  [("name", "nightly"), ("lock_until", lockUntil), ("locked_at", "2024-01-01T00:00:00.000Z")]

/-- The body with these fields. -/
def bodyUntil (lockUntil : String) : List UInt8 :=
  Text.Utf8.encode (Value.object (Json.textsOf (acquireUntil lockUntil))).write.toList

theorem bodyUntil_names (path : String) {lockUntil : String} (hlimit : (bodyUntil lockUntil).length < bodyLimit) :
    (⟨"POST", path, jsonType, bodyUntil lockUntil⟩ : Request).Names .usual (.text "nightly")
      (Json.textsOf (acquireUntil lockUntil)) := by
  have hcharset : charsetName? jsonType = none := by decide +kernel
  have hkeys : ((acquireUntil lockUntil).map (·.1)).Nodup := by
    show ["name", "lock_until", "locked_at"].Nodup
    decide
  have hread := Json.read_texts (show acquireUntil lockUntil ≠ [] from List.cons_ne_nil _ _) hkeys
  refine ⟨bodyValue_utf8 hcharset ?_ ?_ hread, rfl, by decide⟩
  · simp only [bodyUntil]
  · simpa only using hlimit

/-- An acquire for a minute is served by a node that was just made. -/
theorem intake_minute :
    (freshNode.store.memory.pass = (freshNode.store.memory, .through)) ∧
      ∃ r, (handle (.moment (later 0))
          ⟨"POST", "/api/lease/acquire", jsonType, bodyUntil "2024-01-01T00:01:00.000Z"⟩ freshNode).2 = .answered r ∧
        (r.status = 200 ∨ r.status = 409) := by
  have hway : freshNode.store.memory.pass = (freshNode.store.memory, .through) := rfl
  have hlimit : (bodyUntil "2024-01-01T00:01:00.000Z").length < bodyLimit := by decide +kernel
  have hnames : Request.Names ⟨"POST", WriteRoute.acquire.route.path, jsonType, bodyUntil "2024-01-01T00:01:00.000Z"⟩ .usual
      (.text "nightly") (Json.textsOf (acquireUntil "2024-01-01T00:01:00.000Z")) := bodyUntil_names _ hlimit
  obtain ⟨r, hr, htells⟩ := intake .acquire jsonType (bodyUntil "2024-01-01T00:01:00.000Z") (.moment (later 0)) hway
  refine ⟨hway, r, hr, htells.served.mpr ⟨_, _, hnames, rfl, ?_⟩⟩
  show ∀ v ∈ [some (.text "2024-01-01T00:01:00.000Z"), some (.text "2024-01-01T00:00:00.000Z")], Denotes v
  rintro v (_ | ⟨_, _ | ⟨_, ⟨⟩⟩⟩)
  · exact ⟨_, _, rfl, rfl⟩
  · exact ⟨_, _, rfl, rfl⟩

/-- **A timestamp before the year 1 in UTC** denotes no moment, and still the answer is 500 and not 400. -/
theorem overflowing_acquire_breaks :
    let req : Request := ⟨"POST", "/api/lease/acquire", jsonType, bodyUntil "0001-01-01T00:00:00+01:00"⟩
    ¬req.Serviceable .acquire .usual ∧ (handle (.moment (later 0)) req freshNode).2 = .answered brokenAnswer ∧
      brokenAnswer.status = 500 := by
  intro req
  have hway : freshNode.store.memory.pass = (freshNode.store.memory, .through) := rfl
  have hlimit : (bodyUntil "0001-01-01T00:00:00+01:00").length < bodyLimit := by decide +kernel
  have hraises : req.RaisesUncaught .acquire .usual := .calendar (bodyUntil_names _ hlimit) (.here ⟨_, rfl, rfl⟩)
  obtain ⟨r, hr, hreplies⟩ := handle_replies .acquire jsonType (bodyUntil "0001-01-01T00:00:00+01:00") (.moment (later 0)) hway
  refine ⟨fun hserviceable => not_raises hserviceable hraises, ?_, rfl⟩
  rw [← hreplies.of_raises hraises]
  exact hr

end LeaseNode
end Leasehold.Http
