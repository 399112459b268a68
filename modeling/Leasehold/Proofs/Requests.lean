/-
  A call over HTTP in its steps.

  The calls of a store go over HTTP in one way: a call is put into a request, the request is made, and the call makes of
  the response what it wants.  Here each step is told for any reply, with what it counts and how it ends.

  1. **`Contact.query`**, **`Contact.perform_sent`** — a call is kept from being sent, or it is its request and what it makes
     of the response (`Contact.settle`);
  2. **`request_requested`** — one request: its reply is delivered, is lost, or brings an error that the client does not catch;
  3. **`settle_counted`** — what a call makes of a response counts a failure just if the call fails over it, with one
     exception (`Contact.failsUncounted`): the look at the health of a node that answers with another status than 200;
  4. **`settle_record`**, **`settle_health`** — how a call ends, once there is a response that can be read.
-/
import Leasehold.Proofs.Contacts
import Leasehold.Proofs.Replies
namespace Leasehold

/-! ## How a call ends -/

namespace Outcome

variable {α β : Type}

/-- Whether a call fails with a failure of a kind. -/
def raises (k : Kind) : Outcome α → Bool
  | .failed e => e.isA k
  | _ => false

/-- **A call that ends as its caller was told**: with an answer, over a condition that does not hold, or over a failure on
the way. -/
inductive Proper : Outcome α → Prop where
  | answered (a : α) : Proper (.answered a)
  | unmet {e : Error} (h : e.isA .conditionNotMet = true) : Proper (.failed e)
  | broken {e : Error} (h : e.isA .transport = true) : Proper (.failed e)

instance (o : Outcome α) : Decidable o.Proper :=
  match o with
  | .answered a => isTrue (.answered a)
  | .failed e =>
    if hunmet : e.isA .conditionNotMet = true then isTrue (.unmet hunmet)
    else if hbroken : e.isA .transport = true then isTrue (.broken hbroken)
    else isFalse fun
      | .unmet h => hunmet h
      | .broken h => hbroken h
  | .silent => isFalse nofun

theorem raises_map (k : Kind) (f : α → β) (o : Outcome α) : (o.map f).raises k = o.raises k := by
  cases o <;> rfl

theorem Proper.map {o : Outcome α} (h : o.Proper) (f : α → β) : (o.map f).Proper := by
  cases h with
  | answered a => exact .answered (f a)
  | unmet h => exact .unmet h
  | broken h => exact .broken h

end Outcome

theorem Error.IsForeign.not_proper {α : Type} {e : Error} (h : e.IsForeign) : ¬(Outcome.failed e : Outcome α).Proper := by
  intro hproper
  cases hproper with
  | unmet hunmet => exact Bool.noConfusion (h.notUnmet.symm.trans hunmet)
  | broken hbroken => exact Bool.noConfusion (h.notTransport.symm.trans hbroken)

/-- A time that cannot be written down is a failure of its own. -/
theorem GivenTime.timestamp_foreign {g : GivenTime} {e : Error} (h : g.timestamp = .error e) : e.IsForeign := by
  have hcut : g.truncate = .error e := Except.map_error h
  rcases g.dateTime?_cases with ⟨t, ht⟩ | ⟨v, rfl⟩
  · rw [truncate_dateTime ht] at hcut
    obtain ⟨fault, -, rfl⟩ := Except.mapError_error hcut
    constructor <;> simp only [Error.isA, Error.kind] <;> cases fault.kind <;> rfl
  · cases hcut
    exact ⟨rfl, rfl, rfl, rfl⟩

namespace Http

/-! ## Calls and their requests -/

/-- A request before it is sent. -/
structure Query where
  method : String
  path : String
  payload : Option Value

end Http

namespace Contact

open Http HttpStore

variable {σ ω : Type}

/-- **A call on a store**, whatever it answers. -/
def perform (S : LeaseStore σ) (c : Contact) (w : World σ) : World σ × Outcome Unit :=
  match c with
  | tryUpdate r => ((S.tryUpdate r w).1, (S.tryUpdate r w).2.map fun _ => ())
  | update r => ((S.update r w).1, (S.update r w).2.map fun _ => ())
  | get name => ((S.get name w).1, (S.get name w).2.map fun _ => ())
  | createTable arguments => S.createTable arguments w
  | close => (S.close w, .answered ())

/-- **The request that a call makes over HTTP**, or why it cannot make one.  Closing makes none. -/
def query : Contact → Except Error (Option Query)
  | tryUpdate r => (acquirePayload r).map fun payload => some ⟨"POST", "/api/lease/acquire", some payload⟩
  | update r => (releasePayload r).map fun payload => some ⟨"POST", "/api/lease/update", some payload⟩
  | get (.text name) => .ok (some ⟨"GET", "/api/lease/" ++ Text.Percent.encode name, none⟩)
  | get _ => .error (.mismatch .urlText)
  | createTable [] => .ok (some ⟨"GET", "/health", none⟩)
  | createTable ((name, _) :: _) => .error (.mismatch (.unexpectedArgument "HttpLeaseStore.create_lease_table" name))
  | close => .ok none

/-- What a call makes of a response. -/
def settle (c : Contact) (status : Int) (data : Value) (w : World (HttpStore ω)) : World (HttpStore ω) × Outcome Unit :=
  match c with
  | tryUpdate r => ((receive r.name status data w).1, (Outcome.ofExcept (receive r.name status data w).2).map fun _ => ())
  | update r => ((receive r.name status data w).1, (Outcome.ofExcept (receive r.name status data w).2).map fun _ => ())
  | get name =>
    if status = 404 then (w, .answered ())
    else ((receive name status data w).1, (Outcome.ofExcept (receive name status data w).2).map fun _ => ())
  | createTable _ =>
    if status = 200 then (w, .answered ())
    else match healthOf data with
      | .ok state => (w, .failed (.unhealthy state))
      | .error e => (w, .failed e)
  | close => (w, .answered ())

/-- A call that cannot be put into a request ends at once, -/
theorem perform_unsent (P : Party ω) {c : Contact} {e : Error} (h : c.query = .error e) (w : World (HttpStore ω)) :
    c.perform (store P) w = (w, .failed e) := by
  cases c with
  | tryUpdate r =>
    have hpayload := Except.map_error h
    simp only [perform, store, write, hpayload]
    rfl
  | update r =>
    have hpayload := Except.map_error h
    simp only [perform, store, write, hpayload]
    rfl
  | get name =>
    cases name with
    | text s => cases h
    | _ =>
      cases h
      rfl
  | createTable arguments =>
    cases arguments with
    | nil => cases h
    | cons argument rest =>
      cases h
      rfl
  | close => cases h

/-- **and any other is its request, and what it makes of the response.** -/
theorem perform_sent (P : Party ω) {c : Contact} {q : Query} (h : c.query = .ok (some q)) (w : World (HttpStore ω)) :
    c.perform (store P) w = match request P q.method q.path q.payload w with
      | (w', .error e) => (w', .failed e)
      | (w', .ok (status, data)) => c.settle status data w' := by
  cases c with
  | tryUpdate r =>
    obtain ⟨payload, hpayload, hq⟩ := Except.map_ok h
    cases hq
    simp only [perform, store, write, hpayload]
    rcases request P "POST" "/api/lease/acquire" (some payload) w with ⟨w', e | ⟨status, data⟩⟩ <;> rfl
  | update r =>
    obtain ⟨payload, hpayload, hq⟩ := Except.map_ok h
    cases hq
    simp only [perform, store, write, hpayload]
    rcases request P "POST" "/api/lease/update" (some payload) w with ⟨w', e | ⟨status, data⟩⟩ <;> rfl
  | get name =>
    cases name with
    | text s =>
      cases h
      simp only [perform, store, HttpStore.read]
      rcases request P "GET" ("/api/lease/" ++ Text.Percent.encode s) none w with ⟨w', e | ⟨status, data⟩⟩
      · rfl
      simp only [settle]
      split
      · rfl
      · rcases receive (.text s) status data w' with ⟨w'', e | r⟩ <;> rfl
    | _ => cases h
  | createTable arguments =>
    cases arguments with
    | nil =>
      cases h
      simp only [perform, store, checkHealth]
      rcases request P "GET" "/health" none w with ⟨w', e | ⟨status, data⟩⟩ <;> rfl
    | cons argument rest => cases h
  | close => cases h

/-- What keeps a call from being sent is a failure of its own. -/
theorem query_foreign {c : Contact} {e : Error} (h : c.query = .error e) : e.IsForeign := by
  cases c with
  | tryUpdate r =>
    have hpayload := Except.map_error h
    rcases Except.bind_error hpayload with huntil | ⟨lockUntil, -, hpayload⟩
    · exact GivenTime.timestamp_foreign huntil
    rcases Except.bind_error hpayload with hat | ⟨lockedAt, -, hpayload⟩
    · exact GivenTime.timestamp_foreign hat
    rcases Except.bind_error hpayload with havailable | ⟨availableAt, -, hpayload⟩
    · exact GivenTime.timestamp_foreign havailable
    · cases hpayload
  | update r =>
    have hpayload := Except.map_error h
    rcases Except.bind_error hpayload with huntil | ⟨lockUntil, -, hpayload⟩
    · exact GivenTime.timestamp_foreign huntil
    simp only at hpayload
    split at hpayload
    · cases hpayload
    rcases Except.bind_error hpayload with hheld | ⟨heldUntil, -, hpayload⟩
    · exact GivenTime.timestamp_foreign hheld
    · cases hpayload
  | get name =>
    cases name with
    | text s => cases h
    | _ =>
      cases h
      exact ⟨rfl, rfl, rfl, rfl⟩
  | createTable arguments =>
    cases arguments with
    | nil => cases h
    | cons argument rest =>
      cases h
      exact ⟨rfl, rfl, rfl, rfl⟩
  | close => cases h

/-- Whether a call makes a request. -/
def isSent (c : Contact) : Bool :=
  match c.query with
  | .ok (some _) => true
  | _ => false

/-- **A call is closing, or is kept from being sent, or makes a request.** -/
theorem query_cases (c : Contact) :
    c = close ∨ (∃ e, c.query = .error e ∧ c.isSent = false) ∨ ∃ q, c.query = .ok (some q) ∧ c.isSent = true := by
  cases hquery : c.query with
  | error e => exact .inr (.inl ⟨e, rfl, by simp only [isSent, hquery]⟩)
  | ok made =>
    cases made with
    | some q => exact .inr (.inr ⟨q, rfl, by simp only [isSent, hquery]⟩)
    | none =>
      left
      cases c with
      | close => rfl
      | tryUpdate r =>
        obtain ⟨payload, -, hq⟩ := Except.map_ok hquery
        cases hq
      | update r =>
        obtain ⟨payload, -, hq⟩ := Except.map_ok hquery
        cases hq
      | get name => cases name <;> cases hquery
      | createTable arguments => cases arguments <;> cases hquery

theorem query_ne_error {c : Contact} {e : Error} (h : c.isSent = true) : c.query ≠ .error e := by
  intro hquery
  simp only [isSent, hquery] at h
  cases h

/-- A call that makes a request and reads a record in the response. -/
def seeksRecord (c : Contact) : Prop := c.isSent = true ∧ ∀ arguments, c ≠ createTable arguments

/-- The only other that makes a request is the look at the health of a node. -/
theorem seeksRecord_or {c : Contact} (h : c.isSent = true) : c.seeksRecord ∨ c = createTable [] := by
  cases c with
  | createTable arguments =>
    cases arguments with
    | nil => exact .inr rfl
    | cons argument rest => cases h
  | _ => exact .inl ⟨h, nofun⟩

/-- Whether a call fails at this response without a count of the failure: it is a look at the health of a node, and the status
is not 200 but the JSON is an object, from which the message of the failure is made. -/
def failsUncounted (c : Contact) (status : Int) (data : Value) : Bool :=
  match c, data with
  | createTable _, .object _ => status ≠ 200
  | _, _ => false

end Contact

/-! ## Counts -/

namespace Http

/-- **What a client counts on the way from one state to another**: the responses that it gets, and the failures that its
calls end with, but for those that go uncounted. -/
structure Client.Counted (c c' : Client) (responses uncounted failures : Nat) : Prop where
  responses : c'.requestsSent = c.requestsSent + responses
  failures : c'.failedRequests + uncounted = c.failedRequests + failures

theorem Client.Counted.trans {c c' c'' : Client} {s s' u u' f f' : Nat} (h : c.Counted c' s u f)
    (h' : c'.Counted c'' s' u' f') : c.Counted c'' (s + s') (u + u') (f + f') where
  responses := by
    have hfirst := h.responses
    have hsecond := h'.responses
    omega
  failures := by
    have hfirst := h.failures
    have hsecond := h'.failures
    omega

namespace ServerReply

/-- Whether a response begins. -/
def begins : ServerReply → Bool
  | broken _ => false
  | torn _ _ => true
  | whole _ _ _ _ => true

/-- The status and the JSON that a reply brings, if it can be read. -/
def data? : ServerReply → Option (Int × Value)
  | whole status contentType body codecs =>
    match readJson codecs status contentType body "" with
    | .ok v => some (status, v)
    | .error _ => none
  | _ => none

theorem delivers_of_data {reply : ServerReply} {status : Int} {v : Value} (h : reply.data? = some (status, v)) :
    reply.Delivers status v := by
  cases reply with
  | whole status' contentType body codecs =>
    simp only [data?] at h
    split at h
    · rename_i hread
      cases h
      exact ⟨contentType, body, codecs, rfl, hread⟩
    · cases h
  | _ => cases h

end ServerReply

namespace HttpStore

variable {ω : Type}

/-- Opening a session counts nothing. -/
theorem ensureOpen_counted (P : Party ω) (w : World (HttpStore ω)) :
    w.store.client.Counted (ensureOpen P w).store.client 0 0 0 := by
  simp only [ensureOpen]
  split <;> exact ⟨rfl, rfl⟩

/-- **What a request comes to**, and what is counted for it: the reply is delivered, it is lost, or it brings a failure that
the client does not catch. -/
inductive Requested (reply : ServerReply) (c c' : Client) : Except Error (Int × Value) → Prop where
  | delivered {status : Int} {v : Value} (told : reply.data? = some (status, v))
      (counted : c.Counted c' reply.begins.toNat 0 0) : Requested reply c c' (.ok (status, v))
  | lost {e : Error} (untold : reply.data? = none) (nothing : reply.sense = .nothing) (kind : e.kind = .transport)
      (counted : c.Counted c' reply.begins.toNat 0 1) : Requested reply c c' (.error e)
  | escaped {e : Error} (untold : reply.data? = none) (escapes : reply.Escapes e)
      (counted : c.Counted c' reply.begins.toNat 0 0) : Requested reply c c' (.error e)

section

variable {reply : ServerReply} {c : Client} {w : World (HttpStore ω)}

/-- A failure that the client catches is counted, and the reply is lost, -/
theorem failCall_lost {e : Error} (hcaught : (e.isA .timeout || e.isA .client || e.isA .value) = true)
    (untold : reply.data? = none) (nothing : reply.sense = .nothing) (url : String)
    (counted : c.Counted w.store.client reply.begins.toNat 0 0) :
    Requested reply c (failCall url e w).1.store.client (.error (failCall url e w).2) := by
  have hfailed : w.store.client.Counted (failCall url e w).1.store.client 0 0 1 := by
    simp only [failCall, if_pos hcaught]
    exact ⟨rfl, rfl⟩
  refine .lost untold nothing ?_ (counted.trans hfailed)
  rw [failCall_fault]
  exact callFault_caught hcaught url

/-- and any other is passed on without being counted. -/
theorem failCall_escaped {e : Error} (huncaught : (e.isA .timeout || e.isA .client || e.isA .value) = false)
    (untold : reply.data? = none) (escapes : reply.Escapes e) (url : String)
    (counted : c.Counted w.store.client reply.begins.toNat 0 0) :
    Requested reply c (failCall url e w).1.store.client (.error (failCall url e w).2) := by
  simp only [failCall, huncaught]
  exact .escaped untold escapes counted

end

/-- **A request is counted.** -/
theorem request_requested (P : Party ω) (reply : ServerReply) (method path : String) (payload : Option Value)
    (w : World (HttpStore ω)) :
    Requested reply w.store.client (request (reply.party P) method path payload w).1.store.client
      (request (reply.party P) method path payload w).2 := by
  have hopen := ensureOpen_counted (reply.party P) w
  simp only [request]
  generalize ensureOpen (reply.party P) w = opened at hopen ⊢
  simp only [ServerReply.party]
  generalize opened.store.client.baseUrl ++ path = url
  have hsent : opened.store.client.Counted opened.store.client.countSent 1 0 0 := ⟨rfl, rfl⟩
  have hbegan : w.store.client.Counted opened.store.client.countSent 1 0 0 := hopen.trans hsent
  cases reply with
  | broken b =>
    refine failCall_lost ?_ rfl rfl url hopen
    rw [b.known]
    rfl
  | torn status b =>
    refine failCall_lost ?_ rfl rfl url hbegan
    rw [b.known]
    rfl
  | whole status contentType body codecs =>
    simp only [ServerReply.delivery]
    generalize NodeParty.urlOf _ = shown
    cases hread : readJson codecs status contentType body "" with
    | ok v =>
      rw [readJson_ok hread shown]
      refine .delivered ?_ hbegan
      simp only [ServerReply.data?, hread]
    | error e =>
      have huntold : (ServerReply.whole status contentType body codecs).data? = none := by
        simp only [ServerReply.data?, hread]
      -- the words of a failure may name the URL, but whether the client catches it is no matter of that
      obtain ⟨e', he', hsame, huncaught⟩ := readJson_error hread shown
      rw [he']
      by_cases hcaught : (e.isA .client || e.isA .value) = true
      · refine failCall_lost ?_ huntold ?_ url hbegan
        · rw [Bool.or_assoc, ← hsame, hcaught, Bool.or_true]
        · simp only [ServerReply.sense, hread, if_pos hcaught]
      · have hescapes : (ServerReply.whole status contentType body codecs).Escapes e :=
          ServerReply.escapes_iff.mpr (by simp only [ServerReply.sense, hread, if_neg hcaught])
        rw [huncaught (Bool.eq_false_iff.mpr hcaught)]
        refine failCall_escaped ?_ huntold hescapes url hbegan
        rw [Bool.or_assoc, hescapes.foreign.notTimeout, Bool.eq_false_iff.mpr hcaught]
        rfl

/-- **A record that is looked for counts a failure just if the call fails over it.** -/
theorem receive_counted (name : Value) (status : Int) (data : Value) (w : World (HttpStore ω)) :
    w.store.client.Counted (receive name status data w).1.store.client 0 0
      ((Outcome.ofExcept (receive name status data w).2).raises .transport).toNat := by
  simp only [receive]
  split
  · cases hrecord : LeaseRecord.ofValue data with
    | ok r => exact ⟨rfl, rfl⟩
    | error e =>
      simp only
      split
      · exact ⟨rfl, rfl⟩
      · rename_i hdata
        cases data with
        | object fields =>
          rcases LeaseRecord.ofFields_fault hrecord with hfault | ⟨-, rfl⟩
          · exact absurd hfault hdata
          · exact ⟨rfl, rfl⟩
        | _ =>
          cases hrecord
          exact absurd rfl hdata
  split <;> exact ⟨rfl, rfl⟩

/-- **What a call makes of a response** counts a failure just if the call fails, unless it fails uncounted. -/
theorem settle_counted (c : Contact) (status : Int) (data : Value) (w : World (HttpStore ω)) :
    w.store.client.Counted (c.settle status data w).1.store.client 0 (c.failsUncounted status data).toNat
      ((c.settle status data w).2.raises .transport).toNat := by
  cases c with
  | tryUpdate r =>
    simp only [Contact.settle, Outcome.raises_map]
    exact receive_counted r.name status data w
  | update r =>
    simp only [Contact.settle, Outcome.raises_map]
    exact receive_counted r.name status data w
  | get name =>
    simp only [Contact.settle]
    split
    · exact ⟨rfl, rfl⟩
    · simp only [Outcome.raises_map]
      exact receive_counted name status data w
  | createTable arguments =>
    by_cases hstatus : status = 200
    · subst hstatus
      cases data <;> exact ⟨rfl, rfl⟩
    · simp only [Contact.settle, if_neg hstatus]
      cases data with
      | object fields =>
        have hfails : decide (status ≠ 200) = true := decide_eq_true hstatus
        simp only [Contact.failsUncounted, hfails]
        exact ⟨rfl, rfl⟩
      | _ => exact ⟨rfl, rfl⟩
  | close => exact ⟨rfl, rfl⟩

/-! ## How a call over HTTP ends -/

/-- **A record that is looked for in a response**: what escapes of the reply is passed on, and if nothing does, the call ends
as it should. -/
theorem receive_ends {reply : ServerReply} {status : Int} {v : Value} (told : reply.data? = some (status, v))
    (name : Value) (w : World (HttpStore ω)) :
    (∀ e, reply.Escapes e → Outcome.ofExcept (receive name status v w).2 = .failed e) ∧
      ((∀ e, ¬reply.Escapes e) → (Outcome.ofExcept (receive name status v w).2).Proper) := by
  obtain ⟨contentType, body, codecs, rfl, hread⟩ := ServerReply.delivers_of_data told
  have hheard := receive_heard name status v w hread
  constructor
  · intro e he
    rw [ServerReply.escapes_iff.mp he] at hheard
    exact hheard
  · intro hnone
    rcases (ServerReply.whole status contentType body codecs).sense_cases with ⟨r, -, hr⟩ | ⟨-, hr⟩ | ⟨e, he, -⟩ | hr
    · rw [hr] at hheard
      rw [show Outcome.ofExcept _ = .answered r from hheard]
      exact .answered r
    · rw [hr] at hheard
      rw [show Outcome.ofExcept _ = .failed _ from hheard]
      exact .unmet rfl
    · exact absurd he (hnone e)
    · rw [hr] at hheard
      rcases hheard with hsilent | ⟨e, he, hkind⟩
      · generalize (receive name status v w).2 = result at hsilent
        cases result <;> cases hsilent
      · rw [he]
        refine .broken ?_
        simp only [Error.isA, hkind]
        rfl

/-- **A call that looks for a record** ends in the same way, -/
theorem settle_record {c : Contact} (hseeks : c.seeksRecord) {reply : ServerReply} {status : Int} {v : Value}
    (told : reply.data? = some (status, v)) (w : World (HttpStore ω)) :
    (∀ e, reply.Escapes e → (c.settle status v w).2 = .failed e) ∧
      ((∀ e, ¬reply.Escapes e) → (c.settle status v w).2.Proper) := by
  have hreceive : ∀ name, (∀ e, reply.Escapes e →
      (Outcome.ofExcept (receive name status v w).2).map (fun _ => ()) = .failed e) ∧
      ((∀ e, ¬reply.Escapes e) → ((Outcome.ofExcept (receive name status v w).2).map fun _ => ()).Proper) := by
    intro name
    obtain ⟨hescapes, hproper⟩ := receive_ends told name w
    exact ⟨fun e he => by rw [hescapes e he]; rfl, fun hnone => (hproper hnone).map _⟩
  cases c with
  | tryUpdate r => exact hreceive r.name
  | update r => exact hreceive r.name
  | get name =>
    by_cases hstatus : status = 404
    · -- there is no record, and nothing escapes of a reply that says so
      subst hstatus
      refine ⟨fun e he => ?_, fun _ => .answered ()⟩
      obtain ⟨contentType, body, codecs, rfl, hread⟩ := ServerReply.delivers_of_data told
      have hsense := ServerReply.escapes_iff.mp he
      simp only [ServerReply.sense, hread] at hsense
      cases hsense
    · simp only [Contact.settle, if_neg hstatus]
      exact hreceive name
  | createTable arguments => exact absurd rfl (hseeks.2 arguments)
  | close => exact absurd hseeks.1 Bool.false_ne_true

/-- and the look at the health of a node fails for all that a response says, unless its status is 200. -/
theorem settle_health (arguments : List (String × Value)) (status : Int) (v : Value) (w : World (HttpStore ω)) :
    ((Contact.createTable arguments).settle status v w).2 =
      if status = 200 then .answered ()
      else match v with
        | .object fields => .failed (.unhealthy ((Value.field? "status" fields).getD (.text "unhealthy")))
        | v => .failed (.noMember v.kindName "get") := by
  simp only [Contact.settle]
  split
  · rfl
  · cases v <;> rfl

end HttpStore
end Http
end Leasehold
