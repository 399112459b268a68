/-
  What a client over HTTP counts.

  A client counts the responses that it gets and the calls that fail.  A failure is found in one of three places: where
  the request is made, where a record is read, and where the status of a response is none that the client knows.  Every
  call goes through some of them, and has to count a failure once.

  1. **`Exchange`** — a call with its reply; `isAnswered` if it gets a response, and `RaisesUncaught` if it ends with an error
     that the client neither catches nor raises itself;
  2. **`perform_counted`**, **`perform_proper`** — one call: what it counts, and how it ends;
  3. **`converse_counted`**, **`converse_proper`** — by induction, over any sequence of calls;
  4. **`failures_counted`** — what that comes to for a new client.  The one failure that goes uncounted is that of a look at
     the health of a node which answers with another status than 200 (`failsUncounted`, `unhealthy_uncounted`).

  A client that is closed in between opens a new session at its next request, and goes on counting.
-/
import Leasehold.Proofs.FailClosed
import Leasehold.Proofs.Requests
namespace Leasehold.Http.HttpStore

variable {ω : Type}

/-! ## Calls with their replies -/

/-- A call, and what comes back if it makes a request. -/
structure Exchange where
  contact : Contact
  reply : ServerReply

namespace Exchange

/-- Whether the call gets a response. -/
def isAnswered (x : Exchange) : Bool := x.contact.isSent && x.reply.begins

/-- Whether the call fails and the failure is not counted: a look at the health of a node, answered with another status than 200
and an object. -/
def failsUncounted (x : Exchange) : Bool :=
  x.contact.isSent && match x.reply.data? with
    | some (status, data) => x.contact.failsUncounted status data
    | none => false

/-- **A call that ends with an error which the client neither catches nor raises itself**: the call cannot be put into a request;
the error escapes of its reply, in a body that cannot be read or in a record that is looked for; or the call is a look at the
health of a node that answers with another status than 200 and with JSON that is no object. -/
inductive RaisesUncaught (x : Exchange) : Error → Prop where
  | unsent {e : Error} (h : x.contact.query = .error e) : x.RaisesUncaught e
  | escaped {e : Error} (sent : x.contact.isSent = true) (escapes : x.reply.Escapes e)
      (reads : x.contact.seeksRecord ∨ x.reply.data? = none) : x.RaisesUncaught e
  | health {status : Int} {v : Value} (looks : x.contact = .createTable [])
      (told : x.reply.data? = some (status, v)) (failed : status ≠ 200) (bare : ∀ fields, v ≠ .object fields) :
      x.RaisesUncaught (.noMember v.kindName "get")

theorem RaisesUncaught.foreign {x : Exchange} {e : Error} (h : x.RaisesUncaught e) : e.IsForeign := by
  cases h with
  | unsent h => exact Contact.query_foreign h
  | escaped sent escapes reads => exact escapes.foreign
  | health looks told failed bare => exact ⟨rfl, rfl, rfl, rfl⟩

section

variable {x : Exchange} {e e' : Error}

/-- Closing raises no such error. -/
theorem not_raises_close (h : x.contact = .close) : ¬x.RaisesUncaught e := by
  intro hraises
  cases hraises with
  | unsent hquery =>
    rw [h] at hquery
    cases hquery
  | escaped sent escapes reads =>
    rw [h] at sent
    cases sent
  | health looks told failed bare => cases h.symm.trans looks

/-- A call that cannot be sent raises the error that keeps it from being sent, -/
theorem raises_unsent (h : x.contact.query = .error e) : x.RaisesUncaught e' ↔ e' = e := by
  constructor
  · intro hraises
    cases hraises with
    | unsent hquery => exact Except.error.inj (hquery.symm.trans h)
    | escaped sent escapes reads => exact absurd h (Contact.query_ne_error sent)
    | health looks told failed bare =>
      rw [looks] at h
      cases h
  · rintro rfl
    exact .unsent h

/-- one that looks for a record, or gets a reply that cannot be read, raises what escapes of its reply, -/
theorem raises_escaped (hsent : x.contact.isSent = true) (hreads : x.contact.seeksRecord ∨ x.reply.data? = none) :
    x.RaisesUncaught e ↔ x.reply.Escapes e := by
  constructor
  · intro hraises
    cases hraises with
    | unsent hquery => exact absurd hquery (Contact.query_ne_error hsent)
    | escaped sent escapes reads => exact escapes
    | health looks told failed bare =>
      rcases hreads with hseeks | huntold
      · exact absurd looks (hseeks.2 [])
      · cases huntold.symm.trans told
  · intro hescapes
    exact .escaped hsent hescapes hreads

/-- and the look at the health of a node raises that JSON which is no object has no member to get. -/
theorem raises_health (hlooks : x.contact = .createTable []) {status : Int} {v : Value}
    (h : x.reply.data? = some (status, v)) :
    x.RaisesUncaught e ↔ status ≠ 200 ∧ (∀ fields, v ≠ .object fields) ∧ e = .noMember v.kindName "get" := by
  constructor
  · intro hraises
    cases hraises with
    | unsent hquery =>
      rw [hlooks] at hquery
      cases hquery
    | escaped sent escapes reads =>
      rcases reads with hseeks | huntold
      · exact absurd hlooks (hseeks.2 [])
      · cases huntold.symm.trans h
    | health looks told failed bare =>
      cases told.symm.trans h
      exact ⟨failed, bare, rfl⟩
  · rintro ⟨hfailed, hbare, rfl⟩
    exact .health hlooks h hfailed hbare

end

/-- **The call is made, and the reply comes back**, over any connection to any server. -/
def perform (P : Party ω) (x : Exchange) (w : World (HttpStore ω)) : World (HttpStore ω) × Outcome Unit :=
  x.contact.perform (store (x.reply.party P)) w

end Exchange

/-- Closing counts nothing. -/
theorem close_counted (P : Party ω) (w : World (HttpStore ω)) :
    w.store.client.Counted (HttpStore.close P w).store.client 0 0 0 := by
  simp only [HttpStore.close]
  split <;> exact ⟨rfl, rfl⟩

/-- **A call is counted**: its response, and its failure, unless it fails uncounted. -/
theorem perform_counted (P : Party ω) (x : Exchange) (w : World (HttpStore ω)) :
    w.store.client.Counted (x.perform P w).1.store.client x.isAnswered.toNat x.failsUncounted.toNat
      ((x.perform P w).2.raises .transport).toNat := by
  obtain ⟨c, reply⟩ := x
  simp only [Exchange.perform, Exchange.isAnswered, Exchange.failsUncounted]
  rcases c.query_cases with rfl | ⟨e, hquery, hunsent⟩ | ⟨q, hquery, hsent⟩
  · exact close_counted (reply.party P) w
  · rw [Contact.perform_unsent (reply.party P) hquery]
    simp only [hunsent, Outcome.raises, (Contact.query_foreign hquery).notTransport]
    exact ⟨rfl, rfl⟩
  · have hrequest := request_requested P reply q.method q.path q.payload w
    rw [Contact.perform_sent (reply.party P) hquery]
    generalize request (reply.party P) q.method q.path q.payload w = requested at hrequest ⊢
    obtain ⟨w', result⟩ := requested
    simp only [hsent, Bool.true_and]
    cases hrequest with
    | @delivered status v told counted =>
      have hsettle := counted.trans (settle_counted c status v w')
      simp only [Nat.zero_add] at hsettle
      simp only [told]
      exact hsettle
    | @lost e untold nothing kind counted =>
      have hraises : (Outcome.failed e : Outcome Unit).raises .transport = true := by
        simp only [Outcome.raises, Error.isA, kind]
        rfl
      simp only [untold, hraises]
      exact counted
    | escaped untold escapes counted =>
      simp only [untold, Outcome.raises, escapes.foreign.notTransport]
      exact counted

/-- **A call that raises such an error ends with it, and any other ends with an answer, an unmet condition or a failure of the
transport.** -/
theorem perform_ends (P : Party ω) (x : Exchange) (w : World (HttpStore ω)) :
    (∀ e, x.RaisesUncaught e → (x.perform P w).2 = .failed e) ∧ ((∀ e, ¬x.RaisesUncaught e) → (x.perform P w).2.Proper) := by
  simp only [Exchange.perform]
  rcases x.contact.query_cases with hclose | ⟨e, hquery, -⟩ | ⟨q, hquery, hsent⟩
  · rw [hclose]
    exact ⟨fun e he => absurd he (Exchange.not_raises_close hclose), fun _ => .answered ()⟩
  · rw [Contact.perform_unsent (x.reply.party P) hquery]
    simp only [Exchange.raises_unsent hquery]
    exact ⟨fun e' he => he ▸ rfl, fun hnone => absurd rfl (hnone e)⟩
  have hrequest := request_requested P x.reply q.method q.path q.payload w
  rw [Contact.perform_sent (x.reply.party P) hquery]
  generalize request (x.reply.party P) q.method q.path q.payload w = requested at hrequest ⊢
  obtain ⟨w', result⟩ := requested
  cases hrequest with
  | @delivered status v told counted =>
    rcases Contact.seeksRecord_or hsent with hseeks | hlooks
    · simp only [Exchange.raises_escaped hsent (.inl hseeks)]
      exact settle_record hseeks told w'
    · simp only [Exchange.raises_health hlooks told, hlooks, settle_health]
      by_cases hstatus : status = 200
      · simp only [if_pos hstatus]
        exact ⟨fun e he => absurd hstatus he.1, fun _ => .answered ()⟩
      · simp only [if_neg hstatus]
        cases v with
        | object fields => exact ⟨fun e he => absurd rfl (he.2.1 fields), fun _ => .broken rfl⟩
        | _ => exact ⟨fun e he => he.2.2 ▸ rfl, fun hnone => absurd ⟨hstatus, nofun, rfl⟩ (hnone _)⟩
  | @lost e untold nothing kind counted =>
    simp only [Exchange.raises_escaped hsent (.inr untold), ServerReply.escapes_iff, nothing]
    refine ⟨nofun, fun _ => .broken ?_⟩
    simp only [Error.isA, kind]
    rfl
  | @escaped e untold escapes counted =>
    simp only [Exchange.raises_escaped hsent (.inr untold), ServerReply.escapes_iff, ServerReply.escapes_iff.mp escapes]
    exact ⟨fun e' he => by cases he; rfl, fun hnone => absurd rfl (hnone e)⟩

/-- **A call ends with an answer, an unmet condition or a failure of the transport, unless it raises such an error.** -/
theorem perform_proper (P : Party ω) (x : Exchange) (w : World (HttpStore ω)) :
    (x.perform P w).2.Proper ↔ ∀ e, ¬x.RaisesUncaught e := by
  obtain ⟨hraises, hproper⟩ := perform_ends P x w
  refine ⟨fun h e he => ?_, hproper⟩
  rw [hraises e he] at h
  exact he.foreign.not_proper h

/-! ## Runs -/

/-- **Calls one after the other**, each with its own reply. -/
def converse (P : Party ω) : List Exchange → World (HttpStore ω) → World (HttpStore ω) × List (Outcome Unit)
  | [], w => (w, [])
  | x :: xs, w =>
    let (w, o) := x.perform P w
    let (w, os) := converse P xs w
    (w, o :: os)

theorem countP_cons_toNat {α : Type} (p : α → Bool) (a : α) (as : List α) :
    (a :: as).countP p = (p a).toNat + as.countP p := by
  rw [List.countP_cons, Nat.add_comm]
  cases p a <;> rfl

/-- **Every call of a run is counted.** -/
theorem converse_counted (P : Party ω) (xs : List Exchange) (w : World (HttpStore ω)) :
    w.store.client.Counted (converse P xs w).1.store.client (xs.countP (·.isAnswered)) (xs.countP (·.failsUncounted))
      ((converse P xs w).2.countP (·.raises .transport)) := by
  -- on the calls, from any state of the client
  induction xs generalizing w with
  | nil => exact ⟨rfl, rfl⟩
  | cons x xs ih =>
    have hcall := perform_counted P x w
    have hrest := ih (x.perform P w).1
    simp only [converse, countP_cons_toNat]
    exact hcall.trans hrest

/-- **So do all calls of a run, unless one raises such an error.** -/
theorem converse_proper (P : Party ω) (xs : List Exchange) (w : World (HttpStore ω)) :
    (∀ o ∈ (converse P xs w).2, o.Proper) ↔ ∀ x ∈ xs, ∀ e, ¬x.RaisesUncaught e := by
  induction xs generalizing w with
  | nil => simp [converse]
  | cons x xs ih =>
    have hcall := perform_proper P x w
    have hrest := ih (x.perform P w).1
    simp only [converse, List.forall_mem_cons]
    exact and_congr hcall hrest

/-- **A client counts its responses and its failures.**  A new client gets calls of any kind, one after the other, with any
replies over any connection to any server.  Then it has counted as many responses as there were calls that got one.

It has counted as many failures as there were calls that raised a failure of the transport, if no look at the health of a
node was answered with another status than 200 and an object, and only then: each of these goes uncounted.  And all calls
ended with an answer, over a condition that did not hold or with a failure of the transport, just if none raised an error
that the client neither catches nor raises itself. -/
theorem failures_counted (P : Party ω) (url : String) (timeout : Value) (party : ω) (ledger : Ledger)
    (xs : List Exchange) :
    let after := converse P xs ⟨⟨.make url timeout, party⟩, ledger⟩
    after.1.store.client.requestsSent = xs.countP (·.isAnswered) ∧
    (after.1.store.client.failedRequests = after.2.countP (·.raises .transport) ↔ ∀ x ∈ xs, ¬x.failsUncounted = true) ∧
    ((∀ o ∈ after.2, o.Proper) ↔ ∀ x ∈ xs, ∀ e, ¬x.RaisesUncaught e) := by
  intro after
  obtain ⟨hresponses, hfailures⟩ := converse_counted P xs ⟨⟨.make url timeout, party⟩, ledger⟩
  -- a new client has counted nothing
  have hsent : after.1.store.client.requestsSent = xs.countP (·.isAnswered) := by
    rw [hresponses]
    exact Nat.zero_add _
  have hfailed : after.1.store.client.failedRequests + xs.countP (·.failsUncounted) =
      after.2.countP (·.raises .transport) := by
    rw [hfailures]
    exact Nat.zero_add _
  have hall : ∀ {failed uncounted raised : Nat}, failed + uncounted = raised → (failed = raised ↔ uncounted = 0) := by omega
  refine ⟨hsent, ?_, converse_proper P xs _⟩
  rw [← List.countP_eq_zero]
  exact hall hfailed

/-! ## A rough day, and a look at the health of a node that fails

On a rough day a client gets its record and an unmet condition, no record and a node whose health is answered with 200; it gets
a failure of the server, no answer in time, an object that is no record, and a page in words. -/

/-- A response with JSON. -/
def jsonReply (status : Int) (v : Value) : ServerReply := .whole status jsonType (Text.Utf8.encode v.write.toList) .none

def dayRecord : Value := .object [(nameKey, .text "nightly"), (lockUntilKey, .text minuteClaim.atMost.timestamp)]

def dayAcquire : Contact := .tryUpdate (minuteClaim.request minuteLock.identity)

def dayRelease : Contact := .update (minuteLease.releaseRequest minuteLease.atLeast)

def roughDay : List Exchange :=
  [⟨dayAcquire, jsonReply 200 dayRecord⟩, ⟨dayRelease, jsonReply 409 (.object [])⟩,
    ⟨.get (.text "nightly"), jsonReply 404 (.object [])⟩, ⟨.createTable [], jsonReply 200 (.object [])⟩,
    ⟨dayAcquire, jsonReply 500 (.object [("error", .text "store_unavailable")])⟩,
    ⟨.get (.text "nightly"), .broken ⟨.timedOut, rfl⟩⟩, ⟨.close, .broken ⟨.timedOut, rfl⟩⟩,
    ⟨dayRelease, jsonReply 200 (.object [])⟩, ⟨.createTable [], .whole 502 plainUtf8Type [] .none⟩]

/-- Seven calls get a response, four fail, and all end as they should. -/
theorem failures_counted_rough_day :
    (converse anyServer roughDay freshClient).1.store.client.requestsSent = 7 ∧
    (converse anyServer roughDay freshClient).1.store.client.failedRequests = 4 ∧
    (converse anyServer roughDay freshClient).2.countP (·.raises .transport) = 4 ∧
    ∀ x ∈ roughDay, ∀ e, ¬x.RaisesUncaught e := by
  have hanswered : roughDay.countP (·.isAnswered) = 7 := by decide +kernel
  have hcount : ∀ x ∈ roughDay, ¬x.failsUncounted = true := by decide +kernel
  have hfailed : (converse anyServer roughDay freshClient).2.countP (·.raises .transport) = 4 := by decide +kernel
  have hproper : ∀ o ∈ (converse anyServer roughDay freshClient).2, o.Proper := by decide +kernel
  have hnew : freshClient = ⟨⟨.make "http://node:5000" (.int 10), ()⟩, .empty⟩ := rfl
  obtain ⟨hresponses, hfailures, hends⟩ := failures_counted anyServer "http://node:5000" (.int 10) () .empty roughDay
  rw [← hnew] at hresponses hfailures hends
  have hcounted := hfailures.mpr hcount
  rw [hanswered] at hresponses
  rw [hfailed] at hcounted
  exact ⟨hresponses, hcounted, hfailed, hends.mp hproper⟩

/-- What comes of a look at the health of a node that answers with a status of 503. -/
def afterLook (v : Value) : World (HttpStore Unit) × List (Outcome Unit) :=
  converse anyServer [⟨.createTable [], jsonReply 503 v⟩] freshClient

/-- **A look at the health of a node that is answered with 503 and an object is a failed call that is not counted**; and if it is
answered with something else than an object, the call ends with an error of another kind. -/
theorem unhealthy_uncounted :
    (afterLook (.object [("status", .text "unhealthy")])).2.countP (·.raises .transport) = 1 ∧
    (afterLook (.object [("status", .text "unhealthy")])).1.store.client.failedRequests = 0 ∧
    ¬∀ o ∈ (afterLook (.list [])).2, o.Proper := by
  decide +kernel

end Leasehold.Http.HttpStore
