/-
  A lease node keeps its books.

  A node counts in three places: in its own statistics, in its store, and in the metrics of its process.  There are many
  ways out of a request — a body that cannot be used, a condition that does not hold, a store in trouble, a path without a
  route — and each of them has to leave the three in step.

  1. **`Memory.Booked`** — the four things that a request for a write comes to, whatever it asks for: one more write, one
     more condition that failed, or no change of records and counts at all.  Only a condition that does not hold is told
     as one (`forAcquire_error`, `forRelease_error`);
  2. **`LeaseNode.Booked`** — what a request does to the books of a node.  A write goes out by `answerWrite` only
     (`answerWrite_booked`), and every other way out leaves all books alone (`Booked.idle`);
  3. **`handle_booked`**, **`handle_requests`** — so a request, whatever its method, path and body, keeps the books, and one
     that is answered is counted once, under its method and its endpoint;
  4. **`run_accounted`** — by induction, over any sequence of requests, troubles, starts and stops; **`keeps_books`** is
     what that comes to for a node that starts with an empty store.
-/
import Leasehold.Http.Node
import Leasehold.Proofs.Memory
namespace Leasehold

/-! ## Failures that are no conditions -/

/-- **A computation that fails over no condition**: whatever else it fails over, nobody takes it for a condition that does
not hold. -/
def Neutral {α : Type} (x : Except Error α) : Prop := ∀ e, x = .error e → e.isA .conditionNotMet = false

namespace Neutral

theorem ok {α : Type} (a : α) : Neutral (.ok a : Except Error α) := nofun

theorem bind {α β : Type} {x : Except Error α} {f : α → Except Error β} (hx : Neutral x) (hf : ∀ a, Neutral (f a)) :
    Neutral (x >>= f) := by
  intro e he
  rcases Except.bind_error he with hfirst | ⟨a, -, hsecond⟩
  · exact hx e hfirst
  · exact hf a e hsecond

/-- A fault of a time is no condition. -/
theorem time {α : Type} (x : Except TimeFault α) : Neutral (x.mapError Error.time) := by
  intro e he
  obtain ⟨f, -, rfl⟩ := Except.mapError_error he
  simp only [Error.isA, Error.kind]
  cases f.kind <;> rfl

theorem truncate (g : GivenTime) : Neutral g.truncate := by
  rcases g.dateTime?_cases with ⟨t, ht⟩ | ⟨v, rfl⟩
  · rw [GivenTime.truncate_dateTime ht]
    exact time t.truncate
  · intro e he
    cases he
    rfl

theorem isBefore (g : GivenTime) (t : DateTime) : Neutral (g.isBefore t) := by
  rcases g.dateTime?_cases with ⟨s, hs⟩ | ⟨v, rfl⟩
  · rw [GivenTime.isBefore_dateTime hs]
    exact time (s.before t)
  · intro e he
    cases he
    rfl

/-- A name that can name nothing is none either. -/
theorem lookup (m : Memory) (name : Value) : Neutral (m.lookup name) := by
  intro e he
  simp only [Memory.lookup] at he
  split at he
  · cases he
  · cases he
    rfl

/-- **The decision on an acquire** fails over times only, -/
theorem forAcquire (existing : Option LeaseRecord) (r : AcquireRequest) : Neutral (Decision.forAcquire existing r) := by
  have hwritten : Neutral (do
      let lockUntil ← r.lockUntil.truncate
      let lockedAt ← r.lockedAt.truncate
      return Decision.written ⟨r.name, lockUntil, some lockedAt, r.lockedBy⟩) :=
    (truncate _).bind fun _ => (truncate _).bind fun _ => ok _
  cases existing with
  | none => exact hwritten
  | some record =>
    refine (isBefore r.availableAt (.utc record.lockUntil)).bind fun taken => ?_
    cases taken with
    | true => exact ok _
    | false => exact hwritten

/-- **and so does the decision on a release.** -/
theorem forRelease (existing : Option LeaseRecord) (r : ReleaseRequest) : Neutral (Decision.forRelease existing r) := by
  have hmay : Neutral (Decision.mayRelease existing r.heldUntil) := by
    unfold Decision.mayRelease
    split
    · exact ok _
    cases existing with
    | none => exact ok _
    | some record => exact (truncate r.heldUntil).bind fun _ => ok _
  refine hmay.bind fun may => ?_
  cases may with
  | true => exact (truncate r.lockUntil).bind fun _ => ok _
  | false => exact ok _

end Neutral

/-! ## The books of a store -/

namespace Memory

/-- Two stores with the same records and the same counts. -/
structure SameBooks (m m' : Memory) : Prop where
  records : m'.records = m.records
  writesApplied : m'.writesApplied = m.writesApplied
  conditionsFailed : m'.conditionsFailed = m.conditionsFailed

theorem SameBooks.refl (m : Memory) : m.SameBooks m := ⟨rfl, rfl, rfl⟩

/-- The way of a request changes no books, -/
theorem pass_sameBooks (m : Memory) : m.SameBooks m.pass.1 := by
  simp only [pass]
  split
  · exact ⟨rfl, rfl, rfl⟩
  split <;> exact ⟨rfl, rfl, rfl⟩

/-- nor does trouble. -/
theorem befall_sameBooks (t : Trouble) (m : Memory) : m.SameBooks (t.befall m) := by
  cases t <;> exact ⟨rfl, rfl, rfl⟩

/-- **What a request for a write comes to**, whatever it asks for. -/
inductive Booked (m : Memory) : Memory → Outcome LeaseRecord → Prop where
  | applied (name : Value) (r : LeaseRecord) : Booked m
      { m with records := putRecord name r m.records, writesApplied := m.writesApplied + 1 } (.answered r)
  | unmet (name : Value) : Booked m
      { m with conditionsFailed := m.conditionsFailed + 1 } (.failed (.conditionNotMet name .store))
  | broken {m' : Memory} (same : m.SameBooks m') {e : Error} (other : e.isA .conditionNotMet = false) :
      Booked m m' (.failed e)
  | stuck {m' : Memory} (same : m.SameBooks m') : Booked m m' .silent

/-- **A write is booked**, if its decision fails over nothing that looks like a condition. -/
theorem write_booked {work : Memory → Memory × Except Error LeaseRecord} {name : Value}
    {decision : Memory → Except Error Decision} (hwork : ∀ m, work m = m.apply name (decision m))
    (hdecision : ∀ m, Neutral (decision m)) (w : World Memory) :
    Booked w.store (write work w).1.store (write work w).2 := by
  have hsame := w.store.pass_sameBooks
  cases hp : w.store.pass with
  | mk m' p =>
    simp only [write, transport, hp]
    cases p with
    | stuck =>
      rw [hp] at hsame
      exact .stuck hsame
    | lost =>
      rw [hp] at hsame
      exact .broken hsame rfl
    | through =>
      have hm : w.store.pass = (w.store, .through) := pass_through (by rw [hp])
      obtain rfl : w.store = m' := (Prod.ext_iff.mp (hm.symm.trans hp)).1
      simp only [hwork]
      cases hd : decision w.store with
      | error e => exact .broken (.refl _) (hdecision _ e hd)
      | ok d =>
        cases d with
        | rejected => exact .unmet name
        | written r => exact .applied name r

theorem tryUpdate_booked (r : AcquireRequest) (w : World Memory) :
    Booked w.store (store.tryUpdate r w).1.store (store.tryUpdate r w).2 :=
  write_booked (fun _ => rfl) (fun m => (Neutral.lookup m r.name).bind fun _ => Neutral.forAcquire _ r) w

theorem update_booked (r : ReleaseRequest) (w : World Memory) :
    Booked w.store (store.update r w).1.store (store.update r w).2 :=
  write_booked (fun _ => rfl) (fun m => (Neutral.lookup m r.name).bind fun _ => Neutral.forRelease _ r) w

/-- A read changes no books. -/
theorem get_sameBooks (name : Value) (w : World Memory) : w.store.SameBooks (store.get name w).1.store := by
  have hsame := w.store.pass_sameBooks
  show w.store.SameBooks (w.store.transport fun m => (m, m.lookup name)).1
  simp only [transport]
  cases hp : w.store.pass with
  | mk m' p =>
    rw [hp] at hsame
    cases p <;> exact hsame

/-- No call on the store counts anything in the metrics. -/
theorem write_metrics (work : Memory → Memory × Except Error LeaseRecord) (w : World Memory) :
    (write work w).1.ledger.metrics = w.ledger.metrics := by
  simp only [write]
  cases (w.store.transport work).2 <;> rfl

end Memory

namespace Http

/-! ## The books of a node -/

namespace LeaseNode

/-- Whether a request was answered with a status. -/
def answeredWith (status : Nat) : Outcome Response → Bool
  | .answered r => r.status == status
  | _ => false

/-- Whether a request was answered. -/
def isAnswered : Outcome Response → Bool
  | .answered _ => true
  | _ => false

/-- The number of conditions that an answer says did not hold. -/
def conflicts (o : Outcome Response) : Nat := if answeredWith 409 o then 1 else 0

/-- The gauge shows how many records there are. -/
def Gauged (w : World LeaseNode) : Prop := w.ledger.metrics.leaseRecords = w.store.memory.records.length

/-- **What a request does to the books**, before it is counted itself: without an answer of 200 the records stay; a write
counts once in the node and once in its store, or in neither; and so does a condition that does not hold, which is answered
by 409 and by nothing else. -/
structure Booked (w w' : World LeaseNode) (o : Outcome Response) : Prop where
  spared : answeredWith 200 o = false → w'.store.memory.records = w.store.memory.records
  written : ∃ n, w'.store.statistics.acquiresGranted + w'.store.statistics.updatesApplied =
      w.store.statistics.acquiresGranted + w.store.statistics.updatesApplied + n ∧
    w'.store.memory.writesApplied = w.store.memory.writesApplied + n
  rejected : w'.store.statistics.acquiresRejected + w'.store.statistics.updatesRejected =
    w.store.statistics.acquiresRejected + w.store.statistics.updatesRejected + conflicts o
  unmet : w'.store.memory.conditionsFailed = w.store.memory.conditionsFailed + conflicts o
  gauged : Gauged w → Gauged w'
  requests : w'.ledger.metrics.requests = w.ledger.metrics.requests

/-- **A way out that leaves all books alone**, and says nothing of a condition. -/
theorem Booked.idle {w w' : World LeaseNode} {o : Outcome Response} (hstatistics : w'.store.statistics = w.store.statistics)
    (hmemory : w.store.memory.SameBooks w'.store.memory) (hmetrics : w'.ledger.metrics = w.ledger.metrics)
    (ho : answeredWith 409 o = false) : Booked w w' o where
  spared _ := hmemory.records
  written := ⟨0, by rw [hstatistics]; rfl, hmemory.writesApplied⟩
  rejected := by
    have hnone : conflicts o = 0 := by simp [conflicts, ho]
    rw [hstatistics, hnone]
    rfl
  unmet := by
    have hnone : conflicts o = 0 := by simp [conflicts, ho]
    rw [hmemory.conditionsFailed, hnone]
    rfl
  gauged hg := by
    simp only [Gauged] at hg ⊢
    rw [hmetrics, hmemory.records]
    exact hg
  requests := by rw [hmetrics]

/-- Nothing was done at all. -/
theorem Booked.same (w : World LeaseNode) {o : Outcome Response} (ho : answeredWith 409 o = false) : Booked w w o :=
  .idle rfl (.refl _) rfl ho

/-- A refusal is answered by 400 or by 500. -/
theorem refusal_status (e : Error) : answeredWith 409 (.answered (refusal e)) = false := by
  simp only [refusal]
  split <;> rfl

/-- **The ways out of a write.**  One that is applied counts in the node and moves the gauge, one whose condition does not
hold counts as rejected, and any other leaves all books alone. -/
theorem answerWrite_booked {w : World LeaseNode} {m : Memory} {ledger : Ledger} {o : Outcome LeaseRecord}
    (h : w.store.memory.Booked m o) (hmetrics : ledger.metrics = w.ledger.metrics) (name : Value)
    (grant reject : NodeStatistics → NodeStatistics)
    (hgrant : ∀ s, (grant s).acquiresGranted + (grant s).updatesApplied = s.acquiresGranted + s.updatesApplied + 1 ∧
      (grant s).acquiresRejected + (grant s).updatesRejected = s.acquiresRejected + s.updatesRejected)
    (hreject : ∀ s, (reject s).acquiresGranted + (reject s).updatesApplied = s.acquiresGranted + s.updatesApplied ∧
      (reject s).acquiresRejected + (reject s).updatesRejected = s.acquiresRejected + s.updatesRejected + 1)
    (grantLevel rejectLevel : Level) (grantText rejectText : String) :
    let call := answerWrite name (fun w => (gauge (tally grant w)).note grantLevel grantText)
      (fun w => (tally reject w).note rejectLevel rejectText) ⟨{ w.store with memory := m }, ledger⟩ o
    Booked w call.1 call.2 := by
  have hrequests : ledger.metrics.requests = w.ledger.metrics.requests := by rw [hmetrics]
  intro call
  cases h with
  | applied name' r =>
    obtain ⟨happlied, hrejected⟩ := hgrant w.store.statistics
    exact ⟨nofun, ⟨1, happlied, rfl⟩, hrejected, rfl, fun _ => rfl, hrequests⟩
  | unmet name' =>
    obtain ⟨happlied, hrejected⟩ := hreject w.store.statistics
    refine ⟨fun _ => rfl, ⟨0, happlied, rfl⟩, hrejected, rfl, fun hg => ?_, hrequests⟩
    show ledger.metrics.leaseRecords = w.store.memory.records.length
    rw [hmetrics]
    exact hg
  | broken same other =>
    have hcall : call = (⟨{ w.store with memory := m }, ledger⟩, .answered brokenAnswer) := by
      simp only [call, answerWrite, other]
      rfl
    rw [hcall]
    exact .idle rfl same hmetrics rfl
  | stuck same => exact .idle rfl same hmetrics rfl

/-! ## Handlers -/

/-- A body that cannot be used is answered by 400, or by 413 if it is too long. -/
theorem bodyFields_status {server : Server} {req : Request} {r : Response}
    (h : bodyFields server req = .error (.answer r)) : r.status = 400 ∨ r.status = 413 := by
  have hdecode : ∀ {codec : Text.Codec} {r : Response}, decodeBody codec req.body = .error (.answer r) →
      r.status = 400 := by
    intro codec r h
    simp only [decodeBody] at h
    split at h
    · cases h
      rfl
    split at h
    · cases h
    split at h
    · cases h
      rfl
    · cases h
  rcases Except.bind_error h with hbody | ⟨v, -, h⟩
  · simp only [bodyValue] at hbody
    split at hbody
    · cases hbody
      exact .inr rfl
    split at hbody
    · cases hbody
      exact .inl rfl
    split at hbody
    · exact .inl (hdecode hbody)
    · cases hbody
  left
  cases v with
  | object fields =>
    simp only at h
    split at h
    · split at h
      · cases h
      · cases h
        rfl
    · cases h
      rfl
  | _ =>
    cases h
    rfl

/-- Such an answer tells of no condition. -/
theorem bodyFields_noConflict {server : Server} {req : Request} {r : Response}
    (h : bodyFields server req = .error (.answer r)) : answeredWith 409 (.answered r) = false := by
  rcases bodyFields_status h with hstatus | hstatus <;> simp [answeredWith, hstatus]

/-- **An acquire keeps the books**, -/
theorem handleAcquire_booked (req : Request) (w : World LeaseNode) :
    Booked w (handleAcquire req w).1 (handleAcquire req w).2 := by
  simp only [handleAcquire]
  cases hbody : bodyFields w.store.server req with
  | error fault =>
    cases fault with
    | answer r => exact .same w (bodyFields_noConflict hbody)
    | broken => exact .same w rfl
  | ok asked =>
    obtain ⟨name, fields⟩ := asked
    simp only
    cases acquireOf name fields with
    | error e => exact .same w (refusal_status e)
    | ok request =>
      obtain ⟨r, lockUntil⟩ := request
      have hbooked := Memory.tryUpdate_booked r ⟨w.store.memory, w.ledger⟩
      have hmetrics := Memory.write_metrics (·.writeAcquire r) ⟨w.store.memory, w.ledger⟩
      refine answerWrite_booked hbooked hmetrics name (fun s => { s with acquiresGranted := s.acquiresGranted + 1 })
        (fun s => { s with acquiresRejected := s.acquiresRejected + 1 }) (fun s => ⟨?_, rfl⟩) (fun s => ⟨rfl, ?_⟩) _ _ _ _
      · exact Nat.add_right_comm ..
      · exact Nat.add_right_comm ..

/-- **an update does,** -/
theorem handleUpdate_booked (req : Request) (w : World LeaseNode) :
    Booked w (handleUpdate req w).1 (handleUpdate req w).2 := by
  simp only [handleUpdate]
  cases hbody : bodyFields w.store.server req with
  | error fault =>
    cases fault with
    | answer r => exact .same w (bodyFields_noConflict hbody)
    | broken => exact .same w rfl
  | ok asked =>
    obtain ⟨name, fields⟩ := asked
    simp only
    cases releaseOf name fields with
    | error e => exact .same w (refusal_status e)
    | ok request =>
      obtain ⟨r, lockUntil⟩ := request
      have hbooked := Memory.update_booked r ⟨w.store.memory, w.ledger⟩
      have hmetrics := Memory.write_metrics (·.writeRelease r) ⟨w.store.memory, w.ledger⟩
      exact answerWrite_booked hbooked hmetrics name (fun s => { s with updatesApplied := s.updatesApplied + 1 })
        (fun s => { s with updatesRejected := s.updatesRejected + 1 }) (fun s => ⟨rfl, rfl⟩) (fun s => ⟨rfl, rfl⟩) _ _ _ _

/-- **a read of a record does,** -/
theorem handleRecord_booked (name : String) (w : World LeaseNode) :
    Booked w (handleRecord name w).1 (handleRecord name w).2 := by
  have hsame := Memory.get_sameBooks (.text name) ⟨w.store.memory, w.ledger⟩
  have hstatus : answeredWith 409 (handleRecord name w).2 = false := by
    unfold handleRecord
    generalize onMemory (Memory.store.get (.text name)) w = call
    obtain ⟨w', o⟩ := call
    cases o with
    | answered record => cases record <;> rfl
    | failed e => rfl
    | silent => rfl
  exact .idle rfl hsame rfl hstatus

/-- **and so does every handler.** -/
theorem handleRoute_booked (now : GivenTime) (req : Request) (w : World LeaseNode) (route : Route) :
    Booked w (handleRoute now req w route).1 (handleRoute now req w route).2 := by
  cases route with
  | acquire => exact handleAcquire_booked req w
  | update => exact handleUpdate_booked req w
  | record name => exact handleRecord_booked name w
  | status =>
    simp only [handleRoute, handleStatus]
    split <;> exact .same w rfl
  | metrics => exact .same w rfl
  | health =>
    have hstatus : answeredWith 409 (.answered (healthAnswer w.store)) = false := by
      unfold healthAnswer
      split <;> rfl
    exact .same w hstatus

/-! ## Requests -/

/-- **The endpoint that a request is counted under**: the path of its route, or none. -/
def endpointOf (req : Request) : String :=
  match destination req.method req.path with
  | .route route => route.path
  | _ => Route.unknownPath

/-- A request with what came of it. -/
structure Exchange where
  request : Request
  outcome : Outcome Response

namespace Exchange

/-- Whether the request was answered with a status. -/
def hasStatus (status : Nat) (x : Exchange) : Bool := answeredWith status x.outcome

/-- Whether the request was answered, and has a method and an endpoint. -/
def countsFor (method endpoint : String) (x : Exchange) : Bool :=
  isAnswered x.outcome && (x.request.method == method && endpointOf x.request == endpoint)

end Exchange

/-- **What requests do to the books**, those of the metrics included: all writes and all conditions that failed are counted
in the node and in its store alike, as many requests were answered by 409 as conditions failed, and every answered request
was counted once, under its method and its endpoint. -/
structure Accounted (w w' : World LeaseNode) (told : List Exchange) : Prop where
  written : ∃ n, w'.store.statistics.acquiresGranted + w'.store.statistics.updatesApplied =
      w.store.statistics.acquiresGranted + w.store.statistics.updatesApplied + n ∧
    w'.store.memory.writesApplied = w.store.memory.writesApplied + n
  rejected : w'.store.statistics.acquiresRejected + w'.store.statistics.updatesRejected =
    w.store.statistics.acquiresRejected + w.store.statistics.updatesRejected + told.countP (·.hasStatus 409)
  unmet : w'.store.memory.conditionsFailed = w.store.memory.conditionsFailed + told.countP (·.hasStatus 409)
  gauged : Gauged w → Gauged w'
  requests : ∀ method endpoint, w'.ledger.metrics.requests.count (method, endpoint) =
    w.ledger.metrics.requests.count (method, endpoint) + told.countP (·.countsFor method endpoint)

namespace Accounted

variable {w w' w'' : World LeaseNode} {told told' : List Exchange}

/-- Where no request was made, and the books were left alone. -/
theorem idle (hstatistics : w'.store.statistics = w.store.statistics) (hmemory : w.store.memory.SameBooks w'.store.memory)
    (hmetrics : w'.ledger.metrics = w.ledger.metrics) : Accounted w w' [] where
  written := ⟨0, by rw [hstatistics]; rfl, hmemory.writesApplied⟩
  rejected := by
    rw [hstatistics]
    rfl
  unmet := hmemory.conditionsFailed
  gauged hg := by
    simp only [Gauged] at hg ⊢
    rw [hmetrics, hmemory.records]
    exact hg
  requests method endpoint := by
    rw [hmetrics]
    rfl

theorem trans (h : Accounted w w' told) (h' : Accounted w' w'' told') : Accounted w w'' (told ++ told') where
  written := by
    obtain ⟨n, hnode, hstore⟩ := h.written
    obtain ⟨n', hnode', hstore'⟩ := h'.written
    exact ⟨n + n', by omega, by omega⟩
  rejected := by
    have hfirst := h.rejected
    have hsecond := h'.rejected
    rw [List.countP_append]
    omega
  unmet := by
    have hfirst := h.unmet
    have hsecond := h'.unmet
    rw [List.countP_append]
    omega
  gauged hg := h'.gauged (h.gauged hg)
  requests method endpoint := by
    have hfirst := h.requests method endpoint
    have hsecond := h'.requests method endpoint
    rw [List.countP_append]
    omega

end Accounted

theorem finish_status (method path : String) (w : World LeaseNode) (o : Outcome Response) (status : Nat) :
    answeredWith status (finish method path w o).2 = answeredWith status o := by
  cases o with
  | answered r =>
    simp only [finish]
    split <;> rfl
  | failed e => rfl
  | silent => rfl

/-- **A request is counted once if it is answered**, and not at all otherwise. -/
theorem finish_requests (req : Request) (w : World LeaseNode) (o : Outcome Response) (method endpoint : String) :
    (finish req.method (endpointOf req) w o).1.ledger.metrics.requests.count (method, endpoint) =
      w.ledger.metrics.requests.count (method, endpoint) +
        [Exchange.mk req (finish req.method (endpointOf req) w o).2].countP (·.countsFor method endpoint) := by
  cases o with
  | answered r =>
    show (w.ledger.metrics.requests.add (req.method, endpointOf req)).count (method, endpoint) = _
    by_cases hlabel : (method, endpoint) = (req.method, endpointOf req)
    · obtain ⟨rfl, rfl⟩ := Prod.mk.inj hlabel
      rw [Tally.count_add_self]
      simp [finish, Exchange.countsFor, isAnswered]
    · have hother : ¬(req.method = method ∧ endpointOf req = endpoint) := by
        rintro ⟨rfl, rfl⟩
        exact hlabel rfl
      rw [Tally.count_add_other hlabel]
      simp [finish, Exchange.countsFor, isAnswered, hother]
  | failed e => rfl
  | silent => rfl

/-- **What is booked is accounted for**, once the request is counted. -/
theorem Booked.accounted {w w' : World LeaseNode} {o : Outcome Response} (h : Booked w w' o) (req : Request) :
    Accounted w (finish req.method (endpointOf req) w' o).1 [⟨req, (finish req.method (endpointOf req) w' o).2⟩] := by
  have hconflicts : [Exchange.mk req (finish req.method (endpointOf req) w' o).2].countP (·.hasStatus 409) =
      conflicts o := by
    simp [Exchange.hasStatus, finish_status, conflicts, List.countP_cons]
  have hgauge : Gauged w' → Gauged (finish req.method (endpointOf req) w' o).1 := by
    cases o <;> exact fun hg => hg
  refine ⟨?_, ?_, ?_, fun hg => hgauge (h.gauged hg), fun method endpoint => ?_⟩
  · rw [finish_store]
    exact h.written
  · rw [finish_store, hconflicts]
    exact h.rejected
  · rw [finish_store, hconflicts]
    exact h.unmet
  · rw [finish_requests, h.requests]

/-- **A request keeps the books**: whatever its method, its path and its body. -/
theorem handle_booked (now : GivenTime) (req : Request) (w : World LeaseNode) :
    ∃ w' o, Booked w w' o ∧ handle now req w = finish req.method (endpointOf req) w' o := by
  unfold handle endpointOf
  cases destination req.method req.path with
  | route route => exact ⟨_, _, handleRoute_booked now req w route, rfl⟩
  | methodNotAllowed allowed =>
    exact ⟨w, .answered { plain 405 "405: Method Not Allowed" with allow := some (",".intercalate allowed) },
      .same w rfl, rfl⟩
  | nowhere => exact ⟨w, .answered (plain 404 "404: Not Found"), .same w rfl, rfl⟩

theorem handle_accounted (now : GivenTime) (req : Request) (w : World LeaseNode) :
    Accounted w (handle now req w).1 [⟨req, (handle now req w).2⟩] := by
  obtain ⟨w', o, hbooked, hhandle⟩ := handle_booked now req w
  rw [hhandle]
  exact hbooked.accounted req

/-- **Without an answer of 200 no record is changed.** -/
theorem handle_spares (now : GivenTime) (req : Request) (w : World LeaseNode)
    (h : answeredWith 200 (handle now req w).2 = false) :
    (handle now req w).1.store.memory.records = w.store.memory.records := by
  obtain ⟨w', o, hbooked, hhandle⟩ := handle_booked now req w
  rw [hhandle] at h ⊢
  rw [finish_status] at h
  rw [finish_store]
  exact hbooked.spared h

/-! ## Runs -/

/-- What may happen to a node: a request comes, trouble befalls its store, or it is started or stopped. -/
inductive NodeEvent where
  | request (now : GivenTime) (req : Request)
  | trouble (trouble : Memory.Trouble)
  | start
  | stop

/-- **What an event does**, and the exchange if there is one. -/
def NodeEvent.step (w : World LeaseNode) : NodeEvent → World LeaseNode × List Exchange
  | request now req =>
    let (w, o) := handle now req w
    (w, [⟨req, o⟩])
  | trouble t => ({ w with store := { w.store with memory := t.befall w.store.memory } }, [])
  | start => (LeaseNode.start w, [])
  | stop => (LeaseNode.stop w, [])

/-- What events do, one after the other, and all exchanges. -/
def run (w : World LeaseNode) : List NodeEvent → World LeaseNode × List Exchange
  | [] => (w, [])
  | e :: es =>
    let (w, told) := e.step w
    let (w, rest) := run w es
    (w, told ++ rest)

/-- **An event keeps the books,** -/
theorem step_accounted (e : NodeEvent) (w : World LeaseNode) : Accounted w (e.step w).1 (e.step w).2 := by
  cases e with
  | request now req => exact handle_accounted now req w
  | trouble t => exact .idle rfl (Memory.befall_sameBooks t w.store.memory) rfl
  | start => exact .idle rfl (.refl _) rfl
  | stop => exact .idle rfl (.refl _) rfl

/-- changes records only if it is a request that is answered by 200, -/
theorem step_spares (e : NodeEvent) (w : World LeaseNode) (h : ∀ x ∈ (e.step w).2, x.hasStatus 200 = false) :
    (e.step w).1.store.memory.records = w.store.memory.records := by
  cases e with
  | request now req => exact handle_spares now req w (h _ List.mem_cons_self)
  | trouble t => exact Memory.Trouble.befall_records t w.store.memory
  | start => rfl
  | stop => rfl

/-- **and so does a run.** -/
theorem run_accounted (es : List NodeEvent) (w : World LeaseNode) : Accounted w (run w es).1 (run w es).2 := by
  -- on the events, from any state of the node
  induction es generalizing w with
  | nil => exact .idle rfl (.refl _) rfl
  | cons e es ih =>
    have hstep := step_accounted e w
    have hrest := ih (e.step w).1
    exact hstep.trans hrest

/-- **The books of a node are kept**, since it was made in a process with a ledger, by the exchanges it had. -/
structure KeepsBooks (ledger : Ledger) (w : World LeaseNode) (told : List Exchange) : Prop where
  /-- The statistics say of writes what the store says, -/
  written : w.store.statistics.acquiresGranted + w.store.statistics.updatesApplied = w.store.memory.writesApplied
  /-- and of conditions that did not hold what the store says, -/
  rejected : w.store.statistics.acquiresRejected + w.store.statistics.updatesRejected = w.store.memory.conditionsFailed
  /-- and what its answers said. -/
  conflicts : w.store.memory.conditionsFailed = told.countP (·.hasStatus 409)
  /-- The gauge shows how many records there are. -/
  gauge : w.ledger.metrics.leaseRecords = w.store.memory.records.length
  /-- The metrics count the requests that were answered, by method and endpoint. -/
  requests : ∀ method endpoint, w.ledger.metrics.requests.count (method, endpoint) =
    ledger.metrics.requests.count (method, endpoint) + told.countP (·.countsFor method endpoint)
  /-- Whatever comes next, no record changes unless a request is answered by 200. -/
  spares : ∀ e : NodeEvent, (∀ x ∈ (e.step w).2, x.hasStatus 200 = false) →
    (e.step w).1.store.memory.records = w.store.memory.records

/-- **A node keeps its books.**  A node starts with an empty store, on any server, in a process whose gauge says so; then any
requests, troubles, starts and stops may come. -/
theorem keeps_books (id : Int) (host : String) (port : Int) (server : Server) {ledger : Ledger}
    (hgauge : ledger.metrics.leaseRecords = 0) {es : List NodeEvent} {w : World LeaseNode} {told : List Exchange}
    (hrun : run ⟨make id host port server, ledger⟩ es = (w, told)) : KeepsBooks ledger w told := by
  have haccounted := run_accounted es ⟨make id host port server, ledger⟩
  rw [hrun] at haccounted
  obtain ⟨⟨n, hnode, hstore⟩, hrejected, hunmet, hgauged, hrequests⟩ := haccounted
  -- all the counts of a new node are zero
  simp only [make, Memory.empty, Nat.zero_add] at hnode hstore hrejected hunmet
  exact {
    written := by omega
    rejected := by omega
    conflicts := hunmet
    gauge := hgauged hgauge
    requests := hrequests
    spares := fun e he => step_spares e w he }

/-! ## A busy node

A lock is taken for a minute, asked for again, asked for in words that are no JSON, and asked for while the store is in
trouble; at last somebody asks for a page that is not there. -/

/-- A request for the lock. -/
def askFor (body : String) : NodeEvent :=
  .request .none ⟨"POST", "/api/lease/acquire", jsonType, Text.Utf8.encode body.toList⟩

/-- A body that asks for the lock for a minute. -/
def minuteBody : String :=
  (Value.object [("name", .text "job"), ("lock_until", .text "2024-01-01T00:01:00.000Z"),
    ("locked_at", .text "2024-01-01T00:00:00.000Z"), ("locked_by", .text "node-a")]).write

def busyDay : List NodeEvent :=
  [.start, askFor minuteBody, askFor minuteBody, askFor "not json", .trouble (.failing 1), askFor minuteBody,
    .request .none ⟨"GET", "/nothing", jsonType, []⟩]

/-- The node after the day, and all exchanges. -/
def afterBusyDay : World LeaseNode × List Exchange := run ⟨make 1 "localhost" 6001, .empty⟩ busyDay

/-- On that day one write is applied and one condition does not hold, and every request has its answer. -/
theorem keeps_books_busy_day : afterBusyDay.1.store.statistics = ⟨1, 1, 0, 0⟩ ∧
    afterBusyDay.1.store.memory.writesApplied = 1 ∧ afterBusyDay.1.store.memory.conditionsFailed = 1 ∧
    afterBusyDay.2.map (fun x => [200, 409, 400, 500, 404].find? fun status => x.hasStatus status) =
      [some 200, some 409, some 400, some 500, some 404] ∧
    afterBusyDay.2.countP (·.hasStatus 409) = 1 ∧
    afterBusyDay.1.ledger.metrics.leaseRecords = afterBusyDay.1.store.memory.records.length ∧
    afterBusyDay.1.ledger.metrics.requests.count ("GET", "unknown") =
      0 + afterBusyDay.2.countP (·.countsFor "GET" "unknown") := by
  have hgauge : Ledger.empty.metrics.leaseRecords = 0 := rfl
  have hrun : run ⟨make 1 "localhost" 6001, .empty⟩ busyDay = (afterBusyDay.1, afterBusyDay.2) := rfl
  have hevaluated : afterBusyDay.1.store.statistics = ⟨1, 1, 0, 0⟩ ∧
      afterBusyDay.2.map (fun x => [200, 409, 400, 500, 404].find? fun status => x.hasStatus status) =
        [some 200, some 409, some 400, some 500, some 404] := by
    decide +kernel
  obtain ⟨hwrites, hconditions, hconflicts, hrecords, hrequests, -⟩ := keeps_books 1 "localhost" 6001 .usual hgauge hrun
  rw [hevaluated.1] at hwrites hconditions
  exact ⟨hevaluated.1, hwrites.symm, hconditions.symm, hevaluated.2, hconflicts.symm.trans hconditions.symm, hrecords,
    hrequests "GET" "unknown"⟩

end LeaseNode
end Http
end Leasehold
