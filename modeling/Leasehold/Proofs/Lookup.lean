/-
  Names are read back over HTTP.

  A write carries its name in the body, and so it takes every name.  A read carries its name in the path, and there not
  every name survives.

  1. **`request_node`** — a request of the client is what the node makes of it, heard by the client (`heard`);
  2. **`handle_get`** — no request by GET changes the store of a node; and a write leaves a store that can tell all its
     records, whatever it asks for, since a body that is too long, a blank name and times that cannot be read back are refused
     (`handle_acquire_tellable`, `handle_release_tellable`);
  3. **`Visited`** — a node that was only ever asked by clients.  By induction over what happened to it, it can tell all
     its records (`Visited.tellable`), the step being one call of a client (`serve_tellable`);
  4. **`get_visited`** — hence a read brings exactly the record of its name, or the news that there is none, if the name
     is addressable, and fails if it is not.
-/
import Leasehold.Proofs.NodeContract
import Leasehold.Proofs.Segments
namespace Leasehold

open Json Http

/-- What a time is written as is the timestamp of a whole millisecond. -/
theorem GivenTime.timestamp_ok {t : GivenTime} {text : String} (h : t.timestamp = .ok text) :
    ∃ i : Instant, i.IsWhole ∧ text = i.timestamp := by
  cases hcut : t.truncate with
  | error e =>
    rw [timestamp, hcut] at h
    cases h
  | ok i =>
    rw [timestamp, hcut] at h
    cases h
    exact ⟨i, truncate_isWhole hcut, rfl⟩

namespace Http

open LeaseNode NodeParty

/-! ## Requests -/

namespace HttpStore

/-- What the caller of a request is told of a failure. -/
def failureOf (url : String) (e : Error) : Error :=
  if e.isA .timeout || e.isA .client || e.isA .value then .callFailed (.http url) e else e

/-- **What the client hears**: the status and the JSON of a response, or the failure. -/
def heard (url : String) : Delivery → Except Error (Int × Value)
  | .broken e => .error (failureOf url e)
  | .response status (.ok v) => .ok (status, v)
  | .response _ (.error e) => .error (failureOf url e)

section

variable {ω : Type} (P : Party ω)

theorem failCall_eq (url : String) (e : Error) (w : World (HttpStore ω)) :
    (failCall url e w).1.store.party = w.store.party ∧ (failCall url e w).2 = failureOf url e := by
  simp only [failCall, failureOf]
  split <;> exact ⟨rfl, rfl⟩

theorem receive_party (name : Value) (status : Int) (data : Value) (w : World (HttpStore ω)) :
    (receive name status data w).1.store.party = w.store.party := by
  simp only [receive]
  split
  · cases LeaseRecord.ofValue data with
    | ok record => rfl
    | error e =>
      simp only
      split <;> rfl
  · split <;> rfl

/-- A request leaves the other party as the sending leaves it, and what comes of it is heard. -/
theorem request_sent (method path : String) (payload : Option Value) (w : World (HttpStore ω)) :
    let opened := ensureOpen P w
    let sent := P.send ⟨method, w.store.client.baseUrl ++ path, payload⟩ ⟨opened.store.party, opened.ledger⟩
    (request P method path payload w).1.store.party = sent.1.store ∧
      (request P method path payload w).2 = heard (w.store.client.baseUrl ++ path) sent.2 := by
  obtain ⟨openSession, send, closeSession⟩ := P
  rw [← ensureOpen_baseUrl ⟨openSession, send, closeSession⟩ w]
  simp only [request]
  generalize ensureOpen ⟨openSession, send, closeSession⟩ w = opened
  generalize send ⟨method, opened.store.client.baseUrl ++ path, payload⟩ ⟨opened.store.party, opened.ledger⟩ = sent
  obtain ⟨after, d⟩ := sent
  cases d with
  | broken e =>
    obtain ⟨hparty, hfailure⟩ := failCall_eq (opened.store.client.baseUrl ++ path) e
      ⟨{ opened.store with party := after.store }, after.ledger⟩
    exact ⟨hparty, congrArg Except.error hfailure⟩
  | response status data =>
    cases data with
    | error e =>
      obtain ⟨hparty, hfailure⟩ := failCall_eq (opened.store.client.baseUrl ++ path) e
        (onClient Client.countSent ⟨{ opened.store with party := after.store }, after.ledger⟩)
      exact ⟨hparty, congrArg Except.error hfailure⟩
    | ok v => exact ⟨rfl, rfl⟩

/-! ## Reads and writes as requests -/

/-- A write is its request, as far as the other party is concerned, -/
theorem write_party (path : String) (name payload : Value) (w : World (HttpStore ω)) :
    (write P path name (.ok payload) w).1.store.party = (request P "POST" path (some payload) w).1.store.party := by
  simp only [write]
  generalize request P "POST" path (some payload) w = requested
  obtain ⟨after, result⟩ := requested
  cases result with
  | error e => rfl
  | ok answer => exact receive_party name answer.1 answer.2 after

/-- and so is a read.  Its outcome is made of what the client hears. -/
theorem read_eq (name : String) (w : World (HttpStore ω)) :
    let requested := request P "GET" (recordPath name) none w
    (read P (.text name) w).1.store.party = requested.1.store.party ∧
      (read P (.text name) w).2 = match requested.2 with
        | .error e => .failed e
        | .ok (status, data) => if status = 404 then .answered none
          else .ofExcept ((receive (.text name) status data requested.1).2.map some) := by
  simp only [read, recordPath]
  generalize request P "GET" ("/api/lease/" ++ Text.Percent.encode name) none w = requested
  obtain ⟨after, result⟩ := requested
  cases result with
  | error e => exact ⟨rfl, rfl⟩
  | ok answer =>
    simp only
    split
    · exact ⟨rfl, rfl⟩
    · exact ⟨receive_party (.text name) answer.1 answer.2 after, rfl⟩

section

variable {P} {name : String} {w : World (HttpStore ω)}

/-- It fails if nothing is heard, -/
theorem read_failed {e : Error} (h : (request P "GET" (recordPath name) none w).2 = .error e) :
    (read P (.text name) w).2 = .failed e := by
  rw [(read_eq P name w).2, h]

/-- there is no record in a 404, -/
theorem read_absent {data : Value} (h : (request P "GET" (recordPath name) none w).2 = .ok (404, data)) :
    (read P (.text name) w).2 = .answered none := by
  rw [(read_eq P name w).2, h]
  rfl

/-- and a record in a 200, if it can be told. -/
theorem read_found {r : LeaseRecord} (hr : r.Readable name)
    (h : (request P "GET" (recordPath name) none w).2 = .ok (200, r.toValue)) :
    (read P (.text name) w).2 = .answered (some r) := by
  rw [(read_eq P name w).2, h]
  simp only [receive, if_true, hr.ofValue_toValue]
  rfl

end

end

/-- **A request of the client is what the node makes of it**, heard by the client. -/
theorem request_node (method : String) {path target : String} (payload : Option Value) {w : World (HttpStore NodeParty)}
    (hpath : (tidyUrl (w.store.client.baseUrl ++ path)).2 = target) :
    ∃ ledger, let call : Call := ⟨method, w.store.client.baseUrl ++ path, payload⟩
      let there := handle w.store.party.clock (requestOf call target) ⟨w.store.party.node, ledger⟩
      (request NodeParty.party method path payload w).1.store.party.node.memory = there.1.store.memory ∧
        (request NodeParty.party method path payload w).2 = heard call.url (deliveryOf (urlOf call) there.2) := by
  have hparty : (ensureOpen NodeParty.party w).store.party = w.store.party := by
    simp only [ensureOpen]
    split <;> rfl
  obtain ⟨hstore, hheard⟩ := request_sent NodeParty.party method path payload w
  rw [hparty] at hstore hheard
  obtain ⟨hmemory, hdelivery⟩ := send_eq ⟨method, w.store.client.baseUrl ++ path, payload⟩ hpath
    ⟨w.store.party, (ensureOpen NodeParty.party w).ledger⟩
  refine ⟨(ensureOpen NodeParty.party w).ledger, ?_, ?_⟩
  · rw [hstore]
    exact hmemory
  · rw [hheard]
    exact congrArg (heard _) hdelivery

end HttpStore

/-! ## What a node makes of reads -/

namespace LeaseNode

/-- **No request by GET changes the records.** -/
theorem handle_get {req : Request} (hmethod : req.method = "GET") (now : GivenTime) {w : World LeaseNode}
    (hway : w.store.memory.pass = (w.store.memory, .through)) :
    (handle now req w).1.store.memory = w.store.memory := by
  simp only [handle, hmethod]
  split
  · rename_i r hroute
    have htakes : r.methods.contains "GET" = true := by
      rw [destination] at hroute
      split at hroute
      · rename_i hfound
        cases hroute
        exact List.find?_some (p := fun r : Route => r.methods.contains "GET") hfound
      · split at hroute <;> cases hroute
    rw [finish_store]
    cases r with
    | acquire => exact absurd htakes (by decide)
    | update => exact absurd htakes (by decide)
    | record name => exact (Memory.read_through hway).1
    | status =>
      simp only [handleRoute, handleStatus]
      split <;> rfl
    | metrics => rfl
    | health => rfl
  · rw [finish_store]
  · rw [finish_store]

/-- The reply to a read. -/
def replyToRead (name : String) : Option LeaseRecord → Response
  | some r => json 200 r.toValue
  | none => json 404 (.object (textsOf [("error", "not_found"), ("name", name)]))

/-- **The path of a record is answered with the record**, or with the news that there is none, if its name is addressable;
and like any path without a route, if it is not. -/
theorem handle_record {name : String} (hname : name ≠ "") {call : Call} (hmethod : call.method = "GET")
    (now : GivenTime) {w : World LeaseNode} (hway : w.store.memory.pass = (w.store.memory, .through)) :
    (handle now (requestOf call (Text.Percent.tidyPath (recordPath name))) w).2 =
      .answered (if Addressable name then replyToRead name (w.store.memory.find? (.text name))
        else plain 404 "404: Not Found") := by
  simp only [handle, requestOf, hmethod, destination_record hname]
  by_cases haddress : Addressable name
  · have hread : (Memory.store.get (.text name) ⟨w.store.memory, w.ledger⟩).2 =
        .answered (w.store.memory.find? (.text name)) := (Memory.read_through hway).2
    simp only [haddress, if_true, handleRoute, handleRecord, onMemory, hread]
    cases w.store.memory.find? (.text name) <;> rfl
  · simp only [haddress, if_false]
    rfl

/-! ## What a node makes of writes -/

section

variable {name : String} {call : Call} (hmethod : call.method = "POST") (clock : GivenTime) {w : World LeaseNode}
  (htell : w.store.memory.Tellable)

include hmethod htell

/-- **Whatever acquire is sent, a node that can tell its records still can**: a body that is too long, a blank name and times that
cannot be read back are refused. -/
theorem handle_acquire_tellable {lockedBy : String} {u s a : Instant} (hu : u.IsWhole) (hs : s.IsWhole) (ha : a.IsWhole)
    (hp : call.payload = some (.object (textsOf (acquireTexts name lockedBy u s a)))) :
    (handle clock (requestOf call "/api/lease/acquire") w).1.store.memory.Tellable := by
  have hroute : destination "POST" "/api/lease/acquire" = .route .acquire := by decide +kernel
  have hkeys : ["name", "lock_until", "locked_at", "locked_by", "available_at"].Nodup := by decide
  by_cases hlimit : InLimit (.object (textsOf (acquireTexts name lockedBy u s a)))
  case neg =>
    obtain ⟨size, hbody⟩ := bodyFields_overlong w.store.server "/api/lease/acquire" hp hlimit
    rwa [(handle_unread hmethod (.inl rfl) hroute hbody clock).1]
  by_cases hname : name = ""
  · subst hname
    have hbody := bodyFields_blank w.store.server "/api/lease/acquire" hp hlimit hkeys
    rwa [(handle_unread hmethod (.inl rfl) hroute hbody clock).1]
  by_cases hlegible : u.Legible ∧ s.Legible ∧ a.Legible
  · have hcut : StoreCall.CutsTo (.acquire name (.utc u) (.utc s) lockedBy (.utc a)) (.acquire name u s lockedBy a) :=
      .acquire (DateTime.cutsTo_utc hu hlegible.1) (DateTime.cutsTo_utc hs hlegible.2.1)
        (DateTime.cutsTo_utc ha hlegible.2.2)
    obtain ⟨-, hmemory, -⟩ := handle_acquire_texts hname (htell.shows name) (DateTime.cutsTo_utc hu hlegible.1)
      (DateTime.cutsTo_utc hs hlegible.2.1) (DateTime.cutsTo_utc ha hlegible.2.2) hlimit hmethod hp clock
      w.ledger
    rw [hmemory]
    exact Memory.Tellable.serve (w := ⟨w.store.memory, w.ledger⟩) htell hcut
  · obtain ⟨e, he⟩ : ∃ e, acquireOf (.text name) (textsOf (acquireTexts name lockedBy u s a)) = .error e :=
      acquireOf_early hu hs hlegible
    have hbody : bodyFields w.store.server (requestOf call "/api/lease/acquire") =
        .ok (.text name, textsOf (acquireTexts name lockedBy u s a)) := bodyFields_texts _ _ hp hlimit hname hkeys
    rw [(handle_route hmethod hroute clock w).1]
    simpa only [handleRoute, handleAcquire, hbody, he] using htell

/-- **And whatever release is sent.** -/
theorem handle_release_tellable {u : Instant} {held : Option Instant} (hu : u.IsWhole) (hh : ∀ i ∈ held, i.IsWhole)
    (hp : call.payload = some (.object (textsOf (releaseTexts name u held)))) :
    (handle clock (requestOf call "/api/lease/update") w).1.store.memory.Tellable := by
  have hroute : destination "POST" "/api/lease/update" = .route .update := by decide +kernel
  have hkeys : ((releaseTexts name u held).map (·.1)).Nodup := releaseTexts_keys name u held
  by_cases hlimit : InLimit (.object (textsOf (releaseTexts name u held)))
  case neg =>
    obtain ⟨size, hbody⟩ := bodyFields_overlong w.store.server "/api/lease/update" hp hlimit
    rwa [(handle_unread hmethod (.inr rfl) hroute hbody clock).1]
  by_cases hname : name = ""
  · subst hname
    have hbody := bodyFields_blank w.store.server "/api/lease/update" hp hlimit hkeys
    rwa [(handle_unread hmethod (.inr rfl) hroute hbody clock).1]
  by_cases hlegible : u.Legible ∧ ∀ i ∈ held, i.Legible
  · have hheld : StoreCall.CutsHeld (held.map .utc) held := by
      cases held with
      | none => exact .none
      | some i => exact .some (DateTime.cutsTo_utc (hh i rfl) (hlegible.2 i rfl))
    have hcut : StoreCall.CutsTo (.release name (.utc u) (held.map .utc)) (.release name u held) :=
      .release (DateTime.cutsTo_utc hu hlegible.1) hheld
    obtain ⟨-, hmemory, -⟩ := handle_release_texts hname (htell.shows name) (htell.readable name)
      (DateTime.cutsTo_utc hu hlegible.1) hheld hlimit hmethod hp clock w.ledger
    rw [hmemory]
    exact Memory.Tellable.serve (w := ⟨w.store.memory, w.ledger⟩) htell hcut
  · obtain ⟨e, he⟩ : ∃ e, releaseOf (.text name) (textsOf (releaseTexts name u held)) = .error e :=
      releaseOf_early hu hlegible
    have hbody : bodyFields w.store.server (requestOf call "/api/lease/update") =
        .ok (.text name, textsOf (releaseTexts name u held)) := bodyFields_texts _ _ hp hlimit hname hkeys
    rw [(handle_route hmethod hroute clock w).1]
    simpa only [handleRoute, handleUpdate, hbody, he] using htell

end

end LeaseNode
/-! ## Clients of a node -/

namespace Client

/-- **A client that asks a node at its origin**: its base URL is a scheme and a host, and nothing else. -/
def AtOrigin (c : Client) : Prop :=
  ∃ scheme host : String, c.baseUrl = scheme ++ "://" ++ host ∧ ':' ∉ scheme.toList ∧
    ∀ d ∈ host.toList, d ≠ '/' ∧ d ≠ '?' ∧ d ≠ '#'

theorem AtOrigin.reaches {c : Client} (h : c.AtOrigin) : c.Reaches := by
  obtain ⟨scheme, host, hbase, hscheme, hhost⟩ := h
  exact reaches_origin hbase hscheme fun hslash => (hhost '/' hslash).1 rfl

/-- The path of a record arrives as the tidy path. -/
theorem AtOrigin.record {c : Client} (h : c.AtOrigin) (name : String) :
    (tidyUrl (c.baseUrl ++ recordPath name)).2 = Text.Percent.tidyPath (recordPath name) := by
  obtain ⟨scheme, host, hbase, hscheme, hhost⟩ := h
  obtain ⟨more, hpath⟩ : ∃ more, (recordPath name).toList = '/' :: more := ⟨_, String.toList_append⟩
  have hsome : recordPath name ≠ "" := fun hempty => by
    rw [hempty] at hpath
    cases hpath
  rw [hbase, tidyUrl, splitUrl_origin hscheme (fun hslash => (hhost '/' hslash).1 rfl) hpath]
  simp only [hsome, if_false]

end Client

namespace HttpStore

/-- What an acquire sends, if it sends anything. -/
theorem acquirePayload_texts {name lockedBy : String} {t s a : GivenTime} {payload : Value}
    (h : acquirePayload ⟨.text name, t, s, .text lockedBy, a⟩ = .ok payload) :
    ∃ u at' now : Instant, (u.IsWhole ∧ at'.IsWhole ∧ now.IsWhole) ∧
      payload = .object (textsOf (acquireTexts name lockedBy u at' now)) := by
  simp only [acquirePayload] at h
  obtain ⟨text, ht, h⟩ := Except.bind_ok h
  obtain ⟨text', hs, h⟩ := Except.bind_ok h
  obtain ⟨text'', ha, h⟩ := Except.bind_ok h
  cases h
  obtain ⟨u, hu, rfl⟩ := GivenTime.timestamp_ok ht
  obtain ⟨at', hat, rfl⟩ := GivenTime.timestamp_ok hs
  obtain ⟨now, hnow, rfl⟩ := GivenTime.timestamp_ok ha
  exact ⟨u, at', now, ⟨hu, hat, hnow⟩, rfl⟩

/-- What a release sends likewise. -/
theorem releasePayload_texts {name : String} {t : GivenTime} {c : Option DateTime} {payload : Value}
    (h : releasePayload ⟨.text name, t, LeaseStore.held c⟩ = .ok payload) :
    ∃ (u : Instant) (held : Option Instant), (u.IsWhole ∧ ∀ i ∈ held, i.IsWhole) ∧
      payload = .object (textsOf (releaseTexts name u held)) := by
  simp only [releasePayload] at h
  obtain ⟨text, ht, h⟩ := Except.bind_ok h
  obtain ⟨u, hu, rfl⟩ := GivenTime.timestamp_ok ht
  cases c with
  | none =>
    cases h
    refine ⟨u, none, ⟨hu, ?_⟩, rfl⟩
    rintro _ ⟨⟩
  | some c =>
    obtain ⟨text', hc, h⟩ := Except.bind_ok h
    cases h
    obtain ⟨i, hi, rfl⟩ := GivenTime.timestamp_ok hc
    refine ⟨u, some i, ⟨hu, ?_⟩, rfl⟩
    rintro _ ⟨⟩
    exact hi

section

variable {w : World (HttpStore NodeParty)} (htell : w.store.party.node.memory.Tellable)

include htell

/-- A request by GET leaves the records of the node, -/
theorem get_memory (path : String) :
    (request NodeParty.party "GET" path none w).1.store.party.node.memory = w.store.party.node.memory := by
  obtain ⟨ledger, hmemory, -⟩ := request_node "GET" none (rfl : (tidyUrl (w.store.client.baseUrl ++ path)).2 = _)
  rw [hmemory]
  exact handle_get rfl _ htell.way

/-- so a read does; -/
theorem read_memory (name : String) :
    (read NodeParty.party (.text name) w).1.store.party.node.memory = w.store.party.node.memory := by
  rw [(read_eq NodeParty.party name w).1]
  exact get_memory htell (recordPath name)

/-- **and no call leaves a record that cannot be told.** -/
theorem serve_tellable (hreach : w.store.client.Reaches) (c : StoreCall DateTime) :
    ((store NodeParty.party).serve w c).1.store.party.node.memory.Tellable := by
  cases c with
  | acquire name t s lockedBy a =>
    show (write NodeParty.party "/api/lease/acquire" _ (acquirePayload _) w).1.store.party.node.memory.Tellable
    cases hp : acquirePayload ⟨.text name, .time t, .time s, .text lockedBy, .time a⟩ with
    | error e => exact htell
    | ok payload =>
      obtain ⟨u, at', now, ⟨hu, hat, hnow⟩, rfl⟩ := acquirePayload_texts hp
      rw [write_party]
      obtain ⟨ledger, hmemory, -⟩ :=
        request_node "POST" (some (.object (textsOf (acquireTexts name lockedBy u at' now)))) hreach.acquire
      rw [hmemory]
      exact handle_acquire_tellable rfl _ htell hu hat hnow rfl
  | release name t c =>
    show (write NodeParty.party "/api/lease/update" _ (releasePayload _) w).1.store.party.node.memory.Tellable
    cases hp : releasePayload ⟨.text name, .time t, LeaseStore.held c⟩ with
    | error e => exact htell
    | ok payload =>
      obtain ⟨u, held, ⟨hu, hheld⟩, rfl⟩ := releasePayload_texts hp
      rw [write_party]
      obtain ⟨ledger, hmemory, -⟩ :=
        request_node "POST" (some (.object (textsOf (releaseTexts name u held)))) hreach.update
      rw [hmemory]
      exact handle_release_tellable rfl _ htell hu hheld rfl
  | look name =>
    show (read NodeParty.party (.text name) w).1.store.party.node.memory.Tellable
    rw [read_memory htell name]
    exact htell

end

/-! ## Nodes that clients ask -/

/-- **A node that was only ever asked by clients**, each at its origin, while it was started and stopped at any time. -/
inductive Visited : LeaseNode → Prop where
  | made (id : Int) (host : String) (port : Int) (server : Server) : Visited (.make id host port server)
  | started {n : LeaseNode} (h : Visited n) (ledger : Ledger) : Visited (LeaseNode.start ⟨n, ledger⟩).store
  | stopped {n : LeaseNode} (h : Visited n) (ledger : Ledger) : Visited (LeaseNode.stop ⟨n, ledger⟩).store
  | served {w : World (HttpStore NodeParty)} (h : Visited w.store.party.node) (origin : w.store.client.AtOrigin)
      (c : StoreCall DateTime) : Visited ((store NodeParty.party).serve w c).1.store.party.node
  | checked {w : World (HttpStore NodeParty)} (h : Visited w.store.party.node) (arguments : List (String × Value)) :
      Visited ((store NodeParty.party).createTable arguments w).1.store.party.node
  | closed {w : World (HttpStore NodeParty)} (h : Visited w.store.party.node) :
      Visited ((store NodeParty.party).close w).store.party.node

theorem checkHealth_party {ω : Type} (P : Party ω) (w : World (HttpStore ω)) :
    (checkHealth P w).1.store.party = (request P "GET" "/health" none w).1.store.party := by
  simp only [checkHealth]
  generalize request P "GET" "/health" none w = requested
  obtain ⟨after, result⟩ := requested
  cases result with
  | error e => rfl
  | ok answer =>
    simp only
    split
    · rfl
    · cases healthOf answer.2 <;> rfl

/-- **Such a node can tell all its records.**  The induction is over what happened to it. -/
theorem Visited.tellable {n : LeaseNode} (h : Visited n) : n.memory.Tellable := by
  induction h with
  | made => exact ⟨rfl, nofun⟩
  | started _ _ ih => exact ih
  | stopped _ _ ih => exact ih
  | served _ origin c ih => exact serve_tellable ih origin.reaches c
  | @checked w _ arguments ih =>
    cases arguments with
    | nil =>
      show (checkHealth NodeParty.party w).1.store.party.node.memory.Tellable
      rw [checkHealth_party, get_memory ih]
      exact ih
    | cons => exact ih
  | @closed w _ ih =>
    simp only [store, close]
    split <;> exact ih

/-! ## Reads of such a node -/

/-- The failure of a read whose path has no route: the answer has the status 404 and is no JSON. -/
def noRoute (c : Client) (name : String) : Error :=
  .callFailed (.http (c.baseUrl ++ recordPath name))
    (.contentType 404 plainUtf8Type (urlOf ⟨"GET", c.baseUrl ++ recordPath name, none⟩))

/-- What the client hears of the reply to a read is the record, -/
theorem heard_found {name : String} {r : LeaseRecord} (hr : r.Readable name) (url url' : String) :
    heard url (deliveryOf url' (.answered (replyToRead name (some r)))) = .ok (200, r.toValue) := by
  obtain ⟨fields, hvalue, hne, hkeys⟩ := hr.toValue_texts
  show heard url (.response 200 (readJson .none 200 jsonUtf8Type (Text.Utf8.encode r.toValue.write.toList) url')) = _
  rw [hvalue, readJson_texts hne hkeys]
  rfl

/-- or the news that there is none; -/
theorem heard_absent (name url url' : String) :
    heard url (deliveryOf url' (.answered (replyToRead name none))) =
      .ok (404, .object (textsOf [("error", "not_found"), ("name", name)])) := by
  have hkeys : ([("error", "not_found"), ("name", name)].map (·.1)).Nodup := by
    show ["error", "name"].Nodup
    decide
  exact congrArg (fun data => heard url (.response 404 data)) (readJson_texts (List.cons_ne_nil _ _) hkeys 404 url')

/-- and that there is no route is no JSON. -/
theorem heard_nowhere (url url' : String) :
    heard url (deliveryOf url' (.answered (plain 404 "404: Not Found"))) =
      .error (.callFailed (.http url) (.contentType 404 plainUtf8Type url')) := by
  have htype : Text.lower plainUtf8Type = plainUtf8Type := by decide +kernel
  have hplain : isJsonType plainUtf8Type = false := by decide +kernel
  have hdata : ∀ bytes, readJson .none 404 plainUtf8Type bytes url' = .error (.contentType 404 plainUtf8Type url') := by
    intro bytes
    simp only [readJson, htype, hplain]
    rfl
  show heard url (.response 404 (readJson .none 404 plainUtf8Type _ url')) = _
  rw [hdata]
  rfl

/-- **A read of a node that can tell its records** brings the record of the name, if the name is addressable, and fails
if it is not. -/
theorem read_node {w : World (HttpStore NodeParty)} (htell : w.store.party.node.memory.Tellable)
    (horigin : w.store.client.AtOrigin) {name : String} (hname : name ≠ "") :
    (read NodeParty.party (.text name) w).2 =
      if Addressable name then .answered (w.store.party.node.memory.find? (.text name))
      else .failed (noRoute w.store.client name) := by
  obtain ⟨ledger, -, hheard⟩ := request_node "GET" none (horigin.record name)
  have hmethod : (⟨"GET", w.store.client.baseUrl ++ recordPath name, none⟩ : Call).method = "GET" := rfl
  have hreply := handle_record (w := ⟨w.store.party.node, ledger⟩) hname hmethod w.store.party.clock htell.way
  rw [hreply] at hheard
  by_cases haddress : Addressable name
  · rw [if_pos haddress] at hheard ⊢
    cases hfound : w.store.party.node.memory.find? (.text name) with
    | none =>
      rw [hfound, heard_absent] at hheard
      exact read_absent hheard
    | some r =>
      have hr := htell.readable name r hfound
      rw [hfound, heard_found hr] at hheard
      exact read_found hr hheard
  · rw [if_neg haddress] at hheard ⊢
    rw [heard_nowhere] at hheard
    exact read_failed hheard

/-- **Names are read back over HTTP**, if they are addressable.  Whatever clients did to a node, a read of a name that is
not blank leaves its records as they are, and brings exactly the record that the node has for the name, which is a record
of this very name, or the news that it has none.  Only a name that is a dot segment or has a brace cannot be read: the
read fails, whether there is such a record or not. -/
theorem get_visited {w : World (HttpStore NodeParty)} (hnode : Visited w.store.party.node)
    (horigin : w.store.client.AtOrigin) {name : String} (hname : name ≠ "") :
    let found := w.store.party.node.memory.find? (.text name)
    let got := (store NodeParty.party).get (.text name) w
    got.1.store.party.node.memory = w.store.party.node.memory ∧
      (∀ r ∈ found, r.name = .text name) ∧
      (Addressable name → got.2 = .answered found) ∧
      (¬Addressable name → got.2 = .failed (noRoute w.store.client name)) := by
  intro found got
  have htell := hnode.tellable
  have hread : got.2 = _ := read_node htell horigin hname
  refine ⟨read_memory htell name, fun r hr => ?_, fun h => ?_, fun h => ?_⟩
  · cases htell.readable name r hr <;> rfl
  · rw [hread, if_pos h]
  · rw [hread, if_neg h]

/-! ## A name that is read back, and one that is not -/

/-- An acquire of a name for a minute, -/
def minuteCall (name : String) : StoreCall DateTime :=
  .acquire name (.utc (later 74000)) (.utc (later 14000)) "east" (.utc (later 14000))

/-- and the record that it leaves. -/
def minuteRecord (name : String) : LeaseRecord := ⟨.text name, later 74000, some (later 14000), .text "east"⟩

/-- A client that has not been used and its node, after this acquire. -/
def minuteTaken (name : String) : World (HttpStore NodeParty) × Outcome (Option LeaseRecord) :=
  (store NodeParty.party).serve freshNode (minuteCall name)

theorem freshNode_origin : freshNode.store.client.AtOrigin :=
  ⟨"http", "node:5000", by decide, by decide, Text.Percent.forall_of_all (by decide)⟩

/-- Every name that is not blank and not too long for a body is granted, and is in the store of the node, which was visited by
the one client. -/
theorem minuteTaken_granted {name : String} (hname : name ≠ "") (hshort : ∀ v ∈ (minuteCall name).sent?, InLimit v) :
    Visited (minuteTaken name).1.store.party.node ∧ (minuteTaken name).1.store.client.AtOrigin ∧
      (minuteTaken name).2 = .answered (some (minuteRecord name)) ∧
      (minuteTaken name).1.store.party.node.memory.find? (.text name) = some (minuteRecord name) := by
  have hempty : Memory.Tellable .empty := ⟨rfl, nofun⟩
  have hcut : (minuteCall name).CutsTo (.acquire name (later 74000) (later 14000) "east" (later 14000)) :=
    .acquire (DateTime.cutsTo_utc (by decide) (by decide)) (DateTime.cutsTo_utc (by decide) (by decide))
      (DateTime.cutsTo_utc (by decide) (by decide))
  have hlegible : (minuteCall name).Legible := by
    show ∀ t ∈ [DateTime.utc (later 74000), .utc (later 14000), .utc (later 14000)], t.Legible
    decide
  have hwrites : Writes (minuteCall name) := ⟨trivial, hname, hlegible, hshort⟩
  obtain ⟨hmemory, houtcome, hbase⟩ :=
    serve_alike (v := ⟨.empty, .empty⟩) freshNode_origin.reaches rfl hempty hwrites
  obtain ⟨hshows, hanswer⟩ := Memory.follows.own (w := ⟨.empty, .empty⟩) hcut (hempty.shows name)
  obtain ⟨scheme, host, horigin⟩ := freshNode_origin
  refine ⟨.served (.made 1 "node" 5000 .usual) freshNode_origin _, ⟨scheme, host, hbase.trans horigin.1, horigin.2⟩, ?_, ?_⟩
  · exact houtcome.trans hanswer
  · rw [minuteTaken, hmemory]
    exact hshows.found

/-- A name with a slash, a blank, a percent sign and a letter that is no ASCII is read back. -/
theorem get_visited_backup :
    let name := "nightly/backup 100% für alle"
    Visited (minuteTaken name).1.store.party.node ∧ (minuteTaken name).1.store.client.AtOrigin ∧ name ≠ "" ∧
      ((store NodeParty.party).get (.text name) (minuteTaken name).1).2 = .answered (some (minuteRecord name)) := by
  intro name
  have hname : name ≠ "" := by decide
  obtain ⟨hvisited, horigin, -, hfound⟩ := minuteTaken_granted hname (by decide +kernel)
  obtain ⟨-, -, hread, -⟩ := get_visited hvisited horigin hname
  refine ⟨hvisited, horigin, hname, ?_⟩
  rw [hread (by decide), hfound]

/-- **Two dots can be acquired, and cannot be read.** -/
theorem dots_unread :
    (minuteTaken "..").2 = .answered (some (minuteRecord "..")) ∧
      (minuteTaken "..").1.store.party.node.memory.find? (.text "..") = some (minuteRecord "..") ∧
      ∃ e, ((store NodeParty.party).get (.text "..") (minuteTaken "..").1).2 = .failed e := by
  obtain ⟨hvisited, horigin, hgranted, hfound⟩ := minuteTaken_granted (show ".." ≠ "" by decide) (by decide +kernel)
  refine ⟨hgranted, hfound, noRoute (minuteTaken "..").1.store.client "..", ?_⟩
  exact (read_node hvisited.tellable horigin (by decide)).trans (if_neg (by decide))

end HttpStore
end Http
end Leasehold
