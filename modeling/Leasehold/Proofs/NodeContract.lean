/-
  Writes over HTTP do what writes on the store in memory do.

  A write over HTTP is a write on the store in memory of the node, with six changes of form around it: the times become
  timestamps, the fields become a body, the body is read again, the timestamps become moments; and then the record becomes
  a body, and is read again.  Nothing is lost on the way there but what the store in memory drops too, the part of a
  millisecond; nothing at all is lost on the way back.

  1. **`serve_cut`** — the store in memory does the same for two calls whose times are cut to the same milliseconds;
  2. **`handle_acquire_texts`, `handle_release_texts`** — the node reads such a call out of the body that was sent, and
     carries it out;
  3. **`Told`** — what the write then comes to: a record that can be read back (`LeaseRecord.Readable`), or a refusal.  The
     client takes from the node's reply the very same (`write_reply`);
  4. **`serve_alike`** — one write: the outcome is the same, and so is the whole store in memory, here and there;
  5. **`http_refines_memory`** — hence no sequence of writes can tell the two apart.  The induction is over the writes, and
     what it carries is that the client stays with its node and every record can be read back (`Memory.Tellable`).
-/
import Leasehold.Proofs.Client
import Leasehold.Proofs.StoreCall
namespace Leasehold

open Json Http

/-! ## Records that can be told -/

/-- **A record that can be written down and read back**: it was made by an acquire, or by a release of a name that had no
record, and its times are legible. -/
inductive LeaseRecord.Readable (name : String) : LeaseRecord → Prop where
  | moved {u : Instant} (whole : u.IsWhole) (legible : u.Legible) : Readable name ⟨.text name, u, none, .null⟩
  | taken {u at' : Instant} {lockedBy : String} (whole : u.IsWhole) (legible : u.Legible) (whole' : at'.IsWhole)
      (legible' : at'.Legible) : Readable name ⟨.text name, u, some at', .text lockedBy⟩

namespace LeaseRecord.Readable

variable {name : String} {r : LeaseRecord}

theorem lockUntil_whole (h : r.Readable name) : r.lockUntil.IsWhole := by
  cases h with
  | moved whole => exact whole
  | taken whole => exact whole

/-- Moving the end leaves a record that can be told. -/
theorem of_moved {e : Option LeaseRecord} (h : ∀ r ∈ e, r.Readable name) {u : Instant} (hu : u.IsWhole) (hl : u.Legible) :
    (StoreCall.moved name e u).Readable name := by
  cases e with
  | none => exact .moved hu hl
  | some r =>
    cases h r rfl with
    | moved => exact .moved hu hl
    | taken _ _ whole' legible' => exact .taken hu hl whole' legible'

/-- **As an object the record is a row of texts**, one for each of its fields, -/
theorem toValue_texts (h : r.Readable name) : ∃ fields : List (String × String),
    r.toValue = .object (textsOf fields) ∧ fields ≠ [] ∧ (fields.map (·.1)).Nodup := by
  cases h with
  | @moved u whole legible =>
    refine ⟨[(nameKey, name), (lockUntilKey, u.timestamp)], rfl, List.cons_ne_nil _ _, ?_⟩
    show ["_id", "lockUntil"].Nodup
    decide
  | @taken u at' lockedBy whole legible whole' legible' =>
    refine ⟨[(nameKey, name), (lockUntilKey, u.timestamp), (lockedAtKey, at'.timestamp), (lockedByKey, lockedBy)], rfl,
      List.cons_ne_nil _ _, ?_⟩
    show ["_id", "lockUntil", "lockedAt", "lockedBy"].Nodup
    decide

/-- **and it is read again as the record.** -/
theorem ofValue_toValue (h : r.Readable name) : LeaseRecord.ofValue r.toValue = .ok r := by
  cases h with
  | @moved u whole legible => exact ofFields_ok rfl rfl (readTime_legible whole legible) rfl
  | @taken u at' lockedBy whole legible whole' legible' =>
    have hat : readOptionalTime lockedAtKey [(nameKey, .text name), (lockUntilKey, .text u.timestamp),
        (lockedAtKey, .text at'.timestamp), (lockedByKey, .text lockedBy)] = .ok (some at') :=
      LeaseNode.readOptionalTime_legible rfl whole' legible'
    exact ofFields_ok rfl rfl (readTime_legible whole legible) hat

end LeaseRecord.Readable

/-! ## Calls and what they are cut to -/

namespace StoreCall

/-- A call that writes. -/
def IsWrite {τ : Type} : StoreCall τ → Prop
  | look _ => False
  | _ => True

instance {τ : Type} (c : StoreCall τ) : Decidable c.IsWrite :=
  match c with
  | acquire .. => isTrue trivial
  | release .. => isTrue trivial
  | look _ => isFalse id

/-- The JSON that a call sends in the body of its request, if it sends any. -/
def sent? : StoreCall DateTime → Option Value
  | acquire name t s lockedBy a =>
    (HttpStore.acquirePayload ⟨.text name, .time t, .time s, .text lockedBy, .time a⟩).toOption
  | release name t c => (HttpStore.releasePayload ⟨.text name, .time t, LeaseStore.held c⟩).toOption
  | look _ => none

/-- The record that a call leaves can be told, if the record that it finds can. -/
theorem step_readable {c : StoreCall DateTime} {d : StoreCall Instant} (hcut : c.CutsTo d) {e : Option LeaseRecord}
    (h : ∀ r ∈ e, r.Readable c.name) : ∀ r ∈ (d.step e).1, r.Readable c.name := by
  have hif : ∀ (condition : Prop) [Decidable condition] (r : LeaseRecord), r.Readable c.name →
      ∀ r' ∈ (stepIf condition c.name e r).1, r'.Readable c.name := by
    intro condition _ r hr r' hr'
    rw [stepIf] at hr'
    split at hr'
    · obtain rfl := Option.some.inj hr'
      exact hr
    · exact h r' hr'
  cases hcut with
  | acquire ht hs ha => exact hif _ _ (.taken ht.isWhole ht.legible hs.isWhole hs.legible)
  | release ht hh => exact hif _ _ (.of_moved h ht.isWhole ht.legible)
  | look => exact h

end StoreCall

/-- A whole millisecond, as a date and time of UTC, is cut to itself. -/
theorem DateTime.cutsTo_utc {i : Instant} (whole : i.IsWhole) (legible : i.Legible) : (DateTime.utc i).CutsTo i where
  aware := rfl
  cut := by rw [DateTime.truncate_utc, show i.truncate = i from whole]
  legible := legible

theorem DateTime.CutsTo.utc {t : DateTime} {i : Instant} (h : t.CutsTo i) : (DateTime.utc i).CutsTo i :=
  DateTime.cutsTo_utc h.isWhole h.legible

namespace Memory

/-- **A store in memory that can tell all its records**, and has no trouble ahead. -/
structure Tellable (m : Memory) : Prop where
  way : m.pass = (m, .through)
  readable : ∀ name, ∀ r ∈ m.find? (.text name), r.Readable name

theorem Tellable.shows {m : Memory} (h : m.Tellable) (name : String) : Shows m name (m.find? (.text name)) :=
  ⟨h.way, rfl, fun r hr => (h.readable name r hr).lockUntil_whole⟩

/-- No call makes an untellable record. -/
theorem Tellable.serve {w : World Memory} (h : w.store.Tellable) {c : StoreCall DateTime} {d : StoreCall Instant}
    (hcut : c.CutsTo d) : (store.serve w c).1.store.Tellable := by
  have hown := (follows.own hcut (h.shows c.name)).1
  refine ⟨hown.way, fun name => ?_⟩
  by_cases hname : name = c.name
  · rw [hname, hown.found]
    exact StoreCall.step_readable hcut (h.readable c.name)
  · rw [(follows.other hcut (h.shows c.name) hname (h.shows name)).found]
    exact h.readable name

/-- **The write of an acquire is told by what its times are cut to**, -/
theorem tryUpdate_cut (lockedBy : String) {m : Memory} {name : String} {e : Option LeaseRecord} (h : Shows m name e)
    {t t' s s' a a' : DateTime} {u at' now : Instant} (ht : t.CutsTo u) (hs : s.CutsTo at') (ha : a.CutsTo now)
    (ht' : t'.CutsTo u) (hs' : s'.CutsTo at') (ha' : a'.CutsTo now) (l l' : Ledger) :
    (store.tryUpdate ⟨.text name, .time t, .time s, .text lockedBy, .time a⟩ ⟨m, l⟩).1.store =
        (store.tryUpdate ⟨.text name, .time t', .time s', .text lockedBy, .time a'⟩ ⟨m, l'⟩).1.store ∧
      (store.tryUpdate ⟨.text name, .time t, .time s, .text lockedBy, .time a⟩ ⟨m, l⟩).2 =
        (store.tryUpdate ⟨.text name, .time t', .time s', .text lockedBy, .time a'⟩ ⟨m, l'⟩).2 := by
  have hwork : m.writeAcquire ⟨.text name, .time t, .time s, .text lockedBy, .time a⟩ =
      m.writeAcquire ⟨.text name, .time t', .time s', .text lockedBy, .time a'⟩ := by
    simp only [writeAcquire, lookup_text, bind, Except.bind, h.found, forAcquire_cut h.whole ht hs ha,
      forAcquire_cut h.whole ht' hs' ha']
  simp only [store, write, transport, h.way, hwork, and_self]

/-- **and so is the write of a release.** -/
theorem update_cut {m : Memory} {name : String} {e : Option LeaseRecord} (h : Shows m name e) {t t' : DateTime}
    {u : Instant} (ht : t.CutsTo u) (ht' : t'.CutsTo u) {c c' : Option DateTime} {held : Option Instant}
    (hc : StoreCall.CutsHeld c held) (hc' : StoreCall.CutsHeld c' held) (l l' : Ledger) :
    (store.update ⟨.text name, .time t, LeaseStore.held c⟩ ⟨m, l⟩).1.store =
        (store.update ⟨.text name, .time t', LeaseStore.held c'⟩ ⟨m, l'⟩).1.store ∧
      (store.update ⟨.text name, .time t, LeaseStore.held c⟩ ⟨m, l⟩).2 =
        (store.update ⟨.text name, .time t', LeaseStore.held c'⟩ ⟨m, l'⟩).2 := by
  have hwork : m.writeRelease ⟨.text name, .time t, LeaseStore.held c⟩ =
      m.writeRelease ⟨.text name, .time t', LeaseStore.held c'⟩ := by
    simp only [writeRelease, lookup_text, bind, Except.bind, h.found, forRelease_cut e ht hc, forRelease_cut e ht' hc']
  simp only [store, write, transport, h.way, hwork, and_self]

end Memory

namespace Http

/-! ## What a write comes to -/

/-- **What a write without trouble comes to**: a record that can be told, or a refusal. -/
def Told (name : String) (o : Outcome LeaseRecord) : Prop :=
  (∃ r : LeaseRecord, r.Readable name ∧ o = .answered r) ∨ o = .failed (.conditionNotMet (.text name) .store)

theorem Told.of_effect {m m' : Memory} {name : String} {r : LeaseRecord} {condition : Prop} {o : Outcome LeaseRecord}
    (h : Memory.Effect m name r condition m' o) (way : m.pass = (m, .through)) (hr : r.Readable name) : Told name o := by
  cases h with
  | applied => exact Or.inl ⟨r, hr, rfl⟩
  | refused => exact Or.inr rfl
  | lost hlost =>
    rw [way] at hlost
    cases hlost
  | stuck hstuck =>
    rw [way] at hstuck
    cases hstuck

namespace LeaseNode

/-- The reply to a write. -/
def replyTo (name : String) : Outcome LeaseRecord → Response
  | .answered r => json 200 r.toValue
  | _ => conflict (.text name)

/-- The outcome of a write is answered with its reply. -/
theorem answerWrite_reply {name : String} {o : Outcome LeaseRecord} (h : Told name o)
    {applied rejected : World LeaseNode → World LeaseNode} {w : World LeaseNode} {m : Memory}
    (ha : (applied w).store.memory = m) (hr : (rejected w).store.memory = m) :
    (answerWrite (.text name) applied rejected w o).1.store.memory = m ∧
      (answerWrite (.text name) applied rejected w o).2 = .answered (replyTo name o) := by
  rcases h with ⟨r, -, rfl⟩ | rfl
  · exact ⟨ha, rfl⟩
  · exact ⟨hr, rfl⟩

/-! ## What is sent, and what the node does -/

theorem acquirePayload_cut {name lockedBy : String} {t s a : DateTime} {u at' now : Instant} (ht : t.CutsTo u)
    (hs : s.CutsTo at') (ha : a.CutsTo now) :
    HttpStore.acquirePayload ⟨.text name, .time t, .time s, .text lockedBy, .time a⟩ =
      .ok (.object (textsOf (acquireTexts name lockedBy u at' now))) := by
  simp only [HttpStore.acquirePayload, ht.timestamp_time, hs.timestamp_time, ha.timestamp_time]
  rfl

theorem releasePayload_cut {name : String} {t : DateTime} {u : Instant} (ht : t.CutsTo u) {c : Option DateTime}
    {held : Option Instant} (hc : StoreCall.CutsHeld c held) :
    HttpStore.releasePayload ⟨.text name, .time t, LeaseStore.held c⟩ =
      .ok (.object (textsOf (releaseTexts name u held))) := by
  cases hc with
  | none =>
    simp only [HttpStore.releasePayload, ht.timestamp_time]
    rfl
  | some hcut =>
    simp only [HttpStore.releasePayload, LeaseStore.held, ht.timestamp_time, hcut.timestamp_time]
    rfl

variable {name : String} {e : Option LeaseRecord}

/-- **The node carries the acquire out** as its store in memory would for the caller, and answers with the reply to it. -/
theorem handle_acquire_texts (hname : name ≠ "") {w : World LeaseNode} (h : Memory.Shows w.store.memory name e)
    {t s a : DateTime} {u at' now : Instant} (ht : t.CutsTo u) (hs : s.CutsTo at') (ha : a.CutsTo now) {lockedBy : String}
    (hlimit : InLimit (.object (textsOf (acquireTexts name lockedBy u at' now)))) {call : Call}
    (hmethod : call.method = "POST")
    (hp : call.payload = some (.object (textsOf (acquireTexts name lockedBy u at' now)))) (clock : GivenTime)
    (ledger : Ledger) :
    let there := Memory.store.tryUpdate ⟨.text name, .time t, .time s, .text lockedBy, .time a⟩ ⟨w.store.memory, ledger⟩
    Told name there.2 ∧
      (handle clock (NodeParty.requestOf call "/api/lease/acquire") w).1.store.memory = there.1.store ∧
      (handle clock (NodeParty.requestOf call "/api/lease/acquire") w).2 = .answered (replyTo name there.2) := by
  intro there
  have hroute : destination "POST" "/api/lease/acquire" = .route .acquire := by decide +kernel
  obtain ⟨hstore, hanswer⟩ := handle_route hmethod hroute clock w
  have hkeys : ["name", "lock_until", "locked_at", "locked_by", "available_at"].Nodup := by decide
  have hbody : bodyFields w.store.server (NodeParty.requestOf call "/api/lease/acquire") =
      .ok (.text name, textsOf (acquireTexts name lockedBy u at' now)) := bodyFields_texts _ _ hp hlimit hname hkeys
  have htold : Told name there.2 :=
    .of_effect (Memory.acquire_shows (w := ⟨w.store.memory, ledger⟩) h ht hs ha) h.way
      (.taken ht.isWhole ht.legible hs.isWhole hs.legible)
  have hread : acquireOf (.text name) (textsOf (acquireTexts name lockedBy u at' now)) =
      .ok (⟨.text name, .time (.utc u), .time (.utc at'), .text lockedBy, .time (.utc now)⟩, u) :=
    acquireOf_texts ht.isWhole hs.isWhole ha.isWhole ⟨ht.legible, hs.legible, ha.legible⟩
  -- the node's own write, of the times that it read
  obtain ⟨hmemory, houtcome⟩ := Memory.tryUpdate_cut lockedBy h ht.utc hs.utc ha.utc ht hs ha w.ledger ledger
  rw [hstore, hanswer]
  simp only [handleRoute, handleAcquire, hbody, hread, onMemory]
  rw [houtcome]
  exact ⟨htold, answerWrite_reply htold hmemory hmemory⟩

/-- **and the release likewise.** -/
theorem handle_release_texts (hname : name ≠ "") {w : World LeaseNode} (h : Memory.Shows w.store.memory name e)
    (hread : ∀ r ∈ e, r.Readable name) {t : DateTime} {u : Instant} (ht : t.CutsTo u) {c : Option DateTime}
    {held : Option Instant} (hc : StoreCall.CutsHeld c held) (hlimit : InLimit (.object (textsOf (releaseTexts name u held))))
    {call : Call} (hmethod : call.method = "POST")
    (hp : call.payload = some (.object (textsOf (releaseTexts name u held)))) (clock : GivenTime) (ledger : Ledger) :
    let there := Memory.store.update ⟨.text name, .time t, LeaseStore.held c⟩ ⟨w.store.memory, ledger⟩
    Told name there.2 ∧
      (handle clock (NodeParty.requestOf call "/api/lease/update") w).1.store.memory = there.1.store ∧
      (handle clock (NodeParty.requestOf call "/api/lease/update") w).2 = .answered (replyTo name there.2) := by
  intro there
  have hroute : destination "POST" "/api/lease/update" = .route .update := by decide +kernel
  obtain ⟨hstore, hanswer⟩ := handle_route hmethod hroute clock w
  have hkeys : ((releaseTexts name u held).map (·.1)).Nodup := releaseTexts_keys name u held
  have hbody : bodyFields w.store.server (NodeParty.requestOf call "/api/lease/update") =
      .ok (.text name, textsOf (releaseTexts name u held)) := bodyFields_texts _ _ hp hlimit hname hkeys
  have htold : Told name there.2 :=
    .of_effect (Memory.release_shows (w := ⟨w.store.memory, ledger⟩) h ht hc) h.way (.of_moved hread ht.isWhole ht.legible)
  have hread' : releaseOf (.text name) (textsOf (releaseTexts name u held)) =
      .ok (⟨.text name, .time (.utc u), LeaseStore.held (held.map .utc)⟩, u) := by
    have hheld : ∀ i ∈ held, i.IsWhole ∧ i.Legible := by
      rintro i ⟨⟩
      cases hc with
      | some hcut => exact ⟨hcut.isWhole, hcut.legible⟩
    rw [releaseOf_texts ht.isWhole (fun i hi => (hheld i hi).1) ⟨ht.legible, fun i hi => (hheld i hi).2⟩]
    cases held <;> rfl
  have hutc : StoreCall.CutsHeld (held.map .utc) held := by
    cases hc with
    | none => exact .none
    | some hcut => exact .some hcut.utc
  obtain ⟨hmemory, houtcome⟩ := Memory.update_cut h ht.utc ht hutc hc w.ledger ledger
  rw [hstore, hanswer]
  simp only [handleRoute, handleUpdate, hbody, hread', onMemory]
  rw [houtcome]
  exact ⟨htold, answerWrite_reply htold hmemory hmemory⟩

end LeaseNode

/-! ## What the client takes from it -/

open LeaseNode NodeParty

namespace HttpStore

/-- **The client takes from the reply what the write came to.** -/
theorem write_reply {name : String} {o : Outcome LeaseRecord} (h : Told name o) (url path : String) (payload : Value)
    (w : World (HttpStore Unit)) :
    (write (deliveryOf url (.answered (replyTo name o))).party path (.text name) (.ok payload) w).2 = o := by
  rcases h with ⟨r, hr, rfl⟩ | rfl
  · obtain ⟨fields, hvalue, hne, hkeys⟩ := hr.toValue_texts
    have hdelivery : deliveryOf url (.answered (replyTo name (.answered r))) = .response 200 (.ok r.toValue) := by
      rw [hvalue]
      show Delivery.response 200 (readJson .none 200 jsonUtf8Type (Text.Utf8.encode r.toValue.write.toList) url) = _
      rw [hvalue, readJson_texts hne hkeys]
    simp only [write, request, hdelivery, Delivery.party, receive, if_true, hr.ofValue_toValue]
    rfl
  · have hkeys : ([("error", "condition_not_met"), ("name", name)].map (·.1)).Nodup := by
      show ["error", "name"].Nodup
      decide
    have hdelivery : deliveryOf url (.answered (conflict (.text name))) =
        .response 409 (.ok (.object (textsOf [("error", "condition_not_met"), ("name", name)]))) :=
      congrArg (Delivery.response 409) (readJson_texts (List.cons_ne_nil _ _) hkeys 409 url)
    simp only [write, request, replyTo, hdelivery, Delivery.party, receive]
    rfl

/-- A write opens the session first. -/
theorem write_ensureOpen {ω : Type} (P : Party ω) (path : String) (name : Value) (payload : Except Error Value)
    (w : World (HttpStore ω)) (hok : ∃ v, payload = .ok v) :
    write P path name payload w = write P path name payload (ensureOpen P w) := by
  obtain ⟨v, rfl⟩ := hok
  have hagain : ensureOpen P (ensureOpen P w) = ensureOpen P w := by
    by_cases hopen : w.store.client.isOpen = true
    · simp only [ensureOpen, hopen, if_true]
    · simp only [ensureOpen, hopen, Bool.false_eq_true, if_false, World.store_note, if_true]
  simp only [write, request, hagain]

/-- **A write whose request the node answers with the reply to it** has the outcome that the write on the node's store
has. -/
theorem write_alike (there : World Memory × Outcome LeaseRecord) {w : World (HttpStore NodeParty)} {path name : String}
    {payload : Value} (hreach : (tidyUrl (w.store.client.baseUrl ++ path)).2 = path)
    (hnode : ∀ (clock : GivenTime) (ledger : Ledger) (call : Call), call.method = "POST" → call.payload = some payload →
      Told name there.2 ∧
        (handle clock (requestOf call path) ⟨w.store.party.node, ledger⟩).1.store.memory = there.1.store ∧
        (handle clock (requestOf call path) ⟨w.store.party.node, ledger⟩).2 = .answered (replyTo name there.2)) :
    (write NodeParty.party path (.text name) (.ok payload) w).1.store.party.node.memory = there.1.store ∧
      (write NodeParty.party path (.text name) (.ok payload) w).2 = there.2 := by
  rw [write_ensureOpen NodeParty.party path (.text name) (.ok payload) w ⟨payload, rfl⟩]
  -- once the session is open the client and the node are the same as before
  obtain ⟨client, ledger, hopen, hbase, hworld⟩ : ∃ (client : Client) (ledger : Ledger), client.isOpen = true ∧
      client.baseUrl = w.store.client.baseUrl ∧ ensureOpen NodeParty.party w = ⟨⟨client, w.store.party⟩, ledger⟩ := by
    by_cases hopen : w.store.client.isOpen = true
    · exact ⟨w.store.client, w.ledger, hopen, rfl, by rw [ensureOpen, if_pos hopen]⟩
    · refine ⟨{ w.store.client with isOpen := true }, (ensureOpen NodeParty.party w).ledger, rfl, rfl, ?_⟩
      simp only [ensureOpen, if_neg hopen]
      rfl
  have hcall := call_at_once NodeParty.party w.store.party client ledger hopen path (.text name) payload
  obtain ⟨htold, hmemory, hanswer⟩ := hnode w.store.party.clock ledger (client.callOf path payload) rfl rfl
  rw [← hbase] at hreach
  obtain ⟨hnode', hdelivery⟩ := send_eq (client.callOf path payload) hreach ⟨w.store.party, ledger⟩
  rw [hworld, hcall]
  refine ⟨?_, ?_⟩
  · exact hnode'.trans hmemory
  · show (write (send (client.callOf path payload) ⟨w.store.party, ledger⟩).2.party path _ _ _).2 = there.2
    rw [hdelivery, hanswer]
    exact write_reply htold _ _ _ _

/-! ## One write after another -/

/-- A write that both stores can be asked for: its name is not empty, its times can be written down and read back, and its body
is below the limit of the node. -/
structure Writes (c : StoreCall DateTime) : Prop where
  write : c.IsWrite
  named : c.name ≠ ""
  legible : c.Legible
  short : ∀ v ∈ c.sent?, InLimit v

/-- **One write over HTTP and the same write on a store in memory** that is what the node's is: the outcome is the same,
what the stores are afterwards is the same, and the client is still that of the node. -/
theorem serve_alike {w : World (HttpStore NodeParty)} {v : World Memory} (hreach : w.store.client.Reaches)
    (hmemory : w.store.party.node.memory = v.store) (htell : v.store.Tellable) {c : StoreCall DateTime} (hc : Writes c) :
    ((store NodeParty.party).serve w c).1.store.party.node.memory = (Memory.store.serve v c).1.store ∧
      ((store NodeParty.party).serve w c).2 = (Memory.store.serve v c).2 ∧
      ((store NodeParty.party).serve w c).1.store.client.baseUrl = w.store.client.baseUrl := by
  obtain ⟨d, hcut⟩ := hc.legible.cutsTo
  have hshows := htell.shows c.name
  have hread := htell.readable c.name
  rw [← hmemory] at hshows hread
  obtain ⟨m, ledger⟩ := v
  obtain rfl : w.store.party.node.memory = m := hmemory
  cases hcut with
  | @acquire name lockedBy t s a u at' now ht hs ha =>
    have hname : name ≠ "" := hc.named
    have hsent : acquirePayload ⟨.text name, .time t, .time s, .text lockedBy, .time a⟩ = _ := acquirePayload_cut ht hs ha
    have hlimit : InLimit (.object (textsOf (acquireTexts name lockedBy u at' now))) :=
      hc.short _ (by rw [StoreCall.sent?, hsent]; rfl)
    have halike := write_alike (Memory.store.tryUpdate ⟨.text name, .time t, .time s, .text lockedBy, .time a⟩
        ⟨w.store.party.node.memory, ledger⟩) hreach.acquire
      fun clock ledger' call hm hp => handle_acquire_texts (w := ⟨w.store.party.node, ledger'⟩) hname hshows ht hs ha hlimit hm
        hp clock ledger
    rw [← hsent] at halike
    exact ⟨halike.1, congrArg (Outcome.map some) halike.2, write_baseUrl NodeParty.party _ _ _ w⟩
  | @release name t u c held ht hh =>
    have hname : name ≠ "" := hc.named
    have hsent : releasePayload ⟨.text name, .time t, LeaseStore.held c⟩ = _ := releasePayload_cut ht hh
    have hlimit : InLimit (.object (textsOf (releaseTexts name u held))) := hc.short _ (by rw [StoreCall.sent?, hsent]; rfl)
    have halike := write_alike (Memory.store.update ⟨.text name, .time t, LeaseStore.held c⟩
        ⟨w.store.party.node.memory, ledger⟩) hreach.update
      fun clock ledger' call hm hp => handle_release_texts (w := ⟨w.store.party.node, ledger'⟩) hname hshows hread ht hh hlimit
        hm hp clock ledger
    rw [← hsent] at halike
    exact ⟨halike.1, congrArg (Outcome.map some) halike.2, write_baseUrl NodeParty.party _ _ _ w⟩
  | look => exact absurd hc.write id

/-- **The node's store and the store in memory stay the same** over every sequence of writes. -/
theorem after_alike {w : World (HttpStore NodeParty)} {v : World Memory} (hreach : w.store.client.Reaches)
    (hmemory : w.store.party.node.memory = v.store) (htell : v.store.Tellable) (calls : List (StoreCall DateTime))
    (hcalls : ∀ c ∈ calls, Writes c) :
    ((store NodeParty.party).after w calls).store.client.Reaches ∧
      ((store NodeParty.party).after w calls).store.party.node.memory = (Memory.store.after v calls).store ∧
      (Memory.store.after v calls).store.Tellable := by
  induction calls generalizing w v with
  | nil => exact ⟨hreach, hmemory, htell⟩
  | cons c calls ih =>
    have hc := hcalls c List.mem_cons_self
    obtain ⟨d, hcut⟩ := hc.legible.cutsTo
    obtain ⟨hnext, -, hbase⟩ := serve_alike hreach hmemory htell hc
    exact ih (hreach.congr hbase) hnext (htell.serve hcut) fun c' hc' => hcalls c' (List.mem_cons_of_mem _ hc')

/-- **Writes over HTTP cannot be told from writes on the store in memory.**  The client's base URL leads to the node, the
connection is up, the bodies are below the node's limit, and its store is as empty as the other one.  Then, after any
writes, the next write has the same outcome with both, the same record or the refusal that names the write's own lock; and
the node has the same records as the store in memory. -/
theorem http_refines_memory (w : World (HttpStore NodeParty)) (hreach : w.store.client.Reaches)
    (hempty : w.store.party.node.memory = .empty) (ledger : Ledger) (calls : List (StoreCall DateTime))
    (hcalls : ∀ c ∈ calls, Writes c) (call : StoreCall DateTime) (hcall : Writes call) :
    let here := (store NodeParty.party).serve ((store NodeParty.party).after w calls) call
    let there := Memory.store.serve (Memory.store.after ⟨.empty, ledger⟩ calls) call
    here.2 = there.2 ∧
      ((∃ r, here.2 = .answered (some r)) ∨ here.2 = .failed (.conditionNotMet (.text call.name) .store)) ∧
      here.1.store.party.node.memory.records = there.1.store.records := by
  intro here there
  have htell : Memory.Tellable .empty := ⟨rfl, nofun⟩
  obtain ⟨hreach', hmemory', htell'⟩ := after_alike (v := ⟨.empty, ledger⟩) hreach hempty htell calls hcalls
  obtain ⟨hnext, houtcome, -⟩ := serve_alike hreach' hmemory' htell' hcall
  refine ⟨houtcome, ?_, congrArg Memory.records hnext⟩
  obtain ⟨d, hcut⟩ := hcall.legible.cutsTo
  have hstep : here.2 = _ := houtcome.trans (Memory.follows.own hcut (htell'.shows call.name)).2
  rw [hstep, ← hcut.name_eq]
  have hwrite := hcall.write
  cases hcut with
  | acquire ht hs ha =>
    simp only [StoreCall.step, StoreCall.stepIf]
    split
    · exact Or.inl ⟨_, rfl⟩
    · exact Or.inr rfl
  | release ht hh =>
    simp only [StoreCall.step, StoreCall.stepIf]
    split
    · exact Or.inl ⟨_, rfl⟩
    · exact Or.inr rfl
  | look => exact absurd hwrite id

/-- A client that has not been used, and its node. -/
def freshNode : World (HttpStore NodeParty) :=
  ⟨⟨.make "http://node:5000" (.int 5), ⟨.make 1 "node" 5000, .moment .first⟩⟩, .empty⟩

/-- A lease taken until 0.9 milliseconds past midnight, by a clock half an hour ahead of UTC, and released by a clock of UTC
that holds it until midnight and a half millisecond: both are cut to midnight, over the wire and in memory. -/
theorem http_refines_memory_midnight :
    let at' (micros : Nat) (h : micros < calendarMicros) : DateTime := ⟨⟨micros, h⟩, some 0⟩
    let ahead (micros : Nat) (h : micros < calendarMicros) : DateTime := ⟨⟨micros, h⟩, some 1800000000⟩
    let taken : StoreCall DateTime :=
      .acquire "nightly" (ahead 63839665800000900 (by decide)) (ahead 63839665000000000 (by decide)) "east"
        (ahead 63839665000000000 (by decide))
    let freed : StoreCall DateTime :=
      .release "nightly" (at' 63839663300000001 (by decide)) (some (at' 63839664000000500 (by decide)))
    freshNode.store.client.Reaches ∧ freshNode.store.party.node.memory = .empty ∧ Writes taken ∧ Writes freed ∧
      ((store NodeParty.party).serve ((store NodeParty.party).after freshNode [taken]) freed).2 =
        (Memory.store.serve (Memory.store.after ⟨.empty, .empty⟩ [taken]) freed).2 := by
  intro at' ahead taken freed
  have hbase : freshNode.store.client.baseUrl = "http" ++ "://" ++ "node:5000" := by decide
  have hreach : freshNode.store.client.Reaches := Client.reaches_origin hbase (by decide) (by decide)
  have htaken : Writes taken := ⟨trivial, by decide, by decide, by decide +kernel⟩
  have hfreed : Writes freed := ⟨trivial, by decide, by decide, by decide +kernel⟩
  refine ⟨hreach, rfl, htaken, hfreed, ?_⟩
  exact (http_refines_memory freshNode hreach rfl .empty [taken] (by simpa using htaken) freed hfreed).1

end HttpStore
end Http
end Leasehold
