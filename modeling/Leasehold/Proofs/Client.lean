/-
  What a client makes of what comes back.

  A call of a client is a request and what is made of the delivery.  The two are looked at apart, since on a network much
  may happen between them.

  1. **`call_at_once`** — a write is its request, sent to the other party, and then what the client makes of the delivery,
     which is no matter of the other party any more;
  2. **`write_baseUrl`** — whatever comes back, the client stays with its node;
  3. **`write_granting`** — only a status of 200 is an answer to a write;
  4. **`write_grantOf`** — and the record that a node delivers for an acquire is the record that the client takes from it.
-/
import Leasehold.Proofs.Serving
namespace Leasehold.Http

open Json

/-- The other party as a client sees it that gets one delivery. -/
def Delivery.party (d : Delivery) : Party Unit where
  openSession _ u := u
  send _ w := (w, d)
  closeSession u := u


theorem Client.Reaches.congr {c c' : Client} (h : c.Reaches) (hbase : c'.baseUrl = c.baseUrl) : c'.Reaches where
  acquire := by
    rw [hbase]
    exact h.acquire
  update := by
    rw [hbase]
    exact h.update

namespace HttpStore

/-! ## A write in its steps -/

section

variable {ω : Type} (P : Party ω) (party : ω) (client : Client) (ledger : Ledger)

/-- What a client makes of a failure is no matter of the other party, -/
theorem failCall_apart (url : String) (e : Error) :
    let apart := failCall url e ⟨⟨client, ()⟩, ledger⟩
    failCall url e ⟨⟨client, party⟩, ledger⟩ = (⟨⟨apart.1.store.client, party⟩, apart.1.ledger⟩, apart.2) := by
  simp only [failCall]
  split <;> rfl

/-- nor is what it makes of a response. -/
theorem receive_apart (name : Value) (status : Int) (data : Value) :
    let apart := receive name status data ⟨⟨client, ()⟩, ledger⟩
    receive name status data ⟨⟨client, party⟩, ledger⟩ =
      (⟨⟨apart.1.store.client, party⟩, apart.1.ledger⟩, apart.2) := by
  simp only [receive]
  split
  · cases LeaseRecord.ofValue data with
    | ok record => rfl
    | error e =>
      simp only
      split <;> rfl
  · split <;> rfl

/-- **A write whose steps follow each other** is the write that the client makes at once: the other party gets its call,
and the client makes of the delivery what it makes of it later. -/
theorem call_at_once (hopen : client.isOpen = true) (path : String) (name payload : Value) :
    let sent := P.send (client.callOf path payload) ⟨party, ledger⟩
    let heard := write sent.2.party path name (.ok payload) ⟨⟨client, ()⟩, sent.1.ledger⟩
    write P path name (.ok payload) ⟨⟨client, party⟩, ledger⟩ =
      (⟨⟨heard.1.store.client, sent.1.store⟩, heard.1.ledger⟩, heard.2) := by
  have hsession : ∀ {υ : Type} (Q : Party υ) (q : υ) (l : Ledger),
      ensureOpen Q ⟨⟨client, q⟩, l⟩ = ⟨⟨client, q⟩, l⟩ := fun Q q l => if_pos hopen
  obtain ⟨openSession, send, closeSession⟩ := P
  simp only [write, request, hsession, Client.callOf, Delivery.party]
  generalize send ⟨"POST", client.baseUrl ++ path, some payload⟩ ⟨party, ledger⟩ = sent
  obtain ⟨after, d⟩ := sent
  cases d with
  | broken e =>
    have happart := failCall_apart after.store client after.ledger (client.baseUrl ++ path) e
    simp only at happart ⊢
    rw [happart]
  | response status data =>
    cases data with
    | error e =>
      have happart := failCall_apart after.store client.countSent after.ledger (client.baseUrl ++ path) e
      simp only [onClient] at happart ⊢
      rw [happart]
    | ok v =>
      have happart := receive_apart after.store client.countSent after.ledger name status v
      simp only [onClient] at happart ⊢
      rw [happart]

end

/-! ## The client and its node -/

section

variable {ω : Type} (P : Party ω)

theorem ensureOpen_baseUrl (w : World (HttpStore ω)) :
    (ensureOpen P w).store.client.baseUrl = w.store.client.baseUrl := by
  simp only [ensureOpen]
  split <;> rfl

theorem failCall_baseUrl (url : String) (e : Error) (w : World (HttpStore ω)) :
    (failCall url e w).1.store.client.baseUrl = w.store.client.baseUrl := by
  simp only [failCall]
  split <;> rfl

theorem receive_baseUrl (name : Value) (status : Int) (data : Value) (w : World (HttpStore ω)) :
    (receive name status data w).1.store.client.baseUrl = w.store.client.baseUrl := by
  simp only [receive]
  split
  · cases LeaseRecord.ofValue data with
    | ok record => rfl
    | error e =>
      simp only
      split <;> rfl
  · split <;> rfl

theorem request_baseUrl (method path : String) (payload : Option Value) (w : World (HttpStore ω)) :
    (request P method path payload w).1.store.client.baseUrl = w.store.client.baseUrl := by
  simp only [request]
  split
  · rw [failCall_baseUrl]
    exact ensureOpen_baseUrl P w
  · split
    · exact ensureOpen_baseUrl P w
    · rw [failCall_baseUrl]
      exact ensureOpen_baseUrl P w

/-- **A client stays with its node**: no write changes its base URL. -/
theorem write_baseUrl (path : String) (name : Value) (payload : Except Error Value) (w : World (HttpStore ω)) :
    (write P path name payload w).1.store.client.baseUrl = w.store.client.baseUrl := by
  cases payload with
  | error e => rfl
  | ok v =>
    have hrequest := request_baseUrl P "POST" path (some v) w
    simp only [write]
    split
    · rename_i heq
      rwa [heq] at hrequest
    · rename_i heq
      rw [heq] at hrequest
      rw [receive_baseUrl]
      exact hrequest

end

/-! ## Grants -/

section

variable {ω : Type}

theorem receive_ok {name : Value} {status : Int} {data : Value} {w : World (HttpStore ω)} {r : LeaseRecord}
    (h : (receive name status data w).2 = .ok r) : status = 200 := by
  by_cases hstatus : status = 200
  · exact hstatus
  · simp only [receive, if_neg hstatus] at h
    split at h <;> cases h

/-- **Only a status of 200 is an answer** to a write. -/
theorem write_granting {d : Delivery} {path : String} {name : Value} {payload : Except Error Value}
    {w : World (HttpStore Unit)} {r : LeaseRecord} (h : (write d.party path name payload w).2 = .answered r) :
    d.Granting := by
  cases payload with
  | error e => cases h
  | ok v =>
    cases d with
    | broken e =>
      simp only [write, request, Delivery.party] at h
      cases h
    | response status data =>
      cases data with
      | error e =>
        simp only [write, request, Delivery.party] at h
        cases h
      | ok v =>
        simp only [write, request, Delivery.party] at h
        generalize hr : receive name status v _ = received at h
        obtain ⟨after, result⟩ := received
        cases result with
        | error e => cases h
        | ok record => exact receive_ok (congrArg Prod.snd hr)

end

/-! ## Records on their way back -/

/-- The record of an acquire, field by field. -/
def recordFields (c : Claim) (identity : String) : List (String × String) :=
  [(nameKey, c.name), (lockUntilKey, c.atMost.timestamp), (lockedAtKey, c.takenAt.timestamp), (lockedByKey, identity)]

/-- A body that begins and ends with a brace has no blanks at its ends. -/
theorem trimBody_braces (bytes : List UInt8) : trimBody (0x7b :: (bytes ++ [0x7d])) = 0x7b :: (bytes ++ [0x7d]) := by
  have hopen : ¬(fun b : UInt8 => Text.isAsciiBlank (Char.ofNat b.toNat)) 0x7b = true := by decide
  have hclose : ¬(fun b : UInt8 => Text.isAsciiBlank (Char.ofNat b.toNat)) 0x7d = true := by decide
  have hreverse : (0x7b :: (bytes ++ [0x7d])).reverse = 0x7d :: (bytes.reverse ++ [0x7b]) := by simp
  simp only [trimBody]
  rw [List.dropWhile_cons_of_neg (p := fun b : UInt8 => Text.isAsciiBlank (Char.ofNat b.toNat)) hopen, hreverse,
    List.dropWhile_cons_of_neg (p := fun b : UInt8 => Text.isAsciiBlank (Char.ofNat b.toNat)) hclose, ← hreverse,
    List.reverse_reverse]

/-- **An object of texts that a node delivers is the object that its client gets.** -/
theorem readJson_texts {fields : List (String × String)} (hne : fields ≠ []) (hkeys : (fields.map (·.1)).Nodup)
    (status : Int) (url : String) :
    readJson .none status jsonUtf8Type (Text.Utf8.encode (Value.object (textsOf fields)).write.toList) url =
      .ok (.object (textsOf fields)) := by
  have hlower : Text.lower jsonUtf8Type = jsonUtf8Type := by decide +kernel
  have htype : isJsonType jsonUtf8Type = true := by decide +kernel
  have hname : charsetName? jsonUtf8Type = some "utf-8" := by decide +kernel
  have hknown : Text.Charset.named? Text.Charset.charsets (Text.Charset.canonicalName "utf-8") = some .utf8 := by
    decide +kernel
  have hcodec : (charsetName? jsonUtf8Type).map (Text.Charset.lookup .none) = some (.codec Text.Charset.utf8.codec) := by
    rw [hname, Option.map_some, Text.Charset.lookup, hknown]
  have hbytes : Text.Utf8.encode (Value.object (textsOf fields)).write.toList =
      0x7b :: (Text.Utf8.encode (fieldsChars fields) ++ [0x7d]) := by
    rw [toList_write]
    show String.utf8EncodeChar '\x7b' ++ Text.Utf8.encode (fieldsChars fields ++ ['\x7d']) = _
    rw [Text.Utf8.encode_append]
    rfl
  have htrim : trimBody (Text.Utf8.encode (Value.object (textsOf fields)).write.toList) =
      Text.Utf8.encode (Value.object (textsOf fields)).write.toList := by
    rw [hbytes]
    exact trimBody_braces _
  have hsome : (Text.Utf8.encode (Value.object (textsOf fields)).write.toList).isEmpty = false := by
    rw [hbytes]
    rfl
  simp only [readJson, hlower, htype, htrim, hsome, hcodec, readWith, Text.Utf8.codec_decode_encode, read_texts hne hkeys]
  rfl

/-- The record that comes back is the record of the claim. -/
theorem ofValue_record {c : Claim} (hc : c.IsWhole) (identity : String) (hmost : c.atMost.Legible)
    (htaken : c.takenAt.Legible) :
    LeaseRecord.ofValue (.object (textsOf (recordFields c identity))) = .ok (c.record (.text identity)) := by
  have huntil : Value.field? lockUntilKey (textsOf (recordFields c identity)) = some (.text c.atMost.timestamp) := rfl
  have hat : LeaseRecord.readOptionalTime lockedAtKey (textsOf (recordFields c identity)) = .ok (some c.takenAt) :=
    LeaseNode.readOptionalTime_legible rfl hc.takenAt htaken
  simp only [LeaseRecord.ofValue, LeaseRecord.ofFields, LeaseRecord.required, huntil, hat, bind, Except.bind,
    LeaseRecord.readTime_legible hc.atMost hmost]
  rfl

/-- **A grant is heard**: the client takes from it the record that was written. -/
theorem write_grantOf {c : Claim} (hc : c.IsWhole) (identity : String) (hmost : c.atMost.Legible)
    (htaken : c.takenAt.Legible) (url path : String) (name payload : Value) (w : World (HttpStore Unit)) :
    (write (NodeParty.grantOf url (c.record (.text identity))).party path name (.ok payload) w).2 =
      .answered (c.record (.text identity)) := by
  have hne : recordFields c identity ≠ [] := List.cons_ne_nil _ _
  have hkeys : ((recordFields c identity).map (·.1)).Nodup := by
    show ["_id", "lockUntil", "lockedAt", "lockedBy"].Nodup
    decide
  have hvalue : (c.record (.text identity)).toValue = .object (textsOf (recordFields c identity)) := rfl
  have hgrant : NodeParty.grantOf url (c.record (.text identity)) =
      .response 200 (.ok (.object (textsOf (recordFields c identity)))) := by
    rw [NodeParty.grantOf, hvalue]
    exact congrArg (Delivery.response 200) (readJson_texts hne hkeys 200 url)
  simp only [write, request, hgrant, Delivery.party, receive, if_true, ofValue_record hc identity hmost htaken]
  rfl

end HttpStore
end Leasehold.Http
