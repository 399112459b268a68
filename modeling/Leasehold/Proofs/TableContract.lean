/-
  The store on a table does what the store in memory does.

  An item of the table has the same fields as a hash on Redis, each of them typed, behind the name that is the item's key.
  So what a hash stands for (`Redis.Holds`) is what an item stands for, and the order of timestamps need not be looked at
  again.  What is new here is the service: conditions are written as expressions over attributes that may be missing, an
  update makes an item where there was none, and the whole item comes back.

  1. **`Holds`** — how an item keeps a record.  The expressions ask of its attributes what the contract asks of the record
     (`Holds.acquirable`, `Holds.releasable`), an update leads from item to item (`Holds.acquired`, `Holds.released`), and
     the item that comes back is read as the record (`Holds.toRecord`).
  2. **`serve_shows`** — one call: it does to the item of its name what `StoreCall.step` tells.  On any table it leaves all
     other items alone (`serve_spares`).
  3. **`toldBy`** — a refusal of the service says so, and one of the store in memory does not.  The contract knows one kind
     of refusal, so it is the store with its refusals retold that keeps to it (`follows`).
  4. **`table_refines_memory`** — from an empty table the store cannot be told from an empty store in memory, but for who
     it was that refused.
-/
import Leasehold.Dynamo.Store
import Leasehold.Proofs.RedisContract
namespace Leasehold

/-! ## Who refuses -/

/-- An outcome whose refusal is told by a judge. -/
def Outcome.toldBy {α : Type} (judge : Judge) : Outcome α → Outcome α
  | .failed (.conditionNotMet name _) => .failed (.conditionNotMet name judge)
  | o => o

theorem Outcome.map_toldBy {α β : Type} (judge : Judge) (f : α → β) (o : Outcome α) :
    (o.toldBy judge).map f = (o.map f).toldBy judge := by
  cases o with
  | answered a => rfl
  | silent => rfl
  | failed e => cases e <;> rfl

/-- What the contract tells is told by the store itself. -/
theorem StoreCall.step_toldBy (e : Option LeaseRecord) (d : StoreCall Instant) (judge : Judge) :
    ((d.step e).2.toldBy judge).toldBy .store = (d.step e).2 := by
  rcases StoreCall.step_outcome e d with ⟨a, h⟩ | h <;> rw [h] <;> rfl

namespace LeaseStore

variable {σ : Type}

/-- A store whose refusals are told by a judge. -/
def toldBy (judge : Judge) (S : LeaseStore σ) : LeaseStore σ :=
  { S with
    tryUpdate := fun r w => (S.tryUpdate r w).map id (·.toldBy judge)
    update := fun r w => (S.update r w).map id (·.toldBy judge)
    get := fun name w => (S.get name w).map id (·.toldBy judge) }

/-- It does the same, and tells it so. -/
theorem serve_toldBy (judge : Judge) (S : LeaseStore σ) (w : World σ) (c : StoreCall DateTime) :
    (S.toldBy judge).serve w c = (S.serve w c).map id (·.toldBy judge) := by
  cases c with
  | acquire name lockUntil lockedAt lockedBy availableAt =>
    simp only [serve, toldBy, Prod.map, id_eq, Outcome.map_toldBy]
  | release name lockUntil heldUntil => simp only [serve, toldBy, Prod.map, id_eq, Outcome.map_toldBy]
  | look name => rfl

theorem after_toldBy (judge : Judge) (S : LeaseStore σ) (w : World σ) (calls : List (StoreCall DateTime)) :
    (S.toldBy judge).after w calls = S.after w calls := by
  induction calls generalizing w with
  | nil => rfl
  | cons c calls ih =>
    show (S.toldBy judge).after ((S.toldBy judge).serve w c).1 calls = S.after (S.serve w c).1 calls
    rw [serve_toldBy]
    exact ih _

end LeaseStore

namespace Dynamo

/-! ## How an item keeps a record -/

/-- The attributes of an item with some fields. -/
def attributes (name : String) (fields : List (String × String)) : Item :=
  (nameKey, typed (.text name)) :: fields.map fun f => (f.1, typed (.text f.2))

theorem textAt_attributes {key : String} (hkey : key ≠ nameKey) (name : String) (fields : List (String × String)) :
    textAt? (attributes name fields) key = Redis.Database.find? key fields := by
  have hname : (nameKey == key) = false := beq_false_of_ne (Ne.symm hkey)
  simp only [textAt?, Value.field?, attributes, List.find?_cons, hname]
  induction fields with
  | nil => rfl
  | cons f fields ih =>
    by_cases hf : (f.1 == key) = true
    · simp [Redis.Database.find?, hf, textOf?, typed, Value.field?]
    · simpa [Redis.Database.find?, List.find?_cons, hf] using ih

/-- The texts of the attributes are the fields again. -/
theorem textsOf_attributes (name : String) (fields : List (String × String)) :
    DynamoStore.textsOf (attributes name fields) =
      .ok ((nameKey, .text name) :: fields.map fun f => (f.1, .text f.2)) := by
  have hfields : DynamoStore.textsOf (fields.map fun f => (f.1, typed (.text f.2))) =
      .ok (fields.map fun f => (f.1, .text f.2)) := by
    induction fields with
    | nil => rfl
    | cons f fields ih =>
      rw [List.map_cons, DynamoStore.textsOf, ih]
      rfl
  rw [attributes, DynamoStore.textsOf, hfields]
  rfl

/-- **The record that the item of a name stands for**, if there is an item. -/
inductive Holds (name : String) : Option LeaseRecord → Option Item → Prop where
  | absent : Holds name none none
  | kept {r : LeaseRecord} {fields : List (String × String)} (h : Redis.Holds name (some r) fields) :
      Holds name (some r) (some (attributes name fields))

/-- The condition of an acquire, -/
def acquirable : Condition := .either (.atMost "lockUntil" ":availableAt") (.missing "lockUntil")

/-- and of a release, if it has one. -/
def releasable (held : Option Instant) : Option Condition := held.map fun _ => .equals "lockUntil" ":heldUntil"

/-- The values of the placeholders of an acquire. -/
def acquireValues (lockUntil lockedAt : Instant) (lockedBy : String) (availableAt : Instant) : Item :=
  [(":lockUntil", typed (.text lockUntil.timestamp)), (":lockedAt", typed (.text lockedAt.timestamp)),
    (":lockedBy", typed (.text lockedBy)), (":availableAt", typed (.text availableAt.timestamp))]

/-- The values of the placeholders of a release. -/
def releaseValues (lockUntil : Instant) (held : Option Instant) : Item :=
  (":lockUntil", typed (.text lockUntil.timestamp))
    :: held.toList.map fun i => (":heldUntil", typed (.text i.timestamp))

/-- A condition on the order of two texts, where both are there, -/
theorem Condition.holds_atMost {item values : Item} {field placeholder s t : String} (hs : textAt? item field = some s)
    (ht : textAt? values placeholder = some t) :
    (Condition.atMost field placeholder).holds item values = !(decide (t < s)) := by
  simp only [holds, hs, ht]

/-- and on their being equal. -/
theorem Condition.holds_equals {item values : Item} {field placeholder s t : String} (hs : textAt? item field = some s)
    (ht : textAt? values placeholder = some t) : (Condition.equals field placeholder).holds item values = (s == t) := by
  simp only [holds, hs, ht]

/-- The answer to a read. -/
def itemAnswer : Option Item → Value
  | some item => .object [("Item", .object item)]
  | none => .object []

namespace Holds

variable {name : String} {e : Option LeaseRecord} {item : Option Item}

/-- **What an acquire asks of the item is what the contract asks of the record.** -/
theorem acquirable (h : Holds name e item) {now : Instant} (hw : now.IsWhole) (hl : now.Legible) (u at' : Instant)
    (lockedBy : String) :
    Dynamo.acquirable.holds (item.getD []) (acquireValues u at' lockedBy now) = decide (StoreCall.EndsBy e now) := by
  cases h with
  | absent =>
    have hends : StoreCall.EndsBy none now := nofun
    rw [decide_eq_true hends]
    rfl
  | @kept r fields h =>
    have hend : textAt? (attributes name fields) lockUntilKey = some r.lockUntil.timestamp := by
      rw [textAt_attributes (by decide), h.find_end]
      rfl
    have hthere : (Value.field? lockUntilKey (attributes name fields)).isNone = false := by
      cases hfield : Value.field? lockUntilKey (attributes name fields) with
      | none =>
        rw [textAt?, hfield] at hend
        cases hend
      | some v => rfl
    have hasks := h.ends_by hw hl
    rw [h.find_end] at hasks
    have hnow : textAt? (acquireValues u at' lockedBy now) ":availableAt" = some now.timestamp := rfl
    have hholds : Dynamo.acquirable.holds (attributes name fields) (acquireValues u at' lockedBy now) =
        (!(decide (now.timestamp < r.lockUntil.timestamp)) ||
          (Value.field? lockUntilKey (attributes name fields)).isNone) :=
      congrArg (· || _) (Condition.holds_atMost hend hnow)
    rw [Option.getD_some, hholds, hthere, Bool.or_false]
    simp only [Option.map_some, Option.any_some, Redis.textBefore, decide_eq_true_eq] at hasks
    by_cases hends : StoreCall.EndsBy (some r) now
    · have hnot : ¬now.timestamp < r.lockUntil.timestamp := fun hlt => hasks.mp hlt hends
      simp [hends, hnot]
    · simp [hends, hasks.mpr hends]

/-- **A release** likewise. -/
theorem releasable (h : Holds name e item) {held : Option Instant} (hheld : ∀ i ∈ held, i.IsWhole ∧ i.Legible)
    (u : Instant) :
    ((Dynamo.releasable held).map (·.holds (item.getD []) (releaseValues u held))).getD true =
      decide (StoreCall.EndsAt e held) := by
  cases held with
  | none =>
    have hends : StoreCall.EndsAt e none := nofun
    rw [decide_eq_true hends]
    rfl
  | some i =>
    obtain ⟨hw, hl⟩ := hheld i rfl
    cases h with
    | absent =>
      have hends : ¬StoreCall.EndsAt none (some i) := fun hends => nomatch hends i rfl
      rw [decide_eq_false hends]
      rfl
    | @kept r fields h =>
      obtain ⟨hrw, hrl⟩ := h.end_legible rfl
      have hinj := Instant.timestamp_inj hrw hw hrl hl
      have hend : textAt? (attributes name fields) lockUntilKey = some r.lockUntil.timestamp := by
        rw [textAt_attributes (by decide), h.find_end]
        rfl
      have hheld' : textAt? (releaseValues u (some i)) ":heldUntil" = some i.timestamp := rfl
      have hholds : (Condition.equals lockUntilKey ":heldUntil").holds (attributes name fields)
          (releaseValues u (some i)) = (r.lockUntil.timestamp == i.timestamp) := Condition.holds_equals hend hheld'
      show (Condition.equals lockUntilKey ":heldUntil").holds (attributes name fields) (releaseValues u (some i)) = _
      rw [hholds, Bool.eq_iff_iff, beq_iff_eq, decide_eq_true_iff, hinj]
      simp [StoreCall.EndsAt]

/-- **After an acquire** the item holds the record of the acquire, whatever it held before, if it was there at all. -/
theorem acquired (h : Holds name e item) {u at' : Instant} (hu : u.IsWhole) (hul : u.Legible) (ha : at'.IsWhole)
    (hal : at'.Legible) (lockedBy : String) (now : Instant) :
    Holds name (some ⟨.text name, u, some at', .text lockedBy⟩)
      (some (assign (acquireValues u at' lockedBy now)
        [("lockUntil", ":lockUntil"), ("lockedAt", ":lockedAt"), ("lockedBy", ":lockedBy")]
        (item.getD [("_id", typed (.text name))]))) := by
  cases h with
  | absent => exact .kept (.taken hu hul ha hal)
  | kept h =>
    cases h with
    | moved => exact .kept (.taken hu hul ha hal)
    | taken => exact .kept (.taken hu hul ha hal)

/-- **After a release** it holds the record that was moved. -/
theorem released (h : Holds name e item) {u : Instant} (hu : u.IsWhole) (hul : u.Legible) (held : Option Instant) :
    Holds name (some (StoreCall.moved name e u))
      (some (assign (releaseValues u held) [("lockUntil", ":lockUntil")] (item.getD [("_id", typed (.text name))]))) := by
  cases h with
  | absent => exact .kept (.moved hu hul)
  | kept h =>
    cases h with
    | moved => exact .kept (.moved hu hul)
    | taken _ _ whole' legible' => exact .kept (.taken hu hul whole' legible')

/-- **The item reads back as its record**, -/
theorem toRecord {r : LeaseRecord} {attributes : Item} (h : Holds name (some r) (some attributes)) :
    DynamoStore.toRecord (.text name) (.object attributes) = .ok r := by
  cases h with
  | @kept _ fields h =>
    have hfields : DynamoStore.toRecord (.text name) (.object (Dynamo.attributes name fields)) =
        LeaseRecord.ofFields ((nameKey, .text name) :: fields.map fun f => (f.1, .text f.2)) := by
      simp only [DynamoStore.toRecord, textsOf_attributes, bind, Except.bind, Value.putField, beq_self_eq_true, if_true]
    rw [hfields]
    cases h with
    | @moved u whole legible => exact LeaseRecord.ofFields_ok rfl rfl (LeaseRecord.readTime_legible whole legible) rfl
    | @taken u at' lockedBy whole legible whole' legible' =>
      have hat : LeaseRecord.readOptionalTime lockedAtKey [(nameKey, .text name), (lockUntilKey, .text u.timestamp),
          (lockedAtKey, .text at'.timestamp), (lockedByKey, .text lockedBy)] = .ok (some at') :=
        Http.LeaseNode.readOptionalTime_legible rfl whole' legible'
      exact LeaseRecord.ofFields_ok rfl rfl (LeaseRecord.readTime_legible whole legible) hat

/-- ... and a missing one as no record. -/
theorem recordOf (h : Holds name e item) : DynamoStore.recordOf (.text name) (itemAnswer item) = .ok e := by
  cases h with
  | absent => rfl
  | @kept r fields h =>
    have hread := toRecord (.kept h)
    have hkey : (Value.field? lockUntilKey (attributes name fields)).isSome = true := by cases h <;> rfl
    show (if (!(Value.object (attributes name fields)).truthy) = true then .ok none
      else if (!(Value.field? lockUntilKey (attributes name fields)).isSome) = true then .ok none
      else (DynamoStore.toRecord (.text name) (.object (attributes name fields))).map some) = _
    rw [hkey, hread]
    rfl

end Holds

/-! ## The service -/

namespace Service

theorem find_putItem_self (name : String) (item : Item) (items : List (Value × Item)) :
    ((putItem (.text name) item items).find? (·.1.sameKey (.text name))).map (·.2) = some item := by
  induction items with
  | nil => simp [putItem]
  | cons p rest ih =>
    obtain ⟨k, q⟩ := p
    by_cases hk : k.sameKey (.text name) = true
    · simp [putItem, hk]
    · simp only [putItem, hk, Bool.false_eq_true, if_false, List.find?_cons]
      exact ih

theorem find_putItem_other {name : String} {key : Value} (hne : key ≠ .text name) (item : Item)
    (items : List (Value × Item)) :
    (putItem (.text name) item items).find? (·.1.sameKey key) = items.find? (·.1.sameKey key) := by
  have hself : (Value.text name).sameKey key = false := by
    cases key with
    | text t =>
      rw [Value.sameKey_text]
      exact beq_false_of_ne fun h => hne (congrArg Value.text h.symm)
    | null => rfl
    | bool b => rfl
    | int i => rfl
    | real x => rfl
    | list items => rfl
    | object fields => rfl
  induction items with
  | nil => simp [putItem, hself]
  | cons p rest ih =>
    obtain ⟨k, q⟩ := p
    by_cases hk : k.sameKey (.text name) = true
    · obtain rfl := Value.eq_of_sameKey_text hk
      simp [putItem, hself]
    · simp only [putItem, hk, Bool.false_eq_true, if_false, List.find?_cons, ih]

variable {s : Service} {name : String}

/-- **An update of a service that has no replies given in advance**: the item, or the rejection. -/
theorem perform_update (hs : s.replies = []) (table : String) {u : UpdateCall} (hname : u.name = .text name) :
    s.perform (.updateItem table u) =
      if (u.condition.map (·.holds ((s.find? (.text name)).getD []) u.values)).getD true then
        ({ s with
            calls := s.calls ++ [.updateItem table u]
            items := putItem (.text name)
              (assign u.values u.assignments ((s.find? (.text name)).getD [("_id", typed (.text name))])) s.items },
          .ok (.object [("Attributes", .object
            (assign u.values u.assignments ((s.find? (.text name)).getD [("_id", typed (.text name))])))]))
      else ({ s with calls := s.calls ++ [.updateItem table u] },
        .error (.table (.rejected (.text conditionCode) (.text "The conditional request failed") "UpdateItem"))) := by
  simp only [perform, hs, work, update, hname, find?, show (Value.text name).isKey = true from rfl, if_true]

theorem readItem_text (s : Service) (name : String) :
    s.readItem (.text name) = .ok (itemAnswer (s.find? (.text name))) := by
  rw [readItem, show (Value.text name).isKey = true from rfl, if_pos rfl]
  cases s.find? (.text name) <;> rfl

/-- A call changes no item but that of its own name, whatever the service holds. -/
theorem perform_spares (s : Service) {c : Call} (hname : c.itemName = .text name) {key : Value}
    (hne : key ≠ .text name) : (s.perform c).1.find? key = s.find? key := by
  simp only [perform]
  split
  · rfl
  · cases c with
    | updateItem table u =>
      have hu : u.name = .text name := hname
      simp only [work, update, hu, show (Value.text name).isKey = true from rfl, if_true]
      split
      · exact congrArg (Option.map (·.2)) (find_putItem_other hne _ _)
      · rfl
    | getItem table name => rfl
    | createTable table readCapacity writeCapacity => rfl
    | deleteTable table => rfl
    | awaitTable table => rfl

end Service

/-! ## The store -/

namespace DynamoStore

/-- **The entry of a name** in a store whose service does its own work: the item of that name. -/
structure Shows (s : DynamoStore) (name : String) (e : Option LeaseRecord) : Prop where
  works : s.service.replies = []
  entry : Holds name e (s.service.find? (.text name))

/-- A call leaves the service as its work does. -/
theorem call_service (c : Call) (w : World DynamoStore) :
    (call c w).1.store.service = (w.store.service.perform c).1 := by
  simp only [call]
  split
  · rfl
  · split <;> rfl
  · rfl

/-- **A call changes no item but that of its own name**, whatever the table holds and whatever replies are given in
advance. -/
theorem serve_spares (w : World DynamoStore) (c : StoreCall DateTime) {key : Value} (hne : key ≠ .text c.name) :
    (store.serve w c).1.store.service.find? key = w.store.service.find? key := by
  -- the update, if there is one, is about the name of the call
  have hwrite : ∀ {name : String} {update : Except Error UpdateCall},
      (∀ u, update = .ok u → u.name = .text name) → key ≠ .text name →
      (write update w).1.store.service.find? key = w.store.service.find? key := by
    intro name update hname hkey
    cases update with
    | error e => rfl
    | ok u =>
      show (call (.updateItem w.store.table u) w).1.store.service.find? key = _
      rw [call_service]
      exact Service.perform_spares _ (c := .updateItem w.store.table u) (hname u rfl) hkey
  cases c with
  | acquire name lockUntil lockedAt lockedBy availableAt =>
    refine hwrite (fun u hu => ?_) hne
    obtain ⟨_, -, hu⟩ := Except.bind_ok hu
    obtain ⟨_, -, hu⟩ := Except.bind_ok hu
    obtain ⟨_, -, hu⟩ := Except.bind_ok hu
    cases hu
    rfl
  | release name lockUntil heldUntil =>
    refine hwrite (fun u hu => ?_) hne
    obtain ⟨_, -, hu⟩ := Except.bind_ok hu
    split at hu
    · cases hu
      rfl
    · obtain ⟨_, -, hu⟩ := Except.bind_ok hu
      cases hu
      rfl
  | look name =>
    show (call (.getItem w.store.table (.text name)) w).1.store.service.find? key = _
    rw [call_service]
    exact Service.perform_spares _ (c := .getItem w.store.table (.text name)) rfl hne

/-! ## The contract -/

/-- **A write** whose update leaves the item of a record, or is rejected, does what the contract tells; the refusal is
the service's. -/
theorem write_shows {w : World DynamoStore} {name : String} {e : Option LeaseRecord} {r : LeaseRecord}
    {condition : Prop} [Decidable condition] {u : UpdateCall} (h : Shows w.store name e) (hname : u.name = .text name)
    (hcond : (u.condition.map (·.holds ((w.store.service.find? (.text name)).getD []) u.values)).getD true =
      decide condition)
    (hnew : Holds name (some r) (some (assign u.values u.assignments
      ((w.store.service.find? (.text name)).getD [("_id", typed (.text name))])))) :
    Shows (write (.ok u) w).1.store name (StoreCall.stepIf condition name e r).1 ∧
      (write (.ok u) w).2.map some = (StoreCall.stepIf condition name e r).2.toldBy .service := by
  have hperform := Service.perform_update h.works w.store.table hname
  rw [hcond] at hperform
  rw [StoreCall.stepIf]
  by_cases hc : condition
  · rw [if_pos (decide_eq_true hc)] at hperform
    rw [if_pos hc]
    simp only [write, call, hperform, hname]
    refine ⟨⟨h.works, ?_⟩, ?_⟩
    · show Holds name (some r) ((Service.putItem (.text name) _ _).find? _ |>.map _)
      rw [Service.find_putItem_self]
      exact hnew
    · have hanswer : ∀ v, answerField "Attributes" (.object [("Attributes", v)]) = .ok v := fun _ => rfl
      simp only [updatedRecord, hanswer, bind, Except.bind, hnew.toRecord]
      rfl
  · rw [if_neg (by simpa using hc)] at hperform
    rw [if_neg hc]
    have hcall : call (.updateItem w.store.table u) w =
        ({ w with store := { w.store with service :=
            { w.store.service with calls := w.store.service.calls ++ [.updateItem w.store.table u] } } },
          .error (.conditionNotMet (.text name) .service)) := by
      simp only [call, hperform, failure, if_true, Call.itemName, hname]
      rfl
    simp only [write, hcall]
    exact ⟨⟨h.works, h.entry⟩, rfl⟩

/-- **The write of an acquire**, for a name whose entry is known, -/
theorem acquire_shows {w : World DynamoStore} {name : String} {e : Option LeaseRecord} (h : Shows w.store name e)
    {t s a : DateTime} {u at' now : Instant} (ht : t.CutsTo u) (hs : s.CutsTo at') (ha : a.CutsTo now)
    (lockedBy : String) :
    Shows (store.serve w (.acquire name t s lockedBy a)).1.store name
        (StoreCall.step e (.acquire name u at' lockedBy now)).1 ∧
      (store.serve w (.acquire name t s lockedBy a)).2 =
        (StoreCall.step e (.acquire name u at' lockedBy now)).2.toldBy .service := by
  have hupdate : acquireUpdate ⟨.text name, .time t, .time s, .text lockedBy, .time a⟩ =
      .ok { name := .text name
            assignments := [("lockUntil", ":lockUntil"), ("lockedAt", ":lockedAt"), ("lockedBy", ":lockedBy")]
            condition := some Dynamo.acquirable
            values := acquireValues u at' lockedBy now } := by
    simp only [acquireUpdate, ht.timestamp_time, hs.timestamp_time, ha.timestamp_time]
    rfl
  show Shows (write (acquireUpdate _) w).1.store name _ ∧ (write (acquireUpdate _) w).2.map some = _
  rw [hupdate]
  exact write_shows h rfl (h.entry.acquirable ha.isWhole ha.legible u at' lockedBy)
    (h.entry.acquired ht.isWhole ht.legible hs.isWhole hs.legible lockedBy now)

/-- **of a release**, -/
theorem release_shows {w : World DynamoStore} {name : String} {e : Option LeaseRecord} (h : Shows w.store name e)
    {t : DateTime} {u : Instant} (ht : t.CutsTo u) {c : Option DateTime} {held : Option Instant}
    (hc : StoreCall.CutsHeld c held) :
    Shows (store.serve w (.release name t c)).1.store name (StoreCall.step e (.release name u held)).1 ∧
      (store.serve w (.release name t c)).2 = (StoreCall.step e (.release name u held)).2.toldBy .service := by
  have hupdate : releaseUpdate ⟨.text name, .time t, LeaseStore.held c⟩ =
      .ok { name := .text name
            assignments := [("lockUntil", ":lockUntil")]
            condition := Dynamo.releasable held
            values := releaseValues u held } := by
    cases hc with
    | none =>
      simp only [releaseUpdate, ht.timestamp_time]
      rfl
    | some hcut =>
      simp only [releaseUpdate, LeaseStore.held, ht.timestamp_time, hcut.timestamp_time]
      rfl
  have hheld : ∀ i ∈ held, i.IsWhole ∧ i.Legible := by
    intro i hi
    cases hc with
    | none => cases hi
    | some hcut =>
      cases hi
      exact ⟨hcut.isWhole, hcut.legible⟩
  show Shows (write (releaseUpdate _) w).1.store name _ ∧ (write (releaseUpdate _) w).2.map some = _
  rw [hupdate]
  exact write_shows h rfl (h.entry.releasable hheld u) (h.entry.released ht.isWhole ht.legible held)

/-- **and a look.** -/
theorem read_shows {w : World DynamoStore} {name : String} {e : Option LeaseRecord} (h : Shows w.store name e) :
    Shows (read (.text name) w).1.store name e ∧ (read (.text name) w).2 = .answered e := by
  have hperform : w.store.service.perform (.getItem w.store.table (.text name)) =
      ({ w.store.service with calls := w.store.service.calls ++ [.getItem w.store.table (.text name)] },
        .ok (itemAnswer (w.store.service.find? (.text name)))) := by
    simp only [Service.perform, h.works, Service.work, Service.readItem_text]
    rfl
  simp only [read, call, hperform, bind, Except.bind, h.entry.recordOf]
  exact ⟨⟨h.works, h.entry⟩, rfl⟩

/-- **What a call does to the item of its name**, and how it ends. -/
theorem serve_shows {w : World DynamoStore} {c : StoreCall DateTime} {d : StoreCall Instant} {e : Option LeaseRecord}
    (hcut : c.CutsTo d) (h : Shows w.store c.name e) :
    Shows (store.serve w c).1.store c.name (d.step e).1 ∧
      (store.serve w c).2 = (d.step e).2.toldBy .service := by
  cases hcut with
  | acquire ht hs ha => exact acquire_shows h ht hs ha _
  | release ht hh => exact release_shows h ht hh
  | look => exact read_shows h

/-- **The store on a table keeps to the contract**, its refusals retold. -/
theorem follows : (store.toldBy .store).Follows Shows where
  own := by
    intro w c d e hcut h
    obtain ⟨hshows, houtcome⟩ := serve_shows hcut h
    rw [LeaseStore.serve_toldBy]
    refine ⟨hshows, ?_⟩
    show (store.serve w c).2.toldBy .store = _
    rw [houtcome, StoreCall.step_toldBy]
  other := by
    intro w c d e e' name hcut h hne h'
    rw [LeaseStore.serve_toldBy]
    refine ⟨(serve_shows hcut h).1.works, ?_⟩
    show Holds name e' ((store.serve w c).1.store.service.find? (.text name))
    rw [serve_spares w c fun heq => hne (Value.text.inj heq)]
    exact h'.entry

/-! ## Two stores, one history -/

/-- An empty table and an empty store in memory hold the same records: none. -/
theorem alike_empty {s : DynamoStore} (hworks : s.service.replies = []) (hempty : s.service.items = []) :
    LeaseStore.Alike Shows Memory.Shows s .empty := by
  intro name
  refine ⟨none, ⟨hworks, ?_⟩, ⟨rfl, rfl, nofun⟩⟩
  rw [Service.find?, hempty]
  exact .absent

/-- **The store on a table cannot be told from the store in memory**, but for who it was that refused.  Both start without
a record.  Then, after any calls, the next call ends with both in the same record, or in none, or in the refusal that
names the call's own lock.  And it changes no item of the table but the one of that name. -/
theorem table_refines_memory (w : World DynamoStore) (hworks : w.store.service.replies = [])
    (hempty : w.store.service.items = []) (ledger : Ledger) (calls : List (StoreCall DateTime))
    (hcalls : ∀ c ∈ calls, c.Legible) (call : StoreCall DateTime) (hcall : call.Legible) :
    let before := store.after w calls
    let here := store.serve before call
    let there := Memory.store.serve (Memory.store.after ⟨.empty, ledger⟩ calls) call
    ((∃ e, here.2 = .answered e ∧ there.2 = .answered e) ∨
      here.2 = .failed (.conditionNotMet (.text call.name) .service) ∧
        there.2 = .failed (.conditionNotMet (.text call.name) .store)) ∧
      ∀ key ≠ .text call.name, here.1.store.service.find? key = before.store.service.find? key := by
  intro before here there
  have halike : LeaseStore.Alike Shows Memory.Shows before.store (Memory.store.after ⟨.empty, ledger⟩ calls).store := by
    have hagree := follows.agree Memory.follows (v := w) (w := ⟨.empty, ledger⟩) (alike_empty hworks hempty) calls hcalls
    rwa [LeaseStore.after_toldBy] at hagree
  refine ⟨?_, fun key hne => serve_spares before call hne⟩
  obtain ⟨d, hcut⟩ := hcall.cutsTo
  obtain ⟨e, htable, hmemory⟩ := halike call.name
  have hhere : here.2 = (d.step e).2.toldBy .service := (serve_shows hcut htable).2
  have hthere : there.2 = (d.step e).2 := (Memory.follows.own hcut hmemory).2
  rcases StoreCall.step_outcome e d with ⟨a, hstep⟩ | hstep
  · rw [hstep] at hhere hthere
    exact Or.inl ⟨a, hhere, hthere⟩
  · rw [hstep, hcut.name_eq] at hhere hthere
    exact Or.inr ⟨hhere, hthere⟩

/-- An empty table. -/
def emptyTable : World DynamoStore := ⟨⟨.empty, "leases", 1, 1⟩, .empty⟩

/-- A release without a condition makes an item that has an end and nothing else.  The end is cut to midnight, so an
acquire half a millisecond later by a clock of another zone finds the lock free, and takes it. -/
theorem table_refines_memory_half_item :
    let ends : DateTime := ⟨⟨63839664000000500, by decide⟩, some 0⟩
    let ahead (micros : Nat) (h : micros < calendarMicros) : DateTime := ⟨⟨micros, h⟩, some 1800000000⟩
    let freed : StoreCall DateTime := .release "nightly" ends none
    let next : StoreCall DateTime :=
      .acquire "nightly" (ahead 63839665800900000 (by decide)) (ahead 63839665800000900 (by decide)) "east"
        (ahead 63839665800000900 (by decide))
    freed.Legible ∧ next.Legible ∧
      ((∃ e, (store.serve (store.after emptyTable [freed]) next).2 = .answered e ∧
          (Memory.store.serve (Memory.store.after ⟨.empty, .empty⟩ [freed]) next).2 = .answered e) ∨
        (store.serve (store.after emptyTable [freed]) next).2 =
            .failed (.conditionNotMet (.text "nightly") .service) ∧
          (Memory.store.serve (Memory.store.after ⟨.empty, .empty⟩ [freed]) next).2 =
            .failed (.conditionNotMet (.text "nightly") .store)) := by
  intro ends ahead freed next
  have hfreed : freed.Legible := by decide
  have hnext : next.Legible := by decide
  refine ⟨hfreed, hnext, ?_⟩
  exact (table_refines_memory emptyTable rfl rfl .empty [freed] (by simpa using hfreed) next hnext).1

end DynamoStore
end Dynamo
end Leasehold
