/-
  The store on Redis does what the store in memory does.

  The one keeps moments and compares moments.  The other keeps texts in hashes, compares texts inside its scripts, and
  makes records out of the fields that come back.  Both keep to the contract of `StoreCall.step`, so they answer every
  sequence of calls alike:

  1. **`acquireScript_eq`, `releaseScript_eq`** — the two scripts on a key whose value is a hash or missing: the condition
     on the text of the end, and the fields afterwards.  On any key they leave every other key alone (`serve_spares`).
  2. **`Holds`** — how a hash keeps a record.  There are two forms, since a release without a condition makes a record
     where there was none: such a record has an end and nothing else.  A hash of either form reads back as its record
     (`Holds.toRecord`), and a script leads from form to form (`Holds.acquired`, `Holds.released`).
  3. **`Holds.ends_by`, `Holds.ends_at`** — what the scripts ask of the text is what the contract asks of the moment: the
     order of timestamps is the order of time, and no two whole milliseconds share a text.
  4. **`follows`**, **`refines_memory`** — the store keeps to the contract; hence, from a database without a key under the
     prefix, it cannot be told from an empty store in memory.
-/
import Leasehold.Proofs.StoreCall
import Leasehold.Proofs.TimestampOrder
import Leasehold.Redis.Store
namespace Leasehold.Redis

/-! ## Hashes -/

namespace Database

/-- Puts fields into a hash, one after another. -/
def putAll (pairs : List (String × String)) (fields : List (String × String)) : List (String × String) :=
  pairs.foldl (fun acc p => put p.1 p.2 acc) fields

/-- A database with a hash under a key. -/
def setHash (db : Database) (key : String) (fields : List (String × String)) : Database :=
  { db with entries := put key (.hash fields) db.entries }

@[simp] theorem fieldsOf_setHash (db : Database) (key : String) (fields : List (String × String)) :
    (db.setHash key fields).fieldsOf key = .ok fields := by
  simp only [fieldsOf, setHash, find_put_self]

theorem find_setHash_other {key other : String} (h : other ≠ key) (db : Database) (fields : List (String × String)) :
    find? other (db.setHash key fields).entries = find? other db.entries := find_put_other h _ _

theorem fieldsOf_congr {db db' : Database} {key : String} (h : find? key db'.entries = find? key db.entries) :
    db'.fieldsOf key = db.fieldsOf key := by
  rw [fieldsOf, fieldsOf, h]

/-- **What setting fields comes to**, apart from the number of those that were new. -/
theorem hset_ok {db : Database} {key : String} {fields : List (String × String)} (h : db.fieldsOf key = .ok fields)
    (pairs : List (String × String)) : ∃ n, db.hset key pairs = .ok (db.setHash key (putAll pairs fields), n) := by
  -- the count that goes along does not touch the fields
  have hfst : ∀ (ps : List (String × String)) (acc : List (String × String) × Nat),
      (ps.foldl (fun (acc : List (String × String) × Nat) p =>
        (put p.1 p.2 acc.1, if (find? p.1 acc.1).isSome then acc.2 else acc.2 + 1)) acc).1 = putAll ps acc.1 := by
    intro ps
    induction ps with
    | nil => exact fun _ => rfl
    | cons p ps ih => exact fun acc => ih _
  simp only [hset, h, Except.map]
  exact ⟨_, by rw [hfst]; rfl⟩

end Database

open Database

/-! ## The scripts -/

/-- The fields that an acquire sets. -/
def AcquireWords.fields (words : AcquireWords) : List (String × String) :=
  [(lockUntilKey, words.lockUntil), (lockedAtKey, words.lockedAt), (lockedByKey, words.lockedBy)]

/-- **The script of an acquire** on a key that is a hash or missing. -/
theorem acquireScript_eq {db : Database} {key : String} {fields : List (String × String)}
    (h : db.fieldsOf key = .ok fields) (words : AcquireWords) :
    acquireScript key words db =
      .ok (if (find? lockUntilKey fields).any (textBefore words.availableAt) then (db, none)
        else (db.setHash key (putAll words.fields fields), some (putAll words.fields fields))) := by
  obtain ⟨n, hset⟩ := hset_ok h words.fields
  have hget : db.hget key "lockUntil" = .ok (find? lockUntilKey fields) := by
    rw [Database.hget, h]
    rfl
  simp only [acquireScript, hget, bind, Except.bind]
  split
  · rfl
  · have hset' : db.hset key [("lockUntil", words.lockUntil), ("lockedAt", words.lockedAt), ("lockedBy", words.lockedBy)] =
        .ok (db.setHash key (putAll words.fields fields), n) := hset
    simp only [hset', hgetall, fieldsOf_setHash]
    rfl

/-- **The script of a release** likewise. -/
theorem releaseScript_eq {db : Database} {key : String} {fields : List (String × String)}
    (h : db.fieldsOf key = .ok fields) (lockUntil heldUntil : String) :
    releaseScript key lockUntil heldUntil db =
      .ok (if heldUntil ≠ "" ∧ find? lockUntilKey fields ≠ some heldUntil then (db, none)
        else (db.setHash key (put lockUntilKey lockUntil fields), some (put lockUntilKey lockUntil fields))) := by
  obtain ⟨n, hset⟩ := hset_ok h [(lockUntilKey, lockUntil)]
  have hget : db.hget key "lockUntil" = .ok (find? lockUntilKey fields) := by
    rw [Database.hget, h]
    rfl
  simp only [releaseScript, hget, bind, Except.bind]
  split
  · rfl
  · have hset' : db.hset key [("lockUntil", lockUntil)] = .ok (db.setHash key (put lockUntilKey lockUntil fields), n) := hset
    simp only [hset', hgetall, fieldsOf_setHash]
    rfl

/-- Fields that are set under one key leave every other key alone. -/
theorem hset_spares {db db' : Database} {key : String} {pairs : List (String × String)} {n : Nat}
    (h : db.hset key pairs = .ok (db', n)) {other : String} (hne : other ≠ key) :
    find? other db'.entries = find? other db.entries := by
  obtain ⟨fields, hfields, -⟩ := Except.map_ok h
  obtain ⟨m, hset⟩ := hset_ok hfields pairs
  rw [h] at hset
  rw [(Prod.mk.inj (Except.ok.inj hset)).1]
  exact find_setHash_other hne db _

/-- **A script changes no key but its own.** -/
theorem acquireScript_spares {db db' : Database} {key : String} {words : AcquireWords} {answer : ScriptAnswer}
    (h : acquireScript key words db = .ok (db', answer)) {other : String} (hne : other ≠ key) :
    find? other db'.entries = find? other db.entries := by
  obtain ⟨current, -, h⟩ := Except.bind_ok h
  split at h
  · cases h
    rfl
  · obtain ⟨⟨db'', n⟩, hset, h⟩ := Except.bind_ok h
    obtain ⟨fields, -, h⟩ := Except.bind_ok h
    cases h
    exact hset_spares hset hne

theorem releaseScript_spares {db db' : Database} {key lockUntil heldUntil : String} {answer : ScriptAnswer}
    (h : releaseScript key lockUntil heldUntil db = .ok (db', answer)) {other : String} (hne : other ≠ key) :
    find? other db'.entries = find? other db.entries := by
  obtain ⟨current, -, h⟩ := Except.bind_ok h
  split at h
  · cases h
    rfl
  · obtain ⟨⟨db'', n⟩, hset, h⟩ := Except.bind_ok h
    obtain ⟨fields, -, h⟩ := Except.bind_ok h
    cases h
    exact hset_spares hset hne

/-! ## How a hash keeps a record -/

/-- **The record that the fields of a hash stand for.**  A missing key has no fields, and stands for no record. -/
inductive Holds (name : String) : Option LeaseRecord → List (String × String) → Prop where
  | absent : Holds name none []
  | moved {u : Instant} (whole : u.IsWhole) (legible : u.Legible) :
      Holds name (some ⟨.text name, u, none, .null⟩) [(lockUntilKey, u.timestamp)]
  | taken {u at' : Instant} {lockedBy : String} (whole : u.IsWhole) (legible : u.Legible) (whole' : at'.IsWhole)
      (legible' : at'.Legible) :
      Holds name (some ⟨.text name, u, some at', .text lockedBy⟩)
        [(lockUntilKey, u.timestamp), (lockedAtKey, at'.timestamp), (lockedByKey, lockedBy)]

namespace Holds

variable {name : String} {e : Option LeaseRecord} {fields : List (String × String)}

/-- The text of a record's end is the timestamp of that end. -/
theorem find_end (h : Holds name e fields) :
    find? lockUntilKey fields = e.map fun r => r.lockUntil.timestamp := by
  cases h <;> rfl

/-- The end of a record can be compared with other moments by its text. -/
theorem end_legible (h : Holds name e fields) {r : LeaseRecord} (hr : r ∈ e) :
    r.lockUntil.IsWhole ∧ r.lockUntil.Legible := by
  cases h with
  | absent => cases hr
  | moved whole legible =>
    cases hr
    exact ⟨whole, legible⟩
  | taken whole legible whole' legible' =>
    cases hr
    exact ⟨whole, legible⟩

/-- **What the script of an acquire asks of the text is what the contract asks of the moment.** -/
theorem ends_by (h : Holds name e fields) {now : Instant} (hw : now.IsWhole) (hl : now.Legible) :
    (find? lockUntilKey fields).any (textBefore now.timestamp) = true ↔ ¬StoreCall.EndsBy e now := by
  rw [h.find_end]
  cases e with
  | none =>
    have hends : StoreCall.EndsBy none now := nofun
    simp [hends]
  | some r =>
    obtain ⟨hrw, hrl⟩ := h.end_legible rfl
    have hlt := Instant.timestamp_lt_iff hw hrw hl hrl
    have hends : StoreCall.EndsBy (some r) now ↔ r.lockUntil.micros ≤ now.micros := by simp [StoreCall.EndsBy]
    simp only [Option.map_some, Option.any_some, textBefore, decide_eq_true_eq, hlt, hends]
    omega

/-- The text of a condition; the empty text stands for none. -/
def heldText : Option Instant → String
  | some i => i.timestamp
  | none => ""

/-- **The script of a release** likewise: no two whole milliseconds share a text, and none has the empty one. -/
theorem ends_at (h : Holds name e fields) {held : Option Instant} (hheld : ∀ i ∈ held, i.IsWhole ∧ i.Legible) :
    (heldText held ≠ "" ∧ find? lockUntilKey fields ≠ some (heldText held)) ↔ ¬StoreCall.EndsAt e held := by
  cases held with
  | none =>
    have hends : StoreCall.EndsAt e none := nofun
    simp [heldText, hends]
  | some i =>
    obtain ⟨hw, hl⟩ := hheld i rfl
    rw [h.find_end]
    cases e with
    | none => simp [heldText, StoreCall.EndsAt, i.timestamp_ne_empty]
    | some r =>
      obtain ⟨hrw, hrl⟩ := h.end_legible rfl
      have hinj := Instant.timestamp_inj hrw hw hrl hl
      simp [heldText, StoreCall.EndsAt, i.timestamp_ne_empty, hinj]

/-- **After an acquire** the hash holds the record of the acquire, whatever it held before. -/
theorem acquired (h : Holds name e fields) {u at' : Instant} (hu : u.IsWhole) (hul : u.Legible) (ha : at'.IsWhole)
    (hal : at'.Legible) (lockedBy : String) :
    Holds name (some ⟨.text name, u, some at', .text lockedBy⟩)
      (putAll [(lockUntilKey, u.timestamp), (lockedAtKey, at'.timestamp), (lockedByKey, lockedBy)] fields) := by
  cases h with
  | absent => exact .taken hu hul ha hal
  | moved => exact .taken hu hul ha hal
  | taken => exact .taken hu hul ha hal

/-- **After a release** it holds the record that was moved: only the end is another one. -/
theorem released (h : Holds name e fields) {u : Instant} (hu : u.IsWhole) (hul : u.Legible) :
    Holds name (some (StoreCall.moved name e u)) (put lockUntilKey u.timestamp fields) := by
  cases h with
  | absent => exact .moved hu hul
  | moved => exact .moved hu hul
  | taken _ _ whole' legible' => exact .taken hu hul whole' legible'

/-- **The fields read back as the record**, -/
theorem toRecord {r : LeaseRecord} (h : Holds name (some r) fields) : RedisStore.toRecord (.text name) fields = .ok r := by
  cases h with
  | @moved u whole legible =>
    exact LeaseRecord.ofFields_ok rfl rfl (LeaseRecord.readTime_legible whole legible) rfl
  | @taken u at' lockedBy whole legible whole' legible' =>
    have hat : LeaseRecord.readOptionalTime lockedAtKey [(lockUntilKey, .text u.timestamp),
        (lockedAtKey, .text at'.timestamp), (lockedByKey, .text lockedBy), (nameKey, .text name)] = .ok (some at') :=
      Http.LeaseNode.readOptionalTime_legible rfl whole' legible'
    exact LeaseRecord.ofFields_ok rfl rfl (LeaseRecord.readTime_legible whole legible) hat

/-- ... and no fields as no record. -/
theorem recordOf (h : Holds name e fields) : RedisStore.recordOf (.text name) fields = .ok e := by
  cases e with
  | none =>
    cases h
    rfl
  | some r =>
    have hany : fields.any (·.1 == lockUntilKey) = true := by cases h <;> rfl
    rw [RedisStore.recordOf, if_pos hany, h.toRecord]
    rfl

end Holds

/-! ## The store -/

namespace RedisStore

/-- A call leaves the prefix, and a database that it changes is one that its work made. -/
theorem call_cases {α ω : Type} (s : RedisStore) (words : Except ServerFault ω)
    (work : ω → Database → Except ServerFault (Database × α)) :
    (s.call words work).1.keyPrefix = s.keyPrefix ∧ ((s.call words work).1.database = s.database ∨
      ∃ sent a, work sent s.database = .ok ((s.call words work).1.database, a)) := by
  simp only [call]
  split
  · exact ⟨rfl, Or.inl rfl⟩
  · exact ⟨rfl, Or.inl rfl⟩
  · exact ⟨rfl, Or.inl rfl⟩
  · split
    · rename_i hwork
      exact ⟨rfl, Or.inr ⟨_, _, hwork⟩⟩
    · exact ⟨rfl, Or.inl rfl⟩

/-- **A call to a server that is up** does its work. -/
theorem call_up {α ω : Type} {s : RedisStore} (hup : s.database.outage = none) {sent : ω}
    {work : ω → Database → Except ServerFault (Database × α)} {db : Database} {a : α}
    (hwork : work sent s.database = .ok (db, a)) :
    s.call (.ok sent) work = ({ s with database := db, isConnected := true }, .ok a) := by
  simp only [call, hup, hwork]

/-- A conditional write likewise. -/
theorem write_up {ω : Type} {w : World RedisStore} (hup : w.store.database.outage = none) {sent : ω}
    {work : ω → Database → Except ServerFault (Database × ScriptAnswer)} {db : Database} {answer : ScriptAnswer}
    (hwork : work sent w.store.database = .ok (db, answer)) (activity : String) (name : Value) :
    write activity name (.ok sent) work w =
      ({ w with store := { w.store with database := db, isConnected := true } }, .ofExcept (settle name answer)) := by
  simp only [write, call_up hup hwork]

/-- **The entry of a name** in a database that can be reached: the hash under its key. -/
structure Shows (s : RedisStore) (name : String) (e : Option LeaseRecord) : Prop where
  up : s.database.outage = none
  entry : ∃ fields, s.database.fieldsOf (s.keyPrefix ++ name) = .ok fields ∧ Holds name e fields

/-- Keys under one prefix differ as their names do. -/
theorem key_ne {name other : String} (h : other ≠ name) (p : String) : p ++ other ≠ p ++ name := by
  intro heq
  have hchars := congrArg String.toList heq
  rw [String.toList_append, String.toList_append] at hchars
  exact h (String.toList_inj.mp (List.append_cancel_left hchars))

/-- What a conditional write does to the store is what its call does. -/
theorem write_store {ω : Type} (activity : String) (name : Value) (words : Except ServerFault ω)
    (work : ω → Database → Except ServerFault (Database × ScriptAnswer)) (w : World RedisStore) :
    (write activity name words work w).1.store = (w.store.call words work).1 := by
  simp only [write]
  split
  · rename_i hcall
    rw [hcall]
  · rename_i hcall
    rw [hcall]
    rfl

/-- A look likewise. -/
theorem read_store (name : Value) (w : World RedisStore) : (read name w).1.store =
    (w.store.call (.ok ()) fun _ db => (db.hgetall (w.store.key name)).map (db, ·)).1 := by
  simp only [read]
  split
  · rename_i hcall
    rw [hcall]
  · rename_i hcall
    rw [hcall]

/-- A call whose work changes no other key changes no other key. -/
theorem call_spares {α ω : Type} {s : RedisStore} {words : Except ServerFault ω} {key : String}
    {work : ω → Database → Except ServerFault (Database × α)}
    (hwork : ∀ {sent db a other}, work sent s.database = .ok (db, a) → other ≠ key →
      find? other db.entries = find? other s.database.entries) :
    (s.call words work).1.keyPrefix = s.keyPrefix ∧
      ∀ other ≠ key, find? other (s.call words work).1.database.entries = find? other s.database.entries := by
  obtain ⟨hkeyed, hdb | ⟨sent, a, hsent⟩⟩ := s.call_cases words work
  · exact ⟨hkeyed, fun other _ => by rw [hdb]⟩
  · exact ⟨hkeyed, fun other hne => hwork hsent hne⟩

/-- **A call changes no key but that of its own name**, whatever the database holds and whether or not it is up. -/
theorem serve_spares (w : World RedisStore) (c : StoreCall DateTime) :
    (store.serve w c).1.store.keyPrefix = w.store.keyPrefix ∧
      ∀ other ≠ w.store.keyPrefix ++ c.name,
        find? other (store.serve w c).1.store.database.entries = find? other w.store.database.entries := by
  cases c with
  | acquire name lockUntil lockedAt lockedBy availableAt =>
    show (acquire _ w).1.store.keyPrefix = _ ∧ ∀ other ≠ _, find? other (acquire _ w).1.store.database.entries = _
    rw [acquire]
    split
    · exact ⟨rfl, fun _ _ => rfl⟩
    · rw [write_store]
      exact call_spares fun hwork hne => acquireScript_spares hwork hne
  | release name lockUntil heldUntil =>
    show (release _ w).1.store.keyPrefix = _ ∧ ∀ other ≠ _, find? other (release _ w).1.store.database.entries = _
    rw [release]
    split
    · exact ⟨rfl, fun _ _ => rfl⟩
    · rw [write_store]
      exact call_spares fun hwork hne => releaseScript_spares hwork hne
  | look name =>
    show (read (.text name) w).1.store.keyPrefix = _ ∧ ∀ other ≠ _, find? other (read (.text name) w).1.store.database.entries = _
    rw [read_store]
    refine call_spares fun hwork _ => ?_
    obtain ⟨fields, -, hdb⟩ := Except.map_ok hwork
    rw [← (Prod.mk.inj hdb).1]

/-- No sequence of calls changes the prefix. -/
theorem after_keyPrefix (w : World RedisStore) (calls : List (StoreCall DateTime)) :
    (store.after w calls).store.keyPrefix = w.store.keyPrefix := by
  induction calls generalizing w with
  | nil => rfl
  | cons c calls ih => exact (ih _).trans (serve_spares w c).1

/-! ## The contract -/

/-- The scripts ask when to refuse, the contract when to write. -/
theorem ite_of_iff_not {α : Type} {p q : Prop} [Decidable p] [Decidable q] (h : p ↔ ¬q) (x y : α) :
    (if p then x else y) = if q then y else x := by
  by_cases hq : q
  · rw [if_pos hq, if_neg fun hp => h.mp hp hq]
  · rw [if_neg hq, if_pos (h.mpr hq)]

/-- A conditional write that leaves the hash of a record, or changes nothing, does what the contract tells. -/
theorem write_shows {ω : Type} {w : World RedisStore} {name : String} {e : Option LeaseRecord} {r : LeaseRecord}
    {condition : Prop} [Decidable condition] {fields : List (String × String)} {sent : ω}
    {work : ω → Database → Except ServerFault (Database × ScriptAnswer)} (h : Shows w.store name e)
    (hnew : Holds name (some r) fields)
    (hwork : work sent w.store.database = .ok (if condition then
      (w.store.database.setHash (w.store.keyPrefix ++ name) fields, some fields) else (w.store.database, none)))
    (activity : String) :
    Shows (write activity (.text name) (.ok sent) work w).1.store name (StoreCall.stepIf condition name e r).1 ∧
      (write activity (.text name) (.ok sent) work w).2.map some = (StoreCall.stepIf condition name e r).2 := by
  rw [StoreCall.stepIf]
  by_cases hc : condition
  · rw [if_pos hc] at hwork
    rw [if_pos hc, write_up h.up hwork]
    refine ⟨⟨h.up, fields, fieldsOf_setHash _ _ _, hnew⟩, ?_⟩
    rw [settle, hnew.toRecord]
    rfl
  · rw [if_neg hc] at hwork
    rw [if_neg hc, write_up h.up hwork]
    exact ⟨⟨h.up, h.entry⟩, rfl⟩

/-- **The write of an acquire**, for a name whose entry is known. -/
theorem acquire_shows {w : World RedisStore} {name : String} {e : Option LeaseRecord} (h : Shows w.store name e)
    {t s a : DateTime} {u at' now : Instant} (ht : t.CutsTo u) (hs : s.CutsTo at') (ha : a.CutsTo now)
    (lockedBy : String) :
    Shows (acquire ⟨.text name, .time t, .time s, .text lockedBy, .time a⟩ w).1.store name
        (StoreCall.step e (.acquire name u at' lockedBy now)).1 ∧
      (acquire ⟨.text name, .time t, .time s, .text lockedBy, .time a⟩ w).2.map some =
        (StoreCall.step e (.acquire name u at' lockedBy now)).2 := by
  obtain ⟨fields, hfields, hholds⟩ := h.entry
  have htimes : acquireTimes ⟨.text name, .time t, .time s, .text lockedBy, .time a⟩ =
      .ok (u.timestamp, at'.timestamp, now.timestamp) := by
    simp only [acquireTimes, ht.timestamp_time, hs.timestamp_time, ha.timestamp_time]
    rfl
  have hscript := acquireScript_eq hfields ⟨u.timestamp, at'.timestamp, lockedBy, now.timestamp⟩
  rw [ite_of_iff_not (hholds.ends_by ha.isWhole ha.legible)] at hscript
  simp only [acquire, htimes]
  exact write_shows h (hholds.acquired ht.isWhole ht.legible hs.isWhole hs.legible lockedBy) hscript "acquiring"

/-- The text of a condition is written as the store writes it. -/
theorem releaseTimes_cut {name : String} {t : DateTime} {u : Instant} (ht : t.CutsTo u) {c : Option DateTime}
    {held : Option Instant} (hc : StoreCall.CutsHeld c held) :
    releaseTimes ⟨.text name, .time t, LeaseStore.held c⟩ = .ok (Holds.heldText held, u.timestamp) := by
  cases hc with
  | none =>
    simp only [releaseTimes, ht.timestamp_time]
    rfl
  | some hcut =>
    simp only [releaseTimes, LeaseStore.held, ht.timestamp_time, hcut.timestamp_time]
    rfl

/-- **The write of a release** likewise. -/
theorem release_shows {w : World RedisStore} {name : String} {e : Option LeaseRecord} (h : Shows w.store name e)
    {t : DateTime} {u : Instant} (ht : t.CutsTo u) {c : Option DateTime} {held : Option Instant}
    (hc : StoreCall.CutsHeld c held) :
    Shows (release ⟨.text name, .time t, LeaseStore.held c⟩ w).1.store name
        (StoreCall.step e (.release name u held)).1 ∧
      (release ⟨.text name, .time t, LeaseStore.held c⟩ w).2.map some = (StoreCall.step e (.release name u held)).2 := by
  obtain ⟨fields, hfields, hholds⟩ := h.entry
  have hheld : ∀ i ∈ held, i.IsWhole ∧ i.Legible := by
    intro i hi
    cases hc with
    | none => cases hi
    | some hcut =>
      cases hi
      exact ⟨hcut.isWhole, hcut.legible⟩
  have hscript := releaseScript_eq hfields u.timestamp (Holds.heldText held)
  rw [ite_of_iff_not (hholds.ends_at hheld)] at hscript
  simp only [release, releaseTimes_cut ht hc]
  refine write_shows h (hholds.released ht.isWhole ht.legible) ?_ "releasing"
  exact hscript

/-- **A look** likewise. -/
theorem read_shows {w : World RedisStore} {name : String} {e : Option LeaseRecord} (h : Shows w.store name e) :
    Shows (read (.text name) w).1.store name e ∧ (read (.text name) w).2 = .answered e := by
  obtain ⟨fields, hfields, hholds⟩ := h.entry
  have hwork : (w.store.database.hgetall (w.store.key (.text name))).map (w.store.database, ·) =
      .ok (w.store.database, fields) := by
    have hkey : w.store.database.hgetall (w.store.key (.text name)) = .ok fields := hfields
    rw [hkey]
    rfl
  have hcall : w.store.call (.ok ()) (fun _ db => (db.hgetall (w.store.key (.text name))).map (db, ·)) =
      ({ w.store with database := w.store.database, isConnected := true }, .ok fields) := call_up h.up hwork
  simp only [read, hcall, hholds.recordOf]
  exact ⟨⟨h.up, fields, hfields, hholds⟩, rfl⟩

/-- What a call does to the entry of its name. -/
theorem serve_shows {w : World RedisStore} {c : StoreCall DateTime} {d : StoreCall Instant} {e : Option LeaseRecord}
    (hcut : c.CutsTo d) (h : Shows w.store c.name e) :
    Shows (store.serve w c).1.store c.name (d.step e).1 ∧ (store.serve w c).2 = (d.step e).2 := by
  cases hcut with
  | acquire ht hs ha => exact acquire_shows h ht hs ha _
  | release ht hh => exact release_shows h ht hh
  | look => exact read_shows h

/-- **The store on Redis keeps to the contract.** -/
theorem follows : store.Follows Shows where
  own := serve_shows
  other := by
    intro w c d e e' name hcut h hne h'
    obtain ⟨hkeyed, hspares⟩ := serve_spares w c
    obtain ⟨fields, hfields, hholds⟩ := h'.entry
    refine ⟨(serve_shows hcut h).1.up, fields, ?_, hholds⟩
    rw [hkeyed, fieldsOf_congr (hspares _ (key_ne hne _))]
    exact hfields

/-! ## Two stores, one history -/

/-- No key of the database starts with the prefix. -/
def IsClear (s : RedisStore) : Prop := ∀ name, find? (s.keyPrefix ++ name) s.database.entries = none

/-- An empty store in memory and a database without a key under the prefix hold the same records: none. -/
theorem alike_empty {s : RedisStore} (hup : s.database.outage = none) (hclear : s.IsClear) :
    LeaseStore.Alike Shows Memory.Shows s .empty := by
  intro name
  refine ⟨none, ⟨hup, [], ?_, .absent⟩, ⟨rfl, rfl, nofun⟩⟩
  rw [fieldsOf, hclear name]

/-- **The store on Redis cannot be told from the store in memory.**  Both start without a record: the database is up and
holds no key under the prefix, whatever else it holds, and the store in memory is empty.  Then, after any calls, the next
call has the same outcome with both: a record, or none, or the refusal that names the call's own lock.  And it changes
no key of the database but the one of that name. -/
theorem refines_memory (w : World RedisStore) (hup : w.store.database.outage = none) (hclear : w.store.IsClear)
    (ledger : Ledger) (calls : List (StoreCall DateTime)) (hcalls : ∀ c ∈ calls, c.Legible) (call : StoreCall DateTime)
    (hcall : call.Legible) :
    let before := (store.after w calls)
    let here := store.serve before call
    let there := Memory.store.serve (Memory.store.after ⟨.empty, ledger⟩ calls) call
    here.2 = there.2 ∧
      ((∃ e, here.2 = .answered e) ∨ here.2 = .failed (.conditionNotMet (.text call.name) .store)) ∧
      ∀ key ≠ w.store.keyPrefix ++ call.name,
        find? key here.1.store.database.entries = find? key before.store.database.entries := by
  intro before here there
  have halike : LeaseStore.Alike Shows Memory.Shows before.store (Memory.store.after ⟨.empty, ledger⟩ calls).store :=
    follows.agree Memory.follows (alike_empty hup hclear) calls hcalls
  obtain ⟨-, d, e, hname, hhere, hthere⟩ := follows.step Memory.follows halike hcall
  have hkeyed : before.store.keyPrefix = w.store.keyPrefix := after_keyPrefix w calls
  refine ⟨hhere.trans hthere.symm, ?_, ?_⟩
  · have houtcome := StoreCall.step_outcome e d
    rw [← hhere, hname] at houtcome
    exact houtcome
  · rw [← hkeyed]
    exact (serve_spares before call).2

/-- A store beside a list of jobs, which is none of its keys. -/
def besideJobs : World RedisStore := ⟨⟨⟨[("jobs", .list ["nightly"])], none⟩, "lease:", false⟩, .empty⟩

theorem besideJobs_isClear : besideJobs.store.IsClear := by
  intro name
  have hne : ("jobs" == "lease:" ++ name) = false := by
    refine beq_false_of_ne fun h => ?_
    have hhead := congrArg (fun s => s.toList.head?) h
    simp at hhead
  simp [besideJobs, find?, hne]

/-- A lease is asked for until 0.9 milliseconds past midnight, by a clock half an hour ahead of UTC.  Its end is cut to
midnight, so the next call, 0.5 milliseconds past midnight by a clock of UTC, does not find the lock taken. -/
theorem refines_memory_clocks :
    let ends : DateTime := ⟨⟨63839664000000500, by decide⟩, some 0⟩
    let ahead (micros : Nat) (h : micros < calendarMicros) : DateTime := ⟨⟨micros, h⟩, some 1800000000⟩
    let taken : StoreCall DateTime :=
      .acquire "nightly" (ahead 63839665800000900 (by decide)) (ahead 63839665000000000 (by decide)) "east"
        (ahead 63839665000000000 (by decide))
    let next : StoreCall DateTime := .acquire "nightly" ends ends "west" ends
    besideJobs.store.database.outage = none ∧ besideJobs.store.IsClear ∧ taken.Legible ∧ next.Legible ∧
      (store.serve (store.after besideJobs [taken]) next).2 =
        (Memory.store.serve (Memory.store.after ⟨.empty, .empty⟩ [taken]) next).2 := by
  intro ends ahead taken next
  have htaken : taken.Legible := by decide
  have hnext : next.Legible := by decide
  refine ⟨rfl, besideJobs_isClear, htaken, hnext, ?_⟩
  exact (refines_memory besideJobs rfl besideJobs_isClear .empty [taken] (by simpa using htaken) next hnext).1

end RedisStore
end Leasehold.Redis
