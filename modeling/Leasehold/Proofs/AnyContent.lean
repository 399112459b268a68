/-
  An acquire over Redis, whatever stands under the key.

  The key of a lock may be missing, it may hold a list, a set or a text, or a hash that somebody else filled: with an end
  that is no time, without an end, with remarks that cannot be read, with fields that no lock knows.  The script of an
  acquire asks one thing of the hash, its end as a text, and sets three fields before it answers.

  1. **`FreeAt`** — the content under which a lock is free.  It is told by BYTES, which is how the server compares texts;
     the model compares characters, and beside a timestamp the two orders are one (`textBefore_timestamp`).
  2. **`Acquired`** — the three fields as requested, every other field as it was.
  3. **`acquireScript_free`, `acquireScript_taken`** — the script in the two cases, and `acquireScript_foreign` on a key that
     is no hash.
  4. **`toRecord_acquired`** — the answer is read back as the record that was asked for: the fields that a record is made
     of are just the ones that were set, so nothing that stood there before is ever read.
  5. **`tryAcquire_any`** — so the lock never fails, and gives out a lease exactly if the content is free.
-/
import Leasehold.Proofs.Standing
import Leasehold.Proofs.TimestampWidth
import Leasehold.Proofs.Twins
namespace Leasehold.Redis

open Database

/-! ## When content is free -/

/-- One text before another, byte by byte. -/
def BytesBefore (s t : String) : Prop := Text.Utf8.encode s.toList < Text.Utf8.encode t.toList

instance (s t : String) : Decidable (BytesBefore s t) :=
  inferInstanceAs (Decidable (Text.Utf8.encode s.toList < Text.Utf8.encode t.toList))

/-- **The scripts compare timestamps with any text as bytes.** -/
theorem textBefore_timestamp (i : Instant) (text : String) :
    textBefore i.timestamp text = true ↔ BytesBefore i.timestamp text := by
  rw [textBefore, decide_eq_true_eq, BytesBefore, i.encode_timestamp_lt_iff text]
  rfl

/-- **Content under which a lock is free at a time**: there is none, or it is a hash whose end, if it has one, is not
greater. -/
def FreeAt (now : String) : Option Datum → Prop
  | none => True
  | some (.hash fields) => ∀ ending ∈ find? lockUntilKey fields, ¬BytesBefore now ending
  | some _ => False

instance (now : String) (content : Option Datum) : Decidable (FreeAt now content) :=
  match content with
  | none => isTrue trivial
  | some (.hash fields) => inferInstanceAs (Decidable (∀ ending ∈ find? lockUntilKey fields, ¬BytesBefore now ending))
  | some (.text _) => isFalse id
  | some (.list _) => isFalse id
  | some (.set _) => isFalse id

/-- Content as a server keeps it: no field of a hash is there twice. -/
def Distinct : Option Datum → Prop
  | some (.hash fields) => (fields.map (·.1)).Nodup
  | _ => True

theorem distinct_fields {db : Database} {key : String} {fields : Fields} (h : db.fieldsOf key = .ok fields)
    (hd : Distinct (find? key db.entries)) : (fields.map (·.1)).Nodup := by
  simp only [fieldsOf] at h
  split at h
  · cases h
    exact List.nodup_nil
  · rename_i hhash
    cases h
    rwa [hhash] at hd
  · cases h

/-- Content is free if it is fields whose end is not greater, and no other content is. -/
theorem freeAt_fields {db : Database} {key : String} {fields : Fields} (h : db.fieldsOf key = .ok fields) (i : Instant) :
    FreeAt i.timestamp (find? key db.entries) ↔
      (find? lockUntilKey fields).any (textBefore i.timestamp) = false := by
  have hany : ((find? lockUntilKey fields).any (textBefore i.timestamp) = false) ↔
      ∀ ending ∈ find? lockUntilKey fields, ¬BytesBefore i.timestamp ending := by
    cases find? lockUntilKey fields with
    | none => simp
    | some ending => simp [← textBefore_timestamp]
  rw [hany]
  simp only [fieldsOf] at h
  split at h
  · rename_i hmissing
    cases h
    rw [hmissing]
    exact iff_of_true trivial fun _ hmem => absurd hmem (Option.not_mem_none _)
  · rename_i hhash
    cases h
    rw [hhash, FreeAt]
  · cases h

theorem not_freeAt_foreign {db : Database} {key : String} {fault : ServerFault} (h : db.fieldsOf key = .error fault)
    (now : String) : fault = .wrongType ∧ ¬FreeAt now (find? key db.entries) := by
  simp only [fieldsOf] at h
  split at h
  · cases h
  · cases h
  · rename_i other hno hforeign
    cases h
    rw [hforeign]
    refine ⟨rfl, ?_⟩
    cases other with
    | hash fields => exact absurd rfl (hno fields)
    | text s => exact id
    | list items => exact id
    | set members => exact id

/-! ## The fields afterwards -/

/-- **The fields after an acquire**: three as requested, and the others as they were. -/
structure Acquired (words : AcquireWords) (fields fields' : Fields) : Prop where
  distinct : (fields'.map (·.1)).Nodup
  lockUntil : find? lockUntilKey fields' = some words.lockUntil
  lockedAt : find? lockedAtKey fields' = some words.lockedAt
  lockedBy : find? lockedByKey fields' = some words.lockedBy
  others : ∀ field, field ∉ [lockUntilKey, lockedAtKey, lockedByKey] → find? field fields' = find? field fields

theorem acquired_putAll {fields : Fields} (h : (fields.map (·.1)).Nodup) (words : AcquireWords) :
    Acquired words fields (putAll words.fields fields) := by
  have hend : lockUntilKey ≠ lockedAtKey ∧ lockUntilKey ≠ lockedByKey := by decide
  have hat : lockedAtKey ≠ lockedByKey := by decide
  simp only [putAll, AcquireWords.fields, List.foldl_cons, List.foldl_nil]
  refine ⟨nodup_put (nodup_put (nodup_put h)), ?_, ?_, ?_, ?_⟩
  · rw [find_put_other hend.2, find_put_other hend.1, find_put_self]
  · rw [find_put_other hat, find_put_self]
  · rw [find_put_self]
  · intro field hfield
    simp only [List.mem_cons, List.not_mem_nil, or_false, not_or] at hfield
    obtain ⟨huntil, hat, hby⟩ := hfield
    rw [find_put_other hby, find_put_other hat, find_put_other huntil]

/-! ## The script -/

section

variable {db : Database} {key : String} {fields : Fields}

theorem acquireScript_free (h : db.fieldsOf key = .ok fields) (words : AcquireWords)
    (hfree : (find? lockUntilKey fields).any (textBefore words.availableAt) = false) :
    acquireScript key words db =
      .ok (db.setHash key (putAll words.fields fields), some (putAll words.fields fields)) := by
  rw [acquireScript_eq h, if_neg (by rw [hfree]; exact Bool.false_ne_true)]

theorem acquireScript_taken (h : db.fieldsOf key = .ok fields) (words : AcquireWords)
    (htaken : (find? lockUntilKey fields).any (textBefore words.availableAt) = true) :
    acquireScript key words db = .ok (db, none) := by
  rw [acquireScript_eq h, if_pos htaken]

end

/-! ## The answer, read back -/

/-- What the claim of an acquire sends. -/
def wordsOf (c : Claim) (who : String) : AcquireWords :=
  ⟨c.atMost.timestamp, c.takenAt.timestamp, who, c.takenAt.timestamp⟩

/-- **The answer is read as the record that was asked for.** -/
theorem toRecord_acquired {c : Claim} (hc : c.IsWhole) (hmost : c.atMost.Legible) (htaken : c.takenAt.Legible)
    {who : String} {fields fields' : Fields} (h : Acquired (wordsOf c who) fields fields') :
    RedisStore.toRecord (.text c.name) fields' = .ok (c.record (.text who)) := by
  have huntil : readEnd (some c.atMost.timestamp) = .ok c.atMost := by
    rw [readEnd, LeaseRecord.readTime_legible hc.atMost hmost]
  have hat : readRemark (some c.takenAt.timestamp) = .ok (some c.takenAt) := by
    rw [readRemark, if_neg c.takenAt.timestamp_ne_empty, LeaseRecord.readTime_legible hc.takenAt htaken]
    rfl
  have hends : find? lockUntilKey fields' = some c.atMost.timestamp := h.lockUntil
  have htime : find? lockedAtKey fields' = some c.takenAt.timestamp := h.lockedAt
  have hby : find? lockedByKey fields' = some who := h.lockedBy
  rw [toRecord_eq _ h.distinct, hends, htime, hby, huntil, hat]
  rfl

/-! ## The call and the verdict -/

namespace RedisStore

variable {w : World RedisStore} {c : Claim} {identity : Value} {who : String}

/-- The call of an acquire sends the words of its claim. -/
theorem tryUpdate_claim (hc : c.IsWhole) (hwho : Database.argument identity = .ok who) :
    store.tryUpdate (c.request identity) w = write "acquiring" (.text c.name) (.ok (wordsOf c who))
      (acquireScript (w.store.keyPrefix ++ c.name)) w := by
  have htimes : acquireTimes (c.request identity) =
      .ok (c.atMost.timestamp, c.takenAt.timestamp, c.takenAt.timestamp) := by
    simp only [acquireTimes, Claim.request, GivenTime.timestamp_whole hc.atMost, GivenTime.timestamp_whole hc.takenAt]
    rfl
  have hby : Database.argument (c.request identity).lockedBy = .ok who := hwho
  show acquire (c.request identity) w = _
  simp only [acquire, htimes, hby]
  rfl

/-- **The call on free content** is answered with the record of the claim, -/
theorem tryUpdate_free (hup : w.store.database.outage = none) (hc : c.IsWhole) (hmost : c.atMost.Legible)
    (htaken : c.takenAt.Legible) (hwho : Database.argument identity = .ok who) {fields : Fields}
    (hfields : w.store.database.fieldsOf (w.store.keyPrefix ++ c.name) = .ok fields)
    (hdistinct : (fields.map (·.1)).Nodup)
    (hfree : (find? lockUntilKey fields).any (textBefore c.takenAt.timestamp) = false) :
    (store.tryUpdate (c.request identity) w).1.store.database =
        w.store.database.setHash (w.store.keyPrefix ++ c.name) (putAll (wordsOf c who).fields fields) ∧
      (store.tryUpdate (c.request identity) w).2 = .answered (c.record (.text who)) := by
  have hscript := acquireScript_free hfields (wordsOf c who) hfree
  rw [tryUpdate_claim hc hwho, write_up hup hscript, settle,
    toRecord_acquired hc hmost htaken (acquired_putAll hdistinct (wordsOf c who))]
  exact ⟨rfl, rfl⟩

/-- on content that is not free it is refused, -/
theorem tryUpdate_taken (hup : w.store.database.outage = none) (hc : c.IsWhole)
    (hwho : Database.argument identity = .ok who) {fields : Fields}
    (hfields : w.store.database.fieldsOf (w.store.keyPrefix ++ c.name) = .ok fields)
    (hended : (find? lockUntilKey fields).any (textBefore c.takenAt.timestamp) = true) :
    (store.tryUpdate (c.request identity) w).1.store.database = w.store.database ∧
      (store.tryUpdate (c.request identity) w).2 = .failed (.conditionNotMet (.text c.name) .store) := by
  have hscript := acquireScript_taken hfields (wordsOf c who) hended
  rw [tryUpdate_claim hc hwho, write_up hup hscript]
  exact ⟨rfl, rfl⟩

/-- and on a key that is no hash it fails. -/
theorem tryUpdate_foreign (hup : w.store.database.outage = none) (hc : c.IsWhole)
    (hwho : Database.argument identity = .ok who) {fault : ServerFault}
    (hforeign : w.store.database.fieldsOf (w.store.keyPrefix ++ c.name) = .error fault) :
    (store.tryUpdate (c.request identity) w).1.store.database = w.store.database ∧
      (store.tryUpdate (c.request identity) w).2 = .failed (failure fault) := by
  have hcall : w.store.call (.ok (wordsOf c who)) (acquireScript (w.store.keyPrefix ++ c.name)) =
      ({ w.store with isConnected := true }, .error fault) := by
    simp only [call, hup, acquireScript_foreign hforeign]
  rw [tryUpdate_claim hc hwho]
  simp only [write, hcall, World.store_note, and_self]

/-- **What an acquire comes to, whatever stands under its key.**  Told apart are a granted acquire, whose answer is the
record of the claim, and one that is not, whose failure a lock takes for "not acquired". -/
theorem tryUpdate_any (hup : w.store.database.outage = none)
    (hdistinct : Distinct (find? (w.store.keyPrefix ++ c.name) w.store.database.entries)) (hc : c.IsWhole)
    (hmost : c.atMost.Legible) (htaken : c.takenAt.Legible) (hwho : Database.argument identity = .ok who) :
    let content := find? (w.store.keyPrefix ++ c.name) w.store.database.entries
    let called := store.tryUpdate (c.request identity) w
    (FreeAt c.takenAt.timestamp content ∧ called.2 = .answered (c.record (.text who)) ∧
      ∃ fields fields', w.store.database.fieldsOf (w.store.keyPrefix ++ c.name) = .ok fields ∧
        Acquired (wordsOf c who) fields fields' ∧
        called.1.store.database = w.store.database.setHash (w.store.keyPrefix ++ c.name) fields') ∨
    (¬FreeAt c.takenAt.timestamp content ∧ called.1.store.database = w.store.database ∧
      (called.2 = .failed (.conditionNotMet (.text c.name) .store) ∨ called.2 = .failed (failure .wrongType))) := by
  intro content called
  cases hfields : w.store.database.fieldsOf (w.store.keyPrefix ++ c.name) with
  | error fault =>
    obtain ⟨rfl, hnot⟩ := not_freeAt_foreign hfields c.takenAt.timestamp
    obtain ⟨hdb, ho⟩ := tryUpdate_foreign hup hc hwho hfields
    exact Or.inr ⟨hnot, hdb, Or.inr ho⟩
  | ok fields =>
    have hiff := freeAt_fields hfields c.takenAt
    cases hends : (find? lockUntilKey fields).any (textBefore c.takenAt.timestamp) with
    | true =>
      obtain ⟨hdb, ho⟩ := tryUpdate_taken hup hc hwho hfields hends
      refine Or.inr ⟨fun hfree => ?_, hdb, Or.inl ho⟩
      rw [hiff, hends] at hfree
      cases hfree
    | false =>
      have hkeys := distinct_fields hfields hdistinct
      obtain ⟨hdb, ho⟩ := tryUpdate_free hup hc hmost htaken hwho hfields hkeys hends
      exact Or.inl ⟨hiff.mpr hends, ho, fields, _, rfl, acquired_putAll hkeys _, hdb⟩

/-- **An acquire over Redis withstands any content.**

The server is up, the fields of a hash have distinct names, and the clock's reading and the ceiling of a valid claim fall
into years of four digits.  Whatever stands under the key of the lock, the acquire raises nothing.  It gives out the
lease of the claim exactly if the content is free when the clock is read (`FreeAt`), and then the hash under the key has
the end, the time and the owner that were asked for and keeps every other field.  Otherwise it gives out none, and the
database is as it was.  No other key changes, and an answer always has the end that was asked for. -/
theorem tryAcquire_any (lock : Lock) (w : World RedisStore) (hup : w.store.database.outage = none) {t : DateTime}
    {name : Value} {atMost atLeast : GivenTime} {c : Claim} (hc : Claim.ofGiven (.time t) name atMost atLeast = .ok c)
    (hdistinct : Distinct (find? (w.store.keyPrefix ++ c.name) w.store.database.entries))
    (htaken : c.takenAt.Legible) (hmost : c.atMost.Legible) {who : String}
    (hwho : Database.argument lock.identity = .ok who) :
    let key := w.store.keyPrefix ++ c.name
    let content := find? key w.store.database.entries
    let after := lock.tryAcquire store c w
    (∃ lease?, after.2.2 = .ok lease? ∧ (lease?.isSome = true ↔ FreeAt c.takenAt.timestamp content)) ∧
      (FreeAt c.takenAt.timestamp content → after.2.2 = .ok (some (.ofClaim c lock.identity)) ∧
        ∃ fields fields', w.store.database.fieldsOf key = .ok fields ∧
          find? key after.1.store.database.entries = some (.hash fields') ∧
          Acquired ⟨c.atMost.timestamp, c.takenAt.timestamp, who, c.takenAt.timestamp⟩ fields fields') ∧
      (¬FreeAt c.takenAt.timestamp content → after.2.2 = .ok none ∧ after.1.store.database = w.store.database) ∧
      (∀ other ≠ key, find? other after.1.store.database.entries = find? other w.store.database.entries) ∧
      ∀ r, (store.tryUpdate (c.request lock.identity) w).2 = .answered r → r.lockUntil = c.atMost := by
  intro key content after
  have hstore : after.1.store = (store.tryUpdate (c.request lock.identity) w).1.store := rfl
  have hresult : after.2.2 = (lock.settleAcquire c (store.tryUpdate (c.request lock.identity) w).2
      (store.tryUpdate (c.request lock.identity) w).1.ledger).2.2 := rfl
  rcases tryUpdate_any hup hdistinct (Claim.ofGiven_whole hc) hmost htaken hwho with
    ⟨hfree, hanswer, fields, fields', hfields, hacquired, hdb⟩ | ⟨hnot, hdb, hfailed⟩
  · have hlease : after.2.2 = .ok (some (.ofClaim c lock.identity)) := by
      rw [hresult, hanswer]
      exact lock.settleAcquire_answered c rfl _
    have hhash : find? key after.1.store.database.entries = some (.hash fields') := by
      rw [hstore, hdb]
      exact find_put_self _ _ _
    refine ⟨⟨_, hlease, by simp [content, key, hfree]⟩, fun _ => ⟨hlease, fields, fields', hfields, hhash, hacquired⟩,
      fun hnot => absurd hfree hnot, ?_, ?_⟩
    · intro other hne
      rw [hstore, hdb]
      exact find_setHash_other hne _ _
    · intro r hr
      rw [hanswer] at hr
      cases hr
      rfl
  · have hnone : after.2.2 = .ok none := by
      rw [hresult]
      rcases hfailed with hunmet | hforeign
      · rw [hunmet]
        rfl
      · rw [hforeign]
        rfl
    have hsame : after.1.store.database = w.store.database := by rw [hstore, hdb]
    refine ⟨⟨none, hnone, by simp [content, key, hnot]⟩, fun hfree => absurd hfree hnot, fun _ => ⟨hnone, hsame⟩, ?_, ?_⟩
    · intro other _
      rw [hsame]
    · intro r hr
      rcases hfailed with hunmet | hforeign
      · rw [hunmet] at hr
        cases hr
      · rw [hforeign] at hr
        cases hr

/-- A hash that somebody typed in: its end is no time, nor is its remark on when it was taken, and it has a field more. -/
def scribble : Fields := [("lockUntil", "(open)"), ("note", "by hand"), ("lockedAt", "yesterday")]

/-- A database with that hash, and with a list where another lock would have its own. -/
def cluttered : World RedisStore :=
  ⟨⟨⟨[("lease:nightly", .hash scribble), ("lease:weekly", .list ["a", "b"])], none⟩, "lease:", true⟩, .empty⟩

/-- A claim of a minute, in the second hour of the usual clock. -/
def minuteOf (name : String) (named : name ≠ "") : Claim :=
  ⟨name, later 3660000, later 3600000, later 3600000, named, by decide, by decide⟩

/-- The first lock is free, since a bracket comes before every digit; its note is kept.  The other one is not. -/
theorem tryAcquire_cluttered :
    let lock : Lock := ⟨.text "node-0", .int 5, .zero⟩
    let nightly := minuteOf "nightly" (by decide)
    let weekly := minuteOf "weekly" (by decide)
    (lock.tryAcquire store nightly cluttered).2.2 = .ok (some (.ofClaim nightly (.text "node-0"))) ∧
      (∃ fields, find? "lease:nightly" (lock.tryAcquire store nightly cluttered).1.store.database.entries =
        some (.hash fields) ∧ find? "lockUntil" fields = some "2024-01-01T01:01:00.000Z" ∧
          find? "note" fields = some "by hand") ∧
      (lock.tryAcquire store weekly cluttered).2.2 = .ok none := by
  intro lock nightly weekly
  have hdistinct : Distinct (some (.hash scribble)) := by
    show ["lockUntil", "note", "lockedAt"].Nodup
    decide
  have hclaim : Claim.ofGiven (.time (.utc (later 3600000))) (.text "nightly") (.moment (later 3660000)) .none =
      .ok nightly := rfl
  have hclaim' : Claim.ofGiven (.time (.utc (later 3600000))) (.text "weekly") (.moment (later 3660000)) .none =
      .ok weekly := rfl
  have hwho : Database.argument lock.identity = .ok "node-0" := rfl
  obtain ⟨-, hfree, -⟩ := tryAcquire_any lock cluttered rfl hclaim hdistinct (by decide) (by decide) hwho
  obtain ⟨-, -, hnot, -⟩ := tryAcquire_any lock cluttered rfl hclaim' trivial (by decide) (by decide) hwho
  have hopen : FreeAt nightly.takenAt.timestamp (some (.hash scribble)) := by decide
  obtain ⟨hlease, fields, fields', hfields, hhash, hacquired⟩ := hfree hopen
  obtain rfl : scribble = fields := Except.ok.inj hfields
  have hends : (later 3660000).timestamp = "2024-01-01T01:01:00.000Z" := by decide
  have hnote : find? "note" fields' = find? "note" scribble := hacquired.others "note" (by decide)
  exact ⟨hlease, ⟨fields', hhash, hacquired.lockUntil.trans (congrArg some hends), hnote⟩, (hnot id).1⟩

end RedisStore
end Leasehold.Redis
