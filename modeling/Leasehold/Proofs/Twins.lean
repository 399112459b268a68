/-
  Databases that differ in remarks.

  Who took a lock, and when, is kept beside the end of its record, for people.  A database in which a remark is missing, or
  is any other text, is a TWIN of the first.

  1. **`Agree`, `Twins`** — hashes, and databases, that agree but for the remarks.  What the remarks on when a lock was
     taken have to do with each other is left open (`P`), and needs to hold of equal ones only;
  2. **`acquireScript_twins`, `releaseScript_twins`** — the scripts look at no remark: they lead from twins to twins.  An
     acquire writes the remarks anew, so all that it answers with is the same; a release answers with the remarks it finds;
  3. **`toRecord_twins`** — and there is the `Crack`.  A record is made of the answer, after the write, and a record needs
     the remark on the time to be a time.  If both can be read, or neither for one reason (`ReadAlike`), the outcomes come
     to the same for a lock (`SameEnd`); a release that finds a remark that cannot be read fails although it is written
     (`illegible_remark_raises`);
  4. **`acquire_twins`, `release_twins`** — so the calls of a lock on two stores over twins come to the same, but for a
     release that meets a crack.
-/
import Mathlib.Data.List.Nodup
import Leasehold.Lock.Acquire
import Leasehold.Lock.Release
import Leasehold.Proofs.RedisContract
namespace Leasehold

/-! ## Outcomes side by side -/

/-- Two computations come to results of the same kind: they fail alike, or their results are related. -/
inductive Except.Like {ε α β : Type} (R : α → β → Prop) : Except ε α → Except ε β → Prop where
  | ok {a : α} {b : β} (h : R a b) : Like R (.ok a) (.ok b)
  | error (e : ε) : Like R (.error e) (.error e)

/-- Two calls come to the same: records with one end, one failure, or no answer. -/
inductive Outcome.SameEnd : Outcome LeaseRecord → Outcome LeaseRecord → Prop where
  | answered {r r' : LeaseRecord} (h : r'.lockUntil = r.lockUntil) : SameEnd (.answered r) (.answered r')
  | failed (e : Error) : SameEnd (.failed e) (.failed e)
  | silent : SameEnd .silent .silent

theorem Outcome.SameEnd.refl (o : Outcome LeaseRecord) : o.SameEnd o := by
  cases o with
  | answered r => exact .answered rfl
  | failed e => exact .failed e
  | silent => exact .silent

theorem Outcome.SameEnd.ofExcept {x x' : Except Error LeaseRecord}
    (h : Except.Like (fun r r' => r'.lockUntil = r.lockUntil) x x') :
    (Outcome.ofExcept x).SameEnd (Outcome.ofExcept x') := by
  cases h with
  | ok h => exact .answered h
  | error e => exact .failed e

namespace Lock

/-- **A lock looks at nothing of a record but its end**: when it acquires, -/
theorem settleAcquire_sameEnd (lock : Lock) (c : Claim) {o o' : Outcome LeaseRecord} (h : o.SameEnd o')
    (ledger : Ledger) : lock.settleAcquire c o' ledger = lock.settleAcquire c o ledger := by
  cases h with
  | @answered r r' h =>
    obtain ⟨name, lockUntil, lockedAt, lockedBy⟩ := r
    obtain ⟨name', lockUntil', lockedAt', lockedBy'⟩ := r'
    cases h
    rfl
  | failed e => rfl
  | silent => rfl

/-- and when it releases. -/
theorem settleRelease_sameEnd (lock : Lock) (l : Lease) (u : Instant) {o o' : Outcome LeaseRecord} (h : o.SameEnd o')
    (ledger : Ledger) : lock.settleRelease l u o' ledger = lock.settleRelease l u o ledger := by
  cases h with
  | answered h => rfl
  | failed e => rfl
  | silent => rfl

end Lock

namespace Redis

open Database

/-! ## Hashes that differ in their remarks -/

/-- The fields of a hash. -/
abbrev Fields := List (String × String)

/-- **Two hashes that agree but for the remarks**, who took the lock and when; `P` holds of the remarks on when. -/
structure Agree (P : Option String → Option String → Prop) (fields fields' : Fields) : Prop where
  distinct : (fields.map (·.1)).Nodup
  distinct' : (fields'.map (·.1)).Nodup
  others : ∀ field, field ≠ lockedAtKey → field ≠ lockedByKey → find? field fields' = find? field fields
  taken : P (find? lockedAtKey fields) (find? lockedAtKey fields')

section

variable {P : Option String → Option String → Prop} {fields fields' : Fields}

theorem find_none_of_not_mem {key : String} (h : key ∉ fields.map (·.1)) : find? key fields = none := by
  induction fields with
  | nil => rfl
  | cons f rest ih =>
    obtain ⟨k, v⟩ := f
    have hne : ¬k = key := by
      rintro rfl
      exact h List.mem_cons_self
    have hrest := ih fun hmem => h (List.mem_cons_of_mem _ hmem)
    simp only [find?] at hrest ⊢
    simp [hne, hrest]

/-- The keys of a hash after a field was set: the same, or one more at the end. -/
theorem keys_put (key v : String) (fields : Fields) :
    (put key v fields).map (·.1) =
      if key ∈ fields.map (·.1) then fields.map (·.1) else fields.map (·.1) ++ [key] := by
  induction fields with
  | nil => simp [put]
  | cons f rest ih =>
    obtain ⟨k, w⟩ := f
    by_cases hk : k = key
    · subst hk
      simp [put]
    · have hk' : ¬key = k := fun h => hk h.symm
      simp only [put, beq_iff_eq, hk, if_false, List.map_cons, ih, List.mem_cons, hk', false_or]
      split <;> rfl

theorem nodup_put {key v : String} (h : (fields.map (·.1)).Nodup) : ((put key v fields).map (·.1)).Nodup := by
  rw [keys_put]
  split
  · exact h
  · rename_i hnew
    rw [List.nodup_append]
    refine ⟨h, List.nodup_singleton key, ?_⟩
    rintro a ha b hb rfl
    exact hnew (List.mem_singleton.mp hb ▸ ha)

/-- **Setting a field leaves them agreeing**, remark or not. -/
theorem Agree.put (h : Agree P fields fields') (hrefl : ∀ x, P x x) (key v : String) :
    Agree P (put key v fields) (put key v fields') where
  distinct := nodup_put h.distinct
  distinct' := nodup_put h.distinct'
  others field hat hby := by
    by_cases hkey : field = key
    · rw [hkey, find_put_self, find_put_self]
    · rw [find_put_other hkey, find_put_other hkey]
      exact h.others field hat hby
  taken := by
    by_cases hkey : lockedAtKey = key
    · rw [hkey, find_put_self, find_put_self]
      exact hrefl _
    · rw [find_put_other hkey, find_put_other hkey]
      exact h.taken

/-- **An acquire writes the remarks anew**: afterwards the remarks on when the lock was taken are the same. -/
theorem Agree.acquired (h : Agree P fields fields') (hrefl : ∀ x, P x x) (words : AcquireWords) :
    Agree P (putAll words.fields fields) (putAll words.fields fields') ∧
      find? lockedAtKey (putAll words.fields fields') = find? lockedAtKey (putAll words.fields fields) := by
  have hput := ((h.put hrefl lockUntilKey words.lockUntil).put hrefl lockedAtKey words.lockedAt).put hrefl lockedByKey
    words.lockedBy
  refine ⟨hput, ?_⟩
  have hne : lockedAtKey ≠ lockedByKey := by decide
  simp only [putAll, AcquireWords.fields, List.foldl_cons, List.foldl_nil, find_put_other hne, find_put_self]

end

/-! ## Records made of hashes -/

/-- The end of a record, by the text of its field. -/
def readEnd : Option String → Except Error Instant
  | some s => LeaseRecord.readTime (.text s)
  | none => .error (.missingKey lockUntilKey)

/-- The time that a remark tells, if it is there and not blank. -/
def readRemark : Option String → Except Error (Option Instant)
  | some s => if s = "" then .ok none else (LeaseRecord.readTime (.text s)).map some
  | none => .ok none

/-- **Two remarks are read alike**: both can be read, whatever they tell, or neither can, for one reason. -/
def ReadAlike (x x' : Option String) : Prop := Except.Like (fun _ _ => True) (readRemark x) (readRemark x')

theorem ReadAlike.refl (x : Option String) : ReadAlike x x := by
  unfold ReadAlike
  cases readRemark x with
  | ok t => exact .ok trivial
  | error e => exact .error e

/-- What the fields of a hash are as values. -/
theorem field_values {fields : Fields} (h : (fields.map (·.1)).Nodup) (key : String) (acc : List (String × Value)) :
    Value.field? key (fields.foldl (fun acc f => Value.putField f.1 (.text f.2) acc) acc) =
      ((find? key fields).map Value.text).or (Value.field? key acc) := by
  induction fields generalizing acc with
  | nil => simp [find?]
  | cons f rest ih =>
    obtain ⟨k, v⟩ := f
    obtain ⟨hnew, hrest⟩ := List.nodup_cons.mp h
    rw [List.foldl_cons, ih hrest]
    by_cases hk : k = key
    · subst hk
      rw [find_none_of_not_mem hnew, Value.field_putField_self]
      simp [find?]
    · have hother : Value.field? key (Value.putField k (.text v) acc) = Value.field? key acc :=
        Value.field_putField_other (fun h => hk h.symm) _ _
      have hfind : find? key ((k, v) :: rest) = find? key rest := by simp [find?, hk]
      rw [hother, hfind]

/-- **The record of a hash** depends on three of its fields only. -/
theorem toRecord_eq (name : Value) {fields : Fields} (h : (fields.map (·.1)).Nodup) :
    RedisStore.toRecord name fields = do
      let lockUntil ← readEnd (find? lockUntilKey fields)
      let lockedAt ← readRemark (find? lockedAtKey fields)
      return { name, lockUntil, lockedAt, lockedBy := ((find? lockedByKey fields).map Value.text).getD .null } := by
  -- the name is put in last, so the other fields are those of the hash
  have hfield : ∀ key, key ≠ nameKey →
      Value.field? key (Value.putField nameKey name (fields.foldl (fun acc f => Value.putField f.1 (.text f.2) acc) [])) =
        (find? key fields).map Value.text := by
    intro key hkey
    have hnone : Value.field? key [] = none := rfl
    rw [Value.field_putField_other hkey, field_values h, hnone, Option.or_none]
  have hname := Value.field_putField_self nameKey name
    (fields.foldl (fun acc f => Value.putField f.1 (.text f.2) acc) [])
  have hends := hfield lockUntilKey (by decide)
  have htaken := hfield lockedAtKey (by decide)
  have hby := hfield lockedByKey (by decide)
  simp only [RedisStore.toRecord, LeaseRecord.ofFields, LeaseRecord.required, LeaseRecord.readOptionalTime, hname, hends,
    htaken, hby]
  cases find? lockUntilKey fields with
  | none => rfl
  | some s =>
    cases find? lockedAtKey fields with
    | none => rfl
    | some t =>
      by_cases ht : t = ""
      · subst ht
        rfl
      · have htruthy : (Value.text t).truthy = true := by simpa [Value.truthy] using ht
        simp only [Option.map_some, htruthy, if_true, readRemark, if_neg ht]
        rfl

/-- **Two records tell the same end** if their remarks are read alike. -/
theorem toRecord_twins {P : Option String → Option String → Prop} {fields fields' : Fields} (h : Agree P fields fields')
    (hread : ReadAlike (find? lockedAtKey fields) (find? lockedAtKey fields')) (name : Value) :
    Except.Like (fun r r' => r'.lockUntil = r.lockUntil) (RedisStore.toRecord name fields)
      (RedisStore.toRecord name fields') := by
  have hends : find? lockUntilKey fields' = find? lockUntilKey fields := h.others _ (by decide) (by decide)
  rw [toRecord_eq name h.distinct, toRecord_eq name h.distinct', hends]
  cases readEnd (find? lockUntilKey fields) with
  | error e => exact .error e
  | ok u =>
    unfold ReadAlike at hread
    generalize readRemark (find? lockedAtKey fields) = x at hread ⊢
    generalize readRemark (find? lockedAtKey fields') = x' at hread ⊢
    cases hread with
    | ok _ => exact .ok rfl
    | error e => exact .error e

/-! ## Databases -/

/-- **Twins**: two databases whose hashes agree but for the remarks, or that fail alike where there is no hash.  A hash
whose only fields are remarks may be missing. -/
structure Database.Twins (P : Option String → Option String → Prop) (db db' : Database) : Prop where
  outage : db'.outage = db.outage
  keys : ∀ key, Except.Like (Agree P) (db.fieldsOf key) (db'.fieldsOf key)

/-- **A crack between twins**: the hash under a key ends where a release believes it does (the empty text stands for no
condition), and its remarks are not read alike. -/
def Crack (db db' : Database) (key heldUntil : String) : Prop :=
  ∃ fields fields', db.fieldsOf key = .ok fields ∧ db'.fieldsOf key = .ok fields' ∧
    ¬(heldUntil ≠ "" ∧ find? lockUntilKey fields ≠ some heldUntil) ∧
    ¬ReadAlike (find? lockedAtKey fields) (find? lockedAtKey fields')

section

variable {P : Option String → Option String → Prop} {db db' : Database}

theorem Database.Twins.setHash (h : db.Twins P db') (key : String) {fields fields' : Fields}
    (hagree : Agree P fields fields') : (db.setHash key fields).Twins P (db'.setHash key fields') where
  outage := h.outage
  keys other := by
    by_cases hkey : other = key
    · rw [hkey, fieldsOf_setHash, fieldsOf_setHash]
      exact .ok hagree
    · rw [fieldsOf_congr (find_setHash_other hkey db fields), fieldsOf_congr (find_setHash_other hkey db' fields')]
      exact h.keys other

/-- Twins show the same end under every key. -/
theorem Database.Twins.ends (h : db.Twins P db') (key : String) :
    db'.hget key lockUntilKey = db.hget key lockUntilKey := by
  have hkey := h.keys key
  rw [hget, hget]
  generalize db.fieldsOf key = x at hkey ⊢
  generalize db'.fieldsOf key = x' at hkey ⊢
  cases hkey with
  | ok hagree => exact congrArg Except.ok (hagree.others _ (by decide) (by decide))
  | error e => rfl

/-- Where all remarks are read alike there is no crack. -/
theorem Database.Twins.no_crack (h : db.Twins ReadAlike db') (key heldUntil : String) : ¬Crack db db' key heldUntil := by
  rintro ⟨fields, fields', hfields, hfields', -, hcrack⟩
  have hkey := h.keys key
  rw [hfields, hfields'] at hkey
  cases hkey with
  | ok hagree => exact hcrack hagree.taken

/-- A script fails on a key that is no hash. -/
theorem acquireScript_foreign {key : String} {fault : ServerFault} (h : db.fieldsOf key = .error fault)
    (words : AcquireWords) : acquireScript key words db = .error fault := by
  simp only [acquireScript, hget, h]
  rfl

theorem releaseScript_foreign {key : String} {fault : ServerFault} (h : db.fieldsOf key = .error fault)
    (lockUntil heldUntil : String) : releaseScript key lockUntil heldUntil db = .error fault := by
  simp only [releaseScript, hget, h]
  rfl

/-- **What a script comes to on twins**: twins again, and answers whose remarks are read alike, unless there is a
crack. -/
structure Answered (P : Option String → Option String → Prop) (crack : Prop) (x x' : Database × ScriptAnswer) : Prop where
  database : x.1.Twins P x'.1
  answer : Option.Rel (fun fields fields' => Agree P fields fields' ∧
    (crack ∨ ReadAlike (find? lockedAtKey fields) (find? lockedAtKey fields'))) x.2 x'.2

/-- **The script of an acquire looks at no remark**, and answers with remarks that are the same. -/
theorem acquireScript_twins (h : db.Twins P db') (hrefl : ∀ x, P x x) (key : String) (words : AcquireWords) :
    Except.Like (Answered P False) (acquireScript key words db) (acquireScript key words db') := by
  have hkey := h.keys key
  generalize hx : db.fieldsOf key = x at hkey
  generalize hx' : db'.fieldsOf key = x' at hkey
  cases hkey with
  | error fault =>
    rw [acquireScript_foreign hx, acquireScript_foreign hx']
    exact .error fault
  | ok hagree =>
    rw [acquireScript_eq hx, acquireScript_eq hx', hagree.others lockUntilKey (by decide) (by decide)]
    split
    · exact .ok ⟨h, .none⟩
    · obtain ⟨hput, hsame⟩ := hagree.acquired hrefl words
      exact .ok ⟨h.setHash key hput, .some ⟨hput, .inr (hsame ▸ .refl _)⟩⟩

/-- **The script of a release looks at no remark**, and answers with the remarks it finds. -/
theorem releaseScript_twins (h : db.Twins P db') (hrefl : ∀ x, P x x) (key lockUntil heldUntil : String) :
    Except.Like (Answered P (Crack db db' key heldUntil)) (releaseScript key lockUntil heldUntil db)
      (releaseScript key lockUntil heldUntil db') := by
  have hkey := h.keys key
  generalize hx : db.fieldsOf key = x at hkey
  generalize hx' : db'.fieldsOf key = x' at hkey
  cases hkey with
  | error fault =>
    rw [releaseScript_foreign hx, releaseScript_foreign hx']
    exact .error fault
  | @ok fields fields' hagree =>
    rw [releaseScript_eq hx, releaseScript_eq hx', hagree.others lockUntilKey (by decide) (by decide)]
    -- a release that is refused answers nothing, so only one that is applied can meet a crack
    split
    · exact .ok ⟨h, .none⟩
    · rename_i hmet
      have hput := hagree.put hrefl lockUntilKey lockUntil
      refine .ok ⟨h.setHash key hput, .some ⟨hput, ?_⟩⟩
      have hne : lockedAtKey ≠ lockUntilKey := by decide
      rw [find_put_other hne, find_put_other hne]
      by_cases hread : ReadAlike (find? lockedAtKey fields) (find? lockedAtKey fields')
      · exact .inr hread
      · exact .inl ⟨fields, fields', hx, hx', hmet, hread⟩

end

/-! ## Calls -/

/-- Two stores over twins. -/
structure RedisStore.Twins (P : Option String → Option String → Prop) (s s' : RedisStore) : Prop where
  database : s.database.Twins P s'.database
  keyPrefix : s'.keyPrefix = s.keyPrefix
  isConnected : s'.isConnected = s.isConnected

namespace RedisStore

variable {P : Option String → Option String → Prop}

/-- **A call on twins** whose work leads to twins leads to twins. -/
theorem call_twins {ω : Type} {crack : Prop} {s s' : RedisStore} (h : s.Twins P s') (words : Except ServerFault ω)
    {work work' : ω → Database → Except ServerFault (Database × ScriptAnswer)}
    (hwork : ∀ sent, Except.Like (Answered P crack) (work sent s.database) (work' sent s'.database)) :
    (s.call words work).1.Twins P (s'.call words work').1 ∧
      Except.Like (fun answer answer' => Option.Rel (fun fields fields' => Agree P fields fields' ∧
        (crack ∨ ReadAlike (find? lockedAtKey fields) (find? lockedAtKey fields'))) answer answer')
        (s.call words work).2 (s'.call words work').2 := by
  have hsame : ∀ b, RedisStore.Twins P { s with isConnected := b } { s' with isConnected := b } :=
    fun b => ⟨h.database, h.keyPrefix, rfl⟩
  simp only [call, h.database.outage, h.isConnected]
  cases words with
  | error fault =>
    split
    · exact ⟨h, .error _⟩
    · exact ⟨hsame true, .error _⟩
    · contradiction
    · contradiction
  | ok sent =>
    split
    · exact ⟨h, .error _⟩
    · contradiction
    · exact ⟨hsame false, .error _⟩
    · rename_i sent' heq
      obtain rfl := Except.ok.inj heq
      have hdone := hwork sent
      generalize work sent s.database = x at hdone
      generalize work' sent s'.database = x' at hdone
      cases hdone with
      | ok hdone => exact ⟨⟨hdone.database, h.keyPrefix, rfl⟩, .ok hdone.answer⟩
      | error fault => exact ⟨hsame true, .error _⟩

/-- Two worlds whose stores are twins, with the same ledger. -/
structure WorldTwins (P : Option String → Option String → Prop) (w w' : World RedisStore) : Prop where
  store : w.store.Twins P w'.store
  ledger : w'.ledger = w.ledger

theorem Twins.key {s s' : RedisStore} (h : s.Twins P s') (name : Value) : s'.key name = s.key name :=
  congrArg (· ++ name.display) h.keyPrefix

/-- **A conditional write on twins**: its outcomes tell the same end, unless there is a crack. -/
theorem write_twins {ω : Type} {w w' : World RedisStore} (h : WorldTwins P w w') (activity : String) (name : Value)
    (words : Except ServerFault ω) {work work' : ω → Database → Except ServerFault (Database × ScriptAnswer)}
    {crack : Prop}
    (hwork : ∀ sent, Except.Like (Answered P crack) (work sent w.store.database) (work' sent w'.store.database)) :
    WorldTwins P (write activity name words work w).1 (write activity name words work' w').1 ∧
      (crack ∨ (write activity name words work w).2.SameEnd (write activity name words work' w').2) := by
  obtain ⟨hstore, hanswer⟩ := call_twins h.store words hwork
  simp only [write]
  generalize w.store.call words work = x at hstore hanswer ⊢
  generalize w'.store.call words work' = x' at hstore hanswer ⊢
  obtain ⟨t, answer⟩ := x
  obtain ⟨t', answer'⟩ := x'
  cases hanswer with
  | error fault => exact ⟨⟨hstore, by simp only [World.note, h.ledger]⟩, .inr (.failed _)⟩
  | ok hrel =>
    refine ⟨⟨hstore, h.ledger⟩, ?_⟩
    cases hrel with
    | none => exact .inr (.failed _)
    | some hfields =>
      obtain ⟨hagree, hcrack | hread⟩ := hfields
      · exact .inl hcrack
      · exact .inr (.ofExcept (toRecord_twins hagree hread name))

/-- **An acquire** tells the same end, whatever the remarks. -/
theorem acquire_twins {w w' : World RedisStore} (h : WorldTwins P w w') (hrefl : ∀ x, P x x) (r : AcquireRequest) :
    WorldTwins P (acquire r w).1 (acquire r w').1 ∧ (acquire r w).2.SameEnd (acquire r w').2 := by
  simp only [acquire, h.store.key]
  split
  · exact ⟨h, .failed _⟩
  · obtain ⟨hworld, hcrack | hend⟩ := write_twins h "acquiring" r.name
      ((Database.argument r.lockedBy).map fun lockedBy => (⟨_, _, lockedBy, _⟩ : AcquireWords)) (fun words =>
        acquireScript_twins h.store.database hrefl (w.store.key r.name) words)
    · exact hcrack.elim
    · exact ⟨hworld, hend⟩

/-- What the release of a lease runs. -/
theorem release_lease (lease : Lease) (u : Instant) (w : World RedisStore) : release (lease.releaseRequest u) w =
    write "releasing" (.text lease.name) (.ok ()) (fun _ => releaseScript (w.store.key (.text lease.name))
      u.truncate.timestamp lease.atMost.truncate.timestamp) w := by
  have htimes : releaseTimes (lease.releaseRequest u) =
      .ok (lease.atMost.truncate.timestamp, u.truncate.timestamp) := by
    simp only [releaseTimes, Lease.releaseRequest, GivenTime.isNone_moment, GivenTime.timestamp,
      GivenTime.truncate_moment]
    rfl
  simp only [release, htimes]
  rfl

/-- **The release of a lease** does, unless there is a crack in its record. -/
theorem release_twins {w w' : World RedisStore} (h : WorldTwins P w w') (hrefl : ∀ x, P x x) (lease : Lease)
    (u : Instant) : WorldTwins P (release (lease.releaseRequest u) w).1 (release (lease.releaseRequest u) w').1 ∧
      (Crack w.store.database w'.store.database (w.store.key (.text lease.name)) lease.atMost.truncate.timestamp ∨
        (release (lease.releaseRequest u) w).2.SameEnd (release (lease.releaseRequest u) w').2) := by
  rw [release_lease, release_lease, h.store.key]
  exact write_twins h "releasing" (.text lease.name) (.ok ()) fun _ =>
    releaseScript_twins h.store.database hrefl (w.store.key (.text lease.name)) _ _

/-- **A release that finds a remark which cannot be read** is written, and fails with what is wrong with the remark. -/
theorem illegible_remark_raises {w : World RedisStore} (hup : w.store.database.outage = none) {lease : Lease}
    {u : Instant} {fields : Fields} {e : Error}
    (hfields : w.store.database.fieldsOf (w.store.key (.text lease.name)) = .ok fields)
    (hdistinct : (fields.map (·.1)).Nodup) (hheld : find? lockUntilKey fields = some lease.atMost.truncate.timestamp)
    (hlegible : u.truncate.Legible) (hremark : readRemark (find? lockedAtKey fields) = .error e) :
    (release (lease.releaseRequest u) w).1.store.database =
        w.store.database.setHash (w.store.key (.text lease.name)) (put lockUntilKey u.truncate.timestamp fields) ∧
      (release (lease.releaseRequest u) w).2 = .failed e := by
  have hscript := releaseScript_eq hfields u.truncate.timestamp lease.atMost.truncate.timestamp
  rw [if_neg fun hnot => hnot.2 hheld] at hscript
  have hrecord : toRecord (.text lease.name) (put lockUntilKey u.truncate.timestamp fields) = .error e := by
    have hne : lockedAtKey ≠ lockUntilKey := by decide
    rw [toRecord_eq _ (nodup_put hdistinct), find_put_self, find_put_other hne, readEnd,
      LeaseRecord.readTime_legible u.truncate_whole hlegible, hremark]
    rfl
  have hwrite := @write_up Unit w hup () (fun _ => releaseScript (w.store.key (.text lease.name)) u.truncate.timestamp
    lease.atMost.truncate.timestamp) _ _ hscript "releasing" (.text lease.name)
  rw [release_lease, hwrite, settle, hrecord]
  exact ⟨rfl, rfl⟩

end RedisStore
end Redis
end Leasehold
