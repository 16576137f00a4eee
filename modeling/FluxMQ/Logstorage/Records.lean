import FluxMQ.Logstorage.GroupOps

/-!
# What the operations of the store do to its records

A record is found by the name of its queue and its offset. An append puts one record where none was;
creating a queue puts none anywhere; deleting a queue removes its records; and the operations on
groups leave all records alone.
-/

namespace FluxMQ

open SegmentManager Function

namespace Adapter

variable {cfg : StoreConfig} {a a' : Adapter} {now : Time} {queueName key : String} {offset : Nat}
  {r : Record} {e : Envelope}

/-- The record of a queue at an offset. -/
def readRecord (a : Adapter) (queueName : String) (offset : Nat) : Option Record :=
  (a.logs queueName).bind fun log => log.read offset

/-- One record was appended to one queue, where no record was, and the others are as they were. -/
structure Appended (a a' : Adapter) (queueName : String) (offset : Nat) (r : Record) : Prop where
  fresh : a.readRecord queueName offset = none
  self : a'.readRecord queueName offset = some r
  other : ∀ q o, (q, o) ≠ (queueName, offset) → a'.readRecord q o = a.readRecord q o

/-- The same records are found under the same keys. -/
structure SameRecords (a a' : Adapter) : Prop where
  read : ∀ q o, a'.readRecord q o = a.readRecord q o
  dedupe : a'.dedupe = a.dedupe

lemma SameRecords.refl (a : Adapter) : SameRecords a a := ⟨fun _ _ => rfl, rfl⟩

lemma readRecord_eq {log : SegmentManager} (h : a.logs queueName = some log) (offset : Nat) :
    a.readRecord queueName offset = log.toLog.record offset := by
  rw [readRecord, h, Option.bind_some, read_eq]

lemma readRecord_eq_none (h : a.logs queueName = none) (offset : Nat) :
    a.readRecord queueName offset = none := by
  rw [readRecord, h, Option.bind_none]

/-- A queue without a log and one with an empty log have no records. -/
lemma readRecord_new (now : Time) (h : a.logs queueName = some (new now)) (offset : Nat) :
    a.readRecord queueName offset = none := by
  rw [readRecord_eq h]
  exact Log.record_eq_none_of_le (Nat.zero_le _)

/-- No record stands at the tail of a queue or behind it. -/
lemma readRecord_eq_none_of_tail {tail : Nat}
    (h : (a.logs queueName).map (fun log => log.toLog.tail) = some tail) (hle : tail ≤ offset) :
    a.readRecord queueName offset = none := by
  obtain ⟨log, hlog, rfl⟩ := Option.map_eq_some_iff.1 h
  rw [readRecord_eq hlog]
  exact Log.record_eq_none_of_le hle

/-! ### Queues -/

/-- Creating a queue puts no record anywhere. -/
lemma sameRecords_createQueue (a : Adapter) (now : Time) (config : QueueConfig) :
    SameRecords a (a.createQueue now config).1 := by
  unfold createQueue
  split
  · exact SameRecords.refl a
  split
  · split
    · exact SameRecords.refl a
    · exact ⟨fun _ _ => rfl, rfl⟩
  rename_i hlog
  refine ⟨fun q o => ?_, rfl⟩
  by_cases hq : q = config.name
  · subst hq
    rw [readRecord_new now (by simp), readRecord_eq_none (by simpa using hlog)]
  · simp [readRecord, update_of_ne hq]

/-- Deleting a queue removes its records and leaves the others. -/
lemma readRecord_deleteQueue (a : Adapter) (queueName q : String) (offset : Nat) :
    (a.deleteQueue queueName).1.readRecord q offset =
      if q = queueName then none else a.readRecord q offset := by
  simp only [deleteQueue]
  by_cases hq : q = queueName
  · subst hq
    rw [if_pos rfl]
    split
    · rename_i hlog
      exact readRecord_eq_none (Option.isNone_iff_eq_none.1 hlog) offset
    · exact readRecord_eq_none (update_self ..) offset
  · split
    · rfl
    · simp [readRecord, update_of_ne hq]

lemma dedupe_deleteQueue_of_ne (a : Adapter) {queueName q : String} (h : q ≠ queueName) :
    (a.deleteQueue queueName).1.dedupe q = a.dedupe q := by
  simp only [deleteQueue]
  split
  · rfl
  · exact update_of_ne h _ _

/-! ### Groups -/

lemma sameRecords_setRecord (a : Adapter) (queueName groupId : String) (r : GroupRecord) :
    SameRecords a (a.setRecord queueName groupId r) :=
  ⟨fun _ _ => rfl, rfl⟩

/-- The operations on groups leave all records alone. -/
lemma sameRecords_performOp (a : Adapter) (op : GroupOp) : SameRecords a (a.performOp op).1 :=
  sameRecords_setRecord a _ _ _

/-! ### Appends -/

lemma appendRecord_spec (h : a.appendRecord cfg now queueName r = (a', .ok offset)) :
    Appended a a' queueName offset r ∧ a'.dedupe = a.dedupe := by
  unfold appendRecord at h
  split at h
  · cases h
  rename_i log hlog
  split at h
  · cases h
  rename_i log' happend
  obtain ⟨ha', hoffset⟩ := Prod.mk.inj h
  obtain rfl : log.tailOffset = offset := by simpa using hoffset
  have hlogs : a'.logs = update a.logs queueName (some log') := by rw [← ha']
  -- The log that was found or created has what the queue had.
  have hbefore : ∀ o, a.readRecord queueName o = log.toLog.record o := by
    intro o
    cases hold : a.logs queueName with
    | some old =>
      rw [hold] at hlog
      obtain rfl : old = log := by simpa using hlog
      exact readRecord_eq hold o
    | none =>
      rw [hold] at hlog
      rw [readRecord_eq_none hold]
      split at hlog
      · obtain rfl : new now = log := by simpa using hlog
        exact (Log.record_eq_none_of_le (Nat.zero_le _)).symm
      · simp at hlog
  have hafter : ∀ o, a'.readRecord queueName o = (log.toLog.append r).record o := by
    intro o
    rw [readRecord_eq (hlogs ▸ update_self ..), toLog_append happend]
    rfl
  refine ⟨⟨?_, ?_, fun q o hne => ?_⟩, by rw [← ha']⟩
  · rw [hbefore, Log.record_eq_none_of_le (tail_toLog (m := log)).le]
  · rw [hafter, ← tail_toLog, Log.record_append_tail]
  by_cases hq : q = queueName
  · subst hq
    rw [hafter, hbefore]
    rcases lt_trichotomy o log.tailOffset with hlt | rfl | hgt
    · exact Log.record_append_of_lt (tail_toLog (m := log) ▸ hlt)
    · exact absurd rfl hne
    rw [Log.record_eq_none_of_le, Log.record_eq_none_of_le]
    · rw [tail_toLog]
      exact hgt.le
    · rw [Log.tail_append, tail_toLog]
      exact hgt
  · simp [readRecord, hlogs, update_of_ne hq]

lemma append_spec (h : a.append cfg now queueName e = (a', .ok offset)) :
    Appended a a' queueName offset (.envelope e) ∧ a'.dedupe = a.dedupe := by
  unfold append at h
  split at h
  · cases h
  · exact appendRecord_spec h

section

variable {err : StoreError}

/-- An append that fails leaves the store as it is. -/
lemma appendRecord_error (h : a.appendRecord cfg now queueName r = (a', .error err)) : a' = a := by
  unfold appendRecord at h
  split at h
  · cases h
    rfl
  split at h
  · cases h
    rfl
  · cases h

lemma append_error (h : a.append cfg now queueName e = (a', .error err)) : a' = a := by
  unfold append at h
  split at h
  · cases h
    rfl
  · exact appendRecord_error h

lemma appendOnce_error (h : a.appendOnce cfg now queueName key e = (a', .error err)) : a' = a := by
  unfold appendOnce at h
  split at h
  · cases h
    rfl
  split at h
  · cases h
  split at h
  · rename_i happend
    obtain ⟨rfl, -⟩ := Prod.mk.inj h
    exact appendRecord_error happend
  · cases h

end

/-- A key that is taken by a record that carries it. -/
lemma carriesKey_iff : a.carriesKey queueName key offset ↔
    ∃ e, a.readRecord queueName offset = some (.envelope e) ∧ e.transferId = key := by
  unfold carriesKey readRecord
  split
  · rename_i e he
    simp [he]
  rename_i hnone
  constructor
  · rintro ⟨⟩
  · rintro ⟨e, he, -⟩
    exact absurd he (hnone e)

/-- An append that finds its key taken finds a record that carries it. -/
lemma appendOnce_found (h : a.appendOnce cfg now queueName key e = (a', .ok (offset, true))) :
    a' = a ∧ ∃ e', a.readRecord queueName offset = some (.envelope e') ∧ e'.transferId = key := by
  unfold appendOnce at h
  split at h
  · cases h
  split at h
  · rename_i found hfound
    obtain ⟨rfl, hoffset⟩ := Prod.mk.inj h
    obtain rfl : found = offset := by simpa using hoffset
    exact ⟨rfl, carriesKey_iff.1 (Option.filter_eq_some_iff.1 hfound).2⟩
  · split at h
    · cases h
    · simp at h

private lemma lookup_filter_of_ne {k key : String} (h : k ≠ key) (l : List (String × Nat)) :
    (l.filter fun p => p.1 != key).lookup k = l.lookup k := by
  induction l with
  | nil => rfl
  | cons p l ih =>
    rw [List.filter_cons, List.lookup_cons]
    by_cases hp : p.1 = key
    · have hk : (k == p.1) = false := beq_eq_false_iff_ne.2 (hp ▸ h)
      simp only [hp, bne_self_eq_false, Bool.false_eq_true, if_false, hp ▸ hk]
      exact ih
    · rw [if_pos (bne_iff_ne.2 hp), List.lookup_cons, ih]

/-- An append that does not find its key taken appends the record under it. -/
lemma appendOnce_spec (h : a.appendOnce cfg now queueName key e = (a', .ok (offset, false))) :
    Appended a a' queueName offset (.envelope { e with transferId := key }) ∧
      (∀ o, (a.dedupe queueName).lookup key = some o → a.carriesKey queueName key o = false) ∧
      (a'.dedupe queueName).lookup key = some offset ∧
      ∀ q k, (q, k) ≠ (queueName, key) → (a'.dedupe q).lookup k = (a.dedupe q).lookup k := by
  unfold appendOnce at h
  split at h
  · cases h
  split at h
  · simp at h
  rename_i hfound
  split at h
  · cases h
  rename_i stored at_ happend
  obtain ⟨ha', hoffset⟩ := Prod.mk.inj h
  obtain rfl : at_ = offset := by simpa using hoffset
  obtain ⟨happended, hdedupe⟩ := appendRecord_spec happend
  have hread : ∀ q o, a'.readRecord q o = stored.readRecord q o := by
    intro q o
    rw [← ha']
    rfl
  have hindex : a'.dedupe = update a.dedupe queueName
      ((key, at_) :: (a.dedupe queueName).filter fun p => p.1 != key) := by
    rw [← ha', hdedupe]
  refine ⟨⟨happended.fresh, (hread _ _).trans happended.self,
    fun q o hne => (hread q o).trans (happended.other q o hne)⟩, fun o ho => ?_, ?_, ?_⟩
  · have hcarries := Option.filter_eq_none_iff.1 hfound o ho
    simpa using hcarries
  · rw [hindex, update_self, List.lookup_cons_self]
  intro q k hne
  by_cases hq : q = queueName
  · subst hq
    have hk : k ≠ key := fun hk => hne (hk ▸ rfl)
    rw [hindex, update_self, List.lookup_cons, beq_eq_false_iff_ne.2 hk]
    exact lookup_filter_of_ne hk _
  · rw [hindex, update_of_ne hq]

end Adapter

end FluxMQ
