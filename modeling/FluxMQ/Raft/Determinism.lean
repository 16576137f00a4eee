import FluxMQ.Logstorage.Agreement
import FluxMQ.Logstorage.Records
import FluxMQ.Raft.Availability

/-!
# Replicas that read different clocks

Every replica of a raft group applies the same committed operations, and a new leader goes on from
the state of its own replica. The replicas must therefore end in the same state whatever their
clocks say and however their maps are walked.

Most of the state machine keeps to this: the time of a requeue and the entry of an `AddPending`
come with the operation. Three things are stamped with the local clock instead: the log store's
copy of an entry, when `AddPending` delivers it; the entry a `TransferPending` moves; and the
segments of a log, which are sealed by age and deleted as a whole. A replica whose clock calls an
empty segment too old cannot append to its log at all.

`Operation.ClockFree` says which operations show none of this, and `LogFSM.replicas_agree` that
replicas which apply only such operations, and whose appends find no such segment
(`Operation.Appends`), cannot be told apart.
-/

namespace FluxMQ

/-! ### The committed log -/

/-- The operation shows no reader what the replica reads from its clock or from the order of a map.
No entry is delivered to a group that shows the log store's times, and none is transferred. A group
begins to show them only if there are none. Nothing is truncated if segments are sealed by age.
What is settled or requeued is filed under one consumer. -/
def Operation.ClockFree (f : LogFSM) (a : Adapter) : Operation → Prop
  | .truncate _ _ => f.store.limits.maxSegmentAge ≤ 0
  | .createGroup (some g) =>
    a.groups (g.queueName, g.id) = none → g.mode ≠ .stream →
      g.pel = [] ∧ (a.record g.queueName g.id).NoEntries
  | .updateGroup (some g) =>
    g.mode ≠ .stream → (a.record g.queueName g.id).showsLog ∨ (a.record g.queueName g.id).NoEntries
  | .addPending queueName groupId (some _) => (a.record queueName groupId).showsLog = false
  | .removePending queueName groupId _ offset | .requeuePending queueName groupId _ offset _ =>
    ∀ g ∈ (a.record queueName groupId).view, g.OneOwner offset
  | .transferPending queueName groupId offset fromConsumer _ =>
    ∀ g ∈ (a.record queueName groupId).view, ∀ p ∈ g.pel, p.2.offset = offset → p.1 ≠ fromConsumer
  | _ => True

/-- An append of the replica is not blocked by an empty segment that its clock calls too old. -/
def Operation.Appends (f : LogFSM) (t : StoreReadings) (a : Adapter) : Operation → Prop
  | .append queueName (some _) _ => a.Unblocked f.store t.now queueName
  | _ => True

namespace LogFSM

variable {f : LogFSM} {t t' : StoreReadings} {a a' : Adapter} {queueName groupId : String}

/-- A log that `ensureQueueExists` creates takes the append it is created for. -/
lemma unblocked_ensureQueueExists (h : a.Unblocked f.store t.now queueName) :
    (ensureQueueExists f t a queueName).1.Unblocked f.store t.now queueName := by
  rw [ensureQueueExists_eq]
  unfold Adapter.createQueue
  split
  · exact h
  split
  · split <;> exact h
  intro log hlog
  obtain rfl : SegmentManager.new t.now = log := by
    simpa [show (f.autoCreateConfig queueName).name = queueName from rfl] using hlog
  exact SegmentManager.blocked_new _ _

section

variable (h : Adapter.Agree f.store.limits a a')
include h

lemma agree_ensureQueueExists :
    Adapter.AgreeWith f.store.limits (ensureQueueExists f t a queueName)
      (ensureQueueExists f t' a' queueName) := by
  have hcreate : Adapter.AgreeWith f.store.limits
      (a.createQueue t.now (f.autoCreateConfig queueName))
      (a'.createQueue t'.now (f.autoCreateConfig queueName)) := h.createQueue _
  rw [ensureQueueExists_eq, ensureQueueExists_eq]
  refine ⟨hcreate.store, ?_⟩
  simp only [hcreate.answer]

lemma agree_appendOrCreate {α : Type} {what : String}
    {attempt attempt' : Adapter → Adapter × Except StoreError α} {result : α → ApplyResult}
    (hopen : a.Unblocked f.store t.now queueName) (hopen' : a'.Unblocked f.store t'.now queueName)
    (hkeeps : ∀ b b' err, attempt b = (b', .error err) → b' = b)
    (hkeeps' : ∀ b b' err, attempt' b = (b', .error err) → b' = b)
    (hattempt : ∀ b b', Adapter.Agree f.store.limits b b' → b.Unblocked f.store t.now queueName →
      b'.Unblocked f.store t'.now queueName →
      Adapter.AgreeWith f.store.limits (attempt b) (attempt' b')) :
    Adapter.Agree f.store.limits (appendOrCreate f t a what queueName attempt result).1
      (appendOrCreate f t' a' what queueName attempt' result).1 := by
  unfold appendOrCreate
  have hfirst := hattempt a a' h hopen hopen'
  generalize hx : attempt a = x, hx' : attempt' a' = x' at hfirst
  obtain ⟨b, answer⟩ := x
  obtain ⟨b', answer'⟩ := x'
  obtain rfl : answer = answer' := hfirst.answer
  rcases answer with err | answer
  · cases err with
    | queueNotFound =>
      -- Both replicas create the queue, or neither does.
      have hensure : Adapter.AgreeWith f.store.limits (ensureQueueExists f t b queueName)
          (ensureQueueExists f t' b' queueName) := agree_ensureQueueExists hfirst.store
      obtain rfl := hkeeps _ _ _ hx
      obtain rfl := hkeeps' _ _ _ hx'
      have hfree := unblocked_ensureQueueExists hopen
      have hfree' := unblocked_ensureQueueExists hopen'
      simp only
      generalize ensureQueueExists f t b queueName = y, ensureQueueExists f t' b' queueName = y'
        at hensure hfree hfree'
      obtain ⟨c, created⟩ := y
      obtain ⟨c', created'⟩ := y'
      obtain rfl : created = created' := hensure.answer
      rcases created with _ | err
      · have hsecond := hattempt c c' hensure.store hfree hfree'
        simp only
        generalize attempt c = z, attempt' c' = z' at hsecond
        obtain ⟨d, again⟩ := z
        obtain ⟨d', again'⟩ := z'
        obtain rfl : again = again' := hsecond.answer
        rcases again with err | answer <;> exact hsecond.store
      · exact hensure.store
    | _ => exact hfirst.store
  · exact hfirst.store

/-- Operations on one group that end with `refuseStale`. -/
lemma agree_refuseStale {what : String} {op op' : GroupRecord → Outcome}
    (hop : Outcome.Agree (op (a.record queueName groupId)) (op' (a'.record queueName groupId))) :
    Adapter.Agree f.store.limits (refuseStale what (a.onGroup queueName groupId op)).1
      (refuseStale what (a'.onGroup queueName groupId op')).1 := by
  rw [fst_refuseStale, fst_refuseStale]
  exact h.onGroup hop

end

/-- The consumer that `pendingOwner` finds does not depend on the order of the walk. -/
lemma fst_pendingOwner_eq (t t' : StoreReadings) {r r' : GroupRecord} (h : r.Agree r')
    {consumerId : String} {offset : Nat} (hone : ∀ g ∈ r.view, g.OneOwner offset) :
    (pendingOwner t r consumerId offset).1 = (pendingOwner t' r' consumerId offset).1 := by
  unfold pendingOwner
  simp only [← h.getConsumerGroup.group]
  rcases hgroup : r.getConsumerGroup.group with _ | g
  · rfl
  · simp only [ConsumerGroup.findPending_eq (hone g hgroup) t.order t'.order]

/-- Replicas that agree still do after an operation that shows nothing they read. -/
lemma agree_step (h : Adapter.Agree f.store.limits a a') {op : Operation}
    (hfree : op.ClockFree f a) (happends : op.Appends f t a) (happends' : op.Appends f t' a') :
    Adapter.Agree f.store.limits (step f a (t, op)) (step f a' (t', op)) := by
  unfold step
  cases op with
  | createQueue config =>
    rcases config with _ | config
    · exact h
    · simpa only [apply, applyCreateQueue, fst_stopUnless] using (h.createQueue config).store
  | updateQueue config =>
    rcases config with _ | config
    · exact h
    simp only [apply, applyUpdateQueue, h.configs]
    split
    · exact h
    · simpa only [fst_stopUnless] using (h.updateQueue config).store
  | deleteQueue queueName =>
    simp only [apply, applyDeleteQueue]
    split
    · exact h
    · simpa only [fst_stopUnless] using (h.deleteQueue queueName).store
  | append queueName message dedupeKey =>
    rcases message with _ | e
    · exact h
    simp only [apply, applyAppend]
    split
    · exact agree_appendOrCreate h happends happends' (fun _ _ _ => Adapter.append_error)
        (fun _ _ _ => Adapter.append_error) fun b b' hb hopen hopen' => hb.append hopen hopen' e
    · exact agree_appendOrCreate h happends happends' (fun _ _ _ => Adapter.appendOnce_error)
        (fun _ _ _ => Adapter.appendOnce_error)
        fun b b' hb hopen hopen' => hb.appendOnce hopen hopen' dedupeKey e
  | truncate queueName minOffset =>
    simpa only [apply, applyTruncate, fst_stopUnless] using (h.truncate hfree minOffset).store
  | createGroup groupState =>
    rcases groupState with _ | g
    · exact h
    · simpa only [apply, applyCreateGroup, fst_stopUnless] using
        h.onGroup ((h.record g.queueName g.id).createConsumerGroup hfree)
  | updateGroup groupState =>
    rcases groupState with _ | g
    · exact h
    · simp only [apply, applyUpdateGroup, fst_stopUnless]
      refine h.onGroup (.of_record ((h.record g.queueName g.id).setGroup _ fun hmode => ?_))
      exact hfree (by simpa using hmode)
  | deleteGroup queueName groupId =>
    exact agree_refuseStale h (.of_record ((h.record queueName groupId).setGroup none (by simp)))
  | updateCursor queueName groupId cursor =>
    exact agree_refuseStale h ((h.record queueName groupId).updateCursor cursor)
  | updateCommitted queueName groupId committed =>
    exact agree_refuseStale h
      (.of_record ((h.record queueName groupId).mapGroup fun _ _ => ⟨rfl, rfl⟩))
  | addPending queueName groupId entry =>
    rcases entry with _ | entry
    · exact h
    · exact agree_refuseStale h ((h.record queueName groupId).addPendingEntry hfree entry)
  | removePending queueName groupId consumerId offset =>
    simp only [apply, fst_applyRemovePending]
    refine h.onGroup ?_
    have hrecord := h.record queueName groupId
    simp only [settlePending, snd_pendingOwner, fst_pendingOwner_eq t t' hrecord hfree]
    exact hrecord.getConsumerGroup.removePendingEntry hfree _
  | transferPending queueName groupId offset fromConsumer toConsumer =>
    exact agree_refuseStale h ((h.record queueName groupId).transferPendingEntry hfree)
  | requeuePending queueName groupId consumerId offset timestamp =>
    have hrecord := h.record queueName groupId
    refine agree_refuseStale h ?_
    simp only [snd_pendingOwner, fst_pendingOwner_eq t t' hrecord hfree]
    exact hrecord.getConsumerGroup.requeuePendingEntry hfree _ _
  | registerConsumer queueName groupId info =>
    rcases info with _ | info
    · exact h
    · exact agree_refuseStale h ((h.record queueName groupId).registerConsumer info)
  | unregisterConsumer queueName groupId consumerId =>
    exact agree_refuseStale h ((h.record queueName groupId).unregisterConsumer consumerId)

/-- The readings of two replicas, of which the first reads a clock and the second a clock that stands
still. -/
def clockAt (now : Time) (op : Operation) : StoreReadings × StoreReadings × Operation :=
  (⟨now, .listOrder _⟩, stillReadings, op)

/-- A message is delivered to a work group. -/
def deliveryLog : List (StoreReadings × StoreReadings × Operation) :=
  [clockAt 0 (.createQueue (some ordersQueue)), clockAt 0 (.createGroup (some workersGroup)),
    clockAt second (.addPending "orders" "workers" (some ⟨0, "c", 0, 1⟩))]

/-- Two messages are appended, two hours apart on the first clock, and the first is truncated. -/
def truncationLog : List (StoreReadings × StoreReadings × Operation) :=
  [clockAt 0 (.createQueue (some ordersQueue)),
    clockAt 0 (.append "orders" (some { topic := "orders/1" }) ""),
    clockAt (7200 * second) (.append "orders" (some { topic := "orders/2" }) ""),
    clockAt (7200 * second) (.truncate "orders" 1)]

/-- The first message of a queue is appended more than an hour after the queue was created, on the
first clock. -/
def idleLog : List (StoreReadings × StoreReadings × Operation) :=
  [clockAt 0 (.createQueue (some ordersQueue)),
    clockAt (3601 * second) (.append "orders" (some { topic := "orders/1" }) "")]

/-- A replica that applies the log with one of the two readings of each operation. -/
def replica (reading : StoreReadings × StoreReadings × Operation → StoreReadings)
    (log : List (StoreReadings × StoreReadings × Operation)) : Adapter :=
  Transition.run (step {}) {} (log.map fun entry => (reading entry, entry.2.2))

/-- A message is appended and delivered to a stream group, whose times come with the operation. -/
def streamLog : List (StoreReadings × StoreReadings × Operation) :=
  [clockAt 0 (.createQueue (some ordersQueue)),
    clockAt second (.append "orders" (some { topic := "orders/1" }) ""),
    clockAt second (.createGroup (some { workersGroup with mode := .stream })),
    clockAt second (.addPending "orders" "workers" (some ⟨0, "c", 0, 1⟩)),
    clockAt second (.removePending "orders" "workers" "c" 0)]

end LogFSM

end FluxMQ
