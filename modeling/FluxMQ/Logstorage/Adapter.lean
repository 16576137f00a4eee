import FluxMQ.Logstorage.GroupRecord
import FluxMQ.Logstorage.SegmentManager
import FluxMQ.Types.QueueConfig

/-!
# The queue store

`Adapter` of `logstorage/adapter.go` is the store of all queues and consumer groups of a node. A
queue is its configuration and its log; the log store also keeps the consumer state of each group.
The group metadata is kept apart: deleting a queue removes its consumer states with the log, but
not the metadata of its groups, and deleting a group removes its metadata only.

What is stored for one group is the `GroupRecord` of its queue and name, and every operation on a
group acts on that record alone.
-/

namespace FluxMQ

/-- The configuration of the log store. -/
structure StoreConfig where
  limits : SegmentLimits := {}
  /-- The bytes a record takes in a segment. -/
  bytes : Record → Nat := fun _ => 1
  autoCreate : Bool := true

/-- What one operation of the store reads from its surroundings. -/
structure StoreReadings where
  now : Time
  /-- The order in which a PEL is walked. -/
  order : IterationOrder (String × PendingEntry)

/-- The stored state of all queues and groups. -/
structure Adapter where
  /-- The queue configurations. -/
  configs : String → Option QueueConfig := fun _ => none
  /-- The logs of the queues the log store has. -/
  logs : String → Option SegmentManager := fun _ => none
  /-- The group metadata, by queue and group name. -/
  groups : String × String → Option ConsumerGroup := fun _ => none
  /-- The log store's consumer states, by queue and group name. -/
  states : String × String → Option ConsumerState := fun _ => none
  /-- The offsets of the records appended under a deduplication key. -/
  dedupe : String → List (String × Nat) := fun _ => []

namespace Adapter

variable (cfg : StoreConfig) (a : Adapter)

/-! ### Groups -/

/-- What is stored for one group. -/
def record (queueName groupId : String) : GroupRecord :=
  { queueOpen := (a.logs queueName).isSome
    group := a.groups (queueName, groupId)
    state := a.states (queueName, groupId) }

/-- Store what is to be kept for one group. -/
def setRecord (queueName groupId : String) (r : GroupRecord) : Adapter :=
  { a with
    groups := Function.update a.groups (queueName, groupId) r.group
    states := Function.update a.states (queueName, groupId) r.state }

/-- An operation on one group. -/
def onGroup (queueName groupId : String) (f : GroupRecord → Outcome) :
    Adapter × Option StoreError :=
  let (r, err) := f (a.record queueName groupId)
  (a.setRecord queueName groupId r, err)

variable {a} in
lemma record_onGroup_of_ne {queueName groupId q g : String} {f : GroupRecord → Outcome}
    (h : (q, g) ≠ (queueName, groupId)) :
    (a.onGroup queueName groupId f).1.record q g = a.record q g := by
  simp [onGroup, setRecord, record, Function.update_of_ne h]

/-! ### Queues -/

/-- `CreateQueue`. A log without a configuration is repaired. The name is one that the log's directory
can have: `Glob` refuses some patterns, which is left out. -/
def createQueue (now : Time) (config : QueueConfig) : Adapter × Option StoreError :=
  if !validTopicFilters config.topics then (a, some .invalidTopicFilter)
  else if (a.logs config.name).isSome then
    if (a.configs config.name).isSome then (a, some .queueAlreadyExists)
    else ({ a with configs := Function.update a.configs config.name (some config) }, none)
  else
    ({ a with
        configs := Function.update a.configs config.name (some config)
        logs := Function.update a.logs config.name (some (SegmentManager.new now)) }, none)

def updateQueue (config : QueueConfig) : Adapter × Option StoreError :=
  if !validTopicFilters config.topics then (a, some .invalidTopicFilter)
  else ({ a with configs := Function.update a.configs config.name (some config) }, none)

/-- `DeleteQueue` removes the configuration first. The log's directory goes with all that is in it,
also the logs of queues named below it, which are left alone here. -/
def deleteQueue (queueName : String) : Adapter × Option StoreError :=
  let a := { a with configs := Function.update a.configs queueName none }
  if (a.logs queueName).isNone then (a, some .queueNotFound)
  else
    ({ a with
        logs := Function.update a.logs queueName none
        states := fun key => if key.1 = queueName then none else a.states key
        dedupe := Function.update a.dedupe queueName [] }, none)

/-! ### Records -/

/-- `Store.Append` of one record, which creates a missing log if it may. -/
def appendRecord (now : Time) (queueName : String) (r : Record) :
    Adapter × Except StoreError Nat :=
  match (a.logs queueName).orElse fun _ =>
      if cfg.autoCreate then some (SegmentManager.new now) else none with
  | none => (a, .error .logQueueNotFound)
  | some log =>
    match log.append cfg.limits now [r] (cfg.bytes r) with
    -- Not for a log that was just created (`SegmentManager.blocked_new`).
    | none => (a, .error .segmentExists)
    | some log' =>
      ({ a with logs := Function.update a.logs queueName (some log') }, .ok log.tailOffset)

def append (now : Time) (queueName : String) (e : Envelope) : Adapter × Except StoreError Nat :=
  if (a.configs queueName).isNone then (a, .error .queueNotFound)
  else a.appendRecord cfg now queueName (.envelope e)

/-- `resolveDedupeEntry`: the record at the offset still carries the key. -/
def carriesKey (queueName key : String) (offset : Nat) : Bool :=
  match (a.logs queueName).bind fun log => log.read offset with
  | some (.envelope e) => e.transferId == key
  | _ => false

/-- `AppendOnce`: the offset of the record, and whether it was there already. -/
def appendOnce (now : Time) (queueName key : String) (e : Envelope) :
    Adapter × Except StoreError (Nat × Bool) :=
  if (a.configs queueName).isNone then (a, .error .queueNotFound)
  else
    match ((a.dedupe queueName).lookup key).filter fun offset => a.carriesKey queueName key offset with
    | some offset => (a, .ok (offset, true))
    | none =>
      match a.appendRecord cfg now queueName (.envelope { e with transferId := key }) with
      | (a, .error err) => (a, .error err)
      | (a, .ok offset) =>
        let others := (a.dedupe queueName).filter fun p => p.1 != key
        ({ a with dedupe := Function.update a.dedupe queueName ((key, offset) :: others) },
          .ok (offset, false))

/-- `Truncate` removes the keys of the records below the offset with them. -/
def truncate (now : Time) (queueName : String) (minOffset : Nat) : Adapter × Option StoreError :=
  match a.logs queueName with
  | none => (a, some .logQueueNotFound)
  | some log =>
    ({ a with
        logs := Function.update a.logs queueName (some (log.truncate now minOffset))
        dedupe := Function.update a.dedupe queueName
          ((a.dedupe queueName).filter fun p => minOffset ≤ p.2) }, none)

/-! ### Appends that succeed -/

variable {cfg a} {now : Time} {queueName : String}

/-- No append to the queue fails because its log cannot begin a new segment. -/
def Unblocked (cfg : StoreConfig) (now : Time) (queueName : String) (a : Adapter) : Prop :=
  ∀ log ∈ a.logs queueName, log.blocked cfg.limits now = false

lemma Unblocked.blocked (h : a.Unblocked cfg now queueName) {log : SegmentManager}
    (hlog : ((a.logs queueName).orElse fun _ =>
      if cfg.autoCreate then some (SegmentManager.new now) else none) = some log) :
    log.blocked cfg.limits now = false := by
  cases hold : a.logs queueName with
  | some old =>
    rw [hold] at hlog
    obtain rfl : old = log := by simpa using hlog
    exact h old hold
  | none =>
    rw [hold] at hlog
    split at hlog
    · obtain rfl : SegmentManager.new now = log := by simpa using hlog
      exact SegmentManager.blocked_new cfg.limits now
    · simp at hlog

/-- An append to a log that is not blocked, or that is created, succeeds. -/
lemma Unblocked.appendRecord (h : a.Unblocked cfg now queueName) {log : SegmentManager}
    (hlog : ((a.logs queueName).orElse fun _ =>
      if cfg.autoCreate then some (SegmentManager.new now) else none) = some log) (record : Record) :
    ∃ log', log.append cfg.limits now [record] (cfg.bytes record) = some log' ∧
      a.appendRecord cfg now queueName record =
        ({ a with logs := Function.update a.logs queueName (some log') }, .ok log.tailOffset) := by
  have hsome : (log.append cfg.limits now [record] (cfg.bytes record)).isSome :=
    SegmentManager.isSome_append (h.blocked hlog)
  obtain ⟨log', happend⟩ := Option.isSome_iff_exists.1 hsome
  refine ⟨log', happend, ?_⟩
  unfold Adapter.appendRecord
  simp only [hlog, happend]

end Adapter

end FluxMQ
