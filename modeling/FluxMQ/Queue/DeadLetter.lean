import FluxMQ.Consumer.System
import FluxMQ.Logstorage.GroupOps

/-!
# Dead-letter transfers between queues

`moveToDLQ` of `queue/record_core.go` appends a copy of a poison record to the dead-letter queue of
its source, under a key made of the names of queue and group and of the offset. An append under a
key that is taken succeeds without appending: the record is taken for one of an earlier attempt.
The transfer is split in three: the record is read and its entry reserved under the group's lock,
the copy is appended without it, and the entry is removed under it again.

`Broker` is a cluster with its queues. A replicated queue is kept once, by its raft group; any other
queue is kept by each node that has it. A queue of a given name is always replicated or never is.
Every step of a transfer may fail, and an append may report a failure after it was made. Stale
readings of a clock and the order of maps are inputs of a step.

`Broker` also keeps what no part of the code does: which record stands at which position, told apart
by a serial number from every other that stood there, and which record a copy was made from.
-/

namespace FluxMQ

/-! ### The key of a transfer -/

/-- The text that the key of a transfer is a digest of. -/
def transferText (queueName groupId : String) (sourceOffset : Nat) : String :=
  toString queueName.utf8ByteSize ++ ":" ++ queueName ++ ":" ++ toString groupId.utf8ByteSize ++
    ":" ++ groupId ++ ":" ++ toString sourceOffset

/-- `dlqTransferID`, where `digest` is the hexadecimal form of the truncated digest of a text. -/
def dlqTransferID (digest : String → String) (queueName groupId : String) (sourceOffset : Nat) :
    String :=
  "dlq-" ++ digest (transferText queueName groupId sourceOffset)

/-! ### The cluster -/

/-- Where a queue is kept: with its raft group, or on one node. -/
abbrev Place (ν : Type*) := Option ν

/-- A position in the log of a queue. -/
structure Position (ν : Type*) where
  place : Place ν
  queueName : String
  offset : Nat
  deriving DecidableEq

/-- A record that stood at a position. Records that stood there one after the other differ in the
serial number. -/
structure RecordId (ν : Type*) where
  position : Position ν
  serial : Nat
  payload : String
  deriving DecidableEq

/-- The record that a dead-letter record was made from, and the group it was pending in. -/
structure Origin (ν : Type*) where
  record : RecordId ν
  groupId : String
  deriving DecidableEq

/-- What sets a stored record apart. -/
structure Tag (ν : Type*) where
  serial : Nat := 0
  /-- What the record was made from, if it is a dead-letter record. -/
  origin : Option (Origin ν) := none

/-- A dead-letter transfer between its first and its last part. -/
structure DlqTransfer (ν : Type*) where
  /-- The node that performs it. -/
  node : ν
  queueName : String
  groupId : String
  source : TransferSource
  /-- The record as it was read. -/
  message : Envelope
  /-- The record that was read. -/
  record : RecordId ν
  /-- How the append ended, once it has. -/
  outcome : Option Manager.DlqOutcome := none
  /-- The dead-letter queue of an append that succeeded. -/
  destination : Option (Place ν × String) := none

/-- The configuration of the cluster. -/
structure BrokerConfig where
  store : StoreConfig := {}
  consumers : ManagerConfig := {}
  dlqTopicPrefix : String := ""
  digest : String → String := id
  /-- The queues that are replicated. -/
  replicated : String → Bool := fun _ => false

/-- A cluster with its queues. -/
structure Broker (ν : Type*) where
  stores : Place ν → Adapter := fun _ => {}
  /-- The transfers that nodes have under way. -/
  inFlight : List (DlqTransfer ν) := []
  tags : Position ν → Tag ν := fun _ => {}
  nextSerial : Nat := 0

/-- What the environment does to an append to a dead-letter queue. -/
structure WriteAttempt where
  now : Time
  /-- A missing dead-letter queue can be created. -/
  creates : Bool := true
  /-- The append reaches the queue: it is open, or this node leads its raft group. -/
  reaches : Bool := true
  /-- The answer to the append comes back in time. -/
  answers : Bool := true

namespace Broker

variable {ν : Type*} [DecidableEq ν] (cfg : BrokerConfig) (b : Broker ν)

/-- The place of a queue as seen from a node. -/
def place (node : ν) (queueName : String) : Place ν :=
  if cfg.replicated queueName then none else some node

/-- The record at a position. -/
def read (p : Position ν) : Option Record :=
  ((b.stores p.place).logs p.queueName).bind fun log => log.read p.offset

/-- Replace the store of a place. -/
def setStore (place : Place ν) (a : Adapter) : Broker ν :=
  { b with stores := Function.update b.stores place a }

/-- Take over the store that an append has left, and tag the record at its offset. -/
def appended (place : Place ν) (queueName : String) (a : Adapter) (offset : Nat)
    (origin : Option (Origin ν)) : Broker ν :=
  { b with
    stores := Function.update b.stores place a
    tags := Function.update b.tags ⟨place, queueName, offset⟩ { serial := b.nextSerial, origin }
    nextSerial := b.nextSerial + 1 }

/-- A publish. What is published carries no key of a transfer. -/
def publish (node : ν) (now : Time) (queueName : String) (e : Envelope) : Broker ν :=
  let place := place cfg node queueName
  match (b.stores place).append cfg.store now queueName { e with transferId := "" } with
  | (a, .ok offset) => b.appended place queueName a offset none
  | (a, .error _) => b.setStore place a

/-! ### Transfers -/

/-- The transfers of a group's entries that a node has under way. -/
def transfersOf (node : ν) (queueName groupId : String) : List (DlqTransfer ν) :=
  b.inFlight.filter fun t => t.node = node ∧ t.queueName = queueName ∧ t.groupId = groupId

/-- The consumer manager of a node, with what it finds for a group. -/
def manager (node : ν) (queueName groupId : String) : Manager :=
  let store := b.stores (place cfg node queueName)
  { log := ((store.logs queueName).map SegmentManager.toLog).getD {}
    record := store.record queueName groupId
    transfers := (b.transfersOf node queueName groupId).map fun t => t.source.offset }

/-- Store what the manager leaves of a group. -/
def setRecord (node : ν) (queueName groupId : String) (r : GroupRecord) : Broker ν :=
  let place := place cfg node queueName
  b.setStore place ((b.stores place).setRecord queueName groupId r)

/-- Note the transfer of a record that has been read. -/
def begin (node : ν) (queueName groupId : String) (source : TransferSource) : Broker ν :=
  let p : Position ν := ⟨place cfg node queueName, queueName, source.offset⟩
  match b.read p with
  | some (.envelope message) =>
    let record : RecordId ν := ⟨p, (b.tags p).serial, message.payload⟩
    { b with inFlight := { node, queueName, groupId, source, message, record } :: b.inFlight }
  | _ => b

/-- `prepareTransfer` of `Reject`. -/
def prepareReject (node : ν) (order : IterationOrder (String × PendingEntry))
    (queueName groupId consumerId : String) (offset : Nat) : Broker ν :=
  let (reply, m) := (b.manager cfg node queueName groupId).prepareTransfer cfg.consumers order
    consumerId offset
  let b := b.setRecord cfg node queueName groupId m.record
  if reply.error.isNone then b.begin cfg node queueName groupId (.reject consumerId offset) else b

/-- `preparePoisonTransfer` of `SweepPoison`, which any offset may be given to. -/
def prepareSweep (node : ν) (order : IterationOrder (String × PendingEntry)) (now : Time)
    (queueName groupId : String) (offset : Nat) : Broker ν :=
  let (entry, m) := (b.manager cfg node queueName groupId).preparePoisonTransfer cfg.consumers
    order now offset
  let b := b.setRecord cfg node queueName groupId m.record
  match entry with
  | some entry => b.begin cfg node queueName groupId (.sweep entry)
  | none => b

/-- The topic and name of the dead-letter queue of a queue. -/
def dlqTopic (config : QueueConfig) : String :=
  if config.dlqConfig.topic = "" then
    (if cfg.dlqTopicPrefix = "" then "$dlq/" else cfg.dlqTopicPrefix) ++ config.name
  else config.dlqConfig.topic

/-- The configuration of a dead-letter queue that is created for a transfer. -/
def newDLQConfig (dlqTopic : String) : QueueConfig :=
  { name := dlqTopic
    topics := [dlqTopic ++ "/#"]
    messageTTL := 0
    dlqConfig := { enabled := false } }

/-- The copy of a record that goes to the dead-letter queue. -/
def dlqMessage (dlqTopic transferId : String) (e : Envelope) : Envelope :=
  { e with topic := dlqTopic, deliveryExpiresAt := none, queueExpiresAt := none, transferId }

/-- Create the dead-letter queue if it is missing; the flag says whether it is there. -/
def ensureDLQ (attempt : WriteAttempt) (place : Place ν) (dlq : String) : Broker ν × Bool :=
  if ((b.stores place).configs dlq).isSome then (b, true)
  else if !attempt.creates then (b, false)
  else
    let b := b.setStore place ((b.stores place).createQueue attempt.now (newDLQConfig dlq)).1
    (b, ((b.stores place).configs dlq).isSome)

/-- `appendTransferOnce`: the append itself; the flag says whether it is reported successful. -/
def appendTransferOnce (attempt : WriteAttempt) (place : Place ν) (dlq transferId : String)
    (e : Envelope) (origin : Origin ν) : Broker ν × Bool :=
  if !attempt.reaches then (b, false)
  else
    match (b.stores place).appendOnce cfg.store attempt.now dlq transferId e with
    | (_, .error _) => (b, false)
    | (_, .ok (_, true)) => (b, attempt.answers)
    | (a, .ok (offset, false)) => (b.appended place dlq a offset (some origin), attempt.answers)

/-- `moveToDLQ`, with the dead-letter queue that was written. -/
def moveToDLQ (attempt : WriteAttempt) (t : DlqTransfer ν) :
    Broker ν × Manager.DlqOutcome × Option (Place ν × String) :=
  match (b.stores (place cfg t.node t.queueName)).configs t.queueName with
  | none => (b, .failed, none)
  | some config =>
    if !config.dlqConfig.enabled then (b, .unavailable, none)
    else
      let dlq := dlqTopic cfg { config with name := t.queueName }
      let place := place cfg t.node dlq
      match b.ensureDLQ attempt place dlq with
      | (b, false) => (b, .failed, none)
      | (b, true) =>
        let transferId := dlqTransferID cfg.digest t.queueName t.groupId t.source.offset
        match b.appendTransferOnce cfg attempt place dlq transferId
            (dlqMessage dlq transferId t.message) ⟨t.record, t.groupId⟩ with
        | (b, true) => (b, .written, some (place, dlq))
        | (b, false) => (b, .failed, none)

/-- Whether a transfer is that of an entry on a node. -/
def isTransfer (node : ν) (queueName groupId : String) (offset : Nat) (t : DlqTransfer ν) : Bool :=
  t.node = node ∧ t.queueName = queueName ∧ t.groupId = groupId ∧ t.source.offset = offset

/-- The transfer that a node has under way for an entry. -/
def transferOf (node : ν) (queueName groupId : String) (offset : Nat) : Option (DlqTransfer ν) :=
  b.inFlight.find? (isTransfer node queueName groupId offset)

/-- The append of a transfer that has not been written yet. -/
def write (attempt : WriteAttempt) (node : ν) (queueName groupId : String) (offset : Nat) :
    Broker ν :=
  match b.transferOf node queueName groupId offset with
  | some t =>
    if t.outcome.isSome then b
    else
      let (b, outcome, destination) := b.moveToDLQ cfg attempt t
      { b with
        inFlight := b.inFlight.map fun u =>
          if isTransfer node queueName groupId offset u then
            { u with outcome := some outcome, destination }
          else u }
  | none => b

/-- `finishTransfer` or `finishPoisonTransfer`: the last part of a transfer that has been written.
The removal of the entry may fail on its way to the store. -/
def finish (order : IterationOrder (String × PendingEntry)) (now : Time) (stored : Bool) (node : ν)
    (queueName groupId : String) (offset : Nat) : Broker ν :=
  match (b.transferOf node queueName groupId offset).bind fun t =>
      t.outcome.map fun outcome => (t.source, outcome) with
  | some (source, outcome) =>
    let system : System := { manager := b.manager cfg node queueName groupId }
    let m := (system.finishTransfer cfg.consumers order now source outcome).2
    let b := { b with
      inFlight := b.inFlight.filter fun u => !isTransfer node queueName groupId offset u }
    if stored then b.setRecord cfg node queueName groupId m.record else b
  | none => b

end Broker

/-! ### Runs of the cluster -/

/-- What happens in the cluster. The operations on groups are those of all callers: claims,
acknowledgements, and the creation and deletion of groups. -/
inductive BrokerAction (ν : Type*) where
  | createQueue (node : ν) (now : Time) (config : QueueConfig)
  | deleteQueue (node : ν) (queueName : String)
  | publish (node : ν) (now : Time) (queueName : String) (e : Envelope)
  | group (node : ν) (op : GroupOp)
  | prepareReject (node : ν) (order : IterationOrder (String × PendingEntry))
      (queueName groupId consumerId : String) (offset : Nat)
  | prepareSweep (node : ν) (order : IterationOrder (String × PendingEntry)) (now : Time)
      (queueName groupId : String) (offset : Nat)
  | write (attempt : WriteAttempt) (node : ν) (queueName groupId : String) (offset : Nat)
  | finish (order : IterationOrder (String × PendingEntry)) (now : Time) (stored : Bool) (node : ν)
      (queueName groupId : String) (offset : Nat)

/-- Perform one action. -/
def Broker.step {ν : Type*} [DecidableEq ν] (cfg : BrokerConfig) (b : Broker ν) :
    BrokerAction ν → Broker ν
  | .createQueue node now config =>
    let place := place cfg node config.name
    b.setStore place ((b.stores place).createQueue now config).1
  | .deleteQueue node queueName =>
    let place := place cfg node queueName
    b.setStore place ((b.stores place).deleteQueue queueName).1
  | .publish node now queueName e => b.publish cfg node now queueName e
  | .group node op =>
    let place := place cfg node op.key.1
    b.setStore place ((b.stores place).performOp op).1
  | .prepareReject node order queueName groupId consumerId offset =>
    b.prepareReject cfg node order queueName groupId consumerId offset
  | .prepareSweep node order now queueName groupId offset =>
    b.prepareSweep cfg node order now queueName groupId offset
  | .write attempt node queueName groupId offset =>
    b.write cfg attempt node queueName groupId offset
  | .finish order now stored node queueName groupId offset =>
    b.finish cfg order now stored node queueName groupId offset

end FluxMQ
