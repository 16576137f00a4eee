import FluxMQ.Library.Runs
import FluxMQ.Logstorage.Adapter

/-!
# The replicated state machine

`LogFSM` of `queue/raft/fsm.go` applies the committed operations of a raft group to the queue
store of its node. Every replica applies the same operations in the same order; what may differ
between them is what an operation reads from its node, the local clock and the order of Go maps.

An operation is applied, refused, or stops the node. `stopLocalFailure` stops a node that could
not apply a committed operation, because a replica that steps over it no longer matches its peers.
An operation that every replica declines for the same reason is refused instead.
-/

namespace FluxMQ

/-- `Operation` with the payload of its type. A payload the source finds to be nil, or a message
that does not decode, is `none`. -/
inductive Operation where
  | createQueue (config : Option QueueConfig)
  | updateQueue (config : Option QueueConfig)
  | deleteQueue (queueName : String)
  | append (queueName : String) (message : Option Envelope) (dedupeKey : String)
  | truncate (queueName : String) (minOffset : Nat)
  | createGroup (groupState : Option ConsumerGroup)
  | updateGroup (groupState : Option ConsumerGroup)
  | deleteGroup (queueName groupId : String)
  | updateCursor (queueName groupId : String) (cursor : Nat)
  | updateCommitted (queueName groupId : String) (committed : Nat)
  | addPending (queueName groupId : String) (entry : Option PendingEntry)
  | removePending (queueName groupId consumerId : String) (offset : Nat)
  | transferPending (queueName groupId : String) (offset : Nat) (fromConsumer toConsumer : String)
  | requeuePending (queueName groupId consumerId : String) (offset : Nat) (timestamp : Time)
  | registerConsumer (queueName groupId : String) (info : Option ConsumerInfo)
  | unregisterConsumer (queueName groupId consumerId : String)
  deriving DecidableEq

/-- The error of a refused operation. -/
inductive ApplyError where
  | malformed (text : String)
  | store (err : StoreError)
  deriving Repr, DecidableEq

/-- What becomes of a committed operation. -/
inductive ApplyResult where
  | applied (offset : Nat) (deduplicated : Bool)
  | refused (err : ApplyError)
  /-- `stopLocalFailure` panics. -/
  | stopped (what : String) (err : StoreError)
  deriving Repr, DecidableEq

namespace ApplyResult

/-- `ApplyResult{}`. -/
abbrev done : ApplyResult := .applied 0 false

/-- The node stops. -/
def isStopped : ApplyResult → Bool
  | .stopped _ _ => true
  | _ => false

end ApplyResult

def StoreError.staleTarget : StoreError → Bool
  | .pendingEntryNotFound | .consumerNotFound | .consumerGroupNotFound => true
  | _ => false

/-- The configuration of one replica. -/
structure LogFSM where
  groupId : String := "default"
  store : StoreConfig := {}

namespace LogFSM

variable (f : LogFSM) (t : StoreReadings) (a : Adapter)

/-- The end of an apply function that refuses a stale target and stops on every other error. -/
def refuseStale (what : String) (outcome : Adapter × Option StoreError) : Adapter × ApplyResult :=
  match outcome with
  | (a, none) => (a, .done)
  | (a, some err) => (a, if err.staleTarget then .refused (.store err) else .stopped what err)

/-- The end of an apply function that stops on every error but one, which it ignores. -/
def stopUnless (what : String) (ignored : Option StoreError)
    (outcome : Adapter × Option StoreError) : Adapter × ApplyResult :=
  match outcome with
  | (a, none) => (a, .done)
  | (a, some err) => (a, if some err = ignored then .done else .stopped what err)

def applyCreateQueue : Option QueueConfig → Adapter × ApplyResult
  | none => (a, .refused (.malformed "nil queue config in create queue operation"))
  | some config => stopUnless "create queue" (some .queueAlreadyExists) (a.createQueue t.now config)

def applyUpdateQueue : Option QueueConfig → Adapter × ApplyResult
  | none => (a, .refused (.malformed "nil queue config in update queue operation"))
  | some config =>
    if (a.configs config.name).isNone then (a, .refused (.store .queueNotFound))
    else stopUnless "update queue" none (a.updateQueue config)

def applyDeleteQueue (queueName : String) : Adapter × ApplyResult :=
  if queueName = "" then (a, .refused (.malformed "empty queue name in delete queue operation"))
  else stopUnless "delete queue" (some .queueNotFound) (a.deleteQueue queueName)

/-- The configuration `ensureQueueExists` gives a queue: the default of an ephemeral one. -/
def autoCreateConfig (queueName : String) : QueueConfig :=
  { name := queueName
    topics := ["$queue/" ++ queueName ++ "/#"]
    durable := false
    expiresAfter := 300 * second
    replication := { enabled := true, group := f.groupId } }

def ensureQueueExists (queueName : String) : Adapter × Option StoreError :=
  match a.createQueue t.now (f.autoCreateConfig queueName) with
  | (a, some .queueAlreadyExists) => (a, none)
  | outcome => outcome

/-- Append, creating the queue once if it is missing. -/
def appendOrCreate {α : Type} (what : String) (queueName : String)
    (attempt : Adapter → Adapter × Except StoreError α) (result : α → ApplyResult) :
    Adapter × ApplyResult :=
  match attempt a with
  | (a, .ok answer) => (a, result answer)
  | (a, .error .queueNotFound) =>
    match ensureQueueExists f t a queueName with
    | (a, some err) => (a, .stopped "queue auto-create" err)
    | (a, none) =>
      match attempt a with
      | (a, .ok answer) => (a, result answer)
      | (a, .error err) => (a, .stopped what err)
  | (a, .error err) => (a, .stopped what err)

/-- `applyAppend` and `applyAppendOnce`. -/
def applyAppend (queueName : String) (message : Option Envelope) (dedupeKey : String) :
    Adapter × ApplyResult :=
  match message with
  | none => (a, .refused (.malformed "empty message in append operation"))
  | some e =>
    if dedupeKey = "" then
      appendOrCreate f t a "append" queueName (fun a => a.append f.store t.now queueName e)
        fun offset => .applied offset false
    else
      appendOrCreate f t a "deduplicated append" queueName
        (fun a => a.appendOnce f.store t.now queueName dedupeKey e) fun answer =>
          .applied answer.1 answer.2

def applyTruncate (queueName : String) (minOffset : Nat) : Adapter × ApplyResult :=
  stopUnless "truncate" none (a.truncate t.now queueName minOffset)

def applyCreateGroup : Option ConsumerGroup → Adapter × ApplyResult
  | none => (a, .refused (.malformed "nil group state in create group operation"))
  | some g =>
    stopUnless "create group" (some .consumerGroupExists)
      (a.onGroup g.queueName g.id fun r => r.createConsumerGroup t.order t.now g)

def applyUpdateGroup : Option ConsumerGroup → Adapter × ApplyResult
  | none => (a, .refused (.malformed "nil group state in update group operation"))
  | some g =>
    stopUnless "update group" none
      (a.onGroup g.queueName g.id fun r => (r.updateConsumerGroup g, none))

def applyDeleteGroup (queueName groupId : String) : Adapter × ApplyResult :=
  refuseStale "delete group" (a.onGroup queueName groupId fun r => (r.deleteConsumerGroup, none))

def applyUpdateCursor (queueName groupId : String) (cursor : Nat) : Adapter × ApplyResult :=
  refuseStale "update cursor" (a.onGroup queueName groupId fun r => r.updateCursor cursor)

def applyUpdateCommitted (queueName groupId : String) (committed : Nat) : Adapter × ApplyResult :=
  refuseStale "update committed"
    (a.onGroup queueName groupId fun r => (r.updateCommitted committed, none))

def applyAddPending (queueName groupId : String) : Option PendingEntry → Adapter × ApplyResult
  | none => (a, .refused (.malformed "nil pending entry in add pending operation"))
  | some entry =>
    refuseStale "add pending" (a.onGroup queueName groupId fun r => r.addPendingEntry t.now entry)

/-- `pendingOwner`: who holds an offset, or the consumer the operation names. Reading the group
leaves it synced. -/
def pendingOwner (r : GroupRecord) (consumerId : String) (offset : Nat) : String × GroupRecord :=
  let r := r.getConsumerGroup
  match r.group with
  | none => (consumerId, r)
  | some group =>
    let owner := (group.findPending t.order offset).2
    (if owner ≠ "" then owner else consumerId, r)

/-- `RemovePendingEntry` for the consumer `pendingOwner` finds. -/
def settlePending (consumerId : String) (offset : Nat) (r : GroupRecord) : Outcome :=
  let (owner, r) := pendingOwner t r consumerId offset
  r.removePendingEntry t.order owner offset

/-- `applyRemovePending`. An entry that is settled already is no error. -/
def applyRemovePending (queueName groupId consumerId : String) (offset : Nat) :
    Adapter × ApplyResult :=
  match a.onGroup queueName groupId (settlePending t consumerId offset) with
  | (a, some .pendingEntryNotFound) => (a, .done)
  | outcome => refuseStale "remove pending" outcome

def applyTransferPending (queueName groupId : String) (offset : Nat)
    (fromConsumer toConsumer : String) : Adapter × ApplyResult :=
  refuseStale "transfer pending" (a.onGroup queueName groupId fun r =>
    r.transferPendingEntry t.order t.now offset fromConsumer toConsumer)

def applyRequeuePending (queueName groupId consumerId : String) (offset : Nat)
    (timestamp : Time) : Adapter × ApplyResult :=
  refuseStale "requeue pending" (a.onGroup queueName groupId fun r =>
    let (owner, r) := pendingOwner t r consumerId offset
    r.requeuePendingEntry t.order owner offset timestamp)

def applyRegisterConsumer (queueName groupId : String) :
    Option ConsumerInfo → Adapter × ApplyResult
  | none => (a, .refused (.malformed "nil consumer info in register consumer operation"))
  | some info =>
    refuseStale "register consumer" (a.onGroup queueName groupId fun r => r.registerConsumer info)

def applyUnregisterConsumer (queueName groupId consumerId : String) : Adapter × ApplyResult :=
  refuseStale "unregister consumer"
    (a.onGroup queueName groupId fun r => r.unregisterConsumer consumerId)

/-- `Apply` of a committed operation. -/
def apply : Operation → Adapter × ApplyResult
  | .createQueue config => applyCreateQueue t a config
  | .updateQueue config => applyUpdateQueue a config
  | .deleteQueue queueName => applyDeleteQueue a queueName
  | .append queueName message dedupeKey => applyAppend f t a queueName message dedupeKey
  | .truncate queueName minOffset => applyTruncate t a queueName minOffset
  | .createGroup groupState => applyCreateGroup t a groupState
  | .updateGroup groupState => applyUpdateGroup a groupState
  | .deleteGroup queueName groupId => applyDeleteGroup a queueName groupId
  | .updateCursor queueName groupId cursor => applyUpdateCursor a queueName groupId cursor
  | .updateCommitted queueName groupId committed =>
    applyUpdateCommitted a queueName groupId committed
  | .addPending queueName groupId entry => applyAddPending t a queueName groupId entry
  | .removePending queueName groupId consumerId offset =>
    applyRemovePending t a queueName groupId consumerId offset
  | .transferPending queueName groupId offset fromConsumer toConsumer =>
    applyTransferPending t a queueName groupId offset fromConsumer toConsumer
  | .requeuePending queueName groupId consumerId offset timestamp =>
    applyRequeuePending t a queueName groupId consumerId offset timestamp
  | .registerConsumer queueName groupId info => applyRegisterConsumer a queueName groupId info
  | .unregisterConsumer queueName groupId consumerId =>
    applyUnregisterConsumer a queueName groupId consumerId

end LogFSM

end FluxMQ
