import FluxMQ.Logstorage.Adapter

/-!
# The operations of the consumer group store

The consumer group store is an interface of `queue/storage`, which the adapter implements. A
`GroupOp` is a call of it with its arguments and with what the adapter reads from its surroundings
while it serves the call.
-/

namespace FluxMQ

/-- A queue name and a group ID. -/
abbrev GroupKey := String × String

/-- The queue and the ID that a group's own fields name. -/
def ConsumerGroup.key (g : ConsumerGroup) : GroupKey :=
  (g.queueName, g.id)

/-- An operation of the adapter on one consumer group. -/
inductive GroupOp where
  | create (t : StoreReadings) (g : ConsumerGroup)
  | update (g : ConsumerGroup)
  | delete (key : GroupKey)
  | get (key : GroupKey)
  | addPending (key : GroupKey) (now : Time) (entry : PendingEntry)
  | removePending (key : GroupKey) (t : StoreReadings) (consumerId : String) (offset : Nat)
  | transferPending (key : GroupKey) (t : StoreReadings) (offset : Nat)
      (fromConsumer toConsumer : String)
  | requeuePending (key : GroupKey) (t : StoreReadings) (consumerId : String) (offset : Nat)
      (attemptedAt : Time)
  | updateCursor (key : GroupKey) (cursor : Nat)
  | updateCommitted (key : GroupKey) (committed : Nat)
  | registerConsumer (key : GroupKey) (info : ConsumerInfo)
  | unregisterConsumer (key : GroupKey) (consumerId : String)

namespace GroupOp

/-- The group that an operation is on. -/
def key : GroupOp → GroupKey
  | .create _ g | .update g => g.key
  | .delete key | .get key | .addPending key _ _ | .removePending key _ _ _
  | .transferPending key _ _ _ _ | .requeuePending key _ _ _ _ | .updateCursor key _
  | .updateCommitted key _ | .registerConsumer key _ | .unregisterConsumer key _ => key

/-- What an operation does to what is stored for its group. -/
def run (r : GroupRecord) : GroupOp → Outcome
  | .create t g => r.createConsumerGroup t.order t.now g
  | .update g => (r.updateConsumerGroup g, none)
  | .delete _ => (r.deleteConsumerGroup, none)
  | .get _ => (r.getConsumerGroup, none)
  | .addPending _ now entry => r.addPendingEntry now entry
  | .removePending _ t consumerId offset => r.removePendingEntry t.order consumerId offset
  | .transferPending _ t offset fromConsumer toConsumer =>
    r.transferPendingEntry t.order t.now offset fromConsumer toConsumer
  | .requeuePending _ t consumerId offset attemptedAt =>
    r.requeuePendingEntry t.order consumerId offset attemptedAt
  | .updateCursor _ cursor => r.updateCursor cursor
  | .updateCommitted _ committed => (r.updateCommitted committed, none)
  | .registerConsumer _ info => r.registerConsumer info
  | .unregisterConsumer _ consumerId => r.unregisterConsumer consumerId

end GroupOp

/-- Serve a call of the consumer group store. -/
def Adapter.performOp (a : Adapter) (op : GroupOp) : Adapter × Option StoreError :=
  a.onGroup op.key.1 op.key.2 fun r => op.run r

end FluxMQ
