import FluxMQ.Logstorage.ConsumerState

/-!
# The operation log of a consumer state

`logstorage/consumer_state.go` persists a consumer state by appending every operation to `ops.log`
and, now and then, writing snapshots and emptying the log. Every public method changes the state
in memory and then writes what it did as a record; opening the state again applies the records,
in order, to the snapshots.

A record of a batch stands for several changes. `LogOperation.effects` is the list of single
changes a record stands for, and everything that is proved about records is proved about these.
-/

namespace FluxMQ

/-- `OpType`: the operations of a consumer state that are logged. -/
inductive OpType where
  | deliver
  | ack
  | ackBatch
  | nack
  | claim
  | claimBatch
  | advanceFloor
  | setCursor
  | restorePending
  | release
  deriving Repr, DecidableEq

/-- `logstorage.Operation`: one record of the log. A field that the record's type does not use has
its zero value. -/
structure LogOperation where
  type : OpType
  offset : Nat := 0
  /-- The offsets of a batch. -/
  offsets : List Nat := []
  consumerId : String := ""
  timestamp : Int := 0
  /-- The attempt count of a restored entry. -/
  deliveryCount : UInt16 := 0
  deriving Repr, DecidableEq

/-- One change to a consumer state. -/
inductive StateEffect where
  | deliver (offset : Nat) (consumerId : String) (ts : Int)
  | ack (offset : Nat)
  | nack (offset : Nat) (ts : Int)
  | claim (offset : Nat) (consumerId : String) (ts : Int)
  | advanceFloor (floor : Nat)
  | setCursor (cursor : Nat)
  | restorePending (offset : Nat) (consumerId : String) (ts : Int) (deliveryCount : UInt16)
  | release (offset : Nat) (ts : Int)
  deriving Repr, DecidableEq

/-- The changes a record stands for, in order. -/
def LogOperation.effects (op : LogOperation) : List StateEffect :=
  match op.type with
  | .deliver => [.deliver op.offset op.consumerId op.timestamp]
  | .ack => [.ack op.offset]
  | .ackBatch => op.offsets.map .ack
  | .nack => [.nack op.offset op.timestamp]
  | .claim => [.claim op.offset op.consumerId op.timestamp]
  | .claimBatch => op.offsets.map fun offset => .claim offset op.consumerId op.timestamp
  | .advanceFloor => [.advanceFloor op.offset]
  | .setCursor => [.setCursor op.offset]
  | .restorePending => [.restorePending op.offset op.consumerId op.timestamp op.deliveryCount]
  | .release => [.release op.offset op.timestamp]

namespace ConsumerState

variable (cs : ConsumerState)

def applyOp (op : LogOperation) : ConsumerState :=
  match op.type with
  | .deliver => cs.applyDeliver op.offset op.consumerId op.timestamp
  | .ack => cs.applyAck op.offset
  | .ackBatch => op.offsets.foldl (fun cs offset => cs.applyAck offset) cs
  | .nack => cs.applyNack op.offset op.timestamp
  | .claim => cs.applyClaim op.offset op.consumerId op.timestamp
  | .claimBatch =>
    op.offsets.foldl (fun cs offset => cs.applyClaim offset op.consumerId op.timestamp) cs
  | .advanceFloor => cs.applyAdvanceFloor op.offset
  | .setCursor => cs.applySetCursor op.offset
  | .restorePending =>
    cs.applyRestorePending op.offset op.consumerId op.timestamp op.deliveryCount
  | .release => cs.applyRelease op.offset op.timestamp

/-- Make one change. -/
def applyEffect : StateEffect → ConsumerState
  | .deliver offset consumerId ts => cs.applyDeliver offset consumerId ts
  | .ack offset => cs.applyAck offset
  | .nack offset ts => cs.applyNack offset ts
  | .claim offset consumerId ts => cs.applyClaim offset consumerId ts
  | .advanceFloor floor => cs.applyAdvanceFloor floor
  | .setCursor cursor => cs.applySetCursor cursor
  | .restorePending offset consumerId ts deliveryCount =>
    cs.applyRestorePending offset consumerId ts deliveryCount
  | .release offset ts => cs.applyRelease offset ts

/-- A record applies the changes it stands for. -/
lemma applyOp_eq (op : LogOperation) : cs.applyOp op = op.effects.foldl applyEffect cs := by
  unfold applyOp LogOperation.effects
  -- Only the two batches are more than one change.
  cases op.type <;> simp only [List.foldl_map, List.foldl_cons, List.foldl_nil, applyEffect]

/-- Applying records in order. -/
def replay (ops : List LogOperation) : ConsumerState :=
  ops.foldl applyOp cs

/-- Replaying records makes all their changes. -/
lemma replay_eq (ops : List LogOperation) :
    cs.replay ops = (ops.flatMap LogOperation.effects).foldl applyEffect cs := by
  rw [replay, List.foldl_flatMap]
  congr 1
  funext cs op
  exact applyOp_eq cs op

end ConsumerState

/-! ### The public methods -/

/-- A call of a public method that changes a consumer state, with the clock readings it makes: a
method reads the clock for the entry it writes, or only for its record, or not at all. -/
inductive StateCall where
  | deliver (now : Time) (offset : Nat) (consumerId : String)
  | deliverBatch (now : Time) (offsets : List Nat) (consumerId : String)
  | ack (now : Time) (offset : Nat)
  | ackBatch (now : Time) (offsets : List Nat)
  | nackAt (offset : Nat) (attemptedAt : Time)
  | releaseAt (offset : Nat) (attemptedAt : Time)
  | claim (now : Time) (offset : Nat) (newConsumerId : String)
  | claimBatch (now : Time) (offsets : List Nat) (newConsumerId : String)
  | setCursor (now : Time) (cursor : Nat)
  | restorePending (now : Time) (offset : Nat) (consumerId : String) (claimedAt : Time)
      (deliveryCount : UInt16)
  | restoreAckFloor (now : Time) (floor : Nat)
  deriving Repr, DecidableEq

namespace StateCall

/-- What a call does to the state in memory. -/
def onState (cs : ConsumerState) : StateCall → ConsumerState
  | .deliver now offset consumerId => cs.deliver now offset consumerId
  | .deliverBatch now offsets consumerId =>
    offsets.foldl (fun cs offset => cs.applyDeliver offset consumerId (unixMilli now)) cs
  | .ack _ offset => cs.applyAck offset
  | .ackBatch _ offsets => offsets.foldl (fun cs offset => cs.applyAck offset) cs
  | .nackAt offset attemptedAt => cs.applyNack offset (unixMilli attemptedAt)
  | .releaseAt offset attemptedAt => cs.releaseAt offset attemptedAt
  | .claim now offset newConsumerId => cs.claim now offset newConsumerId
  | .claimBatch now offsets newConsumerId =>
    offsets.foldl (fun cs offset => cs.applyClaim offset newConsumerId (unixMilli now)) cs
  | .setCursor _ cursor => cs.applySetCursor cursor
  | .restorePending now offset consumerId claimedAt deliveryCount =>
    cs.restorePending now offset consumerId claimedAt deliveryCount
  | .restoreAckFloor _ floor => cs.applyAdvanceFloor floor

/-- The records a call writes. A batch of deliveries is written as single records. -/
def records : StateCall → List LogOperation
  | .deliver now offset consumerId =>
    [{ type := .deliver, offset, consumerId, timestamp := unixMilli now }]
  | .deliverBatch now offsets consumerId =>
    offsets.map fun offset => { type := .deliver, offset, consumerId, timestamp := unixMilli now }
  | .ack now offset => [{ type := .ack, offset, timestamp := unixMilli now }]
  | .ackBatch now offsets => [{ type := .ackBatch, offsets, timestamp := unixMilli now }]
  | .nackAt offset attemptedAt => [{ type := .nack, offset, timestamp := unixMilli attemptedAt }]
  | .releaseAt offset attemptedAt =>
    [{ type := .release, offset, timestamp := unixMilli attemptedAt }]
  | .claim now offset newConsumerId =>
    [{ type := .claim, offset, consumerId := newConsumerId, timestamp := unixMilli now }]
  | .claimBatch now offsets newConsumerId =>
    [{ type := .claimBatch, offsets, consumerId := newConsumerId, timestamp := unixMilli now }]
  | .setCursor now cursor => [{ type := .setCursor, offset := cursor, timestamp := unixMilli now }]
  | .restorePending now offset consumerId claimedAt deliveryCount =>
    [{ type := .restorePending, offset, consumerId, deliveryCount
       timestamp := unixMilli (if claimedAt = zeroTime then now else claimedAt) }]
  | .restoreAckFloor now floor =>
    [{ type := .advanceFloor, offset := floor, timestamp := unixMilli now }]

/-- Replaying the records of a call does what the call did. -/
lemma replay_records (cs : ConsumerState) (call : StateCall) :
    cs.replay call.records = call.onState cs := by
  cases call with
  | deliverBatch now offsets consumerId =>
    rw [ConsumerState.replay, records, List.foldl_map]
    rfl
  | _ => rfl

end StateCall

end FluxMQ
