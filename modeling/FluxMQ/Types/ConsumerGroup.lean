import FluxMQ.Library.Keyed
import Mathlib.Data.List.MinMax

/-!
# Consumer group state

The consumer group of `queue/types/log.go`: a cursor with its committed safe point, the Pending
Entry List (PEL) and the membership map, with the methods that read and change them.

The PEL is a map from consumer ID to the entries filed under that consumer. It is modelled as the
list of its entries, each paired with the consumer it is filed under; the order of the entries of
one consumer is the order of the list. Go walks the map in no fixed order, so the methods that
walk it take the order as an argument. Wall-clock times are integers in nanoseconds. `UpdatedAt`
and `CreatedAt`, which no modelled function reads, are left out.
-/

namespace FluxMQ

/-- A point in time, or a duration, in nanoseconds. -/
abbrev Time := Int

/-- One second as a duration. -/
def second : Time := 1000000000

/-- `time.Time.UnixMilli`: the milliseconds since the epoch, rounded down. -/
def unixMilli (t : Time) : Int := t / 1000000

/-- The zero `time.Time`, the start of year one. -/
def zeroTime : Time := -62135596800 * second

/-- `time.UnixMilli`: the time a number of milliseconds stands for. -/
def ofUnixMilli (ms : Int) : Time := ms * 1000000

/-- `ConsumerGroupMode`; `unset` is the empty string of a group whose mode was never named. -/
inductive ConsumerGroupMode where
  | unset
  | queue
  | stream
  deriving Repr, DecidableEq, Inhabited

/-- One message delivered and not yet acknowledged. -/
structure PendingEntry where
  /-- Offset of the message in the queue log. -/
  offset : Nat
  /-- Consumer that currently holds it. -/
  consumerId : String
  /-- Start of the visibility lease. -/
  claimedAt : Time
  /-- Deliveries attempted so far. -/
  deliveryCount : Nat
  deriving Repr, DecidableEq, Inhabited

/-- The two positions of a group. -/
structure QueueCursor where
  /-- Next offset to deliver. -/
  cursor : Nat := 0
  /-- Oldest unacknowledged offset, the safe truncation point. -/
  committed : Nat := 0
  deriving Repr, DecidableEq, Inhabited

/-- The registration of one group member. -/
structure ConsumerInfo where
  id : String
  clientId : String
  proxyNodeId : String
  registeredAt : Time
  lastHeartbeat : Time
  deriving Repr, DecidableEq, Inhabited

/-- A Pending Entry List: every entry with the consumer it is filed under. -/
abbrev Pel := List (String × PendingEntry)

/-- The state of one consumer group. -/
structure ConsumerGroup where
  id : String
  queueName : String
  pattern : String
  mode : ConsumerGroupMode := .queue
  autoCommit : Bool := true
  cursor : QueueCursor := {}
  pel : Pel := []
  consumers : List (String × ConsumerInfo) := []
  deriving Repr, DecidableEq, Inhabited

/-- `NewConsumerGroupState`: a fresh group at the start of the log. -/
def newConsumerGroupState (queueName groupId pattern : String) : ConsumerGroup :=
  { id := groupId, queueName, pattern }

namespace ConsumerGroup

variable (g : ConsumerGroup)

/-- `SetCursorPosition` moves the cursor and leaves the committed safe point alone. -/
def setCursorPosition (cursor : Nat) : ConsumerGroup :=
  { g with cursor := { g.cursor with cursor } }

/-- `SetCommitted` records the committed safe point and leaves the cursor alone. -/
def setCommitted (committed : Nat) : ConsumerGroup :=
  { g with cursor := { g.cursor with committed } }

def setAutoCommit (autoCommit : Bool) : ConsumerGroup :=
  { g with autoCommit }

/-- `AdvanceCommitted` records the safe point and pulls the cursor up to it when it lies behind. -/
def advanceCommitted (committed : Nat) : ConsumerGroup :=
  { g with
    cursor :=
      { cursor := if g.cursor.cursor < committed then committed else g.cursor.cursor
        committed } }

/-- `ClearPending` drops every pending entry. -/
def clearPending : ConsumerGroup :=
  { g with pel := [] }

def replacePEL (pel : Pel) : ConsumerGroup :=
  { g with pel }

/-- `AddPending` files an entry under a consumer. -/
def addPending (consumerId : String) (entry : PendingEntry) : ConsumerGroup :=
  { g with pel := g.pel ++ [(consumerId, entry)] }

/-- The filed entry at `offset` in one consumer's list. -/
def isFiled (consumerId : String) (offset : Nat) (p : String × PendingEntry) : Bool :=
  p.1 == consumerId && p.2.offset == offset

/-- `RemovePending` removes the first entry at `offset` filed under the consumer. -/
def removePending (consumerId : String) (offset : Nat) : ConsumerGroup :=
  { g with pel := g.pel.eraseP (isFiled consumerId offset) }

/-- `FindPending` returns the entry at `offset` and the consumer it is filed under, or the empty
owner when no entry is found. -/
def findPending (order : IterationOrder (String × PendingEntry)) (offset : Nat) :
    PendingEntry × String :=
  match (order.walk g.pel).find? (fun p => p.2.offset == offset) with
  | some p => (p.2, p.1)
  | none => (default, "")

/-- `RequeuePending` moves the lease of one entry; the flag says whether it was found. -/
def requeuePending (offset : Nat) (consumerId : String) (attemptedAt : Time) :
    ConsumerGroup × Bool :=
  if g.pel.any (isFiled consumerId offset) then
    ({ g with
        pel := g.pel.updateFirst (isFiled consumerId offset) fun p =>
          (p.1, { p.2 with claimedAt := attemptedAt }) }, true)
  else (g, false)

/-- `TransferPending` moves an entry from one consumer to another and counts a delivery. -/
def transferPending (now : Time) (offset : Nat) (fromConsumer toConsumer : String) :
    ConsumerGroup :=
  match g.pel.find? (isFiled fromConsumer offset) with
  | none => g
  | some p =>
    let entry := { p.2 with
      consumerId := toConsumer, claimedAt := now, deliveryCount := p.2.deliveryCount + 1 }
    { g with pel := g.pel.eraseP (isFiled fromConsumer offset) ++ [(toConsumer, entry)] }

/-- The offsets of all pending entries. -/
def pendingOffsets : List Nat :=
  g.pel.map fun p => p.2.offset

/-- `MinPendingOffset`: the smallest pending offset, if any entry is pending. -/
def minPendingOffset : Option Nat :=
  g.pendingOffsets.min?

def pendingCount : Nat :=
  g.pel.length

def pendingCountFor (consumerId : String) : Nat :=
  (g.pel.filter fun p => p.1 == consumerId).length

/-- Whether a consumer is registered. -/
def isRegistered (consumerId : String) : Bool :=
  g.consumers.any fun c => c.1 == consumerId

/-- `StealableEntries`: the entries of other consumers whose lease has lapsed or whose owner left
the group. -/
def stealableEntries (order : IterationOrder (String × PendingEntry)) (now : Time)
    (visibilityTimeout : Time) (excludeConsumer : String) : List PendingEntry :=
  let cutoff := now - visibilityTimeout
  ((order.walk g.pel).filter fun p =>
    p.1 != excludeConsumer && (!g.isRegistered p.1 || decide (p.2.claimedAt < cutoff))).map
      fun p => p.2

def getConsumer (consumerId : String) : Option ConsumerInfo :=
  (g.consumers.find? fun c => c.1 == consumerId).map fun c => c.2

/-- `SetConsumer` adds or replaces a registration. -/
def setConsumer (consumerId : String) (info : ConsumerInfo) : ConsumerGroup :=
  { g with consumers := (consumerId, info) :: g.consumers.filter fun c => c.1 != consumerId }

def deleteConsumer (consumerId : String) : ConsumerGroup :=
  { g with consumers := g.consumers.filter fun c => c.1 != consumerId }

end ConsumerGroup

end FluxMQ
