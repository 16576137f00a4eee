import FluxMQ.Consumer.Scan
import FluxMQ.Logstorage.GroupRecord
import Mathlib.Data.List.Sort

/-!
# The consumer group manager

The operations of `queue/consumer/manager.go` on one consumer group, each under that group's lock.
An operation reads and writes the group through the storage adapter and hands out messages, which
the model names by their offsets.

The manager reads the clock many times in one operation, and walks the PEL in map order. Both are
inputs here: a `Readings` holds what the readings of one inner call return and the order of its
walks. `ClaimBatch` makes several inner calls and takes one `Readings` for each.

A dead-letter transfer releases the group lock while the destination is written, so `Reject` and
`SweepPoison` are two operations each: `prepareTransfer` and `finishTransfer`, and
`preparePoisonTransfer` and `finishPoisonTransfer`. Metrics, gauges and logging are left out.
-/

namespace FluxMQ

/-- The fields of `consumer.Config` that the operations read. -/
structure ManagerConfig where
  /-- How long a claimed message cannot be stolen. -/
  visibilityTimeout : Time := 30 * second
  /-- Deliveries after which an entry is poison. -/
  maxDeliveryCount : Nat := 5
  claimBatchSize : Nat := 10
  /-- Interval between auto-commits of a stream group; zero commits every time. -/
  autoCommitInterval : Time := 5 * second
  /-- Zero skips no heartbeat write. -/
  heartbeatRefresh : Time := 0
  /-- Capacity of the PEL; zero means unlimited. -/
  maxPELSize : Nat := 100000
  /-- A dead-letter handler is configured. -/
  onDLQ : Bool := true
  dlqRetryBackoff : Time := 30 * second
  /-- Records examined by one scan. -/
  maxCursorScan : Nat := FluxMQ.maxCursorScan

/-- The errors of the manager. `scanIncomplete` wraps `noMessages`. -/
inductive ManagerError where
  | noMessages
  | scanIncomplete
  | groupNotFound
  | consumerNotFound
  | messageNotPending
  | invalidOffset
  | groupModeMismatch
  | commitOffsetOnlyForStreamMode
  | commitOffsetNotMonotonic
  | pelFull
  | dlqHandlerUnavailable
  | transferInProgress
  | dlqTransfer
  | read (err : ReadError)
  | store (err : StoreError)
  deriving Repr, DecidableEq

/-- `errors.Is(err, ErrNoMessages)`. -/
def ManagerError.isNoMessages : ManagerError → Bool
  | .noMessages | .scanIncomplete => true
  | _ => false

/-- What one inner call reads from its surroundings. -/
structure Readings where
  /-- The clock when the record at an offset is checked for expiry. -/
  checkedAt : Nat → Time
  /-- The clock when `StealableEntries` computes its cutoff. -/
  stealAt : Time
  /-- The clock when a consumer's own leases are checked. -/
  lapseAt : Time
  /-- The clock when a new entry is claimed. -/
  claimedAt : Time
  /-- The clock when the store stamps an entry. -/
  storedAt : Time
  /-- The clock when poison bookkeeping is updated. -/
  poisonAt : Time
  /-- The clock when an auto-commit may be due. -/
  commitAt : Time
  /-- The order in which the PEL is walked. -/
  order : IterationOrder (String × PendingEntry)

/-- Every reading taken at the same moment, with the PEL walked in list order. -/
def Readings.allAt (now : Time) : Readings :=
  { checkedAt := fun _ => now, stealAt := now, lapseAt := now, claimedAt := now, storedAt := now,
    poisonAt := now, commitAt := now, order := IterationOrder.listOrder _ }

/-! ### Poison bookkeeping -/

/-- Why one pending entry has not been dead-lettered. -/
structure PoisonState where
  retryAfter : Time := zeroTime
  noDestination : Bool := false
  deriving Repr, DecidableEq

/-- The tracked poison entries of the group, keyed by offset. -/
abbrev Poison := List (Nat × PoisonState)

namespace Poison

variable (poison : Poison)

/-- `entries[offset] = state`. -/
def set (offset : Nat) (state : PoisonState) : Poison :=
  (offset, state) :: poison.filter fun p => p.1 != offset

/-- `forgetPoison`. -/
def forget (offset : Nat) : Poison :=
  poison.filter fun p => p.1 != offset

/-- `prunePoison` drops tracked entries that are no longer pending. -/
def prune (group : ConsumerGroup) : Poison :=
  poison.filter fun p => group.pendingOffsets.contains p.1

/-- `trackPoisonForSweep`: put the entry on the work list and say whether the sweeper owns it. -/
def trackForSweep (offset : Nat) : Bool × Poison :=
  match poison.lookup offset with
  | some state => (!state.noDestination, poison)
  | none => (true, poison.set offset {})

/-- `dlqTransferDue`: whether a transfer may be attempted, recording the attempt. -/
def transferDue (cfg : ManagerConfig) (now : Time) (offset : Nat) : Bool × Poison :=
  match poison.lookup offset with
  | some state =>
    if now < state.retryAfter then (false, poison)
    else (true, poison.set offset { state with retryAfter := now + cfg.dlqRetryBackoff })
  | none => (true, poison.set offset { retryAfter := now + cfg.dlqRetryBackoff })

/-- `markPoisonWithoutDestination`. -/
def markWithoutDestination (offset : Nat) : Poison :=
  poison.set offset { (poison.lookup offset).getD {} with noDestination := true }

/-- `reportPoisonWithoutDLQ`. -/
def reportWithoutDLQ (cfg : ManagerConfig) (now : Time) (offset : Nat) : Poison :=
  ((poison.markWithoutDestination offset).transferDue cfg now offset).2

/-- `scheduleNextPoisonAttempt`. -/
def scheduleNextAttempt (cfg : ManagerConfig) (now : Time) (offset : Nat) : Poison :=
  match poison.lookup offset with
  | some state => poison.set offset { state with retryAfter := now + cfg.dlqRetryBackoff }
  | none => poison

/-- `poisonWorkList`: the entries whose retry time has come. -/
def workList (now : Time) : List Nat :=
  (poison.filter fun p => !decide (now < p.2.retryAfter)).map fun p => p.1

/-- `deferPoisonTransfer`: whether the sweeper owns the exhausted entry now. -/
def deferTransfer (cfg : ManagerConfig) (now : Time) (offset : Nat) : Bool × Poison :=
  if cfg.onDLQ then poison.trackForSweep offset
  else (false, poison.reportWithoutDLQ cfg now offset)

end Poison

/-! ### Claiming -/

/-- `claimFromCursor`: claim the next eligible record behind the cursor. -/
def claimFromCursor (cfg : ManagerConfig) (log : Log) (t : Readings) (consumerId : String)
    (filter : Filter) (r : GroupRecord) : Except ManagerError Nat × GroupRecord :=
  if 0 < cfg.maxPELSize ∧ cfg.maxPELSize ≤ r.live.pendingCount then (.error .pelFull, r)
  else
    let start := scanStart log r.live.cursor.cursor
    let ok := fun offset =>
      eligible log filter r.live.queueName (t.checkedAt offset) offset
    match scanCursor ok log.tail cfg.maxCursorScan start with
    | (some offset, next) =>
      let entry :=
        { offset, consumerId, claimedAt := t.claimedAt, deliveryCount := 1 : PendingEntry }
      match (r.addPendingEntry t.storedAt entry).andThen fun r => r.updateCursor next with
      | (r, none) => (.ok offset, r)
      | (r, some err) => (.error (.store err), r)
    | (none, next) =>
      let stop := if next < log.tail then ManagerError.scanIncomplete else .noMessages
      if start < next then
        -- The group is read again, so that the cursor never moves backwards.
        let r := r.getConsumerGroup
        if r.live.cursor.cursor < next then
          match r.updateCursor next with
          | (r, none) => (.error stop, r)
          | (r, some err) => (.error (.store err), r)
        else (.error stop, r)
      else (.error stop, r)

/-- The loop of `stealWorkFrom` over the stealable entries. Returns the offset it took over. -/
def stealLoop (cfg : ManagerConfig) (log : Log) (transfers : List Nat) (t : Readings)
    (queueName consumerId : String) (filter : Filter) (ownerOnly : String) :
    List PendingEntry → GroupRecord → Poison → Option Nat × GroupRecord × Poison
  | [], r, poison => (none, r, poison)
  | entry :: rest, r, poison =>
    let continueWith := stealLoop cfg log transfers t queueName consumerId filter ownerOnly rest
    let remove := (r.removePendingEntry t.order entry.consumerId entry.offset).1
    if ownerOnly ≠ "" ∧ entry.consumerId ≠ ownerOnly then continueWith r poison
    -- A consumer takes its own entry back only once the lease has lapsed.
    else if ownerOnly ≠ "" ∧ ¬ entry.claimedAt < t.lapseAt - cfg.visibilityTimeout then
      continueWith r poison
    else if entry.offset ∈ transfers then continueWith r poison
    else
      let deferred :=
        if cfg.maxDeliveryCount ≤ entry.deliveryCount then
          poison.deferTransfer cfg t.poisonAt entry.offset
        else (false, poison)
      if deferred.1 then continueWith r deferred.2
      else
        match log.read entry.offset with
        | .error .undecodableRecord => continueWith remove deferred.2
        | .error .offsetOutOfRange => continueWith r deferred.2
        | .ok e =>
          if e.isExpired (t.checkedAt entry.offset) then continueWith remove deferred.2
          else if !filter.admits queueName e then continueWith r deferred.2
          else
            match r.transferPendingEntry t.order t.storedAt entry.offset entry.consumerId
                consumerId with
            | (r, none) => (some entry.offset, r, deferred.2)
            | (r, some _) => continueWith r deferred.2

/-- `stealWorkFrom`: claim one lapsed pending entry. -/
def stealWorkFrom (cfg : ManagerConfig) (log : Log) (transfers : List Nat) (t : Readings)
    (consumerId : String) (filter : Filter) (excludeConsumer ownerOnly : String) (r : GroupRecord)
    (poison : Poison) : Option Nat × GroupRecord × Poison :=
  stealLoop cfg log transfers t r.live.queueName consumerId filter ownerOnly
    (r.live.stealableEntries t.order t.stealAt cfg.visibilityTimeout excludeConsumer) r
    (poison.prune r.live)

/-! ### State of the manager -/

/-- The manager's state for one group, with the queue log and the stored group it works on. -/
structure Manager where
  /-- The queue log. -/
  log : Log := {}
  /-- The stored group. -/
  record : GroupRecord := {}
  /-- Offsets reserved by a running dead-letter transfer. -/
  transfers : List Nat := []
  /-- Tracked poison entries. -/
  poison : Poison := []
  /-- The group's last auto-commit. -/
  lastCommit : Option Time := none

/-- What an operation returns: the messages it hands out, by offset, and its error. -/
structure Reply where
  messages : List Nat := []
  error : Option ManagerError := none
  deriving Repr, DecidableEq

namespace Manager

variable (cfg : ManagerConfig) (m : Manager)

/-- Run the body of an operation on the group `GetConsumerGroup` returns. -/
def withGroup (body : ConsumerGroup → Manager → Reply × Manager) : Reply × Manager :=
  let m := { m with record := m.record.getConsumerGroup }
  match m.record.group with
  | none => ({ error := some .groupNotFound }, m)
  | some group => body group m

/-- `GetOrCreateConfiguredGroup` on a group that exists. -/
def configureGroup (mode : ConsumerGroupMode) (autoCommit configureAutoCommit : Bool) :
    Reply × Manager :=
  m.withGroup fun group m =>
    if mode ≠ .unset ∧ group.mode = .unset then
      let group := { group with mode }.setAutoCommit autoCommit
      ({}, { m with record := m.record.updateConsumerGroup group })
    else if mode ≠ .unset ∧ group.mode ≠ mode then
      ({ error := some .groupModeMismatch }, m)
    else if configureAutoCommit ∧ group.autoCommit ≠ autoCommit then
      ({}, { m with record := m.record.updateConsumerGroup (applyAutoCommit group autoCommit) })
    else ({}, m)
where
  /-- `applyAutoCommitLocked` moves a stream group from one settlement contract to the other. -/
  applyAutoCommit (group : ConsumerGroup) (autoCommit : Bool) : ConsumerGroup :=
    if group.mode ≠ .stream then group.setAutoCommit autoCommit
    else
      let group :=
        if group.cursor.committed < group.cursor.cursor then
          group.setCommitted group.cursor.cursor
        else group
      let group := if autoCommit then group.clearPending else group
      group.setAutoCommit autoCommit

/-- Report the error of a storage operation that has no other result. -/
def reportStore (outcome : Outcome) : Reply × Manager :=
  ({ error := outcome.2.map .store }, { m with record := outcome.1 })

def registerConsumer (info : ConsumerInfo) : Reply × Manager :=
  m.reportStore (m.record.registerConsumer info)

/-- `UnregisterConsumer` leaves the pending entries of the consumer alone. -/
def unregisterConsumer (consumerId : String) : Reply × Manager :=
  m.reportStore (m.record.unregisterConsumer consumerId)

def updateHeartbeat (now : Time) (consumerId : String) : Reply × Manager :=
  m.withGroup fun group m =>
    match group.getConsumer consumerId with
    | none => ({ error := some .consumerNotFound }, m)
    | some current =>
      if 0 < cfg.heartbeatRefresh ∧ now - current.lastHeartbeat < cfg.heartbeatRefresh then ({}, m)
      else m.reportStore (m.record.registerConsumer { current with lastHeartbeat := now })

def cleanupStaleConsumers (now timeout : Time) : Reply × Manager :=
  m.withGroup fun group m =>
    let removed := (group.consumers.filter fun c =>
      decide (c.2.lastHeartbeat < now - timeout)).map fun c => c.1
    if removed = [] then ({}, m)
    else
      let group := removed.foldl (fun g id => g.deleteConsumer id) group
      ({}, { m with record := m.record.updateConsumerGroup group })

/-! ### Claims -/

/-- `stealWork` inside an operation. -/
def steal (t : Readings) (consumerId : String) (filter : Filter)
    (excludeConsumer ownerOnly : String) : Option Nat × Manager :=
  let (taken, record, poison) := stealWorkFrom cfg m.log m.transfers t consumerId filter
    excludeConsumer ownerOnly m.record m.poison
  (taken, { m with record, poison })

/-- The reply of a claim that took at most one message. -/
def replyOne : Option Nat → Reply
  | some offset => { messages := [offset] }
  | none => { error := some .noMessages }

def claim (t : Readings) (consumerId : String) (filter : Filter) : Reply × Manager :=
  m.withGroup fun _ m =>
    match claimFromCursor cfg m.log t consumerId filter m.record with
    | (.ok offset, record) => ({ messages := [offset] }, { m with record })
    | (.error err, record) =>
      let m := { m with record }
      if err.isNoMessages then
        let (taken, m) := m.steal cfg t consumerId filter consumerId ""
        (replyOne taken, m)
      else ({ error := some err }, m)

/-- The first loop of `ClaimBatch`: claim from the cursor until `n` messages are taken. -/
def claimLoop (ts : Nat → Readings) (consumerId : String) (filter : Filter) :
    Nat → Manager → List Nat × Option ManagerError × Manager
  | 0, m => ([], none, m)
  | n + 1, m =>
    match claimFromCursor cfg m.log (ts n) consumerId filter m.record with
    | (.error err, record) => ([], some err, { m with record })
    | (.ok offset, record) =>
      let (rest, err, m) := claimLoop ts consumerId filter n { m with record }
      (offset :: rest, err, m)

/-- The second loop of `ClaimBatch`: steal until `n` messages are taken. -/
def stealMany (ts : Nat → Readings) (consumerId : String) (filter : Filter) :
    Nat → Manager → List Nat × Manager
  | 0, m => ([], m)
  | n + 1, m =>
    match m.steal cfg (ts n) consumerId filter consumerId "" with
    | (none, m) => ([], m)
    | (some offset, m) =>
      let (rest, m) := stealMany ts consumerId filter n m
      (offset :: rest, m)

/-- The batch size a caller's limit stands for. -/
def batchLimit (limit : Int) : Nat :=
  if limit ≤ 0 then cfg.claimBatchSize else limit.toNat

/-- `ClaimBatch`; `claims` and `steals` are the readings of the calls of its two loops. -/
def claimBatch (claims steals : Nat → Readings) (consumerId : String) (filter : Filter)
    (limit : Int) : Reply × Manager :=
  m.withGroup fun _ m =>
    let limit := batchLimit cfg limit
    let (claimed, err, m) := claimLoop cfg claims consumerId filter limit m
    match err.filter fun err => !err.isNoMessages && err != .pelFull with
    | some err => ({ messages := claimed, error := some err }, m)
    | none =>
      let (stolen, m) := stealMany cfg steals consumerId filter (limit - claimed.length) m
      if claimed ++ stolen = [] then
        ({ error := some (if err = some .scanIncomplete then .scanIncomplete else .noMessages) }, m)
      else ({ messages := claimed ++ stolen }, m)

/-- `ClaimManualStream`; `t` and `t'` are the readings of its two inner calls. -/
def claimManualStream (t t' : Readings) (consumerId : String) (filter : Filter) :
    Reply × Manager :=
  m.withGroup fun group m =>
    if group.mode ≠ .stream ∨ group.autoCommit then ({ error := some .groupModeMismatch }, m)
    else if 0 < group.pendingCountFor consumerId then
      let (taken, m) := m.steal cfg t consumerId filter "" consumerId
      (replyOne taken, m)
    else
      match m.steal cfg t consumerId filter consumerId "" with
      | (some offset, m) => ({ messages := [offset] }, m)
      | (none, m) =>
        match claimFromCursor cfg m.log t' consumerId filter m.record with
        | (.ok offset, record) => ({ messages := [offset] }, { m with record })
        | (.error err, record) => ({ error := some err }, { m with record })

/-- Oldest claim first, by offset among equals. -/
def claimedBefore (a b : PendingEntry) : Prop :=
  a.claimedAt < b.claimedAt ∨ (a.claimedAt = b.claimedAt ∧ a.offset ≤ b.offset)

instance : DecidableRel claimedBefore := fun _ _ => inferInstanceAs (Decidable (_ ∨ _))

/-- Go on after a storage write, or report its error. -/
def afterWrite {α : Type} (outcome : Outcome)
    (next : GroupRecord → Except ManagerError α × GroupRecord) :
    Except ManagerError α × GroupRecord :=
  match outcome with
  | (r, some err) => (.error (.store err), r)
  | (r, none) => next r

/-- The loop of `ClaimPendingBatch` over the selected entries. -/
def claimPendingLoop (log : Log) (t : Readings) (consumerId : String) :
    List PendingEntry → GroupRecord → Except ManagerError (List Nat) × GroupRecord
  | [], r => (.ok [], r)
  | entry :: rest, r =>
    let drop := afterWrite (r.removePendingEntry t.order entry.consumerId entry.offset)
      (claimPendingLoop log t consumerId rest)
    match log.read entry.offset with
    | .error .undecodableRecord => drop
    | .error err => (.error (.read err), r)
    | .ok e =>
      if e.isExpired (t.checkedAt entry.offset) then drop
      else
        afterWrite (r.transferPendingEntry t.order t.storedAt entry.offset entry.consumerId
          consumerId) fun r =>
            match claimPendingLoop log t consumerId rest r with
            | (.ok taken, r) => (.ok (entry.offset :: taken), r)
            | (.error err, r) => (.error err, r)

/-- The entries `ClaimPendingBatch` selects: the oldest of those idle for `minIdle`. -/
def selectPending (group : ConsumerGroup) (t : Readings) (consumerId : String) (minIdle : Time)
    (limit : Nat) : List PendingEntry :=
  ((group.stealableEntries t.order t.stealAt minIdle consumerId).insertionSort
    claimedBefore).take limit

/-- `ClaimPendingBatch` does not look at the reserved offsets. -/
def claimPendingBatch (t : Readings) (consumerId : String) (minIdle : Time) (limit : Int) :
    Reply × Manager :=
  m.withGroup fun group m =>
    if group.mode = .stream then ({ error := some .groupModeMismatch }, m)
    else
      let entries := selectPending group t consumerId minIdle (batchLimit cfg limit)
      match claimPendingLoop m.log t consumerId entries m.record with
      | (.error err, record) => ({ error := some err }, { m with record })
      | (.ok [], record) => ({ error := some .noMessages }, { m with record })
      | (.ok taken, record) => ({ messages := taken }, { m with record })

/-! ### Stream cursors -/

/-- `autoCommitDue`: whether the auto-commit interval has elapsed, recording the attempt. -/
def autoCommitDue (now : Time) : Bool × Manager :=
  match m.lastCommit with
  | some last =>
    if now - last < cfg.autoCommitInterval then (false, m)
    else (true, { m with lastCommit := some now })
  | none => (true, { m with lastCommit := some now })

/-- The commit at the end of `updateStreamCursorLocked`, if one is due. -/
def autoCommitCursor (t : Readings) (newCursor : Nat) : Manager :=
  if !m.record.live.autoCommit then m
  else if cfg.autoCommitInterval ≤ 0 then { m with record := m.record.updateCommitted newCursor }
  else
    let (due, m) := m.autoCommitDue cfg t.commitAt
    if due then { m with record := m.record.updateCommitted newCursor } else m

/-- `updateStreamCursorLocked` moves the cursor forward and commits it when a commit is due. -/
def updateStreamCursor (t : Readings) (newCursor : Nat) : Option ManagerError × Manager :=
  if newCursor ≤ m.record.live.cursor.cursor then (none, m)
  else
    match m.record.updateCursor newCursor with
    | (record, some err) => (some (.store err), { m with record })
    | (record, none) => (none, { m with record }.autoCommitCursor cfg t newCursor)

/-- The scan of `peekBatchStreamLocked`: the batch and where it stopped. -/
def scanStream (t : Readings) (filter : Filter) (limit : Nat) : List Nat × Nat :=
  scanBatch (fun offset => eligible m.log filter m.record.live.queueName (t.checkedAt offset) offset)
    m.log.tail cfg.maxCursorScan limit (scanStart m.log m.record.live.cursor.cursor)

/-- `peekBatchStreamLocked`: the batch, where it stopped, and the error. A scan that finds nothing
moves the cursor itself. -/
def peekBatch (t : Readings) (filter : Filter) (limit : Nat) :
    List Nat × Nat × Option ManagerError × Manager :=
  let cursor := m.record.live.cursor.cursor
  let (messages, newCursor) := m.scanStream cfg t filter limit
  if messages = [] then
    match m.updateStreamCursor cfg t newCursor with
    | (some err, m) => ([], cursor, some err, m)
    | (none, m) =>
      ([], newCursor,
        some (if newCursor < m.log.tail then .scanIncomplete else .noMessages), m)
  else (messages, newCursor, none, m)

/-- `PeekBatchStream`: the reply and the cursor to commit after delivery. It does not look at the
mode of the group. -/
def peekBatchStream (t : Readings) (filter : Filter) (limit : Int) : Reply × Nat × Manager :=
  let m := { m with record := m.record.getConsumerGroup }
  match m.record.group with
  | none => ({ error := some .groupNotFound }, 0, m)
  | some _ =>
    let (messages, newCursor, error, m) := m.peekBatch cfg t filter (batchLimit cfg limit)
    ({ messages, error }, newCursor, m)

def commitStreamCursor (t : Readings) (cursor : Nat) : Reply × Manager :=
  m.withGroup fun group m =>
    if group.mode ≠ .stream then ({ error := some .commitOffsetOnlyForStreamMode }, m)
    else
      let (error, m) := m.updateStreamCursor cfg t cursor
      ({ error }, m)

/-- `ClaimBatchStream`: peek and commit in one critical section. -/
def claimBatchStream (t t' : Readings) (filter : Filter) (limit : Int) : Reply × Manager :=
  m.withGroup fun _ m =>
    match m.peekBatch cfg t filter (batchLimit cfg limit) with
    | (_, _, some err, m) => ({ error := some err }, m)
    | (messages, newCursor, none, m) =>
      match m.updateStreamCursor cfg t' newCursor with
      | (some err, m) => ({ error := some err }, m)
      | (none, m) => ({ messages }, m)

/-! ### Settlement -/

/-- `advanceCommitted`: the smallest pending offset, or the cursor when nothing is pending. -/
def advanceCommitted : Manager :=
  let group := m.record.live
  let committed :=
    match group.minPendingOffset with
    | none => group.cursor.cursor
    | some minOffset =>
      if group.cursor.committed < minOffset then minOffset else group.cursor.committed
  { m with record := m.record.updateCommitted committed }

/-- Remove a pending entry and advance the committed offset. -/
def settle (order : IterationOrder (String × PendingEntry)) (consumerId : String) (offset : Nat) :
    Reply × Manager :=
  match m.record.removePendingEntry order consumerId offset with
  | (record, some err) => ({ error := some (.store err) }, { m with record })
  | (record, none) => { m with record }.withGroup fun _ m => ({}, m.advanceCommitted)

def ack (order : IterationOrder (String × PendingEntry)) (consumerId : String) (offset : Nat) :
    Reply × Manager :=
  if offset ∈ m.transfers then ({ error := some .transferInProgress }, m)
  else m.settle order consumerId offset

/-- `NackWithDelay` at local time `now`. -/
def nackWithDelay (order : IterationOrder (String × PendingEntry)) (now : Time)
    (consumerId : String) (offset : Nat) (delay : Time) : Reply × Manager :=
  m.withGroup fun group m =>
    let owner := (group.findPending order offset).2
    if owner = "" then ({ error := some .messageNotPending }, m)
    else if owner ≠ consumerId then ({ error := some .consumerNotFound }, m)
    else if offset ∈ m.transfers then ({ error := some .transferInProgress }, m)
    else
      let attemptedAt :=
        if delay = 0 then now + delay - cfg.visibilityTimeout - second else now + delay
      m.reportStore (m.record.requeuePendingEntry order consumerId offset attemptedAt)

/-- `CommitOffset`. On a group that settles explicitly it settles every delivery below the
offset; it does not look at the reserved offsets. -/
def commitOffset (order : IterationOrder (String × PendingEntry)) (offset : Nat) :
    Reply × Manager :=
  m.withGroup fun group m =>
    if group.mode ≠ .stream then ({ error := some .commitOffsetOnlyForStreamMode }, m)
    else if group.cursor.cursor < offset then ({ error := some .invalidOffset }, m)
    else if offset < group.cursor.committed then ({ error := some .commitOffsetNotMonotonic }, m)
    else
      let covered :=
        if group.autoCommit then []
        else (order.walk group.pel).filter fun p => decide (p.2.offset < offset)
      match removeAll order covered m.record with
      | (record, some err) => ({ error := some (.store err) }, { m with record })
      | (record, none) => ({}, { m with record := record.updateCommitted offset })
where
  /-- Remove filed entries one by one until the store reports an error. -/
  removeAll (order : IterationOrder (String × PendingEntry)) : Pel → GroupRecord → Outcome
    | [], r => (r, none)
    | p :: rest, r =>
      (r.removePendingEntry order p.1 p.2.offset).andThen fun r => removeAll order rest r

/-- The exported `AdvanceCommitted` moves the committed offset forward only. -/
def advanceCommittedTo (committed : Nat) : Reply × Manager :=
  m.withGroup fun group m =>
    if group.cursor.cursor < committed then ({ error := some .invalidOffset }, m)
    else if committed ≤ group.cursor.committed then ({}, m)
    else ({}, { m with record := m.record.updateCommitted committed })

/-! ### Dead-letter transfers -/

/-- `beginTransfer` on an offset that is not reserved, and the read of its record. A failed read
releases the reservation. -/
def reserve (offset : Nat) : Except ManagerError Envelope × Manager :=
  if offset ∈ m.transfers then (.error .transferInProgress, m)
  else
    match m.log.read offset with
    | .error err => (.error (.read err), m)
    | .ok e => (.ok e, { m with transfers := offset :: m.transfers })

def endTransfer (offset : Nat) : Manager :=
  { m with transfers := m.transfers.filter (· != offset) }

/-- `prepareTransfer` of `Reject`. -/
def prepareTransfer (order : IterationOrder (String × PendingEntry)) (consumerId : String)
    (offset : Nat) : Reply × Manager :=
  m.withGroup fun group m =>
    let owner := (group.findPending order offset).2
    if owner = "" then ({ error := some .messageNotPending }, m)
    else if owner ≠ consumerId then ({ error := some .consumerNotFound }, m)
    else if !cfg.onDLQ then ({ error := some .dlqHandlerUnavailable }, m)
    else
      match m.reserve offset with
      | (.error err, m) => ({ error := some err }, m)
      | (.ok _, m) => ({}, m)

/-- `finishTransfer` of `Reject`; `written` says whether the destination write succeeded. -/
def finishTransfer (order : IterationOrder (String × PendingEntry)) (consumerId : String)
    (offset : Nat) (written : Bool) : Reply × Manager :=
  let m := m.endTransfer offset
  if written then m.settle order consumerId offset else ({ error := some .dlqTransfer }, m)

/-- `preparePoisonTransfer`: the entry the sweep reserved, if it goes ahead. -/
def preparePoisonTransfer (order : IterationOrder (String × PendingEntry)) (now : Time)
    (offset : Nat) : Option PendingEntry × Manager :=
  let m := { m with record := m.record.getConsumerGroup }
  match m.record.group with
  | none => (none, { m with poison := m.poison.forget offset })
  | some group =>
    let found := group.findPending order offset
    if found.2 = "" then (none, { m with poison := m.poison.forget offset })
    else
      match m.reserve offset with
      | (.ok _, m) => (some found.1, m)
      | (.error (.read _), m) =>
        (none, { m with poison := m.poison.scheduleNextAttempt cfg now offset })
      | (.error _, m) => (none, m)

/-- How the destination write of a sweep ended. -/
inductive DlqOutcome where
  | written
  | failed
  | unavailable
  deriving Repr, DecidableEq

/-- `finishPoisonTransfer`. It removes the entry without advancing the committed offset. -/
def finishPoisonTransfer (order : IterationOrder (String × PendingEntry)) (now : Time)
    (entry : PendingEntry) (outcome : DlqOutcome) : Manager :=
  let m := m.endTransfer entry.offset
  match outcome with
  | .unavailable => { m with poison := m.poison.reportWithoutDLQ cfg now entry.offset }
  | .failed => { m with poison := m.poison.scheduleNextAttempt cfg now entry.offset }
  | .written =>
    match m.record.removePendingEntry order entry.consumerId entry.offset with
    | (record, some _) =>
      { m with record, poison := m.poison.scheduleNextAttempt cfg now entry.offset }
    | (record, none) => { m with record, poison := m.poison.forget entry.offset }

end Manager

end FluxMQ
