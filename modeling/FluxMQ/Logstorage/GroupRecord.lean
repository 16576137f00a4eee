import FluxMQ.Logstorage.ConsumerState

/-!
# What the adapter keeps for one consumer group

`logstorage/adapter.go` implements the consumer group store over two records: the group metadata
of the group store, and the log store's `ConsumerState`, which belongs to the queue's directory.
The metadata is a live pointer: a caller that holds the group sees every later write to it.

For a stream group the metadata is authoritative. For every other group `getConsumerGroup` copies
cursor and pending list out of the log store into the metadata on each read, while the committed
offset and the membership live in the metadata only.

A `GroupRecord` is this pair for one queue and group name, together with whether the log store has
the queue. Every operation returns the record it leaves behind and the error it reports, if any:
an operation that fails after its first write has still made that write.
-/

namespace FluxMQ

/-- The errors of the storage layer that callers tell apart. `logQueueNotFound` is the log store's
own error, which is not the storage layer's `queueNotFound`; `segmentExists` is that of a log that
cannot begin a new segment. -/
inductive StoreError where
  | queueNotFound
  | queueAlreadyExists
  | logQueueNotFound
  | consumerGroupNotFound
  | consumerGroupExists
  | consumerNotFound
  | pendingEntryNotFound
  | invalidTopicFilter
  | invalidConfig
  | segmentExists
  deriving Repr, DecidableEq

/-- The stored state of one consumer group of one queue. -/
structure GroupRecord where
  /-- The log store has the queue. -/
  queueOpen : Bool := true
  /-- The metadata record. -/
  group : Option ConsumerGroup := none
  /-- The log store's record. -/
  state : Option ConsumerState := none
  deriving DecidableEq

/-- What a storage operation leaves behind and the error it returns. -/
abbrev Outcome := GroupRecord × Option StoreError

/-- Continue with the next write unless an error was returned. -/
def Outcome.andThen (outcome : Outcome) (next : GroupRecord → Outcome) : Outcome :=
  match outcome with
  | (r, none) => next r
  | (r, some err) => (r, some err)

namespace GroupRecord

variable (r : GroupRecord)

/-- Change the metadata record if it exists, and save it. -/
def mapGroup (f : ConsumerGroup → ConsumerGroup) : GroupRecord :=
  { r with group := r.group.map f }

/-! ### Log store -/

/-- `getConsumerManager` and `GetOrCreate`: change the log store's record, creating it first. -/
def withState (f : ConsumerState → ConsumerState) : Outcome :=
  if r.queueOpen then ({ r with state := some (f (r.state.getD {})) }, none)
  else (r, some .logQueueNotFound)

/-- `getConsumerManager` and `Get`: change the log store's record, which must exist. -/
def withExistingState (f : ConsumerState → ConsumerState) : Outcome :=
  if r.queueOpen then
    match r.state with
    | some cs => ({ r with state := some (f cs) }, none)
    | none => (r, some .consumerGroupNotFound)
  else (r, some .logQueueNotFound)

/-! ### Reading a group -/

/-- `syncCursorsFromStore` and `syncPELFromStore` on the metadata of a group that is not a
stream. The log store answers with a zero cursor for a group it does not know, and with an error
for its pending list. -/
def syncFromStore (g : ConsumerGroup) : ConsumerGroup :=
  if r.queueOpen then
    match r.state with
    | some cs => (g.setCursorPosition cs.cursor).replacePEL cs.allPending
    | none => g.setCursorPosition 0
  else g

/-- The group as a read returns it. -/
def view : Option ConsumerGroup :=
  r.group.map fun g => if g.mode = .stream then g else r.syncFromStore g

/-- `GetConsumerGroup` leaves the synced group in the metadata record. -/
def getConsumerGroup : GroupRecord :=
  { r with group := r.view }

/-- The group pointer an operation holds after `GetConsumerGroup`. -/
def live : ConsumerGroup :=
  r.group.getD default

/-! ### Creating and replacing a group -/

/-- `seedConsumerState` mirrors a new group's pending list, committed offset and cursor into the
log store. -/
def seedConsumerState (order : IterationOrder (String × PendingEntry)) (now : Time)
    (g : ConsumerGroup) : Outcome :=
  if g.mode = .stream then (r, none)
  else
    r.withState fun cs =>
      let cs := (order.walk g.pel).foldl (fun cs p =>
        cs.restorePending now p.2.offset p.2.consumerId (ofUnixMilli (unixMilli p.2.claimedAt))
          (UInt16.ofNat p.2.deliveryCount)) cs
      let cs := if 0 < g.cursor.committed then cs.applyAdvanceFloor g.cursor.committed else cs
      if 0 < g.cursor.cursor then cs.applySetCursor g.cursor.cursor else cs

def createConsumerGroup (order : IterationOrder (String × PendingEntry)) (now : Time)
    (g : ConsumerGroup) : Outcome :=
  if r.group.isSome then (r, some .consumerGroupExists)
  else ({ r with group := some g } : GroupRecord).seedConsumerState order now g

/-- `UpdateConsumerGroup` saves the whole metadata record. -/
def updateConsumerGroup (g : ConsumerGroup) : GroupRecord :=
  { r with group := some g }

/-- `DeleteConsumerGroup` deletes the metadata record; the log store's record stays. -/
def deleteConsumerGroup : GroupRecord :=
  { r with group := none }

/-! ### Pending entries -/

/-- `AddPendingEntry`. The log store stamps its own time `now` on the entry. -/
def addPendingEntry (now : Time) (entry : PendingEntry) : Outcome :=
  (r.withState fun cs => cs.deliver now entry.offset entry.consumerId).andThen fun r =>
    (r.mapGroup fun g => g.addPending entry.consumerId entry, none)

/-- `RemovePendingEntry` settles by offset, whoever holds the entry. -/
def removePendingEntry (order : IterationOrder (String × PendingEntry)) (consumerId : String)
    (offset : Nat) : Outcome :=
  (r.withExistingState fun cs => cs.applyAck offset).andThen fun r =>
    (r.mapGroup fun g =>
      let owner := (g.findPending order offset).2
      g.removePending (if owner ≠ "" then owner else consumerId) offset, none)

def transferPendingEntry (order : IterationOrder (String × PendingEntry)) (now : Time)
    (offset : Nat) (fromConsumer toConsumer : String) : Outcome :=
  let r := r.getConsumerGroup
  match r.group with
  | none => (r, some .consumerGroupNotFound)
  | some current =>
    if (current.findPending order offset).2 ≠ fromConsumer then (r, some .pendingEntryNotFound)
    else
      (r.withExistingState fun cs => cs.claim now offset toConsumer).andThen fun r =>
        (r.mapGroup fun g => g.transferPending now offset fromConsumer toConsumer, none)

def requeuePendingEntry (order : IterationOrder (String × PendingEntry)) (consumerId : String)
    (offset : Nat) (attemptedAt : Time) : Outcome :=
  match r.group with
  | none => (r, some .consumerGroupNotFound)
  | some g =>
    let owner := (g.findPending order offset).2
    if owner = "" then (r, some .pendingEntryNotFound)
    else if owner ≠ consumerId then (r, some .consumerNotFound)
    else
      (r.withExistingState fun cs => cs.releaseAt offset attemptedAt).andThen fun r =>
        let requeued := g.requeuePending offset consumerId attemptedAt
        if requeued.2 then ({ r with group := some requeued.1 }, none)
        else (r, some .pendingEntryNotFound)

/-! ### Positions and membership -/

def updateCursor (cursor : Nat) : Outcome :=
  (r.withState fun cs => cs.applySetCursor cursor).andThen fun r =>
    (r.mapGroup fun g => g.setCursorPosition cursor, none)

/-- `UpdateCommitted` writes the metadata record only, and reports no error without one. -/
def updateCommitted (committed : Nat) : GroupRecord :=
  r.mapGroup fun g => g.advanceCommitted committed

def registerConsumer (info : ConsumerInfo) : Outcome :=
  match r.group with
  | none => (r, some .consumerGroupNotFound)
  | some g => ({ r with group := some (g.setConsumer info.id info) }, none)

def unregisterConsumer (consumerId : String) : Outcome :=
  match r.group with
  | none => (r, some .consumerGroupNotFound)
  | some g => ({ r with group := some (g.deleteConsumer consumerId) }, none)

/-! ### What a read shows -/

variable {r}

lemma isSome_group_of_view {g : ConsumerGroup} (h : r.view = some g) : r.group.isSome := by
  unfold view at h
  rw [Option.isSome_iff_ne_none]
  rintro hnone
  simp [hnone] at h

@[simp]
lemma mode_syncFromStore (g : ConsumerGroup) : (r.syncFromStore g).mode = g.mode := by
  unfold syncFromStore
  split
  · split <;> rfl
  · rfl

lemma syncFromStore_idem (g : ConsumerGroup) :
    r.syncFromStore (r.syncFromStore g) = r.syncFromStore g := by
  unfold syncFromStore
  split
  · split <;> rfl
  · rfl

/-- A second read of a group returns what the first did. -/
lemma view_getConsumerGroup (r : GroupRecord) : r.getConsumerGroup.view = r.view := by
  have hsync : r.getConsumerGroup.syncFromStore = r.syncFromStore := rfl
  rw [view, hsync, getConsumerGroup, view, Option.map_map]
  congr 1
  funext g
  by_cases hmode : g.mode = .stream
  · simp [hmode]
  · simp [hmode, syncFromStore_idem]

end GroupRecord

end FluxMQ
