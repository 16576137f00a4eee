import FluxMQ.Consumer.Manager
import FluxMQ.Library.Runs

/-!
# Delivery passes over a stream group

`deliverToGroup` of `queue/delivery_engine.go` serves an auto-commit stream group in three parts:
`PeekBatchStream` collects a batch from the cursor, the batch is handed to a consumer, and
`CommitStreamCursor` moves the cursor over what was handed out. The group's lock is released
between them. A subscription that seeks does not take the lock at all and writes the cursor and
then the committed offset.

* `Stream`: any number of passes, seeks, appends and truncations, interleaved at every access of a
  pass to the group's cursor.
-/

namespace FluxMQ

/-! ### Handing a batch to a consumer -/

/-- The consumer a batch goes to and what it answers. -/
inductive DeliveryTarget where
  /-- A client of this node: whether `Deliver` succeeds for the record at an offset. -/
  | localClient (accepts : Nat → Bool)
  /-- A client behind another node: whether `routeRemoteBatch` succeeds. -/
  | remoteNode (accepts : Bool)

/-- The loop of `deliverToGroup` over a batch for a stream group, which breaks at the first
failure. Returns the offsets that were delivered and whether all were. -/
def deliverLocal (accepts : Nat → Bool) : List Nat → List Nat × Bool
  | [] => ([], true)
  | offset :: rest =>
    if accepts offset then
      let (delivered, allDelivered) := deliverLocal accepts rest
      (offset :: delivered, allDelivered)
    else ([], false)

/-- The offsets of a batch that are delivered, and the cursor that is committed for them. -/
def DeliveryTarget.deliver (messages : List Nat) (nextCursor : Nat) :
    DeliveryTarget → List Nat × Option Nat
  | .localClient accepts =>
    let (delivered, allDelivered) := deliverLocal accepts messages
    (delivered, delivered.getLast?.map fun last => if allDelivered then nextCursor else last + 1)
  | .remoteNode true => (messages, some nextCursor)
  | .remoteNode false => ([], none)

/-- A local delivery accepts a batch from its start on. -/
lemma deliverLocal_prefix (accepts : Nat → Bool) (messages : List Nat) :
    ∃ rest, messages = (deliverLocal accepts messages).1 ++ rest ∧
      ((deliverLocal accepts messages).2 = true → rest = []) := by
  induction messages with
  | nil => exact ⟨[], rfl, fun _ => rfl⟩
  | cons offset messages ih =>
    by_cases hok : accepts offset
    · obtain ⟨rest, heq, hall⟩ := ih
      refine ⟨rest, ?_, ?_⟩
      · simp only [deliverLocal, hok, if_true, List.cons_append]
        rw [← heq]
      · simpa only [deliverLocal, hok, if_true] using hall
    · exact ⟨offset :: messages, by simp [deliverLocal, hok], by simp [deliverLocal, hok]⟩

section

variable {target : DeliveryTarget} {messages : List Nat} {nextCursor cursor : Nat}

/-- What is committed for a batch in increasing order has been delivered. -/
lemma DeliveryTarget.mem_of_deliver (hsorted : messages.Pairwise (· < ·))
    (hcursor : cursor ∈ (target.deliver messages nextCursor).2) {offset : Nat}
    (hmem : offset ∈ messages) (hlt : offset < cursor) :
    offset ∈ (target.deliver messages nextCursor).1 := by
  cases target with
  | remoteNode accepts =>
    cases accepts with
    | true => exact hmem
    | false => exact nomatch hcursor
  | localClient accepts =>
    obtain ⟨rest, heq, hall⟩ := deliverLocal_prefix accepts messages
    simp only [deliver, Option.mem_def, Option.map_eq_some_iff] at hcursor ⊢
    obtain ⟨last, hlast, rfl⟩ := hcursor
    rw [heq] at hmem hsorted
    rcases List.mem_append.1 hmem with hmem | hmem
    · exact hmem
    -- The offset lies behind the failure, and the last delivered one before it.
    have hne : (deliverLocal accepts messages).2 = false := by
      by_contra h
      rw [hall (by simpa using h)] at hmem
      exact nomatch hmem
    have hbefore := (List.pairwise_append.1 hsorted).2.2 last (List.mem_of_getLast? hlast) offset hmem
    rw [hne] at hlt
    simp only [Bool.false_eq_true, if_false] at hlt
    omega

/-- No more than the next cursor of a batch is committed. -/
lemma DeliveryTarget.le_of_deliver (hbelow : ∀ offset ∈ messages, offset < nextCursor)
    (hcursor : cursor ∈ (target.deliver messages nextCursor).2) : cursor ≤ nextCursor := by
  cases target with
  | remoteNode accepts =>
    cases accepts with
    | true => exact (Option.some.inj hcursor).ge
    | false => exact nomatch hcursor
  | localClient accepts =>
    obtain ⟨rest, heq, -⟩ := deliverLocal_prefix accepts messages
    simp only [deliver, Option.mem_def, Option.map_eq_some_iff] at hcursor
    obtain ⟨last, hlast, rfl⟩ := hcursor
    have hmem : last ∈ messages := by
      rw [heq]
      exact List.mem_append_left _ (List.mem_of_getLast? hlast)
    split
    · exact le_rfl
    · exact hbelow last hmem

end

/-! ### The parts of a pass -/

namespace Manager

variable (cfg : ManagerConfig) (m : Manager)

end Manager

/-- A pass between two accesses to the group's cursor. -/
inductive Pass where
  /-- A batch was collected from the cursor `start` on and is to be delivered. -/
  | peeked (start : Nat) (messages : List Nat) (nextCursor : Nat)
  /-- The cursor is to be compared with the group's. -/
  | moving (cursor : Nat)
  /-- The cursor was ahead of the group's and is to be written. -/
  | writing (cursor : Nat)
  /-- The cursor was written and is to be committed, if a commit is due. -/
  | committing (cursor : Nat)
  deriving DecidableEq

/-- A stream group with the passes in flight over it. -/
structure Stream where
  manager : Manager
  passes : List Pass := []
  /-- The offsets that have been delivered. -/
  delivered : List Nat := []

/-- One access to the group or the log. The passes in flight are named by position. -/
inductive StreamOp where
  | append (r : Record)
  | truncate (before : Nat)
  | peek (t : Readings) (limit : Int)
  | deliver (i : Nat) (target : DeliveryTarget)
  | compare (i : Nat)
  | writeCursor (i : Nat)
  | commit (i : Nat) (t : Readings)
  /-- A pass ends early, because its node stops or its consumer is gone. -/
  | abandon (i : Nat)
  /-- The first write of a seek. -/
  | seekCursor (offset : Nat)
  /-- The second write of a seek. -/
  | seekCommitted (offset : Nat)

namespace Stream

variable (cfg : ManagerConfig) (filter : Filter) (s : Stream)

/-- The group's cursor. -/
def cursor : Nat :=
  s.manager.record.live.cursor.cursor

/-- The stream with another stored group. -/
def withRecord (record : GroupRecord) : Stream :=
  { s with manager := { s.manager with record } }

/-- The stream with another log. -/
def withLog (log : Log) : Stream :=
  { s with manager := { s.manager with log } }

/-- A pass begins: the group is read and the log is scanned. A scan that finds nothing goes on to
move the cursor at once. -/
def beginPass (t : Readings) (limit : Int) : Stream :=
  let s := s.withRecord s.manager.record.getConsumerGroup
  if s.manager.record.group.isNone then s
  else
    let (messages, nextCursor) := s.manager.scanStream cfg t filter (Manager.batchLimit cfg limit)
    let pass := if messages = [] then .moving nextCursor else .peeked s.cursor messages nextCursor
    { s with passes := s.passes ++ [pass] }

/-- A pass moves on to its next access. -/
def goOn (i : Nat) (pass : Pass) : Stream :=
  { s with passes := s.passes.set i pass }

/-- A pass is over. -/
def endPass (i : Nat) : Stream :=
  { s with passes := s.passes.eraseIdx i }

/-- What a step does to the stream. A step that does not fit the pass it names does nothing. -/
def step : StreamOp → Stream
  | .append r => s.withLog (s.manager.log.append r)
  | .truncate before => s.withLog (s.manager.log.dropBelow before)
  | .peek t limit => s.beginPass cfg filter t limit
  | .deliver i target =>
    match s.passes[i]? with
    | some (.peeked _ messages nextCursor) =>
      let (delivered, commit) := target.deliver messages nextCursor
      let s := { s with delivered := s.delivered ++ delivered }
      match commit with
      | some cursor => s.goOn i (.moving cursor)
      | none => s.endPass i
    | _ => s
  | .compare i =>
    match s.passes[i]? with
    | some (.moving cursor) =>
      if cursor ≤ s.cursor then s.endPass i else s.goOn i (.writing cursor)
    | _ => s
  | .writeCursor i =>
    match s.passes[i]? with
    | some (.writing cursor) =>
      match s.manager.record.updateCursor cursor with
      | (record, none) => (s.withRecord record).goOn i (.committing cursor)
      | (record, some _) => (s.withRecord record).endPass i
    | _ => s
  | .commit i t =>
    match s.passes[i]? with
    | some (.committing cursor) =>
      { s.endPass i with manager := s.manager.autoCommitCursor cfg t cursor }
    | _ => s
  | .abandon i => s.endPass i
  | .seekCursor offset => s.withRecord (s.manager.record.updateCursor offset).1
  | .seekCommitted offset => s.withRecord (s.manager.record.updateCommitted offset)

/-- The stream after a sequence of steps. -/
abbrev run (ops : List StreamOp) : Stream :=
  Transition.run (step cfg filter) s ops

end Stream

/-! ### Stream groups -/

/-- Reading a stream group changes nothing. -/
lemma GroupRecord.getConsumerGroup_of_mode {r : GroupRecord} (h : r.live.mode = .stream) :
    r.getConsumerGroup = r := by
  rcases r with ⟨queueOpen, _ | g, state⟩
  · rfl
  · simp only [live, Option.getD_some] at h
    simp [getConsumerGroup, view, h]

/-- A stream group exists. -/
lemma GroupRecord.group_of_mode {r : GroupRecord} (h : r.live.mode = .stream) :
    r.group = some r.live := by
  rcases r with ⟨queueOpen, _ | g, state⟩
  · exact nomatch h
  · rfl

end FluxMQ
