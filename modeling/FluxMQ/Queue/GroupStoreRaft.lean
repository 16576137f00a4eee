import FluxMQ.Consumer.Manager
import FluxMQ.Logstorage.GroupOps
import FluxMQ.Raft.Availability

/-!
# The group store of a replicated queue

`raftGroupStore` of `queue/groupstore_raft.go` stands before the node's own group store. A change
to a group of a replicated queue goes through raft: the leader proposes it, a follower forwards it
to the leader. A change to a group of any other queue goes to the node's store at once.

Which of these a call does is decided in two steps, each of which asks for itself whether the node
leads the queue's raft group. Leadership may change between any two reads of it, and nothing holds
it still during a call. A call that finds the node to be no leader first, and then no follower
either, is taken for one on a queue that is not replicated.

There is a second way around raft. `GetConsumerGroup` hands out the stored group itself, and the
consumer manager changes some of it in place before it proposes the change. If the proposal fails,
the change stays.

`ReplicatedQueue` is the system: the committed operations of a raft group and the nodes that apply
them, each with its own store.
-/

namespace FluxMQ

/-- A change to a consumer group, as a caller of the group store asks for it. -/
inductive GroupMutation where
  | create (g : ConsumerGroup)
  | update (g : ConsumerGroup)
  | delete (key : GroupKey)
  | addPending (key : GroupKey) (entry : PendingEntry)
  | removePending (key : GroupKey) (consumerId : String) (offset : Nat)
  | transferPending (key : GroupKey) (offset : Nat) (fromConsumer toConsumer : String)
  | requeuePending (key : GroupKey) (consumerId : String) (offset : Nat) (attemptedAt : Time)
  | updateCursor (key : GroupKey) (cursor : Nat)
  | updateCommitted (key : GroupKey) (committed : Nat)
  | registerConsumer (key : GroupKey) (info : ConsumerInfo)
  | unregisterConsumer (key : GroupKey) (consumerId : String)

namespace GroupMutation

/-- The operation that is proposed to raft or forwarded to the leader. -/
def operation : GroupMutation → Operation
  | .create g => .createGroup (some g)
  | .update g => .updateGroup (some g)
  | .delete key => .deleteGroup key.1 key.2
  | .addPending key entry => .addPending key.1 key.2 (some entry)
  | .removePending key consumerId offset => .removePending key.1 key.2 consumerId offset
  | .transferPending key offset fromConsumer toConsumer =>
    .transferPending key.1 key.2 offset fromConsumer toConsumer
  | .requeuePending key consumerId offset attemptedAt =>
    .requeuePending key.1 key.2 consumerId offset attemptedAt
  | .updateCursor key cursor => .updateCursor key.1 key.2 cursor
  | .updateCommitted key committed => .updateCommitted key.1 key.2 committed
  | .registerConsumer key info => .registerConsumer key.1 key.2 (some info)
  | .unregisterConsumer key consumerId => .unregisterConsumer key.1 key.2 consumerId

/-- The call of the node's own store that the change falls back to. -/
def localFallback (t : StoreReadings) : GroupMutation → GroupOp
  | .create g => .create t g
  | .update g => .update g
  | .delete key => .delete key
  | .addPending key entry => .addPending key t.now entry
  | .removePending key consumerId offset => .removePending key t consumerId offset
  | .transferPending key offset fromConsumer toConsumer =>
    .transferPending key t offset fromConsumer toConsumer
  | .requeuePending key consumerId offset attemptedAt =>
    .requeuePending key t consumerId offset attemptedAt
  | .updateCursor key cursor => .updateCursor key cursor
  | .updateCommitted key committed => .updateCommitted key committed
  | .registerConsumer key info => .registerConsumer key info
  | .unregisterConsumer key consumerId => .unregisterConsumer key consumerId

end GroupMutation

/-- What the consumer manager does to a group in place, before it proposes the change as an
`UpdateGroup` or a `RegisterConsumer`. -/
inductive LiveEdit where
  /-- `getOrCreateGroup` finds a group that exists. -/
  | configure (mode : ConsumerGroupMode) (autoCommit configureAutoCommit : Bool)
  | heartbeat (now : Time) (consumerId : String)
  | cleanup (now timeout : Time)

/-- The group after the change in place, with what its read has copied from the log store. -/
def LiveEdit.group (cfg : ManagerConfig) (r : GroupRecord) : LiveEdit → Option ConsumerGroup
  | .configure mode autoCommit configureAutoCommit =>
    (Manager.configureGroup { record := r } mode autoCommit configureAutoCommit).2.record.group
  | .heartbeat now consumerId =>
    (Manager.updateHeartbeat cfg { record := r } now consumerId).2.record.group
  | .cleanup now timeout =>
    (Manager.cleanupStaleConsumers { record := r } now timeout).2.record.group

/-! ### The route of one call -/

/-- What one function of the group store reads of the coordinator. Each field is read by a call of
its own, so the fields need not have been true at one time. -/
structure CoordinatorReading where
  /-- There is a coordinator. -/
  present : Bool := true
  enabled : Bool := true
  replicated : Bool := true
  leader : Bool := false
  deriving Repr, DecidableEq

/-- What one call of the group store reads. -/
structure CallReadings where
  /-- Read by `leaderCoordinatorForQueue`. -/
  leaderCheck : CoordinatorReading
  /-- Read by `isReplicatedFollower`. -/
  followerCheck : CoordinatorReading
  /-- There are a coordinator and a forwarder to forward with. -/
  forwarder : Bool := true
  /-- The leader the coordinator knows of, if any. -/
  leaderId : String := ""
  /-- The operation passes the checks of `encodeGroupOperation`. -/
  encodes : Bool := true
  deriving Repr, DecidableEq

/-- What a call does with a change. -/
inductive Route where
  /-- Proposed through the coordinator of this node. -/
  | apply
  | forward (leaderId : String)
  | fail (text : String)
  /-- Performed on the store of this node. -/
  | fallback
  deriving Repr, DecidableEq

namespace CallReadings

variable (r : CallReadings)

/-- `leaderCoordinatorForQueue` returns a coordinator. -/
def leaderCoordinatorForQueue : Bool :=
  r.leaderCheck.present && r.leaderCheck.enabled && r.leaderCheck.replicated && r.leaderCheck.leader

def isReplicatedFollower : Bool :=
  r.followerCheck.present && r.followerCheck.replicated && !r.followerCheck.leader

/-- `forwardToLeader`, up to the answer of the leader. -/
def forwardToLeader : Route :=
  if !r.forwarder then .fail "no forwarder available"
  else if r.leaderId = "" then .fail "leader unknown for queue"
  else if !r.encodes then .fail "failed to encode operation"
  else .forward r.leaderId

def applyOrForward : Route :=
  if r.leaderCoordinatorForQueue then .apply
  else if r.isReplicatedFollower then r.forwardToLeader
  else .fallback

/-- Every read of the call finds the queue replicated by a coordinator that is enabled. -/
def Replicated : Prop :=
  (r.leaderCheck.present ∧ r.leaderCheck.enabled ∧ r.leaderCheck.replicated) ∧
    r.followerCheck.present ∧ r.followerCheck.replicated

/-- The node becomes the leader between the two reads of leadership. -/
def BecomesLeader : Prop :=
  r.leaderCheck.leader = false ∧ r.followerCheck.leader = true

instance : Decidable r.Replicated := inferInstanceAs (Decidable (_ ∧ _))

instance : Decidable r.BecomesLeader := inferInstanceAs (Decidable (_ ∧ _))

variable {r}

lemma forwardToLeader_ne : r.forwardToLeader ≠ .fallback := by
  unfold forwardToLeader
  split_ifs <;> simp

/-- A call on a replicated queue falls back to the node's store exactly if the node becomes the
leader between the two reads. -/
lemma applyOrForward_eq_fallback_iff (h : r.Replicated) :
    r.applyOrForward = .fallback ↔ r.BecomesLeader := by
  obtain ⟨⟨hpresent, henabled, hreplicated⟩, hpresent', hreplicated'⟩ := h
  simp only [applyOrForward, leaderCoordinatorForQueue, isReplicatedFollower, BecomesLeader,
    hpresent, henabled, hreplicated, hpresent', hreplicated', Bool.true_and]
  cases r.leaderCheck.leader
  · cases r.followerCheck.leader
    · simp [forwardToLeader_ne]
    · simp
  · simp

end CallReadings

/-! ### The system -/

/-- A node of the raft group: its store and how many committed operations it has applied. -/
structure Replica where
  store : Adapter := {}
  applied : Nat := 0

/-- The committed operations of a raft group and the nodes that apply them. -/
structure ReplicatedQueue (ν : Type*) where
  log : List Operation := []
  replicas : ν → Replica := fun _ => {}

/-- What happens in the raft group. -/
inductive ReplicatedAction (ν : Type*) where
  /-- Raft commits an operation that no group store proposed. -/
  | commit (op : Operation)
  /-- A node applies the next committed operation. -/
  | apply (node : ν) (t : StoreReadings)
  /-- A node's group store is called. Raft may or may not commit what is proposed. -/
  | call (node : ν) (mutation : GroupMutation) (r : CallReadings) (t : StoreReadings)
      (committed : Bool)
  /-- The consumer manager of a node changes a group in place. -/
  | edit (node : ν) (key : GroupKey) (edit : LiveEdit)

namespace ReplicatedQueue

variable {ν : Type*} [DecidableEq ν] (f : LogFSM) (cfg : ManagerConfig) (q : ReplicatedQueue ν)

/-- Change one node. -/
def setReplica (node : ν) (replica : Replica) : ReplicatedQueue ν :=
  { q with replicas := Function.update q.replicas node replica }

/-- Perform one action. -/
def step : ReplicatedAction ν → ReplicatedQueue ν
  | .commit op => { q with log := q.log ++ [op] }
  | .apply node t =>
    let replica := q.replicas node
    match q.log[replica.applied]? with
    | some op =>
      q.setReplica node
        { store := LogFSM.step f replica.store (t, op), applied := replica.applied + 1 }
    | none => q
  | .call node mutation r t committed =>
    match r.applyOrForward with
    | .apply | .forward _ =>
      if committed then { q with log := q.log ++ [mutation.operation] } else q
    | .fail _ => q
    | .fallback =>
      let replica := q.replicas node
      q.setReplica node
        { replica with store := (replica.store.performOp (mutation.localFallback t)).1 }
  | .edit node key edit =>
    let replica := q.replicas node
    let group := edit.group cfg (replica.store.record key.1 key.2)
    q.setReplica node
      { replica with
        store := { replica.store with groups := Function.update replica.store.groups key group } }

/-- The state of every node is a function of the committed operations and of what the node read
when it applied them. -/
def FollowsLog : Prop :=
  ∀ node, Transition.Follows (LogFSM.step f) {} q.log (q.replicas node).applied
    (q.replicas node).store

/-- The call, if the action is one, is on a replicated queue. -/
def OnReplicated : ReplicatedAction ν → Prop
  | .call _ _ r _ _ => r.Replicated
  | _ => True

/-- The node of the call, if the action is one, does not become the leader between the two reads
of leadership. -/
def LeadershipHolds : ReplicatedAction ν → Prop
  | .call _ _ r _ _ => ¬ r.BecomesLeader
  | _ => True

/-- The action does not write the store of a node directly. -/
def ThroughRaft : ReplicatedAction ν → Prop
  | .call _ _ r _ _ => r.applyOrForward ≠ .fallback
  | _ => True

/-- A change in place, if the action is one, finds nothing to change. -/
def KeepsLive (cfg : ManagerConfig) (q : ReplicatedQueue ν) : ReplicatedAction ν → Prop
  | .edit node key edit =>
    edit.group cfg ((q.replicas node).store.record key.1 key.2) = (q.replicas node).store.groups key
  | _ => True

variable {f cfg q}

omit [DecidableEq ν] in
lemma FollowsLog.commit (h : q.FollowsLog f) (op : Operation) :
    FollowsLog f { q with log := q.log ++ [op] } :=
  fun node => (h node).append [op]

lemma FollowsLog.apply (h : q.FollowsLog f) (node : ν) (t : StoreReadings) :
    (q.step f cfg (.apply node t)).FollowsLog f := by
  simp only [step]
  cases hop : q.log[(q.replicas node).applied]? with
  | none => exact h
  | some op =>
    intro other
    by_cases hother : other = node
    · subst hother
      simp only [setReplica, Function.update_self]
      exact (h other).next hop t
    · simp only [setReplica, Function.update_of_ne hother]
      exact h other

/-- What goes through raft keeps every node a function of the committed operations. -/
lemma FollowsLog.step (h : q.FollowsLog f) {action : ReplicatedAction ν}
    (hraft : ThroughRaft action) (hlive : q.KeepsLive cfg action) :
    (q.step f cfg action).FollowsLog f := by
  cases action with
  | edit node key edit =>
    have hlive : edit.group cfg ((q.replicas node).store.record key.1 key.2) =
        (q.replicas node).store.groups key := hlive
    simpa only [ReplicatedQueue.step, setReplica, hlive, Function.update_eq_self] using h
  | commit op => exact h.commit op
  | apply node t => exact h.apply node t
  | call node mutation r t committed =>
    have hcommit : FollowsLog f
        (if committed then { q with log := q.log ++ [mutation.operation] } else q) := by
      split
      · exact h.commit mutation.operation
      · exact h
    simp only [ReplicatedQueue.step]
    cases hroute : r.applyOrForward with
    | apply | forward leaderId => exact hcommit
    | fail text => exact h
    | fallback => exact absurd hroute hraft

omit [DecidableEq ν] in
lemma throughRaft_iff {action : ReplicatedAction ν} (h : OnReplicated action) :
    ThroughRaft action ↔ LeadershipHolds action := by
  cases action with
  | call node mutation r t committed =>
    exact not_congr (CallReadings.applyOrForward_eq_fallback_iff h)
  | _ => exact Iff.rfl

/-- A queue and a group are created on two nodes. -/
def createdActions : List (ReplicatedAction Bool) :=
  [.commit (.createQueue (some LogFSM.ordersQueue)),
    .commit (.createGroup (some LogFSM.workersGroup)),
    .apply true LogFSM.stillReadings, .apply true LogFSM.stillReadings,
    .apply false LogFSM.stillReadings, .apply false LogFSM.stillReadings]

/-- One of the nodes is told to move the group's cursor. -/
def seekCall (r : CallReadings) : ReplicatedAction Bool :=
  .call true (.updateCursor ("orders", "workers") 5) r LogFSM.stillReadings true

/-- The cursor that a node shows. -/
def shownCursor (q : ReplicatedQueue Bool) (node : Bool) : Option Nat :=
  ((q.replicas node).store.record "orders" "workers").view.map fun g => g.cursor.cursor

/-- Whether a node shows that the group commits what it delivers. -/
def shownAutoCommit (q : ReplicatedQueue Bool) (node : Bool) : Option Bool :=
  ((q.replicas node).store.record "orders" "workers").view.map fun g => g.autoCommit

end ReplicatedQueue

end FluxMQ
