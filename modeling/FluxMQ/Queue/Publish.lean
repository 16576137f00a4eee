import FluxMQ.Library.Effects
import FluxMQ.Raft.FSM
import FluxMQ.Topics.Match

/-!
# Publishing to the queues of a cluster

`PublishCommand` of `queue/manager.go` finds the queues whose topic filters match, appends the
message to those that this node may write, and forwards it to the raft leaders of the others together
with the names of the queues it is meant for. The leader takes the names for its targets and goes
through the same steps.

While a publish runs, other callers create, update and delete queues, leaders change, and nodes
learn of it at different times. Every look of the publish at a node is therefore preceded by a
`Tick`, which says what has happened since the last one, what the clock shows, and whether the
operation that follows fails for a reason outside of the queues: the disk, the raft group, or the
network. An attempt of a forward that is repeated is another call, and among what has happened.

The tries of the topic index stand for the match of each filter, and the order in which a map is
walked for the order in which it was filled. Logging, metrics and the wake-up of deliveries are left
out.
-/

namespace FluxMQ

/-! ### Topics -/

/-- `autoQueueFromTopic`: the name and the filter of a queue for a topic that no queue matches. -/
def autoQueueFromTopic (topic : String) : String × String :=
  let queueTopic := "$queue/".toList
  let name := (topic.toList.drop queueTopic.length).takeWhile (· ≠ '/')
  if queueTopic.isPrefixOf topic.toList ∧ name ≠ [] then
    (String.ofList name, "$queue/" ++ String.ofList name ++ "/#")
  else (topic, topic)

/-! ### Nodes -/

/-- What the raft coordinator of a node answers. -/
structure CoordinatorView (ν : Type) where
  /-- There is a coordinator. -/
  installed : Bool := false
  enabled : Bool := true
  isQueueReplicated : String → Bool := fun _ => true
  isLeader : String → Bool := fun _ => false
  leader : String → String := fun _ => ""
  leaderId : String → Option ν := fun _ => none
  isQueueConfigRecorded : String → Bool := fun _ => true

/-- What a node has and knows. -/
structure PublishNode (ν : Type) where
  store : Adapter := {}
  /-- The topic filters of the queues. -/
  topicIndex : List (String × List String) := []
  coordinator : CoordinatorView ν := {}
  /-- The queues and nodes of all consumers of the cluster. -/
  consumers : List (String × ν) := []

namespace PublishNode

variable {ν : Type} (n : PublishNode ν)

/-- Put the filters of a queue into the topic index. -/
def addQueue (queueName : String) (filters : List String) : List (String × List String) :=
  (queueName, filters) :: n.topicIndex.filter fun p => p.1 != queueName

def createQueue (now : Time) (config : QueueConfig) : PublishNode ν × Option StoreError :=
  match n.store.createQueue now config with
  | (store, none) => ({ n with store, topicIndex := n.addQueue config.name config.topics }, none)
  | (store, some err) => ({ n with store }, some err)

def updateQueue (config : QueueConfig) : PublishNode ν × Option StoreError :=
  match n.store.updateQueue config with
  | (store, none) => ({ n with store, topicIndex := n.addQueue config.name config.topics }, none)
  | (store, some err) => ({ n with store }, some err)

def deleteQueue (queueName : String) : PublishNode ν :=
  { n with
    store := (n.store.deleteQueue queueName).1
    topicIndex := n.topicIndex.filter fun p => p.1 != queueName }

def findMatchingQueues (topic : String) : List String :=
  (n.topicIndex.filter fun p => p.2.any fun filter => Topics.topicMatch filter topic).map Prod.fst

end PublishNode

/-! ### The cluster -/

/-- Something that happens on a node apart from a publish. -/
inductive PublishEvent (ν : Type) where
  | createQueue (now : Time) (config : QueueConfig)
  | updateQueue (config : QueueConfig)
  | deleteQueue (queueName : String)
  | append (now : Time) (queueName : String) (e : Envelope)
  | coordinator (view : CoordinatorView ν)
  | consumers (found : List (String × ν))

/-- What a node makes of an event. -/
def PublishEvent.perform {ν : Type} (store : StoreConfig) (n : PublishNode ν) :
    PublishEvent ν → PublishNode ν
  | .createQueue now config => (n.createQueue now config).1
  | .updateQueue config => (n.updateQueue config).1
  | .deleteQueue queueName => n.deleteQueue queueName
  | .append now queueName e => { n with store := (n.store.append store now queueName e).1 }
  | .coordinator view => { n with coordinator := view }
  | .consumers found => { n with consumers := found }

/-- What has happened before the next look at a node. -/
structure Tick (ν : Type) where
  events : List (ν × PublishEvent ν) := []
  now : Time := 0
  /-- The operation that follows fails. -/
  fails : Bool := false

/-- A record that a publish has appended. -/
structure PublishedRecord (ν : Type) where
  node : ν
  queueName : String
  offset : Nat
  record : Envelope
  /-- The store of the node right after the append. -/
  store : Adapter

/-- The cluster during a publish. -/
structure PublishWorld (ν : Type) where
  nodes : ν → PublishNode ν
  /-- What is still to happen. -/
  script : List (Tick ν) := []
  /-- What the publish has appended so far. -/
  published : List (PublishedRecord ν) := []

/-- `WritePolicy`, normalized. -/
inductive WritePolicy where
  | local
  | reject
  | forward
  | other (policy : String)
  deriving DecidableEq

/-- `fanoutPolicy`: a strict publish ends at the first target that fails. -/
inductive FanoutPolicy where
  | strict
  | bestEffort
  deriving DecidableEq

/-- How a publish came to this node. -/
inductive PublishMode where
  | normal
  | local
  | forwarded
  deriving DecidableEq

/-- The configuration of the cluster's queue managers. -/
structure PublishConfig (ν : Type) where
  fsm : LogFSM := {}
  writePolicy : ν → WritePolicy := fun _ => .local
  /-- The node is a member of a cluster. -/
  clustered : ν → Bool := fun _ => true
  /-- The replicated queues of the configuration file. -/
  configuredReplicated : String → Bool := fun _ => false
  /-- `Validate` accepts the envelope. -/
  validEnvelope : Envelope → Bool := fun _ => true

/-- Why a publish, or a part of it, has failed. -/
inductive PublishError (ν : Type) where
  | invalidCommand
  | noCoordinator (queueName : String)
  | noRaftGroup (queueName : String)
  | noLeader (queueName : String)
  | noRoutableLeader (queueName : String)
  | settingsNotRecorded (queueName : String)
  | leaderAt (queueName address : String)
  | leaderUnavailable (queueName : String)
  | invalidWritePolicy (queueName : String) (policy : WritePolicy)
  | notLed (queueName : String)
  | appendFailed (queueName : String)
  | createFailed (queueName : String)
  | clusterNotConfigured
  | coordinatorUnavailable
  | forwardFailed (leader : ν)

/-- `QueuePublishCommand`. -/
structure PublishCommand where
  envelope : Envelope
  mode : PublishMode := .normal
  /-- The queues the message must land in. -/
  forcedTargets : List String := []

/-- `queuePublishTarget`. -/
structure PublishTarget where
  name : String
  config : QueueConfig

def newQueuedRecord (now : Time) (msg : Envelope) (queueName : String) (config : QueueConfig) :
    Envelope :=
  let ttlExpiry := if 0 < config.messageTTL then some (now + config.messageTTL) else none
  { msg with
    topic := if msg.topic = "" then queueName else msg.topic
    queueExpiresAt :=
      match msg.deliveryExpiresAt, ttlExpiry with
      | some expiry, some ttl => some (if expiry < ttl then expiry else ttl)
      | some expiry, none => some expiry
      | none, ttl => ttl }

namespace PublishWorld

variable {ν : Type} [DecidableEq ν]

/-- A step of a publish. The result of one that may fail is the list of its errors. -/
abbrev Program (ν α : Type) := StateM (PublishWorld ν) α

variable (cfg : PublishConfig ν)

/-- Something happens on a node. -/
def happen (w : PublishWorld ν) (event : ν × PublishEvent ν) : PublishWorld ν :=
  { w with
    nodes := Function.update w.nodes event.1 (event.2.perform cfg.fsm.store (w.nodes event.1)) }

/-- Look at a node, after whatever has happened since the last look. -/
def look (node : ν) : Program ν (Tick ν × PublishNode ν) := fun w =>
  match w.script with
  | [] => (({}, w.nodes node), w)
  | tick :: script =>
    let w := tick.events.foldl (happen cfg) { w with script }
    ((tick, w.nodes node), w)

/-- Write back a node. -/
def setNode (node : ν) (n : PublishNode ν) : Program ν PUnit :=
  modify fun w => { w with nodes := Function.update w.nodes node n }

/-- Write back the store of a node after an append, and take note of the record. -/
def noteAppend (node : ν) (queueName : String) (record : Envelope) (store : Adapter) (offset : Nat) :
    Program ν PUnit :=
  modify fun w =>
    { w with
      nodes := Function.update w.nodes node { w.nodes node with store }
      published := { node, queueName, offset, record, store } :: w.published }

/-! ### Targets -/

def getQueue (node : ν) (queueName : String) : Program ν (Option QueueConfig) := do
  let (_, n) ← look cfg node
  pure (n.store.configs queueName)

/-- The targets of the given names; names of queues that are not found are skipped. -/
def resolveTargets (node : ν) (names : List String) : Program ν (List PublishTarget) := do
  let targets ← names.mapM fun name => do
    pure ((← getQueue cfg node name).map (PublishTarget.mk name))
  pure targets.reduceOption

def findMatchingQueues (node : ν) (topic : String) : Program ν (List String) := do
  let (_, n) ← look cfg node
  pure (n.findMatchingQueues topic)

/-- `resolveMatchingPublishTargets`, without the count of the queues it skips. -/
def resolveMatchingPublishTargets (node : ν) (topic : String) : Program ν (List PublishTarget) := do
  resolveTargets cfg node (← findMatchingQueues cfg node topic)

/-- `CreateQueue` of a queue that is not replicated. The checks that do not concern the queue
itself fail with the operation. -/
def createQueue (node : ν) (config : QueueConfig) : Program ν (Option StoreError) := do
  let (tick, n) ← look cfg node
  if tick.fails || !config.validate then pure (some .invalidTopicFilter)
  else
    let (n, err) := n.createQueue tick.now config
    setNode node n
    pure err

def getOrCreateQueue (node : ν) (queueName filter : String) : Program ν (List (PublishError ν)) := do
  if (← getQueue cfg node queueName).isSome then pure []
  else
    let err ← createQueue cfg node
      { name := queueName, topics := [filter], durable := false, expiresAfter := 300 * second }
    if err.any (· != .queueAlreadyExists) then pure [.createFailed queueName]
    else if (← getQueue cfg node queueName).isSome then pure []
    else pure [.createFailed queueName]

/-- The part of `resolvePublishTargets` that creates a queue for a topic without targets. -/
def resolveOrCreate (node : ν) (topic : String) (targets : List PublishTarget) :
    Program ν (List (PublishError ν) × List PublishTarget) := do
  if targets.isEmpty then
    let auto := autoQueueFromTopic topic
    let errs ← getOrCreateQueue cfg node auto.1 auto.2
    if errs.isEmpty then pure ([], ← resolveMatchingPublishTargets cfg node topic)
    else pure (errs, [])
  else pure ([], targets)

def resolvePublishTargets (node : ν) (cmd : PublishCommand) :
    Program ν (List (PublishError ν) × List PublishTarget) := do
  if cmd.forcedTargets ≠ [] then
    pure ([], ← resolveTargets cfg node cmd.forcedTargets)
  else
    let targets ← resolveMatchingPublishTargets cfg node cmd.envelope.topic
    resolveOrCreate cfg node cmd.envelope.topic targets

/-! ### Appends -/

def replicationWriteReadiness (node : ν) (queueName : String) :
    Program ν (Option (PublishError ν)) := do
  let (_, n) ← look cfg node
  let view := n.coordinator
  if !view.installed || !view.enabled then pure (some (.noCoordinator queueName))
  else if !view.isQueueReplicated queueName then pure (some (.noRaftGroup queueName))
  else if view.isLeader queueName then
    if cfg.configuredReplicated queueName && !view.isQueueConfigRecorded queueName then
      pure (some (.settingsNotRecorded queueName))
    else pure none
  else if (view.leaderId queueName).isNone && view.leader queueName == "" then
    pure (some (.noLeader queueName))
  else if cfg.writePolicy node == .forward && (view.leaderId queueName).isNone then
    pure (some (.noRoutableLeader queueName))
  else pure none

/-- `ApplyAppendWithOptions` on the leader of a queue. An asynchronous append succeeds before it is
known what becomes of it. -/
def applyAppend (node : ν) (queueName : String) (config : QueueConfig) (record : Envelope) :
    Program ν (List (PublishError ν)) := do
  let (tick, n) ← look cfg node
  let unstored := if config.replication.mode == .async then [] else [.appendFailed queueName]
  if tick.fails then pure unstored
  else
    -- An append walks no PEL.
    match LogFSM.applyAppend cfg.fsm ⟨tick.now, .listOrder _⟩ n.store queueName (some record) "" with
    | (store, .applied offset _) => do
      noteAppend node queueName record store offset
      pure []
    | (store, _) => do
      setNode node { n with store }
      pure unstored

/-- `appendLocalTarget`, with `appendResolved` and `appendConfiguredMessage`. -/
def appendLocalTarget (node : ν) (msg : Envelope) (target : PublishTarget) :
    Program ν (List (PublishError ν)) := do
  let (created, _) ← look cfg node
  let record := newQueuedRecord created.now msg target.name target.config
  if target.config.replication.enabled then
    match ← replicationWriteReadiness cfg node target.name with
    | some err => pure [err]
    | none =>
      let (_, n) ← look cfg node
      if n.coordinator.isLeader target.name then
        applyAppend cfg node target.name target.config record
      else pure [.notLed target.name]
  else
    let (tick, n) ← look cfg node
    if tick.fails then pure [.appendFailed target.name]
    else
      match n.store.append cfg.fsm.store tick.now target.name record with
      | (store, .ok offset) => do
        noteAppend node target.name record store offset
        pure []
      | (store, .error _) => do
        setNode node { n with store }
        pure [.appendFailed target.name]

def publishLocalToTargets (node : ν) (msg : Envelope) (targets : List PublishTarget) :
    Program ν (List (PublishError ν)) := do
  let errs ← targets.mapM (appendLocalTarget cfg node msg)
  pure errs.flatten

/-! ### Routes -/

/-- Where a target is written. -/
inductive TargetRoute (ν : Type) where
  | here
  | leader (leader : ν)
  | nowhere (err : PublishError ν)

/-- The route of one target in `writeToTargets`. -/
def routeTarget (node : ν) (target : PublishTarget) : Program ν (PublishTarget × TargetRoute ν) := do
  if !target.config.replication.enabled then pure (target, .here)
  else
    match ← replicationWriteReadiness cfg node target.name with
    | some err => pure (target, .nowhere err)
    | none =>
      if (← look cfg node).2.coordinator.isLeader target.name then pure (target, .here)
      else
        match cfg.writePolicy node with
        | .reject =>
          let (_, n) ← look cfg node
          let address := n.coordinator.leader target.name
          pure (target, .nowhere (if address != "" then .leaderAt target.name address
            else .leaderUnavailable target.name))
        | .forward =>
          let (_, n) ← look cfg node
          match n.coordinator.leaderId target.name with
          | some leader => pure (target, .leader leader)
          | none => pure (target, .nowhere (.leaderUnavailable target.name))
        | policy => pure (target, .nowhere (.invalidWritePolicy target.name policy))

/-- The targets that are written here. -/
def localTargets (routes : List (PublishTarget × TargetRoute ν)) : List PublishTarget :=
  routes.filterMap fun r => match r with
    | (target, .here) => some target
    | _ => none

/-- The errors of the targets that are not written. -/
def routeErrors (routes : List (PublishTarget × TargetRoute ν)) : List (PublishError ν) :=
  routes.filterMap fun r => match r with
    | (_, .nowhere err) => some err
    | _ => none

/-- Add the name of a queue to those that are forwarded to a leader. -/
def addForward (leader : ν) (queueName : String) : List (ν × List String) → List (ν × List String)
  | [] => [(leader, [queueName])]
  | (other, names) :: rest =>
    if other = leader then (other, names ++ [queueName]) :: rest
    else (other, names) :: addForward leader queueName rest

/-- The names of the queues that are forwarded to each leader. -/
def forwardTargets (routes : List (PublishTarget × TargetRoute ν)) : List (ν × List String) :=
  routes.foldl (fun forwards r => match r with
    | (target, .leader leader) => addForward leader target.name forwards
    | _ => forwards) []

/-! ### The publish -/

/-- A call of `HandleQueuePublish` on another node. -/
abbrev RemoteCall (ν : Type) := ν → PublishCommand → Program ν (List (PublishError ν))

variable (call : RemoteCall ν)

/-- `ForwardQueuePublish`. Request or answer may be lost. -/
def forwardQueuePublish (node remote : ν) (cmd : PublishCommand) :
    Program ν (List (PublishError ν)) := do
  let (request, _) ← look cfg node
  if request.fails then pure [.forwardFailed remote]
  else
    let errs ← call remote cmd
    let (answer, _) ← look cfg node
    pure (if !errs.isEmpty || answer.fails then [.forwardFailed remote] else [])

def forwardPublishToLeader (node : ν) (msg : Envelope) (leader : ν) (names : List String) :
    Program ν (List (PublishError ν)) := do
  let (_, n) ← look cfg node
  if !cfg.clustered node then pure [.clusterNotConfigured]
  else if !n.coordinator.installed then pure [.coordinatorUnavailable]
  else forwardQueuePublish cfg call node leader { envelope := msg, forcedTargets := names }

/-- The loop of `writeToTargets` over the leaders. -/
def forwardToLeaders (node : ν) (msg : Envelope) (policy : FanoutPolicy) :
    List (ν × List String) → Program ν (List (PublishError ν))
  | [] => pure []
  | (leader, names) :: rest => do
    let errs ← forwardPublishToLeader cfg call node msg leader names
    if !errs.isEmpty && policy == .strict then pure errs
    else pure (errs ++ (← forwardToLeaders node msg policy rest))

def writeToTargets (node : ν) (msg : Envelope) (targets : List PublishTarget)
    (policy : FanoutPolicy) : Program ν (List (PublishError ν)) := do
  let routes ← targets.mapM (routeTarget cfg node)
  let errs := routeErrors routes
  if policy == .strict && !errs.isEmpty then pure errs
  else
    let localErrs ← publishLocalToTargets cfg node msg (localTargets routes)
    if policy == .strict && !localErrs.isEmpty then pure (errs ++ localErrs)
    else
      let forwardErrs ← forwardToLeaders cfg call node msg policy (forwardTargets routes)
      pure (errs ++ localErrs ++ forwardErrs)

/-- `forwardToRemoteNodes`: the nodes with consumers of queues that this node does not have append
the message to queues of their own. -/
def forwardToRemoteNodes (node : ν) (msg : Envelope) : Program ν PUnit := do
  let (tick, n) ← look cfg node
  if tick.fails then pure ⟨⟩
  else
    let remotes ← n.consumers.mapM fun (queueName, proxy) => do
      let config ← getQueue cfg node queueName
      pure (if proxy ≠ node ∧ config.isNone ∧ Topics.topicMatch ("$queue/" ++ queueName ++ "/#") msg.topic
        then some proxy else none)
    let _ ← remotes.reduceOption.dedup.mapM fun remote =>
      forwardQueuePublish cfg call node remote { envelope := msg, mode := .forwarded }
    pure ⟨⟩

def publishToTargets (node : ν) (msg : Envelope) (targets : List PublishTarget)
    (policy : FanoutPolicy) : Program ν (List (PublishError ν)) := do
  let errs ← writeToTargets cfg call node msg targets policy
  if cfg.clustered node then forwardToRemoteNodes cfg call node msg
  pure errs

def publishLocal (node : ν) (cmd : PublishCommand) : Program ν (List (PublishError ν)) := do
  let (errs, targets) ← resolvePublishTargets cfg node cmd
  if errs.isEmpty then publishLocalToTargets cfg node cmd.envelope targets else pure errs

/-- The part of `PublishCommand` that follows the resolution of its targets. -/
def publishResolved (node : ν) (msg : Envelope)
    (resolved : List (PublishError ν) × List PublishTarget) : Program ν (List (PublishError ν)) :=
  if !resolved.1.isEmpty then pure resolved.1
  else if resolved.2.isEmpty then pure []
  else publishToTargets cfg call node msg resolved.2 .strict

/-- `PublishCommand`, with the calls it makes on other nodes. -/
def handlePublish : RemoteCall ν := fun node cmd => do
  if !cfg.validEnvelope cmd.envelope then pure [.invalidCommand]
  else if cmd.mode = .normal then
    publishResolved cfg call node cmd.envelope (← resolvePublishTargets cfg node cmd)
  else publishLocal cfg node cmd

/-- `PublishCommand`, where a chain of forwards that is longer than `hops` runs out of time. -/
def publishCommand : Nat → RemoteCall ν
  | 0 => handlePublish cfg fun remote _ => pure [.forwardFailed remote]
  | hops + 1 => handlePublish cfg (publishCommand hops)

end PublishWorld

end FluxMQ
