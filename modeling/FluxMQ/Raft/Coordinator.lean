import FluxMQ.Library.Runs
import FluxMQ.Types.QueueConfig

/-!
# Queues and their raft groups

`LogicalGroupCoordinator` of `queue/raft/coordinator.go` assigns queues to raft groups, and
`raftGroupProvisioner` of `queue/raft/setup.go` starts the managers of groups that are first named
while the broker runs and stops those no queue names any more.

Each of the two has a lock, and both are given up between looking and acting. A call is therefore a
state machine of its own: what it does between taking and giving up a lock is one step, and so are the
start of a manager, the wait for its leader and its stop, which are made without a lock. The steps of
different calls come in any order. Whether a manager starts and finds a leader comes with the step.

`Manager.Stop` closes a channel and never fails; closing it a second time is a panic, after which
nothing runs. Of a manager only its group, its address and whether it runs are kept.
-/

namespace FluxMQ

/-! ### Configuration -/

/-- `RaftGroupConfig`: what the configuration says of one group. -/
structure RaftGroupConfig where
  enabled : Option Bool := none
  bindAddr : String := ""
  peers : List (String × String) := []

/-- `RaftConfig`. How a port is read out of an address and moved (`addPortOffset`, with `net`) is a
parameter; it fails if there is none or it leaves the range of ports. -/
structure RaftConfig where
  bindAddr : String := ""
  peers : List (String × String) := []
  groups : String → Option RaftGroupConfig := fun _ => none
  autoProvisionGroups : Bool := true
  addPortOffset : String → Nat → Option String

/-- Why a group cannot be had. -/
inductive GroupError where
  | disabled (gid : String)
  | notConfigured (gid : String)
  | baseBindAddrEmpty (gid : String)
  | underivable (gid : String)
  | collisions (gid : String)
  | bindAddrRequired (gid : String)
  | peersRequired (gid : String)
  | collides (gid bindAddr existingGroup : String)
  | notStarted (gid : String)
  deriving Repr, DecidableEq

/-- FNV-1a with 32 bits. -/
def fnv32a (bytes : List UInt8) : Nat :=
  bytes.foldl (fun hash byte => ((hash ^^^ byte.toNat) * 16777619) % 2 ^ 32) 2166136261

def portOffsetForGroup (groupID : String) : Nat :=
  fnv32a groupID.toUTF8.toList % 10000 + 10000

namespace RaftConfig

variable (cfg : RaftConfig)

/-- The attempts of `deriveAutoGroupConfig` from the `i`th on. -/
def deriveFrom (used : String → Bool) (gid : String) :
    (attempts i : Nat) → Except GroupError RaftGroupConfig
  | 0, _ => .error (.collisions gid)
  | attempts + 1, i =>
    let tag := if i = 0 then gid else gid ++ "-" ++ toString i
    let offset := portOffsetForGroup tag
    match cfg.addPortOffset (trimSpace cfg.bindAddr) offset,
      cfg.peers.mapM fun peer => (cfg.addPortOffset peer.2 offset).map (peer.1, ·) with
    | some bindAddr, some peers =>
      if used bindAddr then deriveFrom used gid attempts (i + 1)
      else .ok { bindAddr, peers }
    | _, _ => .error (.underivable gid)

/-- `deriveAutoGroupConfig`: an address of its own for a group that is not configured. -/
def deriveAutoGroupConfig (used : String → Bool) (gid : String) :
    Except GroupError RaftGroupConfig :=
  if trimSpace cfg.bindAddr = "" then .error (.baseBindAddrEmpty gid)
  else cfg.deriveFrom used gid 32 0

/-- `resolveRaftGroupRuntime` for a group without endpoints of the base configuration; the address it
binds. -/
def resolveRaftGroupRuntime (gid : String) (override : RaftGroupConfig) :
    Except GroupError String :=
  if trimSpace override.bindAddr = "" then .error (.bindAddrRequired gid)
  else if override.peers = [] then .error (.peersRequired gid)
  else .ok (trimSpace override.bindAddr)

/-- The address that `GetOrCreateGroup` finds for a group. -/
def runtimeAddr (used : String → Bool) (gid : String) : Except GroupError String :=
  match cfg.groups gid with
  | some groupCfg =>
    if groupCfg.enabled = some false then .error (.disabled gid)
    else resolveRaftGroupRuntime gid groupCfg
  | none =>
    if cfg.autoProvisionGroups then
      match cfg.deriveAutoGroupConfig used gid with
      | .ok groupCfg => resolveRaftGroupRuntime gid groupCfg
      | .error err => .error err
    else .error (.notConfigured gid)

end RaftConfig

/-- What the broker is started with: its configuration and the groups that are started at once, each
with its address. Without a provisioner no other group can be had. -/
structure RaftSetup where
  raft : RaftConfig
  hasProvisioner : Bool := true
  runtimes : List (String × String)
  /-- The default group is among them. -/
  default_mem : defaultGroupID ∈ runtimes.map Prod.fst
  /-- No group is started twice. This is up to the configuration: `buildRaftGroupRuntimes` trims the
  names and compares only the addresses, so that `billing` and ` billing` would be started both. -/
  groups_nodup : (runtimes.map Prod.fst).Nodup
  /-- No two of them bind one address. -/
  addrs_nodup : (runtimes.map Prod.snd).Nodup

/-- Whether the group was started with the broker; such a group is never released. -/
def RaftSetup.isStatic (setup : RaftSetup) (gid : String) : Bool :=
  (setup.runtimes.map Prod.fst).contains gid

/-! ### The provisioner -/

/-- A raft manager. -/
structure RaftManager where
  group : String
  bindAddr : String
  running : Bool
  deriving Repr, DecidableEq

/-- The tables of `raftGroupProvisioner`. A manager is known by its number. -/
structure Provisioner where
  managers : String → Option Nat
  inflight : String → Bool
  usedBind : String → Option String
  bindByGroup : String → Option String

/-- What `GetOrCreateGroup` does after it has looked at the tables. -/
inductive Provision where
  | found (manager : Nat)
  | wait
  | reserved (bindAddr : String)
  | failed (err : GroupError)
  deriving Repr, DecidableEq

namespace Provisioner

variable (p : Provisioner) (gid : String)

/-- `GetOrCreateGroup` under its lock: the manager that is there, the call that is starting it, or a
reserved place to start one. -/
def getOrCreateGroup (cfg : RaftConfig) : Provisioner × Provision :=
  match p.managers gid with
  | some manager => (p, .found manager)
  | none =>
    if p.inflight gid then (p, .wait)
    else
      match cfg.runtimeAddr (fun addr => (p.usedBind addr).isSome) gid with
      | .error err => (p, .failed err)
      | .ok bindAddr =>
        match (p.usedBind bindAddr).filter fun existing => existing != gid with
        | some existing => (p, .failed (.collides gid bindAddr existing))
        | none =>
          ({ p with
              inflight := Function.update p.inflight gid true
              usedBind := Function.update p.usedBind bindAddr (some gid)
              bindByGroup := Function.update p.bindByGroup gid (some bindAddr) },
            .reserved bindAddr)

/-- The reservation of an address is given up by its group. -/
def releaseBind (bindAddr : String) : String → Option String :=
  if p.usedBind bindAddr = some gid then Function.update p.usedBind bindAddr none else p.usedBind

/-- The end of `GetOrCreateGroup`: the manager is stored, or the reservation rolled back. -/
def finishProvision (bindAddr : String) : Option Nat → Provisioner
  | some manager =>
    { p with
      inflight := Function.update p.inflight gid false
      managers := Function.update p.managers gid (some manager) }
  | none =>
    { p with
      inflight := Function.update p.inflight gid false
      usedBind := p.releaseBind gid bindAddr
      bindByGroup := Function.update p.bindByGroup gid none }

/-- The end of `TryReleaseGroup`, unless another manager has taken the place of the stopped one. -/
def forget (bindAddr : Option String) : Provisioner :=
  { p with
    managers := Function.update p.managers gid none
    bindByGroup := Function.update p.bindByGroup gid none
    usedBind := match bindAddr with
      | some addr => p.releaseBind gid addr
      | none => p.usedBind }

end Provisioner

/-! ### Calls -/

/-- Where `ensureGroup` stands. -/
inductive AcquireStage where
  /-- Before its look at the members. -/
  | lookup
  /-- Before `GetOrCreateGroup` looks at its tables. -/
  | provision
  /-- The address is reserved. -/
  | start (bindAddr : String)
  /-- The manager runs and has no leader yet. -/
  | waitLeader (manager : Nat) (bindAddr : String)
  /-- The start has ended, with a manager or without. -/
  | finish (manager : Option Nat) (bindAddr : String)
  /-- Before the manager becomes a member. -/
  | register (manager : Nat)
  deriving Repr, DecidableEq

/-- Where `maybeReleaseGroup` stands. -/
inductive ReleaseStage where
  /-- Before its look at the queues. -/
  | check
  /-- Before `TryReleaseGroup` looks at its tables. -/
  | tryRelease
  /-- Before the manager is stopped. -/
  | stop (manager : Nat) (bindAddr : Option String)
  /-- The manager is stopped and still in the tables. -/
  | forget (manager : Nat) (bindAddr : Option String)
  /-- The provisioner has released the group. -/
  | dropMember
  deriving Repr, DecidableEq

/-- A call, where it stands. `update` tells `UpdateQueue` from `EnsureQueue`. -/
inductive CallState where
  | returned (err : Option GroupError)
  | acquiring (config : QueueConfig) (update : Bool) (stage : AcquireStage)
  | assigning (config : QueueConfig) (update : Bool)
  | unmapping (queueName : String)
  | releasing (gid : String) (stage : ReleaseStage)
  deriving Repr, DecidableEq

/-- Whether the call has returned. -/
def CallState.isReturned : CallState → Bool
  | .returned _ => true
  | _ => false

/-- `EnsureQueue`, `UpdateQueue` or `DeleteQueue`. -/
inductive QueueCall where
  | ensureQueue (config : QueueConfig)
  | updateQueue (config : QueueConfig)
  | deleteQueue (queueName : String)
  deriving Repr, DecidableEq

/-- The raft group a configuration names. -/
@[irreducible]
def QueueConfig.raftGroup (config : QueueConfig) : String :=
  normalizeGroupID config.replication.group

/-- The beginning of a call that assigns a queue: the group is needed only if it is replicated. -/
def CallState.assign (config : QueueConfig) (update : Bool) : CallState :=
  if config.replication.enabled then .acquiring config update .lookup else .assigning config update

/-- The beginning of a call. -/
def QueueCall.begin : QueueCall → CallState
  | .ensureQueue config => .assign config false
  | .updateQueue config => .assign config true
  | .deleteQueue queueName => .unmapping queueName

/-! ### The coordinator -/

/-- The coordinator with its provisioner, all managers ever started, and all calls ever made. -/
structure RaftGroups where
  queueGroups : AList fun _ : String => String
  groupMembers : String → Option Nat
  defaultReplicator : Nat
  provisioner : Provisioner
  started : List RaftManager
  calls : List CallState
  /-- The process has panicked. -/
  crashed : Bool

namespace RaftGroups

variable (setup : RaftSetup) (w : RaftGroups) (slot : Nat)

/-- The broker after its start. -/
def boot : RaftGroups :=
  let managers := fun gid => (setup.runtimes.map Prod.fst).idxOf? gid
  { queueGroups := ∅
    groupMembers := managers
    defaultReplicator := (setup.runtimes.map Prod.fst).idxOf defaultGroupID
    provisioner :=
      { managers
        inflight := fun _ => false
        usedBind := fun addr => (setup.runtimes.find? fun r => r.2 == addr).map Prod.fst
        bindByGroup := fun gid => (setup.runtimes.find? fun r => r.1 == gid).map Prod.snd }
    started := setup.runtimes.map fun r => RaftManager.mk r.1 r.2 true
    calls := []
    crashed := false }

def replicatorForQueue (queueName : String) : Nat :=
  let gid := match w.queueGroups.lookup queueName with
    | some gid => if gid = "" then defaultGroupID else gid
    | none => defaultGroupID
  (w.groupMembers gid).getD w.defaultReplicator

/-- Some queue is assigned to the group. -/
def inUse (gid : String) : Bool :=
  w.queueGroups.entries.any fun entry => normalizeGroupID entry.2 == gid

def ensureQueueAssignment (config : QueueConfig) : AList fun _ : String => String :=
  if config.replication.enabled then w.queueGroups.insert config.name config.raftGroup
  else w.queueGroups.erase config.name

/-- The call stands somewhere else. -/
def goto (state : CallState) : RaftGroups :=
  { w with calls := w.calls.set slot state }

/-- `Manager.Stop`. -/
def stopManager (manager : Nat) : RaftGroups :=
  match w.started[manager]? with
  | some m =>
    if m.running then { w with started := w.started.set manager { m with running := false } }
    else { w with crashed := true }
  | none => w

/-- One step of `ensureGroup`. -/
def ensureGroup (ok : Bool) (config : QueueConfig) (update : Bool) : AcquireStage → RaftGroups
  | .lookup =>
    match w.groupMembers config.raftGroup with
    | some _ => w.goto slot (.assigning config update)
    | none =>
      if setup.hasProvisioner then w.goto slot (.acquiring config update .provision)
      else w.goto slot (.returned (some (.notConfigured config.raftGroup)))
  | .provision =>
    let result := w.provisioner.getOrCreateGroup config.raftGroup setup.raft
    match result.2 with
    | .found manager => w.goto slot (.acquiring config update (.register manager))
    | .wait => w
    | .reserved bindAddr =>
      { w with provisioner := result.1 }.goto slot (.acquiring config update (.start bindAddr))
    | .failed err => w.goto slot (.returned (some err))
  | .start bindAddr =>
    if ok then
      { w with started := w.started ++ [RaftManager.mk config.raftGroup bindAddr true] }.goto slot
        (.acquiring config update (.waitLeader w.started.length bindAddr))
    else w.goto slot (.acquiring config update (.finish none bindAddr))
  | .waitLeader manager bindAddr =>
    if ok then w.goto slot (.acquiring config update (.finish (some manager) bindAddr))
    else (w.stopManager manager).goto slot (.acquiring config update (.finish none bindAddr))
  | .finish manager bindAddr =>
    { w with
      provisioner := w.provisioner.finishProvision config.raftGroup bindAddr manager }.goto slot
        (match manager with
        | some manager => .acquiring config update (.register manager)
        | none => .returned (some (.notStarted config.raftGroup)))
  | .register manager =>
    match w.groupMembers config.raftGroup with
    | some _ => w.goto slot (.assigning config update)
    | none =>
      { w with
        groupMembers := Function.update w.groupMembers config.raftGroup (some manager) }.goto slot
          (.assigning config update)

/-- The assignment of `EnsureQueue` and `UpdateQueue`. Only the latter releases the group that the
queue had before. -/
def assign (config : QueueConfig) (update : Bool) : RaftGroups :=
  let assigned := { w with queueGroups := w.ensureQueueAssignment config }
  match w.queueGroups.lookup config.name with
  | some previous =>
    if update ∧ (assigned.queueGroups.lookup config.name).map normalizeGroupID ≠
        some (normalizeGroupID previous) then
      assigned.goto slot (.releasing (normalizeGroupID previous) .check)
    else assigned.goto slot (.returned none)
  | none => assigned.goto slot (.returned none)

/-- The first half of `DeleteQueue`. -/
def unmap (queueName : String) : RaftGroups :=
  let unmapped := { w with queueGroups := w.queueGroups.erase queueName }
  match w.queueGroups.lookup queueName with
  | some previous => unmapped.goto slot (.releasing (normalizeGroupID previous) .check)
  | none => unmapped.goto slot (.returned none)

/-- One step of `maybeReleaseGroup`. -/
def maybeReleaseGroup (gid : String) : ReleaseStage → RaftGroups
  | .check =>
    if gid = defaultGroupID ∨ setup.hasProvisioner = false ∨ w.inUse gid ∨
        w.groupMembers gid = none then
      w.goto slot (.returned none)
    else w.goto slot (.releasing gid .tryRelease)
  | .tryRelease =>
    if setup.isStatic gid then w.goto slot (.returned none)
    else
      match w.provisioner.managers gid with
      | none => w.goto slot (.returned none)
      | some manager =>
        w.goto slot (.releasing gid (.stop manager (w.provisioner.bindByGroup gid)))
  | .stop manager bindAddr =>
    (w.stopManager manager).goto slot (.releasing gid (.forget manager bindAddr))
  | .forget manager bindAddr =>
    if w.provisioner.managers gid = some manager then
      { w with provisioner := w.provisioner.forget gid bindAddr }.goto slot
        (.releasing gid .dropMember)
    else w.goto slot (.returned none)
  | .dropMember =>
    if w.inUse gid then w.goto slot (.returned none)
    else
      { w with groupMembers := Function.update w.groupMembers gid none }.goto slot (.returned none)

/-- One step of a call. -/
def advance (ok : Bool) : CallState → RaftGroups
  | .returned _ => w
  | .acquiring config update stage => w.ensureGroup setup slot ok config update stage
  | .assigning config update => w.assign slot config update
  | .unmapping queueName => w.unmap slot queueName
  | .releasing gid stage => w.maybeReleaseGroup setup slot gid stage

end RaftGroups

/-- A call is made, or one makes its next step; `ok` says whether a manager starts, or finds its
leader, in a step that waits for that. -/
inductive CoordinatorAction where
  | call (call : QueueCall)
  | advance (slot : Nat) (ok : Bool)
  deriving Repr, DecidableEq

namespace RaftGroups

variable (setup : RaftSetup) (w : RaftGroups)

/-- One step of the coordinator. -/
def step : CoordinatorAction → RaftGroups
  | .call call => { w with calls := w.calls ++ [call.begin] }
  | .advance slot ok =>
    match w.crashed, w.calls[slot]? with
    | false, some state => w.advance setup slot ok state
    | _, _ => w

/-- Every call has returned. -/
def AllReturned : Prop :=
  w.crashed = false ∧ ∀ call ∈ w.calls, call.isReturned = true

instance : Decidable w.AllReturned :=
  inferInstanceAs (Decidable (_ ∧ ∀ call ∈ w.calls, call.isReturned = true))

/-- The manager is one of the group and runs. -/
def Runs (manager : Nat) (gid : String) : Prop :=
  ∃ bindAddr, w.started[manager]? = some (RaftManager.mk gid bindAddr true)

/-- Every queue that is assigned to a group has a running manager of that group. -/
def Served : Prop :=
  ∀ queueName, ∀ gid ∈ w.queueGroups.lookup queueName, w.Runs (w.replicatorForQueue queueName) gid

/-- No two running managers are of one group or bind one address. -/
def Exclusive : Prop :=
  ∀ (one other : Nat) (gid gid' addr addr' : String),
    w.started[one]? = some (RaftManager.mk gid addr true) →
      w.started[other]? = some (RaftManager.mk gid' addr' true) →
        gid = gid' ∨ addr = addr' → one = other

end RaftGroups

end FluxMQ
