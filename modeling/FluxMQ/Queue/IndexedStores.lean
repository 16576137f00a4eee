import FluxMQ.Library.Runs
import FluxMQ.Logstorage.Adapter
import FluxMQ.Memory.Store
import FluxMQ.Queue.TopicIndex

/-!
# The queue stores with their topic index

Both queue stores keep a `TopicIndex` beside the configurations of the queues: `Store` in
`queue/storage/memory/log/store.go`, and `Adapter` in `logstorage/adapter.go` with
`logstorage/snapshot.go`. The operations here are those that change a configuration or the index.

* `IndexedStore`, `IndexedAdapter`: a store and its index, with the operations and the runs of them.
* `Follows`: a lookup gives the queues that have a pattern for the topic now.
* `findMatchingQueues_follows`: it does in both stores, as long as no update changes the topics in
  memory, and no write of a configuration to the disk fails.
-/

namespace FluxMQ.Queue

open Topics

/-- A lookup gives each queue that has a pattern for the topic, once. -/
def Follows (configs : String → Option QueueConfig) (findMatchingQueues : String → List String) : Prop :=
  ∀ topic, validTopicName topic = true →
    (findMatchingQueues topic).Nodup ∧
    ∀ q, q ∈ findMatchingQueues topic ↔
      ∃ config, configs q = some config ∧ ∃ pattern ∈ config.topics, Topics.topicMatch pattern topic = true

/-- The index knows the patterns that each queue has, all of which are valid. -/
structure InStep (configs : String → Option QueueConfig) (idx : TopicIndex) : Prop where
  queues : ∀ q, idx.queues q = (configs q).map QueueConfig.topics
  valid : ∀ q config, configs q = some config → validTopicFilters config.topics = true

namespace InStep

variable {configs : String → Option QueueConfig} {idx : TopicIndex}

lemma follows (h : InStep configs idx) : Follows configs idx.findMatching := by
  intro topic htopic
  refine ⟨TopicIndex.nodup_findMatching, fun q => ?_⟩
  rw [TopicIndex.mem_findMatching (topic_ne_of_valid htopic)]
  · simp [h.queues]
  intro q patterns hpatterns
  rw [h.queues, Option.map_eq_some_iff] at hpatterns
  obtain ⟨config, hconfig, rfl⟩ := hpatterns
  exact h.valid q config hconfig

lemma empty : InStep (fun _ => none) .newTopicIndex := ⟨fun _ => rfl, by simp⟩

section

variable (h : InStep configs idx)
include h

/-- The configuration of one queue changes, and the index follows. -/
lemma update {idx' : TopicIndex} {name : String} {entry : Option QueueConfig}
    (hqueues : idx'.queues = Function.update idx.queues name (entry.map QueueConfig.topics))
    (hvalid : ∀ config, entry = some config → validTopicFilters config.topics = true) :
    InStep (Function.update configs name entry) idx' where
  queues q := by
    by_cases hq : q = name
    · simp [hqueues, hq]
    · simp [hqueues, hq, h.queues]
  valid q c hc := by
    by_cases hq : q = name
    · rw [hq, Function.update_self] at hc
      exact hvalid c hc
    · rw [Function.update_of_ne hq] at hc
      exact h.valid q c hc

/-- A configuration is stored and its topics are put into the index. -/
lemma addQueue {config : QueueConfig} (hvalid : validTopicFilters config.topics = true) :
    InStep (Function.update configs config.name (some config))
      (idx.addQueue config.name config.topics) :=
  h.update rfl fun _ hc => Option.some.inj hc ▸ hvalid

/-- A configuration is removed and the index forgets the queue. -/
lemma removeQueue (queueName : String) :
    InStep (Function.update configs queueName none) (idx.removeQueue queueName) :=
  h.update rfl fun _ hc => by cases hc

/-- A configuration takes the place of one with the same topics. -/
lemma replace {config current : QueueConfig} (hcurrent : configs config.name = some current)
    (htopics : config.topics = current.topics) :
    InStep (Function.update configs config.name (some config)) idx := by
  refine h.update ?_ fun c hc => ?_
  · simp [htopics, ← show idx.queues config.name = some current.topics by simp [h.queues, hcurrent]]
  · rw [← Option.some.inj hc, htopics]
    exact h.valid _ _ hcurrent

end

end InStep

/-- A configuration that passes the whole check has valid topics. -/
lemma validTopicFilters_of_validate {config : QueueConfig} (h : config.validate = true) :
    validTopicFilters config.topics = true := by
  rw [QueueConfig.validate] at h
  by_contra hnot
  rw [Bool.not_eq_true] at hnot
  simp only [hnot, Bool.false_and] at h
  cases h

/-! ### The store in memory -/

/-- `Store` with its topic index. -/
structure IndexedStore where
  store : MemoryStore := {}
  topicIndex : TopicIndex := .newTopicIndex

namespace IndexedStore

variable (s : IndexedStore)

def createQueue (config : QueueConfig) : IndexedStore × Option StoreError :=
  match s.store.createQueue config with
  | (store, some err) => ({ s with store }, some err)
  | (store, none) => (⟨store, s.topicIndex.addQueue config.name config.topics⟩, none)

def updateQueue (config : QueueConfig) : IndexedStore × Option StoreError :=
  if !validTopicFilters config.topics then (s, some .invalidTopicFilter)
  else if (s.store.logs config.name).isNone then (s, some .queueNotFound)
  else
    -- The index is not told.
    ({ s with store.logs := Function.update s.store.logs config.name (some config) }, none)

def deleteQueue (queueName : String) : IndexedStore × Option StoreError :=
  match s.store.deleteQueue queueName with
  | (store, some err) => ({ s with store }, some err)
  | (store, none) => (⟨store, s.topicIndex.removeQueue queueName⟩, none)

/-- `RestoreQueue` replaces what there is, reserved queues as well. -/
def restoreQueue (config : QueueConfig) : IndexedStore × Option StoreError :=
  if !config.validate then (s, some .invalidConfig)
  else
    ({ store :=
        { logs := Function.update s.store.logs config.name (some config)
          groups := Function.update s.store.groups config.name (some fun _ => none) }
       topicIndex := s.topicIndex.addQueue config.name config.topics }, none)

/-- `ResetForRestore` of one of the queues named. -/
def resetQueue (s : IndexedStore) (name : String) : IndexedStore :=
  if (s.store.logs name).isNone then s
  else
    { store :=
        { logs := Function.update s.store.logs name none
          groups := Function.update s.store.groups name none }
      topicIndex := s.topicIndex.removeQueue name }

def resetForRestore (queueNames : List String) : IndexedStore :=
  queueNames.foldl resetQueue s

def findMatchingQueues (topic : String) : List String :=
  s.topicIndex.findMatching topic

/-- A call of the store. -/
inductive Action where
  | createQueue (config : QueueConfig)
  | updateQueue (config : QueueConfig)
  | deleteQueue (queueName : String)
  | restoreQueue (config : QueueConfig)
  | resetForRestore (queueNames : List String)

def step (s : IndexedStore) : Action → IndexedStore
  | .createQueue config => (s.createQueue config).1
  | .updateQueue config => (s.updateQueue config).1
  | .deleteQueue queueName => (s.deleteQueue queueName).1
  | .restoreQueue config => (s.restoreQueue config).1
  | .resetForRestore queueNames => s.resetForRestore queueNames

/-- An update leaves the topics of its queue as they are. -/
def KeepsTopics (s : IndexedStore) : Action → Prop
  | .updateQueue config =>
    ∀ current ∈ s.store.logs config.name, config.topics = current.topics
  | _ => True

lemma inStep_resetQueue {s : IndexedStore} {name : String} (h : InStep s.store.logs s.topicIndex) :
    InStep (s.resetQueue name).store.logs (s.resetQueue name).topicIndex := by
  unfold resetQueue
  split
  · exact h
  · exact h.removeQueue name

/-- A creation changes the index if it changes the store. -/
lemma createQueue_fst (config : QueueConfig) :
    (s.createQueue config).1.store = (s.store.createQueue config).1 ∧
      (s.createQueue config).1.topicIndex = if (s.store.createQueue config).2.isSome then s.topicIndex
        else s.topicIndex.addQueue config.name config.topics := by
  -- The equation of the definition would evaluate the check of the configuration.
  delta createQueue
  generalize s.store.createQueue config = created
  obtain ⟨store, err⟩ := created
  cases err with
  | none | some err => exact ⟨rfl, rfl⟩

lemma inStep_step (s : IndexedStore) (a : Action) (h : InStep s.store.logs s.topicIndex)
    (hkeeps : s.KeepsTopics a) : InStep (s.step a).store.logs (s.step a).topicIndex := by
  cases a with
  | createQueue config =>
    obtain ⟨hstore, hindex⟩ := s.createQueue_fst config
    simp only [step]
    rw [hstore, hindex, MemoryStore.createQueue]
    by_cases hvalid : config.validate = true
    · by_cases hexists : (s.store.logs config.name).isSome
      · simpa [hvalid, hexists] using h
      · simpa [hvalid, hexists] using h.addQueue (validTopicFilters_of_validate hvalid)
    · simpa [hvalid] using h
  | updateQueue config =>
    simp only [step, updateQueue]
    by_cases hvalid : validTopicFilters config.topics = true
    · cases hcurrent : s.store.logs config.name with
      | none => simpa [hvalid] using h
      | some current => simpa [hvalid] using h.replace hcurrent (hkeeps current hcurrent)
    · simpa [hvalid] using h
  | deleteQueue queueName =>
    simp only [step, deleteQueue, MemoryStore.deleteQueue]
    by_cases hreserved : (s.store.logs queueName).any fun config => config.reserved
    · simpa [hreserved] using h
    · simpa [hreserved] using h.removeQueue queueName
  | restoreQueue config =>
    simp only [step, restoreQueue]
    by_cases hvalid : config.validate = true
    · simpa [hvalid] using h.addQueue (validTopicFilters_of_validate hvalid)
    · simpa [hvalid] using h
  | resetForRestore queueNames =>
    induction queueNames generalizing s with
    | nil => exact h
    | cons name names ih => exact ih _ (inStep_resetQueue h) trivial

end IndexedStore

/-! ### The store on disk -/

/-- Why an operation of the store on disk failed. -/
inductive DiskError where
  | store (err : StoreError)
  | write
  deriving Repr, DecidableEq

/-- `Adapter` with its topic index. -/
structure IndexedAdapter where
  adapter : Adapter := {}
  topicIndex : TopicIndex := .newTopicIndex

namespace IndexedAdapter

variable (a : IndexedAdapter)

/-- The end of `CreateQueue` and of `UpdateQueue`: `Save` has put the configuration into its map, and
reports whether it could be written. -/
def saved (config : QueueConfig) (adapter : Adapter) (written : Bool) :
    IndexedAdapter × Option DiskError :=
  if written then (⟨adapter, a.topicIndex.addQueue config.name config.topics⟩, none)
  else ({ a with adapter }, some .write)

def createQueue (now : Time) (config : QueueConfig) (written : Bool) :
    IndexedAdapter × Option DiskError :=
  match a.adapter.createQueue now config with
  | (adapter, some err) => ({ a with adapter }, some (.store err))
  | (adapter, none) => a.saved config adapter written

def updateQueue (config : QueueConfig) (written : Bool) : IndexedAdapter × Option DiskError :=
  match a.adapter.updateQueue config with
  | (adapter, some err) => ({ a with adapter }, some (.store err))
  | (adapter, none) => a.saved config adapter written

/-- `DeleteQueue` takes the queue from the index and from the map of configurations, and goes on to the
log if this could be written. -/
def deleteQueue (queueName : String) (written : Bool) : IndexedAdapter × Option DiskError :=
  let topicIndex := a.topicIndex.removeQueue queueName
  if written then
    let (adapter, err) := a.adapter.deleteQueue queueName
    (⟨adapter, topicIndex⟩, err.map .store)
  else
    (⟨{ a.adapter with configs := Function.update a.adapter.configs queueName none }, topicIndex⟩,
      some .write)

/-- The queue that was to be deleted is gone, or was not there. -/
def isGone : Option DiskError → Bool
  | none | some (.store .queueNotFound) | some (.store .logQueueNotFound) => true
  | _ => false

/-- `RestoreQueue`; each of its two writes may fail. -/
def restoreQueue (now : Time) (config : QueueConfig) (head : Nat) (deleted written : Bool) :
    IndexedAdapter × Option DiskError :=
  if !config.validate then (a, some (.store .invalidConfig))
  else
    match a.deleteQueue config.name deleted with
    | (a, err) =>
      if !isGone err then (a, err)
      else
        match a.createQueue now config written with
        | (a, some err) => (a, some err)
        | (a, none) =>
          if 0 < head then
            let (adapter, err) := a.adapter.truncate now config.name head
            ({ a with adapter }, err.map .store)
          else (a, none)

/-- `ResetForRestore`, with what came of the write for each queue. It stops when one cannot be
deleted. -/
def resetForRestore : IndexedAdapter → List (String × Bool) → IndexedAdapter × Option DiskError
  | a, [] => (a, none)
  | a, (queueName, written) :: queues =>
    match a.deleteQueue queueName written with
    | (a, err) => if isGone err then resetForRestore a queues else (a, err)

def findMatchingQueues (topic : String) : List String :=
  a.topicIndex.findMatching topic

/-- A call of the store, with what comes of its writes. -/
inductive Action where
  | createQueue (now : Time) (config : QueueConfig) (written : Bool)
  | updateQueue (config : QueueConfig) (written : Bool)
  | deleteQueue (queueName : String) (written : Bool)
  | restoreQueue (now : Time) (config : QueueConfig) (head : Nat) (deleted written : Bool)
  | resetForRestore (queues : List (String × Bool))

def step (a : IndexedAdapter) : Action → IndexedAdapter
  | .createQueue now config written => (a.createQueue now config written).1
  | .updateQueue config written => (a.updateQueue config written).1
  | .deleteQueue queueName written => (a.deleteQueue queueName written).1
  | .restoreQueue now config head deleted written =>
    (a.restoreQueue now config head deleted written).1
  | .resetForRestore queues => (a.resetForRestore queues).1

/-- A configuration that is stored is written. -/
def Writes (_ : IndexedAdapter) : Action → Prop
  | .createQueue _ _ written | .updateQueue _ written | .restoreQueue _ _ _ _ written => written = true
  | _ => True

/-- The index is in step with the map of configurations. -/
abbrev Indexed (a : IndexedAdapter) : Prop := InStep a.adapter.configs a.topicIndex

section

variable {a : IndexedAdapter}

lemma inStep_createQueue (now : Time) (config : QueueConfig) (h : a.Indexed) :
    (a.createQueue now config true).1.Indexed := by
  simp only [createQueue, Adapter.createQueue]
  by_cases hvalid : validTopicFilters config.topics = true
  · by_cases hlog : (a.adapter.logs config.name).isSome
    · by_cases hexists : (a.adapter.configs config.name).isSome
      · simpa [hvalid, hlog, hexists] using h
      · simpa [hvalid, hlog, hexists, saved] using h.addQueue hvalid
    · simpa [hvalid, hlog, saved] using h.addQueue hvalid
  · simpa [hvalid] using h

lemma inStep_deleteQueue (queueName : String) (written : Bool) (h : a.Indexed) :
    (a.deleteQueue queueName written).1.Indexed := by
  have hremoved := h.removeQueue queueName
  cases written with
  | false => simpa [deleteQueue] using hremoved
  | true =>
    simp only [deleteQueue, Adapter.deleteQueue]
    by_cases hlog : (a.adapter.logs queueName).isNone
    · simpa [hlog] using hremoved
    · simpa [hlog] using hremoved

lemma configs_truncate {a : Adapter} {now : Time} {queueName : String} {head : Nat} :
    (a.truncate now queueName head).1.configs = a.configs := by
  unfold Adapter.truncate
  split <;> rfl

lemma inStep_restoreQueue {now : Time} {config : QueueConfig} {head : Nat} {deleted : Bool}
    (h : a.Indexed) : (a.restoreQueue now config head deleted true).1.Indexed := by
  have hdeleted := inStep_deleteQueue config.name deleted h
  have hcreated := inStep_createQueue now config hdeleted
  unfold restoreQueue
  split
  · exact h
  dsimp only
  split
  · exact hdeleted
  split
  · rename_i heq
    rwa [heq] at hcreated
  rename_i heq
  rw [heq] at hcreated
  split
  · simpa [Indexed, configs_truncate] using hcreated
  · exact hcreated

lemma inStep_step (a : IndexedAdapter) (act : Action) (h : a.Indexed) (hwrites : a.Writes act) :
    (a.step act).Indexed := by
  cases act with
  | createQueue now config written =>
    obtain rfl : written = true := hwrites
    exact inStep_createQueue now config h
  | updateQueue config written =>
    obtain rfl : written = true := hwrites
    simp only [step, updateQueue, Adapter.updateQueue]
    by_cases hvalid : validTopicFilters config.topics = true
    · simpa [hvalid, saved] using h.addQueue hvalid
    · simpa [hvalid] using h
  | deleteQueue queueName written => exact inStep_deleteQueue queueName written h
  | restoreQueue now config head deleted written =>
    obtain rfl : written = true := hwrites
    exact inStep_restoreQueue h
  | resetForRestore queues =>
    simp only [step]
    induction queues generalizing a with
    | nil => exact h
    | cons queue queues ih =>
      simp only [resetForRestore]
      split
      · exact ih _ (inStep_deleteQueue queue.1 queue.2 h) trivial
      · exact inStep_deleteQueue queue.1 queue.2 h

end

end IndexedAdapter

/-! ### The index follows the configurations -/

/-- In every state that either store can reach, a lookup gives the queues that have a pattern for the
topic now, each once, as long as no update in memory changes the topics of its queue and no write of a
configuration to the disk fails. -/
theorem findMatchingQueues_follows (memory : List IndexedStore.Action) (disk : List IndexedAdapter.Action) :
    (Transition.Along IndexedStore.step IndexedStore.KeepsTopics {} memory →
      Follows (Transition.run IndexedStore.step {} memory).store.logs
        (Transition.run IndexedStore.step {} memory).findMatchingQueues) ∧
    (Transition.Along IndexedAdapter.step IndexedAdapter.Writes {} disk →
      Follows (Transition.run IndexedAdapter.step {} disk).adapter.configs
        (Transition.run IndexedAdapter.step {} disk).findMatchingQueues) := by
  constructor
  · intro hkeeps
    have hrun := Transition.invariant_run (I := fun s : IndexedStore => InStep s.store.logs s.topicIndex)
      IndexedStore.inStep_step InStep.empty hkeeps
    exact hrun.follows
  intro hwrites
  have hrun := Transition.invariant_run (I := IndexedAdapter.Indexed) IndexedAdapter.inStep_step
    InStep.empty hwrites
  exact hrun.follows

/-- Two queues with patterns for the same topic, one of which is deleted again. -/
theorem findMatchingQueues_follows_shared :
    let orders : QueueConfig := { name := "orders", topics := ["a/#", "a/+"] }
    let audit : QueueConfig := { name := "audit", topics := ["a/+", "$queue/audit/#"] }
    let store := Transition.run IndexedStore.step {}
      [.createQueue orders, .createQueue audit, .updateQueue { audit with maxDepth := 7 },
        .deleteQueue "orders"]
    let disk := Transition.run IndexedAdapter.step {}
      [.createQueue 0 orders true, .createQueue 0 audit true, .deleteQueue "orders" false,
        .updateQueue { audit with topics := ["b"] } true]
    Follows store.store.logs store.findMatchingQueues ∧ store.findMatchingQueues "a/b" = ["audit"] ∧
    Follows disk.adapter.configs disk.findMatchingQueues ∧ disk.findMatchingQueues "a/b" = [] := by
  intro orders audit store disk
  refine ⟨(findMatchingQueues_follows _ []).1 ?_, by decide +kernel,
    (findMatchingQueues_follows [] _).2 ⟨rfl, rfl, trivial, rfl, trivial⟩, by decide +kernel⟩
  refine ⟨trivial, trivial, ?_, trivial, trivial⟩
  -- The update is of a queue that exists, whose topics it repeats.
  have hcurrent : (IndexedStore.step (IndexedStore.step {} (.createQueue orders))
      (.createQueue audit)).store.logs "audit" = some audit := by decide +kernel
  intro current hmem
  obtain rfl : audit = current := by simpa [audit] using hcurrent.symm.trans hmem
  rfl

/-- An update of the topics in memory is not seen by a lookup, nor is one on disk whose write failed. -/
theorem stale_topics :
    let before : QueueConfig := { name := "q", topics := ["a"] }
    let later : QueueConfig := { name := "q", topics := ["b"] }
    let store := Transition.run IndexedStore.step {} [.createQueue before, .updateQueue later]
    let disk := Transition.run IndexedAdapter.step {}
      [.createQueue 0 before true, .updateQueue later false]
    (store.store.logs "q" = some later ∧
      store.findMatchingQueues "a" = ["q"] ∧ store.findMatchingQueues "b" = []) ∧
    (disk.adapter.configs "q" = some later ∧
      disk.findMatchingQueues "a" = ["q"] ∧ disk.findMatchingQueues "b" = []) := by
  decide +kernel

end FluxMQ.Queue
