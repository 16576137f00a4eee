import FluxMQ.Logstorage.GroupRecord
import FluxMQ.Types.QueueConfig

/-!
# The in-memory queue store

`Store` of `queue/storage/memory/log/store.go` keeps the consumer groups of a queue in a map of
their own, which is made with the queue and goes with it. A group is one record: there is no
second copy of its cursor or its pending list to keep in step.

The log of a queue is its configuration here; its records, the topic index and the registered
consumers, which no modelled function reads, are left out.
-/

namespace FluxMQ

/-- The state of the in-memory store. -/
structure MemoryStore where
  /-- The queues, by name. -/
  logs : String → Option QueueConfig := fun _ => none
  /-- The groups of each queue, by queue name and group ID. -/
  groups : String → Option (String → Option ConsumerGroup) := fun _ => none

namespace MemoryStore

variable (m : MemoryStore)

/-- `CreateQueue` checks the whole configuration. -/
def createQueue (config : QueueConfig) : MemoryStore × Option StoreError :=
  if !config.validate then (m, some .invalidConfig)
  else if (m.logs config.name).isSome then (m, some .queueAlreadyExists)
  else
    ({ m with
        logs := Function.update m.logs config.name (some config)
        groups := Function.update m.groups config.name (some fun _ => none) }, none)

/-- `DeleteQueue` refuses a reserved queue, and removes what is left of a queue that has no log. -/
def deleteQueue (queueName : String) : MemoryStore × Option StoreError :=
  if (m.logs queueName).any fun config => config.reserved then (m, some .queueNotFound)
  else
    ({ m with
        logs := Function.update m.logs queueName none
        groups := Function.update m.groups queueName none }, none)

def createConsumerGroup (group : ConsumerGroup) : MemoryStore × Option StoreError :=
  match m.groups group.queueName with
  | none => (m, some .queueNotFound)
  | some groups =>
    if (groups group.id).isSome then (m, some .consumerGroupExists)
    else
      ({ m with
          groups := Function.update m.groups group.queueName
            (some (Function.update groups group.id (some group))) }, none)

def getConsumerGroup (queueName groupId : String) : Except StoreError ConsumerGroup :=
  match m.groups queueName with
  | none => .error .queueNotFound
  | some groups =>
    match groups groupId with
    | none => .error .consumerNotFound
    | some group => .ok group

def deleteConsumerGroup (queueName groupId : String) : MemoryStore × Option StoreError :=
  match m.groups queueName with
  | none => (m, some .queueNotFound)
  | some groups =>
    ({ m with
        groups := Function.update m.groups queueName
          (some (Function.update groups groupId none)) }, none)

/-- `ListConsumerGroups`: the groups of a queue by ID, in no order. -/
def listConsumerGroups (queueName : String) : Except StoreError (String → Option ConsumerGroup) :=
  match m.groups queueName with
  | none => .error .queueNotFound
  | some groups => .ok groups

end MemoryStore

end FluxMQ
