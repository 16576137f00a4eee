import FluxMQ.Logstorage.Adapter
import FluxMQ.Memory.Store

/-!
# Deleting and creating again

A group or a queue that is deleted and created again under the same name should start afresh, as
it does in the in-memory store. The adapter keeps a group in two places and a deletion clears one
of them only: `DeleteConsumerGroup` leaves the log store's consumer state behind, which the next
read of a new queue-mode group of that name copies back, and `DeleteQueue` leaves the metadata of
the queue's groups behind, which the new queue then lists.
-/

namespace FluxMQ

open GroupRecord

/-- What a reader learns of a group's progress: its two positions and its pending list. -/
def ConsumerGroup.progress (g : ConsumerGroup) : QueueCursor × Pel :=
  (g.cursor, g.pel)

/-- The progress of a group that has delivered nothing. -/
def freshProgress : QueueCursor × Pel := ({}, [])

namespace Adapter

variable (a : Adapter)

def createConsumerGroup (t : StoreReadings) (g : ConsumerGroup) : Adapter × Option StoreError :=
  a.onGroup g.queueName g.id fun r => r.createConsumerGroup t.order t.now g

def deleteConsumerGroup (queueName groupId : String) : Adapter :=
  (a.onGroup queueName groupId fun r => (r.deleteConsumerGroup, none)).1

/-- `GetConsumerGroup`: the group it returns. -/
def getConsumerGroup (queueName groupId : String) : Except StoreError ConsumerGroup :=
  match (a.record queueName groupId).view with
  | none => .error .consumerGroupNotFound
  | some g => .ok g

/-- `ListConsumerGroups`: the groups of a queue by ID, in no order. A queue the metadata does not
know has none. -/
def listConsumerGroups (queueName : String) : Except StoreError (String → Option ConsumerGroup) :=
  .ok fun groupId => a.groups (queueName, groupId)

/-- A group deleted and created again with the state `g`. -/
def recreateGroup (t : StoreReadings) (g : ConsumerGroup) : Adapter × Option StoreError :=
  (a.deleteConsumerGroup g.queueName g.id).createConsumerGroup t g

/-- A queue deleted and created again. -/
def recreateQueue (now : Time) (config : QueueConfig) : Adapter × Option StoreError :=
  (a.deleteQueue config.name).1.createQueue now config

/-- The log store still has progress of a group: a cursor that was moved or a pending entry. -/
def HasLeftover (queueName groupId : String) : Prop :=
  (a.logs queueName).isSome ∧
    ∃ cs, a.states (queueName, groupId) = some cs ∧ (cs.cursor ≠ 0 ∨ cs.entries ≠ [])

end Adapter

namespace MemoryStore

variable (m : MemoryStore)

/-- A group deleted and created again with the state `g`. -/
def recreateGroup (g : ConsumerGroup) : MemoryStore × Option StoreError :=
  (m.deleteConsumerGroup g.queueName g.id).1.createConsumerGroup g

/-- A queue deleted and created again. -/
def recreateQueue (config : QueueConfig) : MemoryStore × Option StoreError :=
  (m.deleteQueue config.name).1.createQueue config

variable {m}

/-- In memory a group created again is the new one, whatever was there. -/
lemma get_recreateGroup {g : ConsumerGroup} (h : (m.recreateGroup g).2 = none) :
    (m.recreateGroup g).1.getConsumerGroup g.queueName g.id = .ok g := by
  unfold recreateGroup createConsumerGroup deleteConsumerGroup at h ⊢
  cases hgroups : m.groups g.queueName with
  | none => simp [hgroups] at h
  | some groups => simp [getConsumerGroup]

/-- In memory a queue created again has no groups. -/
lemma list_recreateQueue {config : QueueConfig} (h : (m.recreateQueue config).2 = none) :
    (m.recreateQueue config).1.listConsumerGroups config.name = .ok fun _ => none := by
  unfold recreateQueue createQueue at h ⊢
  -- A creation that succeeds made the map of the queue's groups itself.
  split at h <;> rename_i hvalid
  · simp at h
  · split at h <;> rename_i hexists
    · simp at h
    · simp [hvalid, hexists, listConsumerGroups]

end MemoryStore

namespace Adapter

variable {a : Adapter} {t : StoreReadings} {g : ConsumerGroup}

/-- What is stored for a group created again from fresh state: the new metadata, and the consumer
state the deletion left. -/
lemma record_recreateGroup (hfresh : g.progress = freshProgress) :
    (a.recreateGroup t g).1.record g.queueName g.id =
      { queueOpen := (a.logs g.queueName).isSome
        group := some g
        state :=
          if g.mode ≠ .stream ∧ (a.logs g.queueName).isSome then
            some ((a.states (g.queueName, g.id)).getD {})
          else a.states (g.queueName, g.id) } := by
  obtain ⟨hcursor, hpel⟩ := Prod.mk.inj hfresh
  -- Fresh state has nothing to seed: no entry to restore and no position above zero.
  have hwalk : t.order.walk g.pel = [] := by
    rw [hpel]
    exact (t.order.perm []).eq_nil
  by_cases hmode : g.mode = .stream
  all_goals by_cases hopen : (a.logs g.queueName).isSome
  all_goals
    simp [recreateGroup, createConsumerGroup, deleteConsumerGroup, onGroup, record, setRecord,
      GroupRecord.deleteConsumerGroup, GroupRecord.createConsumerGroup,
      GroupRecord.seedConsumerState, GroupRecord.withState, hmode, hopen, hwalk, hcursor]

/-- A group created again shows no progress exactly when the log store kept none, or does not read
it for the group. -/
lemma progress_recreateGroup_iff (hfresh : g.progress = freshProgress) :
    ((a.recreateGroup t g).1.getConsumerGroup g.queueName g.id).map ConsumerGroup.progress =
        .ok freshProgress ↔
      g.mode = .stream ∨ ¬ a.HasLeftover g.queueName g.id := by
  obtain ⟨hcursor, hpel⟩ := Prod.mk.inj hfresh
  rw [getConsumerGroup, record_recreateGroup hfresh]
  by_cases hmode : g.mode = .stream
  · simp [view, hmode, Except.map, hfresh]
  by_cases hopen : (a.logs g.queueName).isSome
  · -- The read replaces cursor and pending list by what the log store has for the name.
    cases hstate : a.states (g.queueName, g.id) with
    | none | some cs =>
      simp [view, syncFromStore, ConsumerState.allPending, HasLeftover,
        ConsumerGroup.progress, ConsumerGroup.setCursorPosition, ConsumerGroup.replacePEL,
        freshProgress, Except.map, hmode, hopen, hstate, hcursor]
  · simp [view, syncFromStore, HasLeftover, Except.map, hmode, hopen, hfresh]

@[simp]
lemma groups_deleteQueue (queueName : String) : (a.deleteQueue queueName).1.groups = a.groups := by
  unfold deleteQueue
  simp only
  split <;> rfl

@[simp]
lemma groups_createQueue (now : Time) (config : QueueConfig) :
    (a.createQueue now config).1.groups = a.groups := by
  unfold createQueue
  split_ifs <;> rfl

/-- Neither deleting nor creating a queue changes the metadata of its groups. -/
lemma list_recreateQueue_iff (now : Time) (config : QueueConfig) :
    ((a.recreateQueue now config).1.listConsumerGroups config.name = .ok fun _ => none) ↔
      ∀ groupId, a.groups (config.name, groupId) = none := by
  simp [recreateQueue, listConsumerGroups, funext_iff]

/-- A group and a queue deleted and created again are as new, as they are in memory, exactly when
the half that the deletion does not clear holds nothing. -/
theorem recreated_as_in_memory_iff (m : MemoryStore) (now : Time) (config : QueueConfig)
    (hfresh : g.progress = freshProgress) (hgroup : (m.recreateGroup g).2 = none)
    (hqueue : (m.recreateQueue config).2 = none) :
    (((m.recreateGroup g).1.getConsumerGroup g.queueName g.id).map ConsumerGroup.progress =
        .ok freshProgress ∧
      (m.recreateQueue config).1.listConsumerGroups config.name = .ok fun _ => none) ∧
    (((a.recreateGroup t g).1.getConsumerGroup g.queueName g.id).map ConsumerGroup.progress =
        .ok freshProgress ↔
      g.mode = .stream ∨ ¬ a.HasLeftover g.queueName g.id) ∧
    (((a.recreateQueue now config).1.listConsumerGroups config.name = .ok fun _ => none) ↔
      ∀ groupId, a.groups (config.name, groupId) = none) := by
  refine ⟨⟨?_, MemoryStore.list_recreateQueue hqueue⟩, progress_recreateGroup_iff hfresh,
    list_recreateQueue_iff now config⟩
  rw [MemoryStore.get_recreateGroup hgroup, ← hfresh]
  rfl

/-- A queue with one topic filter. -/
def tasksQueue : QueueConfig := { name := "tasks", topics := ["tasks/#"] }

/-- A fresh work group of the queue. -/
def runnersGroup : ConsumerGroup := newConsumerGroupState "tasks" "runners" ""

/-- Readings of a clock that stands still. -/
def fixedReadings : StoreReadings := ⟨0, .listOrder _⟩

/-- The queue and its group are created, one record is published and delivered. -/
def tasksStore : Adapter :=
  let a := (({} : Adapter).createQueue 0 tasksQueue).1
  let a := (a.createConsumerGroup fixedReadings runnersGroup).1
  let a := (a.append {} 0 "tasks" { topic := "tasks/one" }).1
  (a.onGroup "tasks" "runners" fun r => r.addPendingEntry 0 ⟨0, "c", 0, 1⟩).1

/-- The in-memory store with the same queue. -/
def tasksMemory : MemoryStore :=
  (({} : MemoryStore).createQueue tasksQueue).1

/-- After one delivery the group deleted and created again still has the cursor and the pending
entry of the old one, and the queue deleted and created again still lists the group. -/
theorem recreated_keeps_progress :
    ((tasksStore.recreateGroup fixedReadings runnersGroup).1.getConsumerGroup "tasks" "runners").map
        ConsumerGroup.progress = .ok ({ cursor := 1 }, [("c", ⟨0, "c", 0, 1⟩)]) ∧
      ∃ g, (tasksStore.recreateQueue 0 tasksQueue).1.groups ("tasks", "runners") = some g := by
  refine ⟨by decide +kernel, Option.isSome_iff_exists.1 (by decide +kernel)⟩

/-- Another group of the queue, which the store has not held. -/
def walkersGroup : ConsumerGroup := newConsumerGroupState "tasks" "walkers" ""

/-- Another queue, which the store has not held. -/
def jobsQueue : QueueConfig := { name := "jobs", topics := ["jobs/#"] }

/-- Names that the store has not held start afresh in it. -/
theorem recreated_as_in_memory_unused :
    ((tasksStore.recreateGroup fixedReadings walkersGroup).1.getConsumerGroup "tasks" "walkers").map
        ConsumerGroup.progress = .ok freshProgress ∧
      (tasksStore.recreateQueue 0 jobsQueue).1.listConsumerGroups "jobs" = .ok fun _ => none := by
  have h := recreated_as_in_memory_iff (a := tasksStore) (t := fixedReadings) (g := walkersGroup)
    (tasksMemory.createQueue jobsQueue).1 0 jobsQueue rfl (by decide +kernel) (by decide +kernel)
  refine ⟨h.2.1.2 (.inr fun hleft => ?_), h.2.2.2 fun groupId => ?_⟩
  · obtain ⟨cs, hcs, -⟩ := hleft.2
    have hnone : tasksStore.states ("tasks", "walkers") = none := by
      rw [← Option.isNone_iff_eq_none]
      decide +kernel
    exact absurd (hnone.symm.trans hcs) nofun
  · have hne : ("jobs", groupId) ≠ ("tasks", "runners") := fun heq => nomatch (Prod.mk.inj heq).1
    obtain ⟨g, g', hgroups⟩ : ∃ g g', tasksStore.groups =
        Function.update (Function.update (fun _ => none) ("tasks", "runners") g)
          ("tasks", "runners") g' := ⟨_, _, rfl⟩
    rw [hgroups]
    exact (Function.update_of_ne hne _ _).trans (Function.update_of_ne hne _ _)

end Adapter

end FluxMQ
