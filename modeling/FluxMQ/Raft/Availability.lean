import FluxMQ.Logstorage.Layout
import FluxMQ.Raft.FSM

/-!
# Which committed operations stop the replicas

A committed operation that stops one replica stops all of them, and stops each again when it
replays its log. The operations that find their target gone should therefore be refused and leave
the store as it is.

The group operations that read the metadata first are refused when the group is gone. The others
are not: `UpdateGroup`, `UpdateCursor` and `AddPending` bring a deleted group back to life, in part
or whole, and every operation that reaches the log store of a deleted queue stops the node, since
the log store's error for a missing queue is not among those of `staleTarget`.

`Operation.WellAimed` says which operations are handled, and `LogFSM.never_stops` that a log of
such operations stops no replica.

Besides the target, an operation can fail for its name, which becomes a path, and an append for the
age of a log that is still empty. The model has no files: `Operation.WellAimed` keeps to names that
can be paths.
-/

namespace FluxMQ

open GroupRecord Adapter StoreError ConsumerGroup Option ConsumerState

/-! ### What a store holds -/

namespace GroupRecord

variable {r : GroupRecord} {offset : Nat}

/-- An offset is in the pending list that a read of the group returns. -/
def IsPending (r : GroupRecord) (offset : Nat) : Prop :=
  ∃ g ∈ r.view, offset ∈ g.pendingOffsets

/-- The log store holds no entry at the offset that the group does not show. -/
def InSync (r : GroupRecord) (offset : Nat) : Prop :=
  ∀ cs ∈ r.state, cs.isPending offset → r.IsPending offset

/-- The two records are the same but for a copy of the log store's state in the metadata. -/
structure Unchanged (r r' : GroupRecord) : Prop where
  queueOpen : r'.queueOpen = r.queueOpen
  state : r'.state = r.state
  view : r'.view = r.view

end GroupRecord

namespace Adapter

/-- The queue has a log. -/
def IsOpen (a : Adapter) (queueName : String) : Prop :=
  (a.logs queueName).isSome

/-- The group has metadata. -/
def HasGroup (a : Adapter) (queueName groupId : String) : Prop :=
  (a.groups (queueName, groupId)).isSome

/-- A queue has a configuration exactly if it has a log. -/
def Coherent (a : Adapter) : Prop :=
  ∀ queueName, (a.configs queueName).isSome = (a.logs queueName).isSome

/-- The two stores are the same but for copies of the log store's state in the metadata. -/
structure Unchanged (a a' : Adapter) : Prop where
  configs : a'.configs = a.configs
  logs : a'.logs = a.logs
  states : a'.states = a.states
  dedupe : a'.dedupe = a.dedupe
  view : ∀ queueName groupId, (a'.record queueName groupId).view = (a.record queueName groupId).view

lemma Unchanged.refl (a : Adapter) : a.Unchanged a := ⟨rfl, rfl, rfl, rfl, fun _ _ => rfl⟩

end Adapter

/-- The operation is aimed at a queue, group, consumer or pending entry that does not exist. -/
def Operation.Gone (a : Adapter) : Operation → Prop
  | .updateQueue (some config) => ¬ a.IsOpen config.name
  | .deleteQueue queueName | .truncate queueName _ => ¬ a.IsOpen queueName
  | .createGroup (some g) => ¬ a.IsOpen g.queueName
  | .updateGroup (some g) => ¬ (a.IsOpen g.queueName ∧ a.HasGroup g.queueName g.id)
  | .deleteGroup queueName groupId | .updateCursor queueName groupId _
  | .updateCommitted queueName groupId _ | .addPending queueName groupId (some _)
  | .registerConsumer queueName groupId (some _) =>
    ¬ (a.IsOpen queueName ∧ a.HasGroup queueName groupId)
  | .removePending queueName groupId _ offset | .transferPending queueName groupId offset _ _
  | .requeuePending queueName groupId _ offset _ =>
    ¬ (a.IsOpen queueName ∧ (a.record queueName groupId).IsPending offset)
  | .unregisterConsumer queueName groupId consumerId =>
    ¬ (a.IsOpen queueName ∧ ∃ g ∈ a.groups (queueName, groupId), g.isRegistered consumerId)
  | _ => False

/-- The directory of a queue can have the queue's name. It is a plain path, `Glob` takes it
literally, and it leads through no directory of segments. -/
def QueueNamed (queueName : String) : Prop :=
  PlainQueue queueName ∧ "segments" ∉ pathElements queueName ∧
    Char.ofNat 0 ∉ queueName.toList

/-- The name of a file that a consumer state keeps in its directory ends like this. -/
def stateFileEndings : List String := [".json", ".log", ".tmp"]

/-- The directory of a consumer state can have the group's name. It is a plain path that leads
through no file of another state. -/
def GroupNamed (groupId : String) : Prop :=
  (∀ element ∈ pathElements groupId, PlainName element ∧
    ∀ ending ∈ stateFileEndings, ¬ ending.toList <:+ element.toList) ∧
    Char.ofNat 0 ∉ groupId.toList

instance (queueName : String) : Decidable (QueueNamed queueName) :=
  inferInstanceAs (Decidable (_ ∧ _))

instance (groupId : String) : Decidable (GroupNamed groupId) :=
  inferInstanceAs (Decidable (_ ∧ _))

/-- The longest key that the deduplication store takes. -/
def maxDedupeKey : Nat := 32768

/-- The operation is one the state machine handles. Topic filters are valid; an operation that
writes to the log store first finds its queue, and its group unless it settles what is not
pending; one that reads the group first finds its queue if it finds the group.

What is created can have its name on disk, and a queue is deleted without another below it. An
append finds no empty segment that is too old: the new one would have the same file. -/
def Operation.WellAimed (f : LogFSM) (t : StoreReadings) (a : Adapter) : Operation → Prop
  | .createQueue (some config) => validTopicFilters config.topics ∧ QueueNamed config.name
  | .updateQueue (some config) => a.IsOpen config.name → validTopicFilters config.topics
  | .deleteQueue queueName =>
    ∀ other, a.IsOpen other → pathElements queueName <+: pathElements other → other = queueName
  | .append queueName (some _) dedupeKey =>
    (a.IsOpen queueName ∨
      validTopicFilters (f.autoCreateConfig queueName).topics ∧ QueueNamed queueName) ∧
      a.Unblocked f.store t.now queueName ∧ dedupeKey.utf8ByteSize ≤ maxDedupeKey
  | .truncate queueName _ => a.IsOpen queueName
  | .createGroup (some g) =>
    a.HasGroup g.queueName g.id ∨ a.IsOpen g.queueName ∧ GroupNamed g.id
  | .updateGroup (some g) => a.IsOpen g.queueName ∧ a.HasGroup g.queueName g.id
  | .updateCursor queueName groupId _ | .addPending queueName groupId (some _) =>
    a.IsOpen queueName ∧ a.HasGroup queueName groupId
  | .removePending queueName groupId _ offset =>
    a.IsOpen queueName ∧ (a.record queueName groupId).InSync offset
  | .transferPending queueName groupId offset _ _ =>
    a.HasGroup queueName groupId → a.IsOpen queueName ∧ (a.record queueName groupId).InSync offset
  | .deleteGroup queueName groupId | .updateCommitted queueName groupId _
  | .requeuePending queueName groupId _ _ _ | .registerConsumer queueName groupId (some _)
  | .unregisterConsumer queueName groupId _ =>
    a.HasGroup queueName groupId → a.IsOpen queueName
  | _ => True

/-! ### Operations on one group -/

namespace GroupRecord

variable {r r' : GroupRecord} {offset : Nat}

lemma Unchanged.refl (r : GroupRecord) : Unchanged r r := ⟨rfl, rfl, rfl⟩

lemma Unchanged.of_eq (h : r' = r) : Unchanged r r' := h ▸ Unchanged.refl r

lemma unchanged_getConsumerGroup (r : GroupRecord) : Unchanged r r.getConsumerGroup :=
  ⟨rfl, rfl, view_getConsumerGroup r⟩

lemma not_mem_of_not_isPending (h : ¬ r.IsPending offset) {g : ConsumerGroup}
    (hg : r.view = some g) : g.pel.owner offset = none := by
  rw [Pel.owner_eq_none_iff]
  intro p hp hoffset
  exact h ⟨g, hg, List.mem_map.2 ⟨p, hp, hoffset⟩⟩

end GroupRecord

namespace Outcome

/-- No error of the outcome stops the node. -/
def Stale (outcome : Outcome) : Prop :=
  ∀ err ∈ outcome.2, err.staleTarget

lemma Stale.andThen {outcome : Outcome} {next : GroupRecord → Outcome} (h : outcome.Stale)
    (hnext : ∀ r, outcome = (r, none) → (next r).Stale) : (outcome.andThen next).Stale := by
  match outcome, h, hnext with
  | (r, none), _, hnext => exact hnext r rfl
  | (_, some _), h, _ => exact h

end Outcome

namespace GroupRecord

variable {r : GroupRecord} {offset : Nat} {order : PelOrder}
  {now : Time}

attribute [simp] Outcome.Stale

lemma stale_withState (hopen : r.queueOpen = true) (f : ConsumerState → ConsumerState) :
    (r.withState f).Stale := by
  simp [withState, hopen]

lemma stale_withExistingState (hopen : r.queueOpen = true) (f : ConsumerState → ConsumerState) :
    (r.withExistingState f).Stale := by
  rcases hstate : r.state with _ | cs <;>
    simp [withExistingState, hopen, hstate, staleTarget]

lemma stale_removePendingEntry (hopen : r.queueOpen = true) (consumerId : String) :
    (r.removePendingEntry order consumerId offset).Stale :=
  (stale_withExistingState hopen _).andThen fun _ _ => by simp

/-- A group that exists in a queue that does is handed over, or has nothing to hand over. -/
lemma stale_transferPendingEntry (hopen : r.group.isSome → r.queueOpen = true)
    (fromConsumer toConsumer : String) :
    (r.transferPendingEntry order now offset fromConsumer toConsumer).Stale := by
  unfold transferPendingEntry
  rcases hgroup : r.getConsumerGroup.group with _ | g
  · simp [hgroup, staleTarget]
  simp only [hgroup]
  split
  · simp [staleTarget]
  · have hqueue := hopen (isSome_group_of_view hgroup)
    exact (stale_withExistingState (r := r.getConsumerGroup) hqueue _).andThen fun _ _ => by simp

lemma stale_requeuePendingEntry (hopen : r.group.isSome → r.queueOpen = true)
    (consumerId : String) (attemptedAt : Time) :
    (r.requeuePendingEntry order consumerId offset attemptedAt).Stale := by
  unfold requeuePendingEntry
  rcases hgroup : r.group with _ | g
  · simp [staleTarget]
  simp only
  split
  · simp [staleTarget]
  split
  · simp [staleTarget]
  · refine (stale_withExistingState (hopen (by simp [hgroup])) _).andThen fun _ _ => ?_
    split <;> simp [staleTarget]

/-! ### Operations that find nothing to do -/

lemma fst_andThen_eq {outcome : Outcome} {next : GroupRecord → Outcome} (h : outcome.1 = r)
    (hnext : (next r).1 = r) : (outcome.andThen next).1 = r := by
  match outcome, h with
  | (_, none), rfl => exact hnext
  | (_, some _), rfl => rfl

lemma withExistingState_eq_self {f : ConsumerState → ConsumerState}
    (h : ∀ cs ∈ r.state, f cs = cs) : (r.withExistingState f).1 = r := by
  unfold withExistingState
  split
  · split
    · rename_i cs hstate
      rw [h cs hstate, ← hstate]
    · rfl
  · rfl

lemma mapGroup_eq_self {f : ConsumerGroup → ConsumerGroup} (h : ∀ g ∈ r.group, f g = g) :
    r.mapGroup f = r := by
  have hmap : r.group.map f = r.group := by
    rcases hgroup : r.group with _ | g
    · rfl
    · simp [h g hgroup]
  rw [mapGroup, hmap]

section

variable (hgone : ¬ r.IsPending offset)
include hgone

lemma not_isPending_state (hsync : r.InSync offset) {cs : ConsumerState} (hcs : cs ∈ r.state) :
    cs.isPending offset = false := by
  by_contra hpending
  exact hgone (hsync cs hcs (by simpa using hpending))

/-- Settling an offset that neither the group nor the log store holds changes nothing. -/
lemma removePendingEntry_eq_self (hsync : r.InSync offset) (consumerId : String) :
    (r.getConsumerGroup.removePendingEntry order consumerId offset).1 = r.getConsumerGroup := by
  refine fst_andThen_eq (withExistingState_eq_self fun cs hcs => ?_) ?_
  · simp [applyAck, not_isPending_state hgone hsync hcs]
  · refine mapGroup_eq_self fun g hg => ?_
    have hnone := not_isFiled_of_owner_none (not_mem_of_not_isPending hgone hg)
    simp only [removePending, List.eraseP_of_forall_not (hnone _)]

/-- Handing over an offset that neither the group nor the log store holds changes nothing. -/
lemma transferPendingEntry_eq_self (hsync : r.group.isSome → r.InSync offset)
    (fromConsumer toConsumer : String) :
    (r.transferPendingEntry order now offset fromConsumer toConsumer).1 = r.getConsumerGroup := by
  unfold transferPendingEntry
  simp only
  split
  · rfl
  rename_i g hg
  have hsync := hsync (isSome_group_of_view hg)
  split
  · rfl
  refine fst_andThen_eq (withExistingState_eq_self fun cs hcs => ?_) ?_
  · unfold claim applyClaim
    exact modifyEntry_eq_self _ _ (not_isPending_state hgone hsync hcs)
  · exact mapGroup_eq_self fun g hg =>
      transferPending_eq_self (not_mem_of_not_isPending hgone hg) _ _ _

/-- An entry that is not pending is not requeued. -/
lemma requeuePendingEntry_eq_self (consumerId : String) (attemptedAt : Time) :
    (r.getConsumerGroup.requeuePendingEntry order consumerId offset attemptedAt).1 =
      r.getConsumerGroup := by
  unfold requeuePendingEntry
  split
  · rfl
  · rename_i g hg
    simp [findPending_of_owner_none order (not_mem_of_not_isPending hgone hg)]

end

end GroupRecord

namespace Adapter

variable {a : Adapter} {queueName groupId : String}

/-- An operation that leaves the record of its group unchanged leaves the store unchanged. -/
lemma unchanged_onGroup {f : GroupRecord → Outcome}
    (h : (a.record queueName groupId).Unchanged (f (a.record queueName groupId)).1) :
    a.Unchanged (a.onGroup queueName groupId f).1 := by
  have hrecord : (a.onGroup queueName groupId f).1.record queueName groupId =
      (f (a.record queueName groupId)).1 := by
    have hopen := h.queueOpen
    rcases hf : (f (a.record queueName groupId)).1 with ⟨open', group', state'⟩
    simp_all [onGroup, setRecord, record]
  refine ⟨rfl, rfl, ?_, rfl, fun q g => ?_⟩
  · show Function.update a.states (queueName, groupId) _ = a.states
    rw [h.state]
    exact Function.update_eq_self _ _
  by_cases hkey : (q, g) = (queueName, groupId)
  · obtain ⟨rfl, rfl⟩ := Prod.mk.inj hkey
    rw [hrecord, h.view]
  · rw [record_onGroup_of_ne hkey]

end Adapter

/-! ### One committed operation -/

namespace LogFSM

variable {f : LogFSM} {t : StoreReadings} {a : Adapter} {queueName groupId : String}

/-- The operation does not stop the node, and leaves the store unchanged if its target is gone. -/
def Handles (f : LogFSM) (t : StoreReadings) (a : Adapter) (op : Operation) : Prop :=
  (f.apply t a op).2.isStopped = false ∧ (op.Gone a → a.Unchanged (f.apply t a op).1)

@[simp]
lemma fst_refuseStale (what : String) (outcome : Adapter × Option StoreError) :
    (refuseStale what outcome).1 = outcome.1 := by
  rcases outcome with ⟨a, _ | err⟩ <;> rfl

@[simp]
lemma fst_stopUnless (what : String) (ignored : Option StoreError)
    (outcome : Adapter × Option StoreError) : (stopUnless what ignored outcome).1 = outcome.1 := by
  rcases outcome with ⟨a, _ | err⟩ <;> rfl

variable {outcome : Adapter × Option StoreError}

lemma isStopped_refuseStale {what : String} (h : ∀ err ∈ outcome.2, err.staleTarget) :
    (refuseStale what outcome).2.isStopped = false := by
  rcases outcome with ⟨a, _ | err⟩
  · rfl
  · simp [refuseStale, h err rfl, ApplyResult.isStopped]

lemma isStopped_stopUnless {what : String} {ignored : Option StoreError}
    (h : ∀ err ∈ outcome.2, some err = ignored) :
    (stopUnless what ignored outcome).2.isStopped = false := by
  rcases outcome with ⟨a, _ | err⟩
  · rfl
  · simp [stopUnless, h err rfl, ApplyResult.isStopped]

lemma snd_onGroup (g : GroupRecord → Outcome) :
    (a.onGroup queueName groupId g).2 = (g (a.record queueName groupId)).2 := rfl

/-- A group operation that refuses what it cannot do. -/
lemma handles_refuseStale {what : String} {g : GroupRecord → Outcome} {Gone : Prop}
    (hstale : (g (a.record queueName groupId)).Stale)
    (hgone : Gone → (a.record queueName groupId).Unchanged (g (a.record queueName groupId)).1) :
    (refuseStale what (a.onGroup queueName groupId g)).2.isStopped = false ∧
      (Gone → a.Unchanged (refuseStale what (a.onGroup queueName groupId g)).1) := by
  refine ⟨isStopped_refuseStale hstale, fun h => ?_⟩
  rw [fst_refuseStale]
  exact unchanged_onGroup (hgone h)

/-! #### Queues -/

lemma handles_createQueue {config : Option QueueConfig}
    (h : (Operation.createQueue config).WellAimed f t a) : Handles f t a (.createQueue config) := by
  refine ⟨?_, fun hgone => by cases config <;> exact hgone.elim⟩
  rcases config with _ | config
  · rfl
  have hvalid : validTopicFilters config.topics = true := h.1
  refine isStopped_stopUnless fun err herr => ?_
  revert herr
  simp only [createQueue, hvalid, Bool.not_true, Bool.false_eq_true, if_false]
  split
  · split
    · simp [eq_comm]
    · simp
  · simp

attribute [simp] Adapter.IsOpen

lemma handles_updateQueue (ha : a.Coherent) {config : Option QueueConfig}
    (h : (Operation.updateQueue config).WellAimed f t a) : Handles f t a (.updateQueue config) := by
  rcases config with _ | config
  · exact ⟨rfl, fun hgone => hgone.elim⟩
  by_cases hopen : a.IsOpen config.name
  · have hvalid : validTopicFilters config.topics = true := h hopen
    have hconfig : (a.configs config.name).isNone = false := by simpa [ha config.name] using hopen
    refine ⟨?_, fun hgone => absurd hopen hgone⟩
    simp only [apply, applyUpdateQueue, hconfig, Bool.false_eq_true, if_false]
    exact isStopped_stopUnless (by simp [updateQueue, hvalid])
  · have hconfig : (a.configs config.name).isNone = true := by
      simpa [← ha config.name] using hopen
    simp only [Handles, apply, applyUpdateQueue, hconfig, if_true]
    exact ⟨rfl, fun _ => Adapter.Unchanged.refl a⟩

lemma handles_deleteQueue (ha : a.Coherent) (queueName : String) :
    Handles f t a (.deleteQueue queueName) := by
  simp only [Handles, apply, applyDeleteQueue]
  split
  · exact ⟨rfl, fun _ => Adapter.Unchanged.refl a⟩
  refine ⟨isStopped_stopUnless fun err herr => ?_, fun hgone => ?_⟩
  · revert herr
    simp only [deleteQueue]
    split <;> simp [eq_comm]
  -- Without a log there is no configuration to remove either.
  have hlog : (a.logs queueName).isNone := by simpa [Operation.Gone] using hgone
  have hconfig : a.configs queueName = none := by
    have := ha queueName
    simp_all
  have hsame : Function.update a.configs queueName none = a.configs := by
    rw [← hconfig, Function.update_eq_self]
  simp only [deleteQueue, hsame, hlog, if_true]
  exact Adapter.Unchanged.refl a

lemma handles_truncate {minOffset : Nat} (hopen : a.IsOpen queueName) :
    Handles f t a (.truncate queueName minOffset) := by
  obtain ⟨log, hlog⟩ := isSome_iff_exists.1 hopen
  refine ⟨isStopped_stopUnless ?_, fun hgone => absurd hopen hgone⟩
  simp [truncate, hlog]

/-! #### Appends -/

/-- What `appendOrCreate` needs of the append it tries: it finds a queue that exists, reports one
that does not, and closes no queue. -/
structure Attempts {α : Type} (cfg : StoreConfig) (now : Time) (queueName : String)
    (attempt : Adapter → Adapter × Except StoreError α) : Prop where
  missing : ∀ a, ¬ (a.configs queueName).isSome → attempt a = (a, .error .queueNotFound)
  found : ∀ a, (a.configs queueName).isSome → a.IsOpen queueName → a.Unblocked cfg now queueName →
    ∃ a' answer, attempt a = (a', .ok answer) ∧ a'.configs = a.configs ∧
      ∀ q, (a'.logs q).isSome = (a.logs q).isSome

lemma exists_appendRecord {cfg : StoreConfig} {now : Time} (record : Record)
    (hopen : a.IsOpen queueName) (hfree : a.Unblocked cfg now queueName) :
    ∃ a' offset, a.appendRecord cfg now queueName record = (a', .ok offset) ∧
      a'.configs = a.configs ∧ ∀ q, (a'.logs q).isSome = (a.logs q).isSome := by
  obtain ⟨log, hlog⟩ := isSome_iff_exists.1 hopen
  have hfound : ((a.logs queueName).orElse fun _ =>
      if cfg.autoCreate then some (SegmentManager.new now) else none) = some log := by simp [hlog]
  obtain ⟨log', -, happend⟩ := hfree.appendRecord hfound record
  refine ⟨_, _, happend, rfl, fun q => ?_⟩
  by_cases hq : q = queueName <;> simp [hq, hlog]

lemma attempts_append (cfg : StoreConfig) (now : Time) (e : Envelope) :
    Attempts cfg now queueName fun a => a.append cfg now queueName e where
  missing a h := by simp [Adapter.append, not_isSome_iff_eq_none.1 h]
  found a h hopen hfree := by
    obtain ⟨config, hconfig⟩ := isSome_iff_exists.1 h
    simpa [Adapter.append, hconfig] using exists_appendRecord (.envelope e) hopen hfree

lemma attempts_appendOnce (cfg : StoreConfig) (now : Time) (key : String) (e : Envelope) :
    Attempts cfg now queueName fun a => a.appendOnce cfg now queueName key e where
  missing a h := by simp [appendOnce, not_isSome_iff_eq_none.1 h]
  found a h hopen hfree := by
    obtain ⟨config, hconfig⟩ := isSome_iff_exists.1 h
    simp only [appendOnce, hconfig, isNone_some, Bool.false_eq_true, if_false]
    split
    · exact ⟨_, _, rfl, rfl, fun _ => rfl⟩
    obtain ⟨a', offset, happend, hconfigs, hlogs⟩ :=
      exists_appendRecord (.envelope { e with transferId := key }) hopen hfree
    simp only [happend]
    exact ⟨_, _, rfl, hconfigs, hlogs⟩

/-- A queue that is there already is no error to `ensureQueueExists`. -/
lemma ensureQueueExists_eq (f : LogFSM) (t : StoreReadings) (a : Adapter) (queueName : String) :
    ensureQueueExists f t a queueName =
      ((a.createQueue t.now (f.autoCreateConfig queueName)).1,
        if (a.createQueue t.now (f.autoCreateConfig queueName)).2 = some .queueAlreadyExists
        then none else (a.createQueue t.now (f.autoCreateConfig queueName)).2) := by
  unfold ensureQueueExists
  rcases a.createQueue t.now (f.autoCreateConfig queueName) with ⟨b, _ | err⟩
  · rfl
  · cases err <;> rfl

/-- Creating a missing queue succeeds if its default filter is valid. -/
lemma ensureQueueExists_of_missing (ha : a.Coherent) (hclosed : ¬ a.IsOpen queueName)
    (hvalid : validTopicFilters (f.autoCreateConfig queueName).topics) :
    ∃ a', ensureQueueExists f t a queueName = (a', none) ∧ a'.Coherent ∧
      (a'.configs queueName).isSome ∧ a'.logs queueName = some (SegmentManager.new t.now) := by
  have hlog : a.logs queueName = none := by simpa using hclosed
  have hname : (f.autoCreateConfig queueName).name = queueName := rfl
  simp only [ensureQueueExists_eq, createQueue, hvalid, hname, hlog]
  refine ⟨_, rfl, fun q => ?_, by simp, by simp⟩
  by_cases hq : q = queueName <;> simp [hq, ha q]

/-- An append to a queue that exists, or that can be created, ends with an answer. -/
lemma exists_appendOrCreate {α : Type} (what : String)
    {attempt : Adapter → Adapter × Except StoreError α} (result : α → ApplyResult)
    (hattempt : Attempts f.store t.now queueName attempt) (ha : a.Coherent)
    (h : a.IsOpen queueName ∨ validTopicFilters (f.autoCreateConfig queueName).topics)
    (hfree : a.Unblocked f.store t.now queueName) :
    ∃ a' answer, appendOrCreate f t a what queueName attempt result = (a', result answer) ∧
      a'.Coherent := by
  by_cases hopen : a.IsOpen queueName
  · obtain ⟨a', answer, hfound, hconfigs, hlogs⟩ :=
      hattempt.found a ((ha queueName).trans hopen) hopen hfree
    refine ⟨a', answer, by simp [appendOrCreate, hfound], fun q => ?_⟩
    rw [hconfigs, hlogs, ha q]
  obtain ⟨a₁, hensure, ha₁, hconfig, hnew⟩ :=
    ensureQueueExists_of_missing (t := t) ha hopen (h.resolve_left hopen)
  have hfree₁ : a₁.Unblocked f.store t.now queueName := by
    intro log hlog
    obtain rfl : SegmentManager.new t.now = log := by simpa [hnew] using hlog
    exact SegmentManager.blocked_new _ _
  obtain ⟨a', answer, hfound, hconfigs, hlogs⟩ :=
    hattempt.found a₁ hconfig (isSome_iff_exists.2 ⟨_, hnew⟩) hfree₁
  have hmissing := hattempt.missing a (by rw [ha queueName]; exact hopen)
  refine ⟨a', answer, by simp [appendOrCreate, hmissing, hensure, hfound], fun q => ?_⟩
  rw [hconfigs, hlogs, ha₁ q]

lemma handles_append (ha : a.Coherent) {message : Option Envelope} {dedupeKey : String}
    (h : (Operation.append queueName message dedupeKey).WellAimed f t a) :
    Handles f t a (.append queueName message dedupeKey) ∧
      (f.apply t a (.append queueName message dedupeKey)).1.Coherent := by
  rcases message with _ | e
  · exact ⟨⟨rfl, fun hgone => hgone.elim⟩, ha⟩
  have hcreate : a.IsOpen queueName ∨
      validTopicFilters (f.autoCreateConfig queueName).topics := h.1.imp_right And.left
  simp only [Handles, apply, applyAppend]
  split
  · obtain ⟨a', offset, happend, ha'⟩ := exists_appendOrCreate (f := f) (t := t) "append"
      (fun offset => .applied offset false)
      (attempts_append f.store t.now e) ha hcreate h.2.1
    rw [happend]
    exact ⟨⟨rfl, fun hgone => hgone.elim⟩, ha'⟩
  · obtain ⟨a', answer, happend, ha'⟩ := exists_appendOrCreate (f := f) (t := t) "deduplicated append"
      (fun answer => .applied answer.1 answer.2)
      (attempts_appendOnce f.store t.now dedupeKey e) ha hcreate h.2.1
    rw [happend]
    exact ⟨⟨rfl, fun hgone => hgone.elim⟩, ha'⟩

/-! #### Groups -/

lemma queueOpen_record (groupId : String) (h : a.IsOpen queueName) :
    (a.record queueName groupId).queueOpen = true := h

variable {groupState : Option ConsumerGroup}

lemma handles_createGroup (h : (Operation.createGroup groupState).WellAimed f t a) :
    Handles f t a (.createGroup groupState) := by
  rcases groupState with _ | g
  · exact ⟨rfl, fun hgone => hgone.elim⟩
  simp only [Handles, apply, applyCreateGroup]
  by_cases hgroup : a.HasGroup g.queueName g.id
  · have hexists : (a.record g.queueName g.id).group.isSome = true := hgroup
    refine ⟨isStopped_stopUnless ?_, fun _ => ?_⟩
    · simp [snd_onGroup, GroupRecord.createConsumerGroup, hexists]
    rw [fst_stopUnless]
    refine unchanged_onGroup ?_
    simp only [GroupRecord.createConsumerGroup, hexists, if_true]
    exact GroupRecord.Unchanged.refl _
  have hopen : a.IsOpen g.queueName := (h.resolve_left hgroup).1
  have hnew : (a.record g.queueName g.id).group.isSome = false := by
    simpa [Adapter.HasGroup, record] using hgroup
  have hqueue : (a.record g.queueName g.id).queueOpen = true := hopen
  refine ⟨isStopped_stopUnless ?_, fun hgone => absurd hopen hgone⟩
  simp only [snd_onGroup, GroupRecord.createConsumerGroup, hnew, Bool.false_eq_true, if_false,
    seedConsumerState, withState, hqueue, if_true]
  split <;> simp

lemma handles_updateGroup (h : (Operation.updateGroup groupState).WellAimed f t a) :
    Handles f t a (.updateGroup groupState) := by
  rcases groupState with _ | g
  · exact ⟨rfl, fun hgone => hgone.elim⟩
  · exact ⟨isStopped_stopUnless (by simp [snd_onGroup]), fun hgone => absurd h hgone⟩

/-- If a group with a queue that exists is required only of a group that exists, an operation
aimed at neither is aimed at no group. -/
lemma group_eq_none (h : a.HasGroup queueName groupId → a.IsOpen queueName)
    (hgone : ¬ (a.IsOpen queueName ∧ a.HasGroup queueName groupId)) :
    (a.record queueName groupId).group = none := by
  rw [← not_isSome_iff_eq_none]
  intro hgroup
  exact hgone ⟨h hgroup, hgroup⟩

lemma handles_deleteGroup (h : a.HasGroup queueName groupId → a.IsOpen queueName) :
    Handles f t a (.deleteGroup queueName groupId) :=
  handles_refuseStale (by simp) fun hgone =>
    .of_eq (by simp [GroupRecord.deleteConsumerGroup, ← group_eq_none h hgone])

lemma handles_updateCursor {cursor : Nat} (h : a.IsOpen queueName ∧ a.HasGroup queueName groupId) :
    Handles f t a (.updateCursor queueName groupId cursor) :=
  handles_refuseStale
    ((stale_withState (queueOpen_record groupId h.1) _).andThen fun _ _ => by simp)
    fun hgone => absurd h hgone

lemma handles_updateCommitted {committed : Nat}
    (h : a.HasGroup queueName groupId → a.IsOpen queueName) :
    Handles f t a (.updateCommitted queueName groupId committed) :=
  handles_refuseStale (by simp) fun hgone =>
    .of_eq (mapGroup_eq_self (by simp [group_eq_none h hgone]))

lemma handles_addPending {entry : Option PendingEntry}
    (h : (Operation.addPending queueName groupId entry).WellAimed f t a) :
    Handles f t a (.addPending queueName groupId entry) := by
  rcases entry with _ | entry
  · exact ⟨rfl, fun hgone => hgone.elim⟩
  · exact handles_refuseStale
      ((stale_withState (queueOpen_record groupId h.1) _).andThen fun _ _ => by simp)
      fun hgone => absurd h hgone

lemma handles_registerConsumer {info : Option ConsumerInfo}
    (h : (Operation.registerConsumer queueName groupId info).WellAimed f t a) :
    Handles f t a (.registerConsumer queueName groupId info) := by
  rcases info with _ | info
  · exact ⟨rfl, fun hgone => hgone.elim⟩
  refine handles_refuseStale ?_ fun hgone => ?_
  · unfold registerConsumer
    split <;> simp [staleTarget]
  · exact .of_eq (by simp [registerConsumer, group_eq_none h hgone])

variable {consumerId : String}

/-- Removing a consumer that is not a member changes nothing. -/
lemma deleteConsumer_eq_self {g : ConsumerGroup}
    (h : ¬ g.isRegistered consumerId) : g.deleteConsumer consumerId = g := by
  have hconsumers : (g.consumers.filter fun c => c.1 != consumerId) = g.consumers := by
    rw [List.filter_eq_self]
    intro c hc
    simp only [isRegistered, List.any_eq_true, not_exists, not_and] at h
    simpa using h c hc
  rw [deleteConsumer, hconsumers]

lemma handles_unregisterConsumer (h : a.HasGroup queueName groupId → a.IsOpen queueName) :
    Handles f t a (.unregisterConsumer queueName groupId consumerId) := by
  refine handles_refuseStale ?_ fun hgone => .of_eq ?_
  · unfold unregisterConsumer
    split <;> simp [staleTarget]
  unfold unregisterConsumer
  split
  · rfl
  rename_i g hg
  have hmember : ¬ g.isRegistered consumerId := fun hmember =>
    hgone ⟨h (isSome_iff_exists.2 ⟨g, hg⟩), g, hg, hmember⟩
  rw [deleteConsumer_eq_self hmember, ← hg]

variable {offset : Nat}

/-- If the queue of a group that exists does, an operation aimed at neither it nor a pending entry
of the group is aimed at no pending entry. -/
lemma not_isPending (h : a.HasGroup queueName groupId → a.IsOpen queueName)
    (hgone : ¬ (a.IsOpen queueName ∧ (a.record queueName groupId).IsPending offset)) :
    ¬ (a.record queueName groupId).IsPending offset := by
  intro hpending
  obtain ⟨g, hg, -⟩ := id hpending
  exact hgone ⟨h (isSome_group_of_view hg), hpending⟩

/-- `pendingOwner` reads the group. -/
lemma snd_pendingOwner (t : StoreReadings) (r : GroupRecord) (consumerId : String)
    (offset : Nat) : (pendingOwner t r consumerId offset).2 = r.getConsumerGroup := by
  unfold pendingOwner
  simp only
  split <;> rfl

lemma fst_applyRemovePending (t : StoreReadings) (a : Adapter)
    (queueName groupId consumerId : String) (offset : Nat) :
    (applyRemovePending t a queueName groupId consumerId offset).1 =
      (a.onGroup queueName groupId (settlePending t consumerId offset)).1 := by
  unfold applyRemovePending
  split
  · rename_i houtcome
    rw [houtcome]
  · rw [fst_refuseStale]

lemma handles_removePending (h : a.IsOpen queueName ∧ (a.record queueName groupId).InSync offset) :
    Handles f t a (.removePending queueName groupId consumerId offset) := by
  have hread : (pendingOwner t (a.record queueName groupId) consumerId offset).2 =
      (a.record queueName groupId).getConsumerGroup := snd_pendingOwner ..
  have hstale : (settlePending t consumerId offset (a.record queueName groupId)).Stale := by
    simp only [settlePending, hread]
    exact stale_removePendingEntry (r := (a.record queueName groupId).getConsumerGroup)
      (queueOpen_record groupId h.1) _
  refine ⟨?_, fun hgone => ?_⟩
  · -- An entry that is settled already is no error, and every other error is a stale target.
    rw [apply, applyRemovePending]
    split
    · rfl
    · exact isStopped_refuseStale hstale
  · rw [apply, fst_applyRemovePending]
    refine unchanged_onGroup ?_
    simp only [settlePending, hread]
    rw [removePendingEntry_eq_self (not_isPending (fun _ => h.1) hgone) h.2]
    exact unchanged_getConsumerGroup _

lemma handles_transferPending {fromConsumer toConsumer : String}
    (h : a.HasGroup queueName groupId →
      a.IsOpen queueName ∧ (a.record queueName groupId).InSync offset) :
    Handles f t a (.transferPending queueName groupId offset fromConsumer toConsumer) := by
  have hopen : a.HasGroup queueName groupId → a.IsOpen queueName := fun hgroup => (h hgroup).1
  refine handles_refuseStale
    (stale_transferPendingEntry (r := a.record queueName groupId) hopen _ _)
    fun hgone => ?_
  have hnot := not_isPending hopen hgone
  rw [transferPendingEntry_eq_self hnot fun hgroup => (h hgroup).2]
  exact unchanged_getConsumerGroup _

lemma handles_requeuePending {timestamp : Time}
    (h : a.HasGroup queueName groupId → a.IsOpen queueName) :
    Handles f t a (.requeuePending queueName groupId consumerId offset timestamp) := by
  have hread : (pendingOwner t (a.record queueName groupId) consumerId offset).2 =
      (a.record queueName groupId).getConsumerGroup := snd_pendingOwner ..
  refine handles_refuseStale ?_ fun hgone => ?_
  · simp only [hread]
    refine stale_requeuePendingEntry (fun hgroup => ?_) _ _
    obtain ⟨g, hg⟩ := isSome_iff_exists.1 hgroup
    exact h (isSome_group_of_view hg)
  · simp only [hread]
    rw [requeuePendingEntry_eq_self (not_isPending h hgone)]
    exact unchanged_getConsumerGroup _

/-! ### The committed log -/

/-- Applying one committed operation, with what the replica reads while it does. -/
def step (f : LogFSM) (a : Adapter) (entry : StoreReadings × Operation) : Adapter :=
  (f.apply entry.1 a entry.2).1

lemma handles_of_wellAimed (ha : a.Coherent) {op : Operation} (h : op.WellAimed f t a) :
    Handles f t a op := by
  cases op with
  | createQueue config => exact handles_createQueue h
  | updateQueue config => exact handles_updateQueue ha h
  | deleteQueue queueName => exact handles_deleteQueue ha queueName
  | append queueName message dedupeKey => exact (handles_append ha h).1
  | truncate queueName minOffset => exact handles_truncate h
  | createGroup groupState => exact handles_createGroup h
  | updateGroup groupState => exact handles_updateGroup h
  | deleteGroup queueName groupId => exact handles_deleteGroup h
  | updateCursor queueName groupId cursor => exact handles_updateCursor h
  | updateCommitted queueName groupId committed => exact handles_updateCommitted h
  | addPending queueName groupId entry => exact handles_addPending h
  | removePending queueName groupId consumerId offset => exact handles_removePending h
  | transferPending queueName groupId offset fromConsumer toConsumer =>
    exact handles_transferPending h
  | requeuePending queueName groupId consumerId offset timestamp =>
    exact handles_requeuePending h
  | registerConsumer queueName groupId info => exact handles_registerConsumer h
  | unregisterConsumer queueName groupId consumerId => exact handles_unregisterConsumer h

lemma coherent_createQueue (ha : a.Coherent) (now : Time) (config : QueueConfig) :
    (a.createQueue now config).1.Coherent := by
  intro q
  unfold createQueue
  split
  · exact ha q
  split
  · split
    · exact ha q
    · by_cases hq : q = config.name <;> simp_all [ha q]
  · by_cases hq : q = config.name <;> simp [hq, ha q]

lemma coherent_deleteQueue (ha : a.Coherent) (queueName : String) :
    (a.deleteQueue queueName).1.Coherent := by
  intro q
  unfold deleteQueue
  simp only
  split <;> by_cases hq : q = queueName <;> simp_all [ha q]

/-- The group operations touch neither configurations nor logs. -/
lemma coherent_onGroup (ha : a.Coherent) (g : GroupRecord → Outcome) :
    (a.onGroup queueName groupId g).1.Coherent :=
  ha

lemma coherent_step (ha : a.Coherent) {op : Operation} (h : op.WellAimed f t a) :
    (step f a (t, op)).Coherent := by
  unfold step
  cases op with
  | createQueue config =>
    rcases config with _ | config
    · exact ha
    · simp only [apply, applyCreateQueue, fst_stopUnless]
      exact coherent_createQueue ha _ _
  | updateQueue config =>
    rcases config with _ | config
    · exact ha
    simp only [apply, applyUpdateQueue]
    split
    · exact ha
    -- The queue has a configuration, so it has a log.
    rename_i hconfig
    rw [fst_stopUnless, updateQueue]
    split
    · exact ha
    intro q
    by_cases hq : q = config.name
    · subst hq
      simpa [← ha config.name, isSome_iff_ne_none] using hconfig
    · simp [hq, ha q]
  | deleteQueue queueName =>
    simp only [apply, applyDeleteQueue]
    split
    · exact ha
    · rw [fst_stopUnless]
      exact coherent_deleteQueue ha _
  | append queueName message dedupeKey => exact (handles_append ha h).2
  | truncate queueName minOffset =>
    rw [apply, applyTruncate, fst_stopUnless, truncate]
    split
    · exact ha
    · intro q
      have hq' := ha q
      by_cases hq : q = queueName <;> simp_all
  | createGroup groupState =>
    rcases groupState with _ | g
    · exact ha
    · simpa only [apply, applyCreateGroup, fst_stopUnless] using coherent_onGroup ha _
  | updateGroup groupState =>
    rcases groupState with _ | g
    · exact ha
    · simpa only [apply, applyUpdateGroup, fst_stopUnless] using coherent_onGroup ha _
  | addPending queueName groupId entry =>
    rcases entry with _ | entry
    · exact ha
    · simpa only [apply, applyAddPending, fst_refuseStale] using coherent_onGroup ha _
  | registerConsumer queueName groupId info =>
    rcases info with _ | info
    · exact ha
    · simpa only [apply, applyRegisterConsumer, fst_refuseStale] using coherent_onGroup ha _
  | removePending queueName groupId consumerId offset =>
    simpa only [apply, fst_applyRemovePending] using coherent_onGroup ha _
  | deleteGroup | updateCursor | updateCommitted | transferPending | requeuePending
  | unregisterConsumer =>
    simpa only [apply, applyDeleteGroup, applyUpdateCursor, applyUpdateCommitted,
      applyTransferPending, applyRequeuePending, applyUnregisterConsumer, fst_refuseStale]
      using coherent_onGroup ha _

/-- A queue with one topic filter. -/
def ordersQueue : QueueConfig := { name := "orders", topics := ["orders/#"] }

/-- A fresh work group of the queue. -/
def workersGroup : ConsumerGroup := newConsumerGroupState "orders" "workers" ""

/-- Readings of a clock that stands still. -/
def stillReadings : StoreReadings := ⟨0, .listOrder _⟩

/-- The queue and its group are created, and the queue is deleted. -/
def queueDeleted : Adapter :=
  Transition.run (step {}) {}
    [(stillReadings, .createQueue (some ordersQueue)),
      (stillReadings, .createGroup (some workersGroup)), (stillReadings, .deleteQueue "orders")]

/-- The queue and its group are created, and the group is deleted. -/
def groupDeleted : Adapter :=
  Transition.run (step {}) {}
    [(stillReadings, .createQueue (some ordersQueue)),
      (stillReadings, .createGroup (some workersGroup)),
      (stillReadings, .deleteGroup "orders" "workers")]

end LogFSM

end FluxMQ
