import FluxMQ.Logstorage.Layout
import FluxMQ.Logstorage.Recovery

/-!
# Restarting the store

A clean `Close` writes every consumer state out, and opening the store again reads the metadata of
all groups and the consumer states of all queues. The metadata is found wherever its file lies,
but of the consumer states `loadGroups` finds those in directories right below the queue's own.

`GroupDisk` is what the adapter keeps of the consumer groups of some queues, in memory and on disk.
Metadata is written when an operation saves it; what a read copies from the log store into the
metadata is not. The log of a consumer state is left out here: a clean `Close` compacts it, and a
state that was not changed since it was last read or compacted reads as it did then.
-/

namespace FluxMQ

open GroupRecord ConsumerGroup List AList

/-- Metadata as `loadAll` takes it from a file: a mode that was not named is queue mode. -/
def ConsumerGroup.decoded (g : ConsumerGroup) : ConsumerGroup :=
  { g with mode := if g.mode = .unset then .queue else g.mode }

namespace GroupOp

/-- Whether the operation opens the group's consumer state if it is not open. -/
def opens (r : GroupRecord) : GroupOp → Bool
  | .create _ g => r.queueOpen && r.group.isNone && g.mode != .stream
  | .addPending _ _ _ | .updateCursor _ _ => r.queueOpen
  | _ => false

/-- Whether the operation saves the metadata it leaves: a creation saves before it can fail, a
read never does, and the others do as their last step. -/
def saves (r : GroupRecord) (outcome : Outcome) : GroupOp → Bool
  | .create _ _ => r.group.isNone
  | .get _ => false
  | _ => outcome.2.isNone

end GroupOp

section

variable {n : Nat} [NeZero n]

/-- What the adapter keeps of the consumer groups of its queues. -/
structure GroupDisk (n : Nat) [NeZero n] where
  /-- The queues that the log store has. -/
  queues : List String := []
  /-- The metadata in memory. -/
  groups : GroupKey → Option ConsumerGroup := fun _ => none
  /-- The metadata files. -/
  groupFiles : AList (fun _ : List String => ConsumerGroup) := ∅
  /-- The consumer states that are open. -/
  states : AList (fun _ : GroupKey => ConsumerState) := ∅
  /-- The files of consumer states, by directory. -/
  stateFiles : AList (fun _ : List String => StateFiles n) := ∅

namespace GroupDisk

variable (d : GroupDisk n)

/-- What is stored for one group. -/
def record (key : GroupKey) : GroupRecord :=
  { queueOpen := decide (key.1 ∈ d.queues), group := d.groups key, state := d.states.lookup key }

/-- The group as `GetConsumerGroup` returns it. -/
def view (key : GroupKey) : Option ConsumerGroup :=
  (d.record key).view

/-- `NewConsumerState` on the directory of a group. -/
def openState (key : GroupKey) : ConsumerState :=
  ((d.stateFiles.lookup (consumerStatePath key)).map StateFiles.reopen).getD {}

/-- The record that an operation works on. -/
def opened (op : GroupOp) : GroupRecord :=
  let r := d.record op.key
  if op.opens r then { r with state := some (r.state.getD (d.openState op.key)) } else r

/-- The metadata files that an operation leaves. A deletion removes the file at the old path too,
unless it lies elsewhere. -/
def filesAfter (op : GroupOp) : AList (fun _ : List String => ConsumerGroup) :=
  match op with
  | .delete key =>
    let files := d.groupFiles.erase (groupPath key)
    if (legacyGroupPath key).head? = some ".." then files else files.erase (legacyGroupPath key)
  | op =>
    let outcome := op.run (d.opened op)
    match outcome.1.group with
    | some g => if op.saves (d.opened op) outcome then d.groupFiles.insert (groupPath op.key) g
      else d.groupFiles
    | none => d.groupFiles

/-- Perform an operation. -/
def perform (op : GroupOp) : GroupDisk n :=
  let r := (op.run (d.opened op)).1
  { d with
    groups := Function.update d.groups op.key r.group
    groupFiles := d.filesAfter op
    states :=
      match r.state with
      | some cs => d.states.insert op.key cs
      | none => d.states }

/-- The files of consumer states after a clean `Close`. -/
def closedFiles : AList (fun _ : List String => StateFiles n) :=
  d.states.entries.foldl (fun files e =>
    files.insert (consumerStatePath e.1)
      (((files.lookup (consumerStatePath e.1)).getD {}).compact e.2)) d.stateFiles

/-- `loadAll`: the metadata of a group, from whatever file has it. -/
def loadGroup (key : GroupKey) : Option ConsumerGroup :=
  (d.groupFiles.entries.find? fun file => file.2.key == key).map fun file => file.2.decoded

/-- The groups for which `loadGroups` finds a directory, queue by queue. -/
def foundKeys (files : AList (fun _ : List String => StateFiles n)) : List GroupKey :=
  d.queues.flatMap fun queueName =>
    files.keys.filterMap fun path =>
      (childOf (consumersPath queueName) path).map fun name => (queueName, name)

/-- A clean `Close`, and the store opened again, with queues that are found by their names: for one whose
name is a pattern to `Glob` this can fail, and the store is not opened then. -/
def restart : GroupDisk n :=
  let closed := { d with stateFiles := d.closedFiles }
  { closed with
    groups := closed.loadGroup
    states := (closed.foundKeys closed.stateFiles).foldl
      (fun states key => states.insert key (closed.openState key)) ∅ }

end GroupDisk

/-- What happens to the store: an operation on a group, or a restart. -/
inductive DiskAction where
  | perform (op : GroupOp)
  | restart

/-- Perform one action. -/
def GroupDisk.step (d : GroupDisk n) : DiskAction → GroupDisk n
  | .perform op => d.perform op
  | .restart => d.restart

end

/-! ### What a group may not lose -/

/-- The pending entries of a group: offset, owner and delivery count. -/
def ConsumerGroup.held (g : ConsumerGroup) : List (Nat × String × Nat) :=
  g.pel.map fun p => (p.2.offset, p.1, p.2.deliveryCount)

/-- Two groups have the same positions and the same pending entries. -/
structure ConsumerGroup.SameAs (g g' : ConsumerGroup) : Prop where
  cursor : g.cursor = g'.cursor
  held : ∀ entry, entry ∈ g.held ↔ entry ∈ g'.held

/-! ### What one operation does -/

namespace ConsumerGroup

lemma key_transferPending (g : ConsumerGroup) (now : Time) (offset : Nat)
    (fromConsumer toConsumer : String) :
    (g.transferPending now offset fromConsumer toConsumer).key = g.key := by
  obtain ⟨pel, hpel, -⟩ := g.exists_transferPending now offset fromConsumer toConsumer
  rw [hpel]
  rfl

lemma key_requeuePending (g : ConsumerGroup) (offset : Nat) (consumerId : String)
    (attemptedAt : Time) : (g.requeuePending offset consumerId attemptedAt).1.key = g.key := by
  obtain ⟨pel, hpel, -⟩ := g.exists_requeuePending offset consumerId attemptedAt
  rw [hpel]
  rfl

end ConsumerGroup

lemma GroupRecord.key_syncFromStore (r : GroupRecord) (g : ConsumerGroup) :
    (r.syncFromStore g).key = g.key := by
  unfold syncFromStore
  split
  · split <;> rfl
  · rfl

namespace GroupOp

variable {r : GroupRecord} {op : GroupOp}

/-- What an operation that does not delete leaves of a group. Metadata that is not saved is what it
was or what a read shows; metadata that is saved names the group as it did. -/
structure Leaves (op : GroupOp) (r : GroupRecord) (outcome : Outcome) : Prop where
  queueOpen : outcome.1.queueOpen = r.queueOpen
  state : outcome.1.state.isSome = r.state.isSome
  key : ∀ g', outcome.1.group = some g' → g'.key = op.key ∨ ∃ g, r.group = some g ∧ g'.key = g.key
  group : outcome.1.group = r.group ∨ outcome.1.group = r.view ∨
    (op.saves r outcome ∧ (outcome.1.group = none → r.group = none))

/-- An operation that fails before it writes anything. -/
lemma Leaves.unchanged (op : GroupOp) (r : GroupRecord) (err : Option StoreError) :
    op.Leaves r (r, err) :=
  ⟨rfl, rfl, fun g' hg' => .inr ⟨g', hg', rfl⟩, .inl rfl⟩

/-- An operation that ends with saving a change of the metadata it found. -/
lemma Leaves.mapped {f : ConsumerGroup → ConsumerGroup} {state : Option ConsumerState}
    (hstate : state.isSome = r.state.isSome) (hf : ∀ g, (f g).key = g.key)
    (hsaves : ∀ outcome : Outcome, outcome.2 = none → op.saves r outcome) :
    op.Leaves r (mapGroup { r with state } f, none) := by
  refine ⟨rfl, hstate, fun g' hg' => ?_, .inr (.inr ⟨hsaves _ rfl, fun hnone => ?_⟩)⟩
  · obtain ⟨g, hg, rfl⟩ := Option.map_eq_some_iff.1 hg'
    exact .inr ⟨g, hg, hf g⟩
  · exact Option.map_eq_none_iff.1 hnone

/-- An operation that puts other metadata in the place of what it found. -/
lemma Leaves.replaced {g' : ConsumerGroup} {state : Option ConsumerState}
    {err : Option StoreError} (hstate : state.isSome = r.state.isSome)
    (hkey : g'.key = op.key ∨ ∃ g, r.group = some g ∧ g'.key = g.key)
    (hsaves : op.saves r ({ r with state, group := some g' }, err)) :
    op.Leaves r ({ r with state, group := some g' }, err) := by
  refine ⟨rfl, hstate, ?_, .inr (.inr ⟨hsaves, nofun⟩)⟩
  rintro _ ⟨⟩
  exact hkey

section

variable {f : ConsumerState → ConsumerState} {next : GroupRecord → Outcome}

/-- What comes after a write to a consumer state that is open if it can be. -/
lemma Leaves.of_withState (hready : r.queueOpen → r.state.isSome)
    (hnext : ∀ cs, r.state.isSome → op.Leaves r (next { r with state := some cs })) :
    op.Leaves r ((r.withState f).andThen next) := by
  unfold withState
  split
  · rename_i hopen
    exact hnext _ (hready hopen)
  · exact Leaves.unchanged op r _

/-- What comes after a write to a consumer state that must be open. -/
lemma Leaves.of_withExistingState {r₀ : GroupRecord} (herr : ∀ err, op.Leaves r₀ (r, err))
    (hnext : ∀ cs, r.state.isSome → op.Leaves r₀ (next { r with state := some cs })) :
    op.Leaves r₀ ((r.withExistingState f).andThen next) := by
  unfold withExistingState
  split
  · cases hstate : r.state with
    | none => exact herr _
    | some cs => exact hnext _ (by rw [hstate, Option.isSome_some])
  · exact herr _

end

/-- A read that is not saved. -/
lemma Leaves.read (op : GroupOp) (r : GroupRecord) (err : Option StoreError) :
    op.Leaves r (r.getConsumerGroup, err) := by
  refine ⟨rfl, rfl, fun g' hg' => ?_, .inr (.inl rfl)⟩
  obtain ⟨g, hg, rfl⟩ := Option.map_eq_some_iff.1 hg'
  refine .inr ⟨g, hg, ?_⟩
  split
  · rfl
  · exact r.key_syncFromStore g

variable {t : StoreReadings}

/-- A creation saves the metadata before it seeds the consumer state. -/
lemma leaves_create {g : ConsumerGroup} (hready : (create t g).opens r → r.state.isSome) :
    (create t g).Leaves r (r.createConsumerGroup t.order t.now g) := by
  unfold createConsumerGroup
  split
  · exact .unchanged _ r _
  rename_i hgroup
  have hnone : r.group.isNone := by simpa using hgroup
  have hsaves : ∀ outcome, (create t g).saves r outcome := fun _ => hnone
  unfold seedConsumerState
  split
  · exact .replaced rfl (.inl rfl) (hsaves _)
  rename_i hmode
  unfold withState
  split
  · rename_i hopen
    refine .replaced ?_ (.inl rfl) (hsaves _)
    rw [Option.isSome_some, hready]
    simp only [opens, Bool.and_eq_true, bne_iff_ne]
    exact ⟨⟨hopen, hnone⟩, hmode⟩
  · exact .replaced rfl (.inl rfl) (hsaves _)

/-- A transfer reads the group before it writes. -/
lemma leaves_transferPending {key : GroupKey} {offset : Nat} {fromConsumer toConsumer : String} :
    (transferPending key t offset fromConsumer toConsumer).Leaves r
      (r.transferPendingEntry t.order t.now offset fromConsumer toConsumer) := by
  unfold transferPendingEntry
  cases hgroup : r.getConsumerGroup.group with
  | none =>
    simp only [hgroup]
    exact .read _ r _
  | some current =>
    simp only [hgroup]
    split
    · exact .read _ r _
    refine .of_withExistingState (.read _ r) fun cs hstate => ?_
    have hread := Leaves.read (transferPending key t offset fromConsumer toConsumer) r none
    simp only [mapGroup, hgroup, Option.map_some]
    refine .replaced hstate.symm ?_ rfl
    rw [key_transferPending]
    exact hread.key current hgroup

lemma leaves_requeuePending {key : GroupKey} {consumerId : String}
    {offset : Nat} {attemptedAt : Time} :
    (requeuePending key t consumerId offset attemptedAt).Leaves r
      (r.requeuePendingEntry t.order consumerId offset attemptedAt) := by
  unfold requeuePendingEntry
  cases hgroup : r.group with
  | none => exact .unchanged _ r _
  | some g =>
    simp only
    split
    · exact .unchanged _ r _
    split
    · exact .unchanged _ r _
    refine .of_withExistingState (.unchanged _ r) fun cs hstate => ?_
    split
    · refine .replaced hstate.symm (.inr ⟨g, hgroup, ?_⟩) rfl
      exact g.key_requeuePending offset consumerId attemptedAt
    · -- The state was changed, and the metadata did not have the entry.
      exact ⟨rfl, hstate.symm, fun g' hg' => .inr ⟨g', hg', rfl⟩, .inl rfl⟩

/-- What any operation that does not delete leaves of a group. -/
lemma leaves_run (hready : op.opens r → r.state.isSome) (hdelete : ∀ key, op ≠ .delete key) :
    op.Leaves r (op.run r) := by
  cases op with
  | create t g => exact leaves_create hready
  | update g => exact .replaced rfl (.inl rfl) rfl
  | delete key => exact absurd rfl (hdelete key)
  | get key => exact .read _ r none
  | addPending key now entry | updateCursor key cursor =>
    exact .of_withState hready fun cs hstate => .mapped hstate.symm (fun _ => rfl) (by simp [saves])
  | removePending key t consumerId offset =>
    exact .of_withExistingState (.unchanged _ r) fun cs hstate =>
      .mapped hstate.symm (fun _ => rfl) (by simp [saves])
  | transferPending key t offset fromConsumer toConsumer => exact leaves_transferPending
  | requeuePending key t consumerId offset attemptedAt => exact leaves_requeuePending
  | updateCommitted key committed => exact .mapped rfl (fun _ => rfl) (by simp [saves])
  | registerConsumer key info =>
    simp only [run, GroupRecord.registerConsumer]
    cases hgroup : r.group with
    | none => exact .unchanged _ r _
    | some g => exact .replaced rfl (.inr ⟨g, hgroup, rfl⟩) rfl
  | unregisterConsumer key consumerId =>
    simp only [run, GroupRecord.unregisterConsumer]
    cases hgroup : r.group with
    | none => exact .unchanged _ r _
    | some g => exact .replaced rfl (.inr ⟨g, hgroup, rfl⟩) rfl

end GroupOp

/-! ### What memory and files agree on -/

/-- What the metadata file of a group says as the metadata in memory does. The cursor and the
pending list of a file are read only where there is no consumer state to take them from. -/
structure GroupRecord.SavedAs (r : GroupRecord) (g file : ConsumerGroup) : Prop where
  mode : g.mode = .stream ↔ file.mode = .stream
  committed : g.cursor.committed = file.cursor.committed
  pel : r.state = none → g.pel = file.pel
  cursor : r.queueOpen = false → g.cursor = file.cursor

namespace GroupRecord

variable {r r' : GroupRecord} {g file : ConsumerGroup}

lemma SavedAs.refl (r : GroupRecord) (g : ConsumerGroup) : r.SavedAs g g :=
  ⟨Iff.rfl, rfl, fun _ => rfl, fun _ => rfl⟩

lemma SavedAs.decoded (r : GroupRecord) (g : ConsumerGroup) : r.SavedAs g.decoded g := by
  refine ⟨?_, rfl, fun _ => rfl, fun _ => rfl⟩
  cases hmode : g.mode <;> simp [ConsumerGroup.decoded, hmode]

/-- With a consumer state less is read from the file. -/
lemma SavedAs.mono {group file : Option ConsumerGroup} (h : Option.Rel r.SavedAs group file)
    (hopen : r'.queueOpen = r.queueOpen) (hstate : r'.state = none → r.state = none) :
    Option.Rel r'.SavedAs group file := by
  cases h with
  | none => exact .none
  | some h =>
    exact .some ⟨h.mode, h.committed, fun hnone => h.pel (hstate hnone),
      fun hclosed => h.cursor (hopen ▸ hclosed)⟩

/-- What a read copies from the consumer state is not read from the file. -/
lemma SavedAs.syncFromStore (h : r.SavedAs g file) : r.SavedAs (r.syncFromStore g) file := by
  refine ⟨by rw [mode_syncFromStore, h.mode], ?_, fun hnone => ?_, fun hclosed => ?_⟩
  · rw [← h.committed, GroupRecord.syncFromStore]
    split
    · split <;> rfl
    · rfl
  · rw [← h.pel hnone, GroupRecord.syncFromStore, hnone]
    split <;> rfl
  · rw [GroupRecord.syncFromStore, hclosed]
    exact h.cursor hclosed

lemma SavedAs.view {file : Option ConsumerGroup} (h : Option.Rel r.SavedAs r.group file) :
    Option.Rel r.SavedAs r.view file := by
  unfold GroupRecord.view
  generalize r.group = group at h
  cases h with
  | none => exact .none
  | @some g file h =>
    refine .some ?_
    by_cases hmode : g.mode = .stream
    · simpa only [hmode, if_true] using h
    · simpa only [hmode, if_false] using h.syncFromStore

end GroupRecord

/-! ### The invariant of the store -/

section

variable {n : Nat} [NeZero n]

namespace GroupDisk

/-- What holds of the store as long as only groups with plain names are used. -/
structure Tidy (d : GroupDisk n) : Prop where
  queues : ∀ queueName ∈ d.queues, PlainQueue queueName
  /-- Only consumer states of plain names are open, in queues that exist. -/
  loaded : ∀ key ∈ d.states, PlainKey key ∧ key.1 ∈ d.queues
  /-- Every consumer state on disk is open. -/
  stored : ∀ path ∈ d.stateFiles, ∃ key ∈ d.states, path = consumerStatePath key
  /-- The metadata in memory names the group that it is of. -/
  named : ∀ key g, d.groups key = some g → g.key = key
  /-- The metadata files lie where `groupPath` puts them. -/
  filed : ∀ path file, d.groupFiles.lookup path = some file → path = groupPath file.key
  /-- The metadata files say what they are read for. -/
  saved : ∀ key, Option.Rel (d.record key).SavedAs (d.groups key)
    (d.groupFiles.lookup (groupPath key))

variable {d : GroupDisk n}

lemma tidy_empty {queues : List String} (h : ∀ queueName ∈ queues, PlainQueue queueName) :
    Tidy ({ queues } : GroupDisk n) :=
  ⟨h, fun key hkey => absurd hkey (notMem_empty key),
    fun path hpath => absurd hpath (notMem_empty path), nofun, by simp, fun key => by
      exact .none⟩

/-! ### An operation keeps the invariant -/

section

variable {op : GroupOp} {key : GroupKey}

@[simp]
lemma queueOpen_opened : (d.opened op).queueOpen = decide (op.key.1 ∈ d.queues) := by
  simp only [opened]
  split <;> rfl

@[simp]
lemma group_opened : (d.opened op).group = d.groups op.key := by
  simp only [opened]
  split <;> rfl

lemma opens_opened : op.opens (d.opened op) = op.opens (d.record op.key) := by
  cases op <;> simp [GroupOp.opens, record]

lemma isSome_state_opened :
    (d.opened op).state.isSome = (op.opens (d.record op.key) || (d.states.lookup op.key).isSome) := by
  simp only [opened]
  split
  · simp [*]
  · rename_i hopens
    rw [Bool.eq_false_iff.2 hopens, Bool.false_or]
    rfl

/-- The consumer state that an operation may open is open when it runs. -/
lemma isSome_state_of_opens (h : op.opens (d.opened op)) : (d.opened op).state.isSome := by
  rw [isSome_state_opened, ← opens_opened, h, Bool.true_or]

/-- The other data of the group's record are what they were. -/
lemma run_opened (d : GroupDisk n) (op : GroupOp) :
    (op.run (d.opened op)).1.queueOpen = decide (op.key.1 ∈ d.queues) ∧
      (op.run (d.opened op)).1.state.isSome = (d.opened op).state.isSome := by
  by_cases hdelete : ∃ key, op = .delete key
  · obtain ⟨key, rfl⟩ := hdelete
    exact ⟨queueOpen_opened, rfl⟩
  · have hleaves := GroupOp.leaves_run (r := d.opened op) isSome_state_of_opens
      (not_exists.1 hdelete)
    exact ⟨hleaves.queueOpen.trans queueOpen_opened, hleaves.state⟩

/-- The operation's group after it. -/
lemma record_perform_self : (d.perform op).record op.key = (op.run (d.opened op)).1 := by
  obtain ⟨hopen, hstate⟩ := run_opened d op
  rw [GroupRecord.mk.injEq]
  refine ⟨hopen.symm, Function.update_self .., ?_⟩
  simp only [perform, record]
  cases hrun : (op.run (d.opened op)).1.state with
  | some cs => exact lookup_insert _
  | none =>
    rw [hrun, Option.isSome_none, isSome_state_opened, eq_comm, Bool.or_eq_false_iff] at hstate
    simpa using hstate.2

/-- The other groups after an operation. -/
lemma record_perform_of_ne (h : key ≠ op.key) : (d.perform op).record key = d.record key := by
  simp only [record, perform, GroupRecord.mk.injEq]
  refine ⟨rfl, Function.update_of_ne h _ _, ?_⟩
  cases (op.run (d.opened op)).1.state with
  | some cs => exact lookup_insert_ne h
  | none => rfl

lemma groups_perform_self : (d.perform op).groups op.key = (op.run (d.opened op)).1.group :=
  congrArg group record_perform_self

lemma groups_perform_of_ne (h : key ≠ op.key) : (d.perform op).groups key = d.groups key :=
  congrArg group (record_perform_of_ne h)

lemma queueOpen_of_opens {r : GroupRecord} (h : op.opens r) : r.queueOpen := by
  cases op <;> simp_all [GroupOp.opens]

lemma mem_states_iff : key ∈ d.states ↔ (d.record key).state.isSome := lookup_isSome.symm

/-- The consumer states that are open after an operation. -/
lemma mem_states_perform_iff :
    key ∈ (d.perform op).states ↔ key ∈ d.states ∨ (key = op.key ∧ op.opens (d.record op.key)) := by
  by_cases hkey : key = op.key
  · subst hkey
    rw [mem_states_iff, record_perform_self, (run_opened d op).2, isSome_state_opened,
      ← lookup_isSome]
    simp [or_comm]
  · rw [mem_states_iff, record_perform_of_ne hkey, mem_states_iff]
    simp [hkey]

lemma filesAfter_of_not_delete (h : ∀ key, op ≠ .delete key) :
    d.filesAfter op =
      match (op.run (d.opened op)).1.group with
      | some g =>
        if op.saves (d.opened op) (op.run (d.opened op)) then d.groupFiles.insert (groupPath op.key) g
        else d.groupFiles
      | none => d.groupFiles := by
  cases op with
  | delete key => exact absurd rfl (h key)
  | _ => rfl

/-- An operation leaves the metadata files of other groups alone. -/
lemma lookup_filesAfter_of_ne (hplain : PlainKey op.key) (hkey : key ≠ op.key) :
    (d.filesAfter op).lookup (groupPath key) = d.groupFiles.lookup (groupPath key) := by
  have hpath : groupPath key ≠ groupPath op.key := fun h => hkey (groupPath_injective h)
  by_cases hdelete : ∃ key, op = .delete key
  · obtain ⟨deleted, rfl⟩ := hdelete
    have hlegacy : groupPath key ≠ legacyGroupPath deleted :=
      fun h => hkey (eq_of_legacyGroupPath_eq hplain h.symm).symm
    simp only [filesAfter]
    split
    · exact lookup_erase_ne hpath
    · rw [lookup_erase_ne hlegacy]
      exact lookup_erase_ne hpath
  · rw [filesAfter_of_not_delete (not_exists.1 hdelete)]
    split
    · split
      · exact lookup_insert_ne hpath
      · rfl
    · rfl

/-- A deletion removes the metadata file of its group. -/
lemma lookup_filesAfter_delete : (d.filesAfter (.delete key)).lookup (groupPath key) = none := by
  simp only [filesAfter]
  split
  · exact lookup_erase _ _
  by_cases hpath : groupPath key = legacyGroupPath key
  · rw [hpath]
    exact lookup_erase _ _
  · rw [lookup_erase_ne hpath]
    exact lookup_erase _ _

variable (h : d.Tidy) (hplain : PlainKey op.key)

include h

/-- The metadata that an operation leaves names its group. -/
lemma Tidy.key_run {g : ConsumerGroup} (hg : (op.run (d.opened op)).1.group = some g) :
    g.key = op.key := by
  by_cases hdelete : ∃ key, op = .delete key
  · obtain ⟨key, rfl⟩ := hdelete
    cases hg
  have hleaves := GroupOp.leaves_run (r := d.opened op) isSome_state_of_opens (not_exists.1 hdelete)
  rcases hleaves.key g hg with hkey | ⟨before, hbefore, hkey⟩
  · exact hkey
  · rw [group_opened] at hbefore
    exact hkey.trans (h.named _ _ hbefore)

lemma Tidy.filed_filesAfter {path : List String} {file : ConsumerGroup}
    (hfile : (d.filesAfter op).lookup path = some file) : path = groupPath file.key := by
  by_cases hdelete : ∃ key, op = .delete key
  · obtain ⟨key, rfl⟩ := hdelete
    simp only [filesAfter] at hfile
    split at hfile
    · exact h.filed path file (of_lookup_erase hfile)
    · exact h.filed path file (of_lookup_erase (of_lookup_erase hfile))
  rw [filesAfter_of_not_delete (not_exists.1 hdelete)] at hfile
  split at hfile
  · rename_i g hg
    split at hfile
    · by_cases hpath : path = groupPath op.key
      · rw [hpath, lookup_insert, Option.some.injEq] at hfile
        rw [hpath, ← hfile, h.key_run hg]
      · rw [lookup_insert_ne hpath] at hfile
        exact h.filed path file hfile
    · exact h.filed path file hfile
  · exact h.filed path file hfile

/-- What the operation's own group and its file agree on after it. -/
lemma Tidy.saved_perform_self :
    Option.Rel (op.run (d.opened op)).1.SavedAs (op.run (d.opened op)).1.group
      ((d.filesAfter op).lookup (groupPath op.key)) := by
  by_cases hdelete : ∃ key, op = .delete key
  · obtain ⟨key, rfl⟩ := hdelete
    show Option.Rel _ none ((d.filesAfter (.delete key)).lookup (groupPath key))
    rw [lookup_filesAfter_delete]
    exact .none
  have hleaves := GroupOp.leaves_run (r := d.opened op) isSome_state_of_opens (not_exists.1 hdelete)
  have hbefore : Option.Rel (d.opened op).SavedAs (d.opened op).group
      (d.groupFiles.lookup (groupPath op.key)) := by
    rw [group_opened]
    refine GroupRecord.SavedAs.mono (h.saved op.key) queueOpen_opened fun hnone => ?_
    rw [← Option.not_isSome_iff_eq_none, isSome_state_opened] at hnone
    simpa [record] using (Bool.or_eq_false_iff.1 (Bool.eq_false_iff.2 hnone)).2
  -- The file as it was fits what is left unless something was saved.
  have hkept : ∀ group, group = (d.opened op).group ∨ group = (d.opened op).view →
      Option.Rel (op.run (d.opened op)).1.SavedAs group
        (d.groupFiles.lookup (groupPath op.key)) := by
    intro group hgroup
    refine GroupRecord.SavedAs.mono ?_ hleaves.queueOpen fun hnone => ?_
    · rcases hgroup with hgroup | hgroup
      · exact hgroup ▸ hbefore
      · exact hgroup ▸ GroupRecord.SavedAs.view hbefore
    · have hstate := hleaves.state
      rw [hnone, Option.isSome_none, eq_comm] at hstate
      simpa using hstate
  have hgroup := hleaves.group
  rw [filesAfter_of_not_delete (not_exists.1 hdelete)]
  cases hrun : (op.run (d.opened op)).1.group with
  | none =>
    rw [hrun] at hgroup
    rcases hgroup with hsame | hview | ⟨-, hnone⟩
    · exact hkept _ (.inl hsame)
    · exact hkept _ (.inr hview)
    · exact hkept _ (.inl (hnone rfl).symm)
  | some g =>
    rw [hrun] at hgroup
    simp only
    split
    · rw [lookup_insert]
      exact .some (GroupRecord.SavedAs.refl _ g)
    rename_i hsaves
    rcases hgroup with hsame | hview | ⟨hsaved, -⟩
    · exact hkept _ (.inl hsame)
    · exact hkept _ (.inr hview)
    · exact absurd hsaved hsaves

include hplain

/-- An operation on a group with a plain name keeps the invariant. -/
lemma Tidy.perform : (d.perform op).Tidy where
  queues := h.queues
  loaded := by
    intro key hkey
    rcases mem_states_perform_iff.1 hkey with hkey | ⟨rfl, hopens⟩
    · exact h.loaded key hkey
    · have hopen := queueOpen_of_opens hopens
      exact ⟨hplain, of_decide_eq_true hopen⟩
  stored := by
    intro path hpath
    obtain ⟨key, hkey, rfl⟩ := h.stored path hpath
    exact ⟨key, mem_states_perform_iff.2 (.inl hkey), rfl⟩
  named := by
    intro key g hg
    by_cases hkey : key = op.key
    · subst hkey
      rw [groups_perform_self] at hg
      exact h.key_run hg
    · rw [groups_perform_of_ne hkey] at hg
      exact h.named key g hg
  filed := fun _ _ => h.filed_filesAfter
  saved := by
    intro key
    by_cases hkey : key = op.key
    · subst hkey
      rw [record_perform_self, groups_perform_self]
      exact h.saved_perform_self
    rw [record_perform_of_ne hkey, groups_perform_of_ne hkey]
    have hfile := h.saved key
    rw [← lookup_filesAfter_of_ne hplain hkey] at hfile
    exact hfile

end

/-! ### A restart keeps the invariant -/

section

variable {key : GroupKey}

/-- The directories of consumer states after a clean `Close`. -/
lemma mem_closedFiles_iff {path : List String} :
    path ∈ d.closedFiles ↔ path ∈ d.stateFiles ∨ ∃ key ∈ d.states, consumerStatePath key = path := by
  rw [closedFiles, mem_foldl_insert_iff]
  refine or_congr_right ⟨?_, ?_⟩
  · rintro ⟨e, he, rfl⟩
    exact ⟨e.1, mem_map_of_mem he, rfl⟩
  · rintro ⟨key, hkey, rfl⟩
    obtain ⟨e, he, rfl⟩ := mem_map.1 hkey
    exact ⟨e, he, rfl⟩

variable (h : d.Tidy)

include h

/-- The files of an open consumer state after a clean `Close`. -/
lemma Tidy.lookup_closedFiles {cs : ConsumerState} (hcs : d.states.lookup key = some cs) :
    ∃ before : StateFiles n,
      d.closedFiles.lookup (consumerStatePath key) = some (before.compact cs) := by
  have hkeys : (d.states.entries.map fun e => consumerStatePath e.1).Nodup := by
    refine (List.Nodup.of_map Sigma.fst d.states.nodupKeys).map_on fun e he e' he' hpath => ?_
    have hkey : e.1 = e'.1 := consumerStatePath_injective (h.loaded e.1 (mem_map_of_mem he)).1
      (h.loaded e'.1 (mem_map_of_mem he')).1 hpath
    exact d.states.nodupKeys.eq_of_fst_eq he he' hkey
  obtain ⟨before, hbefore⟩ := exists_lookup_foldl_insert d.stateFiles hkeys (mem_lookup_iff.1 hcs)
  exact ⟨_, hbefore⟩

/-- The store finds again the consumer states that were open. -/
lemma Tidy.mem_foundKeys_iff : key ∈ d.foundKeys d.closedFiles ↔ key ∈ d.states := by
  simp only [foundKeys, mem_flatMap, mem_filterMap, Option.map_eq_some_iff]
  constructor
  · rintro ⟨queueName, hqueue, path, hpath, name, hchild, rfl⟩
    obtain ⟨key, hkey, rfl⟩ : ∃ key ∈ d.states, consumerStatePath key = path := by
      rcases mem_closedFiles_iff.1 hpath with hpath | hpath
      · obtain ⟨key, hkey, rfl⟩ := h.stored path hpath
        exact ⟨key, hkey, rfl⟩
      · exact hpath
    rw [childOf_consumersPath_iff (h.queues queueName hqueue) (h.loaded key hkey).1] at hchild
    exact hchild ▸ hkey
  · intro hkey
    obtain ⟨hplain, hqueue⟩ := h.loaded key hkey
    exact ⟨key.1, hqueue, consumerStatePath key, mem_closedFiles_iff.2 (.inr ⟨key, hkey, rfl⟩),
      key.2, (childOf_consumersPath_iff hplain.1 hplain).2 rfl, rfl⟩

lemma Tidy.mem_states_restart_iff : key ∈ d.restart.states ↔ key ∈ d.states := by
  rw [← h.mem_foundKeys_iff]
  refine (mem_foldl_insert_iff _).trans ?_
  simp [foundKeys]

/-- A consumer state that was open is open again with the progress it had. -/
lemma Tidy.lookup_states_restart {cs : ConsumerState} (hcs : d.states.lookup key = some cs) :
    ∃ cs', d.restart.states.lookup key = some cs' ∧ ConsumerState.SameProgress cs' cs := by
  have hkey : key ∈ d.states := lookup_isSome.1 (by rw [hcs]; rfl)
  obtain ⟨before, hbefore⟩ := h.lookup_closedFiles hcs
  refine ⟨_, lookup_foldl_insert ∅ (h.mem_foundKeys_iff.2 hkey), ?_⟩
  simp only [openState, hbefore]
  exact StateProcess.sameProgress_compact cs before

/-- The metadata of a group is read from its own file. -/
lemma Tidy.loadGroup_eq (key : GroupKey) :
    d.loadGroup key = (d.groupFiles.lookup (groupPath key)).map decoded := by
  unfold loadGroup
  cases hfind : d.groupFiles.entries.find? fun file => file.2.key == key with
  | none =>
    cases hfile : d.groupFiles.lookup (groupPath key) with
    | none => rfl
    | some file =>
      -- The file at the group's path is of the group, and would have been found.
      have hkey : file.key = key := (groupPath_injective (h.filed _ file hfile)).symm
      have hmiss := find?_eq_none.1 hfind _ (mem_lookup_iff.1 hfile)
      simp [hkey] at hmiss
  | some file =>
    have hkey : file.2.key = key := by simpa using find?_some hfind
    have hlookup : d.groupFiles.lookup file.1 = some file.2 :=
      mem_lookup_iff.2 (mem_of_find?_eq_some hfind)
    rw [h.filed file.1 file.2 hlookup, hkey] at hlookup
    rw [hlookup]
    rfl

/-- A restart keeps the invariant. -/
lemma Tidy.restart : d.restart.Tidy where
  __ := h
  loaded := fun key hkey => h.loaded key (h.mem_states_restart_iff.1 hkey)
  stored := by
    intro path hpath
    rcases mem_closedFiles_iff.1 hpath with hpath | ⟨key, hkey, rfl⟩
    · obtain ⟨key, hkey, rfl⟩ := h.stored path hpath
      exact ⟨key, h.mem_states_restart_iff.2 hkey, rfl⟩
    · exact ⟨key, h.mem_states_restart_iff.2 hkey, rfl⟩
  named := by
    intro key g hg
    obtain ⟨file, hfind, rfl⟩ := Option.map_eq_some_iff.1 hg
    have hkey : file.2.key = key := by simpa using find?_some hfind
    exact hkey
  saved := by
    intro key
    show Option.Rel _ (d.loadGroup key) (d.groupFiles.lookup (groupPath key))
    rw [h.loadGroup_eq]
    cases d.groupFiles.lookup (groupPath key) with
    | none => exact .none
    | some file => exact .some (GroupRecord.SavedAs.decoded _ file)

end

/-! ### What a restart preserves -/

/-- The pending entries that a read takes from a consumer state. -/
lemma mem_held_replacePEL (g : ConsumerGroup) (cs : ConsumerState) (entry : Nat × String × Nat) :
    entry ∈ (g.replacePEL cs.allPending).held ↔
      ∃ count : UInt16, cs.holding entry.1 = some (entry.2.1, count) ∧ count.toNat = entry.2.2 := by
  simp only [held, replacePEL, ConsumerState.allPending, map_map,
    mem_map, Function.comp_def, LogPendingEntry.toTypes, ConsumerState.holding,
    Option.map_eq_some_iff, ConsumerState.entryAt_eq_some_iff]
  constructor
  · rintro ⟨e, he, rfl⟩
    exact ⟨e.deliveryCount, ⟨e, ⟨he, rfl⟩, rfl⟩, rfl⟩
  · rintro ⟨count, ⟨e, ⟨he, hoffset⟩, hheld⟩, hcount⟩
    obtain ⟨howner, rfl⟩ := Prod.mk.inj hheld
    exact ⟨e, he, Prod.ext hoffset (Prod.ext howner hcount)⟩

/-- Metadata and progress read back show the group that was there. -/
lemma sameAs_syncFromStore {r r' : GroupRecord} {g g' : ConsumerGroup} (hsaved : r.SavedAs g g')
    (hopen : r'.queueOpen = r.queueOpen) (hclosed : r.queueOpen = false → r.state = none)
    (hnone : r.state = none → r'.state = none) (hsome : ∀ cs, r.state = some cs →
      ∃ cs', r'.state = some cs' ∧ ConsumerState.SameProgress cs' cs) :
    (r.syncFromStore g).SameAs (r'.syncFromStore g') := by
  unfold syncFromStore
  rw [hopen]
  cases hqueue : r.queueOpen with
  | false =>
    -- Without the queue nothing is read from the log store.
    refine ⟨hsaved.cursor hqueue, fun entry => ?_⟩
    simp only [Bool.false_eq_true, if_false, held, hsaved.pel (hclosed hqueue)]
  | true =>
    cases hstate : r.state with
    | none =>
      rw [hnone hstate]
      refine ⟨congrArg (QueueCursor.mk 0) hsaved.committed, fun entry => ?_⟩
      show entry ∈ g.held ↔ entry ∈ g'.held
      rw [held, held, hsaved.pel hstate]
    | some cs =>
      obtain ⟨cs', hcs', hprogress⟩ := hsome cs hstate
      rw [hcs']
      refine ⟨QueueCursor.mk.injEq .. |>.mpr ⟨hprogress.cursor.symm, hsaved.committed⟩,
        fun entry => ?_⟩
      simp only [if_true]
      rw [mem_held_replacePEL, mem_held_replacePEL, hprogress.holding]

/-- A restart shows every group that is not a stream as it was. -/
lemma Tidy.view_restart (h : d.Tidy) {key : GroupKey} {g : ConsumerGroup}
    (hg : d.view key = some g) (hmode : g.mode ≠ .stream) :
    ∃ g', d.restart.view key = some g' ∧ g.SameAs g' := by
  obtain ⟨before, hbefore, rfl⟩ := Option.map_eq_some_iff.1 hg
  have hbefore : d.groups key = some before := hbefore
  have hstream : before.mode ≠ .stream := by
    intro hstream
    simp [hstream] at hmode
  -- The file that is read says what the metadata in memory does.
  obtain ⟨file, hfile, hsaved⟩ : ∃ file, d.groupFiles.lookup (groupPath key) = some file ∧
      (d.record key).SavedAs before file := by
    have hrel := h.saved key
    rw [hbefore] at hrel
    cases hfile : d.groupFiles.lookup (groupPath key) with
    | none =>
      rw [hfile] at hrel
      cases hrel
    | some file =>
      rw [hfile] at hrel
      obtain ⟨hsaved⟩ := hrel
      exact ⟨file, rfl, hsaved⟩
  have hdecoded := GroupRecord.SavedAs.decoded (d.record key) file
  have hread : d.restart.view key = some ((d.restart.record key).syncFromStore file.decoded) := by
    have hgroup : (d.restart.record key).group = some file.decoded := by
      refine (h.loadGroup_eq key).trans ?_
      rw [hfile, Option.map_some]
    rw [view, GroupRecord.view, hgroup, Option.map_some,
      if_neg (mt hdecoded.mode.1 (mt hsaved.mode.2 hstream))]
  refine ⟨_, hread, ?_⟩
  simp only [hstream, if_false]
  refine sameAs_syncFromStore ⟨hsaved.mode.trans hdecoded.mode.symm, hsaved.committed, hsaved.pel,
    hsaved.cursor⟩ rfl (fun hclosed => ?_) (fun hnone => ?_) fun cs hcs => h.lookup_states_restart hcs
  · -- Without the queue no consumer state is open.
    refine lookup_eq_none.2 fun hkey => ?_
    exact of_decide_eq_false hclosed (h.loaded key hkey).2
  · refine lookup_eq_none.2 fun hkey => ?_
    exact lookup_eq_none.1 hnone (h.mem_states_restart_iff.1 hkey)

end GroupDisk

end

/-- `EffectiveConsumerGroupID`: the group that a consumer with a pattern is registered under. -/
def effectiveConsumerGroupID (groupId pattern : String) : String :=
  if pattern = "" then groupId else groupId ++ "@" ++ pattern

/-- A group is created, and its cursor is moved. -/
def seekActions (groupId : String) : List DiskAction :=
  [.perform (.create ⟨0, default⟩ (newConsumerGroupState "tasks" groupId "")),
    .perform (.updateCursor ("tasks", groupId) 5)]

end FluxMQ
