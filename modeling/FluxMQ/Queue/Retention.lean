import FluxMQ.Logstorage.SegmentManager
import FluxMQ.Types.QueueConfig

/-!
# Retention

`processRetention` of `queue/manager.go` truncates every queue at the smallest committed offset of
its queue-mode groups, or at its tail if it has none, but not beyond what its retention limits
allow. Groups of other modes do not count.

With a limit in force only records past the limit are removed. Without one, a pass removes every
segment below the truncation offset, whether or not a stream group has read it, and all of them
when no queue-mode group exists. `Queue.retains_iff` says exactly when a pass is harmless.
-/

namespace FluxMQ

/-- A queue as a retention pass sees it. -/
structure Queue where
  config : QueueConfig
  groups : List ConsumerGroup
  log : SegmentManager

/-- What a retention pass over one queue reads from its surroundings. -/
structure RetentionReadings where
  /-- The clock. -/
  now : Time
  /-- The offset `offsetByTime` finds for a time, unless it fails. -/
  offsetByTime : Time → Option Nat
  /-- A replicated queue is truncated only where it is ready for writes, by its raft leader. -/
  mayTruncate : Bool

/-- `GetMinCommittedOffsetByMode`: the smallest committed offset of the groups of a mode, or the
tail. -/
def getMinCommittedOffsetByMode (groups : List ConsumerGroup) (mode : ConsumerGroupMode)
    (tail : Nat) : Nat :=
  let minCommitted := groups.foldl (fun minCommitted group =>
    if mode ≠ .unset ∧ group.mode ≠ mode then minCommitted
    else
      match minCommitted with
      | none => some group.cursor.committed
      | some least => some (if group.cursor.committed < least then group.cursor.committed else least))
    none
  minCommitted.getD tail

namespace Queue

variable (q : Queue) (t : RetentionReadings)

/-- The retention offsets of the limits that are configured, unless the lookup fails. -/
def limits : List (Option Nat) :=
  let policy := q.config.retention
  let head := q.log.headOffset
  let tail := q.log.tailOffset
  [ if 0 < policy.retentionTime then t.offsetByTime (t.now - policy.retentionTime) else none,
    if 0 < policy.retentionBytes then some (q.log.retentionOffsetBySize policy.retentionBytes)
      else none,
    if 0 < policy.retentionMessages then
      some (if head + policy.retentionMessages.toNat < tail then
        tail - policy.retentionMessages.toNat else head)
    else none ]

/-- Take one limit into account. -/
def raise (acc : Nat × Bool) : Option Nat → Nat × Bool
  | none => acc
  | some off => (if acc.1 < off then off else acc.1, true)

/-- `computeRetentionOffset`: the furthest of the limits' offsets, and whether there is one. -/
def computeRetentionOffset : Nat × Bool :=
  (q.limits t).foldl raise (0, false)

/-- The offset up to which queue-mode groups have committed. -/
def minCommitted : Nat :=
  getMinCommittedOffsetByMode q.groups .queue q.log.tailOffset

/-- Where `processRetention` truncates. -/
def truncateOffset : Nat :=
  match q.computeRetentionOffset t with
  | (retentionOffset, true) =>
    if retentionOffset < q.minCommitted then retentionOffset else q.minCommitted
  | (_, false) => q.minCommitted

/-- The body of the loop of `processRetention`. -/
def retain : Queue :=
  if q.config.replication.enabled ∧ !t.mayTruncate then q
  else { q with log := q.log.truncate t.now (q.truncateOffset t) }

/-- A pass has removed the record at an offset. -/
def Removes (offset : Nat) : Prop :=
  (q.log.read offset).isSome ∧ ¬ ((q.retain t).log.read offset).isSome

/-- The queue has groups, and all of them have committed past the offset. -/
def Consumed (offset : Nat) : Prop :=
  q.groups ≠ [] ∧ ∀ g ∈ q.groups, offset < g.cursor.committed

/-- A retention limit puts the offset below its retention offset. -/
def PastLimit (offset : Nat) : Prop :=
  ∃ off, some off ∈ q.limits t ∧ offset < off

/-- Every group has committed the segments up to where the queue-mode groups have, and there is
one. -/
def SegmentsConsumed : Prop :=
  ∀ seg ∈ q.log.segments, seg.records ≠ [] → seg.nextOffset ≤ q.minCommitted →
    q.groups ≠ [] ∧ ∀ g ∈ q.groups, seg.nextOffset ≤ g.cursor.committed

end Queue

/-- `processRetention`: a pass over all queues. -/
def processRetention (t : String → RetentionReadings) (queues : List Queue) : List Queue :=
  queues.map fun q => q.retain (t q.config.name)

namespace Queue

variable {q : Queue} {t : RetentionReadings} {offset : Nat}

/-- What is left after all limits is the offset of one of them, if there was one. -/
lemma foldl_raise (limits : List (Option Nat)) (acc : Nat × Bool) :
    ((limits.foldl raise acc).2 = true ↔ acc.2 = true ∨ ∃ off, some off ∈ limits) ∧
      ((limits.foldl raise acc).1 = acc.1 ∨ some (limits.foldl raise acc).1 ∈ limits) := by
  induction limits generalizing acc with
  | nil => simp
  | cons limit limits ih =>
    obtain ⟨hflag, hoffset⟩ := ih (raise acc limit)
    rw [List.foldl_cons]
    cases limit with
    | none => simpa [raise] using ⟨hflag, hoffset⟩
    | some off =>
      refine ⟨iff_of_true (hflag.2 (Or.inl rfl)) (Or.inr ⟨off, List.mem_cons_self⟩), ?_⟩
      rcases hoffset with heq | hmem
      · by_cases hlt : acc.1 < off
        · right
          rw [heq]
          simp [raise, hlt]
        · left
          rw [heq]
          simp [raise, hlt]
      · exact Or.inr (List.mem_cons_of_mem _ hmem)

/-- A limit is in force. -/
def HasLimit (q : Queue) (t : RetentionReadings) : Prop :=
  ∃ off, some off ∈ q.limits t

lemma truncateOffset_of_not_hasLimit (h : ¬ q.HasLimit t) :
    q.truncateOffset t = q.minCommitted := by
  have hflag : (q.computeRetentionOffset t).2 = false := by
    rw [← Bool.not_eq_true, computeRetentionOffset, (foldl_raise _ _).1]
    simpa [HasLimit] using h
  unfold truncateOffset
  split
  · rename_i heq
    rw [heq] at hflag
    exact nomatch hflag
  · rfl

/-- With a limit in force, whatever lies below the truncation offset is past a limit. -/
lemma pastLimit_of_lt (h : q.HasLimit t) (hlt : offset < q.truncateOffset t) :
    q.PastLimit t offset := by
  obtain ⟨hflag, hoffset⟩ := foldl_raise (q.limits t) (0, false)
  have hle : q.truncateOffset t ≤ (q.computeRetentionOffset t).1 := by
    unfold truncateOffset
    split
    · rename_i retentionOffset heq
      rw [heq]
      split <;> omega
    rename_i heq
    have htrue : (q.computeRetentionOffset t).2 = true := hflag.2 (Or.inr h)
    rw [heq] at htrue
    exact nomatch htrue
  rcases hoffset with hzero | hmem
  · have : (q.computeRetentionOffset t).1 = 0 := hzero
    omega
  · exact ⟨_, hmem, lt_of_lt_of_le hlt hle⟩

/-- The records a pass removes are those of the segments below the truncation offset. -/
lemma removes_iff (h : ¬ (q.config.replication.enabled ∧ !t.mayTruncate)) : q.Removes t offset ↔
    ∃ seg ∈ q.log.segments, seg.Holds offset ∧ seg.nextOffset ≤ q.truncateOffset t := by
  unfold Removes retain
  rw [if_neg h]
  exact SegmentManager.removed_iff _ _

/-- A pass over a queue removes only what every group has consumed or a limit lets go, exactly when
it may not truncate at all, a limit is in force, or every group has committed the segments that
the queue-mode groups have. -/
lemma retain_iff (q : Queue) (t : RetentionReadings) :
    (∀ offset, q.Removes t offset → q.Consumed offset ∨ q.PastLimit t offset) ↔
      (q.config.replication.enabled ∧ !t.mayTruncate) ∨ q.HasLimit t ∨ q.SegmentsConsumed := by
  by_cases hblocked : q.config.replication.enabled ∧ !t.mayTruncate
  · refine iff_of_true (fun offset hremoves => ?_) (Or.inl hblocked)
    unfold Removes retain at hremoves
    rw [if_pos hblocked] at hremoves
    exact absurd hremoves.1 hremoves.2
  by_cases hlimit : q.HasLimit t
  · refine iff_of_true (fun offset hremoves => Or.inr ?_) (Or.inr (Or.inl hlimit))
    obtain ⟨seg, -, hholds, hle⟩ := (removes_iff hblocked).1 hremoves
    exact pastLimit_of_lt hlimit (lt_of_lt_of_le hholds.2 hle)
  have hnotPast : ∀ offset, ¬ q.PastLimit t offset := fun offset ⟨off, hmem, _⟩ => hlimit ⟨off, hmem⟩
  have hoffset := truncateOffset_of_not_hasLimit hlimit
  constructor
  · -- The last record of a segment stands for all of it.
    refine fun h => Or.inr (Or.inr fun seg hmem hne hle => ?_)
    have hlen := List.length_pos_iff.2 hne
    have hnext : seg.nextOffset = seg.baseOffset + seg.records.length := rfl
    have hlast : q.Removes t (seg.nextOffset - 1) :=
      (removes_iff hblocked).2 ⟨seg, hmem, ⟨by omega, by omega⟩, hoffset ▸ hle⟩
    obtain ⟨hgroups, hcommitted⟩ := (h _ hlast).resolve_right (hnotPast _)
    refine ⟨hgroups, fun g hg => ?_⟩
    have := hcommitted g hg
    omega
  intro h offset hremoves
  obtain ⟨seg, hmem, hholds, hle⟩ := (removes_iff hblocked).1 hremoves
  have hconsumed := (h.resolve_left hblocked).resolve_left hlimit
  have hne : seg.records ≠ [] := by
    intro hnil
    have hge := hholds.1
    have hlt := hholds.2
    simp only [Segment.nextOffset, hnil, List.length_nil] at hlt
    omega
  obtain ⟨hgroups, hcommitted⟩ := hconsumed seg hmem hne (hoffset ▸ hle)
  exact Or.inl ⟨hgroups, fun g hg => lt_of_lt_of_le hholds.2 (hcommitted g hg)⟩

/-- A pass over all queues removes from each of them only what every group of it has consumed or a limit
lets go, exactly when the queue may not be truncated at all, a limit is in force for it, or every
group has committed the segments that the queue-mode groups have. -/
theorem retains_iff (queues : List Queue) (t : String → RetentionReadings) :
    (processRetention t queues).length = queues.length ∧
      ∀ (i : Nat) (q : Queue), queues[i]? = some q →
        ∃ q' : Queue, (processRetention t queues)[i]? = some q' ∧
        ((∀ offset, (q.log.read offset).isSome → ¬ (q'.log.read offset).isSome →
            q.Consumed offset ∨ q.PastLimit (t q.config.name) offset) ↔
          (q.config.replication.enabled ∧ !(t q.config.name).mayTruncate) ∨
            q.HasLimit (t q.config.name) ∨ q.SegmentsConsumed) := by
  refine ⟨List.length_map _, fun i q hq => ⟨q.retain (t q.config.name), ?_, ?_⟩⟩
  · simp [processRetention, hq]
  · rw [← retain_iff]
    exact forall_congr' fun offset => and_imp.symm

/-- A queue whose one segment holds two records, with the given groups and no retention limit. -/
def twoRecords (groups : List ConsumerGroup) : Queue :=
  { config := { name := "q" }, groups
    log := (SegmentManager.new 0).write [.envelope { topic := "a" }, .envelope { topic := "b" }] 2 }

/-- Nothing but the clock to read. -/
def noReadings : RetentionReadings :=
  { now := 0, offsetByTime := fun _ => none, mayTruncate := true }

/-- Without a limit, both records are removed from a queue that has no group yet, and from one
whose only group is a stream that has committed nothing. -/
theorem removes_unconsumed :
    (∀ offset < 2, ((twoRecords []).log.read offset).isSome ∧
      ((twoRecords []).retain noReadings).log.read offset = none) ∧
    ∀ offset < 2, ((twoRecords [{ newConsumerGroupState "q" "g" "#" with mode := .stream }]).retain
      noReadings).log.read offset = none := by
  decide +kernel

end Queue

end FluxMQ
