import FluxMQ.Types.ConsumerGroup
import Mathlib.Data.List.DropRight
import Mathlib.Data.Rat.Defs

/-!
# Queue configuration

The parts of `QueueConfig` in `queue/types/config.go` that modelled functions read, with its check
`Validate`, and the check of the topic filters in `topics/validate.go`. A field that is not given
has the value of `DefaultQueueConfig`. The raft group that a configuration names is the one of
`normalizeGroupID` in `queue/raft/coordinator.go`.
-/

namespace FluxMQ

/-- `RetentionPolicy`; a limit that is not positive is disabled. -/
structure RetentionPolicy where
  retentionTime : Time := 0
  retentionBytes : Int := 0
  retentionMessages : Int := 0
  deriving Repr, DecidableEq, Inhabited

/-- `ReplicationMode`: whether an append waits for the other replicas. -/
inductive ReplicationMode where
  | sync
  | async
  | other
  deriving Repr, DecidableEq, Inhabited

/-- `ReplicationConfig`: whether the queue is replicated, and by which raft group. -/
structure ReplicationConfig where
  enabled : Bool := false
  group : String := ""
  replicationFactor : Int := 3
  mode : ReplicationMode := .sync
  minInSyncReplicas : Int := 2
  ackTimeout : Time := 5 * second
  deriving Repr, DecidableEq, Inhabited

/-- `RetryPolicy`: how often and how long a delivery is tried. -/
structure RetryPolicy where
  maxRetries : Int := 10
  initialBackoff : Time := 5 * second
  maxBackoff : Time := 300 * second
  backoffMultiplier : ℚ := 2
  totalTimeout : Time := 86400 * second
  deriving Repr, DecidableEq, Inhabited

/-- `DLQConfig`; the empty topic stands for the generated one. -/
structure DLQConfig where
  enabled : Bool := true
  topic : String := ""
  deriving Repr, DecidableEq, Inhabited

/-- `QueueType`; `unset` is the empty string. -/
inductive QueueType where
  | unset
  | classic
  | stream
  | other
  deriving Repr, DecidableEq, Inhabited

/-- `QueueConfig`: what a queue was created with. -/
structure QueueConfig where
  name : String
  topics : List String := []
  replication : ReplicationConfig := {}
  retention : RetentionPolicy := {}
  reserved : Bool := false
  type : QueueType := .classic
  durable : Bool := true
  expiresAfter : Time := 0
  retryPolicy : RetryPolicy := {}
  dlqConfig : DLQConfig := {}
  maxMessageSize : Int := 10485760
  maxDepth : Int := 100000
  messageTTL : Time := 604800 * second
  deliveryTimeout : Time := 30 * second
  batchSize : Int := 100
  heartbeatTimeout : Time := 120 * second
  deriving Repr, DecidableEq, Inhabited

/-! ### Topic filters -/

/-- `ParseShared` on a filter that begins with `$share/`: the share name and the filter behind
it. -/
def parseShared (rest : List Char) : Option (List Char × List Char) :=
  match rest.span (· ≠ '/') with
  | (_, []) => none
  | (shareName, _ :: topicFilter) => some (shareName, topicFilter)

/-- The check of one level: a wildcard stands alone in its level, and `#` in the last one. -/
def validLevel (last : Bool) (level : List Char) : Bool :=
  (!level.contains '#' || (level == ['#'] && last)) && (!level.contains '+' || level == ['+'])

/-- The loop of `ValidateTopicFilter` over the levels. -/
def validLevels : List (List Char) → Bool
  | [] => true
  | [level] => validLevel true level
  | level :: rest => validLevel false level && validLevels rest

/-- `ValidateTopicFilter` accepts the filter. -/
def validTopicFilter (filter : String) : Bool :=
  let chars := filter.toList
  let sharePart := "$share/".toList
  if chars = [] ∨ chars.contains (Char.ofNat 0) then false
  else if sharePart.isPrefixOf chars then
    match parseShared (chars.drop sharePart.length) with
    | none => false
    | some (shareName, topicFilter) =>
      shareName ≠ [] && !shareName.contains '+' && !shareName.contains '#' && topicFilter ≠ [] &&
        validLevels (topicFilter.splitOn '/')
  else validLevels (chars.splitOn '/')

/-- `ValidateTopicFilters` accepts the filters. -/
def validTopicFilters (filters : List String) : Bool :=
  filters.all validTopicFilter

example : validTopicFilter "$queue/q/#" ∧ ¬ validTopicFilter "$queue/a#b/#" := by decide +kernel

/-! ### Validate -/

/-- `unicode.IsSpace`. -/
def isSpace (c : Char) : Bool :=
  let n := c.toNat
  (9 ≤ n && n ≤ 13) || n == 32 || n == 0x85 || n == 0xA0 || n == 0x1680 ||
    (0x2000 ≤ n && n ≤ 0x200A) || n == 0x2028 || n == 0x2029 || n == 0x202F || n == 0x205F ||
    n == 0x3000

/-- The check of a policy's retries. -/
def RetryPolicy.valid (p : RetryPolicy) : Bool :=
  0 ≤ p.maxRetries && 0 ≤ p.initialBackoff && p.initialBackoff ≤ p.maxBackoff &&
    1 ≤ p.backoffMultiplier && 0 ≤ p.totalTimeout

/-- The check of a queue's replication, made only when it is enabled. -/
def ReplicationConfig.valid (r : ReplicationConfig) : Bool :=
  (1 ≤ r.replicationFactor && r.replicationFactor ≤ 10) &&
    (1 ≤ r.minInSyncReplicas && r.minInSyncReplicas ≤ r.replicationFactor) &&
    r.mode != .other && (r.mode != .async || r.minInSyncReplicas ≤ 1) && 0 < r.ackTimeout &&
    (r.group == "" || r.group.toList.any fun c => !isSpace c)

/-- `Validate` accepts the configuration. Every check that fails reports the same error. -/
def QueueConfig.validate (c : QueueConfig) : Bool :=
  validTopicFilters c.topics && c.name != "" && c.topics != [] && 0 < c.maxMessageSize &&
    0 < c.maxDepth && 0 < c.deliveryTimeout && 0 < c.batchSize && 0 < c.heartbeatTimeout &&
    c.retryPolicy.valid && (c.durable || 0 < c.expiresAfter) && (!c.reserved || c.durable) &&
    c.type != .other && (!c.replication.enabled || c.replication.valid)

example : QueueConfig.validate { name := "orders", topics := ["orders/#"] } := by decide +kernel

/-! ### Raft groups -/

/-- `strings.TrimSpace`. -/
def trimSpace (s : String) : String :=
  String.ofList ((s.toList.dropWhile isSpace).rdropWhile isSpace)

def defaultGroupID : String := "default"

/-- `normalizeGroupID`: the group that a name stands for. -/
def normalizeGroupID (groupID : String) : String :=
  if trimSpace groupID = "" then defaultGroupID else trimSpace groupID

lemma trimSpace_trimSpace (s : String) : trimSpace (trimSpace s) = trimSpace s := by
  unfold trimSpace
  rw [String.toList_ofList]
  generalize hl : s.toList.dropWhile isSpace = l
  -- What is left does not begin with a space, and neither does a first part of it.
  have hhead : ∀ h : 0 < l.length, ¬ isSpace l[0] := by
    rw [← List.dropWhile_eq_self_iff, ← hl, List.dropWhile_idempotent]
  have hfirst : (l.rdropWhile isSpace).dropWhile isSpace = l.rdropWhile isSpace := by
    rw [List.dropWhile_eq_self_iff]
    intro hpos
    have hfront := List.rdropWhile_prefix isSpace (l := l)
    rw [hfront.getElem hpos]
    exact hhead (hpos.trans_le hfront.length_le)
  rw [hfirst, List.rdropWhile_idempotent]

/-- A group stands for itself. -/
lemma normalizeGroupID_normalizeGroupID (groupID : String) :
    normalizeGroupID (normalizeGroupID groupID) = normalizeGroupID groupID := by
  unfold normalizeGroupID
  by_cases hblank : trimSpace groupID = ""
  · rw [if_pos hblank]
    decide
  · rw [if_neg hblank, trimSpace_trimSpace, if_neg hblank]

end FluxMQ
