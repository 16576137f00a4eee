import FluxMQ.Mqtt.Distribute
import FluxMQ.Topics.Match
import Mathlib.Data.List.Infix

/-!
# Routing by topic

`RoutingResolver` in `broker/routing.go`, which tells the topics that address a queue, or a control verb
of one, from ordinary topics.

* `resolve`: what a topic addresses.
* `queueName_of_ack`: a topic that ends with an acknowledgement names the queue behind `$queue/`.
* `queueName_of_commit_iff`: one that ends with a commit does so only with nothing in between.
-/

namespace FluxMQ.Routing

open Topics Mqtt

/-! ### Texts -/

/-- `strings.HasPrefix`. -/
def hasPrefix (s start : String) : Bool :=
  start.toList.isPrefixOf s.toList

/-- `strings.TrimPrefix`. -/
def trimPrefix (s start : String) : String :=
  if hasPrefix s start then String.ofList (s.toList.drop start.toList.length) else s

/-- `strings.CutSuffix`. -/
def cutSuffix (s ending : String) : Option String :=
  if ending.toList.isSuffixOf s.toList then
    some (String.ofList (s.toList.take (s.toList.length - ending.toList.length)))
  else none

/-- `strings.TrimSuffix`. -/
def trimSuffix (s ending : String) : String :=
  (cutSuffix s ending).getD s

/-! ### The resolver -/

/-- What a control topic says about a message. -/
inductive AckKind where
  | accept
  | nack
  | reject
  deriving Repr, DecidableEq

/-- `RouteResult`: what `Resolve` makes of a topic. -/
structure RouteResult where
  kind : RouteKind
  queueName : String := ""
  pattern : String := ""
  controlVerb : String := ""
  publishTopic : String := ""
  ackKind : AckKind := .accept
  deriving Repr, DecidableEq

/-- `queuePrefix`. -/
def queueStart : String := "$queue/"

/-- `ParseQueueFilter`: the name of the queue and the pattern behind it. -/
def parseQueueFilter (filter : String) : String × String :=
  if !hasPrefix filter queueStart then ("", "")
  else
    match Levels.cut '/' (filter.toList.drop queueStart.toList.length) with
    | (name, some pattern) => (String.ofList name, String.ofList pattern)
    | (rest, none) => (String.ofList rest, "")

def queueControlSegments : List String := ["$ack", "$nack", "$reject", "$commit"]

/-- `misplacedControlSegment`: a control verb that is not the last level. -/
def misplacedControlSegment (topic : String) : Option String :=
  ((levels topic).dropLast.map String.ofList).find? fun level => level ∈ queueControlSegments

def parseAckSuffix (topic : String) : Option (AckKind × String) :=
  match cutSuffix topic "/$ack" with
  | some base => some (.accept, base)
  | none =>
    match cutSuffix topic "/$nack" with
    | some base => some (.nack, base)
    | none => (cutSuffix topic "/$reject").map fun base => (.reject, base)

def resolve (topic : String) : RouteResult :=
  if !hasPrefix topic queueStart then { kind := .pubSub }
  else
    match parseAckSuffix topic with
    | some (ackKind, baseTopic) =>
      { kind := .queueAck
        queueName := (parseQueueFilter baseTopic).1
        pattern := (parseQueueFilter baseTopic).2
        publishTopic := baseTopic, ackKind }
    | none =>
      match misplacedControlSegment topic with
      | some segment => { kind := .queueMalformed, publishTopic := topic, controlVerb := segment }
      | none =>
        if (cutSuffix topic "/$commit").isSome then
          { kind := .queueCommit
            queueName := trimSuffix (trimPrefix topic queueStart) "/$commit"
            publishTopic := topic }
        else
          { kind := .queue
            queueName := (parseQueueFilter topic).1
            pattern := (parseQueueFilter topic).2
            publishTopic := topic }

/-- `QueueTopic` with one part behind the name of the queue. -/
def queueTopic (queueName part : String) : String :=
  if part = "" then queueStart ++ queueName else queueStart ++ queueName ++ "/" ++ part

/-- The topic is one of those that are not for a queue to keep. -/
def isControl (topic : String) : Bool :=
  (resolve topic).kind ∈ [.queueAck, .queueCommit, .queueMalformed]

/-- A message for a queue is published under the topic itself. -/
lemma publishTopic_of_queue {topic : String} (h : (resolve topic).kind = .queue) :
    (resolve topic).publishTopic = topic := by
  rw [resolve] at h ⊢
  split at h
  · cases h
  rename_i hstart
  rw [if_neg hstart]
  split at h
  · cases h
  split at h
  · cases h
  split at h
  · cases h
  · rename_i hcommit
    rw [if_neg hcommit]

/-! ### Which queue a control verb is for -/

section

variable {base ending name : String}

attribute [simp] String.toList_append

lemma hasPrefix_append : hasPrefix (base ++ ending) base = true := by simp [hasPrefix]

lemma cutSuffix_append : cutSuffix (base ++ ending) ending = some base := by simp [cutSuffix]

/-- Of two endings that a text has, the shorter one is an ending of the longer one. -/
lemma cutSuffix_append_of_not {other : String}
    (h : ¬ other.toList <:+ ending.toList) (h' : ¬ ending.toList <:+ other.toList) :
    cutSuffix (base ++ ending) other = none := by
  rw [cutSuffix, if_neg]
  rw [List.isSuffixOf_iff_suffix, String.toList_append]
  intro hother
  have hending : ending.toList <:+ base.toList ++ ending.toList := List.suffix_append _ _
  rcases le_total other.toList.length ending.toList.length with hle | hle
  · exact h (List.suffix_of_suffix_length_le hother hending hle)
  · exact h' (List.suffix_of_suffix_length_le hending hother hle)

/-- What `parseAckSuffix` finds at the end of a topic. -/
lemma parseAckSuffix_append (base : String) {verb : String} (h : verb ∈ ["$ack", "$nack", "$reject"]) :
    ∃ kind, parseAckSuffix (base ++ ("/" ++ verb)) = some (kind, base) := by
  simp only [List.mem_cons, List.not_mem_nil, or_false] at h
  rcases h with rfl | rfl | rfl
  · have hack : cutSuffix (base ++ ("/" ++ "$ack")) "/$ack" = some base := cutSuffix_append
    exact ⟨.accept, by rw [parseAckSuffix, hack]⟩
  · have hack : cutSuffix (base ++ ("/" ++ "$nack")) "/$ack" = none :=
      cutSuffix_append_of_not (by decide) (by decide)
    have hnack : cutSuffix (base ++ ("/" ++ "$nack")) "/$nack" = some base := cutSuffix_append
    exact ⟨.nack, by rw [parseAckSuffix, hack, hnack]⟩
  · have hack : cutSuffix (base ++ ("/" ++ "$reject")) "/$ack" = none :=
      cutSuffix_append_of_not (by decide) (by decide)
    have hnack : cutSuffix (base ++ ("/" ++ "$reject")) "/$nack" = none :=
      cutSuffix_append_of_not (by decide) (by decide)
    have hreject : cutSuffix (base ++ ("/" ++ "$reject")) "/$reject" = some base := cutSuffix_append
    exact ⟨.reject, by rw [parseAckSuffix, hack, hnack, hreject]; rfl⟩

/-- The name of a queue ends at the first slash. -/
lemma parseQueueFilter_append {middle : String} (hname : '/' ∉ name.toList)
    (hmiddle : middle = "" ∨ ∃ m, middle = "/" ++ m) :
    (parseQueueFilter (queueStart ++ name ++ middle)).1 = name := by
  have hrest : (queueStart ++ name ++ middle).toList.drop queueStart.toList.length =
      name.toList ++ middle.toList := by
    simp
  rw [parseQueueFilter, hrest, String.append_assoc, hasPrefix_append]
  rcases hmiddle with rfl | ⟨m, rfl⟩
  · have hcut : Levels.cut '/' (name.toList ++ "".toList) = (name.toList, none) := by
      simpa using Levels.cut_of_notMem hname
    rw [hcut]
    simp
  · have hcut : Levels.cut '/' (name.toList ++ ("/" ++ m).toList) = (name.toList, some m.toList) := by
      simpa using Levels.cut_append hname
    rw [hcut]
    simp

/-- A topic that ends with an acknowledgement is for the queue that it names. -/
theorem queueName_of_ack {verb middle : String} (hverb : verb ∈ ["$ack", "$nack", "$reject"])
    (hname : '/' ∉ name.toList) (hmiddle : middle = "" ∨ ∃ m, middle = "/" ++ m) :
    (resolve (queueStart ++ name ++ middle ++ ("/" ++ verb))).kind = .queueAck ∧
      (resolve (queueStart ++ name ++ middle ++ ("/" ++ verb))).queueName = name := by
  obtain ⟨kind, hparse⟩ := parseAckSuffix_append (queueStart ++ name ++ middle) hverb
  have hstart : hasPrefix (queueStart ++ name ++ middle ++ ("/" ++ verb)) queueStart = true := by
    rw [String.append_assoc, String.append_assoc, hasPrefix_append]
  rw [resolve, hstart, hparse]
  exact ⟨rfl, parseQueueFilter_append hname hmiddle⟩

/-- What is left of a topic in front of a commit, unless a control verb stands there. -/
lemma queueName_commit (base : String) :
    (resolve (queueStart ++ base ++ "/$commit")).queueName =
      if (misplacedControlSegment (queueStart ++ base ++ "/$commit")).isSome then "" else base := by
  have hack : parseAckSuffix (queueStart ++ base ++ "/$commit") = none := by
    have hcut (other : String) (h : ¬ other.toList <:+ "/$commit".toList)
        (h' : ¬ "/$commit".toList <:+ other.toList) :
        cutSuffix (queueStart ++ base ++ "/$commit") other = none := cutSuffix_append_of_not h h'
    rw [parseAckSuffix, hcut "/$ack" (by decide) (by decide), hcut "/$nack" (by decide) (by decide),
      hcut "/$reject" (by decide) (by decide)]
    rfl
  have hstart : hasPrefix (queueStart ++ base ++ "/$commit") queueStart = true := by
    rw [String.append_assoc, hasPrefix_append]
  have htrim : trimPrefix (queueStart ++ base ++ "/$commit") queueStart = base ++ "/$commit" := by
    rw [trimPrefix, hstart]
    simp
  rw [resolve, hstart, hack]
  cases misplacedControlSegment (queueStart ++ base ++ "/$commit") with
  | some segment => rfl
  | none =>
    rw [cutSuffix_append, htrim]
    simp [trimSuffix, cutSuffix_append]

/-- The name of a queue with a commit behind it has a misplaced verb if it is one. -/
lemma misplaced_commit_iff (hname : '/' ∉ name.toList) :
    misplacedControlSegment (queueStart ++ name ++ "/$commit") = none ↔ name ∉ queueControlSegments := by
  have hlevels : levels (queueStart ++ name ++ "/$commit") =
      ["$queue".toList, name.toList, "$commit".toList] := by
    have htopic : (queueStart ++ name ++ "/$commit").toList =
        "$queue".toList ++ '/' :: (name.toList ++ '/' :: "$commit".toList) := by
      simp [queueStart]
    rw [levels, htopic, List.splitOn_append_cons_self_of_not_mem (by decide),
      List.splitOn_append_cons_self_of_not_mem hname, List.splitOn_eq_singleton (by decide)]
  have hkeyword : "$queue" ∉ queueControlSegments := by decide
  rw [misplacedControlSegment, hlevels]
  simp [hkeyword]

/-- A topic that ends with a commit is for the queue that it names exactly if nothing stands in between
and the name is not a control verb. -/
theorem queueName_of_commit_iff {middle : String} (hname : '/' ∉ name.toList) (hne : name ≠ "") :
    (resolve (queueStart ++ name ++ middle ++ "/$commit")).queueName = name ↔
      middle = "" ∧ name ∉ queueControlSegments := by
  have hbase : queueStart ++ name ++ middle = queueStart ++ (name ++ middle) := String.append_assoc
  rw [hbase, queueName_commit]
  constructor
  · intro h
    split at h
    · exact absurd h.symm hne
    rename_i hplaced
    obtain rfl : middle = "" := by simpa using h
    rw [String.append_empty] at hplaced
    exact ⟨rfl, (misplaced_commit_iff hname).1 (by simpa using hplaced)⟩
  · rintro ⟨rfl, hverb⟩
    rw [String.append_empty, (misplaced_commit_iff hname).2 hverb]
    rfl

end

end FluxMQ.Routing
