import FluxMQ.Broker.Routing

/-!
# Front ends

What the front ends do with a message that is published through them, as far as its topic goes:
`Publish` in `mqtt/broker/publish.go`, `completePublish` in `amqp/broker/channel.go` and
`receiveTransfer` in `amqp1/broker/link.go`.

* `Effect`: what a front end sets off under which topic.
* `publish`, `Amqp091.Publication.completePublish` and `Amqp1.Transfer.receiveTransfer`: the effects of
  one request.

What hooks and authorization answer is given with a request, and so is what the broker knows about the
queues and bindings. Payloads, properties and acknowledgements to the client are left out. A topic is a
`String` here, so that it is UTF-8 whether a front end checks this or not.
-/

namespace FluxMQ.Routing

open Topics Mqtt

/-- What is set off by a message. -/
inductive Effect where
  /-- It is stored as the retained message of its topic, or clears it. -/
  | retain (topic : String)
  /-- `PublishToMatchingQueues`. -/
  | capture (topic : String)
  /-- It is delivered to the subscribers of its topic, here and on other nodes. -/
  | distribute (topic : String)
  /-- `Publish` of the queue manager. -/
  | enqueue (topic : String)
  /-- `PublishToDurableStream`. -/
  | append (queueName : String)
  /-- `Ack`, `Nack` or `Reject` of the queue manager. -/
  | settle (kind : AckKind) (queueName : String)
  /-- `CommitOffset` of the queue manager. -/
  | commit (queueName : String)
  deriving Repr, DecidableEq

/-- The topic under which the message of an effect is kept or delivered. -/
def Effect.topic : Effect → Option String
  | .retain topic | .capture topic | .distribute topic | .enqueue topic => some topic
  | .append queueName => some (queueTopic queueName "")
  | .settle _ _ | .commit _ => none

/-- What a hook makes of the topic and the retain flag of a message, or that it denies it. -/
abbrev Hook := String → Bool → Option (String × Bool)

/-! ### MQTT -/

/-- What the broker has when a message is published. -/
structure Backend where
  queueManager : Bool := true
  /-- The retained message can be stored. -/
  retained : Bool := true
  /-- The message says which delivery it settles. -/
  settlement : Bool := true

/-- `Publish` of the MQTT broker, which the other front ends than AMQP use as well. -/
def publish (b : Backend) (topic : String) (retain : Bool) : List Effect :=
  let route := resolve topic
  let stored := if retain ∧ b.retained then [Effect.retain topic] else []
  if retain ∧ (b.retained = false ∨ route.kind = .queue) then stored
  else if b.queueManager then
    match route.kind with
    | .queueMalformed => stored
    | .queueAck =>
      -- `handleQueueAck`.
      if route.queueName = "" ∨ b.settlement = false then stored
      else stored ++ [.settle route.ackKind route.queueName]
    | .queue => [.enqueue topic]
    | _ => stored ++ [.capture topic, .distribute topic]
  else stored ++ [.distribute topic]

/-! ### AMQP 0.9.1 -/

def amqpTopicToMQTT (topic : String) : String :=
  String.ofList (topic.toList.map fun c => if c = '.' then '/' else c)

/-- `LocalPublishGrant`. -/
inductive Grant where
  | none
  | exactTarget
  | grantPrefix
  deriving Repr, DecidableEq

/-- How a publication is authorized: by a local principal, or by a hook and the authorizer. -/
inductive Authorization where
  | local (grant : Grant)
  | external (hook : Hook) (allowed : String → Bool)

/-- The types of exchanges. One that is not known is like `direct`. -/
inductive ExchangeType where
  | direct
  | fanout
  | topic
  deriving Repr, DecidableEq

/-- A binding of a queue to an exchange. -/
structure Binding where
  exchange : String
  queue : String
  routingKey : String
  deriving Repr, DecidableEq

namespace Amqp091

/-- What a channel knows when a publication is complete. -/
structure Publication where
  exchange : String
  routingKey : String
  authorization : Authorization
  /-- A stream with this name is declared on the channel or configured. -/
  isStream : String → Bool := fun _ => false
  bindings : List Binding := []
  exchanges : String → Option ExchangeType := fun _ => none
  /-- The message is mandatory and nobody subscribes to the topic. -/
  returned : String → Bool := fun _ => false
  queueManager : Bool := true

def normalizeExchange (name : String) : String :=
  if name = "amq.default" then "" else name

namespace Publication

variable (p : Publication)

def exchangeName : String := normalizeExchange p.exchange

/-- The topic that the exchange and the routing key make. -/
def topic : String :=
  if p.exchangeName ≠ "" then p.exchangeName ++ "/" ++ p.routingKey else p.routingKey

/-- `publishToPubSub` and `Publish` of the AMQP 0.9.1 broker. -/
def publishToPubSub (topic : String) : List Effect :=
  if p.returned topic then []
  else if p.queueManager then [.capture topic, .distribute topic] else [.distribute topic]

def handleQueuePublish (topic : String) : List Effect :=
  if p.queueManager then [.enqueue topic] else []

def isStreamQueue (name : String) : Bool :=
  let queueName := (parseQueueFilter name).1
  p.isStream name || (queueName ≠ "" && queueName ≠ name && p.isStream queueName)

/-- `routingKeyMatches` for the exchange of the publication. -/
def routingKeyMatches (bindingKey routingKey : String) : Bool :=
  match p.exchanges p.exchangeName with
  | some .fanout => true
  | some .topic => Topics.topicMatch bindingKey routingKey
  | _ => bindingKey = routingKey

/-- The routing key that the bindings of the exchange are compared with, unless a hook has moved the
message out of the exchange. -/
def bindingRoutingKey (topic : String) : Option String :=
  if p.exchangeName ≠ "" ∧ topic ≠ p.topic then
    if hasPrefix topic (p.exchangeName ++ "/") then some (trimPrefix topic (p.exchangeName ++ "/"))
    else none
  else some p.routingKey

/-- The bindings that match. -/
def boundQueues (topic : String) : List (String × String) :=
  match p.bindingRoutingKey topic with
  | none => []
  | some routingKey =>
    ((p.bindings.filter fun b => b.exchange = p.exchangeName).filter fun b =>
      p.routingKeyMatches b.routingKey routingKey).map fun b => (b.queue, routingKey)

/-- The end of `completePublish`: the bindings of the exchange, or else the subscribers. -/
def publishToExchange (topic : String) : List Effect :=
  match p.boundQueues topic with
  | [] => p.publishToPubSub (if p.exchangeName = "" then amqpTopicToMQTT topic else topic)
  | bound => bound.flatMap fun b => p.handleQueuePublish (queueTopic b.1 b.2)

/-- `completePublish` behind the authorization by hook and authorizer. -/
def route (topic : String) : List Effect :=
  let route := resolve topic
  if p.exchangeName = "" ∧ route.kind = .queueCommit then
    if p.queueManager ∧ route.queueName ≠ "" then [.commit route.queueName] else []
  else if p.exchangeName = "" ∧ route.kind = .queue then p.handleQueuePublish route.publishTopic
  else if p.exchangeName = "" ∧ route.kind = .queueMalformed then []
  -- An acknowledgement is an ordinary message here.
  else if p.exchangeName = "" ∧ p.isStreamQueue topic then
    p.handleQueuePublish (queueTopic topic "")
  else p.publishToExchange topic

def completePublish : List Effect :=
  match p.authorization with
  | .local .none => []
  | .local .exactTarget =>
    if p.exchangeName ≠ "" ∨ !p.queueManager then [] else [.append p.routingKey]
  | .local .grantPrefix => p.publishToPubSub (amqpTopicToMQTT p.topic)
  | .external hook allowed =>
    match hook p.topic false with
    | none => []
    | some (topic, _) => if !allowed topic then [] else p.route topic

end Publication

end Amqp091

/-! ### AMQP 1.0 -/

namespace Amqp1

/-- A transfer on a link that the client sends on. -/
structure Transfer where
  /-- The target of the link, and the `to` and `subject` of the message, empty if they are not given. -/
  address : String
  destination : String := ""
  subject : String := ""
  /-- The target has the queue capability. -/
  capabilityBased : Bool := false
  hook : Hook := fun topic retain => some (topic, retain)
  allowed : String → Bool := fun _ => true
  queueManager : Bool := true

namespace Transfer

variable (t : Transfer)

/-- `newLink` has found that the target is a queue. -/
def isQueue : Bool :=
  t.capabilityBased || (resolve t.address).kind = .queue

def topic : String := if t.destination ≠ "" then t.destination else t.address

/-- `receiveTransfer` behind the hook and the authorization. -/
def route (topic : String) : List Effect :=
  let kind := (resolve topic).kind
  if t.isQueue ∨ kind = .queue then
    if !t.queueManager then []
    else if t.capabilityBased ∧ kind ≠ .queue then [.enqueue (queueTopic t.address t.subject)]
    else [.enqueue topic]
  else if t.queueManager then [.capture (amqpTopicToMQTT topic), .distribute (amqpTopicToMQTT topic)]
  else [.distribute (amqpTopicToMQTT topic)]

/-- `receiveTransfer` of a link that is not for management. -/
def receiveTransfer : List Effect :=
  if t.address = "$management" then []
  else
    match t.hook t.topic false with
    | none => []
    | some (topic, _) => if !t.allowed topic then [] else t.route topic

end Transfer

end Amqp1

end FluxMQ.Routing
