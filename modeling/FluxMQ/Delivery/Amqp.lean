import FluxMQ.Broker.Routing

/-!
# Consumers of AMQP 0.9.1 clients

The consumers of `amqp/broker/channel.go`, and which of them a delivery of a topic is for.
-/

namespace FluxMQ

namespace Amqp091

/-- A consumer of a channel. It has a filter if it is one of a topic, and a queue, maybe with a
pattern below it, if it is one of a queue. -/
structure Consumer where
  tag : String
  queue : String := ""
  mqttFilter : String := ""
  queueName : String := ""
  pattern : String := ""
  noAck : Bool := false
  deriving Repr, DecidableEq

/-- The consumer takes what is delivered under a topic: as the address of its queue, as a topic below
that, or by its filter. -/
def consumerQueueMatches (cons : Consumer) (topic : String) : Bool :=
  let below := (Routing.queueTopic cons.queueName "" ++ "/").toList
  if cons.queueName ≠ "" ∧ (topic = cons.queueName ∨ topic = Routing.queueTopic cons.queueName "") then
    cons.pattern = "" || cons.pattern = "#"
  else if cons.queueName ≠ "" ∧ below.isPrefixOf topic.toList then
    cons.pattern = "" ||
      Topics.topicMatch cons.pattern (String.ofList (topic.toList.drop below.length))
  else if cons.mqttFilter = "" then false
  else cons.mqttFilter = topic || Topics.topicMatch cons.mqttFilter topic

end Amqp091

end FluxMQ
