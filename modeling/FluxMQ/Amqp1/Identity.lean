import FluxMQ.Broker.FrontEnds
import FluxMQ.Library.Runs

/-!
# Who publishes and subscribes over AMQP 1.0

`handleSASL`, `handleOpen` and `cleanup` of `amqp1/broker/connection.go` and `subscribe` of `amqp1/broker/link.go`,
with `receiveTransfer` as it is in `FluxMQ.Broker.FrontEnds` and `CanPublish` and `CanSubscribe` of `broker/auth.go`.
A peer authenticates as a user, and then it names the container that the authorizer is asked about and that its
connection is found by. The external ID that goes with a client ID, if there is one, stands for it.

* `authorized_as_user`: where containers are named like their users, one connection at a time, no external ID goes
  with the client ID of a container, and addresses need no translation, the authorizer is asked about the user and
  the destination.
* `foreign_container`: a user who names the container of another one publishes with the permissions of that one,
  and takes its place.
-/

namespace FluxMQ.Routing.Amqp1

open Transition

def prefixedClientID (containerID : String) : String := "amqp:" ++ containerID

def amqpFilterToMQTT (filter : String) : String :=
  String.ofList (filter.toList.map fun c => if c = '.' then '/' else if c = '*' then '+' else c)

/-- The decisions of the authorizer about an identity. -/
structure Authorizer where
  canPublish : String → String → Bool
  canSubscribe : String → String → Bool

/-- A link that the broker sends on. -/
structure Receiving where
  address : String
  capabilityBased : Bool := false
  /-- What the hook makes of the address. -/
  hook : String → Option String := some

/-- What `subscribe` has registered. -/
inductive Registered where
  | queue (queueName pattern : String)
  | filter (mqttFilter : String)
  deriving Repr, DecidableEq

/-- `subscribe`. What is registered with a queue is of the address of the link, whatever the hook says. -/
def Receiving.subscribe (l : Receiving) (allowed : String → Bool) : Option Registered :=
  match l.hook l.address with
  | none => none
  | some address =>
    if !allowed address then none
    else if l.capabilityBased then some (.queue l.address "")
    else if (resolve l.address).kind = .queue then
      some (.queue (resolve l.address).queueName (resolve l.address).pattern)
    else some (.filter (amqpFilterToMQTT address))

/-- A connection that has been opened. There is no user if it was anonymous. -/
structure Conn where
  user : Option String
  containerID : String
  deriving Repr, DecidableEq

/-- What was done for a user. -/
inductive Event where
  | published (user : Option String) (effect : Effect)
  | subscribed (user : Option String) (registered : Registered)
  deriving Repr, DecidableEq

/-- The AMQP 1.0 broker: its open connections, the registry of containers and what it has done. -/
structure Front where
  conns : Nat → Option Conn := fun _ => none
  /-- The external IDs of the authentication engine. -/
  identities : String → Option String := fun _ => none
  /-- The map of `registerConnection`, which messages for a client are delivered by. -/
  registry : String → Option Nat := fun _ => none
  log : List Event := []

/-- What happens at the broker. -/
inductive Front.Action where
  /-- A user has been authenticated over SASL. The client ID is the name of the user. -/
  | authenticated (clientID externalID : String)
  /-- The identity cache drops an entry. -/
  | forgotten (clientID : String)
  /-- The Open, after the SASL exchange. -/
  | opened (i : Nat) (user : Option String) (containerID : String)
  /-- A handshake fails, before the Open, when there is no container ID yet, or after it. -/
  | failed (containerID : String)
  | transfer (i : Nat) (t : Transfer)
  | attach (i : Nat) (l : Receiving)
  | closed (i : Nat)

namespace Front

def resolveID (w : Front) (clientID : String) : String := (w.identities clientID).getD clientID

def canPublish (auth : Authorizer) (w : Front) (clientID : String) : String → Bool :=
  auth.canPublish (w.resolveID clientID)

def canSubscribe (auth : Authorizer) (w : Front) (clientID : String) : String → Bool :=
  auth.canSubscribe (w.resolveID clientID)

def step (auth : Authorizer) (w : Front) : Action → Front
  | .authenticated clientID externalID =>
    if externalID = "" then w
    else { w with identities := Function.update w.identities clientID (some externalID) }
  | .forgotten clientID => { w with identities := Function.update w.identities clientID none }
  | .opened i user containerID =>
    { w with
      conns := Function.update w.conns i (some ⟨user, containerID⟩)
      registry := Function.update w.registry containerID (some i) }
  -- `cleanup` comes to this end as well.
  | .failed containerID => { w with registry := Function.update w.registry containerID none }
  | .transfer i t =>
    match w.conns i with
    | none => w
    | some c =>
      let t := { t with allowed := w.canPublish auth (prefixedClientID c.containerID) }
      { w with log := w.log ++ t.receiveTransfer.map (.published c.user) }
  | .attach i l =>
    match w.conns i with
    | none => w
    | some c =>
      let registered := l.subscribe (w.canSubscribe auth (prefixedClientID c.containerID))
      { w with log := w.log ++ registered.toList.map (.subscribed c.user) }
  | .closed i =>
    match w.conns i with
    | none => w
    | some c =>
      { w with
        conns := Function.update w.conns i none
        registry := Function.update w.registry c.containerID none }

/-- The peer names the container like its user, and no other connection has that name, also if the handshake fails.
No client with an external ID is named like the client ID of a container. Links are not for queues by their
capability, and topics and addresses are the same in both protocols. -/
def Admissible (w : Front) : Action → Prop
  | .authenticated clientID externalID => externalID = "" ∨ hasPrefix clientID "amqp:" = false
  | .forgotten _ => True
  | .failed containerID => w.registry containerID = none
  | .opened i user containerID => user = some containerID ∧ w.conns i = none ∧ w.registry containerID = none
  | .transfer _ t => t.capabilityBased = false ∧ (t.hook t.topic false).all fun req => '.' ∉ req.1.toList
  | .attach _ l => l.capabilityBased = false ∧ l.hook l.address = some l.address ∧
      l.address.toList.all (fun c => c ≠ '.' ∧ c ≠ '*')
  | .closed _ => True

instance (w : Front) (a : Action) : Decidable (w.Admissible a) := by
  cases a <;> unfold Admissible <;> infer_instance

/-- The authorizer has agreed to it, for the user and for the destination. -/
def Asked (auth : Authorizer) : Event → Prop
  | .published user effect => ∃ name, user = some name ∧
      ∀ topic, effect.topic = some topic → auth.canPublish (prefixedClientID name) topic = true
  | .subscribed user registered => ∃ name, user = some name ∧
      match registered with
      | .filter mqttFilter => auth.canSubscribe (prefixedClientID name) mqttFilter = true
      | .queue queueName pattern => ∃ address, auth.canSubscribe (prefixedClientID name) address = true ∧
          (resolve address).kind = .queue ∧ (resolve address).queueName = queueName ∧
          (resolve address).pattern = pattern

/-- What every admissible step keeps. -/
structure Inv (auth : Authorizer) (w : Front) : Prop where
  /-- The client ID of a container stands for itself. -/
  plain : ∀ containerID, w.identities (prefixedClientID containerID) = none
  asked : ∀ event ∈ w.log, Asked auth event
  named : ∀ i c, w.conns i = some c → c.user = some c.containerID
  found : ∀ i c, w.conns i = some c → w.registry c.containerID = some i

variable {auth : Authorizer} {w : Front}

lemma map_eq_self {f : Char → Char} {s : String} (h : ∀ c ∈ s.toList, f c = c) :
    String.ofList (s.toList.map f) = s := by
  rw [List.map_congr_left h, List.map_id', String.ofList_toList]

/-- What a transfer sets off is what the authorizer has been asked about. -/
lemma allowed_of_transfer {t : Transfer} (ha : w.Admissible (.transfer 0 t)) {effect : Effect} {topic : String}
    (heffect : effect ∈ t.receiveTransfer) (htopic : effect.topic = some topic) : t.allowed topic = true := by
  rw [Transfer.receiveTransfer] at heffect
  split at heffect
  · cases heffect
  split at heffect
  · cases heffect
  rename_i asked retain hhook
  split at heffect
  · cases heffect
  rename_i hallowed
  have hallowed : t.allowed asked = true := by simpa using hallowed
  have hsame : amqpTopicToMQTT asked = asked := by
    have hdots : '.' ∉ asked.toList := by simpa [hhook] using ha.2
    refine map_eq_self fun c hc => if_neg ?_
    rintro rfl
    exact hdots hc
  -- Each of the branches goes on with the topic that was asked about.
  have hroute : effect ∈ [.enqueue asked, .capture asked, .distribute asked] := by
    simp only [Transfer.route, ha.1, Bool.false_eq_true, false_and, if_false, hsame] at heffect
    split_ifs at heffect <;> simp at heffect ⊢ <;> tauto
  have heq : topic = asked := by
    simp only [List.mem_cons, List.not_mem_nil, or_false] at hroute
    rcases hroute with rfl | rfl | rfl <;> exact (Option.some.inj htopic).symm
  rwa [heq]

/-- What a link is subscribed to is what the authorizer has been asked about. -/
lemma asked_of_subscribe {l : Receiving} (ha : w.Admissible (.attach 0 l)) {name : String}
    {registered : Registered} (h : l.subscribe (auth.canSubscribe (prefixedClientID name)) = some registered) :
    Asked auth (.subscribed (some name) registered) := by
  obtain ⟨hcapability, hhook, hplain⟩ := ha
  rw [Receiving.subscribe, hhook] at h
  dsimp only at h
  split_ifs at h with hallowed hcap hkind
  · exact absurd hcap (by simp [hcapability])
  · cases h
    exact ⟨name, rfl, l.address, by simpa using hallowed, hkind, rfl, rfl⟩
  cases h
  have hsame : amqpFilterToMQTT l.address = l.address := map_eq_self fun c hc => by
      obtain ⟨hdot, hstar⟩ := of_decide_eq_true (List.all_eq_true.1 hplain c hc)
      rw [if_neg hdot, if_neg hstar]
  exact ⟨name, rfl, by simpa [hsame] using hallowed⟩

/-- The log goes on with what the authorizer has agreed to. -/
lemma Inv.logged {events : List Event} (h : w.Inv auth) (hevents : ∀ event ∈ events, Asked auth event) :
    { w with log := w.log ++ events }.Inv auth :=
  ⟨h.plain, List.forall_mem_append.2 ⟨h.asked, hevents⟩, h.named, h.found⟩

lemma Inv.resolveID (h : w.Inv auth) (containerID : String) :
    w.resolveID (prefixedClientID containerID) = prefixedClientID containerID := by
  rw [Front.resolveID, h.plain, Option.getD_none]

/-- An external ID goes with other clients only. -/
lemma Inv.identified (h : w.Inv auth) {clientID : String} {externalID : Option String}
    (hclient : externalID = none ∨ hasPrefix clientID "amqp:" = false) :
    { w with identities := Function.update w.identities clientID externalID }.Inv auth := by
  refine ⟨fun containerID => ?_, h.asked, h.named, h.found⟩
  simp only [Function.update_apply]
  split
  · rename_i heq
    refine hclient.resolve_right fun hplain => ?_
    rw [← heq, prefixedClientID, hasPrefix_append] at hplain
    cases hplain
  · exact h.plain containerID

lemma inv_step {a : Action} (h : w.Inv auth) (ha : w.Admissible a) : (w.step auth a).Inv auth := by
  cases a with
  | authenticated clientID externalID =>
    simp only [step]
    split
    · exact h
    · rename_i hne
      exact h.identified (.inr (ha.resolve_left hne))
  | forgotten clientID => exact h.identified (.inl rfl)
  | failed containerID =>
    refine ⟨h.plain, h.asked, h.named, fun j c hc => ?_⟩
    have hfound := h.found j c hc
    have hne : c.containerID ≠ containerID := by
      intro heq
      rw [heq, show w.registry containerID = none from ha] at hfound
      cases hfound
    simp only [step, Function.update_apply, if_neg hne]
    exact hfound
  | opened i user containerID =>
    obtain ⟨rfl, hnew, hfree⟩ := ha
    refine ⟨h.plain, h.asked, fun j c hc => ?_, fun j c hc => ?_⟩
    all_goals
      simp only [step, Function.update_apply] at hc ⊢
      split at hc
    · cases hc
      rfl
    · exact h.named j c hc
    · cases hc
      simp [*]
    · have hne : c.containerID ≠ containerID := by
        intro heq
        have hfound := h.found j c hc
        rw [heq, hfree] at hfound
        cases hfound
      rw [if_neg hne]
      exact h.found j c hc
  | transfer i t =>
    rw [step.eq_def]
    dsimp only
    split
    · exact h
    rename_i c hc
    refine h.logged fun event hevent => ?_
    obtain ⟨effect, heffect, rfl⟩ := List.mem_map.1 hevent
    rw [canPublish, h.resolveID] at heffect
    exact ⟨c.containerID, h.named i c hc, fun topic htopic => allowed_of_transfer (w := w)
      (t := { t with allowed := auth.canPublish (prefixedClientID c.containerID) }) ha heffect htopic⟩
  | attach i l =>
    rw [step.eq_def]
    dsimp only
    split
    · exact h
    rename_i c hc
    refine h.logged fun event hevent => ?_
    obtain ⟨registered, hregistered, rfl⟩ := List.mem_map.1 hevent
    rw [canSubscribe, h.resolveID] at hregistered
    rw [h.named i c hc]
    exact asked_of_subscribe (w := w) ha (Option.mem_toList.1 hregistered)
  | closed i =>
    rw [step.eq_def]
    dsimp only
    split
    · exact h
    rename_i c hc
    refine ⟨h.plain, h.asked, fun j d hd => ?_, fun j d hd => ?_⟩
    all_goals
      simp only [Function.update_apply] at hd ⊢
      split at hd
    · cases hd
    · exact h.named j d hd
    · cases hd
    rename_i hne
    -- The connection that closes is found by another name.
    have hother : d.containerID ≠ c.containerID := by
      intro heq
      have hfound := h.found j d hd
      rw [heq, h.found i c hc] at hfound
      exact hne (Option.some.inj hfound).symm
    rw [if_neg hother]
    exact h.found j d hd

/-- In every admissible run all that is published and subscribed has been agreed to by the authorizer, for the user
and for the destination, and every connection is found by the name of its container. -/
theorem authorized_as_user (auth : Authorizer) (actions : List Action)
    (h : Along (step auth) Admissible {} actions) :
    let w := run (step auth) {} actions
    (∀ event ∈ w.log, Asked auth event) ∧ ∀ i c, w.conns i = some c → w.registry c.containerID = some i := by
  have hinv : (run (step auth) {} actions).Inv auth :=
    invariant_run (fun _ _ => inv_step) ⟨by simp, by simp, by simp, by simp⟩ h
  exact ⟨hinv.asked, hinv.found⟩

/-- Everybody may publish and subscribe to what begins with their name. -/
def ownTopics : Authorizer where
  canPublish client topic := hasPrefix (prefixedClientID topic) client
  canSubscribe client topic := hasPrefix (prefixedClientID topic) client

/-- Alice and Bob, who have external IDs, are connected at the same time. A third connection fails before its Open. -/
def twoUsers : List Action :=
  [.authenticated "alice" "7", .opened 0 (some "alice") "alice", .authenticated "bob" "8", .failed "",
    .opened 1 (some "bob") "bob", .transfer 0 { address := "alice/news" }, .attach 1 { address := "bob/#" }]

theorem authorized_as_user_two :
    let w := run (step ownTopics) {} twoUsers
    w.log.length = 3 ∧ (∀ event ∈ w.log, Asked ownTopics event) ∧
      ∀ i c, w.conns i = some c → w.registry c.containerID = some i :=
  ⟨by decide +kernel, authorized_as_user ownTopics twoUsers (by decide +kernel)⟩

/-- Mallory names the container of Alice: the message is published, and Alice is not found any more. -/
theorem foreign_container :
    let w := run (step ownTopics) {} [.opened 0 (some "alice") "alice", .opened 1 (some "mallory") "alice",
      .transfer 1 { address := "alice/news" }]
    .published (some "mallory") (.distribute "alice/news") ∈ w.log ∧
      ownTopics.canPublish (prefixedClientID "mallory") "alice/news" = false ∧ w.registry "alice" = some 1 := by
  decide +kernel

end Front

end FluxMQ.Routing.Amqp1
