import FluxMQ.Library.Runs
import FluxMQ.Mqtt.Custody
import FluxMQ.Mqtt.SessionStore

/-!
# A persistent session through disconnects and restarts

One client of a single broker with a durable message store, whose Session Expiry is positive: what
happens to the messages of its session as it connects with Clean Start 0, acknowledges and
disconnects, and as the broker is closed and started again on the same stores. This is
`createSessionForConnection`, `attachSession`, `handleDisconnect` and `persistSessionMessages` of
`mqtt/broker/session.go`, `Close` of `mqtt/broker/lifecycle.go`, `deliverToSession` and `AckMessage`
of `mqtt/broker/delivery.go`, `deliverOfflineMessages` of the protocol handlers and the session of
`mqtt/session/session.go`.

`handleDisconnect` is started by the end of a connection and runs some time later; `Close` does not
wait for it. What is written to a connection is taken by it.

Left out are Wills, subscriptions, identities and the client's own messages, which move no message of
the session, and the end of a session that has expired.
-/

namespace FluxMQ.Mqtt

/-! ### The state -/

/-- The session object of the broker. -/
structure PersistentSession (μ : Type) where
  /-- The state is `StateConnected`. -/
  connected : Bool := false
  epoch : Nat := 0
  window : SendWindow := ⟨0, 0, []⟩
  nextPacketID : Nat := 0
  inflight : Inflight μ := {}
  pending : List μ := []
  offline : List μ := []

/-- The broker as far as one client is concerned. -/
structure ClientState where
  now : Time := 0
  /-- The session object in the broker's map. -/
  session : Option (PersistentSession Accepted) := none
  /-- The session store has a record of the session. -/
  recorded : Bool := false
  store : MessageStore Accepted := {}
  /-- The epochs that `handleDisconnect` is still to run for. -/
  callbacks : List Nat := []
  /-- How many messages were accepted for the session. -/
  count : Nat := 0
  /-- What has happened so far. -/
  log : List SessionEvent := []
  /-- Some bound was reached: a container was full, or a delivery had to wait for the send window. -/
  full : Full := false

/-- The capacity that `resetSendWindowLocked` gives the window of a new connection. -/
def sendCapacity (cfg : SessionConfig) (receiveMaximum : Nat) : Nat :=
  max 1 (if receiveMaximum = 0 ∨ cfg.maxInflight < receiveMaximum then cfg.maxInflight
    else receiveMaximum)

/-- `attach`: a new generation, with a send window of its own. -/
def PersistentSession.attach {μ : Type} (x : PersistentSession μ) (capacity : Nat) :
    PersistentSession μ :=
  { x with
    connected := true
    epoch := x.epoch + 1
    window := ⟨capacity, x.epoch + 1, []⟩ }

namespace ClientState

variable (cfg : SessionConfig) (s : ClientState) (x : PersistentSession Accepted) (m : Accepted)

/-! ### Deliveries -/

/-- A message is put in the offline queue. -/
def enqueueOffline : ClientState :=
  let (offline, full) := enqueue cfg.maxOffline cfg.evictOnFull x.offline m
  { s with
    session := some { x with offline }
    log := if full then s.log else s.log ++ [.queued m]
    full := s.full || full }

/-- `TryEnqueuePending`. What is not taken is dropped. -/
def defer : ClientState :=
  match cfg.pendingCap with
  | some cap =>
    if x.pending.length < cap then { s with session := some { x with pending := x.pending ++ [m] } }
    else { s with session := some x, full := true }
  | none => { s with session := some x, full := true }

/-- `deliverQoS`. With backpressure a delivery that gets no token waits: it has reached the bound
that takes the place of the pending queue. -/
def deliverQoS : ClientState :=
  match x.inflight.findPacketID (2 ^ 16) (x.nextPacketID + 1) with
  | none => { s with full := true }
  | some counter =>
    let packetID := counter % 2 ^ 16
    let x := { x with nextPacketID := counter }
    match x.window.tryAcquire packetID x.epoch with
    | (_, false) =>
      if cfg.blocking then { s with session := some x, full := true } else s.defer cfg x m
    | (window, true) =>
      match x.inflight.add .outbound packetID m with
      | (_, some _) =>
        { s with full := true }.defer cfg { x with window := window.release packetID x.epoch } m
      | (inflight, none) =>
        { s with
          session := some { x with window, inflight }
          log := s.log ++ [.published m false] }

/-- `deliverToSession`. -/
def deliver : ClientState :=
  if m.msg.expired s.now then s
  else
    match s.session with
    | none => s
    | some x => if x.connected then s.deliverQoS cfg x m else s.enqueueOffline cfg x m

/-- A message that matches a subscription comes in. A broker that was started anew has no
subscription of a client that has not come back. -/
def publish (msg : DeliveryMessage) (hqos : 0 < msg.qos) : ClientState :=
  if msg.expired s.now ∨ s.session.isNone then s
  else
    let m : Accepted := ⟨s.count, msg, hqos⟩
    deliver cfg { s with count := s.count + 1, log := s.log ++ [.accepted m] } m

/-! ### Acknowledgements -/

/-- `AckMessage`, on a PUBACK or PUBCOMP. A pending message takes the place of the one settled. -/
def ackMessage (packetID : Nat) : ClientState :=
  match x.inflight.ack packetID with
  | (_, none) => s
  | (inflight, some settled) =>
    let s : ClientState := { s with log := s.log ++ [.acked settled] }
    let x := { x with inflight, window := x.window.release packetID x.epoch }
    match x.pending with
    | [] => { s with session := some x }
    | next :: pending => deliver cfg { s with session := some { x with pending } } next

def handlePubRec (packetID : Nat) : ClientState :=
  match x.inflight.lookup .outbound packetID with
  | none => s
  | some e =>
    { s with
      session := some
        { x with inflight := (x.inflight.updateState packetID .pubRecReceived).1 }
      log := s.log ++ if e.message.msg.qos = 2 then [.received e.message] else [] }

/-- `ProcessRetries` for one packet identifier. -/
def retry (packetID : Nat) : ClientState :=
  match x.inflight.lookup .outbound packetID with
  | none => s
  | some e =>
    match x.window.tryAcquire packetID x.epoch with
    | (_, false) => s
    | (window, true) =>
      { s with
        session := some { x with window }
        log := s.log ++
          -- In the second half of an exchange with QoS 2 it is PUBREL that is sent again.
          if e.message.msg.qos = 2 ∧ e.state = .pubRecReceived then []
          else [.published e.message true] }

/-! ### Connecting -/

/-- The session object of `attachSession` gets the connection. -/
def attach (receiveMaximum : Nat) : ClientState :=
  { s with session := some (x.attach (sendCapacity cfg receiveMaximum)) }

def deliverOfflineMessages : ClientState :=
  match s.session with
  | none => s
  | some x =>
    x.offline.foldl (deliver cfg) { s with session := some { x with offline := [] } }

/-- The messages of a session that is not in memory are taken out of the store: a new session object
has them. Without a record of the session they are taken for those of an earlier one. -/
def restoreFromStorage : ClientState :=
  let store := if s.recorded then s.store else {}
  let (inflight, full) := restoreInflight { maxSize := cfg.maxInflight } store.listInflight
  let (offline, more) := enqueueAll cfg.maxOffline cfg.evictOnFull [] store.listQueue
  { s with
    session := some { inflight, offline }
    recorded := true
    store := {}
    full := s.full || full || more }

/-- CONNECT with Clean Start 0. A session object in memory is used as it is. -/
def connect (receiveMaximum : Nat) : ClientState :=
  let s := if s.session.isSome then s else s.restoreFromStorage cfg
  match s.session with
  | none => s
  | some x => (s.attach cfg x receiveMaximum).deliverOfflineMessages cfg

/-! ### Disconnecting -/

def drainPendingToOffline : List Accepted → ClientState → ClientState
  | [], s => s
  | m :: pending, s =>
    drainPendingToOffline pending
      (match s.session with
      | some x => if 0 < m.msg.qos then s.enqueueOffline cfg x m else s
      | none => s)

/-- `disconnectLocked`. -/
def disconnect : ClientState :=
  if x.connected then
    drainPendingToOffline cfg x.pending
      { s with
        session := some { x with connected := false, pending := [] }
        callbacks := s.callbacks ++ [x.epoch] }
  else s

def persistOfflineQueue : ClientState :=
  { s with
    store := s.store.storeQueue x.offline
    session := some { x with offline := [] } }

def persistSessionMessages : ClientState :=
  { s with
    store := (s.store.storeQueue x.offline).storeInflight x.inflight
    session := some { x with offline := [] } }

/-- `handleDisconnect`, which does nothing for a connection that was replaced. -/
def handleDisconnect (epoch : Nat) : ClientState :=
  match s.session with
  | some x => if x.epoch = epoch then s.persistSessionMessages x else s
  | none => s

/-- `Close`, and the start of the next broker. The sessions are cleared without waiting for
`handleDisconnect`: whether it has run `inTime` is not up to `Close`. Runs for earlier epochs do
nothing. -/
def close (inTime : Bool) : ClientState :=
  match s.session with
  | none => { s with callbacks := [] }
  | some x =>
    let s := if x.connected then s.disconnect cfg x else s.persistOfflineQueue x
    let s := if inTime && s.callbacks.contains x.epoch then s.handleDisconnect x.epoch else s
    { s with session := none, callbacks := [] }

/-! ### Runs -/

/-- Something that happens to the session. -/
inductive Action where
  | pass (d : Nat)
  | publish (msg : DeliveryMessage) (hqos : 0 < msg.qos)
  /-- PUBACK or PUBCOMP. -/
  | ack (packetID : Nat)
  | pubrec (packetID : Nat)
  | retry (packetID : Nat)
  | connect (receiveMaximum : Nat)
  /-- The connection ends. -/
  | disconnect
  | handleDisconnect (epoch : Nat)
  | close (inTime : Bool)

/-- What packets of the client and the broker's retries do, while there is a connection. -/
def whenConnected (f : ClientState → PersistentSession Accepted → ClientState) : ClientState :=
  match s.session with
  | some x => if x.connected then f s x else s
  | none => s

/-- The state after an action. -/
def step : Action → ClientState
  | .pass d => { s with now := s.now + d }
  | .publish msg hqos => s.publish cfg msg hqos
  | .ack packetID => s.whenConnected fun s x => s.ackMessage cfg x packetID
  | .pubrec packetID => s.whenConnected fun s x => s.handlePubRec x packetID
  | .retry packetID => s.whenConnected fun s x => s.retry x packetID
  | .connect receiveMaximum => s.connect cfg receiveMaximum
  | .disconnect => s.whenConnected fun s x => s.disconnect cfg x
  | .handleDisconnect epoch =>
    if epoch ∈ s.callbacks then
      { s with callbacks := s.callbacks.erase epoch }.handleDisconnect epoch
    else s
  | .close inTime => s.close cfg inTime

/-- The state after a sequence of actions. -/
abbrev run (actions : List Action) : ClientState :=
  Transition.run (step cfg) s actions

/-! ### What is owed -/

/-- The messages to the client among those in flight. -/
def outbound (messages : AList fun _ : Direction × Nat => InflightMessage Accepted) :
    List Accepted :=
  (inflightEntries messages).filterMap fun e =>
    if e.direction = .outbound ∧ e.packetID ≠ 0 then some e.entry.message else none

/-- The session has a message: in flight, pending or queued, or in the message store under a key that
the next CONNECT restores. That does not look there as long as there is a session object. -/
def Holds : Prop :=
  match s.session with
  | some x => m ∈ outbound x.inflight.messages ∨ m ∈ x.pending ∨ m ∈ x.offline
  | none => s.recorded = true ∧ (m ∈ outbound s.store.inflight ∨ m ∈ s.store.listQueue)

instance : Decidable (s.Holds m) := by
  unfold Holds
  split <;> infer_instance

/-- What was accepted, and neither acknowledged nor has expired, is held. -/
def Conserved : Prop :=
  ∀ m, .accepted m ∈ s.log → .acked m ∉ s.log → m.msg.expired s.now = false → s.Holds m

end ClientState

end FluxMQ.Mqtt
