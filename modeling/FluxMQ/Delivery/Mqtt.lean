import FluxMQ.Types.ConsumerGroup

/-!
# Messages and send quotas of MQTT sessions

A message on its way to a client, what a session was created with, and the tokens of
`mqtt/session` that bound how many messages are in flight. Payload and topic are carried along; the
times of attempts, which no modelled function reads, are left out.
-/

namespace FluxMQ

/-- A message on its way to a client. -/
structure DeliveryMessage where
  topic : String
  payload : String := ""
  qos : Nat := 1
  /-- When it expires, if a message expiry is set. -/
  expiresAt : Option Time := none
  deriving Repr, DecidableEq

/-- The expiry has passed. -/
def DeliveryMessage.expired (now : Time) (msg : DeliveryMessage) : Bool :=
  match msg.expiresAt with
  | some expiresAt => decide (expiresAt < now)
  | none => false

/-! ### Sessions -/

/-- What a session was created with. -/
structure SessionConfig where
  /-- A delivery without quota waits (`backpressure`) instead of being deferred. -/
  blocking : Bool := false
  maxInflight : Nat := 65535
  /-- The room of the pending queue, if there is one. -/
  pendingCap : Option Nat := some 1000
  maxOffline : Nat := 1000
  evictOnFull : Bool := false
  deriving Repr, DecidableEq

/-- `sendWindow`: the tokens of the current connection. -/
structure SendWindow where
  capacity : Nat
  gen : Nat
  held : List Nat := []
  deriving Repr, DecidableEq

namespace SendWindow

variable (w : SendWindow) (packetID gen : Nat)

/-- `TryAcquire` for a packet ID, on behalf of a connection. -/
def tryAcquire : SendWindow × Bool :=
  if gen ≠ w.gen then (w, false)
  else if packetID ∈ w.held then (w, true)
  else if w.capacity ≤ w.held.length then (w, false)
  else ({ w with held := packetID :: w.held }, true)

/-- `Release`. The tokens of an earlier connection are gone. -/
def release : SendWindow :=
  if gen = w.gen then { w with held := w.held.filter (· ≠ packetID) } else w

variable {w packetID} in
lemma mem_held_release {i : Nat} :
    i ∈ (w.release packetID w.gen).held ↔ i ∈ w.held ∧ i ≠ packetID := by
  simp [release]

end SendWindow

end FluxMQ
