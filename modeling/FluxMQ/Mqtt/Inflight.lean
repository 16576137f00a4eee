import Mathlib.Data.List.AList
import Mathlib.Algebra.Ring.Nat

/-!
# The tracker of messages in flight

`storage/messages/inflight.go`. Packet identifiers are independent in each direction, so an entry is
addressed by its direction and its packet identifier.

The times and the retry counter of an entry, which decide only when it is sent again, are left out.
-/

namespace FluxMQ.Mqtt

/-- `InflightState`: what a message in flight waits for. -/
inductive InflightState where
  /-- PUBLISH was sent; PUBACK or PUBREC is awaited. -/
  | publishSent
  /-- PUBREC was received and PUBREL sent; PUBCOMP is awaited. -/
  | pubRecReceived
  deriving Repr, DecidableEq

/-- `Direction` of a message in flight. -/
inductive Direction where
  /-- Sent by the broker to the client. -/
  | outbound
  /-- Received from the client. -/
  | inbound
  deriving Repr, DecidableEq

/-- `InflightMessage`. The direction and the packet identifier are the key of the entry. -/
structure InflightMessage (μ : Type) where
  message : μ
  state : InflightState := .publishSent
  deriving Repr, DecidableEq

/-- Why the tracker refuses. -/
inductive InflightError where
  | inflightFull
  | packetNotFound
  deriving Repr, DecidableEq

/-- `inflight`: the entries, and how many each direction may have. -/
structure Inflight (μ : Type) where
  messages : AList fun _ : Direction × Nat => InflightMessage μ := ∅
  maxSize : Nat := 65535

namespace Inflight

variable {μ : Type} (t : Inflight μ) (direction : Direction) (packetID : Nat)

/-- The entry of a packet identifier. -/
def lookup : Option (InflightMessage μ) :=
  t.messages.lookup (direction, packetID)

/-- `counts`. -/
def count : Nat :=
  (t.messages.keys.filter fun key => key.1 = direction).length

/-- The entry of a packet identifier is written. -/
def put (entry : InflightMessage μ) : Inflight μ :=
  { t with messages := t.messages.insert (direction, packetID) entry }

/-- The entry of a packet identifier is removed. -/
def erase : Inflight μ :=
  { t with messages := t.messages.erase (direction, packetID) }

/-- `Add`. Capacity gates new keys only. -/
def add (msg : μ) : Inflight μ × Option InflightError :=
  if t.lookup direction packetID = none ∧ t.maxSize ≤ t.count direction then
    (t, some .inflightFull)
  else (t.put direction packetID { message := msg }, none)

/-- `AddInbound`: whether the message was accepted. A duplicate is not, and that is no error. -/
def addInbound (msg : μ) : Inflight μ × Bool × Option InflightError :=
  if t.lookup .inbound packetID ≠ none then (t, false, none)
  else if t.maxSize ≤ t.count .inbound then (t, false, some .inflightFull)
  else (t.put .inbound packetID { message := msg }, true, none)

def has : Bool := (t.lookup .outbound packetID).isSome

/-- The search of `NextPacketID` for an identifier, from a value of the counter on. -/
def findPacketID : (tries counter : Nat) → Option Nat
  | 0, _ => none
  | tries + 1, counter =>
    if counter % 2 ^ 16 ≠ 0 ∧ t.has (counter % 2 ^ 16) = false then some counter
    else findPacketID tries (counter + 1)

def updateState (state : InflightState) : Inflight μ × Option InflightError :=
  match t.lookup .outbound packetID with
  | none => (t, some .packetNotFound)
  | some entry => (t.put .outbound packetID { entry with state }, none)

def ackDirection : Inflight μ × Option μ :=
  match t.lookup direction packetID with
  | none => (t, none)
  | some entry => (t.erase direction packetID, some entry.message)

def ack : Inflight μ × Option μ := t.ackDirection .outbound packetID

def ackInbound : Inflight μ × Option μ := t.ackDirection .inbound packetID

/-! ### Looking up an entry -/

variable {t direction packetID} {d : Direction} {i : Nat}

lemma lookup_put {entry : InflightMessage μ} : (t.put direction packetID entry).lookup d i =
    if d = direction ∧ i = packetID then some entry else t.lookup d i := by
  split
  · rename_i h
    rw [h.1, h.2]
    exact AList.lookup_insert _
  · rename_i h
    exact AList.lookup_insert_ne fun heq => h (Prod.mk.inj heq)

lemma lookup_erase : (t.erase direction packetID).lookup d i =
    if d = direction ∧ i = packetID then none else t.lookup d i := by
  split
  · rename_i h
    rw [h.1, h.2]
    exact AList.lookup_erase _ _
  · rename_i h
    exact AList.lookup_erase_ne fun heq => h (Prod.mk.inj heq)

/-! ### Counting the entries of a direction -/

lemma count_put_of_ne (h : t.lookup direction packetID ≠ none) (entry : InflightMessage μ) (d : Direction) :
    (t.put direction packetID entry).count d = t.count d := by
  have hmem : (direction, packetID) ∈ t.messages.keys := by
    by_contra hnot
    exact h (AList.lookup_eq_none.2 hnot)
  have hperm := @List.perm_cons_erase _ instBEqOfDecidableEq _ _ _ hmem
  unfold count put
  rw [AList.keys_insert]
  exact (hperm.symm.filter _).length_eq

variable (direction packetID) in
lemma count_put_le (entry : InflightMessage μ) (d : Direction) :
    (t.put direction packetID entry).count d ≤ t.count d + if direction = d then 1 else 0 := by
  have hsublist := @List.erase_sublist _ instBEqOfDecidableEq (direction, packetID) t.messages.keys
  have hle := (hsublist.filter fun key => key.1 = d).length_le
  unfold count put
  rw [AList.keys_insert, List.filter_cons]
  by_cases hd : direction = d
  · rw [if_pos (by simpa using hd), if_pos hd, List.length_cons]
    exact Nat.succ_le_succ hle
  · rw [if_neg (by simpa using hd), if_neg hd]
    exact hle

variable (direction packetID) in
lemma count_erase_le (d : Direction) : (t.erase direction packetID).count d ≤ t.count d := by
  have hsublist := @List.erase_sublist _ instBEqOfDecidableEq (direction, packetID) t.messages.keys
  unfold count erase
  rw [AList.keys_erase]
  exact (hsublist.filter _).length_le

end Inflight

end FluxMQ.Mqtt
