import FluxMQ.Types.ConsumerGroup

/-!
# The queue log as its readers see it

A queue log assigns consecutive offsets to the records appended to it. Retention removes a prefix,
so the records that can be read are those from `head` up to, not including, `tail`.

A record is stored as bytes and decoded when it is read. A record that no longer decodes is
reported by `read` as undecodable, which readers tell apart from an offset outside the log.
-/

namespace FluxMQ

/-- The parts of `message.Envelope` that the queue reads. The payload stands for everything else
in the envelope. -/
structure Envelope where
  topic : String
  payload : String := ""
  /-- `BrokerMeta.Queue.ExpiresAt`, unset when zero. -/
  queueExpiresAt : Option Time := none
  /-- `BrokerMeta.Delivery.ExpiresAt`, unset when zero. -/
  deliveryExpiresAt : Option Time := none
  /-- `BrokerMeta.Transfer.ID`, under which a record is appended only once. -/
  transferId : String := ""
  deriving Repr, DecidableEq, Inhabited

/-- `IsExpired` at local time `now`: the queue expiry, or else the delivery expiry, has passed. -/
def Envelope.isExpired (now : Time) (e : Envelope) : Bool :=
  match e.queueExpiresAt <|> e.deliveryExpiresAt with
  | some expiresAt => decide (expiresAt < now)
  | none => false

/-- A stored record, which may not decode to an envelope. -/
inductive Record where
  | undecodable
  | envelope (e : Envelope)
  deriving Repr, DecidableEq, Inhabited

/-- Why a read found no envelope. -/
inductive ReadError where
  | offsetOutOfRange
  | undecodableRecord
  deriving Repr, DecidableEq

/-- The retained records of a queue, starting at offset `head`. -/
structure Log where
  head : Nat := 0
  records : List Record := []
  deriving Repr, DecidableEq, Inhabited

namespace Log

variable (log : Log)

/-- The next offset that will be assigned. -/
def tail : Nat :=
  log.head + log.records.length

/-- The record stored at an offset, if it is retained. -/
def record (offset : Nat) : Option Record :=
  if log.head ≤ offset then log.records[offset - log.head]? else none

/-- `Read` of an offset. -/
def read (offset : Nat) : Except ReadError Envelope :=
  match log.record offset with
  | none => .error .offsetOutOfRange
  | some .undecodable => .error .undecodableRecord
  | some (.envelope e) => .ok e

/-- Append one record at the tail. -/
def append (r : Record) : Log :=
  { log with records := log.records ++ [r] }

/-- Remove the records below `offset`. Beyond the tail the log is left empty at `offset`. -/
def dropBelow (offset : Nat) : Log :=
  if offset ≤ log.head then log
  else { head := offset, records := log.records.drop (offset - log.head) }

variable {log} {offset cut : Nat} {r : Record}

lemma record_isSome_iff : (log.record offset).isSome ↔ log.head ≤ offset ∧ offset < log.tail := by
  unfold record tail
  split
  · rw [Option.isSome_iff_ne_none, ne_eq, List.getElem?_eq_none_iff]
    omega
  · simp
    omega

@[simp]
lemma tail_append : (log.append r).tail = log.tail + 1 := by
  simp [tail, append]
  omega

/-- An append leaves the records already in the log where they are. -/
lemma record_append_of_lt (h : offset < log.tail) :
    (log.append r).record offset = log.record offset := by
  unfold record append
  by_cases hhead : log.head ≤ offset
  · rw [if_pos hhead, if_pos hhead]
    have hlt : offset - log.head < log.records.length := by
      unfold tail at h
      omega
    exact List.getElem?_append_left hlt
  · rw [if_neg hhead, if_neg hhead]

/-- The appended record stands at the old tail. -/
@[simp]
lemma record_append_tail : (log.append r).record log.tail = some r := by simp [record, append, tail]

/-- No record stands at the tail or behind it. -/
lemma record_eq_none_of_le (h : log.tail ≤ offset) : log.record offset = none := by
  rw [← Option.not_isSome_iff_eq_none, record_isSome_iff]
  omega

/-- Removing a prefix leaves every other record where it is. -/
lemma record_dropBelow (log : Log) (cut offset : Nat) : (log.dropBelow cut).record offset =
    if cut ≤ offset ∨ cut ≤ log.head then log.record offset else none := by
  unfold dropBelow
  by_cases hcut : cut ≤ log.head
  · rw [if_pos hcut]
    rw [if_pos (Or.inr hcut)]
  rw [if_neg hcut]
  unfold record
  by_cases hoff : cut ≤ offset
  · have hhead : log.head ≤ offset := by omega
    simp only [if_pos hhead, List.getElem?_drop, hoff, true_or, if_true]
    congr 1
    omega
  · simp [hoff, hcut]

end Log

end FluxMQ
