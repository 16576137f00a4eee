import FluxMQ.Library.JsonText
import FluxMQ.Logstorage.OpLog

/-!
# The text of the operation log

`writeOp` of `logstorage/consumer_state.go` appends each record to `ops.log` as a JSON object and
a newline. The file is opened for appending, so what a session writes stands right behind what the
sessions before it left, which may end in the middle of a record. `replayOpLog` decodes one object
after the other and stops at the first that it cannot decode.

The decoder is the one of `encoding/json` on what can stand in the file. It reads the fields of an
object in any order; a field that is not one of a record's, white space within an object and other
things that the writer never writes make it fail.
-/

namespace FluxMQ

open Parser Json

/-! ### Records as JSON objects -/

/-- The number of a record's type. -/
def OpType.code : OpType → Nat
  | .deliver => 1
  | .ack => 2
  | .ackBatch => 3
  | .nack => 4
  | .claim => 5
  | .claimBatch => 6
  | .advanceFloor => 7
  | .setCursor => 8
  | .restorePending => 9
  | .release => 10

/-- All types of records. -/
def OpType.all : List OpType :=
  [.deliver, .ack, .ackBatch, .nack, .claim, .claimBatch, .advanceFloor, .setCursor,
    .restorePending, .release]

/-- The type that has a number. -/
def OpType.ofCode (n : Nat) : Option OpType :=
  OpType.all.find? fun t => t.code == n

/-- The keys of a record's JSON object. -/
inductive OpKey where
  | t
  | o
  | os
  | c
  | ts
  | dc
  deriving Repr, DecidableEq

/-- The text of a key. -/
def OpKey.name : OpKey → String
  | .t => "t"
  | .o => "o"
  | .os => "os"
  | .c => "c"
  | .ts => "ts"
  | .dc => "dc"

/-- All keys. -/
def OpKey.all : List OpKey := [.t, .o, .os, .c, .ts, .dc]

/-- The key with a text. -/
def OpKey.ofName (name : String) : Option OpKey :=
  OpKey.all.find? fun key => key.name == name

/-- One field of a record's JSON object. An array of offsets is never empty. -/
inductive OpField where
  | t (type : OpType)
  | o (offset : Nat)
  | os (offset : Nat) (more : List Nat)
  | c (consumerId : String)
  | ts (timestamp : Int)
  | dc (deliveryCount : UInt16)
  deriving Repr, DecidableEq

namespace OpField

/-- The key of a field. -/
def key : OpField → OpKey
  | .t _ => .t
  | .o _ => .o
  | .os _ _ => .os
  | .c _ => .c
  | .ts _ => .ts
  | .dc _ => .dc

/-- The text of a field's value. -/
def value : OpField → List UInt8
  | .t type => Json.number type.code
  | .o offset => Json.number offset
  | .os offset more =>
    Json.ascii '[' :: Parser.listed (Json.ascii ',') (Json.ascii ']') Json.number (offset :: more)
  | .c consumerId => Json.string consumerId
  | .ts timestamp => Json.integer timestamp
  | .dc deliveryCount => Json.number deliveryCount.toNat

/-- The text of a field. -/
def print (field : OpField) : List UInt8 :=
  Json.string field.key.name ++ Json.ascii ':' :: field.value

/-- Read the value of the field that has a key. -/
def readValue : OpKey → Parser UInt8 OpField
  | .t => Json.numeral.andThen fun n =>
    match OpType.ofCode n with
    | some type => Parser.yield (.t type)
    | none => Parser.fail
  | .o => Json.numeral.andThen fun n => Parser.yield (.o n)
  | .os => (Parser.literal [Json.ascii '[']).andThen fun _ =>
    (Parser.items (Json.numeral.delimited (Json.ascii ',') (Json.ascii ']'))).andThen fun offsets =>
      match offsets with
      | offset :: more => Parser.yield (.os offset more)
      | [] => Parser.fail
  | .c => Json.quoted.andThen fun s => Parser.yield (.c s)
  | .ts => Json.integerNumeral.andThen fun i => Parser.yield (.ts i)
  | .dc => Json.numeral.andThen fun n => Parser.yield (.dc (UInt16.ofNat n))

/-- Read a field. -/
def read : Parser UInt8 OpField :=
  Json.quoted.andThen fun name => (Parser.literal [Json.ascii ':']).andThen fun _ =>
    match OpKey.ofName name with
    | some key => readValue key
    | none => Parser.fail

end OpField

namespace LogOperation

/-- The fields of a record that are written: an empty one is left out, if it may be. -/
def fields (op : LogOperation) : List OpField :=
  let offset : List OpField := if op.offset = 0 then [] else [.o op.offset]
  let offsets : List OpField :=
    match op.offsets with
    | [] => []
    | first :: more => [.os first more]
  let consumerId : List OpField := if op.consumerId = "" then [] else [.c op.consumerId]
  let deliveryCount : List OpField :=
    if op.deliveryCount = 0 then [] else [.dc op.deliveryCount]
  .t op.type :: (offset ++ offsets ++ consumerId ++ .ts op.timestamp :: deliveryCount)

/-- Set a field of a record. -/
def setField (op : LogOperation) : OpField → LogOperation
  | .t type => { op with type }
  | .o offset => { op with offset }
  | .os offset more => { op with offsets := offset :: more }
  | .c consumerId => { op with consumerId }
  | .ts timestamp => { op with timestamp }
  | .dc deliveryCount => { op with deliveryCount }

/-- The record that has the given fields. -/
def ofFields : List OpField → Option LogOperation
  | .t type :: rest => some (rest.foldl setField { type })
  | _ => none

/-- `json.Marshal` of a record. -/
def encode (op : LogOperation) : List UInt8 :=
  Json.ascii '\x7b' :: Parser.listed (Json.ascii ',') (Json.ascii '\x7d') OpField.print op.fields

/-- `Decode` of a record. -/
def decode : Parser UInt8 LogOperation :=
  (Parser.literal [Json.ascii '\x7b']).andThen fun _ =>
    (Parser.items (OpField.read.delimited (Json.ascii ',') (Json.ascii '\x7d'))).andThen fun fields =>
      match ofFields fields with
      | some op => Parser.yield op
      | none => Parser.fail

/-- What `writeOp` appends. -/
def line (op : LogOperation) : List UInt8 :=
  op.encode ++ [Json.ascii '\n']

end LogOperation

/-! ### Reading back what was written -/

/-- A byte before which a value can be read: not one that could continue a numeral. -/
abbrev EndsValue (c : UInt8) : Prop := ¬ Json.isDigit c

lemma OpType.ofCode_code (t : OpType) : OpType.ofCode t.code = some t := by
  cases t <;> rfl

lemma OpKey.ofName_name (key : OpKey) : OpKey.ofName key.name = some key := by
  cases key <;> decide

namespace OpField

lemma readsBefore_value (field : OpField) :
    Parser.ReadsBefore EndsValue (readValue field.key) field.value field := by
  cases field with
  | t type =>
    intro c rest hc
    simp only [key, value, readValue, andThen, reads_numeral _ c rest hc, OpType.ofCode_code]
    rfl
  | o offset => exact (reads_numeral offset).andThen_yield OpField.o
  | os offset more =>
    -- The array ends with its own bracket, whatever follows.
    refine Parser.Reads.before fun rest => ?_
    have hlist : Parser.Reads (items (numeral.delimited (ascii ',') (ascii ']')))
        (listed (ascii ',') (ascii ']') number (offset :: more))
        (offset :: more) :=
      reads_listed reads_numeral (by decide) (by decide) (by decide) (List.cons_ne_nil offset more)
    have hopen : ∀ text, literal [ascii '['] (ascii '[' :: text) =
        some ((), text) := reads_literal [ascii '[']
    simp only [key, value, readValue, andThen, List.cons_append, hopen, hlist rest]
    rfl
  | c consumerId => exact ((reads_quoted consumerId).before).andThen_yield OpField.c
  | ts timestamp => exact (reads_integerNumeral timestamp).andThen_yield OpField.ts
  | dc deliveryCount =>
    have h := (reads_numeral deliveryCount.toNat).andThen_yield fun n => dc (UInt16.ofNat n)
    rwa [UInt16.ofNat_toNat] at h

/-- A field is read back. -/
lemma readsBefore_print (field : OpField) :
    Parser.ReadsBefore EndsValue read field.print field := by
  intro c rest hc
  have hkey := reads_quoted field.key.name (ascii ':' :: (field.value ++ c :: rest))
  have hcolon : literal [ascii ':'] (ascii ':' :: (field.value ++ c :: rest)) =
      some ((), field.value ++ c :: rest) := reads_literal [ascii ':'] _
  rw [print, List.append_assoc, read, andThen, List.cons_append, hkey]
  simp only [andThen, hcolon, OpKey.ofName_name]
  exact field.readsBefore_value c rest hc

lemma stable_readValue (key : OpKey) : Parser.Stable (readValue key) := by
  cases key with
  | t =>
    refine stable_numeral.andThen fun n => ?_
    split
    · exact stable_yield _
    · exact stable_fail
  | o | dc => exact stable_numeral.andThen fun _ => stable_yield _
  | os =>
    refine (stable_literal _).andThen fun _ =>
      (stable_items stable_numeral.delimited).andThen fun offsets => ?_
    split
    · exact stable_yield _
    · exact stable_fail
  | c => exact stable_quoted.andThen fun _ => stable_yield _
  | ts => exact stable_integerNumeral.andThen fun _ => stable_yield _

lemma stable_read : Parser.Stable read := by
  refine stable_quoted.andThen fun name => (stable_literal _).andThen fun _ => ?_
  split
  · exact stable_readValue _
  · exact stable_fail

end OpField

namespace LogOperation

/-- A record is the one that has its fields. -/
lemma ofFields_fields (op : LogOperation) : ofFields op.fields = some op := by
  obtain ⟨type, offset, offsets, consumerId, timestamp, deliveryCount⟩ := op
  simp only [fields, ofFields, List.foldl_append]
  -- A field that is left out has the value it would have been given.
  cases offsets <;> by_cases ho : offset = 0 <;> by_cases hc : consumerId = "" <;>
    by_cases hd : deliveryCount = 0 <;> simp [ho, hc, hd, setField]

/-- A record is read back, whatever follows it. -/
lemma reads_decode (op : LogOperation) : Parser.Reads decode op.encode op := by
  have hlist : Parser.Reads
      (items (OpField.read.delimited (ascii ',') (ascii '\x7d')))
      (listed (ascii ',') (ascii '\x7d') OpField.print op.fields) op.fields :=
    reads_listed OpField.readsBefore_print (by decide) (by decide) (by decide)
      (List.cons_ne_nil _ _)
  intro rest
  have hopen : ∀ text, literal [ascii '\x7b'] (ascii '\x7b' :: text) =
      some ((), text) := reads_literal [ascii '\x7b']
  simp only [decode, encode, andThen, List.cons_append, hopen, hlist rest, ofFields_fields]
  rfl

lemma stable_decode : Parser.Stable decode := by
  refine (stable_literal _).andThen fun _ =>
    (stable_items OpField.stable_read.delimited).andThen fun fields => ?_
  split
  · exact stable_yield _
  · exact stable_fail

end LogOperation

end FluxMQ
