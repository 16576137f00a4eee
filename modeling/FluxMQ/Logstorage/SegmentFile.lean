import FluxMQ.Library.Search
import FluxMQ.Library.Tiling
import FluxMQ.Logstorage.Batch
import FluxMQ.Types.ConsumerGroup

/-!
# Segment files

`Segment` of `logstorage/segment.go`: a file of batches one after the other, with the positions of the
batches kept in memory. They are built by appends, or by a scan of the file when it is opened.

* `Segment.append`, `openSegment`: the two ways a segment comes about.
* `Segment.Consists`: what a segment holds, as a list of batches: the file is their bytes in a row, the
  positions are where they stand, and their offsets follow each other.
* `Segment.Consists.read`, `Segment.Consists.readRange`: what the two searches make of it.

The sparse indexes, which no read consults, are left out.
-/

namespace FluxMQ.Logstorage

open Tiling Batch List

/-- Where a batch begins in the file, and the offset it begins with. -/
structure BatchPosition where
  offset : Nat
  position : Nat
  size : Nat
  deriving Repr, DecidableEq

/-- `Segment`, with the bytes of its file. -/
structure Segment where
  baseOffset : Nat
  nextOffset : Nat
  size : Nat := 0
  createdAt : Time
  batchPositions : List BatchPosition := []
  /-- The bytes of its file. -/
  file : ByteString := []
  deriving DecidableEq

/-- Why an offset cannot be read. -/
inductive ReadError where
  | offsetOutOfRange
  | batch (err : BatchError)
  deriving Repr, DecidableEq

def createSegment (baseOffset : Nat) (now : Time) : Segment :=
  { baseOffset, nextOffset := baseOffset, createdAt := now }

namespace Segment

variable (lib : BatchLibraries) (seg : Segment)

/-- The loop of `scan`, for at most `fuel` batches. -/
def scanFrom (file : ByteString) : (fuel pos : Nat) → Segment → Option Segment
  | 0, pos, seg => if pos < file.length then none else some { seg with size := pos }
  | fuel + 1, pos, seg =>
    if pos < file.length then
      match decodeBatchHeader (file.drop pos) with
      | none => none
      | some (header, _) =>
        let totalSize := batchHeaderSize + header.batchLen
        if header.magic ≠ segmentMagic ∨ file.length < pos + totalSize then none
        else scanFrom file fuel (pos + totalSize)
          { seg with
            batchPositions := seg.batchPositions ++ [⟨header.baseOffset, pos, totalSize⟩]
            nextOffset := header.baseOffset + header.count }
    else some { seg with size := pos }

def append (b : Batch) : Except BatchError Segment :=
  let b := if b.baseOffset = 0 then { b with baseOffset := seg.nextOffset } else b
  match b.encode lib with
  | .error err => .error err
  | .ok data => .ok
    { seg with
      batchPositions := seg.batchPositions ++ [⟨b.baseOffset, seg.size, data.length⟩]
      file := seg.file.take seg.size ++ data ++ seg.file.drop (seg.size + data.length)
      size := seg.size + data.length
      nextOffset := b.nextOffset }

/-- The loop of `findBatchPosition`. The end of the interval is one more than the `right` of the
source, which may be -1. -/
def searchBatch (offset : Nat) : (fuel left stop : Nat) → Option BatchPosition
  | 0, _, _ => none
  | fuel + 1, left, stop =>
    if left < stop then
      let mid := (left + stop - 1) / 2
      match seg.batchPositions[mid]? with
      | none => none
      | some bp =>
        if offset < bp.offset then searchBatch offset fuel left mid
        else
          match seg.batchPositions[mid + 1]? with
          | some next =>
            if next.offset ≤ offset then searchBatch offset fuel (mid + 1) stop else some bp
          | none => some bp
    else none

def findBatchPosition (offset : Nat) : Option BatchPosition :=
  seg.searchBatch offset (seg.batchPositions.length + 1) 0 seg.batchPositions.length

def readBatchContaining (offset : Nat) : Except ReadError Batch :=
  match seg.findBatchPosition offset with
  | none => .error .offsetOutOfRange
  | some bp =>
    match decodeBatch lib ((seg.file.drop bp.position).take bp.size) with
    | .error err => .error (.batch err)
    | .ok b => .ok b

def read (offset : Nat) : Except ReadError Message :=
  if offset < seg.baseOffset ∨ seg.nextOffset ≤ offset then .error .offsetOutOfRange
  else
    match seg.readBatchContaining lib offset with
    | .error err => .error err
    | .ok b =>
      match b.getMessage offset with
      | none => .error .offsetOutOfRange
      | some msg => .ok msg

/-- The loop of `ReadRange`, for at most `fuel` batches. Without progress from batch to batch it would
not end. -/
def readFrom (startOffset endOffset maxMessages : Nat) :
    (fuel currentOffset : Nat) → (messages : List Message) → Option (Except ReadError (List Message))
  | 0, currentOffset, messages =>
    if currentOffset < endOffset ∧ messages.length < maxMessages then none else some (.ok messages)
  | fuel + 1, currentOffset, messages =>
    if currentOffset < endOffset ∧ messages.length < maxMessages then
      match seg.readBatchContaining lib currentOffset with
      | .error .offsetOutOfRange => some (.ok messages)
      | .error err => some (.error err)
      | .ok b =>
        let found := b.toMessages.filter fun msg => startOffset ≤ msg.offset ∧ msg.offset < endOffset
        readFrom startOffset endOffset maxMessages fuel b.nextOffset
          (messages ++ found.take (maxMessages - messages.length))
    else some (.ok messages)

def readRange (startOffset endOffset maxMessages : Nat) : Option (Except ReadError (List Message)) :=
  seg.readFrom lib startOffset endOffset maxMessages (endOffset - startOffset) startOffset []

def isFull (maxSize : Nat) : Bool := maxSize ≤ seg.size

/-- `IsExpired` at local time `now`. -/
def isExpired (now maxAge : Time) : Bool :=
  decide (0 < maxAge) && decide (maxAge < now - seg.createdAt)

end Segment

/-- `OpenSegment` of a file that was last modified at some time. -/
def openSegment (baseOffset : Nat) (modTime : Time) (file : ByteString) : Option Segment :=
  Segment.scanFrom file file.length 0
    { baseOffset, nextOffset := baseOffset, size := file.length, createdAt := modTime, file }

/-! ### Batches in a row -/

/-- A batch that comes back from its bytes, with the offsets of its records in order. -/
structure Batch.Good (lib : BatchLibraries) (b : Batch) : Prop extends b.InHeader lib where
  nonempty : b.records ≠ []
  plain : isCompressed b.flags = false
  addressable : b.Addressable
  deltas : ∀ (i : Nat) (r : Record), b.records[i]? = some r → r.offsetDelta.toNat = i

namespace Batch

variable {lib : BatchLibraries} {b : Batch}

/-- What is read of a batch. -/
def decoded (lib : BatchLibraries) (b : Batch) : Batch :=
  { b with flags := (b.stored lib).1, records := b.records.map Record.decoded }

/-- The messages that are read of a batch. -/
def messages (lib : BatchLibraries) (b : Batch) : List Message := (b.decoded lib).toMessages

lemma Good.decodeBatch_bytes (h : b.Good lib) : decodeBatch lib (b.bytes lib) = .ok (b.decoded lib) :=
  decodeBatch_bytes_of_inHeader h.plain h.nonempty h.toInHeader h.addressable

lemma length_bytes : (b.bytes lib).length = batchHeaderSize + (b.stored lib).2.length := by
  simp [bytes, body, batchHeaderSize]
  omega

lemma Good.base_lt (h : b.Good lib) : b.baseOffset < 2 ^ 64 := by
  have hpos := length_pos_iff.mpr h.nonempty
  have := h.addressable.offsets
  omega

/-- The header of a good batch tells its offset, its length and its number of records. -/
lemma Good.header_eq (h : b.Good lib) : (b.header lib).magic = segmentMagic ∧
    (b.header lib).baseOffset = b.baseOffset ∧ (b.header lib).count = b.records.length ∧
    batchHeaderSize + (b.header lib).batchLen = (b.bytes lib).length := by
  refine ⟨rfl, Nat.mod_eq_of_lt h.base_lt, Nat.mod_eq_of_lt h.count, ?_⟩
  rw [length_bytes]
  exact congrArg _ (Nat.mod_eq_of_lt h.length)

lemma Good.base_lt_next (h : b.Good lib) : b.baseOffset < b.nextOffset :=
  Nat.lt_add_of_pos_right (length_pos_iff.mpr h.nonempty)

@[simp]
lemma nextOffset_decoded : (b.decoded lib).nextOffset = b.nextOffset := by
  simp [nextOffset, decoded]

@[simp]
lemma length_messages : (b.messages lib).length = b.records.length := by
  simp [messages, decoded, toMessages]

end Batch

/-- The offsets of messages follow each other. -/
def Consecutive (offset : Nat) (messages : List Message) : Prop :=
  ∀ i msg, messages[i]? = some msg → msg.offset = offset + i

variable {b : Batch}

lemma Batch.Good.consecutive {lib : BatchLibraries} (h : b.Good lib) :
    Consecutive b.baseOffset (b.messages lib) := by
  intro i msg hmsg
  simp only [messages, decoded, toMessages, map_map, getElem?_map,
    Option.map_eq_some_iff, Function.comp] at hmsg
  obtain ⟨r, hr, rfl⟩ := hmsg
  exact congrArg _ (h.deltas i r hr)

/-- `GetMessage` and `ToMessages` agree. -/
lemma Batch.Good.getMessage {lib : BatchLibraries} (h : b.Good lib) {offset : Nat}
    (hge : b.baseOffset ≤ offset) :
    (b.decoded lib).getMessage offset = (b.messages lib)[offset - b.baseOffset]? := by
  simp only [Batch.messages, Batch.decoded, Batch.toMessages, Batch.getMessage, map_map,
    getElem?_map, if_neg (Nat.not_lt.mpr hge)]
  cases hr : b.records[offset - b.baseOffset]? with
  | none => rfl
  | some r =>
    have hdelta := h.deltas _ r hr
    simp [Record.decoded, hdelta, Nat.add_sub_cancel' hge]

/-- The batches follow each other without a gap from one offset to another. -/
abbrev Row : (start : Nat) → List Batch → (stop : Nat) → Prop :=
  Tiles Batch.baseOffset Batch.nextOffset

lemma Batch.base_le_next (b : Batch) : b.baseOffset ≤ b.nextOffset := Nat.le_add_right _ _

/-- What is read of batches. -/
def contents (lib : BatchLibraries) (bs : List Batch) : List Message := bs.flatMap (Batch.messages lib)

lemma length_contents (lib : BatchLibraries) {bs : List Batch} {start stop : Nat}
    (h : Row start bs stop) : start + (contents lib bs).length = stop := by
  induction bs generalizing start with
  | nil => exact h
  | cons b bs ih =>
    obtain ⟨rfl, hrest⟩ := h
    have hlength := ih hrest
    rw [nextOffset] at hlength
    rw [contents, flatMap_cons, length_append, length_messages]
    rw [contents] at hlength
    omega

/-- Where batches stand in a file that has other bytes in front of them. -/
def positionsFrom (lib : BatchLibraries) : (pos : Nat) → List Batch → List BatchPosition
  | _, [] => []
  | pos, b :: bs =>
    ⟨b.baseOffset, pos, (b.bytes lib).length⟩ :: positionsFrom lib (pos + (b.bytes lib).length) bs

namespace Segment

variable {lib : BatchLibraries} {seg : Segment} {bs : List Batch}

/-- The segment holds these batches. -/
structure Consists (lib : BatchLibraries) (seg : Segment) (bs : List Batch) : Prop where
  good : ∀ b ∈ bs, b.Good lib
  row : Row seg.baseOffset bs seg.nextOffset
  file : seg.file = bs.flatMap (Batch.bytes lib)
  size : seg.size = seg.file.length
  positions : seg.batchPositions = positionsFrom lib 0 bs

/-! ### How a segment comes about -/

lemma positionsFrom_append (pos : Nat) (bs more : List Batch) :
    positionsFrom lib pos (bs ++ more) =
      positionsFrom lib pos bs ++
        positionsFrom lib (pos + (bs.flatMap (bytes lib)).length) more := by
  induction bs generalizing pos with
  | nil => rfl
  | cons b bs ih =>
    rw [cons_append, positionsFrom, ih, positionsFrom, flatMap_cons, length_append, Nat.add_assoc]
    rfl

lemma consists_createSegment (baseOffset : Nat) (now : Time) :
    (createSegment baseOffset now).Consists lib [] :=
  ⟨nofun, rfl, rfl, rfl, rfl⟩

/-- A batch that is appended follows those that are there. -/
theorem Consists.append (h : seg.Consists lib bs) (hb : b.Good lib)
    (hbase : b.baseOffset = seg.nextOffset) :
    ∃ seg', seg.append lib b = .ok seg' ∧ seg'.Consists lib (bs ++ [b]) ∧
      seg'.baseOffset = seg.baseOffset ∧ seg'.nextOffset = b.nextOffset ∧
      seg'.createdAt = seg.createdAt := by
  -- The offset of the batch is the one it would be given if it had none.
  have hsame : (if b.baseOffset = 0 then { b with baseOffset := seg.nextOffset } else b) = b := by
    split
    · rw [← hbase]
    · rfl
  have hencode : b.encode lib = .ok (b.bytes lib) := encode_eq_ok hb.nonempty
  simp only [Segment.append, hsame, hencode]
  refine ⟨_, rfl, ⟨?_, ?_, ?_, ?_, ?_⟩, rfl, rfl, rfl⟩
  · intro b' hb'
    obtain hb' | hb' := mem_append.mp hb'
    · exact h.good b' hb'
    · exact mem_singleton.mp hb' ▸ hb
  · exact Tiles.append_iff.mpr ⟨_, h.row, hbase, rfl⟩
  · have htake : seg.file.take seg.size = seg.file := take_of_length_le (Nat.le_of_eq h.size.symm)
    have hdrop : seg.file.drop (seg.size + (b.bytes lib).length) = [] :=
      drop_eq_nil_of_le (by rw [h.size]; omega)
    rw [htake, hdrop, append_nil, flatMap_append, h.file, flatMap_singleton]
  · simp [h.size]
  · rw [positionsFrom_append, h.positions, Nat.zero_add, ← h.file, ← h.size]
    rfl

/-- A scan finds the batches of a file. -/
lemma scanFrom_eq {file : ByteString} (bs : List Batch) (hgood : ∀ b ∈ bs, b.Good lib)
    (fuel pos : Nat) (seg : Segment) {stop : Nat} (hrow : Row seg.nextOffset bs stop)
    (hpos : pos + (bs.flatMap (bytes lib)).length = file.length)
    (hfile : file.drop pos = bs.flatMap (bytes lib)) (hfuel : bs.length ≤ fuel) :
    scanFrom file fuel pos seg = some { seg with
      size := file.length
      batchPositions := seg.batchPositions ++ positionsFrom lib pos bs
      nextOffset := stop } := by
  induction bs generalizing fuel pos seg with
  | nil =>
    obtain rfl : seg.nextOffset = stop := hrow
    have hend : pos = file.length := hpos
    cases fuel <;> simp [scanFrom, hend, positionsFrom]
  | cons b bs ih =>
    obtain ⟨hbase, hrest⟩ := hrow
    have hb : b.Good lib := hgood b mem_cons_self
    obtain ⟨hmagic, hheaderBase, hcount, hsize⟩ := hb.header_eq
    obtain ⟨fuel, rfl⟩ : ∃ m, fuel = m + 1 := ⟨fuel - 1, by simp at hfuel; omega⟩
    rw [flatMap_cons, length_append] at hpos
    rw [flatMap_cons] at hfile
    have hlength : batchHeaderSize ≤ (b.bytes lib).length := by
      rw [length_bytes]
      exact Nat.le_add_right _ _
    have hlt : pos < file.length := by
      rw [batchHeaderSize] at hlength
      omega
    have hroom : ¬ ((b.header lib).magic ≠ segmentMagic ∨
        file.length < pos + (batchHeaderSize + (b.header lib).batchLen)) := by
      rintro (hne | hshort)
      · exact hne hmagic
      · omega
    rw [scanFrom, if_pos hlt, hfile, decodeBatchHeader_bytes]
    simp only [if_neg hroom]
    rw [hsize, hheaderBase, hcount, ih (fun b' hb' => hgood b' (mem_cons_of_mem b hb'))]
    · simp [positionsFrom]
    · exact hrest
    · omega
    · rw [← drop_drop, hfile, drop_left]
    · exact Nat.le_of_succ_le_succ hfuel

/-- A file of batches is opened as the segment that they make up. -/
lemma openSegment_eq {baseOffset stop : Nat} (hgood : ∀ b ∈ bs, b.Good lib)
    (hrow : Row baseOffset bs stop) (modTime : Time) :
    openSegment baseOffset modTime (bs.flatMap (bytes lib)) = some
      { baseOffset
        nextOffset := stop
        size := (bs.flatMap (bytes lib)).length
        createdAt := modTime
        batchPositions := positionsFrom lib 0 bs
        file := bs.flatMap (bytes lib) } := by
  have hfuel : bs.length ≤ (bs.flatMap (bytes lib)).length := by
    clear hrow hgood
    induction bs with
    | nil => exact Nat.le_refl 0
    | cons b bs ih =>
      rw [flatMap_cons, length_append, length_cons, length_bytes, batchHeaderSize]
      omega
  exact scanFrom_eq bs hgood _ 0 _ hrow (Nat.zero_add _) rfl hfuel

/-- A segment that is opened again is the same but for its age. -/
theorem Consists.openSegment (h : seg.Consists lib bs) (modTime : Time) :
    Logstorage.openSegment seg.baseOffset modTime seg.file =
      some { seg with createdAt := modTime } := by
  rw [h.file, openSegment_eq h.good h.row, ← h.file, ← h.size, ← h.positions]

/-! ### Finding a batch -/

/-- The search ends at the last batch that begins at or before the offset. -/
lemma searchBatch_eq {offset k : Nat} {bp : BatchPosition} (hk : seg.batchPositions[k]? = some bp)
    (hupto : ∀ i bp, i ≤ k → seg.batchPositions[i]? = some bp → bp.offset ≤ offset)
    (hbehind : ∀ i bp, k < i → seg.batchPositions[i]? = some bp → offset < bp.offset)
    (fuel left stop : Nat) (hleft : left ≤ k) (hstop : k < stop)
    (hlength : stop ≤ seg.batchPositions.length) (hfuel : stop - left ≤ fuel) :
    seg.searchBatch offset fuel left stop = some bp := by
  induction fuel generalizing left stop with
  | zero => omega
  | succ fuel ih =>
    have hmid : (left + stop - 1) / 2 < seg.batchPositions.length := by omega
    obtain ⟨found, hfound⟩ : ∃ found, seg.batchPositions[(left + stop - 1) / 2]? = some found :=
      ⟨_, List.getElem?_eq_getElem hmid⟩
    rw [searchBatch, if_pos (by omega)]
    simp only [hfound]
    split
    · refine ih left _ hleft (Nat.lt_of_not_le fun hle => ?_) (by omega) (by omega)
      have := hupto _ found hle hfound
      omega
    rename_i hnotBefore
    have hle : (left + stop - 1) / 2 ≤ k := Nat.le_of_not_lt fun hlt =>
      hnotBefore (hbehind _ found hlt hfound)
    split
    · rename_i next hnext
      split
      · refine ih _ stop (Nat.lt_of_not_le fun hle => ?_) hstop hlength (by omega)
        have := hbehind _ next (Nat.lt_succ_of_le hle) hnext
        omega
      rename_i hnextLt
      have hge : k ≤ (left + stop - 1) / 2 := Nat.le_of_not_lt fun hlt =>
        hnextLt (hupto _ next hlt hnext)
      rw [Nat.le_antisymm hle hge, hk] at hfound
      exact hfound.symm
    · rename_i hlast
      have hge : k ≤ (left + stop - 1) / 2 := by
        rw [List.getElem?_eq_none_iff] at hlast
        omega
      rw [Nat.le_antisymm hle hge, hk] at hfound
      exact hfound.symm

lemma length_positionsFrom (lib : BatchLibraries) (pos : Nat) (bs : List Batch) :
    (positionsFrom lib pos bs).length = bs.length := by
  induction bs generalizing pos with
  | nil => rfl
  | cons b bs ih => rw [positionsFrom, length_cons, ih, length_cons]

lemma offset_positionsFrom {pos i : Nat} {bp : BatchPosition}
    (h : (positionsFrom lib pos bs)[i]? = some bp) : ∃ b, bs[i]? = some b ∧ b.baseOffset = bp.offset := by
  induction bs generalizing pos i with
  | nil => exact nomatch h
  | cons b bs ih =>
    cases i with
    | zero =>
      obtain rfl := Option.some.inj h
      exact ⟨b, rfl, rfl⟩
    | succ i => exact ih h

section

variable {front back : List Batch} {b : Batch} {offset : Nat}
  (h : seg.Consists lib (front ++ b :: back)) (hge : b.baseOffset ≤ offset)
  (hlt : offset < b.nextOffset)
include h hge hlt

/-- The batch of an offset is found. -/
lemma Consists.findBatchPosition : seg.findBatchPosition offset =
    some ⟨b.baseOffset, (front.flatMap (Batch.bytes lib)).length, (b.bytes lib).length⟩ := by
  obtain ⟨hfront, hback⟩ := h.row.split_le fun b' _ => b'.base_le_next
  have hfound : seg.batchPositions[front.length]? =
      some ⟨b.baseOffset, (front.flatMap (Batch.bytes lib)).length, (b.bytes lib).length⟩ := by
    rw [h.positions, positionsFrom_append, ← length_positionsFrom lib 0 front, Nat.zero_add]
    rw [List.getElem?_append_right (Nat.le_refl _), Nat.sub_self]
    rfl
  refine searchBatch_eq hfound (fun i bp hi hbp => ?_) (fun i bp hi hbp => ?_) _ 0 _
    (Nat.zero_le _) (List.getElem?_eq_some_iff.mp hfound).1 (Nat.le_refl _) (by omega)
  · rw [h.positions] at hbp
    obtain ⟨b', hb', hoffset⟩ := offset_positionsFrom hbp
    rcases Nat.lt_or_eq_of_le hi with hi | rfl
    · rw [List.getElem?_append_left hi] at hb'
      have hnext := (hfront b' (List.mem_of_getElem? hb')).2
      rw [Batch.nextOffset] at hnext
      omega
    · rw [List.getElem?_append_right (Nat.le_refl _), Nat.sub_self] at hb'
      obtain rfl := Option.some.inj hb'
      omega
  · rw [h.positions] at hbp
    obtain ⟨b', hb', hoffset⟩ := offset_positionsFrom hbp
    rw [List.getElem?_append_right (Nat.le_of_lt hi), List.getElem?_cons, if_neg (by omega)] at hb'
    have hbase := (hback b' (List.mem_of_getElem? hb')).1
    omega

lemma Consists.readBatchContaining : seg.readBatchContaining lib offset = .ok (b.decoded lib) := by
  have hgood : b.Good lib := h.good b (mem_append_right _ mem_cons_self)
  have hslice : (seg.file.drop (front.flatMap (bytes lib)).length).take (b.bytes lib).length =
      b.bytes lib := by
    rw [h.file, flatMap_append, drop_left, flatMap_cons, take_left]
  simp only [Segment.readBatchContaining, h.findBatchPosition hge hlt, hslice, hgood.decodeBatch_bytes]

end

/-- The messages of the batches in front of a batch are those of the offsets below it. -/
lemma contents_split {front back : List Batch} : contents lib (front ++ b :: back) =
    contents lib front ++ (b.messages lib ++ contents lib back) := by
  simp [contents]

/-- An offset is read exactly if it lies in the segment. -/
theorem Consists.read (h : seg.Consists lib bs) (offset : Nat) :
    seg.read lib offset =
      match if seg.baseOffset ≤ offset then (contents lib bs)[offset - seg.baseOffset]? else none with
      | none => .error .offsetOutOfRange
      | some msg => .ok msg := by
  have hlength := length_contents lib h.row
  unfold Segment.read
  by_cases hrange : offset < seg.baseOffset ∨ seg.nextOffset ≤ offset
  · rw [if_pos hrange]
    have hnone : (if seg.baseOffset ≤ offset then (contents lib bs)[offset - seg.baseOffset]?
        else none) = none := by
      split
      · exact getElem?_eq_none (by omega)
      · rfl
    rw [hnone]
  rw [if_neg hrange, if_pos (by omega)]
  obtain ⟨front, b, back, rfl, hfront, hback, hge, hlt⟩ :=
    h.row.exists_split offset (by omega) (by omega)
  have hgood : b.Good lib := h.good b (mem_append_right _ mem_cons_self)
  have hfrontLength := length_contents lib hfront
  rw [Batch.nextOffset] at hlt
  have hindex : (contents lib (front ++ b :: back))[offset - seg.baseOffset]? =
      (b.messages lib)[offset - b.baseOffset]? := by
    rw [contents_split, getElem?_append_right (by omega),
      getElem?_append_left (by rw [Batch.length_messages]; omega)]
    congr 1
    omega
  rw [h.readBatchContaining hge hlt, hindex]
  dsimp only
  rw [hgood.getMessage hge]

/-! ### Reading a range -/

lemma filter_consecutive {messages : List Message} {offset : Nat} (h : Consecutive offset messages)
    {a e : Nat} (ha : offset ≤ a) : (messages.filter fun msg => a ≤ msg.offset ∧ msg.offset < e) =
      (messages.drop (a - offset)).take (e - a) := by
  -- Below the range there are the first messages, and above it those that are left.
  have hbelow : ((messages.take (a - offset)).filter fun msg => a ≤ msg.offset ∧ msg.offset < e) = [] := by
    refine filter_eq_nil_iff.mpr fun msg hmsg => ?_
    obtain ⟨i, hi⟩ := mem_iff_getElem?.mp hmsg
    grind [h i msg]
  have hwithin : (((messages.drop (a - offset)).take (e - a)).filter
      fun msg => a ≤ msg.offset ∧ msg.offset < e) = (messages.drop (a - offset)).take (e - a) := by
    refine filter_eq_self.mpr fun msg hmsg => ?_
    obtain ⟨i, hi⟩ := mem_iff_getElem?.mp hmsg
    grind [h (a - offset + i) msg]
  have habove : (((messages.drop (a - offset)).drop (e - a)).filter
      fun msg => a ≤ msg.offset ∧ msg.offset < e) = [] := by
    refine filter_eq_nil_iff.mpr fun msg hmsg => ?_
    obtain ⟨i, hi⟩ := mem_iff_getElem?.mp hmsg
    grind [h (a - offset + (e - a + i)) msg]
  conv_lhs =>
    rw [← take_append_drop (a - offset) messages, ← take_append_drop (e - a) (drop _ _)]
  rw [filter_append, filter_append, hbelow, hwithin, habove, nil_append, append_nil]

/-- The batch that `ReadRange` reads next gives the messages from the current offset on: what it holds
below that offset is below the range, or the offset is its first. -/
lemma filter_messages {front : List Batch} (back : List Batch) {start a current e : Nat}
    (hgood : b.Good lib) (hfront : Row start front b.baseOffset) (hge : b.baseOffset ≤ current)
    (hlt : current < b.nextOffset) (ha : a ≤ current) (hedge : current = a ∨ b.baseOffset = current) :
    ((b.messages lib).filter fun msg => a ≤ msg.offset ∧ msg.offset < e) =
      slice start (contents lib (front ++ b :: back)) current (min b.nextOffset e) := by
  have hsame : ((b.messages lib).filter fun msg => a ≤ msg.offset ∧ msg.offset < e) =
      (b.messages lib).filter fun msg => current ≤ msg.offset ∧ msg.offset < e := by
    refine filter_congr fun msg hmsg => ?_
    obtain ⟨i, hi⟩ := mem_iff_getElem?.mp hmsg
    have := hgood.consecutive i msg hi
    simp only [decide_eq_decide]
    omega
  have hlength := length_contents lib hfront
  have hdrop : (contents lib (front ++ b :: back)).drop (current - start) =
      (b.messages lib).drop (current - b.baseOffset) ++ contents lib back := by
    have hsplit : current - start = (contents lib front).length + (current - b.baseOffset) := by omega
    rw [contents_split, hsplit, ← drop_drop, drop_left, drop_append_of_le_length]
    rw [Batch.length_messages]
    rw [Batch.nextOffset] at hlt
    omega
  have hrest : ((b.messages lib).drop (current - b.baseOffset)).length = b.nextOffset - current := by
    rw [length_drop, Batch.length_messages, Batch.nextOffset]
    omega
  rw [hsame, filter_consecutive hgood.consecutive hge, slice, hdrop,
    take_append_of_le_length (by omega), take_eq_take_iff]
  omega

/-- The loop of `ReadRange` goes on from an offset up to which everything has been read, and which is
where the range or a batch begins. -/
lemma Consists.readFrom {startOffset endOffset maxMessages : Nat} (h : seg.Consists lib bs)
    (hstart : seg.baseOffset ≤ startOffset) (hend : endOffset ≤ seg.nextOffset)
    (fuel current : Nat) (messages : List Message)
    (hcurrent : startOffset ≤ current) (hfuel : endOffset - current ≤ fuel)
    (hedge : current = startOffset ∨ ∃ front back, bs = front ++ back ∧
      Row seg.baseOffset front current)
    (hmessages : messages = (slice seg.baseOffset (contents lib bs) startOffset
      (min current endOffset)).take maxMessages) :
    seg.readFrom lib startOffset endOffset maxMessages fuel current messages =
      some (.ok ((slice seg.baseOffset (contents lib bs) startOffset endOffset).take maxMessages)) := by
  induction fuel generalizing current messages with
  | zero =>
    rw [Segment.readFrom, if_neg (by omega),
      ← take_slice_of_done hstart hcurrent hmessages (by omega)]
  | succ fuel ih =>
    rw [Segment.readFrom]
    split
    · rename_i hmore
      obtain ⟨hlt, hroom⟩ := hmore
      -- The batch that holds the current offset.
      obtain ⟨front, b, back, rfl, hfront, hge, hlt', hfirst⟩ : ∃ front b back,
          bs = front ++ b :: back ∧ Row seg.baseOffset front b.baseOffset ∧
            b.baseOffset ≤ current ∧ current < b.nextOffset ∧
            (current = startOffset ∨ b.baseOffset = current) := by
        rcases hedge with rfl | ⟨front, back, rfl, hfront⟩
        · obtain ⟨front, b, back, hsplit, hfront, hback, hin⟩ :=
            h.row.exists_split current hstart (by omega)
          exact ⟨front, b, back, hsplit, hfront, hin.1, hin.2, .inl rfl⟩
        obtain ⟨mid, hfront', hback⟩ := Tiles.append_iff.mp h.row
        obtain rfl : mid = current := by
          have := length_contents lib hfront
          have := length_contents lib hfront'
          omega
        cases back with
        | nil =>
          obtain rfl : mid = seg.nextOffset := hback
          omega
        | cons b back =>
          obtain ⟨rfl, hrest⟩ := hback
          have hgood : b.Good lib := h.good b (mem_append_right _ mem_cons_self)
          exact ⟨front, b, back, rfl, hfront, Nat.le_refl _, hgood.base_lt_next, .inr rfl⟩
      have hgood : b.Good lib := h.good b (mem_append_right _ mem_cons_self)
      have hfound := filter_messages back (e := endOffset) hgood hfront hge hlt' hcurrent hfirst
      rw [Nat.min_eq_left (Nat.le_of_lt hlt)] at hmessages
      simp only [h.readBatchContaining hge hlt', Batch.nextOffset_decoded]
      refine ih b.nextOffset _ (by omega) (by omega)
        (.inr ⟨front ++ [b], back, by simp, Tiles.append_iff.mpr ⟨_, hfront, rfl, rfl⟩⟩) ?_
      rw [← Batch.messages, hfound]
      exact take_slice_append hstart hcurrent (by omega) hmessages hroom
    · rename_i hdone
      rw [← take_slice_of_done hstart hcurrent hmessages hdone]

/-- `ReadRange` within a segment gives the messages of the range, up to the number asked for. -/
theorem Consists.readRange {startOffset endOffset : Nat} (h : seg.Consists lib bs)
    (hstart : seg.baseOffset ≤ startOffset) (hend : endOffset ≤ seg.nextOffset) (maxMessages : Nat) :
    seg.readRange lib startOffset endOffset maxMessages =
      some (.ok ((slice seg.baseOffset (contents lib bs) startOffset endOffset).take maxMessages)) := by
  refine h.readFrom hstart hend _ _ _ (Nat.le_refl _) (Nat.le_refl _) (.inl rfl) ?_
  rw [slice, Nat.sub_eq_zero_of_le (Nat.min_le_left _ _), take_zero, take_nil]

end Segment

end FluxMQ.Logstorage
