import FluxMQ.Library.Framing
import FluxMQ.Logstorage.SegmentFiles

/-!
# Recovery of damaged segments

`logstorage/recovery.go`: each segment file is cut behind its last valid batch, where a batch is valid if
its magic number, its length and its checksum are. The manager is then opened on what is left.

* `recoverSegment` keeps the longest row of valid batches of a file, whatever has happened to it, and
  that is a segment which opens.
* If the checks find all damage, the batches that are kept are those that were written, and each of their
  offsets gives the record that was appended there.
* What is cut off a segment that is not the last one leaves offsets between head and tail that cannot
  be read.

The rebuilding of indexes is left out.
-/

namespace FluxMQ.Logstorage

open Tiling Transition FluxMQ.Logstorage.SegmentManager Batch Framing FluxMQ.Logstorage.Segment List

/-- How the scan of `RecoverSegment` ends. -/
inductive RecoveryEnd where
  | complete
  /-- Less than a header is left. -/
  | shortHeader
  | invalid
  | crcMismatch
  deriving Repr, DecidableEq

/-- The loop of `RecoverSegment`, for at most `fuel` batches: the last valid position, and the number of
records in front of it. -/
def recoverFrom (lib : BatchLibraries) (file : ByteString) :
    (fuel pos messagesRecovered : Nat) → Nat × Nat × RecoveryEnd
  | 0, pos, messagesRecovered => (pos, messagesRecovered, .complete)
  | fuel + 1, pos, messagesRecovered =>
    if pos < file.length then
      match decodeBatchHeader (file.drop pos) with
      | none => (pos, messagesRecovered, .shortHeader)
      | some (header, _) =>
        let totalSize := batchHeaderSize + header.batchLen
        if header.magic ≠ segmentMagic then (pos, messagesRecovered, .invalid)
        else if file.length < pos + totalSize then (pos, messagesRecovered, .invalid)
        else if header.storedCRC ≠ (lib.checksum (((file.drop pos).take totalSize).drop 8)).toNat then
          (pos, messagesRecovered, .crcMismatch)
        else recoverFrom lib file fuel (pos + totalSize) (messagesRecovered + header.count)
    else (pos, messagesRecovered, .complete)

/-- `RecoveryResult`. Of an error only the position is kept. -/
structure RecoveryResult where
  segmentsRecovered : Nat := 0
  segmentsTruncated : Nat := 0
  messagesRecovered : Nat := 0
  bytesTruncated : Nat := 0
  errors : List Nat := []
  deriving Repr, DecidableEq

/-- `RecoverSegment`: what is left of the file, and the result. Bytes too few for a header are cut off
without being counted. -/
def recoverSegment (lib : BatchLibraries) (file : ByteString) : ByteString × RecoveryResult :=
  let (lastValidPos, messagesRecovered, reason) := recoverFrom lib file file.length 0 0
  (file.take lastValidPos,
    { segmentsRecovered := 1
      segmentsTruncated := if lastValidPos < file.length then 1 else 0
      messagesRecovered
      bytesTruncated :=
        match reason with
        | .complete | .shortHeader => 0
        | .invalid | .crcMismatch => file.length - lastValidPos
      errors := if reason = .crcMismatch then [lastValidPos] else [] })

/-- The results of two segments. -/
def RecoveryResult.add (a b : RecoveryResult) : RecoveryResult where
  segmentsRecovered := a.segmentsRecovered + b.segmentsRecovered
  segmentsTruncated := a.segmentsTruncated + b.segmentsTruncated
  messagesRecovered := a.messagesRecovered + b.messagesRecovered
  bytesTruncated := a.bytesTruncated + b.bytesTruncated
  errors := a.errors ++ b.errors

/-- `RecoverSegments` of the files of a directory, given by base offset. -/
def recoverSegments (lib : BatchLibraries) (files : List (Nat × ByteString)) :
    List (Nat × ByteString) × RecoveryResult :=
  (files.map fun file => (file.1, (recoverSegment lib file.2).1),
    (files.map fun file => (recoverSegment lib file.2).2).foldl RecoveryResult.add {})

/-! ### Batches as frames -/

/-- How long the valid batch at the front of the bytes is. -/
def frameSize (lib : BatchLibraries) (data : ByteString) : Option Nat :=
  match decodeBatchHeader data with
  | none => none
  | some (header, _) =>
    let totalSize := batchHeaderSize + header.batchLen
    if header.magic = segmentMagic ∧ totalSize ≤ data.length ∧
        header.storedCRC = (lib.checksum ((data.take totalSize).drop 8)).toNat then some totalSize
    else none

variable {data : ByteString}

lemma frameSize_eq_some {lib : BatchLibraries} {n : Nat} :
    frameSize lib data = some n ↔ ∃ header rest, decodeBatchHeader data = some (header, rest) ∧
      n = batchHeaderSize + header.batchLen ∧ header.magic = segmentMagic ∧ n ≤ data.length ∧
      header.storedCRC = (lib.checksum ((data.take n).drop 8)).toNat := by
  unfold frameSize
  split
  · rename_i hnone
    simp [hnone]
  rename_i header rest hsome
  simp only [hsome]
  constructor
  · intro h
    split at h
    · rename_i hvalid
      obtain rfl := Option.some.inj h
      exact ⟨header, rest, rfl, rfl, hvalid⟩
    · exact nomatch h
  · rintro ⟨header', rest', heq, rfl, hvalid⟩
    obtain ⟨rfl, rfl⟩ := Prod.mk.inj (Option.some.inj heq)
    exact if_pos hvalid

section

variable {lib : BatchLibraries} {data : ByteString} {n : Nat} (h : frameSize lib data = some n)
include h

lemma frameSize_pos : 0 < n := by
  obtain ⟨header, rest, -, rfl, -⟩ := frameSize_eq_some.mp h
  rw [batchHeaderSize]
  omega

lemma frameSize_le : n ≤ data.length := by
  obtain ⟨header, rest, -, -, -, hle, -⟩ := frameSize_eq_some.mp h
  exact hle

lemma frameSize_take_append (more : ByteString) : frameSize lib (data.take n ++ more) = some n := by
  obtain ⟨header, rest, hheader, hn, hmagic, hle, hcrc⟩ := frameSize_eq_some.mp h
  have hlength : (data.take n).length = n := by rw [length_take, Nat.min_eq_left hle]
  have htake := fixed_decodeBatchHeader.take stable_decodeBatchHeader
    (by omega : batchHeaderSize ≤ n) hheader
  refine frameSize_eq_some.mpr
    ⟨header, _, stable_decodeBatchHeader _ _ _ more htake, hn, hmagic, ?_, ?_⟩
  · rw [length_append, hlength]
    exact Nat.le_add_right _ _
  · rw [take_left' hlength]
    exact hcrc

end

/-- Batches are frames: a header is read from the batch alone. -/
def batchFraming (lib : BatchLibraries) : Framing UInt8 where
  size := frameSize lib
  pos := frameSize_pos
  le_length := frameSize_le
  size_take_append more h := frameSize_take_append h more

section

variable {lib : BatchLibraries} {file : ByteString}

/-- The scan goes from one valid batch to the next. -/
lemma recoverFrom_eq (lib : BatchLibraries) (fuel pos messagesRecovered : Nat) (hpos : pos ≤ file.length) :
    (recoverFrom lib file fuel pos messagesRecovered).1 =
      pos + (batchFraming lib).wholeLength fuel (file.drop pos) := by
  induction fuel generalizing pos messagesRecovered with
  | zero => rfl
  | succ fuel ih =>
    have hsize : (batchFraming lib).size (file.drop pos) = frameSize lib (file.drop pos) := rfl
    rw [recoverFrom, wholeLength, hsize, frameSize]
    split
    · cases hheader : decodeBatchHeader (file.drop pos) with
      | none => rfl
      | some read =>
        obtain ⟨header, rest⟩ := read
        have hlength := length_drop (i := pos) (l := file)
        by_cases hmagic : header.magic = segmentMagic
        · by_cases hroom : file.length < pos + (batchHeaderSize + header.batchLen)
          · have hshort : ¬ (batchHeaderSize + header.batchLen ≤ (file.drop pos).length) := by omega
            simp only [hmagic, hroom, hshort, ne_eq, not_true_eq_false, if_false, if_true, false_and,
              and_false, Nat.add_zero]
          have hfits : batchHeaderSize + header.batchLen ≤ (file.drop pos).length := by omega
          by_cases hcrc : header.storedCRC = (lib.checksum
              (((file.drop pos).take (batchHeaderSize + header.batchLen)).drop 8)).toNat
          · simp only [hmagic, hroom, hfits, hcrc, ne_eq, not_true_eq_false, if_false, and_self, if_true]
            rw [ih _ _ (by omega), drop_drop, Nat.add_assoc]
          · simp [hmagic, hroom, hcrc]
        · simp [hmagic]
    · -- At the end of the file there is no header.
      have hnone : decodeBatchHeader (file.drop pos) = none := by
        refine fixed_decodeBatchHeader.short _ ?_
        rw [length_drop, batchHeaderSize]
        omega
      rw [hnone]
      rfl

/-- What is left of a file is the longest row of valid batches at its front. -/
lemma recoverSegment_eq (file : ByteString) :
    (recoverSegment lib file).1 = (batchFraming lib).whole file := by
  have hscan := recoverFrom_eq lib file.length 0 0 (Nat.zero_le file.length)
  rw [Nat.zero_add, drop_zero] at hscan
  rw [whole, ← hscan]
  rfl

/-- A row of valid batches is a segment that opens. -/
lemma isSome_scanFrom (hdata : (batchFraming lib).Framed data) (fuel pos : Nat)
    (seg : Segment) (hpos : pos + data.length = file.length) (hfile : file.drop pos = data)
    (hfuel : data.length ≤ fuel) : (scanFrom file fuel pos seg).isSome = true := by
  induction hdata generalizing fuel pos seg with
  | nil =>
    have hend : ¬ pos < file.length := by
      rw [length_nil] at hpos
      omega
    cases fuel <;> simp [scanFrom, hend]
  | @cons frame rest hframe hrest ih =>
    have hsize := hframe.size_append rest
    have hframePos := (batchFraming lib).pos hsize
    rw [length_append] at hpos hfuel
    obtain ⟨fuel, rfl⟩ : ∃ m, fuel = m + 1 := ⟨fuel - 1, by omega⟩
    obtain ⟨header, rest', hheader, hn, hmagic, -, -⟩ := frameSize_eq_some.mp hsize
    have hroom : ¬ (header.magic ≠ segmentMagic ∨
        file.length < pos + (batchHeaderSize + header.batchLen)) := by
      omega
    rw [scanFrom, if_pos (by omega), hfile, hheader]
    simp only [if_neg hroom]
    rw [← hn]
    refine ih _ _ _ (by omega) ?_ (by omega)
    rw [← drop_drop, hfile, drop_left]

/-- `OpenSegment` accepts every recovered segment. -/
lemma isSome_openSegment_recoverSegment (lib : BatchLibraries) (file : ByteString) (baseOffset : Nat) (modTime : Time) :
    (openSegment baseOffset modTime (recoverSegment lib file).1).isSome = true := by
  rw [recoverSegment_eq]
  exact isSome_scanFrom (isLongest_whole file).framed _ 0 _ (Nat.zero_add _) rfl (Nat.le_refl _)

lemma Batch.Good.isFrame {b : Batch} (h : b.Good lib) : (batchFraming lib).IsFrame (b.bytes lib) := by
  obtain ⟨hmagic, -, -, hlength⟩ := h.header_eq
  have hheader := decodeBatchHeader_bytes lib b []
  rw [append_nil] at hheader
  refine frameSize_eq_some.mpr ⟨_, _, hheader, hlength.symm, hmagic, Nat.le_refl _, ?_⟩
  rw [take_length, drop_eight_bytes]
  rfl

/-- A row of valid batches at the front of good ones consists of the first of them. -/
lemma exists_eq_flatMap_bytes (hdata : (batchFraming lib).Framed data)
    {bs : List Batch} (hgood : ∀ b ∈ bs, b.Good lib) (hpre : data <+: bs.flatMap (bytes lib)) :
    ∃ front back, bs = front ++ back ∧ data = front.flatMap (bytes lib) := by
  induction hdata generalizing bs with
  | nil => exact ⟨[], bs, rfl, rfl⟩
  | @cons frame rest hframe hrest ih =>
    cases bs with
    | nil =>
      have hnil := prefix_nil.mp hpre
      have hpos := (batchFraming lib).pos hframe
      rw [(append_eq_nil_iff.mp hnil).1] at hpos
      exact absurd hpos (Nat.lt_irrefl 0)
    | cons b bs =>
      rw [forall_mem_cons] at hgood
      obtain rfl : frame = b.bytes lib := hframe.unique hgood.1.isFrame
        ((prefix_append frame rest).trans hpre) (prefix_append _ _)
      obtain ⟨front, back, rfl, rfl⟩ := ih hgood.2 ((prefix_append_right_inj _).mp hpre)
      exact ⟨b :: front, back, rfl, rfl⟩

/-- Good batches between an offset and itself are none. -/
lemma row_self_eq_nil {bs : List Batch} {offset : Nat} (hgood : ∀ b ∈ bs, b.Good lib)
    (hrow : Row offset bs offset) : bs = [] := by
  cases bs with
  | nil => rfl
  | cons b bs =>
    obtain ⟨rfl, hrest⟩ := hrow
    have hlt := (hgood b mem_cons_self).base_lt_next
    have hle := hrest.le fun b' _ => b'.base_le_next
    omega

/-- What is recovered of a segment, if all damage to it is found: a first part of what it stored, and
all of it exactly if no byte of it was lost. -/
lemma Segment.Stores.recover {log : List Message} {seg : Segment} (h : seg.Stores lib log)
    {damaged : ByteString} (hdamage : (batchFraming lib).Detects seg.file damaged) (modTime : Time) :
    ∃ seg', Logstorage.openSegment seg.baseOffset modTime (recoverSegment lib damaged).1 = some seg' ∧
      seg'.Stores lib log ∧ seg'.baseOffset = seg.baseOffset ∧ seg'.nextOffset ≤ seg.nextOffset ∧
      (seg'.nextOffset = seg.nextOffset ↔ (recoverSegment lib damaged).1 = seg.file) := by
  obtain ⟨bs, hbs, hheld⟩ := h.held
  -- The batches that are left are the first ones.
  have hpre := whole_prefix_of_detects hdamage
  rw [hbs.file] at hpre
  obtain ⟨front, back, rfl, hfront⟩ :=
    exists_eq_flatMap_bytes (isLongest_whole damaged).framed hbs.good hpre
  obtain ⟨mid, hrow, hback⟩ := Tiles.append_iff.mp hbs.row
  have hgood : ∀ b ∈ front, b.Good lib := fun b hb => hbs.good b (mem_append_left _ hb)
  have hgoodBack : ∀ b ∈ back, b.Good lib := fun b hb => hbs.good b (mem_append_right _ hb)
  have hle : mid ≤ seg.nextOffset := hback.le fun b _ => b.base_le_next
  have hlength := length_contents lib hrow
  have hopen := openSegment_eq hgood hrow modTime
  rw [recoverSegment_eq, hfront]
  refine ⟨_, hopen, ⟨Nat.le_trans hle h.within, front, ⟨hgood, hrow, rfl, rfl, rfl⟩, ?_⟩, rfl, hle, ?_⟩
  · have hpart := forall₂_take (mid - seg.baseOffset) hheld
    have hslice : (slice 0 log seg.baseOffset seg.nextOffset).take (mid - seg.baseOffset) =
        slice 0 log seg.baseOffset mid := by
      rw [← slice_slice (Nat.zero_le _) (Nat.le_refl seg.baseOffset) hle, slice, slice, Nat.sub_self]
      rfl
    have hcontents : (contents lib (front ++ back)).take (mid - seg.baseOffset) = contents lib front := by
      rw [contents, flatMap_append]
      exact take_left' (by rw [contents] at hlength; omega)
    rw [hslice, hcontents] at hpart
    exact hpart
  constructor
  · intro heq
    obtain rfl : mid = seg.nextOffset := heq
    rw [row_self_eq_nil hgoodBack hback, append_nil] at hbs
    exact hbs.file.symm
  intro heq
  rw [hbs.file, flatMap_append, self_eq_append_right] at heq
  have hnone : back = [] := by
    cases back with
    | nil => rfl
    | cons b back =>
      have hpos := (batchFraming lib).pos (hgoodBack b mem_cons_self).isFrame
      rw [(append_eq_nil_iff.mp heq).1] at hpos
      exact absurd hpos (Nat.lt_irrefl 0)
  subst hnone
  exact hback

end

/-! ### The log after recovery -/

section

variable {lib : BatchLibraries} {log : List Message} {m : SegmentManager} {damaged : Nat → ByteString}
  {modTime : Nat → Time}

/-- The files of a manager after damage, given by base offset, and recovery. -/
def recoveredFiles (lib : BatchLibraries) (m : SegmentManager) (damaged : Nat → ByteString) :
    List (Nat × ByteString) :=
  (recoverSegments lib (m.files.map fun file => (file.1, damaged file.1))).1

/-- What a segment is opened as after damage and recovery. -/
def recoveredSegment (lib : BatchLibraries) (damaged : Nat → ByteString) (modTime : Nat → Time)
    (seg : Segment) : Segment :=
  (openSegment seg.baseOffset (modTime seg.baseOffset)
    (recoverSegment lib (damaged seg.baseOffset)).1).getD seg

/-- Every directory of a manager can be opened after recovery, whatever has happened to its files. -/
lemma loadSegments_recoveredFiles (h : m.Stores lib log) (damaged : Nat → ByteString)
    (modTime : Nat → Time) : loadSegments modTime (recoveredFiles lib m damaged) =
      some (m.segments.map (recoveredSegment lib damaged modTime)) := by
  have hfiles : recoveredFiles lib m damaged = m.segments.map fun seg =>
      (seg.baseOffset, (recoverSegment lib (damaged seg.baseOffset)).1) := by
    simp [recoveredFiles, recoverSegments, files]
  rw [hfiles]
  refine loadSegments_eq h.sorted fun seg _ => ?_
  obtain ⟨seg', hopen⟩ := Option.isSome_iff_exists.mp
    (isSome_openSegment_recoverSegment lib (damaged seg.baseOffset) seg.baseOffset
      (modTime seg.baseOffset))
  rw [recoveredSegment, hopen]
  rfl

/-- What is left of each segment if all damage is found. -/
lemma recoveredSegment_spec (h : m.Stores lib log) (modTime : Nat → Time)
    (hdamage : ∀ seg ∈ m.segments, (batchFraming lib).Detects seg.file (damaged seg.baseOffset)) :
    ∀ seg ∈ m.segments, (recoveredSegment lib damaged modTime seg).Stores lib log ∧
      (recoveredSegment lib damaged modTime seg).baseOffset = seg.baseOffset ∧
      (recoveredSegment lib damaged modTime seg).nextOffset ≤ seg.nextOffset ∧
      ((recoveredSegment lib damaged modTime seg).nextOffset = seg.nextOffset ↔
        (recoverSegment lib (damaged seg.baseOffset)).1 = seg.file) := by
  intro seg hseg
  obtain ⟨seg', hopen, hspec⟩ :=
    (h.stores seg hseg).recover (hdamage seg hseg) (modTime seg.baseOffset)
  rw [recoveredSegment, hopen]
  exact hspec

/-- The manager after recovery. -/
lemma newSegmentManager_recoveredFiles (h : m.Stores lib log) (damaged : Nat → ByteString)
    (modTime : Nat → Time) (now : Time) :
    ∃ m', newSegmentManager modTime now (recoveredFiles lib m damaged) = some m' ∧
      m'.segments = m.segments.map (recoveredSegment lib damaged modTime) ∧
      m'.headOffset =
        (recoveredSegment lib damaged modTime (m.segments.head m.nonempty)).baseOffset ∧
      m'.tailOffset = (recoveredSegment lib damaged modTime m.activeSegment).nextOffset := by
  have hne : m.segments.map (recoveredSegment lib damaged modTime) ≠ [] :=
    fun heq => m.nonempty (map_eq_nil_iff.mp heq)
  rw [newSegmentManager, loadSegments_recoveredFiles h, Option.map_some, dif_neg hne]
  refine ⟨_, rfl, rfl, ?_, ?_⟩
  · rw [head_map]
  · rw [getLast_map, activeSegment]

/-- A log with holes: the segments store parts of the log, one behind the other. -/
structure SegmentManager.StoresParts (lib : BatchLibraries) (log : List Message) (m : SegmentManager) :
    Prop extends m.Ordered where
  stores : ∀ seg ∈ m.segments, seg.Stores lib log

/-- What is read of a log with holes. -/
lemma SegmentManager.StoresParts.read (h : m.StoresParts lib log) (offset : Nat) :
    if ∃ seg ∈ m.segments, seg.baseOffset ≤ offset ∧ offset < seg.nextOffset then
      ∃ original msg, log[offset]? = some original ∧ m.read lib offset = .ok msg ∧ original.Same msg
    else m.read lib offset = .error .offsetOutOfRange := by
  split
  · rename_i hin
    obtain ⟨seg, hseg, hbase, hnext⟩ := hin
    rw [SegmentManager.read, h.findSegment_eq_some hseg hbase hnext]
    exact (h.stores seg hseg).read hbase hnext
  · rename_i hout
    rw [SegmentManager.read, h.findSegment_eq_none fun seg hseg hin => hout ⟨seg, hseg, hin⟩]

section

variable {m' : SegmentManager} (h : m.Stores lib log)
  (hdamage : ∀ seg ∈ m.segments, (batchFraming lib).Detects seg.file (damaged seg.baseOffset))
  (hsegments : m'.segments = m.segments.map (recoveredSegment lib damaged modTime))
include h hdamage hsegments

lemma storesParts_recovered : m'.StoresParts lib log := by
  have hspec := recoveredSegment_spec h modTime hdamage
  have hstores : ∀ seg ∈ m'.segments, seg.Stores lib log := by
    intro seg' hseg'
    rw [hsegments] at hseg'
    obtain ⟨seg, hseg, rfl⟩ := mem_map.mp hseg'
    exact (hspec seg hseg).1
  refine ⟨⟨fun seg hseg => (hstores seg hseg).base_le_next, ?_⟩, hstores⟩
  rw [hsegments, pairwise_map]
  refine h.ordered.apart.imp_of_mem fun {a b} ha hb hab => ?_
  rw [(hspec b hb).2.1]
  exact Nat.le_trans (hspec a ha).2.2.1 hab

variable (htail : m'.tailOffset = (recoveredSegment lib damaged modTime m.activeSegment).nextOffset)
include htail

/-- If the segments but the last one have lost nothing, they still follow each other. -/
lemma tiles_recovered
    (hwhole : ∀ seg ∈ m.segments.dropLast, (recoverSegment lib (damaged seg.baseOffset)).1 = seg.file) :
    Tiles Segment.baseOffset Segment.nextOffset m.headOffset m'.segments m'.tailOffset := by
  have hspec := recoveredSegment_spec h modTime hdamage
  obtain ⟨hsplit, hfront, -⟩ := h.activeSegment
  rw [hsegments, hsplit, htail, map_append]
  refine Tiles.append_iff.mpr ⟨m.activeSegment.baseOffset, Tiles.map_iff.mpr ?_, ?_, rfl⟩
  · refine hfront.congr fun seg hseg => ?_
    have hmem : seg ∈ m.segments := dropLast_subset _ hseg
    exact ⟨(hspec seg hmem).2.1, (hspec seg hmem).2.2.2.mpr (hwhole seg hseg)⟩
  · exact (hspec _ (getLast_mem m.nonempty)).2.1

/-- Batches that were lost from a segment that is not the last one leave a hole. -/
lemma exists_hole {seg : Segment} (hseg : seg ∈ m.segments.dropLast)
    (hlost : (recoverSegment lib (damaged seg.baseOffset)).1 ≠ seg.file) :
    ∃ offset, m.headOffset ≤ offset ∧ offset < m'.tailOffset ∧
      m'.read lib offset = .error .offsetOutOfRange := by
  have hspec := recoveredSegment_spec h modTime hdamage
  have hmem : seg ∈ m.segments := dropLast_subset _ hseg
  obtain ⟨hstores, hbase, hle, hiff⟩ := hspec seg hmem
  have hlt : (recoveredSegment lib damaged modTime seg).nextOffset < seg.nextOffset :=
    Nat.lt_of_le_of_ne hle fun heq => hlost (hiff.mp heq)
  have hown := hstores.base_le_next
  have hhead := (h.tiles.mem_le h.segment_le hmem).1
  obtain ⟨hsplit, -, -⟩ := h.activeSegment
  refine ⟨(recoveredSegment lib damaged modTime seg).nextOffset, by omega, ?_, ?_⟩
  · -- The last segment begins behind it.
    have hactive := hspec _ (getLast_mem m.nonempty)
    have hlast := hactive.1.base_le_next
    have hapart := h.ordered.apart
    rw [hsplit, pairwise_append] at hapart
    have hbehind := hapart.2.2 seg hseg m.activeSegment mem_cons_self
    rw [activeSegment] at hbehind htail
    omega
  have hread := (storesParts_recovered h hdamage hsegments).read
    (recoveredSegment lib damaged modTime seg).nextOffset
  rw [if_neg] at hread
  · exact hread
  rintro ⟨other', hother', hin⟩
  rw [hsegments] at hother'
  obtain ⟨other, hother, rfl⟩ := mem_map.mp hother'
  obtain ⟨-, hotherBase, hotherLe, -⟩ := hspec other hother
  -- Another segment ends before this one, or begins behind it.
  obtain ⟨front, back, hsplit⟩ := append_of_mem hmem
  have hapart := h.ordered.apart
  rw [hsplit, pairwise_append, pairwise_cons] at hapart
  rw [hsplit] at hother
  obtain hother | hother := mem_append.mp hother
  · have := hapart.2.2 other hother seg mem_cons_self
    omega
  obtain rfl | hother := mem_cons.mp hother
  · omega
  · have := hapart.2.1.1 other hother
    omega

end

end

namespace LogState

variable {cfg : ManagerConfig} {lib : BatchLibraries}

/-- Recovery after any run and any damage: each file keeps its longest row of valid batches, and the
manager opens. If the checks find all damage, the records that are left can be read, and there is a hole
between head and tail exactly if a segment other than the last one has lost some. -/
theorem recovered_run (cfg : ManagerConfig) (lib : BatchLibraries) (start : Time)
    (actions : List LogAction) (h : Along (step cfg lib) (Admissible cfg lib) (new start) actions)
    (damaged : Nat → ByteString) (modTime : Nat → Time) (now : Time) :
    let s := run (step cfg lib) (new start) actions
    (∀ file, (batchFraming lib).IsLongest file (recoverSegment lib file).1 ∧
      (recoverSegment lib (recoverSegment lib file).1).1 = (recoverSegment lib file).1 ∧
      ∀ baseOffset modTime,
        (openSegment baseOffset modTime (recoverSegment lib file).1).isSome = true) ∧
    ∃ m, newSegmentManager modTime now (recoveredFiles lib s.manager damaged) = some m ∧
      ((∀ seg ∈ s.manager.segments, (batchFraming lib).Detects seg.file (damaged seg.baseOffset)) →
        (∀ offset, if ∃ seg ∈ m.segments, seg.baseOffset ≤ offset ∧ offset < seg.nextOffset then
            ∃ original msg, s.log[offset]? = some original ∧ m.read lib offset = .ok msg ∧
              original.Same msg
          else m.read lib offset = .error .offsetOutOfRange) ∧
        ((∀ offset, m.headOffset ≤ offset → offset < m.tailOffset →
            ∃ original msg, s.log[offset]? = some original ∧ m.read lib offset = .ok msg ∧
              original.Same msg) ↔
          ∀ seg ∈ s.manager.segments.dropLast,
            (recoverSegment lib (damaged seg.baseOffset)).1 = seg.file)) := by
  intro s
  have hstores : s.manager.Stores lib s.log := stores_run h
  refine ⟨fun file => ?_, ?_⟩
  · rw [recoverSegment_eq, recoverSegment_eq]
    refine ⟨Framing.isLongest_whole file, Framing.whole_whole file, fun baseOffset modTime => ?_⟩
    rw [← recoverSegment_eq]
    exact isSome_openSegment_recoverSegment lib file baseOffset modTime
  obtain ⟨m, hopen, hsegments, hhead, htail⟩ :=
    newSegmentManager_recoveredFiles hstores damaged modTime now
  refine ⟨m, hopen, fun hdamage => ?_⟩
  have hparts := storesParts_recovered hstores hdamage hsegments
  have hhead' : m.headOffset = s.manager.headOffset := by
    rw [hhead, (recoveredSegment_spec hstores modTime hdamage _ (head_mem _)).2.1]
    exact hstores.tiles.lo_head _
  refine ⟨hparts.read, fun hall seg hseg => ?_, fun hwhole offset hge hlt => ?_⟩
  · by_contra hlost
    obtain ⟨offset, hge, hlt, herror⟩ := exists_hole hstores hdamage hsegments htail hseg hlost
    obtain ⟨original, msg, -, hread, -⟩ := hall offset (hhead' ▸ hge) hlt
    rw [herror] at hread
    exact nomatch hread
  · have htiles := tiles_recovered hstores hdamage hsegments htail hwhole
    obtain ⟨front, seg, back, hsplit, -, -, hin⟩ := htiles.exists_split offset (hhead' ▸ hge) hlt
    have hread := hparts.read offset
    rwa [if_pos ⟨seg, hsplit ▸ mem_append_right front mem_cons_self, hin⟩] at hread

/-- The only segment is cut in its batch, and what is left of the log can be read. -/
theorem recovered_run_torn :
    let s := run (step {} Batch.plainLibraries) (new 0)
      [.append 5 990 [Batch.sampleItem (some [1])]]
    let damaged := fun _ => (s.manager.segments.flatMap Segment.file).take 50
    ∃ m, newSegmentManager (fun _ => 0) 0 (recoveredFiles Batch.plainLibraries s.manager damaged) =
        some m ∧
      ∀ offset, m.headOffset ≤ offset → offset < m.tailOffset →
        ∃ original msg, s.log[offset]? = some original ∧ m.read Batch.plainLibraries offset = .ok msg ∧
          original.Same msg := by
  intro s damaged
  obtain ⟨-, m, hopen, hread⟩ := recovered_run {} plainLibraries 0
    [.append 5 990 [sampleItem (some [1])]]
    ⟨⟨⟨⟨by decide +kernel, by decide +kernel⟩, (nonNil_sampleItem_iff _).mpr (by simp)⟩,
      ⟨by decide +kernel, by decide +kernel⟩, cons_ne_nil _ _⟩, trivial⟩ damaged (fun _ => 0) 0
  have hsingle : ∃ seg, s.manager.segments = [seg] := ⟨_, rfl⟩
  obtain ⟨seg, hseg⟩ := hsingle
  refine ⟨m, hopen, (hread fun seg' hseg' => ?_).2.mpr fun seg' hseg' => ?_⟩
  · rw [hseg] at hseg'
    obtain rfl := mem_singleton.mp hseg'
    refine detects_of_prefix ?_
    have hdamaged : damaged seg'.baseOffset = seg'.file.take 50 := by
      show (s.manager.segments.flatMap file).take 50 = _
      rw [hseg, flatMap_singleton]
    rw [hdamaged]
    exact take_prefix 50 _
  · exact nomatch hseg'

/-- Of two segments the first has a damaged byte. After recovery its record is missing between head and
tail. -/
theorem hole_after_recovery :
    let s := run (step { maxSegmentSize := 1 } Batch.plainLibraries) (new 0)
      [.append 0 0 [Batch.sampleItem (some [1])], .append 0 0 [Batch.sampleItem (some [1])]]
    let damaged := fun base =>
      if base = 0 then 0 :: ((s.manager.files.lookup 0).getD []).tail
      else (s.manager.files.lookup base).getD []
    ∃ m, newSegmentManager (fun _ => 0) 0 (recoveredFiles Batch.plainLibraries s.manager damaged) =
        some m ∧
      m.headOffset = 0 ∧ m.tailOffset = 2 ∧
      (m.read Batch.plainLibraries 0).toOption.isSome = false ∧
      (m.read Batch.plainLibraries 1).toOption.isSome = true := by
  intro s damaged
  have hstorable (tail : Nat) (htail : tail < 2) :
      (Batch.build tail 0 compressionS2 [Batch.sampleItem (some [1])]).Storable Batch.plainLibraries := by
    refine ⟨⟨⟨?_, ?_⟩, (Batch.nonNil_sampleItem_iff _).mpr (by simp)⟩, ⟨?_, ?_⟩, cons_ne_nil _ _⟩
    all_goals
      clear damaged s
      revert tail
      decide +kernel
  have hstores : s.manager.Stores Batch.plainLibraries s.log :=
    stores_run ⟨hstorable 0 (by decide), hstorable 1 (by decide), trivial⟩
  obtain ⟨m, hopen, hsegments, hhead, htail⟩ :=
    newSegmentManager_recoveredFiles hstores damaged (fun _ => 0) 0
  refine ⟨m, hopen, ?_, ?_, ?_, ?_⟩
  · rw [hhead]
    decide +kernel
  · rw [htail]
    decide +kernel
  · simp only [SegmentManager.read, SegmentManager.findSegment, hsegments]
    decide +kernel
  · simp only [SegmentManager.read, SegmentManager.findSegment, hsegments]
    decide +kernel

end LogState

end FluxMQ.Logstorage
