import FluxMQ.Library.Tiling
import FluxMQ.Logstorage.Log
import Mathlib.Data.List.TakeWhile

/-!
# The segmented log

`SegmentManager` of `logstorage/manager.go` keeps a queue log as a row of segments, each a file of
records with consecutive offsets. Appends go to the last segment; a full or old one is sealed and
a new one begun. Truncation deletes whole segments only, so it may keep records below its offset.

The segments of a manager follow each other without gaps from its head to its tail offset. The
readers of the log see the records between, which `toLog` collects: `toLog_append` and
`toLog_truncate` say what appends and truncations do to them.
-/

namespace FluxMQ

open Tiling List

/-- One segment file. -/
structure Segment where
  baseOffset : Nat
  /-- The records of its batches. -/
  records : List Record := []
  /-- The bytes written to it. -/
  size : Nat := 0
  createdAt : Time
  deriving DecidableEq

namespace Segment

variable (seg : Segment)

/-- The offset after its last record. -/
def nextOffset : Nat :=
  seg.baseOffset + seg.records.length

def isFull (maxSize : Nat) : Bool :=
  maxSize ≤ seg.size

/-- `IsExpired` at local time `now`. -/
def isExpired (now maxAge : Time) : Bool :=
  decide (0 < maxAge) && decide (maxAge < now - seg.createdAt)

/-- The segment holds the record at an offset. -/
def Holds (offset : Nat) : Prop :=
  seg.baseOffset ≤ offset ∧ offset < seg.nextOffset

end Segment

/-- The segments follow each other without a gap from `head` to `tail`. -/
def Spans : (head : Nat) → List Segment → (tail : Nat) → Prop
  | head, [], tail => head = tail
  | head, seg :: rest, tail => seg.baseOffset = head ∧ Spans seg.nextOffset rest tail

/-- The segments of one queue. The last of them is the active segment. -/
structure SegmentManager where
  segments : List Segment
  headOffset : Nat
  tailOffset : Nat
  nonempty : segments ≠ []
  spans : Spans headOffset segments tailOffset

lemma defaultSegmentSize_pos : 0 < 64 * 1024 * 1024 := by decide

/-- When a segment is sealed. A store is opened with the default sizes, so that an empty segment is
never full. -/
structure SegmentLimits where
  maxSegmentSize : Nat := 64 * 1024 * 1024
  maxSegmentAge : Time := 3600 * second
  size_pos : 0 < maxSegmentSize := by exact defaultSegmentSize_pos

section

variable {head tail before offset : Nat} {segments more : List Segment} {seg : Segment}

lemma Segment.base_le_next (seg : Segment) : seg.baseOffset ≤ seg.nextOffset := Nat.le_add_right _ _

lemma spans_iff :
    Spans head segments tail ↔ Tiles Segment.baseOffset Segment.nextOffset head segments tail := by
  induction segments generalizing head with
  | nil => exact Iff.rfl
  | cons seg rest ih => exact and_congr_right fun _ => ih

lemma Spans.append_iff :
    Spans head (segments ++ more) tail ↔ ∃ mid, Spans head segments mid ∧ Spans mid more tail := by
  simp only [spans_iff, Tiles.append_iff]

section

variable (h : Spans head segments tail)
include h

lemma Spans.le : head ≤ tail := (spans_iff.1 h).le fun seg _ => seg.base_le_next

/-- A segment lies between the head and the tail. -/
lemma Spans.mem_le (hseg : seg ∈ segments) : head ≤ seg.baseOffset ∧ seg.nextOffset ≤ tail :=
  (spans_iff.1 h).mem_le (fun seg _ => seg.base_le_next) hseg

/-- Every offset between head and tail is held by a segment. -/
lemma Spans.exists_holds (hge : head ≤ offset) (hlt : offset < tail) :
    ∃ seg ∈ segments, seg.Holds offset := by
  obtain ⟨front, seg, back, rfl, -, -, hholds⟩ := (spans_iff.1 h).exists_split offset hge hlt
  exact ⟨seg, by simp, hholds⟩

/-- The segments in front of a segment end where it begins. -/
lemma Spans.split (hseg : seg ∈ segments) :
    ∃ front back, segments = front ++ seg :: back ∧ Spans head front seg.baseOffset ∧
      Spans seg.nextOffset back tail := by
  obtain ⟨front, back, rfl⟩ := append_of_mem hseg
  obtain ⟨mid, hfront, rfl, hback⟩ := Spans.append_iff.1 h
  exact ⟨front, back, rfl, hfront, hback⟩

/-- The last segment ends at the tail. -/
lemma Spans.exists_last (hne : segments ≠ []) : ∃ seg ∈ segments, seg.nextOffset = tail := by
  rcases eq_nil_or_concat segments with rfl | ⟨front, seg, rfl⟩
  · exact absurd rfl hne
  · rw [concat_eq_append] at h
    obtain ⟨mid, -, -, hnext⟩ := Spans.append_iff.1 h
    exact ⟨seg, by simp, hnext⟩

/-- The segments determine where they begin. -/
lemma Spans.head_unique {head' tail' : Nat} (h' : Spans head' segments tail')
    (hne : segments ≠ []) : head = head' := by
  cases segments with
  | nil => exact absurd rfl hne
  | cons seg rest => exact h.1.symm.trans h'.1

lemma Spans.tail_eq : tail = head + (segments.flatMap Segment.records).length := by
  induction segments generalizing head with
  | nil => simpa [Spans] using h.symm
  | cons seg rest ih =>
    obtain ⟨rfl, hrest⟩ := h
    rw [ih hrest, flatMap_cons, length_append, Segment.nextOffset]
    omega

/-- The segments that end behind `before` are the last ones. Those in front are exactly what is
dropped. -/
lemma Spans.filter (before : Nat) :
    ∃ head', Spans head' (segments.filter fun seg => before < seg.nextOffset) tail ∧
      head ≤ head' ∧ (head' = head ∨ head' ≤ before) ∧
      (segments.filter fun seg => before < seg.nextOffset).flatMap Segment.records =
        (segments.flatMap Segment.records).drop (head' - head) := by
  obtain ⟨front, hsplit, hends⟩ :=
    (spans_iff.1 h).exists_filter (fun seg _ => seg.base_le_next) before
  generalize segments.filter (fun seg => before < seg.nextOffset) = kept at hsplit ⊢
  subst hsplit
  obtain ⟨head', hfront, hkept⟩ := Spans.append_iff.1 h
  refine ⟨head', hkept, hfront.le, ?_, ?_⟩
  · by_cases hne : front = []
    · subst hne
      exact Or.inl hfront.symm
    · obtain ⟨seg, hseg, rfl⟩ := hfront.exists_last hne
      exact Or.inr (hends seg hseg)
  · rw [flatMap_append, hfront.tail_eq, Nat.add_sub_cancel_left, drop_left]

end

end

namespace SegmentManager

variable (m : SegmentManager)

/-- `NewSegmentManager` on an empty directory. -/
def new (now : Time) : SegmentManager where
  segments := [{ baseOffset := 0, createdAt := now }]
  headOffset := 0
  tailOffset := 0
  nonempty := List.cons_ne_nil _ _
  spans := ⟨rfl, rfl⟩

def shouldRotate (limits : SegmentLimits) (now : Time) : Bool :=
  match m.segments.getLast? with
  | none => true
  | some active =>
    active.isFull limits.maxSegmentSize ||
      (decide (0 < limits.maxSegmentAge) && active.isExpired now limits.maxSegmentAge)

/-- The active segment begins at the tail: it holds no record. -/
def activeEmpty : Bool :=
  m.segments.getLast?.any fun active => active.baseOffset == m.tailOffset

/-- `rotate` begins a new segment at the tail. A segment is named by its first offset and its file
must be new, so that an empty segment cannot be followed by another. -/
def rotate (now : Time) : Option SegmentManager :=
  if m.activeEmpty then none
  else some
    { segments := m.segments ++ [{ baseOffset := m.tailOffset, createdAt := now }]
      headOffset := m.headOffset
      tailOffset := m.tailOffset
      nonempty := List.append_ne_nil_of_right_ne_nil _ (List.cons_ne_nil _ _)
      spans := by
        refine Spans.append_iff.2 ⟨m.tailOffset, m.spans, ?_⟩
        exact ⟨rfl, rfl⟩ }

/-- `Segment.Append` of a batch to the active segment. -/
def write (records : List Record) (bytes : Nat) : SegmentManager :=
  match hactive : m.segments.getLast? with
  | none => m
  | some active =>
    { segments := m.segments.dropLast ++
        [{ active with records := active.records ++ records, size := active.size + bytes }]
      headOffset := m.headOffset
      tailOffset := m.tailOffset + records.length
      nonempty := List.append_ne_nil_of_right_ne_nil _ (List.cons_ne_nil _ _)
      spans := by
        have hspans := m.spans
        rw [← List.dropLast_append_getLast? active hactive, Spans.append_iff] at hspans
        obtain ⟨mid, hfront, hbase, hnext⟩ := hspans
        refine Spans.append_iff.2 ⟨mid, hfront, hbase, ?_⟩
        show active.baseOffset + (active.records ++ records).length = m.tailOffset + records.length
        rw [← show active.baseOffset + active.records.length = m.tailOffset from hnext,
          List.length_append]
        omega }

/-- `appendLocked` of a batch that takes `bytes` bytes. It fails with a rotation that is due. -/
def append (limits : SegmentLimits) (now : Time) (records : List Record) (bytes : Nat) :
    Option SegmentManager :=
  if m.shouldRotate limits now then (m.rotate now).map fun m => m.write records bytes
  else some (m.write records bytes)

/-- A rotation is due that fails. -/
def blocked (limits : SegmentLimits) (now : Time) : Bool :=
  m.shouldRotate limits now && m.activeEmpty

/-- `Truncate` deletes the segments that end at or before an offset. -/
def truncate (now : Time) (beforeOffset : Nat) : SegmentManager :=
  let toKeep := m.segments.filter fun seg => beforeOffset < seg.nextOffset
  if hkeep : toKeep = [] then
    { segments := [{ baseOffset := beforeOffset, createdAt := now }]
      headOffset := beforeOffset
      tailOffset := beforeOffset
      nonempty := List.cons_ne_nil _ _
      spans := ⟨rfl, rfl⟩ }
  else
    { segments := toKeep
      headOffset := (toKeep.head hkeep).baseOffset
      tailOffset := m.tailOffset
      nonempty := hkeep
      spans := by
        obtain ⟨head', hspans, -⟩ := m.spans.filter beforeOffset
        obtain ⟨first, rest, heq⟩ := List.exists_cons_of_ne_nil hkeep
        rw [show m.segments.filter _ = first :: rest from heq] at hspans
        simp only [heq, List.head_cons, hspans.1]
        exact hspans }

/-- The loop of `RetentionOffsetBySize` over the segments. -/
def trimLoop (sizeToTrim : Int) (headOffset : Nat) : (trimmed : Int) → List Segment → Nat
  | _, [] => headOffset
  | trimmed, seg :: rest =>
    if trimmed + seg.size < sizeToTrim then trimLoop sizeToTrim headOffset (trimmed + seg.size) rest
    else seg.baseOffset

/-- `RetentionOffsetBySize`: the offset to keep so that the log is at most `retentionBytes` long,
whole segments at a time. -/
def retentionOffsetBySize (retentionBytes : Int) : Nat :=
  let totalSize : Int := (m.segments.map fun seg => (seg.size : Int)).sum
  if retentionBytes ≤ 0 ∨ totalSize ≤ retentionBytes then m.headOffset
  else trimLoop (totalSize - retentionBytes) m.headOffset 0 m.segments

/-- `findSegment`: the last segment that begins at or before the offset, if it holds it. -/
def findSegment (offset : Nat) : Option Segment :=
  (m.segments.takeWhile fun seg => seg.baseOffset ≤ offset).getLast?.filter
    fun seg => offset < seg.nextOffset

/-- `Read`: the record at an offset. -/
def read (offset : Nat) : Option Record :=
  (m.findSegment offset).bind fun seg => seg.records[offset - seg.baseOffset]?

/-- The log as its readers see it. -/
def toLog : Log :=
  { head := m.headOffset, records := m.segments.flatMap Segment.records }

variable {m} {offset : Nat}

/-! ### What readers see -/

@[simp]
lemma head_toLog : m.toLog.head = m.headOffset := rfl

@[simp]
lemma tail_toLog : m.toLog.tail = m.tailOffset := m.spans.tail_eq.symm

/-- A segment is found exactly when it holds the offset. -/
lemma findSegment_eq_some_iff {seg : Segment} :
    m.findSegment offset = some seg ↔ seg ∈ m.segments ∧ seg.Holds offset := by
  unfold findSegment
  rw [Option.filter_eq_some_iff]
  constructor
  · rintro ⟨hlast, hlt⟩
    have hmem := mem_of_getLast? hlast
    exact ⟨(takeWhile_subset _) hmem, by simpa using mem_takeWhile_imp hmem, by simpa using hlt⟩
  rintro ⟨hmem, hge, hlt⟩
  obtain ⟨front, back, hsplit, hfront, hback⟩ := m.spans.split hmem
  -- Everything up to the segment begins at or before the offset, and nothing behind it does.
  have hbefore : ∀ s ∈ front, decide (s.baseOffset ≤ offset) = true := by
    intro s hs
    have hnext := (hfront.mem_le hs).2
    have hlen : s.baseOffset ≤ s.nextOffset := Nat.le_add_right _ _
    simp only [decide_eq_true_eq]
    omega
  have hbehind : back.takeWhile (fun s => decide (s.baseOffset ≤ offset)) = [] := by
    cases back with
    | nil => rfl
    | cons s rest =>
      have hbase : s.baseOffset = seg.nextOffset := hback.1
      exact takeWhile_cons_of_neg (by simp only [decide_eq_true_eq]; omega)
  refine ⟨?_, by simpa using hlt⟩
  rw [hsplit, takeWhile_append_of_pos hbefore,
    takeWhile_cons_of_pos (by simpa using hge), hbehind, getLast?_concat]

/-- Readers see the records of the segments in a row. -/
lemma read_eq (m : SegmentManager) (offset : Nat) : m.read offset = m.toLog.record offset := by
  unfold read
  cases hfind : m.findSegment offset with
  | some seg =>
    obtain ⟨hmem, hge, hlt⟩ := findSegment_eq_some_iff.1 hfind
    obtain ⟨front, back, hsplit, hfront, hback⟩ := m.spans.split hmem
    have hlen := hfront.tail_eq
    have hnext : seg.nextOffset = seg.baseOffset + seg.records.length := rfl
    have hhead : m.headOffset ≤ offset := hfront.le.trans hge
    simp only [Option.bind_some, toLog, Log.record, if_pos hhead, hsplit, flatMap_append,
      flatMap_cons]
    rw [getElem?_append_right (by omega), getElem?_append_left (by omega)]
    congr 1
    omega
  | none =>
    have hout : ¬ (m.toLog.record offset).isSome := by
      rw [Log.record_isSome_iff, head_toLog, tail_toLog]
      rintro ⟨hge, hlt⟩
      obtain ⟨seg, hmem, hholds⟩ := m.spans.exists_holds hge hlt
      rw [findSegment_eq_some_iff.2 ⟨hmem, hholds⟩] at hfind
      cases hfind
    exact (Option.not_isSome_iff_eq_none.1 hout).symm

lemma toLog_rotate {m' : SegmentManager} {now : Time} (h : m.rotate now = some m') :
    m'.toLog = m.toLog := by
  unfold rotate at h
  split at h
  · cases h
  · obtain rfl := Option.some.inj h
    simp [toLog]

lemma toLog_write (records : List Record) (bytes : Nat) :
    (m.write records bytes).toLog = { m.toLog with records := m.toLog.records ++ records } := by
  unfold write
  split
  · rename_i hnone
    exact absurd (getLast?_eq_none_iff.1 hnone) m.nonempty
  rename_i active hactive
  have hsplit := dropLast_append_getLast? active hactive
  simp only [toLog, Log.mk.injEq, true_and]
  conv_rhs => rw [← hsplit]
  simp

/-- Rotation is invisible: the batch follows the records that are there. -/
theorem toLog_append {m' : SegmentManager} {limits : SegmentLimits} {now : Time}
    {records : List Record} {bytes : Nat} (h : m.append limits now records bytes = some m') :
    m'.toLog = { m.toLog with records := m.toLog.records ++ records } := by
  unfold append at h
  split at h
  · obtain ⟨rotated, hrotate, rfl⟩ := Option.map_eq_some_iff.1 h
    rw [toLog_write, toLog_rotate hrotate]
  · obtain rfl := Option.some.inj h
    rw [toLog_write]

/-- An append that needs no rotation of an empty segment succeeds. -/
lemma isSome_append {limits : SegmentLimits} {now : Time} {records : List Record} {bytes : Nat}
    (h : m.blocked limits now = false) : (m.append limits now records bytes).isSome := by
  unfold append
  split
  · rename_i hdue
    simp [rotate, show m.activeEmpty = false by simpa [blocked, hdue] using h]
  · rfl

/-- A log that was just created takes the first batch without a rotation. -/
lemma blocked_new (limits : SegmentLimits) (now : Time) :
    (new now).blocked limits now = false := by
  have hfull := limits.size_pos
  have hdue : (new now).shouldRotate limits now = false := by
    simp only [shouldRotate, new, getLast?_singleton, Segment.isFull, Segment.isExpired]
    simpa using ⟨hfull.ne', fun hage : 0 < limits.maxSegmentAge => hage.le⟩
  rw [blocked, hdue, Bool.false_and]

/-- What a truncation leaves: a fresh segment if every segment is deleted, and otherwise those that
end behind the offset. -/
lemma truncate_cases (m : SegmentManager) (now : Time) (beforeOffset : Nat) :
    ((m.segments.filter fun seg => beforeOffset < seg.nextOffset) = [] ∧
        (m.truncate now beforeOffset).segments = [{ baseOffset := beforeOffset, createdAt := now }] ∧
        (m.truncate now beforeOffset).headOffset = beforeOffset ∧ m.tailOffset ≤ beforeOffset) ∨
      ((m.truncate now beforeOffset).segments =
          (m.segments.filter fun seg => beforeOffset < seg.nextOffset) ∧
        (m.truncate now beforeOffset).tailOffset = m.tailOffset ∧ beforeOffset < m.tailOffset) := by
  by_cases hkeep : (m.segments.filter fun seg => beforeOffset < seg.nextOffset) = []
  · refine Or.inl ⟨hkeep, by simp [truncate, hkeep], by simp [truncate, hkeep], ?_⟩
    obtain ⟨seg, hmem, hnext⟩ := m.spans.exists_last m.nonempty
    have hnot := filter_eq_nil_iff.1 hkeep seg hmem
    rw [← hnext]
    simpa using hnot
  · refine Or.inr ⟨by simp [truncate, hkeep], by simp [truncate, hkeep], ?_⟩
    obtain ⟨seg, hmem⟩ := exists_mem_of_ne_nil _ hkeep
    obtain ⟨hmem, hlt⟩ := mem_filter.1 hmem
    exact lt_of_lt_of_le (by simpa using hlt) (m.spans.mem_le hmem).2

/-- A truncation removes a prefix of the log. -/
theorem toLog_truncate (m : SegmentManager) (now : Time) (beforeOffset : Nat) :
    (m.truncate now beforeOffset).toLog =
      m.toLog.dropBelow (m.truncate now beforeOffset).headOffset := by
  obtain ⟨head', hspans, hle, -, hdrop⟩ := m.spans.filter beforeOffset
  have htail := m.spans.tail_eq
  rcases m.truncate_cases now beforeOffset with ⟨-, hsegments, hhead, hall⟩ | ⟨hsegments, -, -⟩
  · -- Nothing is left, so the log is empty at the offset.
    unfold toLog Log.dropBelow
    rw [hsegments, hhead]
    simp only [flatMap_cons, flatMap_nil, append_nil]
    split
    · have hnil : m.segments.flatMap Segment.records = [] := length_eq_zero_iff.1 (by omega)
      rw [hnil]
      congr 1
      omega
    · rw [drop_eq_nil_of_le (by omega)]
  · have hhead : (m.truncate now beforeOffset).headOffset = head' :=
      (hsegments ▸ (m.truncate now beforeOffset).spans).head_unique hspans
        (hsegments ▸ (m.truncate now beforeOffset).nonempty)
    unfold toLog Log.dropBelow
    rw [hsegments, hhead, hdrop]
    split
    · have heq : head' = m.headOffset := le_antisymm ‹_› hle
      rw [heq, Nat.sub_self, drop_zero]
    · rfl

/-- A record can be read exactly when a segment holds it. -/
lemma isSome_read_iff : (m.read offset).isSome ↔ ∃ seg ∈ m.segments, seg.Holds offset := by
  rw [read_eq, Log.record_isSome_iff, head_toLog, tail_toLog]
  constructor
  · rintro ⟨hge, hlt⟩
    exact m.spans.exists_holds hge hlt
  · rintro ⟨seg, hmem, hge, hlt⟩
    obtain ⟨hbase, hnext⟩ := m.spans.mem_le hmem
    exact ⟨hbase.trans hge, lt_of_lt_of_le hlt hnext⟩

/-- No two segments hold the same offset. -/
lemma eq_of_holds {a b : Segment} (ha : a ∈ m.segments) (hb : b ∈ m.segments)
    (hoa : a.Holds offset) (hob : b.Holds offset) : a = b := by
  obtain ⟨front, back, hsplit, hfront, hback⟩ := m.spans.split ha
  obtain ⟨ha1, ha2⟩ := hoa
  obtain ⟨hb1, hb2⟩ := hob
  rw [hsplit] at hb
  rcases mem_append.1 hb with hb | hb
  · have := (hfront.mem_le hb).2
    omega
  rcases mem_cons.1 hb with rfl | hb
  · rfl
  · have := (hback.mem_le hb).1
    omega

/-- A truncation removes the records of the segments that end at or before its offset. -/
lemma removed_iff (now : Time) (beforeOffset : Nat) :
    (m.read offset).isSome ∧ ¬ ((m.truncate now beforeOffset).read offset).isSome ↔
      ∃ seg ∈ m.segments, seg.Holds offset ∧ seg.nextOffset ≤ beforeOffset := by
  have hkept : (∃ seg ∈ (m.truncate now beforeOffset).segments, seg.Holds offset) ↔
      ∃ seg ∈ m.segments, seg.Holds offset ∧ beforeOffset < seg.nextOffset := by
    rcases m.truncate_cases now beforeOffset with ⟨hkeep, hsegments, -⟩ | ⟨hsegments, -⟩
    · rw [hsegments]
      constructor
      · rintro ⟨seg, hmem, hge, hlt⟩
        obtain rfl := mem_singleton.1 hmem
        exact absurd hlt (Nat.not_lt.2 hge)
      · rintro ⟨seg, hmem, -, hlt⟩
        exact absurd (mem_filter.2 ⟨hmem, by simpa using hlt⟩) (hkeep ▸ not_mem_nil)
    · rw [hsegments]
      constructor
      · rintro ⟨seg, hmem, hholds⟩
        obtain ⟨hmem, hlt⟩ := mem_filter.1 hmem
        exact ⟨seg, hmem, hholds, by simpa using hlt⟩
      · rintro ⟨seg, hmem, hholds, hlt⟩
        exact ⟨seg, mem_filter.2 ⟨hmem, by simpa using hlt⟩, hholds⟩
  rw [isSome_read_iff, isSome_read_iff, hkept]
  constructor
  · rintro ⟨⟨seg, hmem, hholds⟩, hnot⟩
    refine ⟨seg, hmem, hholds, Nat.le_of_not_lt fun hlt => hnot ⟨seg, hmem, hholds, hlt⟩⟩
  rintro ⟨seg, hmem, hholds, hle⟩
  refine ⟨⟨seg, hmem, hholds⟩, ?_⟩
  rintro ⟨seg', hmem', hholds', hlt⟩
  rw [eq_of_holds hmem' hmem hholds' hholds] at hlt
  omega

end SegmentManager

/-! ### Truncation in the two stores -/

namespace Log

variable {log : Log} {minOffset cut : Nat}

/-- `Truncate` of the in-memory store. -/
def truncate (log : Log) (minOffset : Nat) : Log :=
  if minOffset ≤ log.head then log
  else
    let minOffset := if log.tail < minOffset then log.tail else minOffset
    let removeCount := min (minOffset - log.head) log.records.length
    { head := minOffset, records := log.records.drop removeCount }

/-- What a truncation does to a log: it removes records in front of the offset only. -/
structure RemovesPrefix (minOffset : Nat) (log log' : Log) : Prop where
  tail : log'.tail = log.tail
  record : ∀ offset, minOffset ≤ offset → log'.record offset = log.record offset
  head : log'.head ≤ max log.head (min minOffset log.tail)

lemma removesPrefix_dropBelow (h : cut ≤ max log.head (min minOffset log.tail)) :
    RemovesPrefix minOffset log (log.dropBelow cut) where
  tail := by
    rw [dropBelow]
    split
    · rfl
    · simp only [tail, List.length_drop] at *
      omega
  record := by
    intro offset hoffset
    rw [record_dropBelow, if_pos (by omega)]
  head := by
    unfold dropBelow
    split
    · exact Nat.le_max_left ..
    · exact h

lemma truncate_eq (log : Log) (minOffset : Nat) :
    log.truncate minOffset = log.dropBelow (min minOffset log.tail) := by
  have htail : log.tail = log.head + log.records.length := rfl
  rw [truncate, dropBelow]
  by_cases hhead : minOffset ≤ log.head
  · rw [if_pos hhead, if_pos (by omega)]
  have hcut : (if log.tail < minOffset then log.tail else minOffset) = min minOffset log.tail := by
    split <;> omega
  have hcount : min minOffset log.tail - log.head ≤ log.records.length := by omega
  simp only [if_neg hhead, hcut, Nat.min_eq_left hcount]
  split
  · -- There is nothing to remove.
    have hempty : min minOffset log.tail = log.head := by omega
    rw [hempty, Nat.sub_self, List.drop_zero]
  · rfl

end Log

namespace SegmentManager

/-- The first segment that is left begins at or before the offset. -/
lemma headOffset_truncate_le (m : SegmentManager) (now : Time) (beforeOffset : Nat) :
    (m.truncate now beforeOffset).headOffset ≤ max m.headOffset beforeOffset := by
  rcases m.truncate_cases now beforeOffset with ⟨-, -, hhead, -⟩ | ⟨hsegments, -, -⟩
  · rw [hhead]
    exact Nat.le_max_right ..
  obtain ⟨head', hspans, -, hle, -⟩ := m.spans.filter beforeOffset
  have hhead := (hsegments ▸ (m.truncate now beforeOffset).spans).head_unique hspans
    (hsegments ▸ (m.truncate now beforeOffset).nonempty)
  omega

/-- Behind the tail there is nothing left to keep, and the log goes on at the offset. -/
lemma tailOffset_truncate (m : SegmentManager) (now : Time) (beforeOffset : Nat) :
    (m.truncate now beforeOffset).tailOffset = max m.tailOffset beforeOffset := by
  rcases m.truncate_cases now beforeOffset with ⟨-, hsegments, hhead, hle⟩ | ⟨-, htail, hlt⟩
  · have hspans := (m.truncate now beforeOffset).spans
    rw [hsegments, hhead] at hspans
    rw [← hspans.2, Nat.max_eq_right hle]
    rfl
  · rw [htail, Nat.max_eq_left hlt.le]

end SegmentManager

end FluxMQ
