import FluxMQ.Library.Runs
import FluxMQ.Logstorage.SegmentFile

/-!
# The segment files of a log

`SegmentManager` of `logstorage/manager.go` over the files of its segments: appends with rotation,
truncation, retention, and the opening of the files that a closed manager has left.

Beside the manager stands what was appended, in the order of the offsets. `SegmentManager.Stores` says
that each segment holds its part of it, and that the segments follow each other from the head offset to
the tail offset. Every operation keeps it, as long as what is appended can be stored
(`Storable`); what readers see follows from it (`Stores.represents`).

Closing a manager writes nothing. The directory is the files of the segments, so that a file name is
taken if a segment has its base offset. The time index enters by its verdict on each segment; barriers
and their failures are left out here.
-/

namespace FluxMQ.Logstorage

open Bytes Tiling Transition Batch List

/-- `ManagerConfig`, as far as appends read it. -/
structure ManagerConfig where
  maxSegmentSize : Nat := 64 * 1024 * 1024
  maxSegmentAge : Time := 3600 * second
  compression : CompressionType := compressionS2
  retentionBytes : Nat := 0
  retentionDuration : Time := 0

/-- `SegmentManager`. The active segment is the last one. -/
structure SegmentManager where
  segments : List Segment
  headOffset : Nat
  tailOffset : Nat
  nonempty : segments ≠ []

/-- Why a batch was not appended. -/
inductive AppendError where
  /-- The file of the next segment is there already. -/
  | segmentExists
  | batch (err : BatchError)
  deriving Repr, DecidableEq

namespace SegmentManager

variable (cfg : ManagerConfig) (lib : BatchLibraries) (m : SegmentManager)

def activeSegment : Segment := m.segments.getLast m.nonempty

/-- `createSegment`, in a directory with a segment at least. -/
def createSegment (baseOffset : Nat) (now : Time) : Option SegmentManager :=
  if m.segments.any (·.baseOffset = baseOffset) then none
  else some
    { m with
      segments := m.segments ++ [Logstorage.createSegment baseOffset now]
      tailOffset := baseOffset
      nonempty := by simp }

/-- The manager of a single new segment. -/
def fresh (baseOffset : Nat) (now : Time) : SegmentManager where
  segments := [Logstorage.createSegment baseOffset now]
  headOffset := baseOffset
  tailOffset := baseOffset
  nonempty := by simp

def shouldRotate (now : Time) : Bool :=
  m.activeSegment.isFull cfg.maxSegmentSize ||
    decide (0 < cfg.maxSegmentAge) && m.activeSegment.isExpired now cfg.maxSegmentAge

/-- The end of `appendLocked`: the batch goes to the active segment. -/
def appendActive (b : Batch) : Except BatchError SegmentManager :=
  let b := { b with baseOffset := m.tailOffset, compression := cfg.compression }
  match m.activeSegment.append lib b with
  | .error err => .error err
  | .ok active => .ok
    { m with
      segments := m.segments.dropLast ++ [active]
      tailOffset := b.nextOffset
      nonempty := by simp }

/-- `appendLocked`. -/
def append (now : Time) (b : Batch) : SegmentManager × Except AppendError Nat :=
  let rotated := if m.shouldRotate cfg now then m.createSegment m.tailOffset now else some m
  match rotated with
  | none => (m, .error .segmentExists)
  | some m =>
    match m.appendActive cfg lib b with
    | .error err => (m, .error (.batch err))
    | .ok m' => (m', .ok m.tailOffset)

/-- The manager that is left with some of its segments. -/
def keep (segments : List Segment) (h : segments ≠ []) : SegmentManager :=
  { m with segments, headOffset := (segments.head h).baseOffset, nonempty := h }

def truncate (beforeOffset : Nat) (now : Time) : SegmentManager :=
  let toKeep := m.segments.filter fun seg => beforeOffset < seg.nextOffset
  if h : toKeep = [] then fresh beforeOffset now else m.keep toKeep h

/-- The loop of `applyTimeRetention`: `old` says that the last time in the index of a segment is not
after the cutoff. -/
def dropOld (old : Segment → Bool) : List Segment → List Segment
  | seg :: next :: rest =>
    if old seg then dropOld old (next :: rest) else seg :: next :: rest
  | segments => segments

/-- The loop of `applySizeRetention`. -/
def dropLarge (retentionBytes : Nat) : (totalSize : Nat) → List Segment → List Segment
  | totalSize, seg :: next :: rest =>
    if retentionBytes < totalSize then dropLarge retentionBytes (totalSize - seg.size) (next :: rest)
    else seg :: next :: rest
  | _, segments => segments

lemma dropOld_ne_nil {old : Segment → Bool} : ∀ {segments : List Segment}, segments ≠ [] →
    dropOld old segments ≠ []
  | [], h => absurd rfl h
  | [_], h => h
  | seg :: next :: rest, h => by
    rw [dropOld]
    split
    · exact dropOld_ne_nil (cons_ne_nil _ _)
    · exact h

lemma dropLarge_ne_nil {retentionBytes : Nat} : ∀ {segments : List Segment} {totalSize : Nat},
    segments ≠ [] → dropLarge retentionBytes totalSize segments ≠ []
  | [], _, h => absurd rfl h
  | [_], _, h => h
  | seg :: next :: rest, _, h => by
    rw [dropLarge]
    split
    · exact dropLarge_ne_nil (cons_ne_nil _ _)
    · exact h

def applyTimeRetention (old : Segment → Bool) : SegmentManager :=
  m.keep (dropOld old m.segments) (dropOld_ne_nil m.nonempty)

def applySizeRetention (retentionBytes : Nat) : SegmentManager :=
  m.keep (dropLarge retentionBytes (m.segments.map Segment.size).sum m.segments)
    (dropLarge_ne_nil m.nonempty)

def applyRetention (old : Segment → Bool) : SegmentManager :=
  let m := if 0 < cfg.retentionDuration then m.applyTimeRetention old else m
  if 0 < cfg.retentionBytes then m.applySizeRetention cfg.retentionBytes else m

/-- `loadSegments` of the files of a directory, given by base offset. -/
def loadSegments (modTime : Nat → Time) (files : List (Nat × ByteString)) : Option (List Segment) :=
  (files.mergeSort fun a b => a.1 ≤ b.1).mapM fun file => openSegment file.1 (modTime file.1) file.2

end SegmentManager

def newSegmentManager (modTime : Nat → Time) (now : Time) (files : List (Nat × ByteString)) :
    Option SegmentManager :=
  (SegmentManager.loadSegments modTime files).map fun segments =>
    if h : segments = [] then .fresh 0 now
    else
      { segments
        headOffset := (segments.head h).baseOffset
        tailOffset := (segments.getLast h).nextOffset
        nonempty := h }

namespace SegmentManager

variable (lib : BatchLibraries) (m : SegmentManager)

/-- The directory of the manager. -/
def files : List (Nat × ByteString) := m.segments.map fun seg => (seg.baseOffset, seg.file)

def findSegment (offset : Nat) : Option Segment :=
  let i := Search.search m.segments.length fun i =>
    m.segments[i]?.any fun seg => offset < seg.baseOffset
  if i = 0 then m.segments.head?.filter fun seg => seg.baseOffset ≤ offset
  else m.segments[i - 1]?.filter fun seg => seg.baseOffset ≤ offset ∧ offset < seg.nextOffset

def read (offset : Nat) : Except ReadError Message :=
  match m.findSegment offset with
  | none => .error .offsetOutOfRange
  | some seg => seg.read lib offset

/-- The loop of `ReadRange`, for at most `fuel` segments. Without progress it would not end. -/
def readFrom (endOffset maxMessages : Nat) :
    (fuel currentOffset : Nat) → (messages : List Message) → Option (Except ReadError (List Message))
  | 0, currentOffset, messages =>
    if currentOffset < endOffset ∧ messages.length < maxMessages then none else some (.ok messages)
  | fuel + 1, currentOffset, messages =>
    if currentOffset < endOffset ∧ messages.length < maxMessages then
      match m.findSegment currentOffset with
      | none => some (.ok messages)
      | some seg =>
        let segEnd := min seg.nextOffset endOffset
        match seg.readRange lib currentOffset segEnd (maxMessages - messages.length) with
        | none => none
        | some (.error err) => some (.error err)
        | some (.ok found) => readFrom endOffset maxMessages fuel segEnd (messages ++ found)
    else some (.ok messages)

def readRange (startOffset endOffset maxMessages : Nat) : Option (Except ReadError (List Message)) :=
  if endOffset ≤ startOffset then some (.ok [])
  else m.readFrom lib endOffset maxMessages (endOffset - startOffset) startOffset []

end SegmentManager

/-! ### What a segment stores -/

/-- The segment holds its part of the log. -/
structure Segment.Stores (lib : BatchLibraries) (log : List Message) (seg : Segment) : Prop where
  within : seg.nextOffset ≤ log.length
  held : ∃ bs, seg.Consists lib bs ∧
    List.Forall₂ Message.Same (slice 0 log seg.baseOffset seg.nextOffset) (contents lib bs)

namespace Segment.Stores

variable {lib : BatchLibraries} {log more : List Message} {seg : Segment}

lemma base_le_next (h : seg.Stores lib log) : seg.baseOffset ≤ seg.nextOffset := by
  obtain ⟨bs, hbs, -⟩ := h.held
  exact hbs.row.le fun b _ => b.base_le_next

/-- What is appended later does not matter to it. -/
lemma append_log (h : seg.Stores lib log) (more : List Message) : seg.Stores lib (log ++ more) where
  within := by
    rw [length_append]
    exact Nat.le_trans h.within (Nat.le_add_right _ _)
  held := by
    rw [slice_append_left (Nat.zero_le _) (by rw [Nat.zero_add]; exact h.within)]
    exact h.held

lemma createSegment {baseOffset : Nat} (hle : baseOffset ≤ log.length) (now : Time) :
    (Logstorage.createSegment baseOffset now).Stores lib log where
  within := hle
  held := by
    refine ⟨[], consists_createSegment baseOffset now, ?_⟩
    rw [Logstorage.createSegment, slice, Nat.sub_self, take_zero]
    exact List.Forall₂.nil

section

variable (h : seg.Stores lib log)
include h

/-- The segment at the end of the log takes a batch. -/
lemma append {b : Batch} (hend : seg.nextOffset = log.length) (hb : b.Good lib)
    (hbase : b.baseOffset = seg.nextOffset)
    (hsame : List.Forall₂ Message.Same more (b.messages lib)) :
    ∃ seg', seg.append lib b = .ok seg' ∧ seg'.Stores lib (log ++ more) ∧
      seg'.baseOffset = seg.baseOffset ∧ seg'.nextOffset = b.nextOffset := by
  obtain ⟨bs, hbs, hheld⟩ := h.held
  obtain ⟨seg', happend, hbs', hbase', hnext', -⟩ := hbs.append hb hbase
  have hlength : more.length = b.records.length := hsame.length_eq.trans Batch.length_messages
  refine ⟨seg', happend, ⟨?_, bs ++ [b], hbs', ?_⟩, hbase', hnext'⟩
  · rw [hnext', Batch.nextOffset, hbase, hend, length_append, hlength]
  have hold : slice 0 (log ++ more) seg.baseOffset seg.nextOffset =
      slice 0 log seg.baseOffset seg.nextOffset :=
    slice_append_left (Nat.zero_le _) (by omega) more
  have hnew : slice 0 (log ++ more) seg.nextOffset seg'.nextOffset = more := by
    rw [slice, Nat.sub_zero, hend, drop_left, take_of_length_le]
    rw [hnext', Batch.nextOffset, hbase, hend, hlength]
    omega
  have hslice : slice 0 (log ++ more) seg'.baseOffset seg'.nextOffset =
      slice 0 log seg.baseOffset seg.nextOffset ++ more := by
    rw [hbase', ← slice_append (Nat.zero_le _) h.base_le_next, hold, hnew]
    rw [hnext', ← hbase]
    exact b.base_le_next
  rw [hslice, contents, flatMap_append, flatMap_singleton]
  exact rel_append hheld hsame

lemma openSegment (modTime : Time) : Logstorage.openSegment seg.baseOffset modTime seg.file =
    some { seg with createdAt := modTime } := by
  obtain ⟨bs, hbs, -⟩ := h.held
  exact hbs.openSegment modTime

/-- The age of a segment does not matter. -/
lemma createdAt (time : Time) : { seg with createdAt := time }.Stores lib log := by
  obtain ⟨bs, hbs, hheld⟩ := h.held
  exact ⟨h.within, bs, { hbs with }, hheld⟩

/-- An offset of the segment gives the record that was appended there. -/
lemma read {offset : Nat} (hge : seg.baseOffset ≤ offset) (hlt : offset < seg.nextOffset) :
    ∃ original msg, log[offset]? = some original ∧ seg.read lib offset = .ok msg ∧
      original.Same msg := by
  obtain ⟨bs, hbs, hheld⟩ := h.held
  have hlength := length_contents lib hbs.row
  have hat := getElem?_slice log (Nat.zero_le seg.baseOffset) hge hlt
  have hin : offset - seg.baseOffset < (contents lib bs).length := by omega
  have hin' : offset - seg.baseOffset < (slice 0 log seg.baseOffset seg.nextOffset).length :=
    hheld.length_eq ▸ hin
  refine ⟨_, _, hat ▸ getElem?_eq_getElem hin', ?_, hheld.get hin' hin⟩
  rw [hbs.read, if_pos hge, getElem?_eq_getElem hin]
  rfl

/-- A range within the segment gives the records that were appended there. -/
lemma readRange {a e : Nat} (hge : seg.baseOffset ≤ a) (hle : e ≤ seg.nextOffset) (most : Nat) :
    ∃ messages, seg.readRange lib a e most = some (.ok messages) ∧
      List.Forall₂ Message.Same ((slice 0 log a e).take most) messages := by
  obtain ⟨bs, hbs, hheld⟩ := h.held
  refine ⟨_, hbs.readRange hge hle most, forall₂_take _ ?_⟩
  rw [← slice_slice (Nat.zero_le _) hge hle]
  exact forall₂_take _ (forall₂_drop _ hheld)

end

end Segment.Stores

/-! ### Loading segments -/

/-- Files that stand for segments in the order of their base offsets are opened one by one. -/
lemma SegmentManager.loadSegments_eq {modTime : Nat → Time} {segments : List Segment}
    {data : Segment → ByteString} {opened : Segment → Segment}
    (hsorted : segments.Pairwise fun a b => a.baseOffset < b.baseOffset) (hopen : ∀ seg ∈ segments,
      openSegment seg.baseOffset (modTime seg.baseOffset) (data seg) = some (opened seg)) :
    loadSegments modTime (segments.map fun seg => (seg.baseOffset, data seg)) =
      some (segments.map opened) := by
  have hsort : (segments.map fun seg => (seg.baseOffset, data seg)).mergeSort (fun a b => a.1 ≤ b.1) =
      segments.map fun seg => (seg.baseOffset, data seg) := by
    refine mergeSort_of_pairwise (pairwise_map.mpr (hsorted.imp fun hlt => ?_))
    exact decide_eq_true (Nat.le_of_lt hlt)
  rw [loadSegments, hsort, mapM_map]
  clear hsort hsorted
  induction segments with
  | nil => rfl
  | cons seg segments ih =>
    rw [forall_mem_cons] at hopen
    rw [mapM_cons, ih hopen.2, Function.comp, hopen.1]
    rfl

/-! ### Finding a segment -/

/-- The segments lie one behind the other, perhaps with offsets between them that none has. -/
structure SegmentManager.Ordered (m : SegmentManager) : Prop where
  le : ∀ seg ∈ m.segments, seg.baseOffset ≤ seg.nextOffset
  apart : m.segments.Pairwise fun a b => a.nextOffset ≤ b.baseOffset

namespace SegmentManager

variable {m : SegmentManager} {offset : Nat}

/-- The search divides the segments at an offset. -/
lemma search_eq (m : SegmentManager) (offset : Nat) {front back : List Segment}
    (hsplit : m.segments = front ++ back)
    (hfront : ∀ seg ∈ front, seg.baseOffset ≤ offset) (hback : ∀ seg ∈ back, offset < seg.baseOffset) :
    (Search.search m.segments.length fun i =>
      m.segments[i]?.any fun seg => offset < seg.baseOffset) = front.length := by
  rw [hsplit]
  refine Search.search_eq (by simp) (fun i hi => ?_) fun i hi hi' => ?_
  · rw [getElem?_append_left hi, getElem?_eq_getElem hi]
    simpa using hfront _ (getElem_mem hi)
  rw [length_append] at hi'
  have hin : i - front.length < back.length := by omega
  rw [getElem?_append_right hi, getElem?_eq_getElem hin]
  simpa using hback _ (getElem_mem hin)

lemma Ordered.findSegment_eq_some {seg : Segment} (h : m.Ordered) (hseg : seg ∈ m.segments)
    (hbase : seg.baseOffset ≤ offset) (hnext : offset < seg.nextOffset) :
    m.findSegment offset = some seg := by
  obtain ⟨front, back, hsplit⟩ := append_of_mem hseg
  have hapart := h.apart
  rw [hsplit, pairwise_append, pairwise_cons] at hapart
  obtain ⟨-, ⟨hback, -⟩, hfront⟩ := hapart
  have hupto : ∀ other ∈ front ++ [seg], other.baseOffset ≤ offset := by
    intro other hother
    obtain hother | hother := mem_append.mp hother
    · have := hfront other hother seg mem_cons_self
      have := h.le other (hsplit ▸ mem_append_left _ hother)
      omega
    · rw [mem_singleton.mp hother]
      exact hbase
  have hbehind : ∀ other ∈ back, offset < other.baseOffset := fun other hother =>
    Nat.lt_of_lt_of_le hnext (hback other hother)
  rw [findSegment, search_eq m offset (by simp [hsplit]) hupto hbehind]
  simp [hsplit, hbase, hnext]

/-- The segments that begin behind an offset are the last ones. -/
lemma Ordered.exists_split (h : m.Ordered) (offset : Nat) :
    ∃ front back, m.segments = front ++ back ∧ (∀ seg ∈ front, seg.baseOffset ≤ offset) ∧
      ∀ seg ∈ back, offset < seg.baseOffset := by
  obtain ⟨hle, hapart⟩ := h
  generalize m.segments = segments at hle hapart ⊢
  induction segments with
  | nil => exact ⟨[], [], rfl, nofun, nofun⟩
  | cons seg segments ih =>
    rw [forall_mem_cons] at hle
    rw [pairwise_cons] at hapart
    rcases Nat.lt_or_ge offset seg.baseOffset with hlt | hge
    · refine ⟨[], seg :: segments, rfl, nofun, forall_mem_cons.mpr ⟨hlt, fun other hother => ?_⟩⟩
      have := hapart.1 other hother
      omega
    · obtain ⟨front, back, rfl, hfront, hback⟩ := ih hle.2 hapart.2
      exact ⟨seg :: front, back, rfl, forall_mem_cons.mpr ⟨hge, hfront⟩, hback⟩

lemma Ordered.findSegment_eq_none (h : m.Ordered)
    (hout : ∀ seg ∈ m.segments, ¬ (seg.baseOffset ≤ offset ∧ offset < seg.nextOffset)) :
    m.findSegment offset = none := by
  obtain ⟨front, back, hsplit, hfront, hback⟩ := h.exists_split offset
  rw [findSegment, search_eq m offset hsplit hfront hback]
  split
  · -- All segments begin behind the offset.
    rename_i hnone
    rw [length_eq_zero_iff.mp hnone, nil_append] at hsplit
    rw [Option.filter_eq_none_iff]
    intro seg hseg
    have := hback seg (hsplit ▸ mem_of_mem_head? hseg)
    simp
    omega
  · rw [Option.filter_eq_none_iff]
    intro seg hseg
    simpa using hout seg (mem_of_getElem? hseg)

end SegmentManager

/-! ### What the manager stores -/

/-- Each segment holds its part of the log, from the head offset to the tail offset, which is the end of
the log. A segment is sealed only with records in it. -/
structure SegmentManager.Stores (lib : BatchLibraries) (log : List Message) (m : SegmentManager) :
    Prop where
  stores : ∀ seg ∈ m.segments, seg.Stores lib log
  tiles : Tiles Segment.baseOffset Segment.nextOffset m.headOffset m.segments m.tailOffset
  sealed : ∀ seg ∈ m.segments.dropLast, seg.baseOffset < seg.nextOffset
  tail : m.tailOffset = log.length

namespace SegmentManager.Stores

variable {cfg : ManagerConfig} {lib : BatchLibraries} {log more : List Message} {m : SegmentManager}

lemma segment_le (h : m.Stores lib log) : ∀ seg ∈ m.segments, seg.baseOffset ≤ seg.nextOffset :=
  fun seg hseg => (h.stores seg hseg).base_le_next

/-- The active segment ends at the tail. -/
lemma activeSegment (h : m.Stores lib log) :
    m.segments = m.segments.dropLast ++ [m.activeSegment] ∧
      Tiles Segment.baseOffset Segment.nextOffset m.headOffset m.segments.dropLast
        m.activeSegment.baseOffset ∧
      m.activeSegment.nextOffset = m.tailOffset := by
  have hsplit : m.segments = m.segments.dropLast ++ [m.activeSegment] :=
    (dropLast_append_getLast m.nonempty).symm
  have htiles := h.tiles
  rw [hsplit] at htiles
  obtain ⟨mid, hfront, rfl, hend⟩ := Tiles.append_iff.mp htiles
  exact ⟨hsplit, hfront, hend⟩

lemma fresh (now : Time) : (SegmentManager.fresh log.length now).Stores lib log where
  stores := by
    intro seg hseg
    obtain rfl := mem_singleton.mp hseg
    exact Segment.Stores.createSegment (Nat.le_refl _) now
  tiles := ⟨rfl, rfl⟩
  sealed := nofun
  tail := rfl

section

variable (h : m.Stores lib log)
include h

/-- Rotation: a file of the name is there only if the active segment is empty. -/
lemma createSegment {m' : SegmentManager} {now : Time}
    (hcreate : m.createSegment m.tailOffset now = some m') : m'.Stores lib log := by
  rw [SegmentManager.createSegment] at hcreate
  split at hcreate
  · exact nomatch hcreate
  rename_i hnone
  obtain rfl := Option.some.inj hcreate
  obtain ⟨hsplit, hfront, hend⟩ := h.activeSegment
  refine ⟨fun seg hseg => ?_, Tiles.append_iff.mpr ⟨_, h.tiles, rfl, rfl⟩, fun seg hseg => ?_, h.tail⟩
  · obtain hseg | hseg := mem_append.mp hseg
    · exact h.stores seg hseg
    · obtain rfl := mem_singleton.mp hseg
      exact Segment.Stores.createSegment (Nat.le_of_eq h.tail) now
  rw [dropLast_concat, hsplit] at hseg
  obtain hseg | hseg := mem_append.mp hseg
  · exact h.sealed seg hseg
  obtain rfl := mem_singleton.mp hseg
  have hmem : m.activeSegment ∈ m.segments := getLast_mem m.nonempty
  have hne : m.activeSegment.baseOffset ≠ m.tailOffset := fun heq =>
    hnone (any_eq_true.mpr ⟨_, hmem, decide_eq_true heq⟩)
  have := h.segment_le _ hmem
  omega

section

variable {b : Batch}
  (hb : { b with baseOffset := m.tailOffset, compression := cfg.compression }.Good lib)
  (hsame : List.Forall₂ Message.Same more
    ({ b with baseOffset := m.tailOffset, compression := cfg.compression }.messages lib))
include hb hsame

/-- A good batch goes to the active segment. -/
lemma appendActive : ∃ m', m.appendActive cfg lib b = .ok m' ∧ m'.Stores lib (log ++ more) := by
  obtain ⟨hsplit, hfront, hend⟩ := h.activeSegment
  have hactive := h.stores _ (getLast_mem m.nonempty)
  obtain ⟨seg', happend, hstores, hbase, hnext⟩ :=
    Segment.Stores.append hactive (hend.trans h.tail) hb hend.symm hsame
  rw [SegmentManager.appendActive, SegmentManager.activeSegment, happend]
  refine ⟨_, rfl, fun seg hseg => ?_, ?_, fun seg hseg => ?_, ?_⟩
  · obtain hseg | hseg := mem_append.mp hseg
    · exact (h.stores seg (dropLast_subset _ hseg)).append_log more
    · obtain rfl := mem_singleton.mp hseg
      exact hstores
  · exact Tiles.append_iff.mpr ⟨_, hfront, hbase, hnext⟩
  · rw [dropLast_concat] at hseg
    exact h.sealed seg hseg
  · have hlength := hsame.length_eq
    rw [length_messages] at hlength
    rw [length_append, hlength, ← h.tail]
    rfl

/-- An append either adds to the log or, where the next segment cannot be created, changes nothing. -/
lemma append (now : Time) :
    (∃ m', m.append cfg lib now b = (m', .ok m.tailOffset) ∧ m'.Stores lib (log ++ more)) ∨
      m.append cfg lib now b = (m, .error .segmentExists) := by
  have hactive {m₁ : SegmentManager} (h₁ : m₁.Stores lib log) (htail : m₁.tailOffset = m.tailOffset) :
      ∃ m', m₁.appendActive cfg lib b = .ok m' ∧ m'.Stores lib (log ++ more) := by
    rw [← htail] at hb hsame
    exact h₁.appendActive hb hsame
  rw [SegmentManager.append]
  split
  · exact .inr rfl
  rename_i m₁ hrotated
  have h₁ : m₁.Stores lib log ∧ m₁.tailOffset = m.tailOffset := by
    split at hrotated
    · have h₁ := h.createSegment hrotated
      exact ⟨h₁, h₁.tail.trans h.tail.symm⟩
    · obtain rfl := Option.some.inj hrotated
      exact ⟨h, rfl⟩
  obtain ⟨m', happend, hstores⟩ := hactive h₁.1 h₁.2
  rw [happend, h₁.2]
  exact .inl ⟨m', rfl, hstores⟩

end

/-- Segments at the front may go. -/
lemma keep {front segments : List Segment} (hsplit : m.segments = front ++ segments)
    (hne : segments ≠ []) : (m.keep segments hne).Stores lib log where
  stores := fun seg hseg => h.stores seg (hsplit ▸ mem_append_right front hseg)
  tiles := by
    have htiles := h.tiles
    rw [hsplit] at htiles
    obtain ⟨mid, -, hrest⟩ := Tiles.append_iff.mp htiles
    rw [← hrest.lo_head hne] at hrest
    exact hrest
  sealed := by
    intro seg hseg
    refine h.sealed seg ?_
    rw [hsplit, dropLast_append_of_ne_nil hne]
    exact mem_append_right front hseg
  tail := h.tail

lemma truncate {beforeOffset : Nat} (hle : beforeOffset ≤ m.tailOffset) (now : Time) :
    (m.truncate beforeOffset now).Stores lib log := by
  rw [SegmentManager.truncate]
  split
  · rename_i hnone
    -- No segment is left, so that the active one ended at or before the offset.
    obtain ⟨hsplit, -, hend⟩ := h.activeSegment
    have hlast := filter_eq_nil_iff.mp hnone _ (getLast_mem m.nonempty)
    have htail : beforeOffset = log.length := by
      rw [decide_eq_true_eq, Nat.not_lt] at hlast
      rw [SegmentManager.activeSegment] at hend
      have := h.tail
      omega
    rw [htail]
    exact fresh now
  · obtain ⟨front, hfront, -⟩ := h.tiles.exists_filter h.segment_le beforeOffset
    exact h.keep hfront _

end

/-- With a record in the active segment there is no file of the name of the next one. -/
lemma exists_createSegment (h : m.Stores lib log) (hlt : m.activeSegment.baseOffset < m.tailOffset)
    (now : Time) : ∃ m', m.createSegment m.tailOffset now = some m' := by
  rw [SegmentManager.createSegment, if_neg]
  · exact ⟨_, rfl⟩
  rw [any_eq_true]
  rintro ⟨seg, hseg, heq⟩
  rw [decide_eq_true_eq] at heq
  obtain ⟨hsplit, hfront, hend⟩ := h.activeSegment
  rw [hsplit] at hseg
  obtain hseg | hseg := mem_append.mp hseg
  · have hbefore := hfront.mem_le (fun seg hseg => h.segment_le seg (dropLast_subset _ hseg)) hseg
    have := h.sealed seg hseg
    omega
  · obtain rfl := mem_singleton.mp hseg
    omega

/-- Behind the tail there is a new log, of which nothing is known but its length. -/
lemma exists_truncate (h : m.Stores lib log) (beforeOffset : Nat) (now : Time) :
    ∃ log', (m.truncate beforeOffset now).Stores lib log' := by
  rcases Nat.lt_or_ge m.tailOffset beforeOffset with hlt | hle
  · have hnone : (m.segments.filter fun seg => beforeOffset < seg.nextOffset) = [] := by
      refine filter_eq_nil_iff.mpr fun seg hseg => ?_
      have := (h.tiles.mem_le h.segment_le hseg).2
      rw [decide_eq_true_eq]
      omega
    rw [SegmentManager.truncate, dif_pos hnone]
    obtain ⟨log', rfl⟩ : ∃ log' : List Message, log'.length = beforeOffset :=
      ⟨replicate beforeOffset ((sampleItem none).message 0), length_replicate⟩
    exact ⟨log', fresh now⟩
  · exact ⟨log, h.truncate hle now⟩

lemma exists_dropOld (old : Segment → Bool) :
    ∀ segments : List Segment, ∃ front, segments = front ++ dropOld old segments
  | [] => ⟨[], rfl⟩
  | [_] => ⟨[], rfl⟩
  | seg :: next :: rest => by
    rw [dropOld]
    split
    · obtain ⟨front, hfront⟩ := exists_dropOld old (next :: rest)
      exact ⟨seg :: front, by rw [cons_append, ← hfront]⟩
    · exact ⟨[], rfl⟩

lemma exists_dropLarge (retentionBytes : Nat) :
    ∀ (totalSize : Nat) (segments : List Segment),
      ∃ front, segments = front ++ dropLarge retentionBytes totalSize segments
  | _, [] => ⟨[], rfl⟩
  | _, [_] => ⟨[], rfl⟩
  | totalSize, seg :: next :: rest => by
    rw [dropLarge]
    split
    · obtain ⟨front, hfront⟩ := exists_dropLarge retentionBytes (totalSize - seg.size) (next :: rest)
      exact ⟨seg :: front, by rw [cons_append, ← hfront]⟩
    · exact ⟨[], rfl⟩

lemma applyRetention (h : m.Stores lib log) (old : Segment → Bool) :
    (m.applyRetention cfg old).Stores lib log := by
  have htime : (if 0 < cfg.retentionDuration then m.applyTimeRetention old else m).Stores lib log := by
    split
    · obtain ⟨front, hfront⟩ := exists_dropOld old m.segments
      exact h.keep hfront _
    · exact h
  rw [SegmentManager.applyRetention]
  split
  · obtain ⟨front, hfront⟩ := exists_dropLarge cfg.retentionBytes _ _
    exact htime.keep hfront _
  · exact htime

/-- The segments are in the order of their base offsets. -/
lemma sorted (h : m.Stores lib log) : m.segments.Pairwise fun a b => a.baseOffset < b.baseOffset :=
  h.tiles.pairwise_lt h.segment_le h.sealed

/-- What a closed manager leaves is opened as the same manager, with other ages of the segments. -/
lemma reopen (h : m.Stores lib log) (modTime : Nat → Time) (now : Time) :
    ∃ m', newSegmentManager modTime now m.files = some m' ∧ m'.Stores lib log := by
  obtain ⟨hsplit, hfront, hend⟩ := h.activeSegment
  have hne : (m.segments.map fun seg => { seg with createdAt := modTime seg.baseOffset }) ≠ [] :=
    fun heq => m.nonempty (map_eq_nil_iff.mp heq)
  have hload : SegmentManager.loadSegments modTime m.files =
      some (m.segments.map fun seg => { seg with createdAt := modTime seg.baseOffset }) :=
    loadSegments_eq h.sorted fun seg hseg => (h.stores seg hseg).openSegment _
  rw [newSegmentManager, hload, Option.map_some, dif_neg hne]
  refine ⟨_, rfl, fun seg hseg => ?_, ?_, fun seg hseg => ?_, ?_⟩
  · obtain ⟨original, hmem, rfl⟩ := mem_map.mp hseg
    exact (h.stores original hmem).createdAt _
  · have htiles : Tiles Segment.baseOffset Segment.nextOffset m.headOffset
        (m.segments.map fun seg => { seg with createdAt := modTime seg.baseOffset }) m.tailOffset :=
      Tiles.map_iff.mpr h.tiles
    rw [htiles.lo_head hne, getLast_map, ← SegmentManager.activeSegment, hend]
    exact htiles
  · rw [← map_dropLast] at hseg
    obtain ⟨original, hmem, rfl⟩ := mem_map.mp hseg
    exact h.sealed original hmem
  · rw [getLast_map, ← SegmentManager.activeSegment, hend]
    exact h.tail

/-! ### What readers see -/

section

variable (h : m.Stores lib log)
include h

lemma ordered : m.Ordered where
  le := h.segment_le
  apart := h.tiles.pairwise_le h.segment_le

variable {offset : Nat}

/-- The segment of an offset is found. -/
lemma exists_findSegment (hge : m.headOffset ≤ offset) (hlt : offset < m.tailOffset) :
    ∃ seg ∈ m.segments, m.findSegment offset = some seg ∧ seg.baseOffset ≤ offset ∧
      offset < seg.nextOffset := by
  obtain ⟨front, seg, back, hsplit, -, -, hbase, hnext⟩ := h.tiles.exists_split offset hge hlt
  have hseg : seg ∈ m.segments := by
    rw [hsplit]
    exact mem_append_right front mem_cons_self
  exact ⟨seg, hseg, h.ordered.findSegment_eq_some hseg hbase hnext, hbase, hnext⟩

lemma findSegment_eq_none (hout : offset < m.headOffset ∨ m.tailOffset ≤ offset) :
    m.findSegment offset = none := by
  refine h.ordered.findSegment_eq_none fun seg hseg hin => ?_
  have := h.tiles.mem_le h.segment_le hseg
  omega

/-- The offsets from head to tail give the records that were appended there. -/
lemma read (hge : m.headOffset ≤ offset) (hlt : offset < m.tailOffset) :
    ∃ original msg, log[offset]? = some original ∧ m.read lib offset = .ok msg ∧ original.Same msg := by
  obtain ⟨seg, hseg, hfind, hbase, hnext⟩ := h.exists_findSegment hge hlt
  rw [SegmentManager.read, hfind]
  exact (h.stores seg hseg).read hbase hnext

lemma read_eq_error (hout : offset < m.headOffset ∨ m.tailOffset ≤ offset) :
    m.read lib offset = .error .offsetOutOfRange := by
  rw [SegmentManager.read, h.findSegment_eq_none hout]

/-- The loop of `ReadRange` goes on from an offset up to which everything has been read. -/
lemma readFrom {startOffset endOffset maxMessages : Nat} (hstart : m.headOffset ≤ startOffset)
    (fuel current : Nat) (messages : List Message) (hcurrent : startOffset ≤ current)
    (hfuel : endOffset - current ≤ fuel) (hmessages : List.Forall₂ Message.Same
      ((slice 0 log startOffset (min current endOffset)).take maxMessages) messages) :
    ∃ found, m.readFrom lib endOffset maxMessages fuel current messages = some (.ok found) ∧
      List.Forall₂ Message.Same ((slice 0 log startOffset endOffset).take maxMessages) found := by
  -- As the loop sees only the number of messages, it stops for the log as it does for what was read.
  have hdone {current : Nat} {messages : List Message} (hcurrent : startOffset ≤ current)
      (hmessages : List.Forall₂ Message.Same
        ((slice 0 log startOffset (min current endOffset)).take maxMessages) messages)
      (hstop : ¬ (current < endOffset ∧ messages.length < maxMessages)) :
      List.Forall₂ Message.Same ((slice 0 log startOffset endOffset).take maxMessages) messages := by
    rw [← take_slice_of_done (Nat.zero_le _) hcurrent rfl (hmessages.length_eq ▸ hstop)]
    exact hmessages
  induction fuel generalizing current messages with
  | zero =>
    rw [SegmentManager.readFrom, if_neg (by omega)]
    exact ⟨_, rfl, hdone hcurrent hmessages (by omega)⟩
  | succ fuel ih =>
    rw [SegmentManager.readFrom]
    split
    · rename_i hmore
      obtain ⟨hlt, hroom⟩ := hmore
      rw [Nat.min_eq_left (Nat.le_of_lt hlt)] at hmessages
      rcases Nat.lt_or_ge current m.tailOffset with hin | hout
      · obtain ⟨seg, hseg, hfind, hbase, hnext⟩ := h.exists_findSegment (by omega) hin
        obtain ⟨found, hread, hfound⟩ := (h.stores seg hseg).readRange hbase
          (Nat.min_le_left seg.nextOffset endOffset) (maxMessages - messages.length)
        rw [hfind]
        simp only [hread]
        refine ih _ _ (by omega) (by omega) ?_
        rw [Nat.min_eq_left (Nat.min_le_right _ _),
          ← take_slice_append (Nat.zero_le _) hcurrent (by omega) rfl (hmessages.length_eq ▸ hroom),
          hmessages.length_eq]
        exact rel_append hmessages hfound
      · -- Behind the tail there is nothing.
        rw [h.findSegment_eq_none (.inr hout)]
        refine ⟨_, rfl, ?_⟩
        have hnone : slice 0 log current endOffset = [] :=
          slice_eq_nil_of_length_le (by rw [← h.tail]; omega)
        rw [← slice_append (Nat.zero_le _) hcurrent (Nat.le_of_lt hlt), hnone, append_nil]
        exact hmessages
    · rename_i hstop
      exact ⟨_, rfl, hdone hcurrent hmessages hstop⟩

/-- A range gives its records from the start on, if the start is there. -/
lemma readRange (startOffset endOffset maxMessages : Nat) :
    ∃ found, m.readRange lib startOffset endOffset maxMessages = some (.ok found) ∧
      List.Forall₂ Message.Same
        (if m.headOffset ≤ startOffset then (slice 0 log startOffset endOffset).take maxMessages else [])
        found := by
  rw [SegmentManager.readRange]
  split
  · rename_i hempty
    refine ⟨_, rfl, ?_⟩
    rw [slice_eq_nil hempty, take_nil, ite_self]
    exact List.Forall₂.nil
  split
  · rename_i hstart
    refine h.readFrom hstart _ _ _ (Nat.le_refl _) (Nat.le_refl _) ?_
    rw [slice_eq_nil (Nat.min_le_left _ _), take_nil]
    exact List.Forall₂.nil
  obtain ⟨fuel, hfuel⟩ : ∃ fuel, endOffset - startOffset = fuel + 1 :=
    ⟨endOffset - startOffset - 1, by omega⟩
  refine ⟨[], ?_, List.Forall₂.nil⟩
  rw [hfuel, SegmentManager.readFrom, h.findSegment_eq_none (.inl (by omega))]
  exact ite_self _

end

end SegmentManager.Stores

/-! ### Runs -/

/-- The end of the batch that is read at a position. -/
def Segment.batchEnd (lib : BatchLibraries) (seg : Segment) (bp : BatchPosition) : Nat :=
  match decodeBatch lib ((seg.file.drop bp.position).take bp.size) with
  | .ok b => b.nextOffset
  | .error _ => bp.offset

/-- The positions of the batches follow each other, in the offsets from the base to the end of the
segment, and in the bytes of its file. -/
structure Segment.Positioned (lib : BatchLibraries) (seg : Segment) : Prop where
  offsets : Tiles BatchPosition.offset (seg.batchEnd lib) seg.baseOffset seg.batchPositions
    seg.nextOffset
  bytes : Tiles BatchPosition.position (fun bp => bp.position + bp.size) 0 seg.batchPositions
    seg.file.length

variable {lib : BatchLibraries}

/-- The positions of batches that stand behind others in a file. -/
lemma Segment.tiles_positionsFrom {seg : Segment} (front bs : List Batch)
    {start stop : Nat} (hfile : seg.file = (front ++ bs).flatMap (bytes lib))
    (hgood : ∀ b ∈ bs, b.Good lib) (hrow : Row start bs stop) :
    Tiles BatchPosition.offset (seg.batchEnd lib) start
        (positionsFrom lib (front.flatMap (bytes lib)).length bs) stop ∧
      Tiles BatchPosition.position (fun bp => bp.position + bp.size)
        (front.flatMap (bytes lib)).length
        (positionsFrom lib (front.flatMap (bytes lib)).length bs) seg.file.length := by
  induction bs generalizing front start with
  | nil =>
    rw [append_nil] at hfile
    exact ⟨hrow, by rw [hfile]; rfl⟩
  | cons b bs ih =>
    obtain ⟨rfl, hrest⟩ := hrow
    rw [forall_mem_cons] at hgood
    have hnext : ((front ++ [b]).flatMap (bytes lib)).length =
        (front.flatMap (bytes lib)).length + (b.bytes lib).length := by simp
    obtain ⟨hoffsets, hbytes⟩ := ih (front ++ [b]) (by rw [hfile]; simp) hgood.2 hrest
    rw [hnext] at hoffsets hbytes
    refine ⟨⟨rfl, ?_⟩, rfl, hbytes⟩
    have hslice : (seg.file.drop (front.flatMap (bytes lib)).length).take (b.bytes lib).length =
        b.bytes lib := by
      rw [hfile, flatMap_append, drop_left, flatMap_cons, take_left]
    have hend : seg.batchEnd lib ⟨b.baseOffset, (front.flatMap (bytes lib)).length,
        (b.bytes lib).length⟩ = b.nextOffset := by
      rw [Segment.batchEnd, hslice, hgood.1.decodeBatch_bytes]
      exact nextOffset_decoded
    rw [hend]
    exact hoffsets

lemma Segment.Consists.positioned {seg : Segment} {bs : List Batch}
    (h : seg.Consists lib bs) : seg.Positioned lib := by
  obtain ⟨hoffsets, hbytes⟩ := Segment.tiles_positionsFrom [] bs h.file h.good h.row
  refine ⟨?_, ?_⟩
  · rw [h.positions]
    exact hoffsets
  · rw [h.positions]
    exact hbytes

/-- The manager represents the log: it is in order, and readers see the log from the head offset on. -/
structure SegmentManager.Represents (lib : BatchLibraries) (log : List Message) (m : SegmentManager) :
    Prop where
  sorted : m.segments.Pairwise fun a b => a.baseOffset < b.baseOffset
  contiguous : m.segments.IsChain fun a b => a.nextOffset = b.baseOffset
  head : (m.segments.head m.nonempty).baseOffset = m.headOffset
  tail : m.activeSegment.nextOffset = m.tailOffset
  positioned : ∀ seg ∈ m.segments, seg.Positioned lib
  read : ∀ offset, if m.headOffset ≤ offset ∧ offset < m.tailOffset then
      ∃ original msg, log[offset]? = some original ∧ m.read lib offset = .ok msg ∧ original.Same msg
    else m.read lib offset = .error .offsetOutOfRange
  readRange : ∀ startOffset endOffset maxMessages,
    ∃ found, m.readRange lib startOffset endOffset maxMessages = some (.ok found) ∧
      List.Forall₂ Message.Same
        (if m.headOffset ≤ startOffset then (slice 0 log startOffset endOffset).take maxMessages else [])
        found

theorem SegmentManager.Stores.represents {log : List Message}
    {m : SegmentManager} (h : m.Stores lib log) : m.Represents lib log where
  sorted := h.sorted
  contiguous := h.tiles.isChain
  head := h.tiles.lo_head m.nonempty
  tail := h.activeSegment.2.2
  positioned := by
    intro seg hseg
    obtain ⟨bs, hbs, -⟩ := (h.stores seg hseg).held
    exact hbs.positioned
  read := by
    intro offset
    split
    · rename_i hin
      exact h.read hin.1 hin.2
    · exact h.read_eq_error (by omega)
  readRange := h.readRange

/-- An operation on a manager. -/
inductive LogAction where
  /-- `Append` of a batch with these items, that was begun at a time. -/
  | append (now : Time) (created : Int64) (items : List Batch.Item)
  | truncate (beforeOffset : Nat) (now : Time)
  | applyRetention (old : Segment → Bool)
  /-- `Close`, and `NewSegmentManager` on what is left. -/
  | reopen (modTime : Nat → Time) (now : Time)

/-- A manager, and the records it was given. -/
structure LogState where
  manager : SegmentManager
  log : List Message := []

/-- The log of a new directory. -/
def LogState.new (now : Time) : LogState where
  manager := .fresh 0 now

/-- The state after an operation. A manager that cannot be opened again stays closed, and its files as
they are. -/
def LogState.step (cfg : ManagerConfig) (lib : BatchLibraries) (s : LogState) : LogAction → LogState
  | .append now created items =>
    match s.manager.append cfg lib now (Batch.build 0 created compressionNone items) with
    | (manager, .ok offset) =>
      { manager, log := s.log ++ items.mapIdx fun i item => item.message (offset + i) }
    | (manager, .error _) => { s with manager }
  | .truncate beforeOffset now => { s with manager := s.manager.truncate beforeOffset now }
  | .applyRetention old => { s with manager := s.manager.applyRetention cfg old }
  | .reopen modTime now =>
    match newSegmentManager modTime now s.manager.files with
    | some manager => { s with manager }
    | none => s

/-- A batch that is not empty, fits its header and has no nil header value, with sizes and offsets that
Go can count. -/
structure Batch.Storable (lib : BatchLibraries) (b : Batch) : Prop extends b.Fits lib, b.Addressable where
  nonempty : b.records ≠ []

/-- Batches that are appended can be stored, and truncation does not go behind the tail. -/
def LogState.Admissible (cfg : ManagerConfig) (lib : BatchLibraries) (s : LogState) : LogAction → Prop
  | .append _ created items =>
    (Batch.build s.manager.tailOffset created cfg.compression items).Storable lib
  | .truncate beforeOffset _ => beforeOffset ≤ s.manager.tailOffset
  | .applyRetention _ => True
  | .reopen _ _ => True

namespace Batch

variable {lib : BatchLibraries} {baseOffset : Nat} {created : Int64} {compression : CompressionType}
  {items : List Item}

lemma Storable.good (h : (build baseOffset created compression items).Storable lib) :
    (build baseOffset created compression items).Good lib where
  __ := h
  plain := isCompressed_build
  addressable := h.toAddressable
  deltas := by
    intro i r hr
    have hcount := h.count
    have hi : i < (build baseOffset created compression items).records.length :=
      (List.getElem?_eq_some_iff.mp hr).1
    rw [records_build, List.getElem?_mapIdx, Option.map_eq_some_iff] at hr
    obtain ⟨item, -, rfl⟩ := hr
    rw [recordOf, UInt32.toNat_ofNat']
    omega

/-- What is read of the batch are its items. -/
lemma Storable.messages (h : (build baseOffset created compression items).Storable lib) :
    List.Forall₂ Message.Same (items.mapIdx fun i item => item.message (baseOffset + i))
      ((build baseOffset created compression items).messages lib) := by
  have hne : items ≠ [] := by
    rintro rfl
    exact h.nonempty (by rw [records_build]; rfl)
  obtain ⟨data, b', hencode, hdecode, hback⟩ := roundTrips_of_fits hne h.toAddressable h.toFits
  obtain rfl := Except.ok.inj ((encode_eq_ok h.nonempty).symm.trans hencode)
  obtain rfl := Except.ok.inj (h.good.decodeBatch_bytes.symm.trans hdecode)
  exact hback.toMessages

end Batch

namespace LogState

variable {cfg : ManagerConfig} {lib : BatchLibraries}

lemma stores_step (s : LogState) (a : LogAction) (h : s.manager.Stores lib s.log)
    (ha : s.Admissible cfg lib a) : (s.step cfg lib a).manager.Stores lib (s.step cfg lib a).log := by
  cases a with
  | append now created items =>
    obtain ⟨m', happend, hstores⟩ | hfail :=
      h.append (b := build 0 created compressionNone items) ha.good ha.messages now
    · rw [step, happend]
      exact hstores
    · rw [step, hfail]
      exact h
  | truncate beforeOffset now => exact h.truncate ha now
  | applyRetention old => exact h.applyRetention old
  | reopen modTime now =>
    obtain ⟨m', hopen, hstores⟩ := h.reopen modTime now
    rw [step, hopen]
    exact hstores

lemma stores_run {now : Time} {actions : List LogAction}
    (h : Along (step cfg lib) (Admissible cfg lib) (new now) actions) :
    (run (step cfg lib) (new now) actions).manager.Stores lib
      (run (step cfg lib) (new now) actions).log :=
  invariant_run (I := fun s : LogState => s.manager.Stores lib s.log) stores_step
    (SegmentManager.Stores.fresh now) h

/-- In every run of operations in which what is appended can be stored, the manager represents the
records that were appended, and can be opened again. -/
theorem represents_run (cfg : ManagerConfig) (lib : BatchLibraries) (now : Time)
    (actions : List LogAction) (h : Along (step cfg lib) (Admissible cfg lib) (new now) actions) :
    let s := run (step cfg lib) (new now) actions
    s.manager.Represents lib s.log ∧
      ∀ modTime now, (newSegmentManager modTime now s.manager.files).isSome = true := by
  have hstores := stores_run h
  refine ⟨hstores.represents, fun modTime now => ?_⟩
  obtain ⟨m', hopen, -⟩ := hstores.reopen modTime now
  rw [hopen]
  rfl

/-- A record is appended, a truncation keeps it, and the files are opened again. -/
theorem represents_run_sample :
    let actions : List LogAction :=
      [.append 5 990 [Batch.sampleItem (some [1])], .truncate 0 7, .reopen (fun _ => 7) 8]
    let s := run (step {} Batch.plainLibraries) (new 0) actions
    s.log.length = 1 ∧ s.manager.Represents Batch.plainLibraries s.log ∧
      ∀ modTime now, (newSegmentManager modTime now s.manager.files).isSome = true :=
  ⟨by decide +kernel, represents_run {} plainLibraries 0 _
    ⟨⟨⟨⟨by decide +kernel, by decide +kernel⟩, (nonNil_sampleItem_iff _).mpr (by simp)⟩,
      ⟨by decide +kernel, by decide +kernel⟩, cons_ne_nil _ _⟩, Nat.zero_le _, trivial, trivial⟩⟩

/-- Batches that are appended can be stored. -/
def Writable (cfg : ManagerConfig) (lib : BatchLibraries) (s : LogState) : LogAction → Prop
  | .append _ created items =>
    (Batch.build s.manager.tailOffset created cfg.compression items).Storable lib
  | _ => True

/-- The records that are remembered make no difference to the manager. -/
lemma manager_step (s : LogState) (log : List Message) (a : LogAction) :
    (step cfg lib { s with log } a).manager = (step cfg lib s a).manager := by
  cases a with
  | append now created items =>
    simp only [step]
    split <;> rfl
  | truncate beforeOffset now => rfl
  | applyRetention old => rfl
  | reopen modTime now =>
    simp only [step]
    split <;> rfl

lemma exists_stores_step (s : LogState) (a : LogAction) (h : ∃ log, s.manager.Stores lib log)
    (ha : s.Writable cfg lib a) : ∃ log, (s.step cfg lib a).manager.Stores lib log := by
  obtain ⟨log, hlog⟩ := h
  have hstep (hadmissible : Admissible cfg lib { s with log } a) :
      ∃ log, (s.step cfg lib a).manager.Stores lib log := by
    rw [← manager_step s log a]
    exact ⟨_, stores_step { s with log } a hlog hadmissible⟩
  cases a with
  | append now created items => exact hstep ha
  | truncate beforeOffset now => exact hlog.exists_truncate beforeOffset now
  | applyRetention old => exact hstep trivial
  | reopen modTime now => exact hstep trivial

/-- In every run in which what is appended can be stored, the next batch is accepted at the tail, unless
the active segment is to be replaced before it has a record. -/
theorem append_accepted (cfg : ManagerConfig) (lib : BatchLibraries) (start : Time)
    (actions : List LogAction) (h : Along (step cfg lib) (Writable cfg lib) (new start) actions)
    (now : Time) (created : Int64) (items : List Batch.Item)
    (hb : (run (step cfg lib) (new start) actions).Writable cfg lib (.append now created items)) :
    let m := (run (step cfg lib) (new start) actions).manager
    m.shouldRotate cfg now = false ∨ m.activeSegment.baseOffset < m.tailOffset →
      ∃ m', m.append cfg lib now (Batch.build 0 created compressionNone items) = (m', .ok m.tailOffset) ∧
        m'.tailOffset = m.tailOffset + items.length := by
  intro m hactive
  obtain ⟨log, hlog⟩ : ∃ log, m.Stores lib log :=
    invariant_run (I := fun s : LogState => ∃ log, s.manager.Stores lib log) exists_stores_step
      ⟨[], SegmentManager.Stores.fresh start⟩ h
  obtain ⟨m', happend, hstores⟩ | hfail :=
    hlog.append (b := Batch.build 0 created compressionNone items) hb.good hb.messages now
  · refine ⟨m', happend, ?_⟩
    rw [hstores.tail, hlog.tail, length_append, length_mapIdx]
  -- There is no file in the way.
  rw [SegmentManager.append] at hfail
  split at hfail
  · rename_i hnone
    split at hnone
    · rename_i hdue
      obtain ⟨m', hcreate⟩ := hlog.exists_createSegment (hactive.resolve_left (by simp [hdue])) now
      exact nomatch hnone.symm.trans hcreate
    · exact nomatch hnone
  · split at hfail <;> exact nomatch congrArg Prod.snd hfail

/-- A second segment is begun for the second record. -/
theorem append_accepted_sample :
    let s := run (step { maxSegmentSize := 1 } plainLibraries) (new 0)
      [.truncate 3 0, .append 5 990 [sampleItem (some [1])]]
    ∃ m', s.manager.append { maxSegmentSize := 1 } plainLibraries 9
        (Batch.build 0 990 compressionNone [sampleItem (some [1])]) = (m', .ok 4) ∧
      m'.tailOffset = 4 + 1 :=
  append_accepted { maxSegmentSize := 1 } plainLibraries 0
    [.truncate 3 0, .append 5 990 [sampleItem (some [1])]] ⟨trivial,
    ⟨⟨⟨by decide +kernel, by decide +kernel⟩, (nonNil_sampleItem_iff _).mpr (by simp)⟩,
      ⟨by decide +kernel, by decide +kernel⟩, cons_ne_nil _ _⟩, trivial⟩ 9 990 _
    ⟨⟨⟨by decide +kernel, by decide +kernel⟩, (nonNil_sampleItem_iff _).mpr (by simp)⟩,
      ⟨by decide +kernel, by decide +kernel⟩, cons_ne_nil _ _⟩ (.inr (by decide +kernel))

/-- An hour after it was made, a log without a record accepts none. -/
theorem append_refused_idle :
    ((new 0).manager.append {} plainLibraries (3601 * second)
      (Batch.build 0 990 compressionNone [sampleItem (some [1])])).2 = .error .segmentExists := by
  rfl

/-- The segment of a single batch at offset 0. -/
def singleBatch (data : ByteString) (stop : Nat) : Segment where
  baseOffset := 0
  nextOffset := stop
  size := data.length
  createdAt := 0
  batchPositions := [⟨0, 0, data.length⟩]
  file := data

variable {data : ByteString}

lemma append_createSegment {b : Batch} (hbase : b.baseOffset = 0)
    (hencode : b.encode lib = .ok data) :
    (Logstorage.createSegment 0 0).append lib b = .ok (singleBatch data b.nextOffset) := by
  have hbatch : { b with baseOffset := 0 } = b := by rw [← hbase]
  rw [Segment.append, if_pos hbase]
  simp only [Logstorage.createSegment, hbatch, hencode]
  simp [singleBatch]

/-- The first batch of a log. -/
lemma append_fresh {b : Batch} (hbase : b.baseOffset = 0)
    (hcompression : b.compression = compressionNone) (hencode : b.encode lib = .ok data) :
    (SegmentManager.fresh 0 0).append { compression := compressionNone } lib 0 b =
      ({ segments := [singleBatch data b.nextOffset]
         headOffset := 0
         tailOffset := b.nextOffset
         nonempty := cons_ne_nil _ _ }, .ok 0) := by
  have hstay : (SegmentManager.fresh 0 0).shouldRotate { compression := compressionNone } 0 = false := by
    decide
  have hbatch : { b with baseOffset := 0, compression := compressionNone } = b := by
    rw [← hbase, ← hcompression]
  have hactive : (SegmentManager.fresh 0 0).appendActive { compression := compressionNone } lib b =
      .ok { segments := [singleBatch data b.nextOffset]
            headOffset := 0
            tailOffset := b.nextOffset
            nonempty := cons_ne_nil _ _ } := by
    simp only [SegmentManager.appendActive, SegmentManager.activeSegment, SegmentManager.fresh,
      getLast_singleton, hbatch, append_createSegment hbase hencode, dropLast_singleton,
      nil_append]
  rw [SegmentManager.append, hstay]
  simp only [Bool.false_eq_true, if_false, hactive]
  rfl
/-- A segment with a single batch that is not decoded cannot be read. -/
lemma read_singleBatch_ne_ok (stop : Nat) (h : ∀ b, decodeBatch lib data ≠ .ok b) (msg : Message) :
    (singleBatch data stop).read lib 0 ≠ .ok msg := by
  have hfind : (singleBatch data stop).findBatchPosition 0 = some ⟨0, 0, data.length⟩ := by
    simp [Segment.findBatchPosition, Segment.searchBatch, singleBatch]
  have hslice : ((singleBatch data stop).file.drop 0).take data.length = data := take_length
  rw [Segment.read, Segment.readBatchContaining, hfind]
  simp only [hslice]
  split
  · intro hread
    cases hread
  cases hdecode : decodeBatch lib data with
  | error err =>
    intro hread
    cases hread
  | ok b => exact absurd hdecode (h b)

lemma findSegment_single {m : SegmentManager} {stop : Nat} (hstop : 0 < stop)
    (h : m.segments = [singleBatch data stop]) : m.findSegment 0 = some (singleBatch data stop) := by
  simp [SegmentManager.findSegment, h, Search.search, Search.bisect, singleBatch, hstop]

/-- A record with a value only. -/
def valueItem (value : ByteString) : Batch.Item where
  now := 0
  value := some value
  key := none
  headers := ∅

lemma length_encodeRecords_valueItem (value : ByteString) :
    (encodeRecords (build 0 0 compressionNone [valueItem value]).records).length =
      4 + ((putVarint value.length).length + value.length) := by
  have hrecords : [valueItem value].mapIdx (recordOf 0) = [recordOf 0 0 (valueItem value)] := rfl
  have hoffset : (putUvarint (UInt32.ofNat 0).toNat).length = 1 := by decide
  have htime : (putVarint ((0 : Int64) - 0).toInt).length = 1 := by decide
  have hkey : (putVarint (-1)).length = 1 := by decide
  have hheaders : (putUvarint 0).length = 1 := by decide
  rw [records_build, hrecords, encodeRecords, flatMap_singleton]
  simp only [encodeRecord, recordOf, valueItem, encodeNullable, length_append, hoffset, htime,
    hkey, AList.empty_entries, length_nil, hheaders, flatMap_nil]
  omega

/-- A record with a value of 2^32 bytes is appended, and cannot be read. -/
theorem large_batch_unreadable :
    let large := List.replicate (2 ^ 32) 0
    let s := run (step { compression := compressionNone } Batch.plainLibraries) (new 0)
      [.append 0 0 [valueItem large]]
    s.manager.headOffset = 0 ∧ s.manager.tailOffset = 1 ∧
      ∀ msg, s.manager.read Batch.plainLibraries 0 ≠ .ok msg := by
  intro large
  have hlarge : large.length = 2 ^ 32 := length_replicate
  clear_value large
  have hlength := length_encodeRecords_valueItem large
  have hvarint : (putVarint (2 ^ 32 : Nat)).length = 5 := by decide
  rw [hlarge, hvarint] at hlength
  have hcount : (build 0 0 compressionNone [valueItem large]).records.length = 1 := by
    rfl
  have hdecode (b : Batch) : decodeBatch plainLibraries
      ((build 0 0 compressionNone [valueItem large]).bytes plainLibraries) ≠ .ok b := by
    refine decodeBatch_ne_ok_of_length ⟨by omega, ?_⟩ isCompressed_build
      isCompressed_stored_build (by omega) ?_
    · exact Nat.one_le_two_pow
    · rw [stored_of_uncompressed rfl, hlength]
      omega
  have hencode : (build 0 0 compressionNone [valueItem large]).encode plainLibraries =
      .ok ((build 0 0 compressionNone [valueItem large]).bytes plainLibraries) :=
    encode_eq_ok (records_build_ne_nil (cons_ne_nil _ _))
  have happend := append_fresh rfl rfl hencode
  rw [run_cons, run_nil, step, new, happend]
  refine ⟨rfl, rfl, fun msg => ?_⟩
  rw [SegmentManager.read, findSegment_single Nat.one_pos rfl]
  exact read_singleBatch_ne_ok 1 hdecode msg

end LogState

end FluxMQ.Logstorage
