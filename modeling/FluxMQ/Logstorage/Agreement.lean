import FluxMQ.Logstorage.Adapter

/-!
# Stores that differ in times no reader sees

Some of what the store keeps is stamped with the local clock: the log store's copy of a pending
entry, and the segments of a log. Two stores that were given the same operations at different times
may therefore differ. They agree if no reader can tell.

* `SegmentManager.Agree`: the same records, and the same segments unless segments are sealed by age.
* `ConsumerState.Agree`: the same entries up to the times of their deliveries, and of their last
  attempts unless a reader is shown them.
* `GroupRecord.Agree` and `Adapter.Agree`: the same metadata, with consumer states and logs that
  agree. Readers are shown the log store's times for every group that is not a stream.

Each operation of the store keeps stores in agreement, under the conditions its lemma states.
-/

namespace FluxMQ

open GroupRecord Segment Function SegmentManager ConsumerGroup List

/-! ### Logs -/

/-- The segment without the time of its creation. -/
def Segment.undated (seg : Segment) : Segment :=
  { seg with createdAt := 0 }

namespace SegmentManager

variable {limits : SegmentLimits} {m m' : SegmentManager} {now now' : Time}

/-- The two logs have the same records, in the same segments unless segments are sealed by age. -/
structure Agree (limits : SegmentLimits) (m m' : SegmentManager) : Prop where
  toLog : m.toLog = m'.toLog
  segments : limits.maxSegmentAge ≤ 0 → m.segments.map Segment.undated = m'.segments.map .undated

lemma Agree.refl (m : SegmentManager) : Agree limits m m := ⟨rfl, fun _ => rfl⟩

lemma headOffset_eq (m : SegmentManager) :
    m.headOffset = (m.segments.head m.nonempty).baseOffset := by
  obtain ⟨seg, rest, hsegments⟩ := exists_cons_of_ne_nil m.nonempty
  have hspans := m.spans
  simp only [hsegments, Spans, head_cons] at hspans ⊢
  exact hspans.1.symm

/-- The records of a log do not depend on when its segments were created. -/
lemma toLog_eq_of_undated (h : m.segments.map undated = m'.segments.map .undated) :
    m.toLog = m'.toLog := by
  have hrecords : ∀ l : List Segment, l.flatMap records = (l.map undated).flatMap records := by
    intro l
    rw [flatMap_map]
    rfl
  have hhead : m.headOffset = m'.headOffset := by
    rw [headOffset_eq, headOffset_eq]
    have := congrArg (fun l => l.head?.map baseOffset) h
    simpa [head?_map, head?_eq_some_head m.nonempty,
      head?_eq_some_head m'.nonempty, undated] using this
  rw [toLog, toLog, hrecords m.segments, hrecords m'.segments, h, hhead]

lemma undated_rotate {rotated : SegmentManager} (h : m.rotate now = some rotated) :
    rotated.segments.map undated =
      m.segments.map .undated ++ [{ baseOffset := m.tailOffset, createdAt := 0 }] := by
  unfold rotate at h
  split at h
  · cases h
  · obtain rfl := Option.some.inj h
    simp [undated]

lemma undated_write (m : SegmentManager) (records : List Record) (bytes : Nat) :
    (m.write records bytes).segments.map undated =
      match (m.segments.map undated).getLast? with
      | none => m.segments.map .undated
      | some active => (m.segments.map .undated).dropLast ++
        [{ active with records := active.records ++ records, size := active.size + bytes }] := by
  unfold write
  split <;> rename_i hactive <;> simp [getLast?_map, hactive, undated]

/-- Without an age limit a segment is sealed when it is full, whatever the time. -/
lemma shouldRotate_eq (hage : limits.maxSegmentAge ≤ 0) (m : SegmentManager) (now : Time) :
    m.shouldRotate limits now =
      match (m.segments.map undated).getLast? with
      | none => true
      | some active => active.isFull limits.maxSegmentSize := by
  have hage' : decide (0 < limits.maxSegmentAge) = false := by simpa using hage
  unfold shouldRotate
  rcases hlast : m.segments.getLast? with _ | active
  · simp [getLast?_map, hlast]
  · simp [getLast?_map, hlast, hage', undated, isFull]

lemma Agree.tailOffset (h : Agree limits m m') : m.tailOffset = m'.tailOffset := by
  rw [← tail_toLog, ← tail_toLog, h.toLog]

/-- Appends that succeed on both sides. -/
lemma Agree.append (h : Agree limits m m') {records : List Record} {bytes : Nat}
    {n n' : SegmentManager} (hn : m.append limits now records bytes = some n)
    (hn' : m'.append limits now' records bytes = some n') : Agree limits n n' := by
  refine ⟨by rw [toLog_append hn, toLog_append hn', h.toLog], fun hage => ?_⟩
  have hsegments := h.segments hage
  have hrotate : m.shouldRotate limits now = m'.shouldRotate limits now' := by
    rw [shouldRotate_eq hage, shouldRotate_eq hage, hsegments]
  unfold SegmentManager.append at hn hn'
  rw [hrotate] at hn
  split at hn
  · rename_i hdue
    rw [if_pos hdue] at hn'
    obtain ⟨rotated, hr, rfl⟩ := Option.map_eq_some_iff.1 hn
    obtain ⟨rotated', hr', rfl⟩ := Option.map_eq_some_iff.1 hn'
    rw [undated_write, undated_write, undated_rotate hr, undated_rotate hr', hsegments,
      h.tailOffset]
  · rename_i hdue
    rw [if_neg hdue] at hn'
    obtain rfl := Option.some.inj hn
    obtain rfl := Option.some.inj hn'
    rw [undated_write, undated_write, hsegments]

lemma Agree.truncate (h : Agree limits m m') (hage : limits.maxSegmentAge ≤ 0)
    (beforeOffset : Nat) :
    Agree limits (m.truncate now beforeOffset) (m'.truncate now' beforeOffset) := by
  -- A segment is deleted for where it ends, which its creation time does not change.
  have hfilter : ∀ l : List Segment,
      (l.filter fun seg => decide (beforeOffset < seg.nextOffset)).map undated =
        (l.map undated).filter fun seg => decide (beforeOffset < seg.nextOffset) := by
    intro l
    rw [filter_map]
    rfl
  have hkept := congrArg (List.filter fun seg => decide (beforeOffset < seg.nextOffset))
    (h.segments hage)
  rw [← hfilter, ← hfilter] at hkept
  have hsegments : (m.truncate now beforeOffset).segments.map undated =
      (m'.truncate now' beforeOffset).segments.map .undated := by
    have htail : m.tailOffset = m'.tailOffset := by rw [← tail_toLog, ← tail_toLog, h.toLog]
    rcases m.truncate_cases now beforeOffset with ⟨-, hm, -, hle⟩ | ⟨hm, -, hlt⟩ <;>
      rcases m'.truncate_cases now' beforeOffset with ⟨-, hm', -, hle'⟩ | ⟨hm', -, hlt'⟩
    · rw [hm, hm']
      rfl
    · omega
    · omega
    · rw [hm, hm', hkept]
  exact ⟨toLog_eq_of_undated hsegments, fun _ => hsegments⟩

end SegmentManager

/-! ### Consumer states -/

namespace LogPendingEntry

/-- The entry without the times that no reader sees: the time of its delivery, and the time of its
last attempt unless the entry is shown. -/
def undated (shown : Bool) (e : LogPendingEntry) : LogPendingEntry :=
  { e with deliveredAt := 0, lastAttempt := if shown then e.lastAttempt else 0 }

lemma undated_undated (shown : Bool) (e : LogPendingEntry) :
    (e.undated shown).undated false = e.undated false := rfl

end LogPendingEntry

namespace ConsumerState

variable {shown : Bool} {cs cs' : ConsumerState} {offset : Nat}

/-- The two states differ at most in times that no reader sees. -/
structure Agree (shown : Bool) (cs cs' : ConsumerState) : Prop where
  ackFloor : cs.ackFloor = cs'.ackFloor
  cursor : cs.cursor = cs'.cursor
  delivered : cs.delivered = cs'.delivered
  entries : cs.entries.map (·.undated shown) = cs'.entries.map (·.undated shown)

lemma Agree.refl (shown : Bool) (cs : ConsumerState) : Agree shown cs cs := ⟨rfl, rfl, rfl, rfl⟩

section

variable (h : Agree shown cs cs')
include h

lemma Agree.ite {ds ds' : ConsumerState} (c : Prop) [Decidable c] (h' : Agree shown ds ds') :
    Agree shown (if c then cs else ds) (if c then cs' else ds') := by
  split
  · exact h
  · exact h'

lemma Agree.hide : Agree false cs cs' := by
  refine { h with entries := ?_ }
  have := congrArg (List.map (·.undated false)) h.entries
  simpa only [map_map, comp_def, LogPendingEntry.undated_undated] using this

lemma Agree.entries_eq_nil (hcs : cs.entries = []) : cs'.entries = [] := by
  have := h.entries
  rw [hcs] at this
  simpa using this.symm

/-- Without entries there is no time to hide. -/
lemma Agree.show_of_nil (hcs : cs.entries = []) : Agree true cs cs' :=
  { h with entries := by simp [hcs, h.entries_eq_nil hcs] }

end

/-- What a reader is shown. -/
lemma Agree.allPending (h : Agree true cs cs') : cs.allPending = cs'.allPending := by
  have := congrArg (List.map fun e => (e.consumerId, e.toTypes)) h.entries
  simpa [ConsumerState.allPending, comp_def, LogPendingEntry.undated,
    LogPendingEntry.toTypes] using this

section

variable (h : Agree shown cs cs')
include h

lemma Agree.isPending (offset : Nat) : cs.isPending offset = cs'.isPending offset := by
  have := congrArg (any · fun e => e.offset == offset) h.entries
  simpa only [any_map, comp_def, LogPendingEntry.undated, ConsumerState.isPending] using this

lemma Agree.applySetCursor (cursor : Nat) :
    Agree shown (cs.applySetCursor cursor) (cs'.applySetCursor cursor) :=
  { h with cursor := rfl }

lemma Agree.applyAdvanceFloor (floor : Nat) :
    Agree shown (cs.applyAdvanceFloor floor) (cs'.applyAdvanceFloor floor) := by
  unfold ConsumerState.applyAdvanceFloor
  rw [h.ackFloor]
  split
  · exact { h with ackFloor := rfl }
  · exact h

lemma Agree.tryAdvanceAckFloor : Agree shown cs.tryAdvanceAckFloor cs'.tryAdvanceAckFloor := by
  have hfloor : ∀ fuel floor, cs.floorFrom fuel floor = cs'.floorFrom fuel floor := by
    intro fuel
    induction fuel with
    | zero => exact fun _ => rfl
    | succ fuel ih =>
      intro floor
      rw [floorFrom, floorFrom, h.cursor, h.isPending, ih]
  refine { h with ackFloor := ?_ }
  show cs.floorFrom _ _ = cs'.floorFrom _ _
  rw [hfloor, h.cursor, h.ackFloor]

end

/-- Whether an entry is filtered out for its offset does not depend on its times. -/
lemma undated_filter (shown : Bool) (offset : Nat) (l : List LogPendingEntry) :
    (l.filter fun e => e.offset != offset).map (·.undated shown) =
      (l.map (·.undated shown)).filter fun e => e.offset != offset := by
  rw [filter_map]
  rfl

lemma Agree.applyAck (h : Agree shown cs cs') (offset : Nat) :
    Agree shown (cs.applyAck offset) (cs'.applyAck offset) := by
  unfold ConsumerState.applyAck
  rw [h.isPending]
  split
  · refine Agree.tryAdvanceAckFloor { h with entries := ?_ }
    rw [undated_filter, undated_filter, h.entries]
  · exact h

/-- Two changes to the entry at an offset that show the same change. -/
lemma Agree.modifyEntry (h : Agree shown cs cs') {f f' : LogPendingEntry → LogPendingEntry}
    (hf : ∀ e, (f e).offset = e.offset) (hf' : ∀ e, (f' e).offset = e.offset)
    (change : LogPendingEntry → LogPendingEntry)
    (hchange : ∀ e, (f e).undated shown = change (e.undated shown))
    (hchange' : ∀ e, (f' e).undated shown = change (e.undated shown)) :
    Agree shown (cs.modifyEntry offset f hf) (cs'.modifyEntry offset f' hf') := by
  refine { h with entries := ?_ }
  have hmap : ∀ (g : LogPendingEntry → LogPendingEntry) (l : List LogPendingEntry),
      (∀ e, (g e).undated shown = change (e.undated shown)) →
        (l.map fun e => if e.offset = offset then g e else e).map (·.undated shown) =
          (l.map (·.undated shown)).map fun e => if e.offset = offset then change e else e := by
    intro g l hg
    simp only [map_map]
    refine map_congr_left fun e _ => ?_
    have hoffset : (e.undated shown).offset = e.offset := rfl
    simp only [comp_apply, hoffset]
    split
    · exact hg e
    · rfl
  simp only [ConsumerState.modifyEntry]
  rw [hmap f _ hchange, hmap f' _ hchange', h.entries]

lemma Agree.releaseAt (h : Agree shown cs cs') (attemptedAt : Time) :
    Agree shown (cs.releaseAt offset attemptedAt) (cs'.releaseAt offset attemptedAt) := by
  unfold ConsumerState.releaseAt applyRelease
  exact h.modifyEntry _ _
    (fun e => { e with lastAttempt := if shown then unixMilli attemptedAt else 0 })
    (fun _ => rfl) fun _ => rfl

variable {now now' : Time}

/-- Where it is hidden, the time of a claim does not matter. -/
lemma Agree.claim (h : Agree false cs cs') (newConsumerId : String) :
    Agree false (cs.claim now offset newConsumerId) (cs'.claim now' offset newConsumerId) := by
  unfold ConsumerState.claim applyClaim
  exact h.modifyEntry _ _
    (fun e => { e with consumerId := newConsumerId, deliveryCount := e.deliveryCount + 1 })
    (fun _ => rfl) fun _ => rfl

/-- Where it is shown, a claim of an entry that is not there does nothing. -/
lemma Agree.claim_of_shown (h : Agree shown cs cs')
    (hgone : shown = true → cs.isPending offset = false) (newConsumerId : String) :
    Agree shown (cs.claim now offset newConsumerId) (cs'.claim now' offset newConsumerId) := by
  cases shown with
  | false => exact h.claim newConsumerId
  | true =>
    have hcs := hgone rfl
    have hcs' : cs'.isPending offset = false := by rw [← h.isPending, hcs]
    unfold ConsumerState.claim applyClaim
    rw [modifyEntry_eq_self _ _ hcs, modifyEntry_eq_self _ _ hcs']
    exact h

/-- Where it is hidden, the time of a delivery does not matter. -/
lemma Agree.deliver (h : Agree false cs cs') (consumerId : String) :
    Agree false (cs.deliver now offset consumerId) (cs'.deliver now' offset consumerId) := by
  refine ⟨h.ackFloor, ?_, congrArg (· + 1) h.delivered, ?_⟩
  · show (if cs.cursor ≤ offset then _ else _) = if cs'.cursor ≤ offset then _ else _
    rw [h.cursor]
  · show List.map _ (List.filter _ _ ++ [_]) = List.map _ (List.filter _ _ ++ [_])
    rw [map_append, map_append, undated_filter, undated_filter, h.entries]
    rfl

end ConsumerState

/-! ### Groups -/

namespace ConsumerGroup

variable {g : ConsumerGroup} {offset : Nat}

/-- All entries at the offset are filed under one consumer, so that it does not matter which of
them a walk finds first. -/
def OneOwner (g : ConsumerGroup) (offset : Nat) : Prop :=
  ∀ p ∈ g.pel, ∀ p' ∈ g.pel, p.2.offset = offset → p'.2.offset = offset → p.1 = p'.1

instance (g : ConsumerGroup) (offset : Nat) : Decidable (g.OneOwner offset) :=
  inferInstanceAs (Decidable (∀ p ∈ _, ∀ p' ∈ _, _ → _ → _))

lemma findPending_eq (h : g.OneOwner offset) (order order' : PelOrder) :
    (g.findPending order offset).2 = (g.findPending order' offset).2 := by
  unfold findPending
  rcases hfind : (order.walk g.pel).find? (fun p => p.2.offset == offset) with _ | p <;>
    rcases hfind' : (order'.walk g.pel).find? (fun p => p.2.offset == offset) with _ | p'
  · rw [hfind, hfind']
  · -- What one walk finds the other passes as well.
    have hp' := order'.mem_walk.1 (mem_of_find?_eq_some hfind')
    exact absurd (find?_some hfind') (find?_eq_none.1 hfind p' (order.mem_walk.2 hp'))
  · have hp := order.mem_walk.1 (mem_of_find?_eq_some hfind)
    exact absurd (find?_some hfind) (find?_eq_none.1 hfind' p (order'.mem_walk.2 hp))
  · rw [hfind, hfind']
    exact h p (order.mem_walk.1 (mem_of_find?_eq_some hfind)) p'
      (order'.mem_walk.1 (mem_of_find?_eq_some hfind'))
      (by simpa using find?_some hfind) (by simpa using find?_some hfind')

/-- A walk does not find a consumer that holds no entry at the offset. -/
lemma findPending_ne {consumer : String} (hpending : g.pel.owner offset ≠ none)
    (hne : ∀ p ∈ g.pel, p.2.offset = offset → p.1 ≠ consumer) (order : PelOrder) :
    (g.findPending order offset).2 ≠ consumer := by
  unfold findPending
  rcases hfind : (order.walk g.pel).find? (fun p => p.2.offset == offset) with _ | p
  · refine absurd (Pel.owner_eq_none_iff.2 fun p hp => ?_) hpending
    simpa using find?_eq_none.1 hfind p (order.mem_walk.2 hp)
  · rw [hfind]
    exact hne p (order.mem_walk.1 (mem_of_find?_eq_some hfind)) (by simpa using find?_some hfind)

end ConsumerGroup

namespace GroupRecord

variable {r r' : GroupRecord}

/-- A reader is shown the log store's pending list: the group exists and is not a stream. -/
def showsLog (r : GroupRecord) : Bool :=
  r.group.any fun g => g.mode != .stream

/-- The two records differ at most in times of the log store that no reader sees. -/
structure Agree (r r' : GroupRecord) : Prop where
  queueOpen : r.queueOpen = r'.queueOpen
  group : r.group = r'.group
  state : Option.Rel (ConsumerState.Agree r.showsLog) r.state r'.state

/-- Readers of the two groups are shown the same. -/
lemma Agree.view (h : Agree r r') : r.view = r'.view := by
  unfold GroupRecord.view
  rw [h.group]
  rcases hgroup : r'.group with _ | g
  · rfl
  simp only [Option.map_some, Option.some.injEq]
  split
  · rfl
  rename_i hmode
  have hshown : r.showsLog = true := by simpa [GroupRecord.showsLog, h.group, hgroup] using hmode
  have hstate := h.state
  rw [hshown] at hstate
  unfold syncFromStore
  rw [h.queueOpen]
  split
  · generalize r.state = state, r'.state = state' at hstate
    cases hstate with
    | none => rfl
    | some hcs => simp only [hcs.cursor, hcs.allPending]
  · rfl

lemma Agree.getConsumerGroup (h : Agree r r') : Agree r.getConsumerGroup r'.getConsumerGroup := by
  refine ⟨h.queueOpen, h.view, ?_⟩
  have hshown : r.getConsumerGroup.showsLog = r.showsLog := by
    unfold GroupRecord.showsLog GroupRecord.getConsumerGroup GroupRecord.view
    rcases r.group with _ | g
    · rfl
    simp only [Option.map_some, Option.any_some]
    split
    · rfl
    · rw [mode_syncFromStore]
  rw [hshown]
  exact h.state

/-- A change to the metadata that keeps the mode. -/
lemma Agree.mapGroup (h : Agree r r') {f f' : ConsumerGroup → ConsumerGroup}
    (hf : ∀ g ∈ r.group, f g = f' g ∧ (f g).mode = g.mode) :
    Agree (r.mapGroup f) (r'.mapGroup f') := by
  have hshown : (r.mapGroup f).showsLog = r.showsLog := by
    unfold GroupRecord.showsLog GroupRecord.mapGroup
    rcases hgroup : r.group with _ | g
    · rfl
    · simp [(hf g hgroup).2]
  refine ⟨h.queueOpen, ?_, hshown ▸ h.state⟩
  unfold GroupRecord.mapGroup
  rw [← h.group]
  rcases hgroup : r.group with _ | g
  · rfl
  · simp [(hf g hgroup).1]

end GroupRecord

namespace Outcome

/-- Two outcomes with records that agree and the same error. -/
structure Agree (outcome outcome' : Outcome) : Prop where
  record : GroupRecord.Agree outcome.1 outcome'.1
  err : outcome.2 = outcome'.2

lemma Agree.of_record {r r' : GroupRecord} {err : Option StoreError} (h : r.Agree r') :
    Agree (r, err) (r', err) := ⟨h, rfl⟩

lemma Agree.andThen {outcome outcome' : Outcome} {next next' : GroupRecord → Outcome}
    (h : Agree outcome outcome')
    (hnext : ∀ r r', outcome = (r, none) → r.Agree r' → Agree (next r) (next' r')) :
    Agree (outcome.andThen next) (outcome'.andThen next') := by
  obtain ⟨r, err⟩ := outcome
  obtain ⟨r', err'⟩ := outcome'
  obtain rfl : err = err' := h.err
  rcases err with _ | err
  · exact hnext r r' rfl h.record
  · exact h

end Outcome

namespace GroupRecord

variable {r r' : GroupRecord} {offset : Nat} {order order' : PelOrder}
  {now now' : Time}

/-! #### The log store -/

variable {f f' : ConsumerState → ConsumerState}

lemma Agree.withState (h : Agree r r')
    (hf : ∀ cs cs', cs.Agree r.showsLog cs' → (f cs).Agree r.showsLog (f' cs')) :
    Outcome.Agree (r.withState f) (r'.withState f') := by
  unfold GroupRecord.withState
  rw [h.queueOpen]
  split
  · refine .of_record ⟨rfl, h.group, .some (hf _ _ ?_)⟩
    have hstate := h.state
    generalize r.state = state, r'.state = state' at hstate
    cases hstate with
    | none => exact ConsumerState.Agree.refl _ _
    | some hcs => exact hcs
  · exact .of_record h

lemma Agree.withExistingState (h : Agree r r')
    (hf : r.queueOpen = true → ∀ cs ∈ r.state, ∀ cs', cs.Agree r.showsLog cs' →
      (f cs).Agree r.showsLog (f' cs')) :
    Outcome.Agree (r.withExistingState f) (r'.withExistingState f') := by
  unfold GroupRecord.withExistingState
  rw [h.queueOpen]
  split
  · rename_i hopen
    have hstate := h.state
    rcases hs : r.state with _ | cs <;> rcases hs' : r'.state with _ | cs' <;>
      rw [hs, hs'] at hstate
    · exact .of_record h
    · cases hstate
    · cases hstate
    · cases hstate with
      | some hcs => exact .of_record ⟨rfl, h.group, .some (hf (h.queueOpen.trans hopen) cs hs cs' hcs)⟩
  · exact .of_record h

lemma group_withExistingState {f : ConsumerState → ConsumerState} {r₁ : GroupRecord}
    (h : r.withExistingState f = (r₁, none)) : r₁.group = r.group := by
  unfold withExistingState at h
  split at h
  · split at h
    · cases h
      rfl
    · cases h
  · cases h

/-! #### The operations on one group -/

/-- The log store has no pending entries for the group. -/
def NoEntries (r : GroupRecord) : Prop :=
  ∀ cs ∈ r.state, cs.entries = []

section

variable (h : Agree r r')
include h

/-- A group that takes the place of another may show times that were hidden before, if there are
any. -/
lemma Agree.setGroup (g : Option ConsumerGroup)
    (hshow : (g.any fun g => g.mode != .stream) → r.showsLog = true ∨ r.NoEntries) :
    Agree { r with group := g } { r' with group := g } := by
  refine ⟨h.queueOpen, rfl, ?_⟩
  have hstate := h.state
  have hgroup : ({ r with group := g } : GroupRecord).showsLog = g.any fun g => g.mode != .stream :=
    rfl
  rw [hgroup]
  rcases hs : r.state with _ | cs <;> rcases hs' : r'.state with _ | cs' <;> rw [hs, hs'] at hstate
  · exact .none
  · cases hstate
  · cases hstate
  cases hstate with
  | some hcs =>
    refine .some ?_
    cases hnew : g.any fun g => g.mode != .stream with
    | false => exact hcs.hide
    | true =>
      rcases hshow hnew with hold | hnone
      · exact hold ▸ hcs
      · exact hcs.show_of_nil (hnone cs hs)

lemma Agree.createConsumerGroup {g : ConsumerGroup}
    (hfree : r.group = none → g.mode ≠ .stream → g.pel = [] ∧ r.NoEntries) :
    Outcome.Agree (r.createConsumerGroup order now g) (r'.createConsumerGroup order' now' g) := by
  unfold GroupRecord.createConsumerGroup
  rw [h.group]
  split
  · exact .of_record h
  rename_i hnew
  have hnone : r.group = none := by simpa [h.group] using hnew
  unfold seedConsumerState
  split
  · rename_i hmode
    exact .of_record (h.setGroup _ (by simp [hmode]))
  rename_i hmode
  obtain ⟨hpel, hentries⟩ := hfree hnone hmode
  -- Nothing is restored, so neither the clock nor the order of the walk is read.
  have hwalk : order.walk g.pel = [] ∧ order'.walk g.pel = [] := by
    simp [eq_nil_iff_forall_not_mem, IterationOrder.mem_walk, hpel]
  rw [hwalk.1, hwalk.2]
  refine (h.setGroup (some g) fun _ => .inr hentries).withState fun cs cs' hcs => ?_
  have hfloor := (hcs.applyAdvanceFloor g.cursor.committed).ite (0 < g.cursor.committed) hcs
  exact (hfloor.applySetCursor g.cursor.cursor).ite _ hfloor

lemma Agree.addPendingEntry (hhidden : r.showsLog = false) (entry : PendingEntry) :
    Outcome.Agree (r.addPendingEntry now entry) (r'.addPendingEntry now' entry) := by
  refine (h.withState fun cs cs' hcs => ?_).andThen fun r₁ r₁' _ h₁ =>
    .of_record (h₁.mapGroup fun g _ => ⟨rfl, rfl⟩)
  rw [hhidden] at hcs ⊢
  exact hcs.deliver _

lemma Agree.updateCursor (cursor : Nat) :
    Outcome.Agree (r.updateCursor cursor) (r'.updateCursor cursor) :=
  (h.withState fun _ _ hcs => hcs.applySetCursor cursor).andThen fun _ _ _ h₁ =>
    .of_record (h₁.mapGroup fun _ _ => ⟨rfl, rfl⟩)

lemma Agree.removePendingEntry (hone : ∀ g ∈ r.group, g.OneOwner offset) (consumerId : String) :
    Outcome.Agree (r.removePendingEntry order consumerId offset)
      (r'.removePendingEntry order' consumerId offset) := by
  refine (h.withExistingState fun _ _ _ _ hcs => hcs.applyAck offset).andThen
    fun r₁ r₁' hr₁ h₁ => .of_record (h₁.mapGroup fun g hg => ⟨?_, rfl⟩)
  rw [group_withExistingState hr₁] at hg
  simp only [findPending_eq (hone g hg) order order']

end

/-- In the log store of a group that shows it, an offset is pending exactly if the group shows it. -/
lemma isPending_eq_false {cs : ConsumerState} (hshown : r.showsLog = true)
    (hopen : r.queueOpen = true) (hcs : r.state = some cs)
    (hgone : ∀ g ∈ r.view, g.pel.owner offset = none) : cs.isPending offset = false := by
  unfold showsLog at hshown
  rcases hgroup : r.group with _ | g
  · simp [hgroup] at hshown
  have hmode : g.mode ≠ .stream := by simpa [hgroup] using hshown
  have hview : r.view = some ((g.setCursorPosition cs.cursor).replacePEL cs.allPending) := by
    simp [view, hgroup, hmode, syncFromStore, hopen, hcs]
  have hnone : cs.allPending.owner offset = none := hgone _ hview
  rw [← Bool.not_eq_true, ConsumerState.isPending_iff, hnone, not_not]

/-- A transfer that moves nothing does the same at any time. -/
lemma Agree.transferPendingEntry (h : Agree r r') {fromConsumer toConsumer : String}
    (hfree : ∀ g ∈ r.view, ∀ p ∈ g.pel, p.2.offset = offset → p.1 ≠ fromConsumer) :
    Outcome.Agree (r.transferPendingEntry order now offset fromConsumer toConsumer)
      (r'.transferPendingEntry order' now' offset fromConsumer toConsumer) := by
  have hread := h.getConsumerGroup
  unfold GroupRecord.transferPendingEntry
  simp only [← hread.group]
  rcases hgroup : r.getConsumerGroup.group with _ | g
  · exact .of_record hread
  have hview : g ∈ r.view := hgroup
  simp only
  by_cases hgone : g.pel.owner offset = none
  · -- Nothing is pending at the offset, and an operation that names no consumer passes the check.
    rw [findPending_of_owner_none order hgone, findPending_of_owner_none order' hgone]
    split
    · exact .of_record hread
    refine (hread.withExistingState fun hopen cs hcs cs' hagree => ?_).andThen
      fun r₁ r₁' hr₁ h₁ => .of_record (h₁.mapGroup fun g₁ hg₁ => ?_)
    · refine hagree.claim_of_shown
        (fun hshown => isPending_eq_false hshown hopen hcs fun g₁ hg₁ => ?_) toConsumer
      rw [view_getConsumerGroup, Option.mem_def.1 hview] at hg₁
      obtain rfl := Option.some.inj hg₁
      exact hgone
    · obtain rfl : g = g₁ := by
        rw [group_withExistingState hr₁, hgroup] at hg₁
        exact Option.some.inj hg₁
      simp [transferPending_eq_self hgone]
  · have hrefused : ∀ order, (g.findPending order offset).2 ≠ fromConsumer :=
      fun order => findPending_ne hgone (hfree g hview) order
    rw [if_pos (hrefused order), if_pos (hrefused order')]
    exact .of_record hread

lemma Agree.requeuePendingEntry (h : Agree r r') (hone : ∀ g ∈ r.group, g.OneOwner offset)
    (consumerId : String) (attemptedAt : Time) :
    Outcome.Agree (r.requeuePendingEntry order consumerId offset attemptedAt)
      (r'.requeuePendingEntry order' consumerId offset attemptedAt) := by
  unfold GroupRecord.requeuePendingEntry
  rw [← h.group]
  rcases hgroup : r.group with _ | g
  · exact .of_record h
  have howner := findPending_eq (hone g hgroup) order order'
  simp only [howner]
  split
  · exact .of_record h
  split
  · exact .of_record h
  refine (h.withExistingState fun _ _ _ _ hcs => hcs.releaseAt attemptedAt).andThen
    fun r₁ r₁' hr₁ h₁ => ?_
  split
  · obtain ⟨pel, hpel, -⟩ := exists_requeuePending (g := g) offset consumerId attemptedAt
    rw [hpel]
    refine .of_record (h₁.setGroup _ fun hmode => .inl ?_)
    rw [GroupRecord.showsLog, group_withExistingState hr₁, hgroup]
    exact hmode
  · exact .of_record h₁

lemma Agree.registerConsumer (h : Agree r r') (info : ConsumerInfo) :
    Outcome.Agree (r.registerConsumer info) (r'.registerConsumer info) := by
  unfold GroupRecord.registerConsumer
  rw [← h.group]
  rcases hgroup : r.group with _ | g
  · exact .of_record h
  · exact .of_record (h.setGroup _ fun hmode => .inl (by rw [GroupRecord.showsLog, hgroup]; exact hmode))

lemma Agree.unregisterConsumer (h : Agree r r') (consumerId : String) :
    Outcome.Agree (r.unregisterConsumer consumerId) (r'.unregisterConsumer consumerId) := by
  unfold GroupRecord.unregisterConsumer
  rw [← h.group]
  rcases hgroup : r.group with _ | g
  · exact .of_record h
  · exact .of_record (h.setGroup _ fun hmode => .inl (by rw [GroupRecord.showsLog, hgroup]; exact hmode))

end GroupRecord

/-! ### Stores -/

namespace Adapter

variable {cfg : StoreConfig} {a a' : Adapter} {queueName groupId : String} {now now' : Time}

/-- The two stores differ at most in times that no reader sees, and in the boundaries of segments
that are sealed by age. -/
structure Agree (limits : SegmentLimits) (a a' : Adapter) : Prop where
  configs : a.configs = a'.configs
  dedupe : a.dedupe = a'.dedupe
  logs : ∀ q, Option.Rel (SegmentManager.Agree limits) (a.logs q) (a'.logs q)
  groups : a.groups = a'.groups
  states : ∀ q g, Option.Rel (ConsumerState.Agree (a.record q g).showsLog) (a.states (q, g))
    (a'.states (q, g))

variable {limits : SegmentLimits}

lemma isSome_eq_of_rel {m m' : Option SegmentManager}
    (h : Option.Rel (SegmentManager.Agree limits) m m') : m.isSome = m'.isSome := by
  cases h <;> rfl

lemma Agree.refl (a : Adapter) : Agree limits a a where
  configs := rfl
  dedupe := rfl
  logs q := by
    rcases a.logs q with _ | m
    · exact .none
    · exact .some (SegmentManager.Agree.refl m)
  groups := rfl
  states q g := by
    rcases a.states (q, g) with _ | cs
    · exact .none
    · exact .some (ConsumerState.Agree.refl _ cs)

lemma Agree.record (h : Agree limits a a') (q g : String) : (a.record q g).Agree (a'.record q g) :=
  ⟨isSome_eq_of_rel (h.logs q), congrFun h.groups (q, g), h.states q g⟩

/-- Operations on one group. -/
lemma Agree.onGroup (h : Agree limits a a') {op op' : GroupRecord → Outcome}
    (hop : Outcome.Agree (op (a.record queueName groupId)) (op' (a'.record queueName groupId))) :
    Agree limits (a.onGroup queueName groupId op).1 (a'.onGroup queueName groupId op').1 := by
  refine { h with groups := ?_, states := fun q g => ?_ }
  · show update a.groups _ _ = update a'.groups _ _
    rw [h.groups, hop.record.group]
  by_cases hkey : (q, g) = (queueName, groupId)
  · obtain ⟨rfl, rfl⟩ := Prod.mk.inj hkey
    simpa [Adapter.onGroup, setRecord, Adapter.record, GroupRecord.showsLog] using hop.record.state
  have hrecord := record_onGroup_of_ne (a := a) (f := op) hkey
  rw [hrecord]
  have hstates : ∀ (b : Adapter) (act : GroupRecord → Outcome),
      (b.onGroup queueName groupId act).1.states (q, g) = b.states (q, g) :=
    fun b act => update_of_ne hkey _ _
  rw [hstates, hstates]
  exact h.states q g

/-! #### Queues -/

/-- Two outcomes with stores that agree and the same answer. -/
structure AgreeWith {ε : Type} (limits : SegmentLimits) (outcome outcome' : Adapter × ε) :
    Prop where
  store : Agree limits outcome.1 outcome'.1
  answer : outcome.2 = outcome'.2

section

variable (h : Agree limits a a')
include h

lemma Agree.setLog {m m' : Option SegmentManager}
    (hm : Option.Rel (SegmentManager.Agree limits) m m') :
    Agree limits { a with logs := update a.logs queueName m }
      { a' with logs := update a'.logs queueName m' } :=
  { h with
    logs := fun q => by
      by_cases hq : q = queueName
      · subst hq
        simpa using hm
      · simpa [update_of_ne hq] using h.logs q }

lemma Agree.createQueue (config : QueueConfig) :
    AgreeWith limits (a.createQueue now config) (a'.createQueue now' config) := by
  have hnew : SegmentManager.Agree limits (new now) (new now') := ⟨rfl, fun _ => rfl⟩
  unfold Adapter.createQueue
  rw [isSome_eq_of_rel (h.logs config.name), h.configs]
  split
  · exact ⟨h, rfl⟩
  split
  · split
    · exact ⟨h, rfl⟩
    · exact ⟨{ h with configs := rfl }, rfl⟩
  · exact ⟨{ h.setLog (.some hnew) with configs := rfl }, rfl⟩

lemma Agree.updateQueue (config : QueueConfig) :
    AgreeWith limits (a.updateQueue config) (a'.updateQueue config) := by
  unfold Adapter.updateQueue
  rw [h.configs]
  split
  · exact ⟨h, rfl⟩
  · exact ⟨{ h with configs := rfl }, rfl⟩

lemma Agree.deleteQueue (queueName : String) :
    AgreeWith limits (a.deleteQueue queueName) (a'.deleteQueue queueName) := by
  have hnone : (a.logs queueName).isNone = (a'.logs queueName).isNone := by
    rw [← Option.not_isSome, ← Option.not_isSome, isSome_eq_of_rel (h.logs queueName)]
  unfold Adapter.deleteQueue
  simp only [hnone, h.configs, h.dedupe]
  split
  · exact ⟨{ h with configs := rfl, dedupe := rfl }, rfl⟩
  refine ⟨{ h.setLog .none with configs := rfl, dedupe := rfl, states := fun q g => ?_ }, rfl⟩
  show Option.Rel (ConsumerState.Agree (a.record q g).showsLog)
    (if q = queueName then none else a.states (q, g))
    (if q = queueName then none else a'.states (q, g))
  split
  · exact .none
  · exact h.states q g

end

section

variable (h : Agree cfg.limits a a') (hopen : a.Unblocked cfg now queueName)
  (hopen' : a'.Unblocked cfg now' queueName)
include h hopen hopen'

lemma Agree.appendRecord (record : Record) :
    AgreeWith cfg.limits (a.appendRecord cfg now queueName record)
      (a'.appendRecord cfg now' queueName record) := by
  have hlog : Option.Rel (SegmentManager.Agree cfg.limits)
      ((a.logs queueName).orElse fun _ =>
        if cfg.autoCreate then some (new now) else none)
      ((a'.logs queueName).orElse fun _ =>
        if cfg.autoCreate then some (new now') else none) := by
    have hlogs := h.logs queueName
    generalize a.logs queueName = m, a'.logs queueName = m' at hlogs
    cases hlogs with
    | some hm => exact .some hm
    | none =>
      split
      · exact .some ⟨rfl, fun _ => rfl⟩
      · exact .none
  generalize hm : ((a.logs queueName).orElse _) = m, hm' : ((a'.logs queueName).orElse _) = m'
    at hlog
  cases hlog with
  | none =>
    unfold Adapter.appendRecord
    simp only [hm, hm']
    exact ⟨h, rfl⟩
  | some hagree =>
    obtain ⟨n, hn, happend⟩ := hopen.appendRecord hm record
    obtain ⟨n', hn', happend'⟩ := hopen'.appendRecord hm' record
    rw [happend, happend']
    refine ⟨h.setLog (.some (hagree.append hn hn')), ?_⟩
    show Except.ok _ = Except.ok _
    rw [hagree.tailOffset]

lemma Agree.append (e : Envelope) :
    AgreeWith cfg.limits (a.append cfg now queueName e) (a'.append cfg now' queueName e) := by
  unfold Adapter.append
  rw [h.configs]
  split
  · exact ⟨h, rfl⟩
  · exact h.appendRecord hopen hopen' _

end

lemma Agree.carriesKey (h : Agree limits a a') (key : String) (offset : Nat) :
    a.carriesKey queueName key offset = a'.carriesKey queueName key offset := by
  have hread : ((a.logs queueName).bind fun log => log.read offset) =
      (a'.logs queueName).bind fun log => log.read offset := by
    have hlogs := h.logs queueName
    generalize a.logs queueName = m, a'.logs queueName = m' at hlogs
    cases hlogs with
    | none => rfl
    | some hm => simp [read_eq, hm.toLog]
  rw [Adapter.carriesKey, Adapter.carriesKey, hread]

lemma Agree.appendOnce (h : Agree cfg.limits a a') (hopen : a.Unblocked cfg now queueName)
    (hopen' : a'.Unblocked cfg now' queueName) (key : String) (e : Envelope) :
    AgreeWith cfg.limits (a.appendOnce cfg now queueName key e)
      (a'.appendOnce cfg now' queueName key e) := by
  unfold Adapter.appendOnce
  simp only [h.configs, h.dedupe, h.carriesKey]
  split
  · exact ⟨h, rfl⟩
  split
  · exact ⟨h, rfl⟩
  have happly : AgreeWith cfg.limits
      (a.appendRecord cfg now queueName (.envelope { e with transferId := key }))
      (a'.appendRecord cfg now' queueName (.envelope { e with transferId := key })) :=
    h.appendRecord hopen hopen' _
  obtain ⟨hstore, hanswer⟩ := happly
  rcases happend : a.appendRecord cfg now queueName (.envelope { e with transferId := key })
    with ⟨b, answer⟩
  rcases happend' : a'.appendRecord cfg now' queueName
    (.envelope { e with transferId := key }) with ⟨b', answer'⟩
  rw [happend, happend'] at hstore hanswer
  obtain rfl : answer = answer' := hanswer
  rcases answer with err | offset
  · exact ⟨hstore, rfl⟩
  · refine ⟨{ hstore with dedupe := ?_ }, rfl⟩
    show update b.dedupe _ _ = update b'.dedupe _ _
    rw [hstore.dedupe]

lemma Agree.truncate (h : Agree limits a a') (hage : limits.maxSegmentAge ≤ 0) (minOffset : Nat) :
    AgreeWith limits (a.truncate now queueName minOffset)
      (a'.truncate now' queueName minOffset) := by
  have hlogs := h.logs queueName
  unfold Adapter.truncate
  rcases hm : a.logs queueName with _ | m <;> rcases hm' : a'.logs queueName with _ | m' <;>
    rw [hm, hm'] at hlogs
  · exact ⟨h, rfl⟩
  · cases hlogs
  · cases hlogs
  cases hlogs with
  | some hagree =>
    refine ⟨{ h.setLog (.some (hagree.truncate hage minOffset)) with dedupe := ?_ }, rfl⟩
    show update a.dedupe _ _ = update a'.dedupe _ _
    rw [h.dedupe]

end Adapter

end FluxMQ
