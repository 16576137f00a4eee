import FluxMQ.Consumer.System
import FluxMQ.Queue.StreamDelivery

/-!
# Stream delivery skips nothing

Whatever the cursor of a stream group has passed since it started or since it last sought has been
delivered, or can no longer be: it was truncated, has expired, does not decode or is outside the
filter.

Without a seek this holds in every state of every interleaving of passes, appends and truncations.
A seek is safe if it does not go behind a pass in flight: the pass would move the cursor back over
the records that the seek asked for.
-/

namespace FluxMQ

open GroupRecord List

namespace Stream

variable (filter : Filter) (now : Time) (s : Stream)

/-- The record at an offset is retained, decodes, has not expired and matches the filter. -/
def Due (offset : Nat) : Prop :=
  eligible s.manager.log filter s.manager.record.live.queueName now offset

instance (offset : Nat) : Decidable (s.Due filter now offset) :=
  inferInstanceAs (Decidable (_ = true))

/-- Every record due from `start` up to `stop` is among `done`. Unless the stretch is empty it lies
within the log. -/
structure Covers (start stop : Nat) (done : List Nat) : Prop where
  le_tail : stop ≤ max start s.manager.log.tail
  mem : ∀ i, start ≤ i → i < stop → s.Due filter now i → i ∈ done

/-- What a pass will move the cursor over has been delivered, or is in its batch. -/
def PassCovers (start : Nat) : Pass → Prop
  | .peeked from' messages nextCursor =>
    s.Covers filter now start from' s.delivered ∧ s.Covers filter now from' nextCursor messages ∧
      messages.Pairwise (· < ·) ∧ ∀ i ∈ messages, i < nextCursor
  | .moving cursor | .writing cursor | .committing cursor =>
    s.Covers filter now start cursor s.delivered

/-- The invariant of delivery from `start` on. -/
structure Delivers (start : Nat) : Prop where
  mode : s.manager.record.live.mode = .stream
  cursor : s.Covers filter now start s.cursor s.delivered
  passes : ∀ p ∈ s.passes, s.PassCovers filter now start p

/-- In `s'` nothing is due below the tail of `s` that was not due before. -/
structure Extends (s s' : Stream) : Prop where
  le_tail : s.manager.log.tail ≤ s'.manager.log.tail
  due : ∀ i < s.manager.log.tail, s'.Due filter now i → s.Due filter now i

end Stream

/-- The step only reads the clock up to `now`. -/
def StreamOp.ReadsUntil (now : Time) : StreamOp → Prop
  | .peek t _ => ∀ offset, t.checkedAt offset ≤ now
  | _ => True

/-- The offset a step of a seek writes. -/
def StreamOp.seeksTo : StreamOp → Option Nat
  | .seekCursor offset | .seekCommitted offset => some offset
  | _ => none

/-! ### How the log changes -/

section

variable {filter : Filter} {queueName : String} {now now' : Time} {log : Log} {offset : Nat}

/-- A record that has not expired had not expired before. -/
lemma eligible_of_le (hle : now' ≤ now) (h : eligible log filter queueName now offset) :
    eligible log filter queueName now' offset := by
  unfold eligible at h ⊢
  cases hread : log.read offset with
  | error err => simp [hread] at h
  | ok e =>
    have hexpired : e.isExpired now' → e.isExpired now := by
      unfold Envelope.isExpired
      split
      · simp only [decide_eq_true_eq]
        intro hlt
        exact lt_of_lt_of_le hlt hle
      · exact id
    simp only [hread, Bool.and_eq_true, Bool.not_eq_true'] at h ⊢
    refine ⟨?_, h.2⟩
    by_contra hnow
    exact absurd (hexpired (by simpa using hnow)) (by simp [h.1])

/-- A record that is retained in one log as in another is due there too. -/
lemma eligible_of_record {log' : Log}
    (hrecord : ∀ r, log'.record offset = some r → log.record offset = some r)
    (h : eligible log' filter queueName now offset) : eligible log filter queueName now offset := by
  unfold eligible Log.read at h ⊢
  cases hr : log'.record offset with
  | none => simp [hr] at h
  | some r =>
    rw [hrecord r hr]
    rwa [hr] at h

lemma le_tail_dropBelow (log : Log) (before : Nat) : log.tail ≤ (log.dropBelow before).tail := by
  unfold Log.dropBelow Log.tail
  split
  · exact le_rfl
  · simp only [length_drop]
    omega

/-- An eligible record lies within the log. -/
lemma head_le_of_eligible (h : eligible log filter queueName now offset) : log.head ≤ offset := by
  by_contra hlt
  have hnone : log.record offset = none := by
    unfold Log.record
    rw [if_neg hlt]
  simp [eligible, Log.read, hnone] at h

end

/-! ### How the group changes -/

namespace GroupRecord

variable {r r' : GroupRecord} {k : Nat}

/-- The group is as it was, or its cursor was written or pulled up to `k`. -/
def MovesTo (k : Nat) (r r' : GroupRecord) : Prop :=
  r'.live = r.live ∨ r'.live = r.live.setCursorPosition k ∨ r'.live = r.live.advanceCommitted k

lemma movesTo_updateCursor (r : GroupRecord) (k : Nat) : MovesTo k r (r.updateCursor k).1 := by
  rcases r with ⟨_ | _, _ | g, state⟩
  · exact Or.inl rfl
  · exact Or.inl rfl
  · exact Or.inl rfl
  · exact Or.inr (Or.inl rfl)

/-- A cursor write that succeeds moves a stream group there. -/
lemma live_updateCursor (hmode : r.live.mode = .stream) (hok : (r.updateCursor k).2 = none) :
    (r.updateCursor k).1.live = r.live.setCursorPosition k := by
  rcases r with ⟨_ | _, _ | g, state⟩
  · exact nomatch hmode
  · exact nomatch hok
  · exact nomatch hmode
  · rfl

lemma movesTo_updateCommitted (r : GroupRecord) (k : Nat) : MovesTo k r (r.updateCommitted k) := by
  rcases r with ⟨queueOpen, _ | g, state⟩
  · exact Or.inl rfl
  · exact Or.inr (Or.inr rfl)

lemma MovesTo.mode (h : MovesTo k r r') : r'.live.mode = r.live.mode := by
  rcases h with h | h | h <;> rw [h] <;> rfl

lemma MovesTo.queueName (h : MovesTo k r r') : r'.live.queueName = r.live.queueName := by
  rcases h with h | h | h <;> rw [h] <;> rfl

lemma MovesTo.cursor (h : MovesTo k r r') :
    r'.live.cursor.cursor = r.live.cursor.cursor ∨ r'.live.cursor.cursor = k := by
  rcases h with h | h | h
  · exact Or.inl (by rw [h])
  · exact Or.inr (by rw [h]; rfl)
  rw [h]
  simp only [ConsumerGroup.advanceCommitted]
  split
  · exact Or.inr rfl
  · exact Or.inl rfl

end GroupRecord

lemma Manager.movesTo_autoCommitCursor (cfg : ManagerConfig) (m : Manager) (t : Readings)
    (k : Nat) : GroupRecord.MovesTo k m.record (m.autoCommitCursor cfg t k).record ∧
      (m.autoCommitCursor cfg t k).log = m.log := by
  unfold autoCommitCursor
  split
  · exact ⟨Or.inl rfl, rfl⟩
  split
  · exact ⟨movesTo_updateCommitted _ k, rfl⟩
  obtain ⟨last, hlast⟩ := autoCommitDue_eq cfg m t.commitAt
  simp only [hlast]
  split
  · exact ⟨movesTo_updateCommitted _ k, rfl⟩
  · exact ⟨Or.inl rfl, rfl⟩

/-! ### The invariant -/

namespace Stream

section

variable {filter : Filter} {now : Time} {s s' : Stream}
variable {start stop : Nat} {done done' : List Nat}

lemma covers_of_le (hle : stop ≤ start) : s.Covers filter now start stop done :=
  ⟨hle.trans (le_max_left _ _), fun i hge hlt => by omega⟩

/-- What is covered stays covered. -/
lemma Covers.mono (h : s.Covers filter now start stop done) (hext : Extends filter now s s')
    (hdone : done ⊆ done') : s'.Covers filter now start stop done' := by
  refine ⟨h.le_tail.trans (max_le_max_left _ hext.le_tail), fun i hge hlt hdue => ?_⟩
  have htail : i < s.manager.log.tail := by
    rcases lt_max_iff.1 (lt_of_lt_of_le hlt h.le_tail) with hlt' | hlt'
    · omega
    · exact hlt'
  exact hdone (h.mem i hge hlt (hext.due i htail hdue))

/-- Two stretches that meet. -/
lemma Covers.append {mid : Nat} (h : s.Covers filter now start mid done)
    (h' : s.Covers filter now mid stop done) : s.Covers filter now start stop done := by
  refine ⟨?_, fun i hge hlt hdue => ?_⟩
  · have := h.le_tail
    have := h'.le_tail
    omega
  · rcases Nat.lt_or_ge i mid with hlt' | hge'
    · exact h.mem i hge hlt' hdue
    · exact h'.mem i hge' hlt hdue

lemma Extends.of_manager (h : s'.manager = s.manager) : Extends filter now s s' := by
  refine ⟨by rw [h], fun i _ hdue => ?_⟩
  unfold Due at hdue ⊢
  rwa [h] at hdue

lemma PassCovers.mono {p : Pass} (h : s.PassCovers filter now start p)
    (hext : Extends filter now s s') (hdelivered : s.delivered ⊆ s'.delivered) :
    s'.PassCovers filter now start p := by
  cases p with
  | peeked from' messages nextCursor =>
    obtain ⟨hbefore, hbatch, hsorted, hbelow⟩ := h
    exact ⟨hbefore.mono hext hdelivered, hbatch.mono hext (List.Subset.refl _), hsorted, hbelow⟩
  | moving | writing | committing => exact Covers.mono h hext hdelivered

/-- A step keeps the invariant if what was due stays delivered and everything new is covered. -/
lemma Delivers.next (h : s.Delivers filter now start) (hext : Extends filter now s s')
    (hmode : s'.manager.record.live.mode = s.manager.record.live.mode)
    (hdelivered : s.delivered ⊆ s'.delivered)
    (hcursor : s'.cursor = s.cursor ∨ s.Covers filter now start s'.cursor s.delivered)
    (hpasses : ∀ p ∈ s'.passes, p ∈ s.passes ∨ s'.PassCovers filter now start p) :
    s'.Delivers filter now start := by
  refine ⟨hmode.trans h.mode, ?_, fun p hp => ?_⟩
  · rcases hcursor with heq | hcovers
    · rw [heq]
      exact h.cursor.mono hext hdelivered
    · exact hcovers.mono hext hdelivered
  · rcases hpasses p hp with hold | hnew
    · exact (h.passes p hold).mono hext hdelivered
    · exact hnew

/-- A step that moves the cursor no further than what was delivered. -/
lemma Delivers.write {k : Nat} (h : s.Delivers filter now start)
    (hmove : GroupRecord.MovesTo k s.manager.record s'.manager.record)
    (hlog : s'.manager.log = s.manager.log) (hdelivered : s'.delivered = s.delivered)
    (hk : s.Covers filter now start k s.delivered)
    (hpasses : ∀ p ∈ s'.passes, p ∈ s.passes ∨ p = .committing k) :
    s'.Delivers filter now start := by
  have hext : Extends filter now s s' := by
    refine ⟨by rw [hlog], fun i _ hdue => ?_⟩
    unfold Due at hdue ⊢
    rwa [hlog, hmove.queueName] at hdue
  have hsubset : s.delivered ⊆ s'.delivered := by
    rw [hdelivered]
    exact List.Subset.refl _
  refine h.next hext hmove.mode hsubset ?_ fun p hp => ?_
  · rcases hmove.cursor with heq | heq
    · exact Or.inl heq
    right
    unfold Stream.cursor
    rw [heq]
    exact hk
  · rcases hpasses p hp with hold | rfl
    · exact Or.inl hold
    · exact Or.inr (hk.mono hext hsubset)

end

section

variable {cfg : ManagerConfig} {filter : Filter} {now : Time} {s : Stream} {start : Nat}

lemma delivers_append (h : s.Delivers filter now start) (r : Record) :
    (s.step cfg filter (.append r)).Delivers filter now start := by
  refine h.next ⟨?_, fun i hlt hdue => ?_⟩ rfl (List.Subset.refl _) (Or.inl rfl) fun p hp => Or.inl hp
  · show s.manager.log.tail ≤ (s.manager.log.append r).tail
    rw [Log.tail_append]
    omega
  · refine eligible_of_record (fun r' hr' => ?_) hdue
    rwa [step, withLog, Log.record_append_of_lt hlt] at hr'

lemma delivers_truncate (h : s.Delivers filter now start) (before : Nat) :
    (s.step cfg filter (.truncate before)).Delivers filter now start := by
  refine h.next ⟨le_tail_dropBelow _ _, fun i hlt hdue => ?_⟩ rfl (List.Subset.refl _) (Or.inl rfl)
    fun p hp => Or.inl hp
  refine eligible_of_record (fun r hr => ?_) hdue
  rw [step, withLog, Log.record_dropBelow] at hr
  split at hr
  · exact hr
  · exact nomatch hr

/-- The scan of a pass covers what it steps over. -/
lemma covers_scanStream (t : Readings) (limit : Nat) (hread : ∀ i, t.checkedAt i ≤ now) :
    s.Covers filter now s.cursor (s.manager.scanStream cfg t filter limit).2
      (s.manager.scanStream cfg t filter limit).1 := by
  have hstart : scanStart s.manager.log s.cursor ≤ max s.cursor s.manager.log.tail := by
    unfold scanStart Log.tail
    split <;> omega
  refine ⟨?_, fun i hge hlt hdue => ?_⟩
  · refine (scanBatch_bounds _ _ _ _ _).2.trans (max_le hstart (le_max_right _ _))
  refine mem_scanBatch.2 ⟨?_, hlt, eligible_of_le (hread i) hdue⟩
  -- A scan that starts behind the cursor starts at the head.
  unfold scanStart
  split
  · exact hge
  · exact head_le_of_eligible hdue

section

variable (h : s.Delivers filter now start)
include h

lemma delivers_peek (t : Readings) (limit : Int) (hread : ∀ i, t.checkedAt i ≤ now) :
    (s.step cfg filter (.peek t limit)).Delivers filter now start := by
  have hself : s.withRecord s.manager.record.getConsumerGroup = s := by
    rw [getConsumerGroup_of_mode h.mode]
    rfl
  simp only [step, beginPass, hself, group_of_mode h.mode, Option.isNone_some,
    Bool.false_eq_true, if_false]
  set batch := s.manager.scanStream cfg t filter (Manager.batchLimit cfg limit) with hbatch
  have hscan : s.Covers filter now s.cursor batch.2 batch.1 := covers_scanStream t _ hread
  have hnew : s.PassCovers filter now start
      (if batch.1 = [] then .moving batch.2 else .peeked s.cursor batch.1 batch.2) := by
    split
    · rename_i hempty
      rw [hempty] at hscan
      exact h.cursor.append (hscan.mono (.of_manager rfl) (nil_subset _))
    · exact ⟨h.cursor, hscan, pairwise_scanBatch _ _ _ _ _, fun i hi => (mem_scanBatch.1 hi).2.1⟩
  refine h.next (.of_manager rfl) rfl (List.Subset.refl _) (Or.inl rfl) fun p hp => ?_
  rcases mem_append.1 hp with hp | hp
  · exact Or.inl hp
  · rw [mem_singleton.1 hp]
    exact Or.inr (hnew.mono (.of_manager rfl) (List.Subset.refl _))

/-- The pass at a position is one of the passes. -/
lemma Delivers.pass {i : Nat} {p : Pass} (hp : s.passes[i]? = some p) :
    s.PassCovers filter now start p :=
  h.passes p (mem_of_getElem? hp)

/-- A batch that is handed out is delivered as far as the cursor goes that is committed for it. -/
lemma delivers_deliver (i : Nat) (target : DeliveryTarget) :
    (s.step cfg filter (.deliver i target)).Delivers filter now start := by
  simp only [step]
  split
  · rename_i from' messages nextCursor hpass
    obtain ⟨hbefore, hbatch, hsorted, hbelow⟩ := h.pass hpass
    rcases htarget : target.deliver messages nextCursor with ⟨taken, _ | cursor⟩
    · show (endPass _ i).Delivers filter now start
      exact h.next (.of_manager rfl) rfl (subset_append_left _ _)
        (Or.inl rfl) fun p hp => Or.inl (mem_of_mem_eraseIdx hp)
    have hcommit : cursor ∈ (target.deliver messages nextCursor).2 := by
      rw [htarget]
      rfl
    have hle := DeliveryTarget.le_of_deliver hbelow hcommit
    -- Below the batch everything was delivered before; within it, by this delivery.
    have hcovers : s.Covers filter now start cursor (s.delivered ++ taken) := by
      refine (hbefore.mono (.of_manager rfl) (subset_append_left _ _)).append
        ⟨hle.trans hbatch.le_tail, fun offset hge hlt hdue => ?_⟩
      have hmem := hbatch.mem offset hge (lt_of_lt_of_le hlt hle) hdue
      have htaken := DeliveryTarget.mem_of_deliver hsorted hcommit hmem hlt
      rw [htarget] at htaken
      exact mem_append_right _ htaken
    show (goOn _ i _).Delivers filter now start
    refine h.next (.of_manager rfl) rfl (subset_append_left _ _) (Or.inl rfl) fun p hp => ?_
    rcases mem_or_eq_of_mem_set hp with hp | rfl
    · exact Or.inl hp
    · exact Or.inr (hcovers.mono (.of_manager rfl) (List.Subset.refl _))
  · exact h

lemma delivers_compare (i : Nat) : (s.step cfg filter (.compare i)).Delivers filter now start := by
  simp only [step]
  split
  · rename_i cursor hpass
    split
    · exact h.next (.of_manager rfl) rfl (List.Subset.refl _) (Or.inl rfl)
        fun p hp => Or.inl (mem_of_mem_eraseIdx hp)
    refine h.next (.of_manager rfl) rfl (List.Subset.refl _) (Or.inl rfl) fun p hp => ?_
    rcases mem_or_eq_of_mem_set hp with hp | rfl
    · exact Or.inl hp
    · exact Or.inr (Covers.mono (h.pass hpass) (.of_manager rfl) (List.Subset.refl _))
  · exact h

lemma delivers_writeCursor (i : Nat) :
    (s.step cfg filter (.writeCursor i)).Delivers filter now start := by
  simp only [step]
  split
  · rename_i cursor hpass
    have hmove := movesTo_updateCursor s.manager.record cursor
    rcases hwrite : s.manager.record.updateCursor cursor with ⟨record, _ | err⟩
    · rw [hwrite] at hmove
      show (goOn _ i _).Delivers filter now start
      exact h.write hmove rfl rfl (h.pass hpass) fun p hp => mem_or_eq_of_mem_set hp
    · rw [hwrite] at hmove
      show (endPass _ i).Delivers filter now start
      exact h.write hmove rfl rfl (h.pass hpass) fun p hp => Or.inl (mem_of_mem_eraseIdx hp)
  · exact h

lemma delivers_commit (i : Nat) (t : Readings) :
    (s.step cfg filter (.commit i t)).Delivers filter now start := by
  simp only [step]
  split
  · rename_i cursor hpass
    obtain ⟨hmove, hlog⟩ := Manager.movesTo_autoCommitCursor cfg s.manager t cursor
    exact h.write hmove hlog rfl (h.pass hpass) fun p hp => Or.inl (mem_of_mem_eraseIdx hp)
  · exact h

/-- Every step but the cursor write of a seek keeps the invariant. -/
lemma delivers_step {op : StreamOp} (hread : op.ReadsUntil now)
    (hseek : op.seeksTo = none ∨ op = .seekCommitted start) :
    (s.step cfg filter op).Delivers filter now start := by
  cases op with
  | append r => exact delivers_append h r
  | truncate before => exact delivers_truncate h before
  | peek t limit => exact delivers_peek h t limit hread
  | deliver i target => exact delivers_deliver h i target
  | compare i => exact delivers_compare h i
  | writeCursor i => exact delivers_writeCursor h i
  | commit i t => exact delivers_commit h i t
  | abandon i =>
    exact h.next (.of_manager rfl) rfl (List.Subset.refl _) (Or.inl rfl)
      fun p hp => Or.inl (mem_of_mem_eraseIdx hp)
  | seekCursor offset => simp [StreamOp.seeksTo] at hseek
  | seekCommitted offset =>
    obtain rfl : offset = start := by simpa [StreamOp.seeksTo] using hseek
    exact h.write (movesTo_updateCommitted _ _) rfl rfl (covers_of_le le_rfl) fun p hp => Or.inl hp

lemma delivers_run {ops : List StreamOp} (hread : ∀ op ∈ ops, op.ReadsUntil now)
    (hseek : ∀ op ∈ ops, op.seeksTo = none ∨ op = .seekCommitted start) :
    (s.run cfg filter ops).Delivers filter now start :=
  Transition.invariant_run (I := fun s : Stream => s.Delivers filter now start)
    (P := fun _ op => op.ReadsUntil now ∧ (op.seeksTo = none ∨ op = .seekCommitted start))
    (fun _ _ h hop => delivers_step h hop.1 hop.2) h
    (Transition.along_of_forall fun op hop _ => ⟨hread op hop, hseek op hop⟩)

end

/-- A group about to be served for the first time. -/
lemma delivers_start {m : Manager} (hmode : m.record.live.mode = .stream) :
    (⟨m, [], []⟩ : Stream).Delivers filter now m.record.live.cursor.cursor :=
  ⟨hmode, covers_of_le le_rfl, nofun⟩

end

/-- A stream group at the start of a log with two messages. -/
def twoToDeliver : Stream :=
  ⟨(System.fresh "q" "g" "#" .stream true System.twoMessages).manager, [], []⟩

/-- One pass in which the client refuses the second message. -/
def refuseSecond : List StreamOp :=
  [.peek (Readings.allAt 0) 10, .deliver 0 (.localClient (· == 0)), .compare 0, .writeCursor 0,
    .commit 0 (Readings.allAt 0)]

end Stream

/-! ### Seeks -/

/-- The pass will not move the cursor past `offset` without delivering what is due from there. -/
def Pass.Clears (offset : Nat) : Pass → Prop
  | .peeked start _ _ => start ≤ offset
  | .moving cursor | .writing cursor | .committing cursor => cursor ≤ offset

instance (offset : Nat) (p : Pass) : Decidable (p.Clears offset) := by
  cases p <;> exact inferInstanceAs (Decidable (_ ≤ _))

namespace Stream

/-- The stream right after the cursor write of a seek. Deliveries are counted from here on. -/
def sought (cfg : ManagerConfig) (filter : Filter) (s : Stream) (offset : Nat) : Stream :=
  { s.step cfg filter (.seekCursor offset) with delivered := [] }

variable {cfg : ManagerConfig} {filter : Filter} {now : Time} {s : Stream} {start offset : Nat}

lemma extends_sought : Extends filter now s (s.sought cfg filter offset) := by
  refine ⟨le_rfl, fun i _ hdue => ?_⟩
  have hname := (movesTo_updateCursor s.manager.record offset).queueName
  unfold Due at hdue ⊢
  exact hname ▸ hdue

/-- A seek that does not go behind a pass starts delivery anew from its target. -/
lemma delivers_sought (h : s.Delivers filter now start)
    (hok : (s.manager.record.updateCursor offset).2 = none)
    (hclear : ∀ p ∈ s.passes, p.Clears offset) :
    (s.sought cfg filter offset).Delivers filter now offset := by
  have hlive := live_updateCursor h.mode hok
  have hcursor : (s.sought cfg filter offset).cursor = offset := congrArg (·.cursor.cursor) hlive
  refine ⟨(congrArg (·.mode) hlive).trans h.mode, ?_, fun p hp => ?_⟩
  · rw [hcursor]
    exact covers_of_le le_rfl
  have hle := hclear p hp
  cases p with
  | peeked from' messages nextCursor =>
    obtain ⟨-, hbatch, hsorted, hbelow⟩ := h.passes _ hp
    exact ⟨covers_of_le hle, hbatch.mono extends_sought (List.Subset.refl _), hsorted, hbelow⟩
  | moving | writing | committing => exact covers_of_le hle

/-- A seek is not undone by the passes in flight if none of them is ahead of it: once its cursor
write is done, everything due from its target up to the cursor has been delivered since. -/
theorem delivered_since_seek (cfg : ManagerConfig) (filter : Filter) {m : Manager}
    (hmode : m.record.live.mode = .stream) (before after : List StreamOp) (offset : Nat)
    (hbefore : ∀ op ∈ before, op.seeksTo = none)
    (hafter : ∀ op ∈ after, op.seeksTo = none ∨ op = .seekCommitted offset) (now : Time)
    (hread : ∀ op ∈ before ++ after, op.ReadsUntil now) {s s' : Stream}
    (hs : s = (⟨m, [], []⟩ : Stream).run cfg filter before)
    (hok : (s.manager.record.updateCursor offset).2 = none)
    (hclear : ∀ p ∈ s.passes, p.Clears offset)
    (hs' : s' = (s.sought cfg filter offset).run cfg filter after) :
    ∀ i, offset ≤ i → i < s'.cursor → s'.Due filter now i → i ∈ s'.delivered := by
  have hrun : s.Delivers filter now m.record.live.cursor.cursor :=
    hs ▸ delivers_run (delivers_start hmode) (fun op hop => hread op (mem_append_left _ hop))
      fun op hop => Or.inl (hbefore op hop)
  have hsought : s'.Delivers filter now offset :=
    hs' ▸ delivers_run (delivers_sought hrun hok hclear)
      (fun op hop => hread op (mem_append_right _ hop)) hafter
  exact hsought.cursor.mem

/-- A pass over the third message is in flight when the group, which has been served the first
two, seeks back to the start. -/
def seekDuringPass : List StreamOp × List StreamOp :=
  ([.peek (Readings.allAt 0) 10, .deliver 0 (.remoteNode true), .compare 0, .writeCursor 0,
      .commit 0 (Readings.allAt 0), .append (.envelope { topic := "$queue/q/c" }),
      .peek (Readings.allAt 0) 10],
    [.seekCommitted 0, .deliver 0 (.remoteNode true), .compare 0, .writeCursor 0,
      .commit 0 (Readings.allAt 0)])

/-- Only the third message is delivered after the seek, and the cursor ends behind it. -/
theorem not_delivered_since_seek :
    let s' := ((twoToDeliver.run {} none seekDuringPass.1).sought {} none 0).run {} none
      seekDuringPass.2
    s'.passes = [] ∧ s'.cursor = 3 ∧ s'.delivered = [2] ∧ s'.Due none 0 0 ∧ s'.Due none 0 1 := by
  decide +kernel

/-- The cursor write of a seek to the second message falls between the scan of a pass, which began in
front of it, and the delivery. The pass goes on and delivers that message. -/
theorem delivered_since_seek_inFlight :
    let s := twoToDeliver.run {} none [.peek (Readings.allAt 0) 10]
    let s' := (s.sought {} none 1).run {} none (.seekCommitted 1 :: seekDuringPass.2.tail)
    s.passes = [.peeked 0 [0, 1] 2] ∧ 1 ∈ s'.delivered ∧ s'.cursor = 2 :=
  ⟨by decide +kernel,
    delivered_since_seek {} none (m := twoToDeliver.manager) (by decide +kernel)
      [.peek (Readings.allAt 0) 10] (.seekCommitted 1 :: seekDuringPass.2.tail) 1 (by decide)
      (by simp [seekDuringPass, StreamOp.seeksTo]) 0
      (by simp [seekDuringPass, StreamOp.ReadsUntil, Readings.allAt]) rfl (by decide +kernel)
      (by decide +kernel) rfl 1 le_rfl (by decide +kernel) (by decide +kernel),
    by decide +kernel⟩

end Stream

end FluxMQ
