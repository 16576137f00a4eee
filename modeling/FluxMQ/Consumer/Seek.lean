import FluxMQ.Consumer.Safety

/-!
# Explicit seeks

`subscribeWithCursor` of `queue/manager.go` moves a group to an explicit offset or timestamp. It
writes the cursor and then the committed offset straight to the store, outside the group's lock
and without looking at the pending list.

A pending entry then lies below the committed offset or not below the cursor, so a seek leaves the
group consistent exactly when nothing is pending. A stream group that seeks back even claims an
offset a second time while it is pending.
-/

namespace FluxMQ

/-- Where a subscription asks to resume: `CursorOffset`, or `CursorTimestamp` with the offset that
`offsetByTime` found. -/
inductive SeekPosition where
  | offset (requested : Nat)
  | timestamp (found : Nat)
  deriving Repr, DecidableEq

/-- The offset a seek moves the group to. A requested offset is clamped to the log. -/
def SeekPosition.target (log : Log) : SeekPosition → Nat
  | .offset requested =>
    let offset := if requested < log.head then log.head else requested
    if log.tail < offset then log.tail else offset
  | .timestamp found => found

/-- The two writes of a seek: `UpdateCursor`, then `UpdateCommitted`. -/
def GroupRecord.seek (r : GroupRecord) (offset : Nat) : Outcome :=
  (r.updateCursor offset).andThen fun r => (r.updateCommitted offset, none)

/-- The pending offsets are distinct and lie between the committed offset and the cursor. -/
structure ConsumerGroup.PendingInOrder (g : ConsumerGroup) : Prop where
  distinct : g.pel.Distinct
  below : ∀ p ∈ g.pel, p.2.offset < g.cursor.cursor
  above : ∀ p ∈ g.pel, g.cursor.committed ≤ p.2.offset

instance (g : ConsumerGroup) : Decidable g.PendingInOrder :=
  decidable_of_iff (g.pel.Distinct ∧ (∀ p ∈ g.pel, p.2.offset < g.cursor.cursor) ∧
    ∀ p ∈ g.pel, g.cursor.committed ≤ p.2.offset)
    ⟨fun ⟨h1, h2, h3⟩ => ⟨h1, h2, h3⟩, fun ⟨h1, h2, h3⟩ => ⟨h1, h2, h3⟩⟩

/-- The claiming operations. -/
def Op.isClaim : Op → Bool
  | .claim _ _ _ | .claimBatch _ _ _ _ _ | .claimManualStream _ _ _ _ | .claimPendingBatch _ _ _ _ =>
    true
  | _ => false

namespace System

variable {cfg : ManagerConfig} {s : System}

/-- The state after a seek. -/
def seek (s : System) (position : SeekPosition) : System :=
  { s with manager := { s.manager with
      record := (s.record.seek (position.target s.manager.log)).1 } }

/-- A seek moves cursor and committed offset to its target and leaves what is held alone. -/
lemma seek_wellFormed (h : s.record.WellFormed) (position : SeekPosition) :
    (s.seek position).record.WellFormed ∧
      (s.seek position).ledger =
        { cursor := position.target s.manager.log
          committed := position.target s.manager.log
          owner := s.ledger.owner } := by
  set target := position.target s.manager.log
  obtain ⟨r, hr, hmoved, hledger⟩ := h.updateCursor target (P := fun _ _ => True) trivial
  have hcursor : r.ledger.cursor = target := by
    rw [hledger]
    rfl
  obtain ⟨hcommitted, hledger'⟩ := hmoved.wellFormed.updateCommitted target hcursor.ge
    (P := fun _ _ => True) trivial
  have hrecord : (s.seek position).record = r.updateCommitted target := by
    show ((s.record.updateCursor target).andThen _).1 = _
    rw [hr]
    rfl
  refine ⟨hrecord ▸ hcommitted.wellFormed, ?_⟩
  show (s.seek position).record.ledger = _
  rw [hrecord, hledger', hledger]
  rfl

/-- A seek with nothing pending leaves a sound and safe state. -/
lemma seek_sound (h : s.record.WellFormed) (hpel : s.group.pel = []) (position : SeekPosition) :
    (s.seek position).Sound ∧ (s.seek position).ledger.Safe := by
  obtain ⟨hwf, hledger⟩ := seek_wellFormed h position
  have hfree : ∀ o, ¬ (s.seek position).ledger.Held o := by
    intro o ho
    rw [hledger] at ho
    obtain ⟨p, hp, -⟩ := (held_iff h).1 ho
    exact absurd (hpel ▸ hp) List.not_mem_nil
  refine ⟨⟨hwf, fun o ho => absurd ho (hfree o), ?_⟩, Ledger.safe_of_not_held hfree⟩
  rw [hledger]

/-- A seek that leaves the group in order has found nothing pending. -/
lemma pel_eq_nil_of_seek (h : s.record.WellFormed) {position : SeekPosition}
    (horder : (s.seek position).group.PendingInOrder) : s.group.pel = [] := by
  obtain ⟨hwf, hledger⟩ := seek_wellFormed h position
  have hgroup : (s.seek position).group.ledger = _ := hwf.read_group.1.trans hledger
  have hcursor : (s.seek position).group.cursor.cursor = position.target s.manager.log :=
    congrArg Ledger.cursor hgroup
  have hcommitted : (s.seek position).group.cursor.committed = position.target s.manager.log :=
    congrArg Ledger.committed hgroup
  by_contra hne
  obtain ⟨p, hp⟩ := List.exists_mem_of_ne_nil _ hne
  have hheld : (s.seek position).ledger.Held p.2.offset := by
    rw [hledger]
    exact (held_iff h).2 ⟨p, hp, rfl⟩
  -- The entry is still pending, and both positions are at the target.
  obtain ⟨q, hq, hqp⟩ := (held_iff hwf).1 hheld
  have hbelow := horder.below q hq
  have habove := horder.above q hq
  omega

/-- A claim commits nothing. -/
lemma commitsSettled_of_isClaim {op : Op} (hop : op.isClaim) (s : System) :
    op.CommitsSettled s := by
  cases op with
  | claim | claimBatch | claimManualStream | claimPendingBatch =>
    exact ⟨fun h => (nomatch h), fun k hk => (nomatch hk)⟩
  | _ => exact nomatch hop

/-- An explicit seek keeps a group in order, now and after any further claims, exactly when
nothing is pending. -/
theorem seek_pendingInOrder_iff (cfg : ManagerConfig) (queueName groupId pattern : String)
    (mode : ConsumerGroupMode) (autoCommit : Bool) (log : Log) (ops : List Op) {s : System}
    (hs : s = (fresh queueName groupId pattern mode autoCommit log).run cfg ops)
    (position : SeekPosition) :
    (∀ claims : List Op, (∀ op ∈ claims, op.isClaim) →
        ((s.seek position).run cfg claims).group.PendingInOrder) ↔ s.group.pel = [] := by
  have hsound : s.Sound := hs ▸ (fresh_sound queueName groupId pattern mode autoCommit log).run ops
  constructor
  · intro h
    exact pel_eq_nil_of_seek hsound.wellFormed (h [] fun op hop => absurd hop List.not_mem_nil)
  intro hpel claims hclaims
  obtain ⟨hsought, hsafe⟩ := seek_sound hsound.wellFormed hpel position
  have hrun : ((s.seek position).run cfg claims).Sound := hsought.run claims
  have hsettled : Transition.Along (step cfg) (fun s op => op.CommitsSettled s)
      (s.seek position) claims :=
    Transition.along_of_forall fun op hop s => commitsSettled_of_isClaim (hclaims op hop) s
  have hprotected := hrun.protected_iff.2 (safe_run hsought hsafe hsettled)
  exact ⟨hrun.consistent.distinct, hrun.consistent.below, hprotected⟩

/-- A group that has settled what it claimed may seek back to it. -/
theorem seek_pendingInOrder_iff_settled :
    ((((fresh "q" "g" "#" .queue false twoMessages).run {} [.claim (Readings.allAt 0) "c" none,
      .ack (IterationOrder.listOrder _) "c" 0]).seek (.offset 0)).run {}
        [.claim (Readings.allAt 0) "d" none]).group.PendingInOrder :=
  (seek_pendingInOrder_iff {} "q" "g" "#" .queue false twoMessages
    [.claim (Readings.allAt 0) "c" none, .ack (IterationOrder.listOrder _) "c" 0] rfl
    (.offset 0)).2 (by decide +kernel) [.claim (Readings.allAt 0) "d" none] (by decide)

/-- Consumer `c` registers and claims the first message of a stream group. -/
def claimOne : List Op :=
  [.registerConsumer ⟨"c", "client", "", 0, 0⟩,
    .claimManualStream (Readings.allAt 0) (Readings.allAt 0) "c" none]

/-- A stream group that seeks back to its pending message claims it a second time. A queue group
that seeks forward commits past its pending message. -/
theorem seek_not_pendingInOrder :
    ((((fresh "q" "g" "#" .stream false twoMessages).run {} claimOne).seek (.offset 0)).run {}
        [.claimManualStream (Readings.allAt 0) (Readings.allAt 0) "d" none]).group.pel.map
          (fun p => (p.1, p.2.offset)) = [("c", 0), ("d", 0)] ∧
      ¬ (((fresh "q" "g" "#" .queue false twoMessages).run {}
        [.claim (Readings.allAt 0) "c" none]).seek (.offset 2)).group.Protected := by
  decide +kernel

end System

end FluxMQ
