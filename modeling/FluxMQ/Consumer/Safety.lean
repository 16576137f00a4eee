import FluxMQ.Consumer.System

/-!
# Safety of a consumer group

What holds of a consumer group in every state of every run of its manager.

* `ConsumerGroup.Consistent`: pending offsets are distinct, filed under the consumer they name and
  below the cursor, and so is the committed offset. This holds in every run.
* `ConsumerGroup.Protected`: nothing pending lies below the committed offset. This holds as long as
  an auto-commit group has nothing pending when its cursor is committed. The delivery engine keeps
  to that, since it never claims for an auto-commit stream; the operations themselves do not check
  it.
-/

namespace FluxMQ

/-- The group is consistent with itself. -/
structure ConsumerGroup.Consistent (g : ConsumerGroup) : Prop where
  /-- No offset is pending twice. -/
  distinct : g.pel.Distinct
  /-- Every entry is filed under the consumer it names. -/
  filed : g.pel.Filed
  /-- Everything pending lies below the cursor. -/
  below : ∀ p ∈ g.pel, p.2.offset < g.cursor.cursor
  /-- The committed offset does not pass the cursor. -/
  committed_le : g.cursor.committed ≤ g.cursor.cursor

/-- Nothing pending lies below the committed offset. -/
def ConsumerGroup.Protected (g : ConsumerGroup) : Prop :=
  ∀ p ∈ g.pel, g.cursor.committed ≤ p.2.offset

instance (g : ConsumerGroup) : Decidable g.Protected :=
  inferInstanceAs (Decidable (∀ p ∈ g.pel, _))

namespace System

variable {s : System}

/-- An offset is held exactly when the group shows it as pending. -/
lemma held_iff (h : s.record.WellFormed) {o : Nat} :
    s.ledger.Held o ↔ ∃ p ∈ s.group.pel, p.2.offset = o := by
  have hgroup : s.group.ledger = s.ledger := h.read_group.1
  exact Pel.owner_isSome_iff

lemma Sound.group_ledger (h : s.Sound) : s.group.ledger = s.ledger := h.wellFormed.read_group.1

lemma Sound.held_iff (h : s.Sound) {o : Nat} :
    s.ledger.Held o ↔ ∃ p ∈ s.group.pel, p.2.offset = o :=
  System.held_iff h.wellFormed

/-- A sound state shows a consistent group. -/
lemma Sound.consistent (h : s.Sound) : s.group.Consistent := by
  refine ⟨h.wellFormed.read_group.2.1, h.wellFormed.read_group.2.2, fun p hp => ?_, ?_⟩
  · exact h.bounded.held_lt _ (h.held_iff.2 ⟨p, hp, rfl⟩)
  · exact h.bounded.committed_le

lemma Sound.protected_iff (h : s.Sound) : s.group.Protected ↔ s.ledger.Safe := by
  unfold ConsumerGroup.Protected Ledger.Safe
  constructor
  · intro hp o ho
    obtain ⟨p, hmem, rfl⟩ := h.held_iff.1 ho
    exact hp p hmem
  · intro hsafe p hp
    exact hsafe _ (h.held_iff.2 ⟨p, hp, rfl⟩)

end System

/-! ### Committing past what is pending -/

/-- The steps that may commit the cursor of an auto-commit group or change the commit policy. -/
def Op.mayCommitCursor : Op → Bool
  | .peekBatchStream _ _ _ | .claimBatchStream _ _ _ _ | .commitStreamCursor _ _
  | .commitOffset _ _ | .configureGroup _ _ _ => true
  | _ => false

/-- The offset an explicit `AdvanceCommitted` names. -/
def Op.advancesTo : Op → Option Nat
  | .advanceCommitted committed => some committed
  | _ => none

/-- The step does not commit past a pending entry. A step that may commit the cursor of an
auto-commit group finds nothing pending, and `AdvanceCommitted` names no offset behind a pending
one. -/
def Op.CommitsSettled (s : System) (op : Op) : Prop :=
  (op.mayCommitCursor → s.group.autoCommit → s.group.pel = []) ∧
    ∀ k ∈ op.advancesTo, ∀ p ∈ s.group.pel, k ≤ p.2.offset

instance (s : System) (op : Op) : Decidable (op.CommitsSettled s) :=
  inferInstanceAs (Decidable (_ ∧ _))

namespace Ledger

variable {P : Ledger → Act → Prop} {l l' : Ledger}

/-- Legal changes that commit no further than what is held keep the ledger safe. -/
lemma Safe.reaches (hlegal : ∀ l a, P l a → l.Legal a)
    (hcommit : ∀ l k, l.Safe → P l (.commit k) → ∀ o, l.Held o → k ≤ o) (hb : l.Bounded)
    (hs : l.Safe) (h : Transition.Reaches Ledger.apply P l l') : l'.Safe := by
  refine (Transition.invariant_reaches (I := fun l => l.Bounded ∧ l.Safe) ?_ ⟨hb, hs⟩ h).2
  rintro l a ⟨hb, hs⟩ ha
  refine ⟨hb.apply (hlegal l a ha), hs.apply hb (hlegal l a ha) ?_⟩
  rintro k rfl
  exact hcommit l k hs ha

/-- Changes that hand nothing out leave nothing held when nothing was. -/
lemma not_held_of_reaches (hnone : ∀ l o c, ¬ P l (.claim o c) ∧ ¬ P l (.handOver o c))
    (hfree : ∀ o, ¬ l.Held o) (h : Transition.Reaches Ledger.apply P l l') : ∀ o, ¬ l'.Held o := by
  refine Transition.invariant_reaches (I := fun l => ∀ o, ¬ l.Held o) ?_ hfree h
  intro l a hfree ha o ho
  cases a with
  | claim offset c => exact (hnone l offset c).1 ha
  | handOver offset c => exact (hnone l offset c).2 ha
  | settle offset => exact hfree o ((held_settle l o offset).1 ho).2
  | skip | commit => exact hfree o ho

lemma safe_of_not_held (h : ∀ o, ¬ l.Held o) : l.Safe :=
  fun o ho => absurd ho (h o)

end Ledger

namespace System

variable {cfg : ManagerConfig} {s : System}

/-- After a settlement the committed offset is no further than what is held. -/
lemma le_of_commitsTo {l : Ledger} {k o : Nat} (hs : l.Safe) (hk : CommitsTo l k)
    (ho : l.Held o) : k ≤ o := by
  rcases hk with ⟨hfree, -⟩ | ⟨least, hleast, rfl⟩
  · exact absurd ho (hfree o)
  · exact max_le (hs o ho) (hleast.2 ho)

/-- A step that may commit the cursor of a group that has nothing pending. -/
lemma safe_of_not_held (hfree : ∀ o, ¬ s.ledger.Held o) {op : Op} (heffect : Effect cfg s op)
    (hnone : ∀ l o c, ¬ op.acts cfg s l (.claim o c) ∧ ¬ op.acts cfg s l (.handOver o c)) :
    (s.step cfg op).ledger.Safe :=
  Ledger.safe_of_not_held (Ledger.not_held_of_reaches hnone hfree heffect.reaches)

/-- Every step that commits nothing pending keeps what is pending above the committed offset. -/
lemma safe_step (h : s.Sound) (hs : s.ledger.Safe) {op : Op} (hop : op.CommitsSettled s) :
    (s.step cfg op).ledger.Safe := by
  have hauto : s.group.autoCommit = s.record.live.autoCommit :=
    (h.wellFormed.getConsumerGroup (P := fun _ _ => True)).contract.2.1
  have hfree : op.mayCommitCursor → s.record.live.autoCommit → ∀ o, ¬ s.ledger.Held o := by
    intro hcursor hon o ho
    obtain ⟨p, hp, -⟩ := h.held_iff.1 ho
    exact absurd (hop.1 hcursor (hauto ▸ hon) ▸ hp) List.not_mem_nil
  have heffect := h.effect cfg op
  -- Without auto-commit, what is committed has been settled by the step itself.
  have hsafe := fun hcommit => Ledger.Safe.reaches op.acts_legal hcommit h.bounded hs
    heffect.reaches
  cases op with
  | configureGroup mode auto configure =>
    cases hon : s.record.live.autoCommit with
    | true => exact safe_of_not_held (hfree rfl hon) heffect fun l o c => ⟨And.right, And.right⟩
    | false =>
      -- The group is to commit by itself, so everything held is dropped before the commit.
      refine hsafe fun l k _ ha o ho => ?_
      obtain ⟨⟨-, -, hne⟩, -, hclear⟩ := ha
      have hauto : auto = true := by simpa [hon] using hne
      exact absurd ho (hclear hauto o)
  | claim | claimBatch | claimManualStream =>
    refine hsafe fun l k _ ha => ?_
    rcases ha with ⟨t, -, ha⟩ | ⟨t, -, ha⟩
    · exact ha.elim
    · exact ha.elim
  | claimPendingBatch => exact hsafe fun l k _ ha => ha.elim
  | peekBatchStream | claimBatchStream =>
    cases hon : s.record.live.autoCommit with
    | true =>
      refine safe_of_not_held (hfree rfl hon) heffect fun l o c => ⟨?_, ?_⟩
      · exact fun ⟨_, ha⟩ => ha
      · exact fun ⟨_, ha⟩ => ha
    | false =>
      refine hsafe fun l k _ ha => ?_
      obtain ⟨next, ha⟩ := ha
      exact absurd (hon.symm.trans ha.1) Bool.false_ne_true
  | commitStreamCursor t cursor =>
    cases hon : s.record.live.autoCommit with
    | true => exact safe_of_not_held (hfree rfl hon) heffect fun l o c => ⟨And.right, And.right⟩
    | false =>
      exact hsafe fun l k _ ha => absurd (hon.symm.trans ha.2.1) Bool.false_ne_true
  | ack order consumerId offset =>
    exact hsafe fun l k hs ha o ho => le_of_commitsTo hs ha.2.2 ho
  | commitOffset order offset =>
    cases hon : s.record.live.autoCommit with
    | true => exact safe_of_not_held (hfree rfl hon) heffect fun l o c => ⟨And.right, And.right⟩
    | false =>
      refine hsafe fun l k _ ha o ho => ?_
      obtain ⟨-, rfl, -, hclear⟩ := ha
      exact hclear hon o ho
  | advanceCommitted committed =>
    -- Nothing but the committed offset changes, so what is held is what was pending.
    refine (Transition.invariant_reaches
      (I := fun l => l.Safe ∧ ∀ o, l.Held o → s.ledger.Held o) ?_ ⟨hs, fun _ ho => ho⟩
      heffect.reaches).1
    rintro l a ⟨hsafe, hheld⟩ ⟨rfl, -⟩
    refine ⟨fun o ho => ?_, hheld⟩
    obtain ⟨p, hp, rfl⟩ := h.held_iff.1 (hheld o ho)
    exact hop.2 committed rfl p hp
  | finish offset order now =>
    refine hsafe fun l k hs ha o ho => ?_
    simp only [Op.acts] at ha
    split at ha
    · exact le_of_commitsTo hs ha.2 ho
    · cases ha
    · exact ha.elim
  | _ => exact hsafe fun l k _ ha => ha.elim

/-- Along a run that commits nothing pending, nothing pending lies below the committed offset. -/
lemma safe_run (h : s.Sound) (hs : s.ledger.Safe) {ops : List Op}
    (hops : Transition.Along (step cfg) (fun s op => op.CommitsSettled s) s ops) :
    (s.run cfg ops).ledger.Safe :=
  (Transition.invariant_run (I := fun s => s.Sound ∧ s.ledger.Safe)
    (fun _ op hs hop => ⟨hs.1.step op, safe_step hs.1 hs.2 hop⟩) ⟨h, hs⟩ hops).2

/-- The safety of a consumer group. In every state of every run its pending offsets are distinct,
filed under the consumer they name and below the cursor, and so is the committed offset. If no
step commits past a pending entry, none lies below the committed offset, and a truncation there
keeps every record that was delivered and is not settled. -/
theorem fresh_group_safe (cfg : ManagerConfig) (queueName groupId pattern : String)
    (mode : ConsumerGroupMode) (autoCommit : Bool) (log : Log) (ops : List Op) {s : System}
    (hs : s = (fresh queueName groupId pattern mode autoCommit log).run cfg ops) :
    s.group.Consistent ∧
      (Transition.Along (step cfg) (fun s op => op.CommitsSettled s)
          (fresh queueName groupId pattern mode autoCommit log) ops →
        s.group.Protected ∧ ∀ p ∈ s.group.pel,
          (s.manager.log.dropBelow s.group.cursor.committed).record p.2.offset =
            s.manager.log.record p.2.offset) := by
  have hsound : s.Sound := hs ▸ (fresh_sound queueName groupId pattern mode autoCommit log).run ops
  refine ⟨hsound.consistent, fun hops => ?_⟩
  have hfresh : (fresh queueName groupId pattern mode autoCommit log).ledger.Safe := by
    rw [(fresh_wellFormed queueName groupId pattern mode autoCommit log).2]
    exact fun _ ho => nomatch ho
  have hsafe : s.ledger.Safe :=
    hs ▸ safe_run (fresh_sound queueName groupId pattern mode autoCommit log) hfresh hops
  have hprotected := hsound.protected_iff.2 hsafe
  refine ⟨hprotected, fun p hp => ?_⟩
  rw [Log.record_dropBelow, if_pos (Or.inl (hprotected p hp))]

/-- Two messages are claimed and the first is acknowledged; the second stays protected. -/
theorem fresh_group_safe_claim_ack :
    ((fresh "q" "g" "#" .queue true twoMessages).run {} [.claim (Readings.allAt 0) "c" none,
      .claim (Readings.allAt 0) "c" none, .ack (IterationOrder.listOrder _) "c" 0]).group.Protected :=
  ((fresh_group_safe {} "q" "g" "#" .queue true twoMessages _ rfl).2 (by decide +kernel)).1

/-- One message is claimed, and the other is stepped over by a peek whose filter it does not
match. -/
def claimThenPeek : List Op :=
  [.claim (Readings.allAt 0) "c" none, .peekBatchStream (Readings.allAt 0) (some fun _ => false) 10,
    .commitStreamCursor (Readings.allAt 0) 2]

/-- The peek returns offset 2 as its next cursor and commits it at once, past the message that is
still pending. -/
theorem not_protected_claimThenPeek :
    (((fresh "q" "g" "#" .queue true twoMessages).run {} (claimThenPeek.take 1)).manager.peekBatchStream
        {} (Readings.allAt 0) (some fun _ => false) 10).2.1 = 2 ∧
      ¬ ((fresh "q" "g" "#" .queue true twoMessages).run {} claimThenPeek).group.Protected := by
  decide +kernel

end System

end FluxMQ
