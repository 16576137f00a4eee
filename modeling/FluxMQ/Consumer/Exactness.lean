import FluxMQ.Consumer.Safety

/-!
# When the committed offset is exact

For a classic group the committed offset is meant to be the smallest pending offset, or the cursor
when nothing is pending, so that no settled record keeps the log from being truncated.

`Ack` and the end of a `Reject` compute it anew. The other operations leave it where it is, and it
stays exact as long as they do not finish with the very record it points at:

* a claim that finds nothing pending takes the record at the cursor, or there is none;
* the record at the committed offset has not expired and decodes, so that no redelivery drops it;
* a sweep does not settle the record at the committed offset.

A claim or sweep that meets none of this leaves the committed offset behind until the next `Ack`.
-/

namespace FluxMQ

open Ledger Manager

/-- The committed offset is the smallest pending offset, or the cursor when nothing is pending. -/
def ConsumerGroup.Exact (g : ConsumerGroup) : Prop :=
  g.cursor.committed = g.minPendingOffset.getD g.cursor.cursor

instance (g : ConsumerGroup) : Decidable g.Exact := inferInstanceAs (Decidable (_ = _))

namespace System

variable {s : System}

lemma Sound.exact_iff (h : s.Sound) : s.group.Exact ↔ s.ledger.Exact := by
  have hgroup := h.group_ledger
  unfold ConsumerGroup.Exact
  rw [← hgroup]
  cases hmin : s.group.minPendingOffset with
  | none =>
    have hfree := not_held_of_minPendingOffset hmin
    refine ⟨fun heq => Or.inr ⟨hfree, heq⟩, ?_⟩
    rintro (hleast | ⟨-, heq⟩)
    · exact absurd hleast.1 (hfree _)
    · exact heq
  | some least =>
    have hleast := isLeast_minPendingOffset hmin
    constructor
    · intro heq
      refine Or.inl ?_
      rw [show s.group.ledger.committed = least from heq]
      exact hleast
    · rintro (hleast' | ⟨hfree, -⟩)
      · exact hleast'.unique hleast
      · exact absurd hleast.1 (hfree _)

end System

/-- What the claims of one operation must find so that the committed offset stays exact: something
pending, or nothing to claim, or the record at the cursor; and no redelivery finds the record at
the committed offset dead. -/
def System.ClaimsExact (s : System) (filter : Filter) (claims steals : List Readings) : Prop :=
  (s.group.pel ≠ [] ∨ s.manager.log.tail ≤ s.group.cursor.cursor ∨
    ∀ t ∈ claims, claimable s.manager.log filter s.group.queueName t s.group.cursor.cursor) ∧
  ∀ t ∈ steals, ¬ deadRecord s.manager.log t s.group.cursor.committed

/-- The step leaves the committed offset of a classic group exact. The operations on stream
cursors, which the delivery engine performs on stream groups only, are not among them. -/
def Op.KeepsExact (cfg : ManagerConfig) (s : System) : Op → Prop
  | .claim t _ filter => s.ClaimsExact filter [t] [t]
  | .claimBatch claims steals _ filter limit =>
    s.ClaimsExact filter (Manager.readingsBelow claims (Manager.batchLimit cfg limit))
      (Manager.readingsBelow steals (Manager.batchLimit cfg limit))
  | .claimPendingBatch t _ _ _ => ¬ deadRecord s.manager.log t s.group.cursor.committed
  | .finish offset _ _ => ∀ entry, s.transferOf offset = some ⟨.sweep entry, some .written⟩ →
    offset ≠ s.group.cursor.committed
  | .peekBatchStream _ _ _ | .claimBatchStream _ _ _ _ | .advanceCommitted _ => False
  | _ => True

namespace Ledger

variable {l : Ledger}

/-- After a settlement the committed offset is exact. -/
lemma exact_commit {k : Nat} (hs : l.Safe) (hk : CommitsTo l k) : (l.apply (.commit k)).Exact := by
  rcases hk with ⟨hfree, rfl⟩ | ⟨least, hleast, rfl⟩
  · exact Or.inr ⟨hfree, rfl⟩
  · rw [max_eq_right (hs least hleast.1)]
    exact Or.inl hleast

lemma Exact.safe (h : l.Exact) : l.Safe := by
  rcases h with hleast | ⟨hfree, -⟩
  · exact fun o ho => hleast.2 ho
  · exact safe_of_not_held hfree

/-- Settling anything but the record at the committed offset keeps it exact. -/
lemma Exact.settle {offset : Nat} (h : l.Exact) (hne : offset ≠ l.committed) :
    (l.apply (.settle offset)).Exact := by
  rcases h with hleast | ⟨hfree, heq⟩
  · refine Or.inl ⟨(held_settle l _ offset).2 ⟨hne.symm, hleast.1⟩, fun o ho => ?_⟩
    exact hleast.2 ((held_settle l o offset).1 ho).2
  · exact Or.inr ⟨fun o ho => hfree o ((held_settle l o offset).1 ho).2, heq⟩

/-- Handing a held record over changes nothing about which records are held. -/
lemma Exact.handOver {offset : Nat} {c : String} (h : l.Exact) (hheld : l.Held offset) :
    (l.apply (.handOver offset c)).Exact := by
  have hsame : ∀ o, (l.apply (.handOver offset c)).Held o ↔ l.Held o := by
    intro o
    rw [held_handOver]
    exact or_iff_right_of_imp fun heq => heq ▸ hheld
  rcases h with hleast | ⟨hfree, heq⟩
  · exact Or.inl ⟨(hsame _).2 hleast.1, fun o ho => hleast.2 ((hsame o).1 ho)⟩
  · exact Or.inr ⟨fun o ho => hfree o ((hsame o).1 ho), heq⟩

/-- Claiming keeps the committed offset exact if something is held, or if the record claimed is
the one at the cursor. -/
lemma Exact.claim {offset : Nat} {c : String} (h : l.Exact) (hb : l.Bounded)
    (hle : l.cursor ≤ offset) (hfirst : (∀ o, ¬ l.Held o) → offset = l.cursor) :
    (l.apply (.claim offset c)).Exact := by
  rcases h with hleast | ⟨hfree, heq⟩
  · refine Or.inl ⟨(held_claim l _ offset c).2 (Or.inr hleast.1), fun o ho => ?_⟩
    rcases (held_claim l o offset c).1 ho with rfl | ho
    · exact hb.committed_le.trans hle
    · exact hleast.2 ho
  refine Or.inl ⟨(held_claim l _ offset c).2 (Or.inl ?_), fun o ho => ?_⟩
  · exact heq.trans (hfirst hfree).symm
  · rcases (held_claim l o offset c).1 ho with rfl | ho
    · exact hb.committed_le.trans hle
    · exact absurd ho (hfree o)

/-- Stepping over records keeps the committed offset exact if something is held. -/
lemma Exact.skip {next : Nat} (h : l.Exact) (hheld : ¬ ∀ o, ¬ l.Held o) :
    (l.apply (.skip next)).Exact := by
  rcases h with hleast | ⟨hfree, -⟩
  · exact Or.inl hleast
  · exact absurd hfree hheld

end Ledger

/-- A record that can be claimed is retained, so a scan from its offset begins there. -/
lemma scanStart_of_claimable {log : Log} {filter : Filter} {queueName : String} {t : Readings}
    {offset : Nat} (h : claimable log filter queueName t offset) : scanStart log offset = offset := by
  have hread : ∃ e, log.read offset = .ok e := by
    unfold claimable eligible at h
    split at h
    · rename_i e he
      exact ⟨e, he⟩
    · exact nomatch h
  obtain ⟨e, he⟩ := hread
  have hsome : (log.record offset).isSome := by
    unfold Log.read at he
    split at he
    · exact nomatch he
    · exact nomatch he
    · rename_i hrecord
      rw [hrecord]
      rfl
  exact if_pos (Log.record_isSome_iff.1 hsome).1

namespace System

variable {cfg : ManagerConfig} {s : System}

/-- The claims of one operation keep the committed offset exact. -/
lemma exact_of_claims (h : s.Sound) (hexact : s.ledger.Exact) {consumer : String}
    {filter : Filter} {claims steals : List Readings} (hcond : s.ClaimsExact filter claims steals)
    {l' : Ledger} (hreaches : Transition.Reaches apply
      (s.manager.ClaimAct consumer filter claims steals) s.ledger l') : l'.Exact := by
  obtain ⟨hfirst, halive⟩ := hcond
  have hledger := h.group_ledger
  have hcursor : s.group.cursor.cursor = s.ledger.cursor := congrArg cursor hledger
  have hcommitted : s.group.cursor.committed = s.ledger.committed := congrArg committed hledger
  have hqueue : s.group.queueName = s.record.live.queueName :=
    (h.wellFormed.getConsumerGroup (P := fun _ _ => True)).contract.2.2
  rw [hcursor, hqueue] at hfirst
  rw [hcommitted] at halive
  -- The committed offset does not move, and what it points at stays held if anything is held.
  refine (Transition.invariant_reaches (I := fun l => l.Bounded ∧ l.Exact ∧
    l.committed = s.ledger.committed ∧ (s.group.pel ≠ [] → l.Held s.ledger.committed)) ?_
    ⟨h.bounded, hexact, rfl, fun hpel => ?_⟩ hreaches).2.1
  case refine_2 =>
    rcases hexact with hleast | ⟨hfree, -⟩
    · exact hleast.1
    · obtain ⟨p, hp⟩ := List.exists_mem_of_ne_nil _ hpel
      exact absurd (h.held_iff.2 ⟨p, hp, rfl⟩) (hfree _)
  rintro l a ⟨hb, hexact', hsame, hheld⟩ ha
  refine ⟨hb.apply (Manager.ClaimAct.legal l a ha), ?_⟩
  -- With nothing held, the scan starts at the committed offset and must stop there.
  have hstart : (∀ o, ¬ l.Held o) → s.group.pel = [] ∧ l.cursor = s.ledger.cursor := by
    intro hfree
    have hpel : s.group.pel = [] := by
      by_contra hne
      exact hfree _ (hheld hne)
    refine ⟨hpel, ?_⟩
    rcases hexact' with hleast | ⟨-, heq⟩
    · exact absurd hleast.1 (hfree _)
    rcases hexact with hleast | ⟨-, heq'⟩
    · obtain ⟨p, hp, -⟩ := h.held_iff.1 hleast.1
      exact absurd (hpel ▸ hp) List.not_mem_nil
    · rw [← heq, hsame, heq']
  have hstop : (∀ o, ¬ l.Held o) → ∀ t ∈ claims, ∀ i, l.cursor < i → i ≤ s.manager.log.tail →
      ¬ ∀ j, scanStart s.manager.log l.cursor ≤ j → j < i →
        ¬ claimable s.manager.log filter s.record.live.queueName t j := by
    intro hfree t ht i hlt htail hskip
    obtain ⟨hpel, hcur⟩ := hstart hfree
    rcases hfirst with hne | hend | hclaim
    · exact hne hpel
    · omega
    · have hok := hclaim t ht
      rw [← hcur] at hok
      exact hskip l.cursor (scanStart_of_claimable hok).le hlt hok
  cases a with
  | claim offset c =>
    rcases ha with ⟨t, ht, -, hle, htail, -, hskip⟩ | ⟨t, -, ha⟩
    · refine ⟨hexact'.claim hb hle fun hfree => ?_, hsame, fun hne => ?_⟩
      · by_contra hne
        exact hstop hfree t ht offset (lt_of_le_of_ne hle (Ne.symm hne)) htail.le hskip
      · exact (held_claim _ _ _ _).2 (Or.inr (hheld hne))
    · exact ha.elim
  | skip next =>
    rcases ha with ⟨t, ht, hlt, htail, hskip⟩ | ⟨t, -, ha⟩
    · exact ⟨hexact'.skip fun hfree => hstop hfree t ht next hlt htail hskip, hsame, hheld⟩
    · exact ha.elim
  | handOver offset c =>
    rcases ha with ⟨t, -, ha⟩ | ⟨t, -, -, hoff, -⟩
    · exact ha.elim
    · refine ⟨hexact'.handOver hoff, hsame, fun hne => ?_⟩
      exact (held_handOver _ _ _ _).2 (Or.inr (hheld hne))
  | settle offset =>
    rcases ha with ⟨t, -, ha⟩ | ⟨t, ht, -, hdead⟩
    · exact ha.elim
    · have hne : offset ≠ s.ledger.committed := fun heq => halive t ht (heq ▸ hdead)
      refine ⟨hexact'.settle (hsame.symm ▸ hne), hsame, fun hpel => ?_⟩
      exact (held_settle _ _ _).2 ⟨hne.symm, hheld hpel⟩
  | commit k =>
    rcases ha with ⟨t, -, ha⟩ | ⟨t, -, ha⟩
    · exact ha.elim
    · exact ha.elim

/-- Redelivering selected entries keeps the committed offset exact unless it drops the record
there. -/
lemma exact_of_takes (hexact : s.ledger.Exact) {consumer : String} {t : Readings}
    {may : Nat → Prop} (halive : ¬ deadRecord s.manager.log t s.ledger.committed) {l' : Ledger}
    (hreaches : Transition.Reaches apply (TakeAct s.manager.log consumer t may)
      s.ledger l') : l'.Exact := by
  refine (Transition.invariant_reaches
    (I := fun l => l.Exact ∧ l.committed = s.ledger.committed) ?_ ⟨hexact, rfl⟩ hreaches).1
  rintro l a ⟨hexact', hsame⟩ ha
  cases a with
  | handOver offset c => exact ⟨hexact'.handOver ha.2.1, hsame⟩
  | settle offset =>
    refine ⟨hexact'.settle ?_, hsame⟩
    rintro rfl
    exact halive (hsame ▸ ha.2)
  | claim | skip | commit => exact ha.elim

/-- A settlement computes the committed offset anew. -/
lemma exact_settle {m : Manager} (h : m.record.WellFormed) (hb : m.ledger.Bounded)
    (hmode : m.record.live.mode ≠ .stream) (hexact : m.ledger.Exact)
    (order : PelOrder) (consumer : String) (offset : Nat) :
    (m.settle order consumer offset).2.ledger.Exact := by
  obtain ⟨k, hk, hledger⟩ := settle_ledger h hb order consumer offset hmode
  rw [hledger]
  refine exact_commit (hexact.safe.apply hb trivial ?_) hk
  exact fun k heq => nomatch heq

/-- Every step that leaves the committed offset of a classic group exact. -/
lemma exact_step (h : s.Sound) (hmode : s.record.live.mode = .queue) (hexact : s.ledger.Exact)
    {op : Op} (hop : op.KeepsExact cfg s) : (s.step cfg op).ledger.Exact := by
  have hcommitted : s.group.cursor.committed = s.ledger.committed :=
    congrArg committed h.group_ledger
  have hreaches := (h.effect cfg op).reaches
  have hstream : s.record.live.mode ≠ .stream := by simp [hmode]
  -- Steps that change nothing the ledger shows.
  have hsame : (∀ l a, ¬ op.acts cfg s l a) → (s.step cfg op).ledger.Exact := by
    intro hnone
    refine Transition.invariant_reaches (fun l a hl ha => absurd ha (hnone l a)) hexact hreaches
  cases op with
  | claim t consumerId filter | claimBatch claims steals consumerId filter limit =>
    exact exact_of_claims h hexact hop hreaches
  | claimManualStream t t' consumerId filter =>
    -- The operation is refused on a classic group.
    have hread : s.manager.read.record.live.mode ≠ .stream :=
      (moves_read (P := fun _ _ => True) h.wellFormed).evolves.contract.1.trans_ne hstream
    show (s.manager.claimManualStream cfg t t' consumerId filter).2.ledger.Exact
    rw [claimManualStream, withGroup_eq h.wellFormed, if_pos (Or.inl hread)]
    show s.manager.read.ledger.Exact
    rw [ledger_read h.wellFormed]
    exact hexact
  | claimPendingBatch t consumerId minIdle limit =>
    exact exact_of_takes hexact (hcommitted ▸ hop) hreaches
  | peekBatchStream | claimBatchStream | advanceCommitted => exact hop.elim
  | commitStreamCursor => exact hsame fun l a ha => hstream ha.1
  | commitOffset | configureGroup => exact hsame fun l a ha => hstream ha.1.1
  | ack order consumerId offset =>
    show (s.manager.ack order consumerId offset).2.ledger.Exact
    unfold Manager.ack
    split
    · exact hexact
    · exact exact_settle h.wellFormed h.bounded hstream hexact order consumerId offset
  | finish offset order now =>
    by_cases hwritten : ∃ source, s.transferOf offset = some ⟨source, some .written⟩
    · obtain ⟨source, htransfer⟩ := hwritten
      obtain rfl : source.offset = offset := offset_transferOf htransfer
      rw [step, perform_finish cfg htransfer]
      cases source with
      | reject consumerId offset =>
        exact exact_settle (m := s.manager.endTransfer offset) h.wellFormed h.bounded hstream
          hexact order consumerId offset
      | sweep entry =>
        show (s.manager.finishPoisonTransfer cfg order now entry .written).ledger.Exact
        rw [finishPoisonTransfer_ledger h.wellFormed cfg order now entry
          fun hs => absurd hs hstream]
        exact hexact.settle (hcommitted ▸ hop entry htransfer)
    · refine hsame fun l a ha => ?_
      simp only [Op.acts] at ha
      split at ha
      · rename_i htransfer
        exact hwritten ⟨_, htransfer⟩
      · rename_i htransfer
        exact hwritten ⟨_, htransfer⟩
      · exact ha
  | _ => exact hsame fun l a ha => ha

/-- The committed offset of a classic group is exact in every state of a run whose steps leave it
so. -/
theorem fresh_group_exact (cfg : ManagerConfig) (queueName groupId pattern : String)
    (autoCommit : Bool) (log : Log) (ops : List Op)
    (hops : Transition.Along (step cfg) (fun s op => op.KeepsExact cfg s)
      (fresh queueName groupId pattern .queue autoCommit log) ops) :
    ((fresh queueName groupId pattern .queue autoCommit log).run cfg ops).group.Exact := by
  have hsound := fresh_sound queueName groupId pattern .queue autoCommit log
  have hexact : (fresh queueName groupId pattern .queue autoCommit log).ledger.Exact := by
    exact Or.inr ⟨fun _ ho => (nomatch ho), rfl⟩
  have hrun := Transition.invariant_run
    (I := fun s : System => s.Sound ∧ s.record.live.mode = .queue ∧ s.ledger.Exact)
    (fun s op hs hop => ⟨hs.1.step op,
      ((hs.1.effect cfg op).mode (by simp [hs.2.1])).trans hs.2.1,
      exact_step hs.1 hs.2.1 hs.2.2 hop⟩) ⟨hsound, rfl, hexact⟩ hops
  exact hrun.1.exact_iff.2 hrun.2.2

/-- Two claims and an acknowledgement of the first message. -/
theorem fresh_group_exact_claim_ack :
    ((fresh "q" "g" "#" .queue true twoMessages).run {} [.claim (Readings.allAt 0) "c" none,
      .claim (Readings.allAt 0) "c" none, .ack (IterationOrder.listOrder _) "c" 0]).group.Exact := by
  refine fresh_group_exact {} "q" "g" "#" true twoMessages _ ⟨⟨?_, ?_⟩, ⟨?_, ?_⟩, trivial, trivial⟩
  all_goals decide +kernel

/-- A log of one message that expires after ten seconds. -/
def expiringMessage : Log :=
  { records := [.envelope { topic := "$queue/q/a", queueExpiresAt := some (10 * second) }] }

/-- The second claim finds the lease of the first lapsed. -/
def claimTwice : List Op :=
  [.claim (Readings.allAt 0) "c1" none, .claim (Readings.allAt (60 * second)) "c2" none]

/-- The sweep of the first entry, whose destination is written. -/
def sweepFirst : List Op :=
  [.prepareSweep (IterationOrder.listOrder _) (60 * second) 0, .writeDestination 0 .written,
    .finish 0 (IterationOrder.listOrder _) (60 * second)]

/-- The committed offset is left behind by a claim that only steps over records, by a redelivery
that drops an expired entry, and by the sweep of an exhausted entry. -/
theorem not_exact_without_ack :
    ¬ ((fresh "q" "g" "#" .queue true { records := [.undecodable] }).run {}
        [.claim (Readings.allAt 0) "c" none]).group.Exact ∧
      ¬ ((fresh "q" "g" "#" .queue true expiringMessage).run {} claimTwice).group.Exact ∧
      ((fresh "q" "g" "#" .queue true { records := twoMessages.records.take 1 }).run
          { maxDeliveryCount := 1 } claimTwice).manager.poison.workList (60 * second) = [0] ∧
      ¬ ((fresh "q" "g" "#" .queue true { records := twoMessages.records.take 1 }).run
          { maxDeliveryCount := 1 } (claimTwice ++ sweepFirst)).group.Exact := by
  decide +kernel

end System

end FluxMQ
