import FluxMQ.Consumer.Settlement

/-!
# A consumer group under its manager

The transition system of one consumer group: its queue log, its stored state, the manager and the
dead-letter transfers under way. A step is one critical section of the manager under the group's
lock, an append to the log, a truncation, or the destination write of a transfer, which happens
outside the lock. Clock readings and map orders are part of the step, so a run is a list of steps.

`SweepPoison` works through a list of offsets that it took earlier without the group lock; a sweep
of any offset may therefore begin at any time.

* `System.perform`: what a step returns and the state after it.
* `Op.acts`: the changes of the ledger each step makes.
* `System.perform_evolves`: the steps make no other changes.
-/

namespace FluxMQ

open GroupRecord Manager

/-- What a dead-letter transfer carries from its first half to its second: the consumer that
rejected a message and its offset, or the exhausted entry of a sweep. -/
inductive TransferSource where
  | reject (consumerId : String) (offset : Nat)
  | sweep (entry : PendingEntry)
  deriving Repr, DecidableEq

/-- The offset a transfer has reserved. -/
def TransferSource.offset : TransferSource → Nat
  | .reject _ offset => offset
  | .sweep entry => entry.offset

/-- A dead-letter transfer between its two halves. -/
structure Transfer where
  source : TransferSource
  /-- How the destination write ended, once it has. -/
  outcome : Option Manager.DlqOutcome := none
  deriving Repr, DecidableEq

/-- The offset a transfer has reserved. -/
abbrev Transfer.offset (transfer : Transfer) : Nat :=
  transfer.source.offset

/-- A consumer group under its manager. -/
structure System where
  manager : Manager := {}
  /-- Transfers between their two halves. -/
  inFlight : List Transfer := []
  /-- Offsets whose records were appended to the dead-letter queue. -/
  deadLettered : List Nat := []

/-- The steps of the system. -/
inductive Op where
  | append (record : Record)
  | truncate (offset : Nat)
  | registerConsumer (info : ConsumerInfo)
  | unregisterConsumer (consumerId : String)
  | updateHeartbeat (now : Time) (consumerId : String)
  | cleanupStaleConsumers (now timeout : Time)
  | configureGroup (mode : ConsumerGroupMode) (autoCommit configureAutoCommit : Bool)
  | claim (t : Readings) (consumerId : String) (filter : Filter)
  | claimBatch (claims steals : Nat → Readings) (consumerId : String) (filter : Filter)
      (limit : Int)
  | claimManualStream (t t' : Readings) (consumerId : String) (filter : Filter)
  | claimPendingBatch (t : Readings) (consumerId : String) (minIdle : Time) (limit : Int)
  | peekBatchStream (t : Readings) (filter : Filter) (limit : Int)
  | commitStreamCursor (t : Readings) (cursor : Nat)
  | claimBatchStream (t t' : Readings) (filter : Filter) (limit : Int)
  | ack (order : IterationOrder (String × PendingEntry)) (consumerId : String) (offset : Nat)
  | nackWithDelay (order : IterationOrder (String × PendingEntry)) (now : Time)
      (consumerId : String) (offset : Nat) (delay : Time)
  | commitOffset (order : IterationOrder (String × PendingEntry)) (offset : Nat)
  | advanceCommitted (committed : Nat)
  /-- The first half of `Reject`. -/
  | prepareReject (order : IterationOrder (String × PendingEntry)) (consumerId : String)
      (offset : Nat)
  /-- The first half of the sweep of one entry. -/
  | prepareSweep (order : IterationOrder (String × PendingEntry)) (now : Time) (offset : Nat)
  /-- The destination write of the transfer that has reserved an offset. -/
  | writeDestination (offset : Nat) (outcome : Manager.DlqOutcome)
  /-- The second half of the transfer that has reserved an offset. -/
  | finish (offset : Nat) (order : IterationOrder (String × PendingEntry)) (now : Time)

namespace System

variable (cfg : ManagerConfig) (s : System)

/-- The stored group. -/
abbrev record : GroupRecord :=
  s.manager.record

/-- The ledger of the stored group. -/
abbrev ledger : Ledger :=
  s.manager.record.ledger

/-- The group that the next read returns. -/
def group : ConsumerGroup :=
  s.record.getConsumerGroup.live

/-- Run an operation of the manager. -/
def withManager (result : Reply × Manager) : Reply × System :=
  (result.1, { s with manager := result.2 })

/-- Note the transfer a first half has begun, if it has. -/
def begin (source : Option TransferSource) (manager : Manager) : System :=
  match source with
  | some source => { s with manager, inFlight := { source } :: s.inFlight }
  | none => { s with manager }

/-- The transfer that has reserved an offset. -/
def transferOf (offset : Nat) : Option Transfer :=
  s.inFlight.find? fun transfer => transfer.offset == offset

/-- Run the second half of a transfer. -/
def finishTransfer (order : IterationOrder (String × PendingEntry)) (now : Time)
    (source : TransferSource) (outcome : Manager.DlqOutcome) : Reply × Manager :=
  match source with
  | .reject consumerId offset =>
    s.manager.finishTransfer order consumerId offset (decide (outcome = .written))
  | .sweep entry => ({}, s.manager.finishPoisonTransfer cfg order now entry outcome)

/-- What a step returns and the state after it. -/
def perform : Op → Reply × System
  | .append record =>
    ({}, { s with manager := { s.manager with log := s.manager.log.append record } })
  | .truncate offset =>
    ({}, { s with manager := { s.manager with log := s.manager.log.dropBelow offset } })
  | .registerConsumer info => s.withManager (s.manager.registerConsumer info)
  | .unregisterConsumer consumerId => s.withManager (s.manager.unregisterConsumer consumerId)
  | .updateHeartbeat now consumerId => s.withManager (s.manager.updateHeartbeat cfg now consumerId)
  | .cleanupStaleConsumers now timeout =>
    s.withManager (s.manager.cleanupStaleConsumers now timeout)
  | .configureGroup mode autoCommit configureAutoCommit =>
    s.withManager (s.manager.configureGroup mode autoCommit configureAutoCommit)
  | .claim t consumerId filter => s.withManager (s.manager.claim cfg t consumerId filter)
  | .claimBatch claims steals consumerId filter limit =>
    s.withManager (s.manager.claimBatch cfg claims steals consumerId filter limit)
  | .claimManualStream t t' consumerId filter =>
    s.withManager (s.manager.claimManualStream cfg t t' consumerId filter)
  | .claimPendingBatch t consumerId minIdle limit =>
    s.withManager (s.manager.claimPendingBatch cfg t consumerId minIdle limit)
  | .peekBatchStream t filter limit =>
    let (reply, _, manager) := s.manager.peekBatchStream cfg t filter limit
    s.withManager (reply, manager)
  | .commitStreamCursor t cursor => s.withManager (s.manager.commitStreamCursor cfg t cursor)
  | .claimBatchStream t t' filter limit =>
    s.withManager (s.manager.claimBatchStream cfg t t' filter limit)
  | .ack order consumerId offset => s.withManager (s.manager.ack order consumerId offset)
  | .nackWithDelay order now consumerId offset delay =>
    s.withManager (s.manager.nackWithDelay cfg order now consumerId offset delay)
  | .commitOffset order offset => s.withManager (s.manager.commitOffset order offset)
  | .advanceCommitted committed => s.withManager (s.manager.advanceCommittedTo committed)
  | .prepareReject order consumerId offset =>
    let (reply, manager) := s.manager.prepareTransfer cfg order consumerId offset
    (reply, s.begin (if reply.error = none then some (.reject consumerId offset) else none) manager)
  | .prepareSweep order now offset =>
    let (entry, manager) := s.manager.preparePoisonTransfer cfg order now offset
    ({}, s.begin (entry.map .sweep) manager)
  | .writeDestination offset outcome =>
    match s.transferOf offset with
    | some ⟨_, none⟩ =>
      ({}, { s with
        inFlight := s.inFlight.map fun transfer =>
          if transfer.offset = offset then { transfer with outcome := some outcome } else transfer
        deadLettered := if outcome = .written then offset :: s.deadLettered else s.deadLettered })
    | _ => ({}, s)
  | .finish offset order now =>
    match s.transferOf offset with
    | some ⟨source, some outcome⟩ =>
      let (reply, manager) := s.finishTransfer cfg order now source outcome
      (reply, { s with
        manager
        inFlight := s.inFlight.filter fun transfer => transfer.offset != offset })
    | _ => ({}, s)

/-- The state after a step. -/
def step (op : Op) : System :=
  (s.perform cfg op).2

/-- The state after a run. -/
abbrev run (ops : List Op) : System :=
  Transition.run (step cfg) s ops

end System

/-- The changes of the ledger a step may make. -/
def Op.acts (cfg : ManagerConfig) (s : System) : Op → Ledger → Act → Prop
  | .claim t consumerId filter => s.manager.ClaimAct consumerId filter [t] [t]
  | .claimBatch claims steals consumerId filter limit =>
    s.manager.ClaimAct consumerId filter
      (Manager.readingsBelow claims (Manager.batchLimit cfg limit))
      (Manager.readingsBelow steals (Manager.batchLimit cfg limit))
  | .claimManualStream t t' consumerId filter => s.manager.ClaimAct consumerId filter [t'] [t]
  | .claimPendingBatch t consumerId minIdle limit =>
    TakeAct s.manager.log consumerId t
      (· ∈ Manager.selectedOffsets cfg consumerId s.manager t minIdle limit)
  | .peekBatchStream _ _ _ => Manager.AnyStreamAct s.record.live.autoCommit
  | .claimBatchStream _ _ _ _ => Manager.AnyStreamAct s.record.live.autoCommit
  | .commitStreamCursor _ cursor => fun l a =>
    s.record.live.mode = .stream ∧ StreamAct cursor s.record.live.autoCommit l a
  | .ack _ _ offset => fun l a => offset ∉ s.manager.transfers ∧ SettleAct offset l a
  | .commitOffset _ offset => fun l a =>
    s.manager.acceptsCommit offset ∧ Manager.CommitOffsetAct offset s.record.live.autoCommit l a
  | .advanceCommitted committed => fun l a => a = .commit committed ∧ committed ≤ l.cursor
  | .configureGroup _ autoCommit configureAutoCommit => fun l a =>
    s.manager.switches autoCommit configureAutoCommit ∧ Manager.SwitchAct autoCommit l a
  | .finish offset _ _ => fun l a =>
    match s.transferOf offset with
    | some ⟨.reject _ _, some .written⟩ => SettleAct offset l a
    | some ⟨.sweep _, some .written⟩ => a = .settle offset
    | _ => False
  | _ => fun _ _ => False

/-- Every step makes legal changes. -/
lemma Op.acts_legal {cfg : ManagerConfig} {s : System} (op : Op) (l : Ledger) (a : Act)
    (h : op.acts cfg s l a) : l.Legal a := by
  cases op with
  | claim | claimBatch | claimManualStream => exact Manager.ClaimAct.legal l a h
  | claimPendingBatch => exact TakeAct.legal h
  | peekBatchStream | claimBatchStream => exact Manager.AnyStreamAct.legal l a h
  | commitStreamCursor | ack | configureGroup => exact h.2.legal
  | commitOffset => exact Manager.CommitOffsetAct.legal l a h.2
  | advanceCommitted =>
    obtain ⟨rfl, hk⟩ := h
    exact hk
  | finish offset order now =>
    simp only [acts] at h
    split at h
    · exact h.legal
    · subst h
      trivial
    · exact h.elim
  | _ => exact h.elim

namespace System

variable {cfg : ManagerConfig} {s : System}

/-- What a step may hand out: a selection of `ClaimPendingBatch` does not look at reservations. -/
def mayTouch (cfg : ManagerConfig) (s : System) : Op → Nat → Prop
  | .claimPendingBatch t consumerId minIdle limit =>
    (· ∈ Manager.selectedOffsets cfg consumerId s.manager t minIdle limit)
  | _ => (· ∉ s.manager.transfers)

/-- What a step does to the stored group, and what it hands out. -/
structure Effect (cfg : ManagerConfig) (s : System) (op : Op) : Prop where
  wellFormed : (s.step cfg op).record.WellFormed
  reaches : Transition.Reaches Ledger.apply (op.acts cfg s) s.ledger (s.step cfg op).ledger
  handedOut : ∀ o ∈ (s.perform cfg op).1.messages, HandedOut (mayTouch cfg s op) s.ledger o
  /-- A mode that was named stays. -/
  mode : s.record.live.mode ≠ .unset → (s.step cfg op).record.live.mode = s.record.live.mode

/-- The step runs no part of a transfer. -/
structure Quiet (s s' : System) : Prop where
  transfers : s'.manager.transfers = s.manager.transfers
  inFlight : s'.inFlight = s.inFlight
  deadLettered : s'.deadLettered = s.deadLettered

/-- An operation of the manager that keeps the log and the reservations. -/
lemma effect_of_serves {op : Op} {result : Reply × Manager}
    (hop : s.perform cfg op = s.withManager result)
    (h : Manager.Serves (op.acts cfg s) (mayTouch cfg s op) s.manager result) :
    Effect cfg s op ∧ Quiet s (s.step cfg op) := by
  have hstep : s.step cfg op = (s.withManager result).2 := congrArg Prod.snd hop
  refine ⟨⟨?_, ?_, ?_, ?_⟩, ?_⟩
  · rw [hstep]
    exact h.moves.evolves.wellFormed
  · rw [hstep]
    exact h.moves.evolves.reaches
  · rw [hop]
    exact h.handedOut
  · rw [hstep]
    exact fun _ => h.moves.evolves.contract.1
  · rw [hstep]
    exact ⟨h.moves.transfers, rfl, rfl⟩

end System

/-- The step is an operation of the manager other than the halves of a transfer and the change of
the settlement contract. -/
def Op.isOperation : Op → Bool
  | .append _ | .truncate _ | .configureGroup _ _ _ | .prepareReject _ _ _ | .prepareSweep _ _ _
  | .writeDestination _ _ | .finish _ _ _ => false
  | _ => true

namespace System

variable {cfg : ManagerConfig} {s : System}

/-- What the operations of the manager do. -/
lemma operation_effect (h : s.record.WellFormed) (hb : s.ledger.Bounded) {op : Op}
    (hop : op.isOperation) : Effect cfg s op ∧ Quiet s (s.step cfg op) := by
  cases op with
  | append | truncate | configureGroup | prepareReject | prepareSweep | writeDestination
  | finish => exact nomatch hop
  | registerConsumer info =>
    exact effect_of_serves rfl (registerConsumer_serves _ h info)
  | unregisterConsumer consumerId =>
    exact effect_of_serves rfl (unregisterConsumer_serves _ h consumerId)
  | updateHeartbeat now consumerId =>
    exact effect_of_serves rfl (updateHeartbeat_serves (Op.acts_legal _) _ h cfg now consumerId)
  | cleanupStaleConsumers now timeout =>
    exact effect_of_serves rfl (cleanupStaleConsumers_serves (Op.acts_legal _) _ h now timeout)
  | claim t consumerId filter =>
    exact effect_of_serves rfl (claim_serves cfg consumerId filter h hb t)
  | claimBatch claims steals consumerId filter limit =>
    exact effect_of_serves rfl (claimBatch_serves cfg consumerId filter h hb claims steals limit)
  | claimManualStream t t' consumerId filter =>
    exact effect_of_serves rfl (claimManualStream_serves cfg consumerId filter h hb t t')
  | claimPendingBatch t consumerId minIdle limit =>
    exact effect_of_serves rfl (claimPendingBatch_serves cfg consumerId h t minIdle limit)
  | peekBatchStream t filter limit =>
    exact effect_of_serves rfl (peekBatchStream_serves cfg h t filter limit _)
  | commitStreamCursor t cursor =>
    exact effect_of_serves rfl (commitStreamCursor_serves cfg h t cursor _)
  | claimBatchStream t t' filter limit =>
    exact effect_of_serves rfl (claimBatchStream_serves cfg h t t' filter limit _)
  | ack order consumerId offset =>
    exact effect_of_serves rfl (ack_serves h hb order consumerId offset _)
  | nackWithDelay order now consumerId offset delay =>
    exact effect_of_serves rfl
      (nackWithDelay_serves h cfg order now consumerId offset delay (Op.acts_legal _) _)
  | commitOffset order offset =>
    exact effect_of_serves rfl (commitOffset_serves h order offset _)
  | advanceCommitted committed =>
    exact effect_of_serves rfl (advanceCommittedTo_serves h committed _)

/-- A step that changes nothing the ledger shows and hands nothing out. -/
lemma effect_of_same {op : Op} (hevolves : Evolves (op.acts cfg s) s.record (s.step cfg op).record)
    (hreply : (s.perform cfg op).1.messages = []) : Effect cfg s op :=
  ⟨hevolves.wellFormed, hevolves.reaches, fun _ ho => absurd (hreply ▸ ho) List.not_mem_nil,
    fun _ => hevolves.contract.1⟩

lemma manager_begin (source : Option TransferSource) (manager : Manager) :
    (s.begin source manager).manager = manager := by
  cases source <;> rfl

lemma prepareTransfer_messages (cfg : ManagerConfig) (m : Manager) (order : PelOrder)
    (consumerId : String) (offset : Nat) :
    (m.prepareTransfer cfg order consumerId offset).1.messages = [] := by
  unfold prepareTransfer withGroup
  simp only
  repeat' split
  all_goals rfl

/-- The destination is written without touching the manager. -/
lemma perform_writeDestination (cfg : ManagerConfig) (s : System) (offset : Nat)
    (outcome : Manager.DlqOutcome) :
    (s.perform cfg (.writeDestination offset outcome)).1 = {} ∧
      (s.step cfg (.writeDestination offset outcome)).manager = s.manager := by
  simp only [step, perform]
  split <;> exact ⟨rfl, rfl⟩

variable {offset : Nat}

lemma perform_finish (cfg : ManagerConfig) {source : TransferSource}
    {outcome : Manager.DlqOutcome} (htransfer : s.transferOf offset = some ⟨source, some outcome⟩)
    (order : PelOrder) (now : Time) :
    s.perform cfg (.finish offset order now) =
      ((s.finishTransfer cfg order now source outcome).1,
        { s with
          manager := (s.finishTransfer cfg order now source outcome).2
          inFlight := s.inFlight.filter fun transfer => transfer.offset != offset }) := by
  simp only [perform, htransfer]

/-- A second half without a written transfer does nothing. -/
lemma perform_finish_of_not (cfg : ManagerConfig)
    (htransfer : ∀ source outcome, s.transferOf offset ≠ some ⟨source, some outcome⟩)
    (order : PelOrder) (now : Time) : s.perform cfg (.finish offset order now) = ({}, s) := by
  simp only [perform]

lemma offset_transferOf {transfer : Transfer}
    (h : s.transferOf offset = some transfer) : transfer.offset = offset := by
  simpa using List.find?_some h

/-- The second half of a transfer. -/
lemma finishTransfer_finishes (cfg : ManagerConfig) (h : s.record.WellFormed)
    (hb : s.ledger.Bounded) (order : PelOrder) (now : Time)
    {source : TransferSource} {outcome : Manager.DlqOutcome}
    (htransfer : s.transferOf offset = some ⟨source, some outcome⟩) :
    Manager.Finishes (Op.acts cfg s (.finish offset order now)) s.manager offset
        (s.finishTransfer cfg order now source outcome).2 ∧
      (s.finishTransfer cfg order now source outcome).1.messages = [] := by
  have hoffset : source.offset = offset := offset_transferOf htransfer
  subst hoffset
  cases source with
  | reject consumerId offset =>
    obtain ⟨hfinish, hmessages⟩ := finishTransfer_finishes h hb order consumerId offset
      (decide (outcome = .written))
    refine ⟨⟨hfinish.evolves.mono fun l a ha => ?_, hfinish.log, hfinish.transfers⟩, hmessages⟩
    obtain rfl : outcome = .written := by simpa using ha.1
    simp only [Op.acts, htransfer]
    exact ha.2
  | sweep entry =>
    have hfinish := finishPoisonTransfer_finishes h cfg order now entry outcome
    refine ⟨⟨hfinish.evolves.mono fun l a ha => ?_, hfinish.log, hfinish.transfers⟩, rfl⟩
    obtain ⟨rfl, rfl⟩ := ha
    simp only [Op.acts, htransfer]
    rfl

/-- What every step does. -/
lemma effect (cfg : ManagerConfig) (h : s.record.WellFormed) (hb : s.ledger.Bounded) (op : Op) :
    Effect cfg s op := by
  cases op with
  | configureGroup mode auto configure =>
    obtain ⟨hmessages, -, hwf, hreaches, hmode⟩ := configureGroup_spec h hb mode auto configure
    exact ⟨hwf, hreaches, fun _ ho => absurd (hmessages ▸ ho) List.not_mem_nil, hmode⟩
  | append record | truncate offset => exact effect_of_same (.refl h) rfl
  | prepareReject order consumerId offset =>
    refine effect_of_same ?_ (prepareTransfer_messages cfg _ _ _ _)
    simp only [step, perform, record, manager_begin]
    exact (prepareTransfer_prepares h cfg order consumerId offset).evolves _
  | prepareSweep order now offset =>
    refine effect_of_same ?_ rfl
    simp only [step, perform, record, manager_begin]
    exact (preparePoisonTransfer_prepares h cfg order now offset).evolves _
  | writeDestination offset outcome =>
    obtain ⟨hreply, hmanager⟩ := perform_writeDestination cfg s offset outcome
    refine effect_of_same ?_ (congrArg Reply.messages hreply)
    show Evolves _ s.record (s.step cfg _).manager.record
    rw [hmanager]
    exact .refl h
  | finish offset order now =>
    by_cases htransfer : ∃ source outcome, s.transferOf offset = some ⟨source, some outcome⟩
    · obtain ⟨source, outcome, htransfer⟩ := htransfer
      have hperform := perform_finish cfg htransfer order now
      obtain ⟨hfinish, hmessages⟩ := finishTransfer_finishes cfg h hb order now htransfer
      refine effect_of_same ?_ ?_
      · rw [step, hperform]
        exact hfinish.evolves
      · rw [hperform]
        exact hmessages
    · have hperform := perform_finish_of_not cfg
        (fun source outcome heq => htransfer ⟨source, outcome, heq⟩) order now
      refine effect_of_same ?_ ?_
      · rw [step, hperform]
        exact .refl h
      · rw [hperform]
  | _ => exact (operation_effect h hb rfl).1

/-! ### Sound states -/

/-- The stored group has one of its shapes, and everything held lies below the cursor. -/
structure Sound (s : System) : Prop where
  wellFormed : s.record.WellFormed
  bounded : s.ledger.Bounded

/-- What every step does in a sound state. -/
lemma Sound.effect (h : s.Sound) (cfg : ManagerConfig) (op : Op) : Effect cfg s op :=
  System.effect cfg h.wellFormed h.bounded op

/-- Every step keeps a state sound. -/
lemma Sound.step (h : s.Sound) (op : Op) : (s.step cfg op).Sound := by
  have heffect := h.effect cfg op
  exact ⟨heffect.wellFormed, h.bounded.reaches (heffect.reaches.mono op.acts_legal)⟩

/-- No step moves the cursor back, and below it nothing becomes held again. -/
lemma Sound.held_or_le (h : s.Sound) (cfg : ManagerConfig) (op : Op) (o : Nat) :
    ((s.step cfg op).ledger.Held o → s.ledger.Held o ∨ s.ledger.cursor ≤ o) ∧
      s.ledger.cursor ≤ (s.step cfg op).ledger.cursor :=
  Ledger.held_or_le_of_reaches ((h.effect cfg op).reaches.mono op.acts_legal) o

/-- Every state of a run from a sound state is sound. -/
lemma Sound.run (h : s.Sound) (ops : List Op) : (s.run cfg ops).Sound :=
  Transition.invariant_run (P := fun _ _ => True) (fun _ op h _ => h.step op) h
    (Transition.along_of_forall fun _ _ _ => trivial)

/-- The changes that a run makes. -/
lemma Sound.reaches_run (h : s.Sound) (ops : List Op) :
    Transition.Reaches Ledger.apply Ledger.Legal s.ledger (s.run cfg ops).ledger := by
  induction ops generalizing s with
  | nil => exact .refl _ _ _
  | cons op ops ih => exact ((h.effect cfg op).reaches.mono op.acts_legal).trans (ih (h.step op))

/-! ### A fresh group -/

/-- A group as `getOrCreateGroup` first stores it: `NewConsumerGroupState` with the mode and the
commit policy of the first subscription. -/
def fresh (queueName groupId pattern : String) (mode : ConsumerGroupMode) (autoCommit : Bool)
    (log : Log) : System :=
  let group :=
    ConsumerGroup.setAutoCommit { newConsumerGroupState queueName groupId pattern with mode }
      autoCommit
  { manager :=
      { log
        record := (({} : GroupRecord).createConsumerGroup (IterationOrder.listOrder _) zeroTime
          group).1 } }

section

variable (queueName groupId pattern : String) (mode : ConsumerGroupMode) (autoCommit : Bool)
  (log : Log)

lemma fresh_wellFormed : (fresh queueName groupId pattern mode autoCommit log).record.WellFormed ∧
    (fresh queueName groupId pattern mode autoCommit log).ledger = ⟨0, 0, fun _ => none⟩ := by
  cases mode with
  | stream => exact ⟨.stream _ _ rfl (fun hne => absurd rfl hne) Pel.distinct_nil Pel.filed_nil, rfl⟩
  | unset | queue => exact ⟨.tracked _ _ (fun h => nomatch h) rfl, rfl⟩

/-- A fresh group is sound. -/
lemma fresh_sound : (fresh queueName groupId pattern mode autoCommit log).Sound := by
  obtain ⟨hwf, hledger⟩ := fresh_wellFormed queueName groupId pattern mode autoCommit log
  refine ⟨hwf, ?_⟩
  rw [hledger]
  exact ⟨fun _ ho => (nomatch ho), le_rfl⟩

/-- What was handed out and settled is never handed out again: what any later step returns was
pending, or not yet handed out. -/
theorem settled_not_redelivered (cfg : ManagerConfig) (ops more : List Op) (op : Op) :
    let s := (fresh queueName groupId pattern mode autoCommit log).run cfg ops
    {o | o ∈ ((s.run cfg more).perform cfg op).1.messages} ⊆
      {o | s.ledger.Held o ∨ s.ledger.cursor ≤ o} := by
  intro s o ho
  have h : s.Sound := (fresh_sound queueName groupId pattern mode autoCommit log).run ops
  obtain ⟨hheld, hle⟩ := Ledger.held_or_le_of_reaches (h.reaches_run more) o
  rcases ((h.run more).effect cfg op).handedOut o ho with hreached | hback
  · exact .inr (hle.trans hreached)
  · exact hheld hback.1

end

/-- A log of two messages. -/
def twoMessages : Log :=
  { records := [.envelope { topic := "$queue/q/a" }, .envelope { topic := "$queue/q/b" }] }

end System

end FluxMQ
