import FluxMQ.Consumer.Safety

/-!
# Dead-letter reservations

A dead-letter transfer reserves its entry, releases the group's lock while the destination is
written, and settles the entry when it has been. Between its halves the reservation alone keeps
the entry from being settled, handed over or handed out.

`Ack`, `NackWithDelay`, a second transfer and the stealing claims look at the reservations. Three
operations do not: `ClaimPendingBatch`, `CommitOffset` on a stream without auto-commit, and the
switch of a stream to auto-commit. In a run in which none of the three meets a reserved entry,

* a reserved entry stays pending under its owner and is not handed out, and
* no message is handed out after it was appended to the dead-letter queue.
-/

namespace FluxMQ

open GroupRecord List

/-- The step leaves reserved entries alone where the code does not look at the reservations:
`ClaimPendingBatch` selects none of them, `CommitOffset` settles none of them, and a stream is not
switched to auto-commit while there are any. -/
def Op.RespectsReservations (cfg : ManagerConfig) (s : System) : Op → Prop
  | .claimPendingBatch t consumerId minIdle limit =>
    ∀ o ∈ Manager.selectedOffsets cfg consumerId s.manager t minIdle limit,
      o ∉ s.manager.transfers
  | .commitOffset _ offset =>
    s.manager.acceptsCommit offset → s.record.live.autoCommit = false →
      ∀ o ∈ s.manager.transfers, offset ≤ o
  | .configureGroup _ autoCommit configureAutoCommit =>
    s.manager.switches autoCommit configureAutoCommit → autoCommit → s.manager.transfers = []
  | _ => True

/-- The offset whose transfer the step finishes. -/
def Op.finishes : Op → Option Nat
  | .finish offset _ _ => some offset
  | _ => none

namespace System

variable {s : System} {o : Nat}

/-- The transfers under way are those that have reserved an offset, each holds its own, and the
record of every offset appended to the dead-letter queue is settled or still reserved. -/
structure Reserved (s : System) : Prop where
  sound : s.Sound
  transfers : ∀ o, o ∈ s.manager.transfers ↔ ∃ transfer ∈ s.inFlight, transfer.offset = o
  nodup : (s.inFlight.map Transfer.offset).Nodup
  owned : ∀ transfer ∈ s.inFlight, ∃ w, w ≠ "" ∧ s.ledger.owner transfer.offset = some w
  reached : ∀ o ∈ s.deadLettered, o < s.ledger.cursor
  written : ∀ o ∈ s.deadLettered, s.ledger.Held o →
    ∃ transfer ∈ s.inFlight, transfer.offset = o ∧ transfer.outcome = some .written

/-- A reserved offset is held. -/
lemma Reserved.held (h : s.Reserved) (ho : o ∈ s.manager.transfers) : s.ledger.Held o := by
  obtain ⟨transfer, htransfer, rfl⟩ := (h.transfers o).1 ho
  obtain ⟨w, -, hw⟩ := h.owned transfer htransfer
  rw [Ledger.Held, hw]
  rfl

end System

/-- Changes that neither settle nor hand over a record below the cursor leave its owner alone. -/
lemma Ledger.owner_of_reaches {P : Ledger → Act → Prop} {l l' : Ledger} {o : Nat}
    (hlegal : ∀ l a, P l a → l.Legal a)
    (hkeep : ∀ l, ¬ P l (.settle o) ∧ ∀ c, ¬ P l (.handOver o c)) (hlt : o < l.cursor)
    (h : Transition.Reaches Ledger.apply P l l') : l'.owner o = l.owner o := by
  refine (Transition.invariant_reaches
    (I := fun l' => l'.owner o = l.owner o ∧ l.cursor ≤ l'.cursor) ?_ ⟨rfl, le_rfl⟩ h).1
  rintro l' a ⟨howner, hcursor⟩ ha
  refine ⟨?_, hcursor.trans (cursor_le_apply (hlegal l' a ha))⟩
  cases a with
  | claim offset c =>
    -- A claim is made at or behind the cursor, where the record is not.
    have hle : l'.cursor ≤ offset := hlegal l' _ ha
    have hne : o ≠ offset := by omega
    exact (Function.update_of_ne hne _ _).trans howner
  | handOver offset c =>
    have hne : o ≠ offset := fun heq => (hkeep l').2 c (heq ▸ ha)
    exact (Function.update_of_ne hne _ _).trans howner
  | settle offset =>
    have hne : o ≠ offset := fun heq => (hkeep l').1 (heq ▸ ha)
    exact (Function.update_of_ne hne _ _).trans howner
  | skip | commit => exact howner

namespace System

variable {cfg : ManagerConfig} {s : System} {op : Op} {o : Nat}

/-- A step that respects the reservations neither settles nor hands over a reserved record, unless
it is the second half of the transfer. -/
lemma keeps_reserved (hop : op.RespectsReservations cfg s)
    (ho : o ∈ s.manager.transfers) (hfinish : op.finishes ≠ some o) (l : Ledger) :
    ¬ op.acts cfg s l (.settle o) ∧ ∀ c, ¬ op.acts cfg s l (.handOver o c) := by
  cases op with
  | claim | claimBatch | claimManualStream =>
    refine ⟨?_, fun c => ?_⟩
    · rintro (⟨t, -, ha⟩ | ⟨t, -, ha⟩)
      · exact ha
      · exact ha.1 ho
    · rintro (⟨t, -, ha⟩ | ⟨t, -, ha⟩)
      · exact ha
      · exact ha.2.2 ho
  | claimPendingBatch => exact ⟨fun ha => hop o ha.1 ho, fun c ha => hop o ha.2.2 ho⟩
  | peekBatchStream | claimBatchStream => exact ⟨fun ⟨_, ha⟩ => ha, fun c ⟨_, ha⟩ => ha⟩
  | commitStreamCursor => exact ⟨And.right, fun c => And.right⟩
  | ack order consumerId offset =>
    refine ⟨fun ha => ?_, fun c => And.right⟩
    obtain ⟨hfree, rfl⟩ := ha
    exact hfree ho
  | commitOffset order offset =>
    refine ⟨fun ha => ?_, fun c => And.right⟩
    obtain ⟨haccepts, hoff, hlt⟩ := ha
    exact absurd (hop haccepts hoff o ho) (Nat.not_le.2 hlt)
  | configureGroup mode auto configure =>
    refine ⟨fun ha => ?_, fun c => And.right⟩
    exact absurd (hop ha.1 ha.2 ▸ ho) not_mem_nil
  | advanceCommitted => exact ⟨fun ha => (nomatch ha.1), fun c ha => (nomatch ha.1)⟩
  | finish offset order now =>
    have hne : o ≠ offset := fun heq => hfinish (congrArg some heq.symm)
    refine ⟨fun ha => ?_, fun c ha => ?_⟩
    · simp only [Op.acts] at ha
      split at ha
      · exact hne ha
      · exact hne (by simpa using ha)
      · exact ha
    · simp only [Op.acts] at ha
      split at ha
      · exact ha
      · cases ha
      · exact ha
  | _ => exact ⟨fun ha => ha, fun c ha => ha⟩

/-- What a step hands out was at or behind the cursor, or was held and not reserved. -/
lemma handedOut_free (h : s.Sound) (hop : op.RespectsReservations cfg s)
    (ho : o ∈ (s.perform cfg op).1.messages) : HandedOut (· ∉ s.manager.transfers) s.ledger o := by
  rcases (h.effect cfg op).handedOut o ho with hfresh | ⟨hheld, hmay⟩
  · exact Or.inl hfresh
  refine Or.inr ⟨hheld, ?_⟩
  cases op with
  | claimPendingBatch => exact hop o hmay
  | _ => exact hmay

section

variable (h : s.Reserved)
include h

section

variable (hop : op.RespectsReservations cfg s)
include hop

/-- A reserved entry keeps its owner. -/
lemma Reserved.owner_step (ho : o ∈ s.manager.transfers) (hfinish : op.finishes ≠ some o) :
    (s.step cfg op).ledger.owner o = s.ledger.owner o :=
  Ledger.owner_of_reaches op.acts_legal (keeps_reserved hop ho hfinish)
    (h.sound.bounded.held_lt o (h.held ho)) (h.sound.effect cfg op).reaches

/-- A reserved message is not handed out. -/
lemma Reserved.not_handedOut (ho : o ∈ s.manager.transfers) : o ∉ (s.perform cfg op).1.messages := by
  intro hmem
  rcases handedOut_free h.sound hop hmem with hfresh | ⟨-, hfree⟩
  · exact absurd (h.sound.bounded.held_lt o (h.held ho)) (Nat.not_lt.2 hfresh)
  · exact hfree ho

/-- A message that was appended to the dead-letter queue is not handed out. -/
lemma Reserved.deadLettered_not_handedOut (ho : o ∈ s.deadLettered) :
    o ∉ (s.perform cfg op).1.messages := by
  intro hmem
  rcases handedOut_free h.sound hop hmem with hfresh | ⟨hheld, hfree⟩
  · exact absurd (h.reached o ho) (Nat.not_lt.2 hfresh)
  · obtain ⟨transfer, htransfer, hoffset, -⟩ := h.written o ho hheld
    exact hfree ((h.transfers o).2 ⟨transfer, htransfer, hoffset⟩)

/-! ### The invariant of the transfers -/

/-- A step that runs no part of a transfer keeps the invariant. -/
lemma Reserved.of_quiet (hfinish : op.finishes = none) (hquiet : Quiet s (s.step cfg op)) :
    (s.step cfg op).Reserved := by
  refine ⟨h.sound.step op, ?_, ?_, fun transfer htransfer => ?_, fun o ho => ?_, fun o ho hheld => ?_⟩
  · rw [hquiet.transfers, hquiet.inFlight]
    exact h.transfers
  · rw [hquiet.inFlight]
    exact h.nodup
  · rw [hquiet.inFlight] at htransfer
    have hreserved := (h.transfers transfer.offset).2 ⟨transfer, htransfer, rfl⟩
    rw [h.owner_step hop hreserved (by simp [hfinish])]
    exact h.owned transfer htransfer
  · rw [hquiet.deadLettered] at ho
    exact (h.reached o ho).trans_le (h.sound.held_or_le cfg op o).2
  · rw [hquiet.deadLettered] at ho
    rw [hquiet.inFlight]
    rcases (h.sound.held_or_le cfg op o).1 hheld with hheld | hle
    · exact h.written o ho hheld
    · exact absurd (h.reached o ho) (Nat.not_lt.2 hle)

end

/-- The first half of a transfer reserves a free offset that somebody holds, or nothing. -/
lemma Reserved.of_prepares (offset : Nat) {source : Option TransferSource} {m' : Manager}
    (hprepares : s.manager.Prepares offset source.isSome m')
    (hsource : ∀ src, source = some src → src.offset = offset) : (s.begin source m').Reserved := by
  have hledger : (s.begin source m').ledger = s.ledger := by
    rw [ledger, manager_begin]
    exact hprepares.ledger
  have hsound : (s.begin source m').Sound := by
    refine ⟨?_, hledger.symm ▸ h.sound.bounded⟩
    rw [record, manager_begin]
    exact (hprepares.evolves fun _ _ => False).wellFormed
  cases source with
  | none =>
    have htransfers : m'.transfers = s.manager.transfers := hprepares.transfers
    refine ⟨hsound, ?_, h.nodup, ?_, ?_, ?_⟩
    · rw [manager_begin, htransfers]
      exact h.transfers
    · rw [hledger]
      exact h.owned
    · rw [hledger]
      exact h.reached
    · rw [hledger]
      exact h.written
  | some src =>
    have hreserves : s.manager.Reserves offset m' := hprepares.transfers
    obtain rfl := hsource src rfl
    refine ⟨hsound, fun o => ?_, ?_, fun transfer htransfer => ?_, ?_, fun o ho hheld => ?_⟩
    · rw [manager_begin, hreserves.transfers]
      simp [begin, h.transfers, eq_comm]
    · refine nodup_cons.2 ⟨fun hmem => hreserves.free ?_, h.nodup⟩
      obtain ⟨transfer, htransfer, heq⟩ := mem_map.1 hmem
      exact (h.transfers _).2 ⟨transfer, htransfer, heq⟩
    · rw [hledger]
      rcases mem_cons.1 htransfer with rfl | htransfer
      · exact hreserves.owner
      · exact h.owned transfer htransfer
    · rw [hledger]
      exact h.reached
    · rw [hledger] at hheld
      obtain ⟨transfer, htransfer, hwritten⟩ := h.written o ho hheld
      exact ⟨transfer, mem_cons_of_mem _ htransfer, hwritten⟩

/-- The transfer that has reserved an offset is the only one at it. -/
lemma Reserved.transferOf_eq_some_iff {offset : Nat} {transfer : Transfer} :
    s.transferOf offset = some transfer ↔ transfer ∈ s.inFlight ∧ transfer.offset = offset :=
  find?_key_eq_some_iff h.nodup

lemma Reserved.eq_of_offset {a b : Transfer} (ha : a ∈ s.inFlight) (hb : b ∈ s.inFlight)
    (hab : a.offset = b.offset) : a = b :=
  inj_on_of_nodup_map h.nodup ha hb hab

/-- The destination write of a transfer. -/
lemma Reserved.of_write (offset : Nat) (outcome : Manager.DlqOutcome) :
    (s.step cfg (.writeDestination offset outcome)).Reserved := by
  simp only [step, perform]
  split
  case h_2 => exact h
  case h_1 source htransfer =>
  obtain ⟨hmem, hoffset⟩ := h.transferOf_eq_some_iff.1 htransfer
  set f := fun transfer : Transfer =>
    if transfer.offset = offset then { transfer with outcome := some outcome } else transfer
  have hf : ∀ transfer, (f transfer).offset = transfer.offset := by
    intro transfer
    by_cases heq : transfer.offset = offset <;> simp [f, heq]
  have hother : ∀ transfer, transfer.offset ≠ offset → f transfer = transfer :=
    fun transfer hne => if_neg hne
  refine ⟨⟨h.sound.wellFormed, h.sound.bounded⟩, fun o => ?_, ?_, fun transfer ht => ?_,
    fun o ho => ?_, fun o ho hheld => ?_⟩
  · simp [h.transfers, hf]
  · simpa [map_map, Function.comp_def, hf] using h.nodup
  · obtain ⟨transfer, hold, rfl⟩ := mem_map.1 ht
    rw [hf]
    exact h.owned transfer hold
  · -- What has just been written is held, so it lies below the cursor.
    have hreserved : offset ∈ s.manager.transfers := (h.transfers offset).2 ⟨_, hmem, hoffset⟩
    have hlt := h.sound.bounded.held_lt offset (h.held hreserved)
    split at ho
    · rcases mem_cons.1 ho with rfl | ho
      · exact hlt
      · exact h.reached o ho
    · exact h.reached o ho
  · by_cases heq : o = offset
    · subst heq
      refine ⟨_, mem_map_of_mem hmem, (hf _).trans hoffset, ?_⟩
      split at ho
      · rename_i hwritten
        simp [f, hoffset, hwritten]
      -- An earlier write would have left its mark on the transfer.
      obtain ⟨transfer, ht, hto, hwritten⟩ := h.written o ho hheld
      rw [h.eq_of_offset ht hmem (hto.trans hoffset.symm)] at hwritten
      cases hwritten
    · have ho' : o ∈ s.deadLettered := by
        split at ho
        · exact (mem_cons.1 ho).resolve_left heq
        · exact ho
      obtain ⟨transfer, ht, hto, hwritten⟩ := h.written o ho' hheld
      refine ⟨f transfer, mem_map_of_mem ht, (hf _).trans hto, ?_⟩
      rw [hother transfer (hto.trans_ne heq)]
      exact hwritten

/-- The second half of a transfer whose destination was written settles its entry. -/
lemma Reserved.not_held_finish {offset : Nat} {source : TransferSource}
    (htransfer : s.transferOf offset = some ⟨source, some .written⟩)
    (order : PelOrder) (now : Time) :
    ¬ (s.finishTransfer cfg order now source .written).2.ledger.Held offset := by
  obtain ⟨hmem, rfl⟩ := h.transferOf_eq_some_iff.1 htransfer
  obtain ⟨w, hw, howner⟩ := h.owned _ hmem
  have hnamed : s.manager.ledger.owner source.offset ≠ some "" :=
    fun heq => hw (Option.some.inj (howner.symm.trans heq))
  cases source with
  | reject consumerId offset =>
    exact Manager.not_held_settle (m := s.manager.endTransfer offset) h.sound.wellFormed
      order h.sound.bounded consumerId hnamed
  | sweep entry =>
    show ¬ (s.manager.finishPoisonTransfer cfg order now entry .written).ledger.Held entry.offset
    rw [Manager.finishPoisonTransfer_ledger h.sound.wellFormed cfg order now entry
      fun _ => hnamed, Ledger.held_settle]
    exact fun hheld => hheld.1 rfl

/-- The second half of a transfer. -/
lemma Reserved.of_finish (offset : Nat) (order : PelOrder)
    (now : Time) : (s.step cfg (.finish offset order now)).Reserved := by
  by_cases htransfer : ∃ source outcome, s.transferOf offset = some ⟨source, some outcome⟩
  case neg =>
    have hperform := perform_finish_of_not cfg
      (fun source outcome heq => htransfer ⟨source, outcome, heq⟩) order now
    rw [step, hperform]
    exact h
  obtain ⟨source, outcome, htransfer⟩ := htransfer
  have hperform := perform_finish cfg htransfer order now
  have hfinish := (finishTransfer_finishes cfg h.sound.wellFormed h.sound.bounded order now
    htransfer).1
  have hsound : (s.step cfg (.finish offset order now)).Sound := h.sound.step _
  have hback := h.sound.held_or_le cfg (.finish offset order now)
  have hkept : ∀ o ∈ s.manager.transfers, o ≠ offset →
      (s.step cfg (.finish offset order now)).ledger.owner o = s.ledger.owner o := by
    intro o ho hne
    exact h.owner_step trivial ho fun heq => hne (Option.some.inj heq).symm
  rw [step, hperform] at hsound hback hkept ⊢
  refine ⟨hsound, fun o => ?_, ?_, fun transfer ht => ?_, fun o ho => ?_, fun o ho hheld => ?_⟩
  · show o ∈ (s.finishTransfer cfg order now source outcome).2.transfers ↔ _
    rw [hfinish.transfers]
    simp only [mem_filter, h.transfers, bne_iff_ne]
    constructor
    · rintro ⟨⟨transfer, ht, rfl⟩, hne⟩
      exact ⟨transfer, ⟨ht, hne⟩, rfl⟩
    · rintro ⟨transfer, ⟨ht, hne⟩, rfl⟩
      exact ⟨⟨transfer, ht, rfl⟩, hne⟩
  · exact h.nodup.sublist (filter_sublist.map _)
  · obtain ⟨ht, hne⟩ := mem_filter.1 ht
    rw [hkept transfer.offset ((h.transfers _).2 ⟨transfer, ht, rfl⟩) (by simpa using hne)]
    exact h.owned transfer ht
  · exact (h.reached o ho).trans_le (hback o).2
  · -- The message is still held, so its own transfer is not the one that has just finished.
    rcases (hback o).1 hheld with hheld' | hle
    · obtain ⟨transfer, ht, hto, hwritten⟩ := h.written o ho hheld'
      refine ⟨transfer, mem_filter.2 ⟨ht, ?_⟩, hto, hwritten⟩
      rw [bne_iff_ne, hto]
      rintro rfl
      obtain rfl : transfer = ⟨source, some outcome⟩ := Option.some.inj
        ((h.transferOf_eq_some_iff.2 ⟨ht, hto⟩).symm.trans htransfer)
      obtain rfl : outcome = .written := Option.some.inj hwritten
      exact h.not_held_finish htransfer order now hheld
    · exact absurd (h.reached o ho) (Nat.not_lt.2 hle)

/-- Every step that respects the reservations keeps the invariant. -/
lemma Reserved.step (hop : op.RespectsReservations cfg s) : (s.step cfg op).Reserved := by
  cases op with
  | append | truncate => exact h.of_quiet hop rfl ⟨rfl, rfl, rfl⟩
  | configureGroup mode auto configure =>
    have hspec := Manager.configureGroup_spec h.sound.wellFormed h.sound.bounded mode auto configure
    exact h.of_quiet hop rfl ⟨hspec.2.1, rfl, rfl⟩
  | prepareReject order consumerId offset =>
    have hprepares := Manager.prepareTransfer_prepares h.sound.wellFormed cfg order consumerId offset
    simp only [System.step, perform]
    generalize s.manager.prepareTransfer cfg order consumerId offset = result at hprepares ⊢
    refine h.of_prepares offset ?_ fun src hsrc => ?_
    · cases herr : result.1.error with
      | none | some err => simpa [herr] using hprepares
    · split at hsrc
      · exact (Option.some.inj hsrc) ▸ rfl
      · cases hsrc
  | prepareSweep order now offset =>
    have hprepares := Manager.preparePoisonTransfer_prepares h.sound.wellFormed cfg order now offset
    simp only [System.step, perform]
    refine h.of_prepares offset (by simpa using hprepares) fun src hsrc => ?_
    obtain ⟨entry, hentry, rfl⟩ := Option.map_eq_some_iff.1 hsrc
    exact Manager.preparePoisonTransfer_offset h.sound.wellFormed cfg order now hentry
  | writeDestination offset outcome => exact h.of_write offset outcome
  | finish offset order now => exact h.of_finish offset order now
  | _ => exact h.of_quiet hop rfl (operation_effect h.sound.wellFormed h.sound.bounded rfl).2

end

section

variable (queueName groupId pattern : String) (mode : ConsumerGroupMode) (autoCommit : Bool)
  (log : Log)

lemma fresh_reserved : (fresh queueName groupId pattern mode autoCommit log).Reserved :=
  ⟨fresh_sound queueName groupId pattern mode autoCommit log, by simp [fresh], nodup_nil,
    fun _ ht => absurd ht not_mem_nil, fun _ ho => absurd ho not_mem_nil,
    fun _ ho => absurd ho not_mem_nil⟩

/-- Reservations are exclusive. In every state of a run that respects them, each transfer finds
its entry pending; no step that respects them removes a reserved entry, changes its owner or hands
its message out, but for the second half of the transfer itself; and no message is handed out
after it was appended to the dead-letter queue. -/
theorem reservations_exclusive (cfg : ManagerConfig) (ops : List Op)
    (hops : Transition.Along (step cfg) (fun s op => op.RespectsReservations cfg s)
      (fresh queueName groupId pattern mode autoCommit log) ops) {s : System}
    (hs : s = (fresh queueName groupId pattern mode autoCommit log).run cfg ops) :
    (∀ transfer ∈ s.inFlight, ∃ p ∈ s.group.pel, p.2.offset = transfer.offset) ∧
      ∀ op, op.RespectsReservations cfg s →
        (∀ o ∈ s.manager.transfers, o ∉ (s.perform cfg op).1.messages ∧
          (op.finishes ≠ some o → (s.step cfg op).group.pel.owner o = s.group.pel.owner o)) ∧
        ∀ o ∈ s.deadLettered, o ∉ (s.perform cfg op).1.messages := by
  have h : s.Reserved := hs ▸ Transition.invariant_run (fun _ _ h hop => h.step hop)
    (fresh_reserved queueName groupId pattern mode autoCommit log) hops
  refine ⟨fun transfer ht => ?_, fun op hop => ⟨fun o ho => ⟨?_, fun hfinish => ?_⟩, ?_⟩⟩
  · exact h.sound.held_iff.1 (h.held ((h.transfers _).2 ⟨transfer, ht, rfl⟩))
  · exact h.not_handedOut hop ho
  · have howner := h.owner_step hop ho hfinish
    exact howner
  · exact fun o ho => h.deadLettered_not_handedOut hop ho

end

/-- A consumer rejects the message it holds, and the destination has been written. -/
def rejecting (stream : Bool) : List Op :=
  [.registerConsumer ⟨"c1", "client", "", 0, 0⟩,
    if stream then .claimManualStream (Readings.allAt 0) (Readings.allAt 0) "c1" none
    else .claim (Readings.allAt 0) "c1" none,
    .prepareReject (IterationOrder.listOrder _) "c1" 0, .writeDestination 0 .written]

/-- The transfer has its entry while another consumer claims. -/
theorem reservations_exclusive_rejecting :
    ((fresh "q" "g" "#" .queue true twoMessages).run {} (rejecting false)).manager.transfers = [0] ∧
      0 ∉ (((fresh "q" "g" "#" .queue true twoMessages).run {} (rejecting false)).perform {}
        (.claim (Readings.allAt (60 * second)) "c2" none)).1.messages := by
  have hreserved : ((fresh "q" "g" "#" .queue true twoMessages).run {}
      (rejecting false)).manager.transfers = [0] := by decide +kernel
  refine ⟨hreserved, ?_⟩
  refine (((reservations_exclusive "q" "g" "#" .queue true twoMessages {} (rejecting false)
    ?_ rfl).2 _ ?_).1 0 ?_).1
  · exact ⟨trivial, trivial, trivial, trivial, trivial⟩
  · trivial
  · exact mem_cons_self

/-- The message of a transfer whose destination has been written is handed out again by
`ClaimPendingBatch`; on a stream without auto-commit its entry is removed by `CommitOffset` and by
the switch to auto-commit. -/
theorem reserved_not_exclusive :
    (((fresh "q" "g" "#" .queue true twoMessages).run {} (rejecting false)).deadLettered = [0] ∧
      (((fresh "q" "g" "#" .queue true twoMessages).run {} (rejecting false)).perform {}
        (.claimPendingBatch (Readings.allAt second) "c2" 0 10)).1.messages = [0]) ∧
    (((fresh "q" "g" "#" .stream false twoMessages).run {} (rejecting true)).manager.transfers = [0] ∧
      (((fresh "q" "g" "#" .stream false twoMessages).run {} (rejecting true)).step {}
        (.commitOffset (IterationOrder.listOrder _) 1)).group.pel = [] ∧
      (((fresh "q" "g" "#" .stream false twoMessages).run {} (rejecting true)).step {}
        (.configureGroup .stream true true)).group.pel = []) := by
  decide +kernel

end System

end FluxMQ
