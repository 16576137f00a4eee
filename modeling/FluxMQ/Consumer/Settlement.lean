import FluxMQ.Consumer.Operations

/-!
# Settling records

The operations of the manager that finish with records, move the committed offset, change the
membership or run a dead-letter transfer.

`Ack` and the end of a `Reject` remove an entry and then advance the committed offset to the
smallest offset still held, or to the cursor. `CommitOffset` settles everything below an offset of
a group that does not commit by itself. The end of a sweep removes an entry and leaves the
committed offset where it was.
-/

namespace FluxMQ

open GroupRecord Ledger List

/-! ### The smallest pending offset -/

variable {g : ConsumerGroup}

lemma isLeast_minPendingOffset {least : Nat}
    (h : g.minPendingOffset = some least) : IsLeast {o | g.ledger.Held o} least := by
  obtain ⟨hmem, hle⟩ := min?_eq_some_iff.1 h
  refine ⟨?_, fun o ho => ?_⟩
  · obtain ⟨p, hp, rfl⟩ := mem_map.1 hmem
    exact Pel.owner_isSome_iff.2 ⟨p, hp, rfl⟩
  · obtain ⟨p, hp, rfl⟩ := Pel.owner_isSome_iff.1 ho
    exact hle _ (mem_map_of_mem hp)

lemma not_held_of_minPendingOffset (h : g.minPendingOffset = none)
    (o : Nat) : ¬ g.ledger.Held o := by
  intro ho
  obtain ⟨p, hp, rfl⟩ := Pel.owner_isSome_iff.1 ho
  have hempty : g.pel = [] := map_eq_nil_iff.1 (min?_eq_none_iff.1 h)
  exact absurd (hempty ▸ hp) not_mem_nil

namespace Manager

variable {m : Manager}

/-- The committed offset that `advanceCommitted` computes from the group it has read. -/
lemma advanceCommitted_moves (h : m.record.WellFormed)
    (hlive : m.record.live.ledger = m.ledger) (hb : m.ledger.Bounded) (offset : Nat) :
    Moves (SettleAct offset) m m.advanceCommitted ∧
      ∃ k, CommitsTo m.ledger k ∧ m.advanceCommitted.ledger = m.ledger.apply (.commit k) := by
  have hcommitted : m.record.live.cursor.committed = m.ledger.committed := congrArg committed hlive
  obtain ⟨k, hk, hto, hle⟩ : ∃ k, m.advanceCommitted = { m with record := m.record.updateCommitted k } ∧
      CommitsTo m.ledger k ∧ k ≤ m.ledger.cursor := by
    cases hmin : m.record.live.minPendingOffset with
    | none =>
      refine ⟨m.ledger.cursor, ?_, Or.inl ⟨fun o => ?_, rfl⟩, le_rfl⟩
      · simp only [advanceCommitted, hmin, h.live_cursor]
      · rw [← hlive]
        exact not_held_of_minPendingOffset hmin o
    | some least =>
      have hleast := isLeast_minPendingOffset hmin
      rw [hlive] at hleast
      refine ⟨max m.ledger.committed least, ?_, Or.inr ⟨least, hleast, rfl⟩,
        max_le hb.committed_le (hb.held_lt least hleast.1).le⟩
      have hmax : (if m.ledger.committed < least then least else m.ledger.committed) =
          max m.ledger.committed least := by
        split <;> omega
      simp only [advanceCommitted, hmin, hcommitted, hmax]
  obtain ⟨hevolves, hledger⟩ := h.updateCommitted k hle (P := SettleAct offset) ⟨hle, hto⟩
  rw [hk]
  exact ⟨.record hevolves, k, hto, hledger⟩

section

variable (h : m.record.WellFormed) (hb : m.ledger.Bounded) (order : PelOrder) (consumer : String)
  (offset : Nat)
include h hb

/-- Reading the group and advancing its committed offset. -/
lemma read_advanceCommitted_moves :
    Moves (SettleAct offset) m m.read.advanceCommitted ∧
      ∃ k, CommitsTo m.ledger k ∧ m.read.advanceCommitted.ledger = m.ledger.apply (.commit k) := by
  have hledger := ledger_read h
  obtain ⟨hmoves, hcommit⟩ := advanceCommitted_moves (wellFormed_read h)
    (h.read_group.1.trans hledger.symm) (hledger.symm ▸ hb) offset
  exact ⟨hmoves.from_read h fun _ _ => SettleAct.legal, hledger ▸ hcommit⟩

/-- Removing an entry and advancing the committed offset. -/
lemma settle_serves (may : Nat → Prop) :
    Serves (SettleAct offset) may m (m.settle order consumer offset) := by
  have hlegal : ∀ l a, SettleAct offset l a → l.Legal a := fun _ _ => SettleAct.legal
  have hremove := (h.removePendingEntry order consumer offset
    (P := SettleAct offset) (rfl : offset = offset)).1
  unfold settle
  split
  · rename_i record err hresult
    rw [hresult] at hremove
    exact .silent (.record hremove)
  rename_i record hresult
  rw [hresult] at hremove
  have hn : Moves (SettleAct offset) m { m with record } := .record hremove
  rw [withGroup_eq hn.evolves.wellFormed]
  exact .silent (hn.trans hlegal
    (read_advanceCommitted_moves hn.evolves.wellFormed (hn.evolves.bounded hlegal hb) offset).1)

omit h hb in
/-- A settlement hands nothing out. -/
lemma settle_messages : (m.settle order consumer offset).1.messages = [] := by
  unfold settle withGroup
  split
  · rfl
  · simp only
    split <;> rfl

/-- On a group that is not a stream a settlement always succeeds. -/
lemma settle_ledger (hmode : m.record.live.mode ≠ .stream) :
    ∃ k, CommitsTo (m.ledger.apply (.settle offset)) k ∧
      (m.settle order consumer offset).2.ledger =
        (m.ledger.apply (.settle offset)).apply (.commit k) := by
  obtain ⟨hremove, hledger⟩ := h.removePendingEntry order consumer offset
    (P := SettleAct offset) (rfl : offset = offset)
  replace hledger := hledger fun hstream => absurd hstream hmode
  have hok := h.removePendingEntry_ok hmode order consumer offset
  unfold settle
  split
  · rename_i record err hresult
    rw [hresult] at hok
    exact nomatch hok
  rename_i record hresult
  rw [hresult] at hremove hledger
  have hn : Moves (SettleAct offset) m { m with record } := .record hremove
  rw [withGroup_eq hn.evolves.wellFormed, ← hledger]
  exact (read_advanceCommitted_moves hn.evolves.wellFormed
    (hn.evolves.bounded (fun _ _ => SettleAct.legal) hb) offset).2

/-- `Ack` settles a record that is not reserved. -/
lemma ack_serves (may : Nat → Prop) :
    Serves (fun l a => offset ∉ m.transfers ∧ SettleAct offset l a) may m
      (m.ack order consumer offset) := by
  unfold ack
  split
  · exact .silent (.refl h)
  · rename_i hfree
    obtain ⟨hmoves, hhanded⟩ := settle_serves h hb order consumer offset may
    exact ⟨hmoves.mono fun _ _ ha => ⟨hfree, ha⟩, hhanded⟩

end

/-- `NackWithDelay` changes a lease. -/
lemma nackWithDelay_serves (h : m.record.WellFormed) (cfg : ManagerConfig)
    (order : PelOrder) (now : Time) (consumer : String)
    (offset : Nat) (delay : Time) {P : Ledger → Act → Prop} (hlegal : ∀ l a, P l a → l.Legal a)
    (may : Nat → Prop) : Serves P may m (m.nackWithDelay cfg order now consumer offset delay) := by
  have hread : Moves P m m.read := moves_read h
  rw [nackWithDelay, withGroup_eq h]
  simp only
  split
  · exact .silent hread
  split
  · exact .silent hread
  split
  · exact .silent hread
  · exact .silent (hread.trans hlegal (.record
      ((wellFormed_read h).requeuePendingEntry order consumer offset _)))

/-! ### Explicit commits -/

/-- What `CommitOffset` does to a stream group: without auto-commit it settles what lies below the
offset, and the offset is committed with nothing held below it. -/
def CommitOffsetAct (offset : Nat) (autoCommit : Bool) (l : Ledger) : Act → Prop
  | .settle o => autoCommit = false ∧ o < offset
  | .commit k => k = offset ∧ k ≤ l.cursor ∧ (autoCommit = false → ∀ o, l.Held o → offset ≤ o)
  | _ => False

variable {offset : Nat}

lemma CommitOffsetAct.legal {autoCommit : Bool} (l : Ledger) (a : Act)
    (h : CommitOffsetAct offset autoCommit l a) : l.Legal a := by
  cases a with
  | settle o => trivial
  | commit k => exact h.2.1
  | claim | skip | handOver => exact h.elim

variable {r : GroupRecord}

/-- Removing filed entries one by one. When every removal succeeds nobody holds them any more, and
everything else is held as before. -/
lemma removeAll_evolves {P : Ledger → Act → Prop} (h : r.WellFormed)
    (hlegal : ∀ l a, P l a → l.Legal a) (order : PelOrder)
    (entries : Pel) (hP : ∀ p ∈ entries, ∀ l, P l (.settle p.2.offset))
    (howner : ∀ p ∈ entries, ∀ w, r.ledger.owner p.2.offset = some w → w = p.1) :
    Evolves P r (commitOffset.removeAll order entries r).1 ∧
      ((commitOffset.removeAll order entries r).2 = none →
        ∀ o, (commitOffset.removeAll order entries r).1.ledger.Held o →
          r.ledger.Held o ∧ ∀ p ∈ entries, p.2.offset ≠ o) := by
  induction entries generalizing r with
  | nil => exact ⟨.refl h, fun _ o ho => ⟨ho, fun p hp => absurd hp not_mem_nil⟩⟩
  | cons p rest ih =>
    obtain ⟨hremove, hledger⟩ := h.removePendingEntry order p.1 p.2.offset (P := P)
      (hP p mem_cons_self _)
    replace hledger := hledger fun _ hempty => (howner p mem_cons_self "" hempty).symm
    have howner' : ∀ q ∈ rest, ∀ w, (r.removePendingEntry order p.1 p.2.offset).1.ledger.owner
        q.2.offset = some w → w = q.1 := by
      intro q hq w hw
      rw [hledger] at hw
      refine howner q (mem_cons_of_mem _ hq) w ?_
      by_cases heq : q.2.offset = p.2.offset
      · simp [apply, heq] at hw
      · simpa [apply, heq] using hw
    obtain ⟨hrest, hgone⟩ := ih hremove.wellFormed (fun q hq => hP q (mem_cons_of_mem _ hq)) howner'
    unfold commitOffset.removeAll Outcome.andThen
    split
    · rename_i r' hr'
      rw [hr'] at hremove hrest hgone hledger
      refine ⟨hremove.trans hlegal hrest, fun hok o ho => ?_⟩
      obtain ⟨hheld, hne⟩ := hgone hok o ho
      rw [hledger, held_settle] at hheld
      refine ⟨hheld.2, fun q hq => ?_⟩
      rcases mem_cons.1 hq with rfl | hq
      · exact hheld.1.symm
      · exact hne q hq
    · rename_i r' err hr'
      rw [hr'] at hremove
      refine ⟨hremove, fun hok => ?_⟩
      cases hok

/-- `CommitOffset` accepts the offset: the group is a stream, and the offset lies between its
committed offset and its cursor. -/
def acceptsCommit (m : Manager) (offset : Nat) : Prop :=
  m.record.live.mode = .stream ∧ m.ledger.committed ≤ offset ∧ offset ≤ m.ledger.cursor

/-- `CommitOffset` changes a group only if it accepts the offset. -/
lemma commitOffset_serves (h : m.record.WellFormed)
    (order : PelOrder) (offset : Nat) (may : Nat → Prop) :
    Serves (fun l a => m.acceptsCommit offset ∧
        CommitOffsetAct offset m.record.live.autoCommit l a) may m
      (m.commitOffset order offset) := by
  set P := fun l a => m.acceptsCommit offset ∧ CommitOffsetAct offset m.record.live.autoCommit l a
  have hlegal : ∀ l a, P l a → l.Legal a := fun l a ha => CommitOffsetAct.legal l a ha.2
  have hwf := wellFormed_read h
  have hread : Moves P m m.read := moves_read h
  obtain ⟨hledger, hdistinct, -⟩ := h.read_group
  obtain ⟨hmode, hauto, -⟩ := hread.evolves.contract
  rw [commitOffset, withGroup_eq h]
  simp only [hmode, hauto, hwf.live_cursor]
  split
  · exact .silent hread
  rename_i hstream
  rw [not_not] at hstream
  split
  · exact .silent hread
  rename_i hcursor
  split
  · exact .silent hread
  rename_i hmonotonic
  have haccepts : m.acceptsCommit offset := by
    refine ⟨hstream, ?_, ?_⟩
    · exact Nat.le_of_not_lt hmonotonic
    · rw [← ledger_read h]
      exact Nat.le_of_not_lt hcursor
  set covered := if m.record.live.autoCommit then [] else
    (order.walk m.record.getConsumerGroup.live.pel).filter fun p => decide (p.2.offset < offset)
    with hcovered
  have hmem : ∀ p ∈ covered, m.record.live.autoCommit = false ∧
      p ∈ m.record.getConsumerGroup.live.pel ∧ p.2.offset < offset := by
    intro p hp
    rw [hcovered] at hp
    split at hp
    · exact absurd hp not_mem_nil
    · rename_i hoff
      obtain ⟨hwalk, hlt⟩ := mem_filter.1 hp
      exact ⟨by simpa using hoff, order.mem_walk.1 hwalk, by simpa using hlt⟩
  obtain ⟨hremove, hgone⟩ := removeAll_evolves hwf hlegal order covered
    (fun p hp l => ⟨haccepts, (hmem p hp).1, (hmem p hp).2.2⟩)
    (fun p hp w hw => by
      rw [h.ledger_getConsumerGroup, ← hledger] at hw
      obtain ⟨q, hq, hqp, rfl⟩ := (Pel.owner_eq_some_iff hdistinct).1 hw
      rw [inj_on_of_nodup_map hdistinct hq (hmem p hp).2.1 hqp])
  have hmoved : Moves P m { m.read with record := _ } := hread.trans hlegal (.record hremove)
  split
  · rename_i record err hresult
    rw [hresult] at hmoved
    exact .silent hmoved
  rename_i record hresult
  rw [hresult] at hremove hgone hmoved
  have hforward := (held_or_le_of_reaches (hremove.reaches.mono hlegal) 0).2
  have hle : offset ≤ record.ledger.cursor := (Nat.le_of_not_lt hcursor).trans hforward
  -- Without auto-commit nothing held below the offset is left.
  have hclear : m.record.live.autoCommit = false → ∀ o, record.ledger.Held o → offset ≤ o := by
    intro hoff o ho
    obtain ⟨hheld, hnot⟩ := hgone rfl o ho
    rw [h.ledger_getConsumerGroup, ← hledger] at hheld
    obtain ⟨p, hp, rfl⟩ := Pel.owner_isSome_iff.1 hheld
    by_contra hlt
    refine hnot p ?_ rfl
    rw [hcovered, hoff]
    simpa [order.mem_walk] using ⟨hp, Nat.lt_of_not_le hlt⟩
  exact .silent (hmoved.trans hlegal (.record (hremove.wellFormed.updateCommitted offset hle
    ⟨haccepts, rfl, hle, hclear⟩).1))

/-- The exported `AdvanceCommitted` moves the committed offset forward, whatever is held. -/
lemma advanceCommittedTo_serves (h : m.record.WellFormed) (committed : Nat) (may : Nat → Prop) :
    Serves (fun l a => a = .commit committed ∧ committed ≤ l.cursor) may m
      (m.advanceCommittedTo committed) := by
  set P := fun (l : Ledger) (a : Act) => a = .commit committed ∧ committed ≤ l.cursor
  have hlegal : ∀ l a, P l a → l.Legal a := by
    rintro l _ ⟨rfl, hk⟩
    exact hk
  have hread : Moves P m m.read := moves_read h
  rw [advanceCommittedTo, withGroup_eq h]
  simp only [(wellFormed_read h).live_cursor]
  split
  · exact .silent hread
  rename_i hle
  split
  · exact .silent hread
  · exact .silent (hread.trans hlegal (.record ((wellFormed_read h).updateCommitted committed
      (Nat.le_of_not_lt hle) ⟨rfl, Nat.le_of_not_lt hle⟩).1))

/-! ### Membership -/

section

variable {P : Ledger → Act → Prop} (hlegal : ∀ l a, P l a → l.Legal a) (may : Nat → Prop)

lemma registerConsumer_serves (h : m.record.WellFormed) (info : ConsumerInfo) :
    Serves P may m (m.registerConsumer info) :=
  .silent (.record (h.registerConsumer info))

lemma unregisterConsumer_serves (h : m.record.WellFormed) (consumer : String) :
    Serves P may m (m.unregisterConsumer consumer) :=
  .silent (.record (h.unregisterConsumer consumer))

include hlegal in
lemma updateHeartbeat_serves (h : m.record.WellFormed) (cfg : ManagerConfig) (now : Time)
    (consumer : String) : Serves P may m (m.updateHeartbeat cfg now consumer) := by
  have hread : Moves P m m.read := moves_read h
  rw [updateHeartbeat, withGroup_eq h]
  split
  · exact .silent hread
  split
  · exact .silent hread
  · exact .silent (hread.trans hlegal (.record ((wellFormed_read h).registerConsumer _)))

lemma foldl_deleteConsumer (ids : List String) (g : ConsumerGroup) :
    ∃ consumers, ids.foldl (fun g id => g.deleteConsumer id) g = { g with consumers } := by
  induction ids generalizing g with
  | nil => exact ⟨g.consumers, rfl⟩
  | cons id ids ih => exact ih (g.deleteConsumer id)

include hlegal in
/-- `CleanupStaleConsumers` rewrites the whole group, with some members fewer. -/
lemma cleanupStaleConsumers_serves (h : m.record.WellFormed) (now timeout : Time) :
    Serves P may m (m.cleanupStaleConsumers now timeout) := by
  have hread : Moves P m m.read := moves_read h
  rw [cleanupStaleConsumers, withGroup_eq h]
  simp only
  split
  · exact .silent hread
  obtain ⟨consumers, hdeleted⟩ := foldl_deleteConsumer
    ((m.record.getConsumerGroup.live.consumers.filter fun c =>
      decide (c.2.lastHeartbeat < now - timeout)).map fun c => c.1)
    m.record.getConsumerGroup.live
  rw [hdeleted]
  exact .silent (hread.trans hlegal (.record ((wellFormed_read h).setConsumers consumers)))

end

/-! ### The settlement contract -/

/-- Naming the mode of a group for the first time. -/
lemma nameMode_wellFormed (h : r.WellFormed) (hunset : r.live.mode = .unset)
    (mode : ConsumerGroupMode) (autoCommit : Bool) :
    WellFormed (r.getConsumerGroup.updateConsumerGroup
        (ConsumerGroup.setAutoCommit { r.getConsumerGroup.live with mode } autoCommit)) ∧
      (r.getConsumerGroup.updateConsumerGroup
        (ConsumerGroup.setAutoCommit { r.getConsumerGroup.live with mode } autoCommit)).ledger =
          r.ledger := by
  cases h with
  | stream g state hmode hstate hdistinct hfiled => exact nomatch hmode.symm.trans hunset
  | tracked g cs hmode hcursor =>
    rw [getConsumerGroup_of_tracked hmode, ledger_of_tracked hmode]
    -- The read has copied the log store's state into the metadata, so either shape fits.
    by_cases hstream : mode = .stream
    · subst hstream
      exact ⟨.stream _ _ rfl (fun _ => rfl) ConsumerState.distinct_allPending
        ConsumerState.filed_allPending, ledger_of_stream rfl⟩
    · exact ⟨.tracked _ _ hstream rfl, ledger_of_tracked hstream⟩

/-- The ledger of a stream group that has been switched to another settlement contract: everything
up to the cursor is committed, and everything held is dropped when the group is to commit by
itself. -/
def switched (l : Ledger) (autoCommit : Bool) : Ledger where
  cursor := l.cursor
  committed := max l.committed l.cursor
  owner := if autoCommit then fun _ => none else l.owner

/-- What `applyAutoCommitLocked` makes of a stream group. -/
lemma applyAutoCommit_of_stream (hmode : g.mode = .stream) (autoCommit : Bool) :
    configureGroup.applyAutoCommit g autoCommit =
      { g with
        autoCommit
        cursor := ⟨g.cursor.cursor, max g.cursor.committed g.cursor.cursor⟩
        pel := if autoCommit then [] else g.pel } := by
  have hcommitted : (if g.cursor.committed < g.cursor.cursor then
      g.setCommitted g.cursor.cursor else g) =
        { g with cursor := ⟨g.cursor.cursor, max g.cursor.committed g.cursor.cursor⟩ } := by
    split
    · rename_i hlt
      rw [max_eq_right hlt.le]
      rfl
    · rename_i hle
      rw [max_eq_left (Nat.le_of_not_lt hle)]
  unfold configureGroup.applyAutoCommit
  rw [if_neg (not_not.2 hmode), hcommitted]
  cases autoCommit <;> rfl

lemma mode_applyAutoCommit (g : ConsumerGroup) (autoCommit : Bool) :
    (configureGroup.applyAutoCommit g autoCommit).mode = g.mode := by
  by_cases hmode : g.mode = .stream
  · rw [applyAutoCommit_of_stream hmode]
  · rw [configureGroup.applyAutoCommit, if_pos hmode]
    rfl

/-- Switching auto-commit. On a group that is not a stream only the flag changes. -/
lemma applyAutoCommit_wellFormed (h : r.WellFormed) (autoCommit : Bool) :
    WellFormed (r.getConsumerGroup.updateConsumerGroup
        (configureGroup.applyAutoCommit r.getConsumerGroup.live autoCommit)) ∧
      (r.getConsumerGroup.updateConsumerGroup
        (configureGroup.applyAutoCommit r.getConsumerGroup.live autoCommit)).ledger =
          if r.live.mode = .stream then switched r.ledger autoCommit else r.ledger := by
  cases h with
  | stream g state hmode hstate hdistinct hfiled =>
    have hlive : (stored g state).live = g := rfl
    rw [getConsumerGroup_of_stream hmode, ledger_of_stream hmode, hlive, if_pos hmode,
      applyAutoCommit_of_stream hmode]
    set g' : ConsumerGroup := { g with
      autoCommit
      cursor := ⟨g.cursor.cursor, max g.cursor.committed g.cursor.cursor⟩
      pel := if autoCommit then [] else g.pel } with hg'
    have hmode' : g'.mode = .stream := hmode
    have hledger : (stored g' state).ledger = switched g.ledger autoCommit := by
      rw [ledger_of_stream hmode', hg']
      cases autoCommit <;> rfl
    refine ⟨?_, hledger⟩
    cases autoCommit with
    | false => exact .stream g' _ hmode' hstate hdistinct hfiled
    | true =>
      exact .stream g' _ hmode' (fun hne => absurd rfl hne) Pel.distinct_nil Pel.filed_nil
  | tracked g cs hmode hcursor =>
    have hlive : (stored g (some cs)).live = g := rfl
    rw [getConsumerGroup_of_tracked hmode, ledger_of_tracked hmode, hlive, if_neg hmode]
    unfold configureGroup.applyAutoCommit
    set g' := (g.setCursorPosition cs.cursor).replacePEL cs.allPending
    have hmode' : g'.mode ≠ .stream := hmode
    have hlive' : (stored g' (some cs)).live = g' := rfl
    rw [hlive', if_pos hmode']
    exact ⟨.tracked _ _ hmode' rfl, ledger_of_tracked hmode'⟩

/-- What a switch does to the ledger: a group that is to commit by itself settles everything held,
and then everything up to the cursor is committed. -/
def SwitchAct (autoCommit : Bool) (l : Ledger) : Act → Prop
  | .settle _ => autoCommit
  | .commit k => k = l.cursor ∧ (autoCommit → ∀ o, ¬ l.Held o)
  | _ => False

lemma SwitchAct.legal {autoCommit : Bool} {l : Ledger} {a : Act}
    (h : SwitchAct autoCommit l a) : l.Legal a := by
  cases a with
  | settle o => trivial
  | commit k => exact h.1.le
  | claim | skip | handOver => exact h.elim

lemma reaches_switched {l : Ledger} (hb : l.Bounded) {offsets : List Nat}
    (hcover : ∀ o, l.Held o → o ∈ offsets) (autoCommit : Bool) :
    Transition.Reaches apply (SwitchAct autoCommit) l (switched l autoCommit) := by
  have hcommitted : max l.committed l.cursor = l.cursor := max_eq_right hb.committed_le
  unfold switched
  rw [hcommitted]
  cases autoCommit with
  | true =>
    have hsettled : Transition.Reaches apply (SwitchAct true) l
        { l with owner := fun _ => none } := reaches_settle_all (fun _ _ => rfl) hcover
    exact hsettled.trans (.single (a := Act.commit l.cursor) ⟨rfl, fun _ o ho => nomatch ho⟩)
  | false => exact .single (a := Act.commit l.cursor) ⟨rfl, fun h => nomatch h⟩

/-- `GetOrCreateConfiguredGroup` switches a stream group whose policy it is asked to change. -/
def switches (m : Manager) (autoCommit configureAutoCommit : Bool) : Prop :=
  m.record.live.mode = .stream ∧ configureAutoCommit ∧ m.record.live.autoCommit ≠ autoCommit

/-- What `GetOrCreateConfiguredGroup` does to a group that exists. -/
lemma configureGroup_spec (h : m.record.WellFormed) (hb : m.ledger.Bounded)
    (mode : ConsumerGroupMode) (autoCommit configureAutoCommit : Bool) :
    (m.configureGroup mode autoCommit configureAutoCommit).1.messages = [] ∧
      (m.configureGroup mode autoCommit configureAutoCommit).2.transfers = m.transfers ∧
      (m.configureGroup mode autoCommit configureAutoCommit).2.record.WellFormed ∧
      Transition.Reaches apply
        (fun l a => m.switches autoCommit configureAutoCommit ∧ SwitchAct autoCommit l a)
        m.ledger (m.configureGroup mode autoCommit configureAutoCommit).2.ledger ∧
      (m.record.live.mode ≠ .unset →
        (m.configureGroup mode autoCommit configureAutoCommit).2.record.live.mode =
          m.record.live.mode) := by
  have hread : Moves (fun _ _ => False) m m.read := moves_read h
  obtain ⟨hmode, hauto, -⟩ := hread.evolves.contract
  have hkept : Transition.Reaches apply
      (fun l a => m.switches autoCommit configureAutoCommit ∧ SwitchAct autoCommit l a)
      m.ledger m.read.ledger := .of_eq (ledger_read h)
  rw [configureGroup, withGroup_eq h]
  simp only [hmode, hauto]
  split
  · rename_i hunset
    obtain ⟨hwf, hledger⟩ := nameMode_wellFormed h hunset.2 mode autoCommit
    exact ⟨rfl, rfl, hwf, .of_eq hledger, fun hset => absurd hunset.2 hset⟩
  split
  · exact ⟨rfl, rfl, wellFormed_read h, hkept, fun _ => hmode⟩
  split
  · rename_i hswitch
    obtain ⟨hwf, hledger⟩ := applyAutoCommit_wellFormed h autoCommit
    refine ⟨rfl, rfl, hwf, ?_, fun _ => (mode_applyAutoCommit _ _).trans hmode⟩
    by_cases hstream : m.record.live.mode = .stream
    · rw [if_pos hstream] at hledger
      have hcover : ∀ o, m.ledger.Held o → o ∈ m.record.getConsumerGroup.live.pendingOffsets := by
        intro o ho
        obtain ⟨p, hp, rfl⟩ := Pel.owner_isSome_iff.1 ho
        exact mem_map_of_mem hp
      exact ((reaches_switched hb hcover autoCommit).mono fun _ _ ha => ⟨⟨hstream, hswitch⟩, ha⟩).trans
        (.of_eq hledger)
    · rw [if_neg hstream] at hledger
      exact .of_eq hledger
  · exact ⟨rfl, rfl, wellFormed_read h, hkept, fun _ => hmode⟩

/-! ### Dead-letter transfers -/

/-- An offset has been reserved for a transfer. It was free, and somebody with a name holds it. -/
structure Reserves (m : Manager) (offset : Nat) (m' : Manager) : Prop where
  free : offset ∉ m.transfers
  transfers : m'.transfers = offset :: m.transfers
  owner : ∃ w, w ≠ "" ∧ m.ledger.owner offset = some w

/-- What the first half of a transfer does: the group is read, and the offset is reserved if
`reserved` says so. -/
structure Prepares (m : Manager) (offset : Nat) (reserved : Bool) (m' : Manager) : Prop where
  evolves : ∀ P, Evolves P m.record m'.record
  ledger : m'.ledger = m.ledger
  log : m'.log = m.log
  transfers : if reserved then m.Reserves offset m' else m'.transfers = m.transfers

/-- A transfer that does not go ahead. -/
lemma prepares_of_read (h : m.record.WellFormed) (offset : Nat) (poison : Poison) :
    Prepares m offset false { m.read with poison } :=
  ⟨fun _ => h.getConsumerGroup, h.ledger_getConsumerGroup, rfl, rfl⟩

/-- The owner that `FindPending` names after a read. -/
lemma findPending_read (h : m.record.WellFormed) (order : PelOrder) (offset : Nat) :
    (m.read.record.live.findPending order offset).2 = (m.ledger.owner offset).getD "" := by
  obtain ⟨hledger, hdistinct, -⟩ := h.read_group
  show _ = (m.record.ledger.owner offset).getD ""
  rw [ConsumerGroup.findPending_owner hdistinct, ← hledger]
  rfl

/-- Reserving an offset that somebody with a name holds. -/
lemma prepares_reserve (h : m.record.WellFormed) (howner : (m.ledger.owner offset).getD "" ≠ "") :
    (∃ e m', m.read.reserve offset = (.ok e, m') ∧ Prepares m offset true m') ∨
      ∃ err, m.read.reserve offset = (.error err, m.read) := by
  unfold reserve
  split
  · exact Or.inr ⟨_, rfl⟩
  rename_i hfree
  split
  · exact Or.inr ⟨_, rfl⟩
  rename_i e hlog
  refine Or.inl ⟨e, _, rfl, fun _ => h.getConsumerGroup, h.ledger_getConsumerGroup, rfl, ?_⟩
  refine ⟨hfree, rfl, ?_⟩
  cases hw : m.ledger.owner offset with
  | none => simp [hw] at howner
  | some w => exact ⟨w, by simpa [hw] using howner, rfl⟩

section

variable (h : m.record.WellFormed) (cfg : ManagerConfig) (order : PelOrder)
include h

/-- `prepareTransfer` reserves the offset exactly when it reports no error. -/
lemma prepareTransfer_prepares (consumer : String) (offset : Nat) :
    Prepares m offset (m.prepareTransfer cfg order consumer offset).1.error.isNone
      (m.prepareTransfer cfg order consumer offset).2 := by
  have hread := prepares_of_read h offset m.poison
  have hfind := findPending_read h order offset
  rw [prepareTransfer, withGroup_eq h]
  simp only at hfind ⊢
  rw [hfind]
  split
  · exact hread
  rename_i howner
  split
  · exact hread
  split
  · exact hread
  rcases prepares_reserve h howner with ⟨e, m', hreserve, hprepares⟩ | ⟨err, hreserve⟩
  · rw [hreserve]
    exact hprepares
  · rw [hreserve]
    exact hread

/-- `preparePoisonTransfer` reserves the offset exactly when it returns its entry. -/
lemma preparePoisonTransfer_prepares (now : Time) (offset : Nat) :
    Prepares m offset (m.preparePoisonTransfer cfg order now offset).1.isSome
      (m.preparePoisonTransfer cfg order now offset).2 := by
  have hfind := findPending_read h order offset
  have hgroup : m.record.getConsumerGroup.group = some m.record.getConsumerGroup.live :=
    (wellFormed_read h).group_eq
  unfold preparePoisonTransfer
  simp only [hgroup] at hfind ⊢
  rw [hfind]
  split
  · exact prepares_of_read h offset _
  rename_i howner
  rcases prepares_reserve h howner with ⟨e, m', hreserve, hprepares⟩ | ⟨err, hreserve⟩
  · rw [hreserve]
    exact hprepares
  rw [hreserve]
  cases err with
  | read err => exact prepares_of_read h offset _
  | _ => exact prepares_of_read h offset m.poison

/-- The sweep carries the entry of the offset it was asked for. -/
lemma preparePoisonTransfer_offset (now : Time) {entry : PendingEntry}
    (hentry : (m.preparePoisonTransfer cfg order now offset).1 = some entry) :
    entry.offset = offset := by
  have hgroup : m.record.getConsumerGroup.group = some m.record.getConsumerGroup.live :=
    (wellFormed_read h).group_eq
  unfold preparePoisonTransfer at hentry
  simp only [hgroup] at hentry
  split at hentry
  · exact nomatch hentry
  rename_i howner
  split at hentry
  · obtain rfl : _ = entry := by simpa using hentry
    exact ConsumerGroup.findPending_offset howner
  · exact nomatch hentry
  · exact nomatch hentry

end

/-- The second half of a transfer releases the offset, and may make changes that meet `P`. -/
structure Finishes (P : Ledger → Act → Prop) (m : Manager) (offset : Nat) (m' : Manager) :
    Prop where
  evolves : Evolves P m.record m'.record
  log : m'.log = m.log
  transfers : m'.transfers = m.transfers.filter (· != offset)

section

variable (h : m.record.WellFormed)
include h

/-- `finishTransfer` settles the record if the destination was written. -/
lemma finishTransfer_finishes (hb : m.ledger.Bounded)
    (order : PelOrder) (consumer : String) (offset : Nat) (written : Bool) :
    Finishes (fun l a => written ∧ SettleAct offset l a) m offset
        (m.finishTransfer order consumer offset written).2 ∧
      (m.finishTransfer order consumer offset written).1.messages = [] := by
  unfold finishTransfer
  split
  · rename_i hwritten
    obtain ⟨hmoves, -⟩ := settle_serves (m := m.endTransfer offset) h hb order consumer offset
      fun _ => True
    refine ⟨⟨hmoves.evolves.mono fun _ _ ha => ⟨hwritten, ha⟩, hmoves.log, hmoves.transfers⟩, ?_⟩
    exact settle_messages order consumer offset
  · exact ⟨⟨.refl h, rfl, rfl⟩, rfl⟩

variable (cfg : ManagerConfig) (order : PelOrder) (now : Time) (entry : PendingEntry)

omit h in
/-- A sweep that wrote its destination removes the entry, and nothing else. -/
lemma finishPoisonTransfer_written :
    m.finishPoisonTransfer cfg order now entry .written = { m.endTransfer entry.offset with
      record := (m.record.removePendingEntry order entry.consumerId entry.offset).1
      poison := (m.finishPoisonTransfer cfg order now entry .written).poison } := by
  unfold finishPoisonTransfer
  simp only
  split
  all_goals
    rename_i hresult
    rw [show m.record.removePendingEntry order entry.consumerId entry.offset = _ from hresult]

/-- `finishPoisonTransfer` settles the record if the destination was written, and leaves the
committed offset alone. -/
lemma finishPoisonTransfer_finishes (outcome : DlqOutcome) :
    Finishes (fun _ a => outcome = .written ∧ a = .settle entry.offset) m entry.offset
      (m.finishPoisonTransfer cfg order now entry outcome) := by
  cases outcome with
  | unavailable | failed => exact ⟨.refl h, rfl, rfl⟩
  | written =>
    rw [finishPoisonTransfer_written]
    exact ⟨(h.removePendingEntry order entry.consumerId entry.offset ⟨rfl, rfl⟩).1, rfl, rfl⟩

/-- A settled record is not held any more. -/
lemma not_held_settle (hb : m.ledger.Bounded) (consumer : String)
    (howner : m.ledger.owner offset ≠ some "") :
    ¬ (m.settle order consumer offset).2.ledger.Held offset := by
  obtain ⟨hremove, hledger⟩ := h.removePendingEntry order consumer offset
    (P := SettleAct offset) (rfl : offset = offset)
  replace hledger := hledger fun _ hempty => absurd hempty howner
  have hgone : ¬ (m.record.removePendingEntry order consumer offset).1.ledger.Held offset := by
    rw [hledger, held_settle]
    exact fun hheld => hheld.1 rfl
  unfold settle
  split
  · rename_i record err hresult
    rw [hresult] at hgone
    exact hgone
  rename_i record hresult
  rw [hresult] at hremove hgone
  have hn : Moves (SettleAct offset) m { m with record } := .record hremove
  rw [withGroup_eq hn.evolves.wellFormed]
  obtain ⟨-, k, -, hcommit⟩ := read_advanceCommitted_moves hn.evolves.wellFormed
    (hn.evolves.bounded (fun _ _ => SettleAct.legal) hb) offset
  rw [hcommit]
  exact hgone

/-- The end of a sweep that wrote its destination settles the record. -/
lemma finishPoisonTransfer_ledger
    (howner : m.record.live.mode = .stream → m.ledger.owner entry.offset ≠ some "") :
    (m.finishPoisonTransfer cfg order now entry .written).ledger =
      m.ledger.apply (.settle entry.offset) := by
  have hledger := (h.removePendingEntry order entry.consumerId entry.offset
    (P := fun _ _ => True) trivial).2 fun hstream hempty => absurd hempty (howner hstream)
  rw [finishPoisonTransfer_written]
  exact hledger

end

end Manager

end FluxMQ
