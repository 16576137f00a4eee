import FluxMQ.Consumer.Ledger
import FluxMQ.Logstorage.GroupRecord

/-!
# Stored groups and their ledgers

The abstraction from the two stored records of a consumer group to its ledger, and what each
operation of the adapter does to it. The operations act differently on a stream group, whose
metadata is authoritative, and on any other group, whose cursor and pending list are the log
store's; on the ledger the two agree.

* `GroupRecord.ledger`: the ledger of the group a read returns.
* `GroupRecord.WellFormed`: the shapes a stored group takes while its queue exists.
* `GroupRecord.Evolves`: a stored group has changed by the given changes of its ledger only.
-/

namespace FluxMQ

open ConsumerState GroupRecord

/-- The ledger of a consumer group. -/
def ConsumerGroup.ledger (g : ConsumerGroup) : Ledger where
  cursor := g.cursor.cursor
  committed := g.cursor.committed
  owner := g.pel.owner

/-- The two groups have the same settlement contract, on the same queue. -/
def ConsumerGroup.SameContract (g g' : ConsumerGroup) : Prop :=
  g'.mode = g.mode ∧ g'.autoCommit = g.autoCommit ∧ g'.queueName = g.queueName

namespace GroupRecord

/-- The ledger of the group a read returns. -/
def ledger (r : GroupRecord) : Ledger :=
  (r.view.getD default).ledger

/-- The record of a group that exists, as does its queue. -/
abbrev stored (g : ConsumerGroup) (state : Option ConsumerState) : GroupRecord :=
  { queueOpen := true, group := some g, state }

/-- The shapes a stored group takes while its queue exists. -/
inductive WellFormed : GroupRecord → Prop
  /-- A stream group keeps its state in the metadata. The log store has a record of it as soon as
  something is pending. -/
  | stream (g : ConsumerGroup) (state : Option ConsumerState) (hmode : g.mode = .stream)
      (hstate : g.pel ≠ [] → state.isSome) (hdistinct : g.pel.Distinct) (hfiled : g.pel.Filed) :
      WellFormed (stored g state)
  /-- Any other group keeps cursor and pending list in the log store, and the metadata follows
  the cursor. -/
  | tracked (g : ConsumerGroup) (cs : ConsumerState) (hmode : g.mode ≠ .stream)
      (hcursor : g.cursor.cursor = cs.cursor) : WellFormed (stored g (some cs))

section

variable {g : ConsumerGroup} {cs : ConsumerState} {state : Option ConsumerState}

lemma ledger_of_stream (hmode : g.mode = .stream) : (stored g state).ledger = g.ledger := by
  simp [ledger, view, hmode]

attribute [simp] ConsumerGroup.ledger

lemma ledger_of_tracked (hmode : g.mode ≠ .stream) :
    (stored g (some cs)).ledger = ⟨cs.cursor, g.cursor.committed, cs.allPending.owner⟩ := by
  simp [ledger, view, hmode, syncFromStore, ConsumerGroup.replacePEL, ConsumerGroup.setCursorPosition]

lemma getConsumerGroup_of_stream (hmode : g.mode = .stream) :
    (stored g state).getConsumerGroup = stored g state := by
  simp [getConsumerGroup, view, hmode]

lemma getConsumerGroup_of_tracked (hmode : g.mode ≠ .stream) :
    (stored g (some cs)).getConsumerGroup =
      stored ((g.setCursorPosition cs.cursor).replacePEL cs.allPending) (some cs) := by
  simp [getConsumerGroup, view, hmode, syncFromStore]

end

variable {r r' : GroupRecord}

lemma WellFormed.group_eq (h : r.WellFormed) : r.group = some r.live := by
  cases h <;> rfl

/-- The cursor of the group pointer is the cursor of the ledger. -/
lemma WellFormed.live_cursor (h : r.WellFormed) : r.live.cursor.cursor = r.ledger.cursor := by
  cases h with
  | stream g state hmode hstate hdistinct hfiled =>
    rw [ledger_of_stream hmode]
    rfl
  | tracked g cs hmode hcursor =>
    rw [ledger_of_tracked hmode]
    exact hcursor

/-- What a read returns has distinct offsets, each filed under the consumer it names. -/
lemma WellFormed.read_group (h : r.WellFormed) :
    r.getConsumerGroup.live.ledger = r.ledger ∧ r.getConsumerGroup.live.pel.Distinct ∧
      r.getConsumerGroup.live.pel.Filed := by
  cases h with
  | stream g state hmode hstate hdistinct hfiled =>
    rw [getConsumerGroup_of_stream hmode, ledger_of_stream hmode]
    exact ⟨rfl, hdistinct, hfiled⟩
  | tracked g cs hmode hcursor =>
    rw [getConsumerGroup_of_tracked hmode, ledger_of_tracked hmode]
    exact ⟨rfl, distinct_allPending, filed_allPending⟩

/-- Every entry of the second group pointer was shown by the first, or is held, or lies at or
behind the cursor. -/
def Shown (r r' : GroupRecord) : Prop :=
  ∀ p ∈ r'.live.pel, (∃ q ∈ r.live.pel, q.2.offset = p.2.offset) ∨
    r.ledger.Held p.2.offset ∨ r.ledger.cursor ≤ p.2.offset

lemma Shown.of_within (h : ConsumerGroup.OffsetsWithin r.live.pel r'.live.pel) : Shown r r' :=
  fun p hp => Or.inl (h p hp)

/-- `r'` comes from `r` by changes of the ledger that meet `P`. The settlement contract of the
group is the same, and its pointer shows nothing that came from elsewhere. -/
structure Evolves (P : Ledger → Act → Prop) (r r' : GroupRecord) : Prop where
  wellFormed : r'.WellFormed
  contract : r.live.SameContract r'.live
  reaches : Transition.Reaches Ledger.apply P r.ledger r'.ledger
  shown : Shown r r'

section

variable {P Q : Ledger → Act → Prop}

lemma Evolves.refl (h : r.WellFormed) : Evolves P r r :=
  ⟨h, ⟨rfl, rfl, rfl⟩, .refl _ _ _, .of_within fun p hp => ⟨p, hp, rfl⟩⟩

lemma Evolves.mono (hPQ : ∀ l a, P l a → Q l a) (h : Evolves P r r') : Evolves Q r r' :=
  ⟨h.wellFormed, h.contract, h.reaches.mono hPQ, h.shown⟩

/-- A change that is a single act. -/
lemma Evolves.single {a : Act} (hwf : r'.WellFormed) (hcontract : r.live.SameContract r'.live)
    (hshown : Shown r r') (hledger : r'.ledger = r.ledger.apply a) (ha : P r.ledger a) :
    Evolves P r r' :=
  ⟨hwf, hcontract, hledger ▸ .single ha, hshown⟩

/-- A change that does not show in the ledger. -/
lemma Evolves.silent (hwf : r'.WellFormed) (hcontract : r.live.SameContract r'.live)
    (hshown : Shown r r') (hledger : r'.ledger = r.ledger) : Evolves P r r' :=
  ⟨hwf, hcontract, hledger ▸ .refl _ _ _, hshown⟩

end

end GroupRecord

/-- What legal changes leave held was held before or lay at or behind the cursor. -/
lemma Ledger.held_or_le_of_reaches {l l' : Ledger}
    (h : Transition.Reaches Ledger.apply Ledger.Legal l l') (o : Nat) :
    (l'.Held o → l.Held o ∨ l.cursor ≤ o) ∧ l.cursor ≤ l'.cursor := by
  refine Transition.invariant_reaches (I := fun l' =>
    (l'.Held o → l.Held o ∨ l.cursor ≤ o) ∧ l.cursor ≤ l'.cursor) ?_ ⟨Or.inl, le_rfl⟩ h
  rintro l' a ⟨hheld, hcursor⟩ ha
  refine ⟨fun ho => ?_, hcursor.trans (cursor_le_apply ha)⟩
  cases a with
  | claim offset consumer =>
    rcases (held_claim l' o offset consumer).1 ho with rfl | ho
    · exact Or.inr (hcursor.trans ha)
    · exact hheld ho
  | handOver offset consumer =>
    rcases (held_handOver l' o offset consumer).1 ho with rfl | ho
    · exact hheld ha
    · exact hheld ho
  | settle offset => exact hheld ((held_settle l' o offset).1 ho).2
  | skip next | commit committed => exact hheld ho

namespace GroupRecord

variable {P : Ledger → Act → Prop} {r r' r'' : GroupRecord}

lemma Evolves.trans (hlegal : ∀ l a, P l a → l.Legal a) (h : Evolves P r r')
    (h' : Evolves P r' r'') : Evolves P r r'' := by
  obtain ⟨hmode, hauto, hname⟩ := h.contract
  obtain ⟨hmode', hauto', hname'⟩ := h'.contract
  refine ⟨h'.wellFormed, ⟨hmode'.trans hmode, hauto'.trans hauto, hname'.trans hname⟩,
    h.reaches.trans h'.reaches, fun p hp => ?_⟩
  have hback := Ledger.held_or_le_of_reaches (h.reaches.mono hlegal) p.2.offset
  rcases h'.shown p hp with ⟨q, hq, hqp⟩ | hheld | hcursor
  · exact hqp ▸ h.shown q hq
  · exact Or.inr (hback.1 hheld)
  · exact Or.inr (Or.inr (hback.2.trans hcursor))

/-- Legal changes keep the ledger bounded. -/
lemma Evolves.bounded (hlegal : ∀ l a, P l a → l.Legal a) (h : Evolves P r r')
    (hb : r.ledger.Bounded) : r'.ledger.Bounded :=
  hb.reaches (h.reaches.mono hlegal)

section

variable {g g' : ConsumerGroup} {a : Act}

/-- An act on a stream group is one on its metadata. -/
lemma Evolves.stream_act {state state' : Option ConsumerState} (hmode : g.mode = .stream)
    (hcontract : g.SameContract g') (hstate : g'.pel ≠ [] → state'.isSome)
    (hdistinct : g'.pel.Distinct) (hfiled : g'.pel.Filed)
    (hshown : Shown (stored g state) (stored g' state')) (hledger : g'.ledger = g.ledger.apply a)
    (hP : P (stored g state).ledger a) :
    Evolves P (stored g state) (stored g' state') ∧
      (stored g' state').ledger = (stored g state).ledger.apply a := by
  have hmode' : g'.mode = .stream := hcontract.1.trans hmode
  have hledger' : (stored g' state').ledger = (stored g state).ledger.apply a := by
    rw [ledger_of_stream hmode', ledger_of_stream hmode, hledger]
  exact ⟨.single (.stream g' state' hmode' hstate hdistinct hfiled) hcontract hshown hledger' hP,
    hledger'⟩

/-- An act on any other group is one on the log store's record. -/
lemma Evolves.tracked_act {cs cs' : ConsumerState} (hmode : g.mode ≠ .stream)
    (hcontract : g.SameContract g') (hsync : g'.cursor.cursor = cs'.cursor)
    (hshown : Shown (stored g (some cs)) (stored g' (some cs')))
    (hledger : ⟨cs'.cursor, g'.cursor.committed, cs'.allPending.owner⟩ =
      Ledger.apply ⟨cs.cursor, g.cursor.committed, cs.allPending.owner⟩ a)
    (hP : P (stored g (some cs)).ledger a) :
    Evolves P (stored g (some cs)) (stored g' (some cs')) ∧
      (stored g' (some cs')).ledger = (stored g (some cs)).ledger.apply a := by
  have hmode' : g'.mode ≠ .stream := hcontract.1.trans_ne hmode
  have hledger' : (stored g' (some cs')).ledger = (stored g (some cs)).ledger.apply a := by
    rw [ledger_of_tracked hmode', ledger_of_tracked hmode, hledger]
  exact ⟨.single (.tracked g' cs' hmode' hsync) hcontract hshown hledger' hP, hledger'⟩

end

/-! ### Reading, and moving the positions -/

lemma WellFormed.ledger_getConsumerGroup (h : r.WellFormed) :
    r.getConsumerGroup.ledger = r.ledger := by
  cases h with
  | stream g state hmode hstate hdistinct hfiled => rw [getConsumerGroup_of_stream hmode]
  | tracked g cs hmode hcursor =>
    set g' := (g.setCursorPosition cs.cursor).replacePEL cs.allPending with hg'
    have hmode' : g'.mode ≠ .stream := hmode
    rw [getConsumerGroup_of_tracked hmode, ← hg', ledger_of_tracked hmode', ledger_of_tracked hmode]
    rfl

/-- Reading a group only refreshes the metadata. -/
lemma WellFormed.getConsumerGroup (h : r.WellFormed) : Evolves P r r.getConsumerGroup := by
  have hread := h.read_group.1
  have hledger := h.ledger_getConsumerGroup
  cases h with
  | stream g state hmode hstate hdistinct hfiled =>
    rw [getConsumerGroup_of_stream hmode]
    exact .refl (.stream g state hmode hstate hdistinct hfiled)
  | tracked g cs hmode hcursor =>
    rw [getConsumerGroup_of_tracked hmode] at hread hledger ⊢
    refine .silent (.tracked _ cs hmode rfl) ⟨rfl, rfl, rfl⟩ (fun p hp => Or.inr (Or.inl ?_))
      hledger
    rw [← hread]
    exact Pel.owner_isSome_iff.2 ⟨p, hp, rfl⟩

/-- Moving the cursor. -/
lemma WellFormed.updateCursor (h : r.WellFormed) (cursor : Nat) (hP : P r.ledger (.skip cursor)) :
    ∃ r', r.updateCursor cursor = (r', none) ∧ Evolves P r r' ∧
      r'.ledger = r.ledger.apply (.skip cursor) := by
  cases h with
  | stream g state hmode hstate hdistinct hfiled =>
    exact ⟨stored (g.setCursorPosition cursor) (some ((state.getD {}).applySetCursor cursor)), rfl,
      Evolves.stream_act hmode ⟨rfl, rfl, rfl⟩ (fun _ => rfl) hdistinct hfiled
        (.of_within fun p hp => ⟨p, hp, rfl⟩) rfl hP⟩
  | tracked g cs hmode hcursor =>
    exact ⟨stored (g.setCursorPosition cursor) (some (cs.applySetCursor cursor)), rfl,
      Evolves.tracked_act hmode ⟨rfl, rfl, rfl⟩ rfl (.of_within fun p hp => ⟨p, hp, rfl⟩) rfl hP⟩

/-- Moving the committed offset to a position the group has reached. -/
lemma WellFormed.updateCommitted (h : r.WellFormed) (committed : Nat)
    (hle : committed ≤ r.ledger.cursor) (hP : P r.ledger (.commit committed)) :
    Evolves P r (r.updateCommitted committed) ∧
      (r.updateCommitted committed).ledger = r.ledger.apply (.commit committed) := by
  have hcur : ¬ r.live.cursor.cursor < committed := by
    rw [h.live_cursor]
    exact Nat.not_lt.2 hle
  cases h with
  | stream g state hmode hstate hdistinct hfiled =>
    exact Evolves.stream_act hmode ⟨rfl, rfl, rfl⟩ hstate hdistinct hfiled
      (.of_within fun p hp => ⟨p, hp, rfl⟩) (Ledger.ext (if_neg hcur) rfl fun _ => rfl) hP
  | tracked g cs hmode hcursor =>
    exact Evolves.tracked_act hmode ⟨rfl, rfl, rfl⟩ ((if_neg hcur).trans hcursor)
      (.of_within fun p hp => ⟨p, hp, rfl⟩) rfl hP

/-! ### Pending entries -/

/-- Claiming a record at or behind the cursor: file the entry, then step behind it. -/
lemma WellFormed.claim (h : r.WellFormed) (hb : r.ledger.Bounded) (now : Time)
    (entry : PendingEntry) (hle : r.ledger.cursor ≤ entry.offset)
    (hP : P r.ledger (.claim entry.offset entry.consumerId)) :
    ∃ r', ((r.addPendingEntry now entry).andThen fun r => r.updateCursor (entry.offset + 1)) =
        (r', none) ∧ Evolves P r r' ∧
      r'.ledger = r.ledger.apply (.claim entry.offset entry.consumerId) := by
  have hfree : r.ledger.owner entry.offset = none := by
    rw [← Option.not_isSome_iff_eq_none]
    exact fun hheld => absurd (hb.held_lt _ hheld) (Nat.not_lt.2 hle)
  have hshown : ∀ p ∈ r.live.pel ++ [(entry.consumerId, entry)],
      (∃ q ∈ r.live.pel, q.2.offset = p.2.offset) ∨ r.ledger.Held p.2.offset ∨
        r.ledger.cursor ≤ p.2.offset := by
    intro p hp
    rcases List.mem_append.1 hp with hp | hp
    · exact Or.inl ⟨p, hp, rfl⟩
    · rw [List.mem_singleton.1 hp]
      exact Or.inr (Or.inr hle)
  cases h with
  | stream g state hmode hstate hdistinct hfiled =>
    rw [ledger_of_stream hmode] at hfree
    refine ⟨stored ((g.addPending entry.consumerId entry).setCursorPosition (entry.offset + 1)) _, rfl,
      Evolves.stream_act hmode ⟨rfl, rfl, rfl⟩ (fun _ => rfl) (hdistinct.append hfree)
        (hfiled.append rfl) hshown ?_ hP⟩
    exact Ledger.ext rfl rfl fun o => congrFun (Pel.owner_append hfree) o
  | tracked g cs hmode hcursor =>
    refine ⟨stored ((g.addPending entry.consumerId entry).setCursorPosition (entry.offset + 1))
        (some ((cs.deliver now entry.offset entry.consumerId).applySetCursor (entry.offset + 1))), rfl,
      Evolves.tracked_act hmode ⟨rfl, rfl, rfl⟩ rfl hshown ?_ hP⟩
    exact Ledger.ext rfl rfl fun o => congrFun owner_applyDeliver o

/-- Settling an offset nobody holds changes nothing. -/
lemma settle_eq_self {l : Ledger} {offset : Nat} (h : l.owner offset = none) :
    l.apply (.settle offset) = l :=
  Ledger.ext rfl rfl fun o => congrFun ((congrArg _ h.symm).trans (Function.update_eq_self _ _)) o

/-- Removing a pending entry. The owner is found first, so that it does not matter which consumer
the caller names, except that the adapter takes an empty owner for an absent entry. -/
lemma WellFormed.removePendingEntry (h : r.WellFormed)
    (order : PelOrder) (consumer : String) (offset : Nat) (hP : P r.ledger (.settle offset)) :
    Evolves P r (r.removePendingEntry order consumer offset).1 ∧
      ((r.live.mode = .stream → r.ledger.owner offset = some "" → consumer = "") →
        (r.removePendingEntry order consumer offset).1.ledger =
          r.ledger.apply (.settle offset)) := by
  cases h with
  | stream g state hmode hstate hdistinct hfiled =>
    cases state with
    | none =>
      have hpel : g.pel = [] := by
        by_contra hne
        exact absurd (hstate hne) (by simp)
      refine ⟨.refl (.stream g none hmode hstate hdistinct hfiled), fun _ => ?_⟩
      rw [ledger_of_stream hmode, settle_eq_self (by simp [hpel])]
      exact ledger_of_stream hmode
    | some cs =>
      set owner := (g.findPending order offset).2 with howner
      set name := if owner ≠ "" then owner else consumer with hname
      have hrecord : (removePendingEntry (stored g (some cs)) order consumer
          offset).1 = stored (g.removePending name offset) (some (cs.applyAck offset)) := rfl
      have hshown : Shown (stored g (some cs))
          (stored (g.removePending name offset) (some (cs.applyAck offset))) :=
        .of_within (ConsumerGroup.offsetsWithin_removePending name offset)
      rw [ConsumerGroup.findPending_owner hdistinct] at howner
      rw [hrecord]
      rw [ConsumerGroup.removePending_eq hdistinct] at hshown ⊢
      split at hshown
      · rename_i hheld
        rw [if_pos hheld]
        refine And.imp_right (fun hledger _ => hledger) (Evolves.stream_act hmode ⟨rfl, rfl, rfl⟩
          (fun _ => rfl) (hdistinct.filter _) (hfiled.filter _) hshown ?_ hP)
        exact Ledger.ext rfl rfl fun o => congrFun (Pel.owner_filter g.pel offset) o
      rename_i hnot
      rw [if_neg hnot]
      have hledger : (stored g (some (cs.applyAck offset))).ledger =
          (stored g (some cs)).ledger := by
        rw [ledger_of_stream hmode, ledger_of_stream hmode]
      refine ⟨.silent ?_ ⟨rfl, rfl, rfl⟩ hshown hledger, fun hne => ?_⟩
      · exact .stream g _ hmode (fun _ => rfl) hdistinct hfiled
      replace hne := hne hmode
      rw [ledger_of_stream hmode] at hne
      -- The name that was looked for is the owner's, so nobody holds the offset.
      have hnone : g.pel.owner offset = none := by
        cases hw : g.pel.owner offset with
        | none => rfl
        | some w =>
          by_cases hw' : w = ""
          · have hc : consumer = "" := hne (by simp [hw, hw'])
            simp [hw, howner, hname, hw', hc] at hnot
          · simp [hw, howner, hname, hw'] at hnot
      rw [hledger, ledger_of_stream hmode, settle_eq_self hnone]
  | tracked g cs hmode hcursor =>
    set name := if (g.findPending order offset).2 ≠ "" then (g.findPending order offset).2
      else consumer
    refine And.imp_right (fun hledger _ => hledger) (Evolves.tracked_act hmode ⟨rfl, rfl, rfl⟩
      (hcursor.trans cursor_applyAck.symm)
      (.of_within (ConsumerGroup.offsetsWithin_removePending name offset)) ?_ hP)
    exact Ledger.ext cursor_applyAck rfl fun o => congrFun owner_applyAck o

/-- The log store has a record of every group that is not a stream, so a removal succeeds. -/
lemma WellFormed.removePendingEntry_ok (h : r.WellFormed) (hmode : r.live.mode ≠ .stream)
    (order : PelOrder) (consumer : String) (offset : Nat) :
    (r.removePendingEntry order consumer offset).2 = none := by
  cases h with
  | stream g state hstream _ _ _ => exact absurd hstream hmode
  | tracked g cs _ _ => rfl

private lemma transfer_stream {g : ConsumerGroup} {cs : ConsumerState} {offset : Nat}
    {fromConsumer : String} (hmode : g.mode = .stream) (hdistinct : g.pel.Distinct)
    (hfiled : g.pel.Filed) (howner : (g.pel.owner offset).getD "" = fromConsumer) (now : Time)
    (toConsumer : String) (hP : (stored g (some cs)).ledger.Held offset →
      P (stored g (some cs)).ledger (.handOver offset toConsumer)) :
    Evolves P (stored g (some cs))
      (stored (g.transferPending now offset fromConsumer toConsumer)
        (some (cs.claim now offset toConsumer))) := by
  have hwithin : Shown (stored g (some cs))
      (stored (g.transferPending now offset fromConsumer toConsumer)
        (some (cs.claim now offset toConsumer))) := by
    obtain ⟨pel, hpel, hwithin⟩ := g.exists_transferPending now offset fromConsumer toConsumer
    rw [hpel]
    exact .of_within hwithin
  rw [ledger_of_stream hmode] at hP
  cases hw : g.pel.owner offset with
  | none =>
    rw [ConsumerGroup.transferPending_eq_self hw] at hwithin ⊢
    refine .silent (.stream _ _ hmode (fun _ => rfl) hdistinct hfiled) ⟨rfl, rfl, rfl⟩ hwithin ?_
    rw [ledger_of_stream hmode, ledger_of_stream hmode]
  | some w =>
    obtain rfl : w = fromConsumer := by simpa [hw] using howner
    obtain ⟨e, heoff, hename, heq⟩ := ConsumerGroup.transferPending_pel hdistinct hw now toConsumer
    have hfree : Pel.owner (g.pel.filter fun p => p.2.offset != offset) e.offset = none := by
      rw [Pel.owner_filter, heoff, Function.update_self]
    rw [heq] at hwithin ⊢
    set g' := g.replacePEL ((g.pel.filter fun p => p.2.offset != offset) ++ [(toConsumer, e)])
    have hledger : g'.ledger = g.ledger.apply (.handOver offset toConsumer) := by
      refine Ledger.ext rfl rfl fun o => (congrFun (Pel.owner_append hfree) o).trans ?_
      rw [Pel.owner_filter, heoff, Function.update_idem]
      rfl
    have hheld : g.ledger.Held offset := by simp [Ledger.Held, hw]
    exact And.left (Evolves.stream_act hmode ⟨rfl, rfl, rfl⟩ (fun _ => rfl)
      ((hdistinct.filter _).append hfree) ((hfiled.filter _).append hename.symm) hwithin hledger
      ((ledger_of_stream hmode).symm ▸ hP hheld))

variable {g g' : ConsumerGroup}

private lemma transfer_tracked {cs : ConsumerState} {offset : Nat}
    (hmode : g.mode ≠ .stream) (hcontract : g.SameContract g')
    (hcursor : g'.cursor.cursor = cs.cursor) (hcommitted : g'.cursor.committed = g.cursor.committed)
    (now : Time) (toConsumer : String)
    (hshown : Shown (stored g (some cs)) (stored g' (some (cs.claim now offset toConsumer))))
    (hP : (stored g (some cs)).ledger.Held offset →
      P (stored g (some cs)).ledger (.handOver offset toConsumer)) :
    Evolves P (stored g (some cs)) (stored g' (some (cs.claim now offset toConsumer))) := by
  have hne : g'.mode ≠ .stream := hcontract.1.trans_ne hmode
  have hwf : WellFormed (stored g' (some (cs.claim now offset toConsumer))) :=
    .tracked _ _ hne hcursor
  have howner : (cs.claim now offset toConsumer).allPending.owner =
      Function.update cs.allPending.owner offset
        ((cs.allPending.owner offset).map fun _ => toConsumer) :=
    owner_applyClaim
  rw [ledger_of_tracked hmode] at hP
  cases hw : cs.allPending.owner offset with
  | none =>
    refine .silent hwf hcontract hshown ?_
    rw [ledger_of_tracked hne, ledger_of_tracked hmode, howner, hw, Option.map_none, ← hw,
      Function.update_eq_self, hcommitted]
    rfl
  | some w =>
    have hheld := hP (by simp [Ledger.Held, hw])
    refine .single hwf hcontract hshown ?_ ((ledger_of_tracked hmode).symm ▸ hheld)
    rw [ledger_of_tracked hne, ledger_of_tracked hmode, howner, hw, hcommitted]
    rfl

/-- Handing a pending entry over. The adapter refuses a transfer that does not name the owner. -/
lemma WellFormed.transferPendingEntry (h : r.WellFormed)
    (order : PelOrder) (now : Time) (offset : Nat) (fromConsumer toConsumer : String)
    (hP : r.ledger.Held offset → P r.ledger (.handOver offset toConsumer)) :
    Evolves P r (r.transferPendingEntry order now offset fromConsumer toConsumer).1 := by
  have hread : Evolves P r r.getConsumerGroup := h.getConsumerGroup
  cases h with
  | stream g state hmode hstate hdistinct hfiled =>
    unfold transferPendingEntry
    simp only [getConsumerGroup_of_stream hmode] at hread ⊢
    split
    · exact hread
    rename_i howner
    rw [not_not, ConsumerGroup.findPending_owner hdistinct] at howner
    cases state with
    | none => exact hread
    | some cs => exact transfer_stream hmode hdistinct hfiled howner now toConsumer hP
  | tracked g cs hmode hcursor =>
    set g' := (g.setCursorPosition cs.cursor).replacePEL cs.allPending with hg'
    unfold transferPendingEntry
    simp only [getConsumerGroup_of_tracked hmode] at hread ⊢
    split
    · exact hread
    obtain ⟨pel, hpel, hwithin⟩ := g'.exists_transferPending now offset fromConsumer toConsumer
    have hrecord : ((withExistingState (stored g' (some cs))
        fun cs => cs.claim now offset toConsumer).andThen fun r =>
          (r.mapGroup fun g => g.transferPending now offset fromConsumer toConsumer, none)).1 =
        stored (g'.replacePEL pel) (some (cs.claim now offset toConsumer)) := by
      rw [← hpel]
      rfl
    rw [hrecord]
    refine transfer_tracked hmode ?_ ?_ ?_ now toConsumer ?_ hP
    · exact ⟨rfl, rfl, rfl⟩
    · rfl
    · rfl
    · intro p hp
      obtain ⟨q, hq, hqp⟩ := hwithin p hp
      exact hqp ▸ hread.shown q hq

/-! ### Leases and membership -/

/-- The metadata has the same contract and positions. -/
def SamePositions (g g' : ConsumerGroup) : Prop :=
  g.SameContract g' ∧ g'.cursor = g.cursor

/-- A change of a stream group's metadata that does not show in the ledger. -/
lemma Evolves.stream_silent {state state' : Option ConsumerState}
    (hmode : g.mode = .stream) (hsame : SamePositions g g') (hstate : g'.pel ≠ [] → state'.isSome)
    (hdistinct : g'.pel.Distinct) (hfiled : g'.pel.Filed) (howner : g'.pel.owner = g.pel.owner)
    (hwithin : ConsumerGroup.OffsetsWithin g.pel g'.pel) :
    Evolves P (stored g state) (stored g' state') := by
  obtain ⟨hcontract, hcursor⟩ := hsame
  have hstream : g'.mode = .stream := hcontract.1.trans hmode
  refine .silent (.stream g' state' hstream hstate hdistinct hfiled) hcontract
    (.of_within hwithin) ?_
  rw [ledger_of_stream hstream, ledger_of_stream hmode]
  simp [hcursor, howner]

/-- A change of any other group's records that does not show in the ledger. -/
lemma Evolves.tracked_silent {cs cs' : ConsumerState}
    (hmode : g.mode ≠ .stream) (hsync : g.cursor.cursor = cs.cursor) (hsame : SamePositions g g')
    (hcursor' : cs'.cursor = cs.cursor) (howner : cs'.allPending.owner = cs.allPending.owner)
    (hwithin : ConsumerGroup.OffsetsWithin g.pel g'.pel) :
    Evolves P (stored g (some cs)) (stored g' (some cs')) := by
  obtain ⟨hcontract, hcursor⟩ := hsame
  have htracked : g'.mode ≠ .stream := hcontract.1.trans_ne hmode
  refine .silent (.tracked g' cs' htracked ?_) hcontract (.of_within hwithin) ?_
  · rw [hcursor, hsync, hcursor']
  · rw [ledger_of_tracked htracked, ledger_of_tracked hmode, hcursor, hcursor', howner]

/-- Requeuing an entry changes its lease, which the ledger does not show. -/
lemma WellFormed.requeuePendingEntry (h : r.WellFormed)
    (order : PelOrder) (consumer : String) (offset : Nat) (attemptedAt : Time) :
    Evolves P r (r.requeuePendingEntry order consumer offset attemptedAt).1 := by
  have hsame : Evolves P r r := .refl h
  have hwithin : ∀ pel, ConsumerGroup.OffsetsWithin pel pel := fun _ p hp => ⟨p, hp, rfl⟩
  cases h with
  | stream g state hmode hstate hdistinct hfiled =>
    obtain ⟨f, hf, hrequeue⟩ :=
      ConsumerGroup.requeuePending_eq hdistinct offset consumer attemptedAt
    unfold requeuePendingEntry
    simp only
    split
    · exact hsame
    split
    · exact hsame
    cases state with
    | none => exact hsame
    | some cs =>
      split
      · rw [hrequeue]
        refine .stream_silent hmode ⟨⟨rfl, rfl, rfl⟩, rfl⟩ (fun _ => rfl) ?_ ?_ ?_ ?_
        · exact hdistinct.map fun p => (hf p).2.1
        · exact hfiled.map fun p => ⟨(hf p).1, (hf p).2.2⟩
        · exact Pel.owner_map_of_eq (fun p => ⟨(hf p).1, (hf p).2.1⟩) g.pel
        · intro p hp
          obtain ⟨q, hq, rfl⟩ := List.mem_map.1 hp
          exact ⟨q, hq, (hf q).2.1.symm⟩
      · exact .stream_silent hmode ⟨⟨rfl, rfl, rfl⟩, rfl⟩ (fun _ => rfl) hdistinct hfiled rfl
          (hwithin _)
  | tracked g cs hmode hcursor =>
    obtain ⟨pel, hrequeue, hpel⟩ := g.exists_requeuePending offset consumer attemptedAt
    have howner : (cs.releaseAt offset attemptedAt).allPending.owner = cs.allPending.owner :=
      owner_applyRelease
    unfold requeuePendingEntry
    simp only
    split
    · exact hsame
    split
    · exact hsame
    split
    · rw [hrequeue]
      exact .tracked_silent hmode hcursor ⟨⟨rfl, rfl, rfl⟩, rfl⟩ rfl howner hpel
    · exact .tracked_silent hmode hcursor ⟨⟨rfl, rfl, rfl⟩, rfl⟩ rfl howner (hwithin _)

/-- Changing the membership of a group does not show in the ledger. -/
lemma WellFormed.setConsumers (h : r.WellFormed) (consumers : List (String × ConsumerInfo)) :
    Evolves P r { r with group := some { r.live with consumers } } := by
  have hwithin : ∀ pel, ConsumerGroup.OffsetsWithin pel pel := fun _ p hp => ⟨p, hp, rfl⟩
  cases h with
  | stream g state hmode hstate hdistinct hfiled =>
    exact .stream_silent hmode ⟨⟨rfl, rfl, rfl⟩, rfl⟩ hstate hdistinct hfiled rfl (hwithin _)
  | tracked g cs hmode hcursor =>
    exact .tracked_silent hmode hcursor ⟨⟨rfl, rfl, rfl⟩, rfl⟩ rfl rfl (hwithin _)

lemma WellFormed.registerConsumer (h : r.WellFormed) (info : ConsumerInfo) :
    Evolves P r (r.registerConsumer info).1 := by
  have hset := h.setConsumers (P := P) ((info.id, info) ::
    r.live.consumers.filter fun c => c.1 != info.id)
  unfold GroupRecord.registerConsumer
  rw [h.group_eq]
  exact hset

lemma WellFormed.unregisterConsumer (h : r.WellFormed) (consumer : String) :
    Evolves P r (r.unregisterConsumer consumer).1 := by
  have hset := h.setConsumers (P := P) (r.live.consumers.filter fun c => c.1 != consumer)
  unfold GroupRecord.unregisterConsumer
  rw [h.group_eq]
  exact hset

end GroupRecord

end FluxMQ
