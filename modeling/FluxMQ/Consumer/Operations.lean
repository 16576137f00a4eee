import FluxMQ.Consumer.Refinement

/-!
# What each operation of the manager does

The inner calls of the manager assembled into its operations. Every operation reads the group
first, and from then on its group pointer shows what is held.

* `Manager.Moves`: an operation changed the stored group by acts of a class, and neither the log
  nor the reserved offsets.
* `Manager.Serves`: moreover, what it handed out was at or behind the cursor, or was held and might
  be touched.
-/

namespace FluxMQ

open GroupRecord List

/-- A record that an operation hands out: one it has just reached, or a held one that it may
touch. -/
def HandedOut (may : Nat → Prop) (l : Ledger) (offset : Nat) : Prop :=
  l.cursor ≤ offset ∨ (l.Held offset ∧ may offset)

namespace Manager

/-- The ledger of the stored group. -/
abbrev ledger (m : Manager) : Ledger :=
  m.record.ledger

/-- The manager after the group was read. -/
abbrev read (m : Manager) : Manager :=
  { m with record := m.record.getConsumerGroup }

/-- The stored group changed by acts that meet `P`; log and reservations are the same. -/
structure Moves (P : Ledger → Act → Prop) (m m' : Manager) : Prop where
  evolves : Evolves P m.record m'.record
  log : m'.log = m.log
  transfers : m'.transfers = m.transfers

/-- The operation makes changes that meet `P` and hands out what it may. -/
structure Serves (P : Ledger → Act → Prop) (may : Nat → Prop) (m : Manager)
    (result : Reply × Manager) : Prop where
  moves : Moves P m result.2
  handedOut : ∀ o ∈ result.1.messages, HandedOut may m.ledger o

section

variable {P Q : Ledger → Act → Prop} {m m' m'' : Manager}

lemma Moves.refl (h : m.record.WellFormed) : Moves P m m := ⟨.refl h, rfl, rfl⟩

lemma Moves.trans (hlegal : ∀ l a, P l a → l.Legal a) (h : Moves P m m') (h' : Moves P m' m'') :
    Moves P m m'' :=
  ⟨h.evolves.trans hlegal h'.evolves, h'.log.trans h.log, h'.transfers.trans h.transfers⟩

lemma Moves.mono (hPQ : ∀ l a, P l a → Q l a) (h : Moves P m m') : Moves Q m m' :=
  ⟨h.evolves.mono hPQ, h.log, h.transfers⟩

/-- Changing the stored group only. -/
lemma Moves.record {r : GroupRecord} (h : Evolves P m.record r) :
    Moves P m { m with record := r } :=
  ⟨h, rfl, rfl⟩

section

variable (h : m.record.WellFormed)
include h

/-- Reading the group. -/
lemma moves_read : Moves P m m.read := .record h.getConsumerGroup

lemma ledger_read : m.read.ledger = m.ledger := h.ledger_getConsumerGroup

lemma wellFormed_read : m.read.record.WellFormed :=
  (moves_read (P := fun _ _ => True) h).evolves.wellFormed

lemma withGroup_eq (body : ConsumerGroup → Manager → Reply × Manager) :
    m.withGroup body = body m.read.record.live m.read := by
  have hgroup : m.record.getConsumerGroup.group = some m.record.getConsumerGroup.live :=
    (wellFormed_read h).group_eq
  unfold withGroup
  simp only [hgroup]

/-- What the group pointer shows after the group was read and changed. -/
lemma Moves.shown_of_read (hmoves : Moves P m.read m') {o : Nat}
    (hshown : ∃ p ∈ m'.record.live.pel, p.2.offset = o) :
    m.ledger.cursor ≤ o ∨ m.ledger.Held o := by
  obtain ⟨p, hp, rfl⟩ := hshown
  have hread := ledger_read h
  rcases hmoves.evolves.shown p hp with ⟨q, hq, hqp⟩ | hheld | hcursor
  · refine Or.inr (hqp ▸ ?_)
    exact Pel.owner_isSome_iff.2 ⟨q, hq, rfl⟩
  · exact Or.inr (hread ▸ hheld)
  · exact Or.inl (hread ▸ hcursor)

end

/-- What an operation does after the read, it does from before the read. -/
lemma Moves.from_read (hmoves : Moves P m.read m') (h : m.record.WellFormed)
    (hlegal : ∀ l a, P l a → l.Legal a) : Moves P m m' :=
  (moves_read h).trans hlegal hmoves

end

/-! ### Claims -/

/-- What the claiming operations do: scans with the readings `claims`, and takeovers of entries
that are not reserved with the readings `steals`. -/
def ClaimAct (m : Manager) (consumer : String) (filter : Filter) (claims steals : List Readings)
    (l : Ledger) (a : Act) : Prop :=
  (∃ t ∈ claims, ScanAct m.log consumer (claimable m.log filter m.record.live.queueName t) l a) ∨
    ∃ t ∈ steals, TakeAct m.log consumer t (· ∉ m.transfers) l a

lemma ClaimAct.legal {m : Manager} {consumer : String} {filter : Filter}
    {claims steals : List Readings} (l : Ledger) (a : Act)
    (h : m.ClaimAct consumer filter claims steals l a) : l.Legal a := by
  rcases h with ⟨t, -, h⟩ | ⟨t, -, h⟩
  · exact h.legal
  · exact h.legal

section

variable {m n : Manager} {cfg : ManagerConfig} {consumer : String} {filter : Filter}
  {claims steals : List Readings} {t : Readings}

/-- A scan in the middle of an operation that has read the group. -/
lemma Moves.scan (h : m.record.WellFormed) (hb : m.ledger.Bounded)
    (hn : Moves (m.ClaimAct consumer filter claims steals) m.read n) (cfg : ManagerConfig)
    (ht : t ∈ claims) :
    Moves (m.ClaimAct consumer filter claims steals) m.read
        { n with record := (claimFromCursor cfg n.log t consumer filter n.record).2 } ∧
      ∀ o, (claimFromCursor cfg n.log t consumer filter n.record).1 = .ok o →
        m.ledger.cursor ≤ o := by
  have hbread : m.read.ledger.Bounded := (ledger_read h).symm ▸ hb
  obtain ⟨hevolves, hfresh⟩ := claimFromCursor_yields hn.evolves.wellFormed
    (hn.evolves.bounded ClaimAct.legal hbread) cfg n.log t consumer filter
  have hqueue : n.record.live.queueName = m.record.live.queueName :=
    hn.evolves.contract.2.2.trans (moves_read (P := fun _ _ => True) h).evolves.contract.2.2
  rw [hn.log, hqueue] at hevolves
  refine ⟨hn.trans ClaimAct.legal (.record ?_), fun o ho => ?_⟩
  · rw [hn.log]
    exact hevolves.mono fun _ _ ha => Or.inl ⟨t, ht, ha⟩
  -- The cursor has only moved forward since the read.
  have hforward := (Ledger.held_or_le_of_reaches (hn.evolves.reaches.mono ClaimAct.legal) o).2
  rw [h.ledger_getConsumerGroup] at hforward
  exact hforward.trans (hfresh o ho)

/-- A takeover in the middle of an operation that has read the group. -/
lemma Moves.steal (h : m.record.WellFormed)
    (hn : Moves (m.ClaimAct consumer filter claims steals) m.read n) (cfg : ManagerConfig)
    (ht : t ∈ steals) (exclude ownerOnly : String) :
    Moves (m.ClaimAct consumer filter claims steals) m.read
        (n.steal cfg t consumer filter exclude ownerOnly).2 ∧
      ∀ o, (n.steal cfg t consumer filter exclude ownerOnly).1 = some o →
        HandedOut (· ∉ m.transfers) m.ledger o := by
  obtain ⟨hevolves, htaken⟩ := stealWorkFrom_takes hn.evolves.wellFormed cfg n.log n.transfers t
    consumer filter exclude ownerOnly n.poison
  refine ⟨hn.trans ClaimAct.legal ⟨?_, rfl, rfl⟩, fun o ho => ?_⟩
  · refine hevolves.mono fun _ _ ha => Or.inr ⟨t, ht, ?_⟩
    rw [hn.log, hn.transfers] at ha
    exact ha
  obtain ⟨hfree, hshown⟩ := htaken o ho
  rw [hn.transfers] at hfree
  rcases hn.shown_of_read h hshown with hfresh | hheld
  · exact Or.inl hfresh
  · exact Or.inr ⟨hheld, hfree⟩

section

variable {P : Ledger → Act → Prop} {may : Nat → Prop} (hmoves : Moves P m n)
include hmoves

/-- The reply of an operation that took at most one message. -/
lemma serves_replyOne {taken : Option Nat}
    (htaken : ∀ o, taken = some o → HandedOut may m.ledger o) :
    Serves P may m (replyOne taken, n) := by
  refine ⟨hmoves, fun o ho => ?_⟩
  cases taken with
  | none => exact absurd ho not_mem_nil
  | some offset => exact htaken o (congrArg some (mem_singleton.1 ho).symm)

/-- An operation that hands nothing out. -/
lemma Serves.silent {error : Option ManagerError} : Serves P may m ({ error }, n) := ⟨hmoves, nofun⟩

/-- An operation that hands one message out. -/
lemma Serves.one {offset : Nat} (hoffset : HandedOut may m.ledger offset) :
    Serves P may m ({ messages := [offset] }, n) :=
  ⟨hmoves, fun _ ho => mem_singleton.1 ho ▸ hoffset⟩

end

variable (cfg consumer filter)

/-- `Claim` scans from the cursor and steals when it finds nothing. -/
lemma claim_serves (h : m.record.WellFormed) (hb : m.ledger.Bounded) (t : Readings) :
    Serves (m.ClaimAct consumer filter [t] [t]) (· ∉ m.transfers) m
      (m.claim cfg t consumer filter) := by
  have hread : Moves (m.ClaimAct consumer filter [t] [t]) m.read m.read := .refl (wellFormed_read h)
  obtain ⟨hscan, hfresh⟩ := hread.scan h hb cfg (t := t) mem_cons_self
  rw [claim, withGroup_eq h]
  split
  · rename_i offset record hclaim
    rw [hclaim] at hscan hfresh
    exact .one (hscan.from_read h ClaimAct.legal) (Or.inl (hfresh offset rfl))
  rename_i err record hclaim
  rw [hclaim] at hscan
  split
  · obtain ⟨hsteal, htaken⟩ := hscan.steal h cfg (t := t) mem_cons_self consumer ""
    exact serves_replyOne (hsteal.from_read h ClaimAct.legal) htaken
  · exact .silent (hscan.from_read h ClaimAct.legal)

variable {ts : Nat → Readings}

/-- The first loop of `ClaimBatch`. -/
lemma claimLoop_moves (h : m.record.WellFormed) (hb : m.ledger.Bounded)
    {k : Nat} (hk : ∀ i < k, ts i ∈ claims)
    (hn : Moves (m.ClaimAct consumer filter claims steals) m.read n) :
    Moves (m.ClaimAct consumer filter claims steals) m.read
        (claimLoop cfg ts consumer filter k n).2.2 ∧
      ∀ o ∈ (claimLoop cfg ts consumer filter k n).1, m.ledger.cursor ≤ o := by
  induction k generalizing n with
  | zero => exact ⟨hn, nofun⟩
  | succ k ih =>
    obtain ⟨hscan, hfresh⟩ := hn.scan h hb cfg (hk k (Nat.lt_succ_self k))
    unfold claimLoop
    split
    · rename_i err record hclaim
      rw [hclaim] at hscan
      exact ⟨hscan, nofun⟩
    rename_i offset record hclaim
    rw [hclaim] at hscan hfresh
    obtain ⟨hrest, hrestFresh⟩ := ih (fun i hi => hk i (hi.trans (Nat.lt_succ_self k))) hscan
    refine ⟨hrest, fun o ho => ?_⟩
    rcases mem_cons.1 ho with rfl | ho
    · exact hfresh o rfl
    · exact hrestFresh o ho

/-- The second loop of `ClaimBatch`. -/
lemma stealMany_moves (h : m.record.WellFormed) {k : Nat} (hk : ∀ i < k, ts i ∈ steals)
    (hn : Moves (m.ClaimAct consumer filter claims steals) m.read n) :
    Moves (m.ClaimAct consumer filter claims steals) m.read
        (stealMany cfg ts consumer filter k n).2 ∧
      ∀ o ∈ (stealMany cfg ts consumer filter k n).1, HandedOut (· ∉ m.transfers) m.ledger o := by
  induction k generalizing n with
  | zero => exact ⟨hn, nofun⟩
  | succ k ih =>
    obtain ⟨hsteal, htaken⟩ := hn.steal h cfg (hk k (Nat.lt_succ_self k)) consumer ""
    unfold stealMany
    split
    · rename_i n' hnone
      rw [hnone] at hsteal
      exact ⟨hsteal, nofun⟩
    rename_i offset n' hsome
    rw [hsome] at hsteal htaken
    obtain ⟨hrest, hrestTaken⟩ := ih (fun i hi => hk i (hi.trans (Nat.lt_succ_self k))) hsteal
    refine ⟨hrest, fun o ho => ?_⟩
    rcases mem_cons.1 ho with rfl | ho
    · exact htaken o rfl
    · exact hrestTaken o ho

/-- The readings of the first `k` calls of a loop. -/
def readingsBelow (ts : Nat → Readings) (k : Nat) : List Readings :=
  (List.range k).map ts

lemma mem_readingsBelow {k i : Nat} (h : i < k) : ts i ∈ readingsBelow ts k :=
  mem_map_of_mem (mem_range.2 h)

/-- `ClaimBatch` scans from the cursor and then steals. -/
lemma claimBatch_serves (h : m.record.WellFormed) (hb : m.ledger.Bounded)
    (claims steals : Nat → Readings) (limit : Int) :
    Serves (m.ClaimAct consumer filter (readingsBelow claims (batchLimit cfg limit))
        (readingsBelow steals (batchLimit cfg limit))) (· ∉ m.transfers) m
      (m.claimBatch cfg claims steals consumer filter limit) := by
  set k := batchLimit cfg limit
  have hread : Moves (m.ClaimAct consumer filter (readingsBelow claims k)
      (readingsBelow steals k)) m.read m.read := .refl (wellFormed_read h)
  obtain ⟨hloop, hfresh⟩ := claimLoop_moves cfg consumer filter h hb
    (fun i hi => mem_readingsBelow hi) hread
  rw [claimBatch, withGroup_eq h]
  simp only
  split
  · exact ⟨hloop.from_read h ClaimAct.legal, fun o ho => Or.inl (hfresh o ho)⟩
  set claimed := claimLoop cfg claims consumer filter k m.read
  obtain ⟨hsteal, htaken⟩ := stealMany_moves cfg consumer filter h (k := k - claimed.1.length)
    (fun i hi => mem_readingsBelow (hi.trans_le (Nat.sub_le _ _))) hloop
  have hmoves := hsteal.from_read h ClaimAct.legal
  split
  · exact .silent hmoves
  refine ⟨hmoves, fun o ho => ?_⟩
  rcases mem_append.1 ho with ho | ho
  · exact Or.inl (hfresh o ho)
  · exact htaken o ho

/-- `ClaimManualStream` takes lapsed entries over before it scans. -/
lemma claimManualStream_serves (h : m.record.WellFormed) (hb : m.ledger.Bounded) (t t' : Readings) :
    Serves (m.ClaimAct consumer filter [t'] [t]) (· ∉ m.transfers) m
      (m.claimManualStream cfg t t' consumer filter) := by
  have hread : Moves (m.ClaimAct consumer filter [t'] [t]) m.read m.read :=
    .refl (wellFormed_read h)
  rw [claimManualStream, withGroup_eq h]
  split
  · exact .silent (hread.from_read h ClaimAct.legal)
  split
  · obtain ⟨hsteal, htaken⟩ := hread.steal h cfg (t := t) mem_cons_self "" consumer
    exact serves_replyOne (hsteal.from_read h ClaimAct.legal) htaken
  obtain ⟨hsteal, htaken⟩ := hread.steal h cfg (t := t) mem_cons_self consumer ""
  split
  · rename_i offset n hsome
    rw [hsome] at hsteal htaken
    exact .one (hsteal.from_read h ClaimAct.legal) (htaken offset rfl)
  rename_i n hnone
  rw [hnone] at hsteal
  obtain ⟨hscan, hfresh⟩ := hsteal.scan h hb cfg (t := t') mem_cons_self
  split
  · rename_i offset record hclaim
    rw [hclaim] at hscan hfresh
    exact .one (hscan.from_read h ClaimAct.legal) (Or.inl (hfresh offset rfl))
  · rename_i err record hclaim
    rw [hclaim] at hscan
    exact .silent (hscan.from_read h ClaimAct.legal)

/-- The offsets `ClaimPendingBatch` selects, which is refused on a stream group. -/
def selectedOffsets (m : Manager) (t : Readings) (minIdle : Time) (limit : Int) : List Nat :=
  if m.read.record.live.mode = .stream then []
  else
    (selectPending m.read.record.live t consumer minIdle (batchLimit cfg limit)).map
      fun e => e.offset

/-- `ClaimPendingBatch` touches what it selects, reserved or not. -/
lemma claimPendingBatch_serves (h : m.record.WellFormed) (t : Readings) (minIdle : Time)
    (limit : Int) :
    Serves (TakeAct m.log consumer t (· ∈ selectedOffsets cfg consumer m t minIdle limit))
      (· ∈ selectedOffsets cfg consumer m t minIdle limit) m
      (m.claimPendingBatch cfg t consumer minIdle limit) := by
  set may := (· ∈ selectedOffsets cfg consumer m t minIdle limit) with hmay
  have hlegal : ∀ l a, TakeAct m.log consumer t may l a → l.Legal a := fun _ _ => TakeAct.legal
  have hread : Moves (TakeAct m.log consumer t may) m.read m.read := .refl (wellFormed_read h)
  rw [claimPendingBatch, withGroup_eq h]
  split
  · exact .silent (hread.from_read h hlegal)
  rename_i hmode
  have hselected : ∀ e ∈ selectPending m.read.record.live t consumer minIdle
      (batchLimit cfg limit), may e.offset := by
    intro e he
    rw [hmay, selectedOffsets, if_neg hmode]
    exact mem_map_of_mem he
  obtain ⟨hloop, htaken⟩ := claimPendingLoop_yields (wellFormed_read h) m.log t consumer
    (selectPending m.read.record.live t consumer minIdle (batchLimit cfg limit)) hselected
  have hmoves := (Moves.record hloop : Moves _ m.read _).from_read h hlegal
  simp only
  split
  · rename_i err record hresult
    rw [hresult] at hmoves
    exact .silent hmoves
  · rename_i record hresult
    rw [hresult] at hmoves
    exact .silent hmoves
  rename_i taken record hne hresult
  rw [hresult] at hmoves htaken
  refine ⟨hmoves, fun o ho => ?_⟩
  obtain ⟨e, he, rfl⟩ := htaken taken rfl o ho
  obtain ⟨p, hp, rfl⟩ := mem_selectPending he
  rcases hread.shown_of_read h ⟨p, hp, rfl⟩ with hfresh | hheld
  · exact Or.inl hfresh
  · exact Or.inr ⟨hheld, hselected _ he⟩

end

/-! ### Stream cursors -/

section

variable {m n : Manager} (cfg : ManagerConfig)

/-- What serving a stream does: the cursor moves forward, and a group that commits by itself may
commit it. -/
def AnyStreamAct (autoCommit : Bool) (l : Ledger) (a : Act) : Prop :=
  ∃ next, StreamAct next autoCommit l a

lemma AnyStreamAct.legal {autoCommit : Bool} (l : Ledger) (a : Act)
    (h : AnyStreamAct autoCommit l a) : l.Legal a := by
  obtain ⟨next, h⟩ := h
  exact h.legal

/-- Checking whether an auto-commit is due records the attempt and nothing else. -/
lemma autoCommitDue_eq (m : Manager) (now : Time) :
    ∃ last, (m.autoCommitDue cfg now).2 = { m with lastCommit := last } := by
  unfold autoCommitDue
  split
  · split
    · exact ⟨m.lastCommit, rfl⟩
    · exact ⟨some now, rfl⟩
  · exact ⟨some now, rfl⟩

section

variable (h : m.record.WellFormed) (t : Readings)
include h t

/-- `updateStreamCursorLocked`. -/
lemma updateStreamCursor_moves (next : Nat) :
    Moves (StreamAct next m.record.live.autoCommit) m (m.updateStreamCursor cfg t next).2 := by
  have hlegal : ∀ l a, StreamAct next m.record.live.autoCommit l a → l.Legal a :=
    fun _ _ => StreamAct.legal
  unfold updateStreamCursor
  rw [h.live_cursor]
  split
  · exact .refl h
  rename_i hforward
  obtain ⟨r', hr', hmoved, hledger⟩ := h.updateCursor next
    (P := StreamAct next m.record.live.autoCommit) ⟨rfl, Nat.lt_of_not_le hforward⟩
  have hcursor : r'.ledger.cursor = next := by
    rw [hledger]
    rfl
  have hauto : r'.live.autoCommit = m.record.live.autoCommit := hmoved.contract.2.1
  rw [hr']
  simp only
  -- The committed offset follows only when the group commits by itself.
  have hcommit : r'.live.autoCommit → Evolves (StreamAct next m.record.live.autoCommit) m.record
      (r'.updateCommitted next) := fun hon =>
    hmoved.trans hlegal (hmoved.wellFormed.updateCommitted next hcursor.ge
      ⟨hauto ▸ hon, rfl, hcursor⟩).1
  unfold autoCommitCursor
  dsimp only
  split
  · exact .record hmoved
  rename_i hon
  replace hon : r'.live.autoCommit = true := by simpa using hon
  split
  · exact .record (hcommit hon)
  obtain ⟨last, hlast⟩ := autoCommitDue_eq cfg { m with record := r' } t.commitAt
  rw [hlast]
  split
  · exact ⟨hcommit hon, rfl, rfl⟩
  · exact ⟨hmoved, rfl, rfl⟩

/-- `CommitStreamCursor` changes stream groups only. -/
lemma commitStreamCursor_serves (next : Nat) (may : Nat → Prop) :
    Serves (fun l a => m.record.live.mode = .stream ∧ StreamAct next m.record.live.autoCommit l a)
      may m (m.commitStreamCursor cfg t next) := by
  set P := fun l a => m.record.live.mode = .stream ∧ StreamAct next m.record.live.autoCommit l a
  have hlegal : ∀ l a, P l a → l.Legal a := fun _ _ h => h.2.legal
  have hread : Moves P m m.read := moves_read h
  have hmoves := updateStreamCursor_moves cfg (wellFormed_read h) t next
  rw [commitStreamCursor, withGroup_eq h]
  split
  · exact .silent hread
  rename_i hstream
  rw [not_not, hread.evolves.contract.1] at hstream
  rw [hread.evolves.contract.2.1] at hmoves
  exact .silent (hread.trans hlegal (hmoves.mono fun _ _ ha => ⟨hstream, ha⟩))

/-- `peekBatchStreamLocked` moves the cursor only over a stretch without an eligible record. What
it returns lies at or behind the cursor. -/
lemma peekBatch_moves (filter : Filter) (limit : Nat) :
    Moves (AnyStreamAct m.record.live.autoCommit) m (m.peekBatch cfg t filter limit).2.2.2 ∧
      ∀ o ∈ (m.peekBatch cfg t filter limit).1, m.ledger.cursor ≤ o := by
  unfold peekBatch
  simp only
  set batch := m.scanStream cfg t filter limit with hbatch
  split
  · have hmoves := (updateStreamCursor_moves cfg h t batch.2).mono (Q := AnyStreamAct _)
      fun _ _ ha => ⟨_, ha⟩
    split
    · rename_i err n hn
      rw [hn] at hmoves
      exact ⟨hmoves, nofun⟩
    · rename_i n hn
      rw [hn] at hmoves
      exact ⟨hmoves, nofun⟩
  · refine ⟨.refl h, fun o ho => ?_⟩
    have hstart := (mem_scanBatch.1 ho).1
    rw [h.live_cursor] at hstart
    exact (le_scanStart m.log m.ledger.cursor).trans hstart

/-- `PeekBatchStream` hands out what lies at or behind the cursor. -/
lemma peekBatchStream_serves (filter : Filter) (limit : Int) (may : Nat → Prop) :
    Serves (AnyStreamAct m.record.live.autoCommit) may m
      ((m.peekBatchStream cfg t filter limit).1, (m.peekBatchStream cfg t filter limit).2.2) := by
  have hread : Moves (AnyStreamAct m.record.live.autoCommit) m m.read := moves_read h
  have hgroup : m.record.getConsumerGroup.group = some m.record.getConsumerGroup.live :=
    (wellFormed_read h).group_eq
  obtain ⟨hmoves, hfresh⟩ := peekBatch_moves cfg (wellFormed_read h) t filter (batchLimit cfg limit)
  rw [hread.evolves.contract.2.1] at hmoves
  rw [ledger_read h] at hfresh
  unfold peekBatchStream
  simp only [hgroup]
  exact ⟨hread.trans AnyStreamAct.legal hmoves, fun o ho => Or.inl (hfresh o ho)⟩

end

/-- `ClaimBatchStream` hands out what lies at or behind the cursor. -/
lemma claimBatchStream_serves (h : m.record.WellFormed) (t t' : Readings) (filter : Filter)
    (limit : Int) (may : Nat → Prop) :
    Serves (AnyStreamAct m.record.live.autoCommit) may m
      (m.claimBatchStream cfg t t' filter limit) := by
  have hread : Moves (AnyStreamAct m.record.live.autoCommit) m m.read := moves_read h
  obtain ⟨hpeek, hfresh⟩ := peekBatch_moves cfg (wellFormed_read h) t filter (batchLimit cfg limit)
  rw [hread.evolves.contract.2.1] at hpeek
  replace hpeek := hread.trans AnyStreamAct.legal hpeek
  rw [ledger_read h] at hfresh
  rw [claimBatchStream, withGroup_eq h]
  split
  · rename_i messages cursor err n hn
    rw [hn] at hpeek
    exact .silent hpeek
  rename_i messages cursor n hn
  rw [hn] at hpeek hfresh
  have hcommit := (updateStreamCursor_moves cfg hpeek.evolves.wellFormed t' cursor).mono
    (Q := AnyStreamAct n.record.live.autoCommit) fun _ _ ha => ⟨_, ha⟩
  rw [hpeek.evolves.contract.2.1] at hcommit
  replace hcommit := hpeek.trans AnyStreamAct.legal hcommit
  split
  · rename_i err n' hn'
    rw [hn'] at hcommit
    exact .silent hcommit
  · rename_i n' hn'
    rw [hn'] at hcommit
    exact ⟨hcommit, fun o ho => Or.inl (hfresh o ho)⟩

end

end Manager

end FluxMQ
