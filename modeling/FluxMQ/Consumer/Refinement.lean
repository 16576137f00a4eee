import FluxMQ.Consumer.Manager
import FluxMQ.Logstorage.GroupLedger

/-!
# The manager refines the ledger

Every operation of the manager changes the stored group by elementary changes of its ledger, and
this module says which ones each operation makes. What an operation does is described by a class
of acts:

* `ScanAct`: a scan claims the first eligible record or steps over ineligible ones.
* `TakeAct`: a held record is handed over, or settled because its record is dead.
* `StreamAct`: the cursor moves forward, and an auto-commit group may commit it.
* `SettleAct`: records are settled and the committed offset is moved after them.

The results are about one operation from a well-formed record with a bounded ledger. Both are
kept, so that they hold along whole runs.
-/

namespace FluxMQ

open GroupRecord Manager List

/-! ### What the operations do to a ledger -/

/-- What one walk from the cursor does: claim the first eligible record for `consumer`, or step
over a stretch without one. -/
def ScanAct (log : Log) (consumer : String) (ok : Nat → Bool) (l : Ledger) : Act → Prop
  | .claim offset c => c = consumer ∧ l.cursor ≤ offset ∧ offset < log.tail ∧ ok offset ∧
      ∀ i, scanStart log l.cursor ≤ i → i < offset → ¬ ok i
  | .skip next => l.cursor < next ∧ next ≤ log.tail ∧
      ∀ i, scanStart log l.cursor ≤ i → i < next → ¬ ok i
  | _ => False

/-- The record at an offset no longer decodes, or has expired when it is checked. -/
def deadRecord (log : Log) (t : Readings) (offset : Nat) : Bool :=
  match log.read offset with
  | .error .undecodableRecord => true
  | .error .offsetOutOfRange => false
  | .ok e => e.isExpired (t.checkedAt offset)

lemma deadRecord_of_undecodable {log : Log} {offset : Nat} (t : Readings)
    (h : log.read offset = .error .undecodableRecord) : deadRecord log t offset := by
  simp only [deadRecord, h]

lemma deadRecord_of_ok {log : Log} {offset : Nat} {e : Envelope} (t : Readings)
    (h : log.read offset = .ok e) : deadRecord log t offset = e.isExpired (t.checkedAt offset) := by
  simp only [deadRecord, h]

/-- What a redelivery does to the records it may touch: hand one over to `consumer`, or settle one
whose record is dead. -/
def TakeAct (log : Log) (consumer : String) (t : Readings) (may : Nat → Prop) (l : Ledger) :
    Act → Prop
  | .handOver offset c => c = consumer ∧ l.Held offset ∧ may offset
  | .settle offset => may offset ∧ deadRecord log t offset
  | _ => False

/-- What moving a stream cursor to `next` does. Only an auto-commit group commits it. -/
def StreamAct (next : Nat) (autoCommit : Bool) (l : Ledger) : Act → Prop
  | .skip n => n = next ∧ l.cursor < next
  | .commit k => autoCommit ∧ k = next ∧ l.cursor = next
  | _ => False

/-- The committed offset after a settlement: the smallest held offset unless it is already
further, and the cursor when nothing is held. -/
def CommitsTo (l : Ledger) (k : Nat) : Prop :=
  ((∀ o, ¬ l.Held o) ∧ k = l.cursor) ∨
    ∃ least, IsLeast {o | l.Held o} least ∧ k = max l.committed least

/-- What settling one record does. -/
def SettleAct (offset : Nat) (l : Ledger) : Act → Prop
  | .settle o => o = offset
  | .commit k => k ≤ l.cursor ∧ CommitsTo l k
  | _ => False

section

variable {log : Log} {consumer : String} {t : Readings} {l : Ledger} {a : Act}

lemma ScanAct.legal {ok : Nat → Bool} (h : ScanAct log consumer ok l a) : l.Legal a := by
  cases a with
  | claim offset c => exact h.2.1
  | skip next => exact h.1.le
  | handOver | settle | commit => exact h.elim

lemma TakeAct.legal {may : Nat → Prop} (h : TakeAct log consumer t may l a) : l.Legal a := by
  cases a with
  | handOver offset c => exact h.2.1
  | settle offset => trivial
  | claim | skip | commit => exact h.elim

lemma StreamAct.legal {next : Nat} {autoCommit : Bool} (h : StreamAct next autoCommit l a) :
    l.Legal a := by
  cases a with
  | skip n => exact h.1 ▸ h.2.le
  | commit k => exact h.2.1.trans h.2.2.symm |>.le
  | claim | handOver | settle => exact h.elim

lemma SettleAct.legal {offset : Nat} (h : SettleAct offset l a) : l.Legal a := by
  cases a with
  | settle o => trivial
  | commit k => exact h.1
  | claim | skip | handOver => exact h.elim

end

/-! ### Claiming from the cursor -/

/-- The check a claim makes of the record at an offset. -/
def claimable (log : Log) (filter : Filter) (queueName : String) (t : Readings) (offset : Nat) :
    Bool :=
  eligible log filter queueName (t.checkedAt offset) offset

/-- A call on the stored group makes changes that meet `P`, and what it returns without an error
meets `Q`. -/
def Yields {α : Type} (P : Ledger → Act → Prop) (r : GroupRecord) (Q : α → Prop)
    (result : Except ManagerError α × GroupRecord) : Prop :=
  Evolves P r result.2 ∧ ∀ a, result.1 = .ok a → Q a

section

variable {α : Type} {P : Ledger → Act → Prop} {r r' : GroupRecord} {Q : α → Prop}

lemma Yields.error {err : ManagerError} (h : Evolves P r r') : Yields P r Q (.error err, r') :=
  ⟨h, fun _ ha => nomatch ha⟩

lemma Yields.ok {a : α} (h : Evolves P r r') (ha : Q a) : Yields P r Q (.ok a, r') := by
  refine ⟨h, fun b hb => ?_⟩
  obtain rfl : a = b := by simpa using hb
  exact ha

/-- What a write and its continuation reach. -/
lemma Yields.afterWrite {outcome : Outcome}
    {next : GroupRecord → Except ManagerError α × GroupRecord} (hwrite : Evolves P r outcome.1)
    (hnext : ∀ r', Evolves P r r' → Yields P r Q (next r')) :
    Yields P r Q (afterWrite outcome next) := by
  obtain ⟨r', err⟩ := outcome
  cases err with
  | none => exact hnext r' hwrite
  | some err => exact .error hwrite

/-- A claim takes the first eligible record behind the cursor, or steps over ineligible ones. -/
lemma claimFromCursor_yields (h : r.WellFormed) (hb : r.ledger.Bounded) (cfg : ManagerConfig)
    (log : Log) (t : Readings) (consumer : String) (filter : Filter) :
    Yields (ScanAct log consumer (claimable log filter r.live.queueName t)) r
      (r.ledger.cursor ≤ ·) (claimFromCursor cfg log t consumer filter r) := by
  set P := ScanAct log consumer (claimable log filter r.live.queueName t) with hP
  have hstart := le_scanStart log r.ledger.cursor
  have hread : Evolves P r r.getConsumerGroup := h.getConsumerGroup
  have hledger := h.ledger_getConsumerGroup
  unfold claimFromCursor
  simp only [h.live_cursor]
  split
  · exact .error (.refl h)
  split
  · -- An eligible record was found: file it and step behind it.
    rename_i offset next hscan
    obtain ⟨hle, htail, hok, rfl, hskip⟩ := scanCursor_some hscan
    have hcursor := hstart.trans hle
    obtain ⟨r', hr', hevolves, -⟩ := h.claim hb t.storedAt ⟨offset, consumer, t.claimedAt, 1⟩
      hcursor (P := P) ⟨rfl, hcursor, htail, hok, hskip⟩
    rw [hr']
    exact .ok hevolves hcursor
  rename_i next hscan
  obtain ⟨hle, htail, hskip⟩ := scanCursor_none hscan
  split
  · -- Nothing was found in a stretch of records, which the cursor steps over.
    rename_i hlt
    split
    · rename_i hforward
      obtain ⟨r', hr', hmoved, -⟩ := hread.wellFormed.updateCursor next (P := P)
        (hledger ▸ ⟨hforward, htail hlt, hskip⟩)
      rw [hr']
      exact .error (hread.trans (fun _ _ => ScanAct.legal) hmoved)
    · exact .error hread
  · exact .error (.refl h)

end

/-! ### Taking over lapsed entries -/

/-- A walk over pending entries makes changes that meet `P`, and the offset it takes over, if it
does, meets `Q`. -/
def Takes (P : Ledger → Act → Prop) (r : GroupRecord) (Q : Nat → Prop)
    (result : Option Nat × GroupRecord × Poison) : Prop :=
  Evolves P r result.2.1 ∧ ∀ o, result.1 = some o → Q o

section

variable {r : GroupRecord}

/-- The loop over the stealable entries leaves reserved records alone. What it takes over is one
of the entries it walks. -/
lemma stealLoop_takes (h : r.WellFormed) (cfg : ManagerConfig) (log : Log)
    (transfers : List Nat) (t : Readings) (queueName consumer : String) (filter : Filter)
    (ownerOnly : String) (entries : List PendingEntry) (poison : Poison) :
    Takes (TakeAct log consumer t (· ∉ transfers)) r
      (fun o => o ∉ transfers ∧ ∃ e ∈ entries, e.offset = o)
      (stealLoop cfg log transfers t queueName consumer filter ownerOnly entries r poison) := by
  induction entries generalizing r poison with
  | nil => exact ⟨.refl h, fun o ho => nomatch ho⟩
  | cons entry rest ih =>
    set P := TakeAct log consumer t (· ∉ transfers)
    -- The rest of the loop, entered with a record the loop has reached.
    have hrest : ∀ r' poison', Evolves P r r' →
        Takes P r (fun o => o ∉ transfers ∧ ∃ e ∈ entry :: rest, e.offset = o)
          (stealLoop cfg log transfers t queueName consumer filter ownerOnly rest r' poison') := by
      intro r' poison' hr'
      obtain ⟨hevolves, htaken⟩ := ih hr'.wellFormed poison'
      refine ⟨hr'.trans (fun _ _ => TakeAct.legal) hevolves, fun o ho => ?_⟩
      obtain ⟨hfree, e, he, heo⟩ := htaken o ho
      exact ⟨hfree, e, mem_cons_of_mem _ he, heo⟩
    unfold stealLoop
    simp only
    split
    · exact hrest _ _ (.refl h)
    split
    · exact hrest _ _ (.refl h)
    split
    · exact hrest _ _ (.refl h)
    rename_i hreserved
    -- Whether the sweeper owns the entry concerns the poison bookkeeping only.
    generalize (if cfg.maxDeliveryCount ≤ entry.deliveryCount then
      poison.deferTransfer cfg t.poisonAt entry.offset else (false, poison)) = deferred
    split
    · exact hrest _ _ (.refl h)
    -- A dead record is settled, whoever owns its entry.
    have hremove : deadRecord log t entry.offset →
        Evolves P r (r.removePendingEntry t.order entry.consumerId entry.offset).1 := fun hdead =>
      (h.removePendingEntry t.order entry.consumerId entry.offset ⟨hreserved, hdead⟩).1
    split
    · rename_i hread
      exact hrest _ _ (hremove (deadRecord_of_undecodable t hread))
    · exact hrest _ _ (.refl h)
    rename_i e hread
    split
    · rename_i hexpired
      exact hrest _ _ (hremove ((deadRecord_of_ok t hread).trans hexpired))
    split
    · exact hrest _ _ (.refl h)
    have htransfer := h.transferPendingEntry t.order t.storedAt entry.offset entry.consumerId
      consumer (P := P) (fun hheld => ⟨rfl, hheld, hreserved⟩)
    split
    · rename_i r' hr'
      rw [hr'] at htransfer
      refine ⟨htransfer, fun o ho => ?_⟩
      obtain rfl : entry.offset = o := by simpa using ho
      exact ⟨hreserved, entry, mem_cons_self, rfl⟩
    · rename_i r' err hr'
      rw [hr'] at htransfer
      exact hrest _ _ htransfer

/-- Stealable entries are pending. -/
lemma mem_stealableEntries {g : ConsumerGroup} {order : PelOrder}
    {now timeout : Time} {exclude : String} {e : PendingEntry}
    (h : e ∈ g.stealableEntries order now timeout exclude) : ∃ p ∈ g.pel, p.2 = e := by
  obtain ⟨p, hp, rfl⟩ := mem_map.1 h
  exact ⟨p, order.mem_walk.1 (mem_filter.1 hp).1, rfl⟩

lemma mem_selectPending {g : ConsumerGroup} {t : Readings} {consumer : String} {minIdle : Time}
    {limit : Nat} {e : PendingEntry} (h : e ∈ selectPending g t consumer minIdle limit) :
    ∃ p ∈ g.pel, p.2 = e :=
  mem_stealableEntries ((mem_insertionSort _).1 (mem_of_mem_take h))

/-- Stealing leaves reserved records alone and takes over what the group pointer shows. -/
lemma stealWorkFrom_takes (h : r.WellFormed) (cfg : ManagerConfig) (log : Log)
    (transfers : List Nat) (t : Readings) (consumer : String) (filter : Filter)
    (exclude ownerOnly : String) (poison : Poison) :
    Takes (TakeAct log consumer t (· ∉ transfers)) r
      (fun o => o ∉ transfers ∧ ∃ p ∈ r.live.pel, p.2.offset = o)
      (stealWorkFrom cfg log transfers t consumer filter exclude ownerOnly r poison) := by
  obtain ⟨hevolves, htaken⟩ := stealLoop_takes h cfg log transfers t r.live.queueName consumer
    filter ownerOnly (r.live.stealableEntries t.order t.stealAt cfg.visibilityTimeout exclude)
    (poison.prune r.live)
  refine ⟨hevolves, fun o ho => ?_⟩
  obtain ⟨hfree, e, he, rfl⟩ := htaken o ho
  obtain ⟨p, hp, rfl⟩ := mem_stealableEntries he
  exact ⟨hfree, p, hp, rfl⟩

/-- The loop of `ClaimPendingBatch` touches the selected entries only. -/
lemma claimPendingLoop_yields (h : r.WellFormed) (log : Log) (t : Readings) (consumer : String)
    {may : Nat → Prop} (entries : List PendingEntry) (hmay : ∀ e ∈ entries, may e.offset) :
    Yields (TakeAct log consumer t may) r (fun taken => ∀ o ∈ taken, ∃ e ∈ entries, e.offset = o)
      (claimPendingLoop log t consumer entries r) := by
  induction entries generalizing r with
  | nil => exact .ok (.refl h) (fun o ho => absurd ho not_mem_nil)
  | cons entry rest ih =>
    set P := TakeAct log consumer t may
    have hentry : may entry.offset := hmay entry mem_cons_self
    have hrest : ∀ r', Evolves P r r' →
        Yields P r (fun taken => ∀ o ∈ taken, ∃ e ∈ entry :: rest, e.offset = o)
          (claimPendingLoop log t consumer rest r') := by
      intro r' hr'
      obtain ⟨hevolves, htaken⟩ := ih hr'.wellFormed fun e he => hmay e (mem_cons_of_mem _ he)
      refine ⟨hr'.trans (fun _ _ => TakeAct.legal) hevolves, fun taken ht o ho => ?_⟩
      obtain ⟨e, he, heo⟩ := htaken taken ht o ho
      exact ⟨e, mem_cons_of_mem _ he, heo⟩
    have hremove : deadRecord log t entry.offset →
        Evolves P r (r.removePendingEntry t.order entry.consumerId entry.offset).1 := fun hdead =>
      (h.removePendingEntry t.order entry.consumerId entry.offset ⟨hentry, hdead⟩).1
    unfold claimPendingLoop
    split
    · rename_i hread
      exact .afterWrite (hremove (deadRecord_of_undecodable t hread)) hrest
    · exact .error (.refl h)
    rename_i e hread
    split
    · rename_i hexpired
      exact .afterWrite (hremove ((deadRecord_of_ok t hread).trans hexpired)) hrest
    refine .afterWrite (h.transferPendingEntry t.order t.storedAt entry.offset
      entry.consumerId consumer fun hheld => ⟨rfl, hheld, hentry⟩) fun r' hr' => ?_
    obtain ⟨hevolves, htaken⟩ := hrest r' hr'
    split
    · rename_i taken r'' hr''
      rw [hr''] at hevolves htaken
      refine .ok hevolves fun o ho => ?_
      rcases mem_cons.1 ho with rfl | ho
      · exact ⟨entry, mem_cons_self, rfl⟩
      · exact htaken taken rfl o ho
    · rename_i err r'' hr''
      rw [hr''] at hevolves
      exact .error hevolves

end

end FluxMQ
