import FluxMQ.Types.Pel

/-!
# Consumer state of the log store

`logstorage/consumer_state.go` keeps, for each consumer group, a cursor, an ack floor and the
pending entries keyed by offset. The source spreads the entries over shards by `offset % shards`
and indexes them by consumer; both only speed up lookups, so the model keeps one collection. That
an offset is a key is a field of the state.

Times are the milliseconds the source stores. Delivery counts are 16-bit and wrap.
-/

namespace FluxMQ

open Function List

/-- `logstorage.PendingEntry`: one entry of the log store's pending list. -/
structure LogPendingEntry where
  offset : Nat
  consumerId : String
  deliveredAt : Int
  deliveryCount : UInt16
  lastAttempt : Int
  deriving DecidableEq

/-- `pelEntryToTypes`: the entry as consumer groups see it. -/
def LogPendingEntry.toTypes (e : LogPendingEntry) : PendingEntry :=
  { offset := e.offset
    consumerId := e.consumerId
    claimedAt := ofUnixMilli e.lastAttempt
    deliveryCount := e.deliveryCount.toNat }

/-- The log store's state of one consumer group. -/
structure ConsumerState where
  /-- Offset up to which everything is acknowledged. -/
  ackFloor : Nat := 0
  /-- Next offset to deliver. -/
  cursor : Nat := 0
  /-- Number of deliveries made. -/
  delivered : Nat := 0
  /-- Pending entries of all shards. -/
  entries : List LogPendingEntry := []
  /-- Entries are keyed by offset. -/
  nodup : (entries.map fun e => e.offset).Nodup := by exact List.nodup_nil
  deriving DecidableEq

namespace ConsumerState

instance : Inhabited ConsumerState := ⟨{}⟩

variable (cs : ConsumerState)

/-- Whether an offset is pending. -/
def isPending (offset : Nat) : Bool :=
  cs.entries.any fun e => e.offset == offset

/-- Removing entries keeps the remaining offsets distinct. -/
lemma nodup_filter (p : LogPendingEntry → Bool) :
    ((cs.entries.filter p).map fun e => e.offset).Nodup :=
  cs.nodup.sublist ((filter_sublist).map _)

/-- Replacing the entry at an offset by a new one keeps the offsets distinct. -/
lemma nodup_put (e : LogPendingEntry) :
    ((cs.entries.filter (fun x => x.offset != e.offset) ++ [e]).map fun x => x.offset).Nodup := by
  rw [map_append, nodup_append]
  refine ⟨cs.nodup_filter _, by simp, ?_⟩
  simp only [mem_map, mem_filter, map_cons, map_nil, mem_singleton]
  rintro _ ⟨x, ⟨-, hx⟩, rfl⟩ _ rfl
  simpa using hx

/-- Changing entries without touching their offsets keeps the offsets distinct. -/
lemma nodup_map (f : LogPendingEntry → LogPendingEntry) (hf : ∀ e, (f e).offset = e.offset) :
    ((cs.entries.map f).map fun e => e.offset).Nodup := by
  simpa [map_map, comp_def, hf] using cs.nodup

/-- `shard.entries[e.Offset] = e`. -/
def put (e : LogPendingEntry) : ConsumerState :=
  { cs with
    entries := cs.entries.filter (fun x => x.offset != e.offset) ++ [e]
    nodup := cs.nodup_put e }

/-- Change the entry at an offset, if there is one. -/
def modifyEntry (offset : Nat) (f : LogPendingEntry → LogPendingEntry)
    (hf : ∀ e, (f e).offset = e.offset) : ConsumerState :=
  { cs with
    entries := cs.entries.map fun e => if e.offset = offset then f e else e
    nodup := cs.nodup_map _ fun e => by split <;> simp [hf] }

def applyDeliver (offset : Nat) (consumerId : String) (ts : Int) : ConsumerState :=
  { cs.put ⟨offset, consumerId, ts, 1, ts⟩ with
    delivered := cs.delivered + 1
    cursor := if cs.cursor ≤ offset then offset + 1 else cs.cursor }

/-- `applyRestorePending` puts an entry back without moving the cursor. -/
def applyRestorePending (offset : Nat) (consumerId : String) (ts : Int)
    (deliveryCount : UInt16) : ConsumerState :=
  cs.put ⟨offset, consumerId, ts, if deliveryCount = 0 then 1 else deliveryCount, ts⟩

/-- The loop of `tryAdvanceAckFloor`: step the floor over offsets below the cursor that are not
pending. -/
def floorFrom : (fuel floor : Nat) → Nat
  | 0, floor => floor
  | fuel + 1, floor =>
    if floor + 1 < cs.cursor ∧ cs.isPending (floor + 1) = false then floorFrom fuel (floor + 1)
    else floor

def tryAdvanceAckFloor : ConsumerState :=
  { cs with ackFloor := cs.floorFrom (cs.cursor - cs.ackFloor) cs.ackFloor }

/-- `applyAck` removes the entry at an offset and tries to advance the ack floor. -/
def applyAck (offset : Nat) : ConsumerState :=
  if cs.isPending offset then
    tryAdvanceAckFloor
      { cs with
        entries := cs.entries.filter fun e => e.offset != offset
        nodup := cs.nodup_filter _ }
  else cs

/-- `applyNack` charges an attempt at once. -/
def applyNack (offset : Nat) (ts : Int) : ConsumerState :=
  cs.modifyEntry offset
    (fun e => { e with deliveryCount := e.deliveryCount + 1, lastAttempt := ts }) fun _ => rfl

/-- `applyRelease` moves the attempt time without charging an attempt. -/
def applyRelease (offset : Nat) (ts : Int) : ConsumerState :=
  cs.modifyEntry offset (fun e => { e with lastAttempt := ts }) fun _ => rfl

/-- `applyClaim` hands the entry at an offset to another consumer. -/
def applyClaim (offset : Nat) (newConsumerId : String) (ts : Int) : ConsumerState :=
  cs.modifyEntry offset
    (fun e => { e with
      consumerId := newConsumerId, deliveryCount := e.deliveryCount + 1, lastAttempt := ts })
    fun _ => rfl

def applyAdvanceFloor (floor : Nat) : ConsumerState :=
  if cs.ackFloor < floor then { cs with ackFloor := floor } else cs

def applySetCursor (cursor : Nat) : ConsumerState :=
  { cs with cursor }

/-- `Deliver` at local time `now`. -/
def deliver (now : Time) (offset : Nat) (consumerId : String) : ConsumerState :=
  cs.applyDeliver offset consumerId (unixMilli now)

/-- `RestorePending` at local time `now`, which only a zero claim time uses. -/
def restorePending (now : Time) (offset : Nat) (consumerId : String) (claimedAt : Time)
    (deliveryCount : UInt16) : ConsumerState :=
  cs.applyRestorePending offset consumerId
    (unixMilli (if claimedAt = zeroTime then now else claimedAt)) deliveryCount

def releaseAt (offset : Nat) (attemptedAt : Time) : ConsumerState :=
  cs.applyRelease offset (unixMilli attemptedAt)

/-- `Claim` at local time `now`. -/
def claim (now : Time) (offset : Nat) (newConsumerId : String) : ConsumerState :=
  cs.applyClaim offset newConsumerId (unixMilli now)

/-- `GetAllPending`: the pending list as a group's PEL, each entry filed under its consumer. -/
def allPending : Pel :=
  cs.entries.map fun e => (e.consumerId, e.toTypes)

/-! ### The entry at an offset -/

/-- The entry at an offset. -/
def entryAt (cs : ConsumerState) (offset : Nat) : Option LogPendingEntry :=
  cs.entries.find? fun e => e.offset == offset

variable {cs} {offset : Nat} {consumer : String} {ts : Int}

lemma isPending_eq : cs.isPending offset = (cs.entryAt offset).isSome := by
  rw [entryAt, isSome_find?]
  rfl

lemma entryAt_eq_some_iff {e : LogPendingEntry} :
    cs.entryAt offset = some e ↔ e ∈ cs.entries ∧ e.offset = offset :=
  find?_key_eq_some_iff cs.nodup

lemma entryAt_put (e : LogPendingEntry) :
    (cs.put e).entryAt offset = if e.offset = offset then some e else cs.entryAt offset := by
  ext x
  rw [entryAt_eq_some_iff]
  split
  · -- The new entry is the only one left at its offset.
    rename_i he
    simp only [put, mem_append, mem_filter, mem_singleton, bne_iff_ne]
    constructor
    · rintro ⟨⟨-, hne⟩ | rfl, hx⟩
      · exact absurd (hx.trans he.symm) hne
      · rfl
    · rintro ⟨⟩
      exact ⟨.inr rfl, he⟩
  · rename_i he
    rw [entryAt_eq_some_iff]
    simp only [put, mem_append, mem_filter, mem_singleton, bne_iff_ne]
    constructor
    · rintro ⟨⟨hmem, -⟩ | rfl, hx⟩
      · exact ⟨hmem, hx⟩
      · exact absurd hx he
    · rintro ⟨hmem, hx⟩
      exact ⟨.inl ⟨hmem, fun h => he (h.symm.trans hx)⟩, hx⟩

lemma entryAt_modifyEntry {o : Nat} {f : LogPendingEntry → LogPendingEntry}
    {hf : ∀ e, (f e).offset = e.offset} : (cs.modifyEntry o f hf).entryAt offset =
      if o = offset then (cs.entryAt offset).map f else cs.entryAt offset := by
  have hkey : ((fun e : LogPendingEntry => e.offset == offset) ∘
      fun e => if e.offset = o then f e else e) = fun e => e.offset == offset := by
    funext e
    by_cases he : e.offset = o <;> simp [he, hf]
  have hfind : (cs.modifyEntry o f hf).entryAt offset =
      (cs.entryAt offset).map fun e => if e.offset = o then f e else e := by
    rw [entryAt, modifyEntry, find?_map, hkey, entryAt]
  rw [hfind]
  cases hentry : cs.entryAt offset with
  | none => simp
  | some e =>
    have he : e.offset = offset := (entryAt_eq_some_iff.1 hentry).2
    by_cases ho : o = offset <;> simp [ho, he, eq_comm]

lemma entryAt_applyAck {o : Nat} :
    (cs.applyAck o).entryAt offset = if o = offset then none else cs.entryAt offset := by
  by_cases hpending : cs.isPending o
  · have hentries : (cs.applyAck o).entries = cs.entries.filter fun e => e.offset != o := by
      rw [applyAck, if_pos hpending]
      rfl
    ext x
    rw [entryAt_eq_some_iff, hentries]
    split
    · rename_i ho
      simp [ho]
    rename_i ho
    rw [entryAt_eq_some_iff]
    simp only [mem_filter, bne_iff_ne]
    exact ⟨fun h => ⟨h.1.1, h.2⟩, fun h => ⟨⟨h.1, fun hx => ho (hx.symm.trans h.2)⟩, h.2⟩⟩
  · have hself : cs.applyAck o = cs := by rw [applyAck, if_neg hpending]
    rw [hself]
    split
    · rename_i ho
      subst ho
      -- An offset that is not pending has no entry to remove.
      rw [isPending_eq] at hpending
      simpa using hpending
    · rfl

/-! ### Who holds an offset -/

lemma distinct_allPending : cs.allPending.Distinct := by
  simpa [Pel.Distinct, allPending, comp_def, LogPendingEntry.toTypes] using cs.nodup

lemma filed_allPending : cs.allPending.Filed := by
  simp [Pel.Filed, allPending, LogPendingEntry.toTypes]

/-- The consumer that holds an offset is the one its entry names. -/
lemma owner_allPending (o : Nat) :
    cs.allPending.owner o = (cs.entryAt o).map fun e => e.consumerId := by
  unfold allPending Pel.owner
  rw [find?_map, Option.map_map]
  rfl

lemma isPending_iff : cs.isPending offset ↔ cs.allPending.owner offset ≠ none := by
  rw [owner_allPending, isPending_eq, Ne, Option.map_eq_none_iff, Option.isSome_iff_ne_none]

lemma owner_applyDeliver : (cs.applyDeliver offset consumer ts).allPending.owner =
    update cs.allPending.owner offset (some consumer) := by
  funext o
  show (cs.put ⟨offset, consumer, ts, 1, ts⟩).allPending.owner o = _
  rw [owner_allPending, entryAt_put, update_apply, owner_allPending]
  by_cases ho : offset = o
  · rw [if_pos ho, if_pos ho.symm]
    rfl
  · rw [if_neg ho, if_neg (Ne.symm ho)]

@[simp]
lemma cursor_applyAck : (cs.applyAck offset).cursor = cs.cursor := by
  unfold applyAck
  split <;> rfl

lemma owner_applyAck :
    (cs.applyAck offset).allPending.owner = update cs.allPending.owner offset none := by
  funext o
  rw [owner_allPending, entryAt_applyAck, update_apply, owner_allPending]
  by_cases ho : offset = o
  · rw [if_pos ho, if_pos ho.symm]
    rfl
  · rw [if_neg ho, if_neg (Ne.symm ho)]

lemma owner_applyRelease : (cs.applyRelease offset ts).allPending.owner = cs.allPending.owner := by
  funext o
  rw [owner_allPending, applyRelease, entryAt_modifyEntry, owner_allPending]
  split
  · rw [Option.map_map]
    rfl
  · rfl

lemma owner_applyClaim : (cs.applyClaim offset consumer ts).allPending.owner =
    update cs.allPending.owner offset ((cs.allPending.owner offset).map fun _ => consumer) := by
  funext o
  rw [owner_allPending, applyClaim, entryAt_modifyEntry, update_apply, owner_allPending,
    owner_allPending]
  by_cases ho : offset = o
  · rw [if_pos ho, if_pos ho.symm, ho, Option.map_map, Option.map_map]
    rfl
  · rw [if_neg ho, if_neg (Ne.symm ho)]

/-! ### Changes to one entry -/

/-- Changing an entry that is not there changes nothing. -/
lemma modifyEntry_eq_self (f : LogPendingEntry → LogPendingEntry)
    (hf : ∀ e, (f e).offset = e.offset) (h : cs.isPending offset = false) : cs.modifyEntry offset f hf = cs := by
  have hentries : (cs.entries.map fun e => if e.offset = offset then f e else e) = cs.entries := by
    refine (map_congr_left fun e he => ?_).trans (map_id _)
    have hne : e.offset ≠ offset := by
      simp only [isPending, any_eq_false, beq_iff_eq] at h
      exact h e he
    rw [if_neg hne, id]
  cases cs
  simp_all [modifyEntry]

end ConsumerState

end FluxMQ
