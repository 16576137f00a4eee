import FluxMQ.Logstorage.Records
import FluxMQ.Queue.DeadLetter

/-!
# What a dead-letter transfer keeps

The key of a transfer tells queues, groups and offsets apart, but not two records that stood at one
offset of two queues of one name: a queue that was deleted and created again, or local queues of two
nodes. A copy found under the key is then taken for the copy of another record. A record also gets a
second copy when it is moved by another group, or to another dead-letter queue than before.

`Undisturbed` rules these steps out. `Broker.Sound` is the invariant of all the others: the copies
carry key and payload of their records and are found by the index (`Stored`), and the record of a
transfer under way stands where it was read (`TransferValid`). Appends, deletions and all other steps
are brought to three forms, and each part of the invariant is shown once for each form. The result is
`dead_letters_kept`; `dead_letters_lost` has runs in which a record is lost and in which one is
doubled.
-/

namespace FluxMQ

open Function Adapter Broker Transition Origin

/-! ### The key of a transfer -/

private lemma append_inj_of_utf8ByteSize {a b c d : String} (h : a ++ b = c ++ d)
    (hsize : a.utf8ByteSize = c.utf8ByteSize) : a = c ∧ b = d := by
  have hbytes : a.toByteArray ++ b.toByteArray = c.toByteArray ++ d.toByteArray := by
    rw [← String.toByteArray_append, ← String.toByteArray_append, h]
  have hfirst : a = c := String.toByteArray_inj.1 (ByteArray.append_inj_left hbytes hsize)
  subst hfirst
  exact ⟨rfl, String.append_right_inj a |>.1 h⟩

/-- A numeral before a colon is told apart from what follows. -/
private lemma numeral_colon_inj {n n' : Nat} {r r' : String}
    (h : toString n ++ (":" ++ r) = toString n' ++ (":" ++ r')) : n = n' ∧ r = r' := by
  have hlist := congrArg String.toList h
  simp only [String.toList_append] at hlist
  obtain ⟨hn, hr⟩ := List.append_cons_inj_of_first (Nat.not_mem_repr rfl n)
    (Nat.not_mem_repr rfl n') hlist
  exact ⟨Nat.eq_of_toList_repr hn, String.toList_injective hr⟩

/-- The text of a transfer names queue, group and offset without ambiguity. -/
lemma transferText_injective {q q' g g' : String} {o o' : Nat}
    (h : transferText q g o = transferText q' g' o') : q = q' ∧ g = g' ∧ o = o' := by
  simp only [transferText, String.append_assoc] at h
  obtain ⟨hqsize, hrest⟩ := numeral_colon_inj h
  obtain ⟨hq, hgroup⟩ := append_inj_of_utf8ByteSize hrest hqsize
  obtain ⟨hgsize, hrest'⟩ := numeral_colon_inj ((String.append_right_inj ":").1 hgroup)
  obtain ⟨hg, hoffset⟩ := append_inj_of_utf8ByteSize hrest' hgsize
  have htail := congrArg String.toList ((String.append_right_inj ":").1 hoffset)
  exact ⟨hq, hg, Nat.eq_of_toList_repr htail⟩

lemma dlqTransferID_injective {digest : String → String} (hdigest : Function.Injective digest)
    {q q' g g' : String} {o o' : Nat}
    (h : dlqTransferID digest q g o = dlqTransferID digest q' g' o') :
    q = q' ∧ g = g' ∧ o = o' := by
  exact transferText_injective (hdigest ((String.append_right_inj "dlq-").1 h))

lemma dlqTransferID_ne_empty (digest : String → String) (q g : String) (o : Nat) :
    dlqTransferID digest q g o ≠ "" := by
  intro h
  have hlist := congrArg String.toList h
  simp [dlqTransferID] at hlist

/-- The key of the transfer that made a copy. -/
def Origin.key {ν : Type*} (cfg : BrokerConfig) (origin : Origin ν) : String :=
  dlqTransferID cfg.digest origin.record.position.queueName origin.groupId
    origin.record.position.offset

namespace Broker

variable {ν : Type*} {cfg : BrokerConfig} {b b' : Broker ν}

/-! ### What stands where -/

/-- The record that stands at a position. -/
def recordAt (b : Broker ν) (p : Position ν) : Option (RecordId ν) :=
  match b.read p with
  | some (.envelope e) => some ⟨p, (b.tags p).serial, e.payload⟩
  | _ => none

/-- A dead-letter record made from a record stands at a position. -/
structure MadeFrom (b : Broker ν) (p : Position ν) (origin : Origin ν) : Prop where
  stored : ∃ e, b.read p = some (.envelope e)
  tag : (b.tags p).origin = some origin

/-- What holds of the stored records: a copy carries the key and the payload of the record that it
was made from, is found under its key, and is the only one of that record. -/
structure Stored (cfg : BrokerConfig) (b : Broker ν) : Prop where
  plain : ∀ p e, b.read p = some (.envelope e) → (b.tags p).origin = none → e.transferId = ""
  copied : ∀ p e origin, b.read p = some (.envelope e) → (b.tags p).origin = some origin →
    e.transferId = origin.key cfg ∧ e.payload = origin.record.payload
  indexed : ∀ p e, b.read p = some (.envelope e) → e.transferId ≠ "" →
    ((b.stores p.place).dedupe p.queueName).lookup e.transferId = some p.offset
  single : ∀ p p' origin origin', b.MadeFrom p origin → b.MadeFrom p' origin' →
    origin.record = origin'.record → p = p'

/-- What holds of a transfer under way: the record that was read still stands where it was read,
and once a copy is reported to be written there is one. -/
structure TransferValid (cfg : BrokerConfig) (b : Broker ν)
    (t : DlqTransfer ν) : Prop where
  position : t.record.position =
    ⟨place cfg t.node t.queueName, t.queueName, t.source.offset⟩
  standing : b.recordAt t.record.position = some t.record
  message : t.message.payload = t.record.payload
  secured : t.outcome = some .written → ∃ dest offset, t.destination = some dest ∧
    b.MadeFrom ⟨dest.1, dest.2, offset⟩ ⟨t.record, t.groupId⟩

/-! ### Steps that leave the records alone -/

/-- The same records stand at the same positions. -/
structure Frame (b b' : Broker ν) : Prop where
  read : ∀ p, b'.read p = b.read p
  dedupe : ∀ place, (b'.stores place).dedupe = (b.stores place).dedupe
  tags : b'.tags = b.tags

lemma Frame.refl (b : Broker ν) : Frame b b := ⟨fun _ => rfl, fun _ => rfl, rfl⟩

lemma frame_setStore [DecidableEq ν] {place : Place ν} {a : Adapter}
    (h : Adapter.SameRecords (b.stores place) a) : Frame b (b.setStore place a) := by
  refine ⟨fun p => ?_, fun other => ?_, rfl⟩
  · by_cases hplace : p.place = place
    · show (update b.stores place a p.place).readRecord _ _ = _
      rw [hplace, update_self, h.read, ← hplace]
      rfl
    · show (update b.stores place a p.place).readRecord _ _ = _
      rw [update_of_ne hplace]
      rfl
  · by_cases hplace : other = place
    · subst hplace
      exact (congrArg dedupe (update_self ..)).trans h.dedupe
    · exact congrArg dedupe (update_of_ne hplace _ _)

lemma Frame.recordAt (h : Frame b b') (p : Position ν) : b'.recordAt p = b.recordAt p := by
  rw [Broker.recordAt, Broker.recordAt, h.read, h.tags]

variable {p : Position ν}

lemma Frame.madeFrom_iff (h : Frame b b') {origin : Origin ν} :
    b'.MadeFrom p origin ↔ b.MadeFrom p origin := by
  constructor
  · rintro ⟨⟨e, he⟩, htag⟩
    exact ⟨⟨e, h.read p ▸ he⟩, h.tags ▸ htag⟩
  · rintro ⟨⟨e, he⟩, htag⟩
    exact ⟨⟨e, (h.read p).trans he⟩, h.tags.symm ▸ htag⟩

lemma Stored.frame (hb : b.Stored cfg) (h : Frame b b') : b'.Stored cfg where
  plain := by
    intro p e he htag
    rw [h.read] at he
    rw [h.tags] at htag
    exact hb.plain p e he htag
  copied := by
    intro p e origin he htag
    rw [h.read] at he
    rw [h.tags] at htag
    exact hb.copied p e origin he htag
  indexed := by
    intro p e he hkey
    rw [h.read] at he
    rw [h.dedupe]
    exact hb.indexed p e he hkey
  single := by
    intro p p' origin origin' hp hp'
    exact hb.single p p' origin origin' (h.madeFrom_iff.1 hp) (h.madeFrom_iff.1 hp')

variable {t : DlqTransfer ν}

lemma TransferValid.frame (ht : TransferValid cfg b t) (h : Frame b b') :
    TransferValid cfg b' t where
  __ := ht
  standing := (h.recordAt _).trans ht.standing
  secured := by
    intro hwritten
    obtain ⟨dest, offset, hdest, hmade⟩ := ht.secured hwritten
    exact ⟨dest, offset, hdest, h.madeFrom_iff.2 hmade⟩

/-! ### Steps that append a record -/

section

variable {place : Place ν} {queueName : String} {a : Adapter} {offset : Nat} {e : Envelope}
  {origin : Option (Origin ν)}

/-- A position where a record stands is not the one that is appended at. -/
lemma ne_of_read (h : Adapter.Appended (b.stores place) a queueName offset (.envelope e))
    {r : Record} (hp : b.read p = some r) : p ≠ ⟨place, queueName, offset⟩ := by
  rintro rfl
  exact absurd (h.fresh.symm.trans hp) nofun

variable [DecidableEq ν]

/-- The records after an append. -/
lemma read_appended (h : Adapter.Appended (b.stores place) a queueName offset (.envelope e))
    (p : Position ν) : (b.appended place queueName a offset origin).read p =
      if p = ⟨place, queueName, offset⟩ then some (.envelope e) else b.read p := by
  obtain ⟨pplace, pqueue, poffset⟩ := p
  show (update b.stores place a pplace).readRecord pqueue poffset = _
  by_cases hplace : pplace = place
  · subst hplace
    rw [update_self]
    split
    · rename_i hp
      obtain ⟨-, rfl, rfl⟩ := Position.mk.inj hp
      exact h.self
    · rename_i hp
      exact h.other _ _ fun heq => hp (by rw [(Prod.mk.inj heq).1, (Prod.mk.inj heq).2])
  · rw [update_of_ne hplace, if_neg fun hp => hplace (Position.mk.inj hp).1]
    rfl

lemma tags_appended (p : Position ν) : (b.appended place queueName a offset origin).tags p =
    if p = ⟨place, queueName, offset⟩ then { serial := b.nextSerial, origin } else b.tags p := by
  split
  · rename_i hp
    subst hp
    exact update_self ..
  · rename_i hp
    exact update_of_ne hp _ _

section

variable (h : Adapter.Appended (b.stores place) a queueName offset (.envelope e)) {p : Position ν}
include h

lemma recordAt_appended {record : RecordId ν} (hp : b.recordAt p = some record) :
    (b.appended place queueName a offset origin).recordAt p = some record := by
  unfold recordAt at hp ⊢
  split at hp
  · rename_i e' he'
    have hne := ne_of_read h he'
    rw [read_appended h, if_neg hne, he', tags_appended, if_neg hne]
    exact hp
  · cases hp

lemma madeFrom_appended {o : Origin ν} (hp : b.MadeFrom p o) :
    (b.appended place queueName a offset origin).MadeFrom p o := by
  obtain ⟨⟨e', he'⟩, htag⟩ := hp
  have hne := ne_of_read h he'
  exact ⟨⟨e', by rw [read_appended h, if_neg hne, he']⟩, by rw [tags_appended, if_neg hne, htag]⟩

/-- A copy that stands after an append stood before it or is the one appended. -/
lemma madeFrom_of_appended {o : Origin ν}
    (hp : (b.appended place queueName a offset origin).MadeFrom p o) :
    (p = ⟨place, queueName, offset⟩ ∧ origin = some o) ∨ b.MadeFrom p o := by
  obtain ⟨⟨e', he'⟩, htag⟩ := hp
  rw [read_appended h] at he'
  rw [tags_appended] at htag
  split at he'
  · rename_i hself
    rw [if_pos hself] at htag
    exact .inl ⟨hself, htag⟩
  · rename_i hself
    rw [if_neg hself] at htag
    exact .inr ⟨⟨e', he'⟩, htag⟩

end

lemma TransferValid.appended (ht : TransferValid cfg b t)
    (h : Adapter.Appended (b.stores place) a queueName offset (.envelope e)) :
    TransferValid cfg (b.appended place queueName a offset origin) t where
  __ := ht
  standing := recordAt_appended h ht.standing
  secured := by
    intro hwritten
    obtain ⟨dest, at_, hdest, hmade⟩ := ht.secured hwritten
    exact ⟨dest, at_, hdest, madeFrom_appended h hmade⟩

/-- An append keeps what holds of the stored records if the new record fits in: it carries its key
and payload, the index has its key and has lost no other, and no copy of the same record stands
anywhere. -/
lemma Stored.appended (hb : b.Stored cfg)
    (h : Adapter.Appended (b.stores place) a queueName offset (.envelope e))
    (hplain : origin = none → e.transferId = "")
    (hcopied : ∀ o, origin = some o → e.transferId = o.key cfg ∧ e.payload = o.record.payload)
    (hself : e.transferId ≠ "" → (a.dedupe queueName).lookup e.transferId = some offset)
    (hother : ∀ q k, k ≠ "" → (q, k) ≠ (queueName, e.transferId) →
      (a.dedupe q).lookup k = ((b.stores place).dedupe q).lookup k)
    (hfree : ∀ o p, e.transferId ≠ "" → b.read ⟨place, queueName, p⟩ ≠ some (.envelope o) ∨
      o.transferId ≠ e.transferId)
    (hsingle : ∀ o p o', origin = some o → b.MadeFrom p o' → o.record ≠ o'.record) :
    (b.appended place queueName a offset origin).Stored cfg where
  plain := by
    intro p e' he' htag
    rw [read_appended h] at he'
    rw [tags_appended] at htag
    split at he'
    · rename_i hp
      rw [if_pos hp] at htag
      cases he'
      exact hplain htag
    · rename_i hp
      rw [if_neg hp] at htag
      exact hb.plain p e' he' htag
  copied := by
    intro p e' o he' htag
    rw [read_appended h] at he'
    rw [tags_appended] at htag
    split at he'
    · rename_i hp
      rw [if_pos hp] at htag
      cases he'
      exact hcopied o htag
    · rename_i hp
      rw [if_neg hp] at htag
      exact hb.copied p e' o he' htag
  indexed := by
    intro p e' he' hkey
    rw [read_appended h] at he'
    show ((update b.stores place a p.place).dedupe p.queueName).lookup _ = _
    split at he'
    · rename_i hp
      subst hp
      cases he'
      rw [update_self]
      exact hself hkey
    by_cases hplace : p.place = place
    · rw [hplace, update_self, hother]
      · exact hplace ▸ hb.indexed p e' he' hkey
      · exact hkey
      -- No other record of the queue has the new one's key.
      intro heq
      obtain ⟨hqueue, hsame⟩ := Prod.mk.inj heq
      have hread : b.read ⟨place, queueName, p.offset⟩ = some (.envelope e') := by
        rw [← hplace, ← hqueue]
        exact he'
      rcases hfree e' p.offset (hsame ▸ hkey) with hne | hne
      · exact hne hread
      · exact hne hsame
    · rw [update_of_ne hplace]
      exact hb.indexed p e' he' hkey
  single := by
    intro p p' o o' hp hp' hrecord
    rcases madeFrom_of_appended h hp with ⟨rfl, ho⟩ | hp
    · rcases madeFrom_of_appended h hp' with ⟨rfl, -⟩ | hp'
      · rfl
      · exact absurd hrecord (hsingle o p' o' ho hp')
    · rcases madeFrom_of_appended h hp' with ⟨rfl, ho'⟩ | hp'
      · exact absurd hrecord.symm (hsingle o' p o ho' hp)
      · exact hb.single p p' o o' hp hp' hrecord

end

variable [DecidableEq ν]

/-! ### Steps that delete a queue -/

section

variable {place : Place ν} {queueName : String}

/-- The cluster after a queue was deleted. -/
def deleted (b : Broker ν) (place : Place ν) (queueName : String) : Broker ν :=
  b.setStore place ((b.stores place).deleteQueue queueName).1

lemma read_deleted (p : Position ν) : (b.deleted place queueName).read p =
    if (p.place, p.queueName) = (place, queueName) then none else b.read p := by
  show (update b.stores place _ p.place).readRecord p.queueName p.offset = _
  by_cases hplace : p.place = place
  · rw [hplace, update_self, readRecord_deleteQueue]
    by_cases hqueue : p.queueName = queueName
    · rw [if_pos hqueue, if_pos (by rw [hqueue])]
    · rw [if_neg hqueue, if_neg fun h => hqueue (Prod.mk.inj h).2, ← hplace]
      rfl
  · rw [update_of_ne hplace, if_neg fun h => hplace (Prod.mk.inj h).1]
    rfl

/-- A record that stands after a deletion stood before it, in another queue. -/
lemma read_of_deleted {r : Record} (h : (b.deleted place queueName).read p = some r) :
    (p.place, p.queueName) ≠ (place, queueName) ∧ b.read p = some r := by
  rw [read_deleted] at h
  split at h
  · cases h
  · rename_i hne
    exact ⟨hne, h⟩

lemma madeFrom_of_deleted {origin : Origin ν}
    (h : (b.deleted place queueName).MadeFrom p origin) : b.MadeFrom p origin := by
  obtain ⟨⟨e, he⟩, htag⟩ := h
  exact ⟨⟨e, (read_of_deleted he).2⟩, htag⟩

lemma Stored.deleted (hb : b.Stored cfg) : (b.deleted place queueName).Stored cfg where
  plain := fun p e he htag => hb.plain p e (read_of_deleted he).2 htag
  copied := fun p e origin he htag => hb.copied p e origin (read_of_deleted he).2 htag
  indexed := by
    intro p e he hkey
    obtain ⟨hne, he⟩ := read_of_deleted he
    have hindexed := hb.indexed p e he hkey
    show ((update b.stores place _ p.place).dedupe p.queueName).lookup _ = _
    by_cases hplace : p.place = place
    · have hqueue : p.queueName ≠ queueName := fun h => hne (by rw [hplace, h])
      rw [hplace, update_self, dedupe_deleteQueue_of_ne _ hqueue, ← hplace]
      exact hindexed
    · rw [update_of_ne hplace]
      exact hindexed
  single := fun p p' origin origin' hp hp' =>
    hb.single p p' origin origin' (madeFrom_of_deleted hp) (madeFrom_of_deleted hp')

/-- A deletion disturbs no transfer that is neither from the queue nor written to it. -/
lemma TransferValid.deleted (ht : TransferValid cfg b t)
    (hsource : (Broker.place cfg t.node t.queueName, t.queueName) ≠ (place, queueName))
    (hdest : t.destination ≠ some (place, queueName)) :
    TransferValid cfg (b.deleted place queueName) t where
  __ := ht
  standing := by
    have hstanding := ht.standing
    unfold recordAt at hstanding ⊢
    rw [read_deleted, if_neg (by rw [ht.position]; exact hsource)]
    exact hstanding
  secured := by
    intro hwritten
    obtain ⟨dest, offset, hd, ⟨e, he⟩, htag⟩ := ht.secured hwritten
    refine ⟨dest, offset, hd, ⟨e, ?_⟩, htag⟩
    rw [read_deleted, if_neg fun h => hdest (by rw [hd, ← h])]
    exact he

end

/-! ### The invariant -/

/-- What holds of the cluster. -/
structure Sound (cfg : BrokerConfig) (b : Broker ν) : Prop where
  stored : b.Stored cfg
  transfers : ∀ t ∈ b.inFlight, TransferValid cfg b t

/-- The dead-letter queue of a transfer, as its source is configured. -/
def destinationOf (cfg : BrokerConfig) (b : Broker ν) (t : DlqTransfer ν) :
    Option (Place ν × String) :=
  ((b.stores (place cfg t.node t.queueName)).configs t.queueName).map fun config =>
    let dlq := dlqTopic cfg { config with name := t.queueName }
    (place cfg t.node dlq, dlq)

/-- Nothing stands in the way of the append of a transfer: what stands in its dead-letter queue under
the names and the offset of its source was made from the same record, and every copy of that record
was made for the same group and stands in the same queue. -/
def Unclaimed (cfg : BrokerConfig) (b : Broker ν) (t : DlqTransfer ν) : Prop :=
  ∀ dest ∈ b.destinationOf cfg t, ∀ p origin, b.MadeFrom p origin →
    ((p.place, p.queueName) = dest → origin.record.position.queueName = t.queueName →
      origin.groupId = t.groupId → origin.record.position.offset = t.source.offset →
        origin.record = t.record) ∧
    (origin.record = t.record → (p.place, p.queueName) = dest ∧ origin.groupId = t.groupId)

/-- The steps that disturb no transfer: a queue is deleted only while no transfer from it or to it is
under way, and an append finds nothing in its way. -/
def Undisturbed (cfg : BrokerConfig) (b : Broker ν) : BrokerAction ν → Prop
  | .deleteQueue node queueName =>
    ∀ t ∈ b.inFlight,
      (place cfg t.node t.queueName, t.queueName) ≠ (place cfg node queueName, queueName) ∧
        t.destination ≠ some (place cfg node queueName, queueName)
  | .write _ node queueName groupId offset =>
    ∀ t ∈ b.transferOf node queueName groupId offset, b.Unclaimed cfg t
  | _ => True

/-! ### The append of a transfer -/

/-- What the parts of a write leave: the records as they should be, every transfer valid, and a copy
of the record where the write is reported successful. -/
structure Writes (cfg : BrokerConfig) (b b' : Broker ν) (origin : Origin ν) (success : Bool)
    (dest : Place ν × String) : Prop where
  stored : b'.Stored cfg
  transfers : ∀ t, TransferValid cfg b t → TransferValid cfg b' t
  inFlight : b'.inFlight = b.inFlight
  copy : success → ∃ offset, b'.MadeFrom ⟨dest.1, dest.2, offset⟩ origin

section

variable {attempt : WriteAttempt} {place : Place ν} {dlq : String} {e : Envelope}
  {origin : Origin ν}

omit [DecidableEq ν] in
lemma key_ne_empty (origin : Origin ν) : origin.key cfg ≠ "" :=
  dlqTransferID_ne_empty cfg.digest _ _ _

omit [DecidableEq ν] in
/-- A write that is not made. -/
lemma Writes.refused (hb : b.Stored cfg) (dest : Place ν × String) :
    Writes cfg b b origin false dest :=
  ⟨hb, fun _ ht => ht, rfl, nofun⟩

omit [DecidableEq ν] in
/-- Where a copy under the key of a transfer stands, the copy is found. -/
lemma Stored.carriesKey (hb : b.Stored cfg) (hp : b.read p = some (.envelope e))
    (hkey : e.transferId ≠ "") :
    ((b.stores p.place).dedupe p.queueName).lookup e.transferId = some p.offset ∧
      (b.stores p.place).carriesKey p.queueName e.transferId p.offset :=
  ⟨hb.indexed p e hp hkey, carriesKey_iff.2 ⟨e, hp, rfl⟩⟩

lemma appendTransferOnce_spec (hb : b.Stored cfg) (hpayload : e.payload = origin.record.payload)
    (hsame : ∀ p o, b.MadeFrom p o → (p.place, p.queueName) = (place, dlq) →
      o.key cfg = origin.key cfg → o = origin)
    (hother : ∀ p o, b.MadeFrom p o → o.record = origin.record →
      (p.place, p.queueName) = (place, dlq) ∧ o.groupId = origin.groupId) :
    Writes cfg b (b.appendTransferOnce cfg attempt place dlq (origin.key cfg) e origin).1 origin
      (b.appendTransferOnce cfg attempt place dlq (origin.key cfg) e origin).2 (place, dlq) := by
  unfold appendTransferOnce
  split
  · exact .refused hb _
  split
  · exact .refused hb _
  · -- The key is taken: the record that carries it was made from the same one.
    rename_i offset happend
    obtain ⟨-, e', he', hkey⟩ := appendOnce_found happend
    have hread : b.read ⟨place, dlq, offset⟩ = some (.envelope e') := he'
    refine ⟨hb, fun _ ht => ht, rfl, fun _ => ⟨offset, ⟨e', hread⟩, ?_⟩⟩
    cases htag : (b.tags ⟨place, dlq, offset⟩).origin with
    | none => exact absurd (hkey.symm.trans (hb.plain _ e' hread htag)) (key_ne_empty origin)
    | some o =>
      rw [hsame ⟨place, dlq, offset⟩ o ⟨⟨e', hread⟩, htag⟩ rfl
        ((hb.copied _ e' o hread htag).1.symm.trans hkey)]
  · -- The key is free: no record of the queue carries it, and no copy stands anywhere else.
    rename_i a offset happend
    obtain ⟨happended, hnot, hlookup, hlookups⟩ := appendOnce_spec happend
    have hfree : ∀ p e', b.read ⟨place, dlq, p⟩ = some (.envelope e') →
        e'.transferId ≠ origin.key cfg := by
      intro p e' he' hkey
      obtain ⟨hindexed, hcarries⟩ := hb.carriesKey he' (hkey ▸ key_ne_empty origin)
      rw [hkey] at hindexed hcarries
      exact absurd hcarries (Bool.eq_false_iff.1 (hnot p hindexed))
    refine ⟨hb.appended happended nofun ?_ (fun _ => hlookup) ?_ ?_ ?_,
      fun t ht => ht.appended happended, rfl,
      fun _ => ⟨offset, ⟨_, (read_appended happended _).trans (if_pos rfl)⟩, ?_⟩⟩
    · rintro o ⟨⟩
      exact ⟨rfl, hpayload⟩
    · exact fun q k _ hne => hlookups q k hne
    · intro e' p _
      by_cases hread : b.read ⟨place, dlq, p⟩ = some (.envelope e')
      · exact .inr (hfree p e' hread)
      · exact .inl hread
    · rintro o p o' ⟨⟩ hmade hrecord
      obtain ⟨hplace, hgroup⟩ := hother p o' hmade hrecord.symm
      obtain ⟨⟨e', he'⟩, htag⟩ := hmade
      have hkey : e'.transferId = origin.key cfg := by
        rw [(hb.copied p e' o' he' htag).1, key, key, ← hrecord, hgroup]
      obtain ⟨hp, hq⟩ := Prod.mk.inj hplace
      exact hfree p.offset e' (by rw [← hp, ← hq]; exact he') hkey
    · rw [tags_appended, if_pos rfl]

lemma ensureDLQ_spec (b : Broker ν) (attempt : WriteAttempt) (place : Place ν) (dlq : String) :
    Frame b (b.ensureDLQ attempt place dlq).1 ∧
      (b.ensureDLQ attempt place dlq).1.inFlight = b.inFlight := by
  unfold ensureDLQ
  split
  · exact ⟨Frame.refl b, rfl⟩
  split
  · exact ⟨Frame.refl b, rfl⟩
  · exact ⟨frame_setStore (sameRecords_createQueue ..), rfl⟩

variable {t : DlqTransfer ν}

omit [DecidableEq ν] in
/-- The key of a transfer is that of the copy it makes. -/
lemma TransferValid.key_eq (ht : TransferValid cfg b t) :
    dlqTransferID cfg.digest t.queueName t.groupId t.source.offset =
      key cfg ⟨t.record, t.groupId⟩ := by
  rw [key, ht.position]

/-- What `moveToDLQ` leaves when nothing is in its way. -/
lemma moveToDLQ_spec (attempt : WriteAttempt) (hdigest : Function.Injective cfg.digest)
    (hb : b.Stored cfg) (ht : TransferValid cfg b t) (hfree : b.Unclaimed cfg t) :
    (b.moveToDLQ cfg attempt t).1.Stored cfg ∧
      (∀ u, TransferValid cfg b u → TransferValid cfg (b.moveToDLQ cfg attempt t).1 u) ∧
      (b.moveToDLQ cfg attempt t).1.inFlight = b.inFlight ∧
      ((b.moveToDLQ cfg attempt t).2.1 = .written →
        ∃ dest offset, (b.moveToDLQ cfg attempt t).2.2 = some dest ∧
          (b.moveToDLQ cfg attempt t).1.MadeFrom ⟨dest.1, dest.2, offset⟩ ⟨t.record, t.groupId⟩) := by
  unfold moveToDLQ
  split
  · exact ⟨hb, fun _ hu => hu, rfl, nofun⟩
  rename_i config hconfig
  split
  · exact ⟨hb, fun _ hu => hu, rfl, nofun⟩
  -- The dead-letter queue is there or is created; neither changes a record.
  generalize hdlq : dlqTopic cfg { config with name := t.queueName } = dlq
  have hdest : (place cfg t.node dlq, dlq) ∈ b.destinationOf cfg t := by
    rw [destinationOf, hconfig, Option.map_some, hdlq]
    rfl
  obtain ⟨hframe, hflight⟩ := ensureDLQ_spec b attempt (place cfg t.node dlq) dlq
  simp only
  generalize b.ensureDLQ attempt (place cfg t.node dlq) dlq = ensured at hframe hflight
  obtain ⟨b₁, created⟩ := ensured
  have hb₁ := hb.frame hframe
  have hvalid : ∀ u, TransferValid cfg b u → TransferValid cfg b₁ u := fun u hu => hu.frame hframe
  cases created with
  | false => exact ⟨hb₁, hvalid, hflight, nofun⟩
  | true =>
    have hmade : ∀ p o, b₁.MadeFrom p o → b.MadeFrom p o := fun _ _ => hframe.madeFrom_iff.1
    simp only [ht.key_eq]
    generalize hresult : b₁.appendTransferOnce cfg attempt (place cfg t.node dlq) dlq
      (key cfg ⟨t.record, t.groupId⟩)
      (dlqMessage dlq (key cfg ⟨t.record, t.groupId⟩) t.message) ⟨t.record, t.groupId⟩ = result
    have hwrites : Writes cfg b₁ result.1 ⟨t.record, t.groupId⟩ result.2
        (place cfg t.node dlq, dlq) := by
      rw [← hresult]
      refine appendTransferOnce_spec hb₁ ht.message ?_ ?_
      · -- Different records have different keys, unless they stood at one position.
        rintro p ⟨record, groupId⟩ hp hplace hkey
        obtain ⟨hqueue, hgroup, hoffset⟩ := dlqTransferID_injective hdigest hkey
        rw [ht.position] at hqueue hoffset
        have hrecord := (hfree _ hdest p ⟨record, groupId⟩ (hmade _ _ hp)).1 hplace hqueue hgroup
          hoffset
        exact Origin.mk.injEq .. ▸ ⟨hrecord, hgroup⟩
      · exact fun p o hp hrecord => (hfree _ hdest p o (hmade _ _ hp)).2 hrecord
    obtain ⟨b₂, success⟩ := result
    have hvalid₂ : ∀ u, TransferValid cfg b u → TransferValid cfg b₂ u :=
      fun u hu => hwrites.transfers u (hvalid u hu)
    have hflight₂ : b₂.inFlight = b.inFlight := hwrites.inFlight.trans hflight
    cases success with
    | false => exact ⟨hwrites.stored, hvalid₂, hflight₂, nofun⟩
    | true =>
      refine ⟨hwrites.stored, hvalid₂, hflight₂, fun _ => ?_⟩
      obtain ⟨offset, hcopy⟩ := hwrites.copy rfl
      exact ⟨_, offset, rfl, hcopy⟩

end

/-! ### Every step keeps the invariant -/

section

variable {node : ν} {queueName groupId : String} {offset : Nat}

omit [DecidableEq ν] in
/-- A step that leaves the records alone and begins no transfer. -/
lemma Sound.frame (h : b.Sound cfg) (hframe : Frame b b')
    (hflight : ∀ t ∈ b'.inFlight, t ∈ b.inFlight) : b'.Sound cfg :=
  ⟨h.stored.frame hframe, fun t ht => (h.transfers t (hflight t ht)).frame hframe⟩

lemma Sound.setRecord (h : b.Sound cfg) (r : GroupRecord) :
    (b.setRecord cfg node queueName groupId r).Sound cfg :=
  h.frame (frame_setStore (sameRecords_setRecord ..)) fun _ ht => ht

omit [DecidableEq ν] in
/-- The record of a transfer that begins stands where it was read. -/
lemma Sound.begin (h : b.Sound cfg) (source : TransferSource) :
    (b.begin cfg node queueName groupId source).Sound cfg := by
  simp only [Broker.begin]
  split
  · rename_i message hread
    refine ⟨h.stored.frame ⟨fun _ => rfl, fun _ => rfl, rfl⟩, fun t ht => ?_⟩
    rcases List.mem_cons.1 ht with rfl | ht
    · refine ⟨rfl, ?_, rfl, nofun⟩
      show (match b.read _ with | some (.envelope e) => some _ | _ => none) = some _
      rw [hread]
    · exact (h.transfers t ht).frame ⟨fun _ => rfl, fun _ => rfl, rfl⟩
  · exact h

lemma Sound.publish (h : b.Sound cfg) (now : Time) (e : Envelope) :
    (b.publish cfg node now queueName e).Sound cfg := by
  simp only [Broker.publish]
  split
  · rename_i a at_ happend
    obtain ⟨happended, hdedupe⟩ := Adapter.append_spec happend
    refine ⟨h.stored.appended happended (fun _ => rfl) nofun (absurd rfl) ?_ ?_ nofun,
      fun t ht => (h.transfers t ht).appended happended⟩
    · intro q k _ _
      rw [hdedupe]
    · exact fun _ _ hkey => absurd rfl hkey
  · rename_i a err happend
    obtain rfl := Adapter.append_error happend
    exact h.frame (frame_setStore (Adapter.SameRecords.refl _)) fun _ ht => ht

omit [DecidableEq ν] in
/-- Two transfers of one entry on one node are of the same record. -/
lemma TransferValid.record_eq {t u : DlqTransfer ν} (ht : TransferValid cfg b t)
    (hu : TransferValid cfg b u) (hnode : u.node = t.node) (hqueue : u.queueName = t.queueName)
    (hoffset : u.source.offset = t.source.offset) : u.record = t.record := by
  have hposition : u.record.position = t.record.position := by
    rw [hu.position, ht.position, hnode, hqueue, hoffset]
  have hstanding := hu.standing
  rw [hposition, ht.standing] at hstanding
  exact (Option.some.inj hstanding).symm

lemma isTransfer_iff : isTransfer node queueName groupId offset t ↔
    t.node = node ∧ t.queueName = queueName ∧ t.groupId = groupId ∧ t.source.offset = offset := by
  simp [isTransfer]

lemma Sound.write (hdigest : Function.Injective cfg.digest) (h : b.Sound cfg)
    (attempt : WriteAttempt)
    (hfree : ∀ t ∈ b.transferOf node queueName groupId offset, b.Unclaimed cfg t) :
    (b.write cfg attempt node queueName groupId offset).Sound cfg := by
  unfold Broker.write
  split
  · rename_i t htransfer
    split
    · exact h
    have ht := h.transfers t (List.mem_of_find?_eq_some htransfer)
    obtain ⟨hnode, hqueue, hgroup, hoffset⟩ := isTransfer_iff.1 (List.find?_some htransfer)
    obtain ⟨hstored, hvalid, hflight, hcopy⟩ :=
      moveToDLQ_spec attempt hdigest h.stored ht (hfree t htransfer)
    generalize b.moveToDLQ cfg attempt t = result at hstored hvalid hflight hcopy
    obtain ⟨b', outcome, destination⟩ := result
    refine ⟨hstored.frame ⟨fun _ => rfl, fun _ => rfl, rfl⟩, fun u hu => ?_⟩
    obtain ⟨v, hv, rfl⟩ := List.mem_map.1 hu
    have hsound := h.transfers v (hflight ▸ hv)
    refine TransferValid.frame (b := b') ?_ ⟨fun _ => rfl, fun _ => rfl, rfl⟩
    split
    · -- The transfer that was written, or another of the same entry.
      rename_i his
      obtain ⟨hnode', hqueue', hgroup', hoffset'⟩ := isTransfer_iff.1 his
      have hrecord : v.record = t.record := ht.record_eq hsound (hnode'.trans hnode.symm)
        (hqueue'.trans hqueue.symm) (hoffset'.trans hoffset.symm)
      have hv' := hvalid v hsound
      refine ⟨hv'.position, hv'.standing, hv'.message, fun hwritten => ?_⟩
      obtain ⟨dest, at_, hdest, hmade⟩ := hcopy (Option.some.inj hwritten)
      refine ⟨dest, at_, hdest, ?_⟩
      show b'.MadeFrom _ ⟨v.record, v.groupId⟩
      rw [hrecord, hgroup'.trans hgroup.symm]
      exact hmade
    · exact hvalid v hsound
  · exact h

lemma Sound.finish (h : b.Sound cfg) (order : PelOrder) (now : Time) (stored : Bool) :
    (b.finish cfg order now stored node queueName groupId offset).Sound cfg := by
  unfold Broker.finish
  split
  · have hfiltered : Sound cfg { b with
        inFlight := b.inFlight.filter fun u => !isTransfer node queueName groupId offset u } :=
      h.frame ⟨fun _ => rfl, fun _ => rfl, rfl⟩ fun t ht => (List.mem_filter.1 ht).1
    split
    · exact hfiltered.setRecord _
    · exact hfiltered
  · exact h

/-- Every step that disturbs no transfer keeps the invariant. -/
lemma Sound.step (hdigest : Function.Injective cfg.digest) (h : b.Sound cfg)
    {action : BrokerAction ν} (hundisturbed : b.Undisturbed cfg action) :
    (b.step cfg action).Sound cfg := by
  cases action with
  | createQueue node now config =>
    exact h.frame (frame_setStore (Adapter.sameRecords_createQueue ..)) fun _ ht => ht
  | deleteQueue node queueName =>
    exact ⟨h.stored.deleted, fun t ht =>
      (h.transfers t ht).deleted (hundisturbed t ht).1 (hundisturbed t ht).2⟩
  | publish node now queueName e => exact h.publish now e
  | group node op =>
    exact h.frame (frame_setStore (Adapter.sameRecords_performOp ..)) fun _ ht => ht
  | prepareReject node order queueName groupId consumerId offset =>
    simp only [Broker.step, prepareReject]
    split
    · exact (h.setRecord _).begin _
    · exact h.setRecord _
  | prepareSweep node order now queueName groupId offset =>
    simp only [Broker.step, prepareSweep]
    split
    · exact (h.setRecord _).begin _
    · exact h.setRecord _
  | write attempt node queueName groupId offset => exact h.write hdigest attempt hundisturbed
  | finish order now stored node queueName groupId offset => exact h.finish order now stored

end

/-! ### Whole runs -/

/-- The dead-letter queue of a transfer has a record made from the very record that stands at its
source. -/
def Kept (cfg : BrokerConfig) (b : Broker ν) (t : DlqTransfer ν) : Prop :=
  ∃ record dest offset e,
    b.recordAt ⟨place cfg t.node t.queueName, t.queueName, t.source.offset⟩ = some record ∧
      t.destination = some dest ∧ b.read ⟨dest.1, dest.2, offset⟩ = some (.envelope e) ∧
      (b.tags ⟨dest.1, dest.2, offset⟩).origin = some ⟨record, t.groupId⟩ ∧
      e.payload = record.payload

/-- An entry is removed for a transfer that was reported successful only while the copy of its record
stands. -/
def LosesNothing (cfg : BrokerConfig) (b : Broker ν) : BrokerAction ν → Prop
  | .finish _ _ _ node queueName groupId offset =>
    ∀ t ∈ b.transferOf node queueName groupId offset, t.outcome = some .written → b.Kept cfg t
  | _ => True

/-- No record has two dead-letter records. -/
def OneCopy (b : Broker ν) : Prop :=
  ∀ p p' origin origin', b.MadeFrom p origin → b.MadeFrom p' origin' →
    origin.record = origin'.record → p = p'

omit [DecidableEq ν] in
lemma Sound.kept (h : b.Sound cfg) (hmem : t ∈ b.inFlight)
    (hwritten : t.outcome = some .written) : b.Kept cfg t := by
  have ht := h.transfers t hmem
  obtain ⟨dest, offset, hdest, ⟨e, he⟩, htag⟩ := ht.secured hwritten
  exact ⟨t.record, dest, offset, e, ht.position ▸ ht.standing, hdest, he, htag,
    (h.stored.copied _ e _ he htag).2⟩

lemma Sound.losesNothing (h : b.Sound cfg) (action : BrokerAction ν) :
    b.LosesNothing cfg action := by
  cases action with
  | finish order now stored node queueName groupId offset =>
    exact fun t ht => h.kept (List.mem_of_find?_eq_some ht)
  | _ => trivial

omit [DecidableEq ν] in
lemma Sound.empty : Sound cfg ({} : Broker ν) := by
  have hread : ∀ p, ({} : Broker ν).read p = none := fun _ => rfl
  refine ⟨⟨fun p e he => ?_, fun p e _ he => ?_, fun p e he => ?_, ?_⟩,
    fun t ht => absurd ht List.not_mem_nil⟩
  case refine_4 =>
    rintro p p' origin origin' ⟨⟨e, he⟩, -⟩
    cases (hread p).symm.trans he
  all_goals cases (hread p).symm.trans he

/-- In every run whose steps disturb no transfer, an entry leaves its group for a transfer that was
reported successful only while the dead-letter queue holds a record made from the very record it
stands for, and no record ever has two dead-letter records. -/
theorem dead_letters_kept (hdigest : Function.Injective cfg.digest)
    {actions : List (BrokerAction ν)}
    (hrun : Transition.Along (Broker.step cfg) (Undisturbed cfg) {} actions) :
    Transition.Along (Broker.step cfg) (fun b action => b.LosesNothing cfg action ∧ b.OneCopy) {}
        actions ∧
      OneCopy (Transition.run (Broker.step cfg) {} actions) := by
  have hstep : ∀ (b : Broker ν) action, b.Sound cfg → b.Undisturbed cfg action →
      (b.step cfg action).Sound cfg := fun _ _ hb hundisturbed => hb.step hdigest hundisturbed
  constructor
  · exact Transition.Along.of_invariant hstep
      (fun b action hb _ => ⟨hb.losesNothing action, hb.stored.single⟩) Sound.empty hrun
  · exact (invariant_run hstep Sound.empty hrun).stored.single

/-! ### A rejected record -/

/-- A consumer rejects the record at offset 0, and its copy is appended. -/
def rejectActions (node : ν) : List (BrokerAction ν) :=
  [.prepareReject node (.listOrder _) "tasks" "workers" "c" 0,
    .write { now := 0 } node "tasks" "workers" 0]

/-- The transfer of the record at offset 0 comes to its end. -/
def finishAction (node : ν) (stored : Bool) : BrokerAction ν :=
  .finish (.listOrder _) 0 stored node "tasks" "workers" 0

/-- A queue and a group are created, and a record is published and claimed by a consumer. -/
def claimedActions (node : ν) (payload : String) : List (BrokerAction ν) :=
  [.createQueue node 0 { name := "tasks", topics := ["tasks/#"] },
    .publish node 0 "tasks" { topic := "tasks/1", payload },
    .group node (.create ⟨0, .listOrder _⟩ { id := "workers", queueName := "tasks", pattern := "" }),
    .group node (.addPending ("tasks", "workers") 0 ⟨0, "c", 0, 1⟩)]

/-- A record is moved to the dead-letter queue, and a second one after group and queue were deleted
and created again. -/
def recreatedActions : List (BrokerAction Unit) :=
  claimedActions () "first" ++ rejectActions () ++ [finishAction () true,
    .group () (.delete ("tasks", "workers")), .deleteQueue () "tasks"] ++
    claimedActions () "second" ++ rejectActions ()

/-- A node writes the copy of a record of a replicated queue and does not get to remove the entry;
the node that leads next moves the record again. -/
def movedTwiceActions : List (BrokerAction Bool) :=
  claimedActions true "first" ++ rejectActions true ++ [finishAction true false] ++
    rejectActions false

omit [DecidableEq ν] in
/-- Where there are no copies, nothing is in the way of an append. -/
lemma Unclaimed.of_untagged (h : ∀ p, (b.tags p).origin = none) : b.Unclaimed cfg t := by
  rintro dest - p origin ⟨-, htag⟩
  cases (h p).symm.trans htag

/-- A record that is rejected once leaves its group with its copy made. -/
theorem dead_letters_kept_rejected :
    Transition.Along (Broker.step {}) (fun b action => b.LosesNothing {} action ∧ b.OneCopy) {}
      (claimedActions () "first" ++ rejectActions () ++ [finishAction () true]) ∧
    OneCopy (Transition.run (Broker.step {}) {}
      (claimedActions () "first" ++ rejectActions () ++ [finishAction () true])) := by
  refine dead_letters_kept injective_id
    ⟨trivial, trivial, trivial, trivial, trivial, fun t _ => ?_, trivial, trivial⟩
  refine Unclaimed.of_untagged fun p => ?_
  -- The only record is the published one.
  show (update (fun _ => ({} : Tag Unit)) ⟨some (), "tasks", 0⟩ {} p).origin = none
  by_cases hp : p = ⟨some (), "tasks", 0⟩
  · rw [hp, update_self]
  · rw [update_of_ne hp]

/-- The number of pending entries of the group. -/
def pendingCount (b : Broker Unit) : Option Nat :=
  ((b.stores (some ())).record "tasks" "workers").group.map fun g => g.pel.length

/-- The record that is second to stand at its offset leaves its group, and the dead-letter queue has
only the first. A record of a replicated queue whose dead-letter queue is not replicated is found in
the dead-letter queues of two nodes. -/
theorem dead_letters_lost :
    ¬ Transition.Along (Broker.step {}) (fun b action => b.LosesNothing {} action) {}
        (recreatedActions ++ [finishAction () true]) ∧
      pendingCount (Transition.run (Broker.step {}) {} recreatedActions) = some 1 ∧
      pendingCount (Transition.run (Broker.step {}) {} (recreatedActions ++ [finishAction () true])) =
        some 0 ∧
      ¬ OneCopy (Transition.run (Broker.step { replicated := (· == "tasks") }) {}
        movedTwiceActions) := by
  refine ⟨?_, ?_, ?_, ?_⟩
  · intro h
    have hfinish := (along_append.1 h).2.1
    generalize hb : run (step {}) {} recreatedActions = b at hfinish
    -- The transfer is one of the second record and was reported successful.
    have htransfer : (b.transferOf () "tasks" "workers" 0).map
        (fun t => (t.queueName, t.source.offset, t.outcome)) = some ("tasks", 0, some .written) := by
      subst hb
      decide +kernel
    have hdestination : (b.transferOf () "tasks" "workers" 0).map DlqTransfer.destination =
        some (some (some (), "$dlq/tasks")) := by
      subst hb
      decide +kernel
    have hsource : (b.recordAt ⟨some (), "tasks", 0⟩).map RecordId.payload = some "second" := by
      subst hb
      decide +kernel
    -- All that the dead-letter queue has is the first record.
    have hcopy : (b.read ⟨some (), "$dlq/tasks", 0⟩).map
        (fun r => match r with | .envelope e => e.payload | .undecodable => "") = some "first" := by
      subst hb
      decide +kernel
    have htail : ((b.stores (some ())).logs "$dlq/tasks").map (fun log => log.toLog.tail) =
        some 1 := by
      subst hb
      decide +kernel
    obtain ⟨t, ht, hfields⟩ := Option.map_eq_some_iff.1 htransfer
    obtain ⟨hqueue, hfields⟩ := Prod.mk.inj hfields
    obtain ⟨hoffset, houtcome⟩ := Prod.mk.inj hfields
    rw [ht] at hdestination
    have hdest : t.destination = some (some (), "$dlq/tasks") := Option.some.inj hdestination
    obtain ⟨record, dest, offset, e, hrecord, hdest', hread, -, hpayload⟩ := hfinish t ht houtcome
    obtain rfl := Option.some.inj (hdest.symm.trans hdest')
    rw [hqueue, hoffset] at hrecord
    have hsecond : record.payload = "second" := by
      have := hsource.symm.trans (congrArg (Option.map RecordId.payload) hrecord)
      exact (Option.some.inj this).symm
    cases offset with
    | zero =>
      rw [hread] at hcopy
      have hfirst : e.payload = "first" := Option.some.inj hcopy
      rw [hpayload, hsecond] at hfirst
      exact absurd hfirst (by decide)
    | succ n =>
      have hnone := readRecord_eq_none_of_tail htail (Nat.le_add_left 1 n)
      cases hnone.symm.trans hread
  · decide +kernel
  · decide +kernel
  · intro h
    generalize hb : run (step { replicated := (· == "tasks") }) {}
      movedTwiceActions = b at h
    have hcopies : ∀ node : Bool, b.MadeFrom ⟨some node, "$dlq/tasks", 0⟩
        ⟨⟨⟨none, "tasks", 0⟩, 0, "first"⟩, "workers"⟩ := by
      intro node
      refine ⟨⟨dlqMessage "$dlq/tasks" "dlq-5:tasks:7:workers:0"
        { topic := "tasks/1", payload := "first" }, ?_⟩, ?_⟩
      all_goals
        subst hb
        revert node
        decide +kernel
    have hsame := h _ _ _ _ (hcopies true) (hcopies false) rfl
    cases hsame

end Broker

end FluxMQ
