import FluxMQ.Logstorage.AckFloor

/-!
# What the pending list says of an entry

The log store finds the entries of a consumer by an index of their offsets, which each change keeps up
to date on its own. A delivery files the offset under its consumer and does not look whether it is
pending already: if it is, for another consumer, the index keeps the old place too.

The number of deliveries charged to an entry has 16 bits, and a claim at the last number starts again
at zero.
-/

namespace FluxMQ

open ConsumerState StateEffect

lemma ConsumerState.holding_of_entryAt {cs : ConsumerState} {offset : Nat} {entry : LogPendingEntry}
    (h : cs.entryAt offset = some entry) :
    cs.holding offset = some (entry.consumerId, entry.deliveryCount) := by
  rw [holding, h]
  rfl

/-- The pending list of a group with `byConsumer`, the offsets of each consumer in all shards. -/
structure IndexedState where
  state : ConsumerState := {}
  byConsumer : List (String × Nat) := []

namespace IndexedState

/-- What a change does to the pending list and to the index. -/
def applyEffect (s : IndexedState) (e : StateEffect) : IndexedState where
  state := s.state.applyEffect e
  byConsumer :=
    match e with
    | .deliver offset consumerId _ | .restorePending offset consumerId _ _ =>
      s.byConsumer.insert (consumerId, offset)
    | .ack offset =>
      match s.state.entryAt offset with
      | some entry => s.byConsumer.filter (· ≠ (entry.consumerId, offset))
      | none => s.byConsumer
    | .claim offset consumerId _ =>
      match s.state.entryAt offset with
      | some entry =>
        (s.byConsumer.filter (· ≠ (entry.consumerId, offset))).insert (consumerId, offset)
      | none => s.byConsumer
    | _ => s.byConsumer

def getPendingByConsumer (s : IndexedState) (consumerId : String) : List LogPendingEntry :=
  (s.byConsumer.filter (·.1 = consumerId)).filterMap fun p => s.state.entryAt p.2

/-- The index has the offsets that a consumer holds, and no others. -/
def Indexed (s : IndexedState) : Prop :=
  ∀ offset consumerId, (consumerId, offset) ∈ s.byConsumer ↔
    ∃ count, s.state.holding offset = some (consumerId, count)

/-- What is delivered or restored is not pending for another consumer. -/
def Unclaimed (s : IndexedState) : StateEffect → Prop
  | .deliver offset consumerId _ | .restorePending offset consumerId _ _ =>
    ∀ held ∈ s.state.holding offset, held.1 = consumerId
  | _ => True

variable {s : IndexedState}

/-- An offset is filed under the consumer that gets it. -/
lemma Indexed.insert {offset o : Nat} {consumerId c : String} {count : UInt16} (h : s.Indexed)
    (hfree : ∀ held ∈ s.state.holding o, held.1 = c) :
    (consumerId, offset) ∈ s.byConsumer.insert (c, o) ↔
      ∃ n, (if o = offset then some (c, count) else s.state.holding offset) = some (consumerId, n) := by
  rw [List.mem_insert_iff, h, Prod.mk.injEq]
  split
  · rename_i ho
    subst ho
    simp only [and_true, Option.some.injEq, Prod.mk.injEq, exists_and_left, exists_eq', eq_comm (a := c)]
    refine or_iff_left_of_imp fun ⟨n, hn⟩ => ?_
    exact hfree _ hn
  · rename_i ho
    exact or_iff_right fun heq => ho heq.2.symm

/-- An offset that is pending is taken from the consumer that holds it. -/
lemma Indexed.erase {offset o : Nat} {consumerId : String} {entry : LogPendingEntry} (h : s.Indexed)
    (hentry : s.state.entryAt o = some entry) :
    (consumerId, offset) ∈ s.byConsumer.filter (· ≠ (entry.consumerId, o)) ↔
      o ≠ offset ∧ ∃ count, s.state.holding offset = some (consumerId, count) := by
  rw [List.mem_filter, h, decide_eq_true_eq, and_comm]
  refine and_congr_left fun ⟨count, hcount⟩ => not_congr ⟨fun heq => (Prod.mk.inj heq).2.symm, ?_⟩
  rintro rfl
  rw [holding_of_entryAt hentry] at hcount
  cases hcount
  rfl

/-- What is delivered to those that hold it already, or to nobody's loss, keeps the index right. -/
lemma Indexed.applyEffect {e : StateEffect} (h : s.Indexed) (he : s.Unclaimed e) :
    (s.applyEffect e).Indexed := by
  intro offset consumerId
  show _ ↔ ∃ count, (s.state.applyEffect e).holding offset = some (consumerId, count)
  rw [holding_applyEffect]
  -- Nothing is held at an offset without an entry.
  have hnone {o : Nat} (hentry : s.state.entryAt o = none) : s.state.holding o = none := by
    rw [holding, hentry]
    rfl
  cases e with
  | deliver o c ts | restorePending o c ts count => exact h.insert he
  | ack o =>
    rw [onHolding, IndexedState.applyEffect]
    cases hentry : s.state.entryAt o with
    | none =>
      rw [h]
      split
      · rename_i ho
        rw [← ho, hnone hentry]
      · rfl
    | some entry =>
      rw [h.erase hentry]
      split <;> simp_all
  | claim o c ts =>
    rw [onHolding, IndexedState.applyEffect]
    cases hentry : s.state.entryAt o with
    | none =>
      rw [h]
      split
      · rename_i ho
        rw [← ho, hnone hentry]
        rfl
      · rfl
    | some entry =>
      rw [List.mem_insert_iff, h.erase hentry]
      split
      · rename_i ho
        subst ho
        simp [holding_of_entryAt hentry, eq_comm]
      · rename_i ho
        simp [ho, Ne.symm ho]
  | nack o ts =>
    rw [onHolding]
    refine (h offset consumerId).trans ?_
    split <;> simp
  | _ => exact h offset consumerId

lemma Indexed.mem_getPendingByConsumer (h : s.Indexed) {entry : LogPendingEntry} {consumerId : String} :
    entry ∈ s.getPendingByConsumer consumerId ↔
      entry ∈ s.state.entries ∧ entry.consumerId = consumerId := by
  simp only [getPendingByConsumer, List.mem_filterMap, List.mem_filter, decide_eq_true_eq]
  constructor
  · rintro ⟨⟨c, o⟩, ⟨hmem, rfl⟩, hentry⟩
    obtain ⟨count, hheld⟩ := (h o c).1 hmem
    rw [holding_of_entryAt hentry] at hheld
    cases hheld
    exact ⟨(entryAt_eq_some_iff.1 hentry).1, rfl⟩
  · rintro ⟨hmem, rfl⟩
    have hentry := entryAt_eq_some_iff.2 ⟨hmem, rfl⟩
    exact ⟨(entry.consumerId, entry.offset), ⟨(h _ _).2 ⟨_, holding_of_entryAt hentry⟩, rfl⟩,
      hentry⟩

lemma indexed_empty : ({} : IndexedState).Indexed := by
  intro offset consumerId
  constructor
  · intro h
    cases h
  · rintro ⟨count, h⟩
    cases h

/-- In every run of changes that deliver and restore no offset that is pending for another consumer, the
index has exactly the offsets that each consumer holds, and finds exactly its entries. -/
theorem indexed_run (effects : List StateEffect) (h : Transition.Along applyEffect Unclaimed {} effects) :
    let s := Transition.run applyEffect {} effects
    s.Indexed ∧ ∀ entry consumerId, entry ∈ s.getPendingByConsumer consumerId ↔
      entry ∈ s.state.entries ∧ entry.consumerId = consumerId := by
  have hindexed := Transition.invariant_run (I := Indexed) (fun s e hs he => hs.applyEffect he)
    indexed_empty h
  exact ⟨hindexed, fun _ _ => hindexed.mem_getPendingByConsumer⟩

/-- An offset is delivered, claimed, acknowledged and delivered again. -/
theorem indexed_run_claim :
    (Transition.run applyEffect {}
      [.deliver 0 "a" 0, .claim 0 "b" 1, .ack 0, .deliver 0 "a" 2]).Indexed := by
  refine (indexed_run [.deliver 0 "a" 0, .claim 0 "b" 1, .ack 0, .deliver 0 "a" 2] ?_).1
  refine ⟨?_, trivial, trivial, ?_, trivial⟩
  all_goals
    intro held hheld
    cases hheld

/-- An offset is delivered to a second consumer. The first one is said to hold it too. -/
theorem stale_index_of_redelivery :
    let s := Transition.run applyEffect {} [.deliver 0 "a" 0, .deliver 0 "b" 1]
    ("a", 0) ∈ s.byConsumer ∧ (s.state.entryAt 0).map (·.consumerId) = some "b" ∧
      (s.getPendingByConsumer "a").map (·.consumerId) = ["b"] := by
  decide

end IndexedState

/-! ### Delivery counts -/

namespace ConsumerState

variable {cs : ConsumerState} {offset : Nat}

/-- The number of deliveries of a pending entry, as consumer groups see it. -/
def deliveryCountAt (cs : ConsumerState) (offset : Nat) : Option Nat :=
  (cs.entryAt offset).map (·.toTypes.deliveryCount)

lemma deliveryCountAt_eq : cs.deliveryCountAt offset = (cs.holding offset).map (·.2.toNat) := by
  rw [deliveryCountAt, holding, Option.map_map]
  rfl

/-- The entry stays pending, and no delivery is charged to it that cannot be counted. -/
def Countable (offset : Nat) (cs : ConsumerState) (e : StateEffect) : Prop :=
  ¬ e.Resets offset ∧ (e.Charges offset → ∀ n ∈ cs.deliveryCountAt offset, n < 65535)

/-- A change charges a delivery to the entry, or leaves its count alone. -/
lemma deliveryCountAt_applyEffect {e : StateEffect} {n : Nat} (h : cs.deliveryCountAt offset = some n)
    (he : Countable offset cs e) :
    (cs.applyEffect e).deliveryCountAt offset = some n ∧ ¬ e.Charges offset ∨
      (cs.applyEffect e).deliveryCountAt offset = some (n + 1) := by
  by_cases hcharges : e.Charges offset
  · have hlt := he.2 hcharges n h
    rw [deliveryCountAt_eq, Option.map_eq_some_iff] at h
    obtain ⟨⟨consumerId, count⟩, hheld, rfl⟩ := h
    have hcount : (count + 1).toNat = count.toNat + 1 := by
      exact Nat.mod_eq_of_lt (Nat.succ_lt_succ hlt)
    rw [deliveryCountAt_eq, holding_applyEffect, hheld]
    cases e <;> cases hcharges <;> simp [onHolding, hcount]
  · left
    rw [deliveryCountAt_eq, holding_applyEffect,
      onHolding_eq_self he.1 fun hcharge => absurd hcharge hcharges, ← deliveryCountAt_eq]
    exact ⟨h, hcharges⟩

/-- While an entry stays pending and its deliveries can be counted, its count only grows, by one with each
claim, and it is the same in 16 and in 32 bits. What has become poison stays poison. -/
theorem deliveryCount_grows (start : Nat) (effects : List StateEffect)
    (hstart : cs.deliveryCountAt offset = some start)
    (h : Transition.Along applyEffect (Countable offset) cs effects) :
    let cs' := Transition.run applyEffect cs effects
    ∃ n, cs'.deliveryCountAt offset = some n ∧ start ≤ n ∧ (UInt16.ofNat n).toNat = n ∧
      (UInt32.ofNat n).toNat = n ∧ (n < 65535 → ∀ consumerId ts,
        (cs'.applyClaim offset consumerId ts).deliveryCountAt offset = some (n + 1)) := by
  intro cs'
  obtain ⟨n, hn, hle⟩ : ∃ n, cs'.deliveryCountAt offset = some n ∧ start ≤ n := by
    refine Transition.invariant_run
      (I := fun cs => ∃ n, cs.deliveryCountAt offset = some n ∧ start ≤ n) ?_ ⟨start, hstart, le_rfl⟩ h
    rintro cs e ⟨n, hn, hle⟩ he
    rcases deliveryCountAt_applyEffect hn he with ⟨hsame, -⟩ | hmore
    · exact ⟨n, hsame, hle⟩
    · exact ⟨n + 1, hmore, hle.trans (Nat.le_succ n)⟩
  have hlt : n < 65536 := by
    rw [deliveryCountAt_eq, Option.map_eq_some_iff] at hn
    obtain ⟨held, -, rfl⟩ := hn
    exact held.2.toNat_lt
  refine ⟨n, hn, hle, ?_, ?_, fun hn' consumerId ts => ?_⟩
  · exact Nat.mod_eq_of_lt hlt
  · exact Nat.mod_eq_of_lt (by omega)
  have hcountable : Countable offset cs' (.claim offset consumerId ts) := by
    refine ⟨id, fun _ m hm => ?_⟩
    cases hn.symm.trans hm
    exact hn'
  rcases deliveryCountAt_applyEffect hn hcountable with ⟨-, hnot⟩ | hmore
  · exact absurd rfl hnot
  · exact hmore

/-- The entry at offset 0 is claimed and released. -/
theorem deliveryCount_grows_claim :
    let cs := applyDeliver {} 0 "a" 0
    let cs' := Transition.run applyEffect cs [.claim 0 "b" 1, .release 0 2]
    ∃ n, cs'.deliveryCountAt 0 = some n ∧ 1 ≤ n ∧ (UInt16.ofNat n).toNat = n ∧
      (UInt32.ofNat n).toNat = n ∧ (n < 65535 → ∀ consumerId ts,
        (cs'.applyClaim 0 consumerId ts).deliveryCountAt 0 = some (n + 1)) := by
  refine deliveryCount_grows 1 [.claim 0 "b" 1, .release 0 2] (by decide)
    ⟨⟨id, fun _ n hn => ?_⟩, ⟨id, fun h => nomatch h⟩, trivial⟩
  cases hn
  decide

/-- A claim of an entry that has been delivered 65535 times makes it one that was never delivered. -/
theorem deliveryCount_wraps :
    let cs := applyRestorePending {} 0 "a" 0 65535
    cs.deliveryCountAt 0 = some 65535 ∧ (cs.applyClaim 0 "b" 1).deliveryCountAt 0 = some 0 := by
  decide

end ConsumerState

end FluxMQ
