import FluxMQ.Mqtt.Conservation

/-!
# Packet identifiers of concurrent deliveries

`deliverQoS` takes a packet identifier from `NextPacketID`, waits for a token of the send window, and adds
its message to the tracker under the identifier then. Several deliveries to one session do so at a time.

* `Allocation.Spacious`: fewer messages may be in flight than there are identifiers, and fewer were restored.
* `Allocation.exists_free`: then an identifier is free, in every state of every run.
* `Allocation.allocates`: so the search ends, and as long as it comes to no identifier that a delivery has taken
  and not used yet, no entry is overwritten, in every run.
* `Allocation.search_endless`: with all identifiers in flight, the search does not end.
-/

namespace FluxMQ.Mqtt

open Inflight List Transition

variable {μ : Type}

/-- A session as `deliverQoS` sees it. It may have been restored with any messages in flight. -/
structure Allocation (μ : Type) where
  inflight : Inflight μ := {}
  nextPacketID : Nat := 0
  /-- The deliveries that have taken an identifier, each with its message. -/
  taken : List (Nat × μ) := []

namespace Allocation

/-- What deliveries and acknowledgements do to the tracker. -/
inductive Action (μ : Type) where
  /-- The loop of `NextPacketID` goes round once for a delivery. -/
  | nextPacketID (msg : μ)
  /-- A delivery that got a token adds its message. -/
  | add (k : Nat)
  /-- A delivery that got no token leaves its message to the pending queue. -/
  | giveUp (k : Nat)
  | updateState (packetID : Nat) (state : InflightState)
  | ackDirection (direction : Direction) (packetID : Nat)
  | addInbound (packetID : Nat) (msg : μ)

def step (s : Allocation μ) : Action μ → Allocation μ
  | .nextPacketID msg =>
    let packetID := (s.nextPacketID + 1) % 2 ^ 16
    { s with
      nextPacketID := s.nextPacketID + 1
      taken := if packetID ≠ 0 ∧ s.inflight.has packetID = false then (packetID, msg) :: s.taken
        else s.taken }
  | .add k =>
    match s.taken[k]? with
    | some (packetID, msg) =>
      { s with
        inflight := (s.inflight.add .outbound packetID msg).1
        taken := s.taken.eraseIdx k }
    | none => s
  | .giveUp k => { s with taken := s.taken.eraseIdx k }
  | .updateState packetID state => { s with inflight := (s.inflight.updateState packetID state).1 }
  | .ackDirection direction packetID =>
    { s with inflight := (s.inflight.ackDirection direction packetID).1 }
  | .addInbound packetID msg => { s with inflight := (s.inflight.addInbound packetID msg).1 }

/-- The loop of `NextPacketID`, cut off after some rounds. -/
def search (s : Allocation μ) (tries : Nat) : Option Nat :=
  s.inflight.findPacketID tries (s.nextPacketID + 1)

/-- No outbound message is in flight under the identifier. A delivery may have taken it. -/
def Free (s : Allocation μ) (packetID : Nat) : Prop :=
  packetID ≠ 0 ∧ s.inflight.lookup .outbound packetID = none

/-- The next identifier is not with a delivery. -/
def Unclaimed (s : Allocation μ) : Action μ → Prop
  | .nextPacketID _ => (s.nextPacketID + 1) % 2 ^ 16 ∉ s.taken.map Prod.fst
  | _ => True

instance (s : Allocation μ) (a : Action μ) : Decidable (s.Unclaimed a) := by
  cases a <;> unfold Unclaimed <;> infer_instance

/-- The outbound messages in flight are fewer than the identifiers, and so many are not to be added. -/
structure Spacious (s : Allocation μ) : Prop where
  limit : s.inflight.maxSize < 65535
  entries : s.inflight.count .outbound < 65535

/-- The loop ends with a free identifier, and a message is added under one. -/
def Sparing (s : Allocation μ) : Action μ → Prop
  | .nextPacketID _ => ∃ counter, s.search (2 ^ 16) = some counter ∧ s.Free (counter % 2 ^ 16)
  | .add k => ∀ x ∈ s.taken[k]?, s.inflight.lookup .outbound x.1 = none
  | _ => True

/-- What was taken is free, and it was taken once. -/
structure Apart (s : Allocation μ) : Prop where
  free : ∀ x ∈ s.taken, s.inflight.lookup .outbound x.1 = none
  once : (s.taken.map Prod.fst).Nodup

lemma findPacketID_of_free {t : Inflight μ} {tries counter k : Nat} (hk : k < tries)
    (hzero : (counter + k) % 2 ^ 16 ≠ 0) (hfree : t.lookup .outbound ((counter + k) % 2 ^ 16) = none) :
    ∃ next, t.findPacketID tries counter = some next := by
  induction tries generalizing counter k with
  | zero => exact absurd hk (Nat.not_lt_zero k)
  | succ tries ih =>
    unfold findPacketID
    split
    · exact ⟨counter, rfl⟩
    rename_i hbusy
    cases k with
    | zero => exact absurd ⟨hzero, ClientState.has_eq_false.2 hfree⟩ hbusy
    | succ k =>
      rw [← Nat.add_assoc, Nat.add_right_comm] at hzero hfree
      exact ih (Nat.lt_of_succ_lt_succ hk) hzero hfree

variable {s : Allocation μ} {a : Action μ}

/-- Within one round of all identifiers, the loop comes to each of them. -/
lemma search_of_free {packetID : Nat} (hlt : packetID < 2 ^ 16) (h : s.Free packetID) :
    ∃ counter, s.search (2 ^ 16) = some counter ∧ s.Free (counter % 2 ^ 16) := by
  have hround : (s.nextPacketID + 1 + (packetID + 2 ^ 16 - (s.nextPacketID + 1) % 2 ^ 16) % 2 ^ 16) %
      2 ^ 16 = packetID := by
    omega
  obtain ⟨counter, hfound⟩ := findPacketID_of_free (t := s.inflight) (Nat.mod_lt _ (by decide))
    (hround.symm ▸ h.1) (hround.symm ▸ h.2)
  exact ⟨counter, hfound, ClientState.findPacketID_spec hfound⟩

/-- What the tracker loses, and what it gets for the other direction, leaves free what was free. -/
lemma Apart.of_inflight {t : Inflight μ} (h : s.Apart)
    (ht : ∀ i, s.inflight.lookup .outbound i = none → t.lookup .outbound i = none) :
    ({ s with inflight := t } : Allocation μ).Apart :=
  { h with free := fun x hx => ht x.1 (h.free x hx) }

lemma Apart.step (h : s.Apart) (ha : s.Unclaimed a) : (s.step a).Apart := by
  cases a with
  | nextPacketID msg =>
    simp only [Allocation.step]
    split_ifs with hfree
    · exact ⟨forall_mem_cons.2 ⟨ClientState.has_eq_false.1 hfree.2, h.free⟩, nodup_cons.2 ⟨ha, h.once⟩⟩
    · exact { h with }
  | add k =>
    simp only [Allocation.step]
    split
    · rename_i packetID msg htaken
      obtain ⟨hk, hget⟩ := List.getElem?_eq_some_iff.1 htaken
      have hperm := ((getElem_cons_eraseIdx_perm hk).map Prod.fst).nodup_iff.2 h.once
      rw [hget, map_cons] at hperm
      obtain ⟨hother, honce⟩ := nodup_cons.1 hperm
      refine ⟨fun x hx => ?_, honce⟩
      have hfree := h.free x (mem_of_mem_eraseIdx hx)
      unfold Inflight.add
      split
      · exact hfree
      · have hne : x.1 ≠ packetID := by
          rintro rfl
          exact hother (mem_map.2 ⟨x, hx, rfl⟩)
        rw [lookup_put, if_neg fun heq => hne heq.2]
        exact hfree
    · exact h
  | giveUp k =>
    exact ⟨fun x hx => h.free x (mem_of_mem_eraseIdx hx),
      h.once.sublist ((eraseIdx_sublist s.taken k).map Prod.fst)⟩
  | updateState packetID state =>
    refine h.of_inflight fun i hi => ?_
    unfold updateState
    split
    · exact hi
    · rename_i entry hentry
      rw [lookup_put, if_neg fun heq => ?_, hi]
      rw [← heq.2, hi] at hentry
      cases hentry
  | ackDirection direction packetID =>
    refine h.of_inflight fun i hi => ?_
    unfold ackDirection
    split
    · exact hi
    · rw [lookup_erase]
      split
      · rfl
      · exact hi
  | addInbound packetID msg =>
    refine h.of_inflight fun i hi => ?_
    unfold addInbound
    split_ifs
    · exact hi
    · exact hi
    · rwa [lookup_put, if_neg (by simp)]

/-- Room stays, whatever the tracker gets and loses. -/
lemma Spacious.step (h : s.Spacious) (a : Action μ) : (s.step a).Spacious := by
  cases a with
  | nextPacketID msg => exact { h with }
  | giveUp k => exact { h with }
  | add k =>
    simp only [Allocation.step]
    split
    · unfold Inflight.add
      split
      · exact { h with }
      rename_i hadds
      refine ⟨h.limit, ?_⟩
      rename_i packetID msg _
      by_cases hnew : s.inflight.lookup .outbound packetID = none
      · have hroom : s.inflight.count .outbound < s.inflight.maxSize :=
          Nat.lt_of_not_le fun hfull => hadds ⟨hnew, hfull⟩
        have hcount := count_put_le (t := s.inflight) .outbound packetID { message := msg } .outbound
        have hlimit := h.limit
        rw [if_pos rfl] at hcount
        show (s.inflight.put .outbound packetID { message := msg }).count .outbound < 65535
        omega
      · exact (count_put_of_ne hnew _ _).trans_lt h.entries
    · exact h
  | updateState packetID state =>
    simp only [Allocation.step, updateState]
    split
    · exact { h with }
    · rename_i entry hentry
      exact ⟨h.limit, (count_put_of_ne (by simp [hentry]) _ _).trans_lt h.entries⟩
  | ackDirection direction packetID =>
    simp only [Allocation.step, ackDirection]
    split
    · exact { h with }
    · exact ⟨h.limit, (count_erase_le direction packetID .outbound).trans_lt h.entries⟩
  | addInbound packetID msg =>
    simp only [Allocation.step, addInbound]
    split_ifs
    · exact { h with }
    · exact { h with }
    · exact ⟨h.limit, (count_put_le .inbound packetID { message := msg } .outbound).trans_lt h.entries⟩

/-- With fewer messages in flight than there are identifiers, one is free. -/
lemma Spacious.exists_free (h : s.Spacious) : ∃ packetID < 2 ^ 16, s.Free packetID := by
  by_contra hnone
  -- Otherwise each identifier is the key of an entry.
  have hkeys : (range' 1 65535).map (fun i => (Direction.outbound, i)) ⊆
      s.inflight.messages.keys.filter fun key => key.1 = .outbound := by
    intro key hkey
    obtain ⟨i, hi, rfl⟩ := mem_map.1 hkey
    obtain ⟨hpos, hlt⟩ := mem_range'_1.1 hi
    refine mem_filter.2 ⟨?_, by simp⟩
    by_contra hfree
    refine hnone ⟨i, by omega, by omega, ?_⟩
    rw [Inflight.lookup, AList.lookup_eq_none]
    exact hfree
  have hnodup : ((range' 1 65535).map fun i => (Direction.outbound, i)).Nodup :=
    Nodup.map (fun i j hij => (Prod.mk.inj hij).2) nodup_range'
  have hle := (subperm_of_subset hnodup hkeys).length_le
  rw [length_map, length_range'] at hle
  exact absurd h.entries (Nat.not_lt.2 hle)

/-- With an inflight limit below the number of identifiers, and fewer messages restored than that, the search
ends, and no message in flight is overwritten. -/
theorem allocates (s : Allocation μ) (hs : s.taken = []) (hlimit : s.inflight.maxSize < 65535)
    (hrestored : s.inflight.count .outbound < 65535) (actions : List (Action μ))
    (h : Along step Unclaimed s actions) : Along step Sparing s actions := by
  refine Along.of_invariant (fun s a (hs : s.Apart ∧ s.Spacious) ha => ⟨hs.1.step ha, hs.2.step a⟩)
    (fun s a hs ha => ?_) ⟨⟨by simp [hs], by simp [hs]⟩, hlimit, hrestored⟩ h
  cases a with
  | nextPacketID msg =>
    obtain ⟨packetID, hlt, hfree⟩ := hs.2.exists_free
    exact search_of_free hlt hfree
  | add k => exact fun x hx => hs.1.free x (mem_of_getElem? hx)
  | _ => trivial

/-- A session that was restored with two messages in flight. Two deliveries pass over their identifiers and take
the next two, and add their messages in the other order. -/
theorem allocates_restored :
    let restored : Inflight Unit :=
      (({ maxSize := 100 } : Inflight Unit).put .outbound 1 { message := () }).put .outbound 2 { message := () }
    let actions : List (Action Unit) := [.nextPacketID (), .nextPacketID (), .nextPacketID (), .nextPacketID (),
      .add 0, .add 0]
    Along step Sparing { inflight := restored } actions ∧
      (Transition.run step { inflight := restored } actions).inflight.count .outbound = 4 :=
  ⟨allocates _ rfl (by decide) (by decide) _
    ⟨by decide, by decide, by decide, by decide, trivial, trivial, trivial⟩, by decide⟩

/-- The tracker with a message in flight under each of the first identifiers. -/
def crowded : Nat → Inflight Unit
  | 0 => {}
  | n + 1 => (crowded n).put .outbound (n + 1) { message := () }

lemma has_crowded {n i : Nat} (hzero : i ≠ 0) (hle : i ≤ n) : (crowded n).has i = true := by
  induction n with
  | zero => exact absurd (Nat.le_zero.1 hle) hzero
  | succ n ih =>
    rw [crowded, has, lookup_put]
    split
    · rfl
    · rename_i hne
      exact ih (Nat.le_of_lt_succ (Nat.lt_of_le_of_ne hle fun heq => hne ⟨rfl, heq⟩))

/-- With as many messages in flight as `MaxInflightMessages` may allow, the loop that the next delivery
enters before it asks for a token does not end. -/
theorem search_endless : ¬ ∃ tries,
    (({ inflight := crowded 65535, nextPacketID := 65535 } : Allocation Unit).search tries).isSome := by
  have hnone : ∀ tries counter, (crowded 65535).findPacketID tries counter = none := by
    intro tries
    induction tries with
    | zero => exact fun _ => rfl
    | succ tries ih =>
      intro counter
      rw [findPacketID, if_neg, ih]
      rintro ⟨hzero, hfree⟩
      have hle : counter % 2 ^ 16 ≤ 65535 := by omega
      rw [has_crowded hzero hle] at hfree
      cases hfree
  simp [search, hnone]

end Allocation

end FluxMQ.Mqtt
