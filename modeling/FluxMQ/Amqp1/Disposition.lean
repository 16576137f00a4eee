import Mathlib.Data.List.Range
import Mathlib.Algebra.Ring.Nat

/-!
# Dispositions of AMQP 1.0 deliveries

`handleDisposition` of a link settles the pending deliveries of a range of delivery IDs. The IDs are
sequence numbers modulo `2 ^ 32`, and the loop over the range compares them as machine integers.

* `Disposition.range`: the IDs from the first to the last one, as sequence numbers.
* `Link.Settles`: what a disposition is for.
* `Link.handleDisposition_settles_iff`: when `handleDisposition` does that.
* `Link.handleDisposition_diverges`: the loop over a range that ends there does not end.
-/

namespace FluxMQ.Amqp1.Settling

open Function List

/-- What the peer makes of a delivery. -/
inductive Outcome where
  | accepted
  | rejected
  | released
  | modified
  deriving Repr, DecidableEq

/-- A disposition of the peer, for a range of deliveries. -/
structure Disposition where
  first : Nat
  last : Option Nat := none
  settled : Bool := true
  state : Option Outcome
  deriving Repr, DecidableEq

/-- A delivery that the link waits for a disposition of. -/
structure PendingDelivery where
  queueName : String := ""
  groupID : String := ""
  offset : Nat := 0
  /-- It is the delivery of a record of a queue. -/
  queued : Bool := true
  deriving Repr, DecidableEq

/-- What is asked of the queue manager. -/
inductive Settlement where
  | ack (queueName groupID : String) (offset : Nat)
  | reject (queueName groupID : String) (offset : Nat) (reason : String)
  | nack (queueName groupID : String) (offset : Nat)
  deriving Repr, DecidableEq

/-- The deliveries of a link that wait for a disposition, and what the queue manager was asked for which
of them. -/
structure Link where
  /-- There is a queue manager. -/
  queueLinkManager : Bool := true
  pending : Nat → Option PendingDelivery := fun _ => none
  settlements : List (Nat × Settlement) := []

namespace Disposition

variable (disp : Disposition)

/-- The end of the range. -/
def upper : Nat := disp.last.getD disp.first

/-- The settlement of a delivery. The switch has no case for `modified` or a disposition without a state. -/
def settlement (pd : PendingDelivery) : Option Settlement :=
  match disp.state with
  | some .accepted => some (.ack pd.queueName pd.groupID pd.offset)
  | some .rejected => some (.reject pd.queueName pd.groupID pd.offset "rejected by client")
  | some .released => some (.nack pd.queueName pd.groupID pd.offset)
  | some .modified | none => none

/-- The state says what to ask the queue manager. -/
def settles : Bool :=
  disp.state.any (· != .modified)

lemma isSome_settlement (pd : PendingDelivery) : (disp.settlement pd).isSome = disp.settles := by
  unfold settlement settles
  rcases disp.state with _ | _ | _ | _ | _ <;> rfl

/-- The delivery IDs from the first to the last one, as sequence numbers. -/
def range : List Nat :=
  (List.range ((disp.upper + 2 ^ 32 - disp.first) % 2 ^ 32 + 1)).map fun i => (disp.first + i) % 2 ^ 32

end Disposition

namespace Link

variable (l : Link) (disp : Disposition)

/-- The settlement of the delivery with an ID, if it is pending. -/
def settlementOf (id : Nat) : Option (Nat × Settlement) :=
  match l.pending id with
  | none => none
  | some pd => if pd.queued && l.queueLinkManager then (disp.settlement pd).map (id, ·) else none

/-- The body of the loop of `handleDisposition`. -/
def settle (id : Nat) : Link :=
  { l with
    settlements := l.settlements ++ (l.settlementOf disp id).toList
    pending := if disp.settled then update l.pending id none else l.pending }

/-- The loop of `handleDisposition`. Incrementing the ID wraps around. -/
def settleFrom : Nat → Nat → Link → Option Link
  | 0, _, _ => none
  | fuel + 1, id, l =>
    if id ≤ disp.upper then settleFrom fuel ((id + 1) % 2 ^ 32) (l.settle disp id) else some l

def handleDisposition (fuel : Nat) : Option Link := settleFrom disp fuel disp.first l

/-- The loop goes through the IDs of its range in order. -/
lemma settleFrom_eq (hupper : disp.upper < 2 ^ 32 - 1) (n id : Nat) (hid : id + n = disp.upper + 1) :
    settleFrom disp (n + 1) id l = some ((range' id n).foldl (·.settle disp) l) := by
  induction n generalizing id l with
  | zero =>
    have hpast : ¬ id ≤ disp.upper := by omega
    simp [settleFrom, hpast]
  | succ n ih =>
    have hnext : (id + 1) % 2 ^ 32 = id + 1 := Nat.mod_eq_of_lt (by omega)
    rw [settleFrom, if_pos (by omega), hnext, ih _ _ (by omega), range'_succ, foldl_cons]

/-- Each of several deliveries is settled once. -/
lemma foldl_settle (ids : List Nat) (hids : ids.Nodup) :
    (ids.foldl (·.settle disp) l).settlements = l.settlements ++ ids.filterMap (l.settlementOf disp) ∧
    ∀ id, (ids.foldl (·.settle disp) l).pending id =
      if disp.settled ∧ id ∈ ids then none else l.pending id := by
  induction ids generalizing l with
  | nil => simp
  | cons head ids ih =>
    obtain ⟨hhead, hids⟩ := nodup_cons.mp hids
    obtain ⟨hsettlements, hpending⟩ := ih (l.settle disp head) hids
    have hother : ∀ id ≠ head, (l.settle disp head).pending id = l.pending id := by
      intro id hid
      unfold settle
      split
      · exact update_of_ne hid ..
      · rfl
    refine ⟨?_, fun id => ?_⟩
    · -- What is settled later was not touched by the first one.
      have hrest : ids.filterMap ((l.settle disp head).settlementOf disp) =
          ids.filterMap (l.settlementOf disp) := by
        refine filterMap_congr fun id hid => ?_
        have hne : id ≠ head := fun h => hhead (h ▸ hid)
        simp only [settlementOf, hother id hne]
        rfl
      rw [foldl_cons, hsettlements, hrest]
      cases hs : l.settlementOf disp head <;> simp [settle, hs]
    · rw [foldl_cons, hpending]
      by_cases hid : id = head
      · subst hid
        by_cases hsettled : disp.settled <;> simp [settle, hsettled]
      · simp [hother id hid, hid]

/-- The delivery with the ID is a record of a queue that the queue manager waits for. -/
def owed (id : Nat) : Bool :=
  l.queueLinkManager && (l.pending id).any (·.queued)

/-- What a disposition is for: the queue manager is asked once for each record of the range that it
waits for, in the way of the state. A settled disposition ends the deliveries of the range, and the
others stay pending. -/
structure Settles (l' : Link) : Prop where
  asked : ∃ calls, l'.settlements = l.settlements ++ calls ∧
    calls.map Prod.fst = disp.range.filter l.owed ∧
    ∀ call ∈ calls, ∃ pd, l.pending call.1 = some pd ∧ disp.settlement pd = some call.2
  pending : ∀ id, l'.pending id = if disp.settled ∧ id ∈ disp.range then none else l.pending id

/-- A delivery that is waited for is asked about if the state says what to ask. -/
lemma settlementOf_eq (id : Nat) : l.settlementOf disp id =
    if l.owed id then (l.pending id).bind fun pd => (disp.settlement pd).map (id, ·) else none := by
  unfold settlementOf owed
  cases l.pending id with
  | none => simp
  | some pd => simp [Bool.and_comm]

lemma map_settlements (ids : List Nat) (h : disp.settles = true) :
    (ids.filterMap (l.settlementOf disp)).map Prod.fst = ids.filter l.owed := by
  induction ids with
  | nil => rfl
  | cons id ids ih =>
    cases howed : l.owed id with
    | false => simp [settlementOf_eq, howed, ← ih]
    | true =>
      obtain ⟨pd, hpd⟩ : ∃ pd, l.pending id = some pd := by
        cases hpd : l.pending id with
        | none => simp [owed, hpd] at howed
        | some pd => exact ⟨pd, rfl⟩
      obtain ⟨call, hcall⟩ := Option.isSome_iff_exists.1 ((disp.isSome_settlement pd).trans h)
      simp [settlementOf_eq, howed, hpd, hcall, ← ih]

/-- A call that is made is for a delivery that is waited for, in the way of the state. -/
lemma of_mem_settlements {ids : List Nat} {call : Nat × Settlement}
    (h : call ∈ ids.filterMap (l.settlementOf disp)) :
    ∃ pd, l.pending call.1 = some pd ∧ disp.settlement pd = some call.2 := by
  obtain ⟨id, -, hcall⟩ := mem_filterMap.1 h
  unfold settlementOf at hcall
  split at hcall
  · cases hcall
  · rename_i pd hpd
    split at hcall
    · obtain ⟨settlement, hsettlement, rfl⟩ := Option.map_eq_some_iff.1 hcall
      exact ⟨pd, hpd, hsettlement⟩
    · cases hcall

/-- A range that does not reach the largest ID is gone through once. -/
lemma handleDisposition_eq (hfirst : disp.first ≤ disp.upper) (hupper : disp.upper < 2 ^ 32 - 1) :
    disp.range.Nodup ∧ l.handleDisposition disp (disp.range.length + 1) =
      some (disp.range.foldl (·.settle disp) l) := by
  have hrange : disp.range = range' disp.first (disp.upper - disp.first + 1) := by
    have hlength : (disp.upper + 2 ^ 32 - disp.first) % 2 ^ 32 = disp.upper - disp.first := by omega
    rw [Disposition.range, hlength, range'_eq_map_range]
    refine map_congr_left fun i hi => Nat.mod_eq_of_lt ?_
    rw [mem_range] at hi
    omega
  have hloop := l.settleFrom_eq disp hupper (disp.upper - disp.first + 1) disp.first (by omega)
  refine ⟨hrange ▸ nodup_range', ?_⟩
  rw [handleDisposition, hrange, length_range', hloop]

/-- More rounds change nothing once the loop has ended. -/
lemma settleFrom_le {disp : Disposition} {fuel fuel' id : Nat} {l l' : Link}
    (h : settleFrom disp fuel id l = some l') (hle : fuel ≤ fuel') :
    settleFrom disp fuel' id l = some l' := by
  induction fuel generalizing fuel' id l with
  | zero => cases h
  | succ fuel ih =>
    obtain ⟨fuel', rfl⟩ : ∃ n, fuel' = n + 1 := ⟨fuel' - 1, by omega⟩
    unfold settleFrom at h ⊢
    split at h
    · rename_i hid
      rw [if_pos hid]
      exact ih h (by omega)
    · rename_i hid
      rwa [if_neg hid]

lemma handleDisposition_unique {fuel fuel' : Nat} {l₁ l₂ : Link}
    (h₁ : l.handleDisposition disp fuel = some l₁) (h₂ : l.handleDisposition disp fuel' = some l₂) :
    l₁ = l₂ :=
  Option.some.inj ((settleFrom_le h₁ (Nat.le_max_left fuel fuel')).symm.trans
    (settleFrom_le h₂ (Nat.le_max_right fuel fuel')))

/-- What the loop does to a range is what the disposition is for, unless the queue manager waits for a
record and the state does not say what to ask. -/
lemma settles_foldl_iff (hnodup : disp.range.Nodup) :
    l.Settles disp (disp.range.foldl (·.settle disp) l) ↔
      disp.settles = true ∨ ∀ id ∈ disp.range, l.owed id = false := by
  obtain ⟨hsettlements, hpending⟩ := l.foldl_settle disp disp.range hnodup
  constructor
  · rintro ⟨⟨calls, hcalls, hids, hways⟩, -⟩
    refine or_iff_not_imp_right.2 fun howed => ?_
    obtain ⟨id, hid⟩ : ∃ id, id ∈ disp.range.filter l.owed := by simpa using howed
    obtain ⟨call, hcall, -⟩ := mem_map.1 (hids ▸ hid)
    obtain ⟨pd, -, hway⟩ := hways call hcall
    rw [← disp.isSome_settlement pd, hway]
    rfl
  · intro h
    refine ⟨⟨_, hsettlements, ?_, fun call hcall => l.of_mem_settlements disp hcall⟩, hpending⟩
    rcases h with hstate | hnone
    · exact l.map_settlements disp _ hstate
    · have hfilter : disp.range.filter l.owed = [] := by simpa using hnone
      have hmap : disp.range.filterMap (l.settlementOf disp) = [] := by
        refine filterMap_eq_nil_iff.2 fun id hid => ?_
        rw [settlementOf_eq, hnone id hid]
        rfl
      rw [hfilter, hmap, map_nil]

/-- Nothing is done for a range across the wrap-around, which is right if there is nothing to do. -/
lemma settles_self_iff : l.Settles disp l ↔
    ∀ id ∈ disp.range, l.owed id = false ∧ (disp.settled = true → l.pending id = none) := by
  constructor
  · rintro ⟨⟨calls, hcalls, hids, -⟩, hpending⟩ id hid
    have hnil : calls = [] := by simpa using hcalls
    rw [hnil, map_nil, eq_comm, filter_eq_nil_iff] at hids
    exact ⟨by simpa using hids id hid, fun hsettled => (hpending id).trans (if_pos ⟨hsettled, hid⟩)⟩
  · intro h
    refine ⟨⟨[], (append_nil _).symm, ?_, fun _ hcall => nomatch hcall⟩, fun id => ?_⟩
    · rw [map_nil, eq_comm, filter_eq_nil_iff]
      intro id hid
      simp [(h id hid).1]
    · split
      · rename_i hid
        exact (h id hid.2).2 hid.1
      · rfl

/-- A range that ends with the largest ID is never done with. -/
theorem handleDisposition_diverges (hfirst : disp.first < 2 ^ 32) (hupper : disp.upper = 2 ^ 32 - 1)
    (fuel : Nat) : l.handleDisposition disp fuel = none := by
  unfold handleDisposition
  generalize disp.first = id at hfirst
  induction fuel generalizing id l with
  | zero => rfl
  | succ fuel ih =>
    rw [settleFrom, if_pos (by omega)]
    exact ih _ _ (Nat.mod_lt _ (by decide))

/-- `handleDisposition` ends and does what the disposition is for exactly if its range does not reach the
largest ID, the state says what to ask where the queue manager waits for a record of the range, and
nothing is to be done for a range across the wrap-around. -/
theorem handleDisposition_settles_iff (hfirst : disp.first < 2 ^ 32) (hlast : disp.upper < 2 ^ 32) :
    (∃ fuel l', l.handleDisposition disp fuel = some l' ∧ l.Settles disp l') ↔
      disp.upper ≠ 2 ^ 32 - 1 ∧
      (disp.settles = true ∨ ∀ id ∈ disp.range, l.owed id = false) ∧
      (disp.first ≤ disp.upper ∨
        ∀ id ∈ disp.range, l.owed id = false ∧ (disp.settled = true → l.pending id = none)) := by
  by_cases hmax : disp.upper = 2 ^ 32 - 1
  · refine ⟨?_, fun h => absurd hmax h.1⟩
    rintro ⟨fuel, l', hl', -⟩
    rw [l.handleDisposition_diverges disp hfirst hmax fuel] at hl'
    cases hl'
  by_cases hle : disp.first ≤ disp.upper
  · obtain ⟨hnodup, hloop⟩ := l.handleDisposition_eq disp hle (by omega)
    rw [← l.settles_foldl_iff disp hnodup]
    constructor
    · rintro ⟨fuel, l', hl', hsettles⟩
      exact ⟨hmax, l.handleDisposition_unique disp hl' hloop ▸ hsettles, .inl hle⟩
    · rintro ⟨-, hsettles, -⟩
      exact ⟨_, _, hloop, hsettles⟩
  · have hloop : l.handleDisposition disp 1 = some l := by
      rw [handleDisposition, settleFrom, if_neg hle]
    constructor
    · rintro ⟨fuel, l', hl', hsettles⟩
      obtain rfl := l.handleDisposition_unique disp hl' hloop
      have hnone := (l'.settles_self_iff disp).1 hsettles
      exact ⟨hmax, .inr fun id hid => (hnone id hid).1, .inr hnone⟩
    · rintro ⟨-, -, hnone⟩
      exact ⟨1, l, hloop, (l.settles_self_iff disp).2 (hnone.resolve_left hle)⟩

/-- A link with deliveries on both sides of the wrap-around. -/
def wrapping : Link where
  pending := fun id => if id ∈ [2 ^ 32 - 1, 0, 3] then some {} else none

theorem handleDisposition_settles_iff_wrapping :
    ∃ fuel l', wrapping.handleDisposition ⟨3, some 4, true, some .accepted⟩ fuel = some l' ∧
      wrapping.Settles ⟨3, some 4, true, some .accepted⟩ l' :=
  (wrapping.handleDisposition_settles_iff ⟨3, some 4, true, some .accepted⟩ (by decide) (by decide)).2
    ⟨by decide, .inl rfl, .inl (by decide)⟩

/-- The disposition of the delivery with the largest ID is never done with. A range across the wrap-around
settles nothing. -/
theorem handleDisposition_wraps :
    (∀ fuel, wrapping.handleDisposition ⟨2 ^ 32 - 1, none, true, some .accepted⟩ fuel = none) ∧
      wrapping.handleDisposition ⟨2 ^ 32 - 1, some 0, true, some .accepted⟩ 1 = some wrapping ∧
      (⟨2 ^ 32 - 1, some 0, true, some .accepted⟩ : Disposition).range = [2 ^ 32 - 1, 0] := by
  refine ⟨wrapping.handleDisposition_diverges _ (by decide) (by decide), ?_, by decide⟩
  rw [handleDisposition, settleFrom, if_neg (by decide)]

end Link

end FluxMQ.Amqp1.Settling
