import FluxMQ.Library.Runs
import FluxMQ.Logstorage.Progress

/-!
# What the ack floor says

`GroupState` calls the ack floor the highest contiguous acknowledged offset: everything at or below
it is done. The loop that advances it starts behind the current floor, and a fresh state has the
floor 0, so no acknowledgement ever looks at offset 0. While offset 0 is pending, the floor says
what it should only as long as offset 1 holds it back.
-/

namespace FluxMQ

open Transition StateEffect

/-- Ordinary consumption. Offsets are delivered in increasing order, and positions are neither set
nor restored. While offset 0 is pending, what is acknowledged is offset 0 itself or lies behind a
pending offset 1. -/
def StateEffect.Orderly (cs : ConsumerState) : StateEffect → Prop
  | .deliver offset _ _ => cs.cursor ≤ offset
  | .ack offset => cs.isPending 0 = true → offset = 0 ∨ (cs.isPending 1 = true ∧ offset ≠ 1)
  | .nack _ _ | .claim _ _ _ | .release _ _ => True
  | .advanceFloor _ | .setCursor _ | .restorePending _ _ _ _ => False

instance (cs : ConsumerState) (e : StateEffect) : Decidable (e.Orderly cs) := by
  cases e <;> unfold StateEffect.Orderly <;> infer_instance

/-- The single changes that calls make, in order. -/
def StateCall.effects (calls : List StateCall) : List StateEffect :=
  (calls.flatMap records).flatMap LogOperation.effects

/-- A run of calls makes their changes one by one. -/
lemma StateCall.run_eq (cs : ConsumerState) (calls : List StateCall) :
    run onState cs calls = run ConsumerState.applyEffect cs (effects calls) := by
  induction calls generalizing cs with
  | nil => rfl
  | cons call calls ih =>
    have hcons : effects (call :: calls) = call.records.flatMap LogOperation.effects ++ effects calls :=
      List.flatMap_append
    rw [run_cons, ih, ← replay_records, ConsumerState.replay_eq, hcons, run_append]
    rfl

namespace ConsumerState

variable {cs : ConsumerState} {offset : Nat}

/-- Everything up to the floor is done, offset 0 under the floor 0 apart. -/
def FloorDone (cs : ConsumerState) : Prop :=
  ∀ offset, cs.isPending offset = true → offset ≤ cs.ackFloor → offset = 0 ∧ cs.ackFloor = 0

/-- What ordinary consumption keeps. -/
structure InOrder (cs : ConsumerState) : Prop where
  pending_lt : ∀ offset, cs.isPending offset = true → offset < cs.cursor
  floor_lt : cs.ackFloor = 0 ∨ cs.ackFloor < cs.cursor
  done : cs.FloorDone

/-- The offsets that the loop steps over lie below the cursor and are free. -/
lemma free_of_le_floorFrom {fuel floor : Nat} (hlt : floor < offset)
    (hle : offset ≤ cs.floorFrom fuel floor) :
    offset < cs.cursor ∧ cs.isPending offset = false := by
  induction fuel generalizing floor with
  | zero =>
    rw [floorFrom] at hle
    omega
  | succ fuel ih =>
    rw [floorFrom] at hle
    split at hle
    · rename_i hnext
      rcases Nat.eq_or_lt_of_le hlt with rfl | hlt
      · exact hnext
      · exact ih hlt hle
    · omega

lemma isPending_applyEffect (e : StateEffect) :
    (cs.applyEffect e).isPending offset = (e.onHolding offset (cs.holding offset)).isSome := by
  rw [isPending_iff_holding, holding_applyEffect]

lemma isPending_applyAck {o : Nat} :
    (cs.applyAck o).isPending offset = true ↔ offset ≠ o ∧ cs.isPending offset = true := by
  show (cs.applyEffect (.ack o)).isPending offset = true ↔ _
  rw [isPending_applyEffect, isPending_iff_holding]
  by_cases ho : offset = o
  · simp [onHolding, ho]
  · simp [onHolding, ho, Ne.symm ho]

/-- Delivering behind the cursor. -/
lemma InOrder.deliver (h : cs.InOrder) {consumer : String} {ts : Int} (hoffset : cs.cursor ≤ offset) :
    (cs.applyEffect (.deliver offset consumer ts)).InOrder := by
  have hcursor : (cs.applyEffect (.deliver offset consumer ts)).cursor = offset + 1 := by
    rw [cursor_applyEffect, onCursor, if_pos hoffset]
  have hfloor : (cs.applyEffect (.deliver offset consumer ts)).ackFloor = cs.ackFloor := rfl
  have hpending : ∀ o, (cs.applyEffect (.deliver offset consumer ts)).isPending o = true →
      o = offset ∨ cs.isPending o = true := by
    intro o ho
    rw [isPending_applyEffect, onHolding] at ho
    split at ho
    · rename_i heq
      exact .inl heq.symm
    · exact .inr (isPending_iff_holding.trans ho)
  have hlt := h.floor_lt
  refine ⟨fun o ho => ?_, ?_, fun o ho hle => ?_⟩
  · rcases hpending o ho with rfl | ho
    · omega
    · have := h.pending_lt o ho
      omega
  · omega
  · rcases hpending o ho with rfl | ho
    · omega
    · exact h.done o ho hle

/-- Acknowledging in an order that does not step over offset 0. -/
lemma InOrder.ack (h : cs.InOrder) (hzero : StateEffect.Orderly cs (.ack offset)) :
    (cs.applyEffect (.ack offset)).InOrder := by
  show (cs.applyAck offset).InOrder
  have hlt := h.floor_lt
  -- Behind the old floor the loop has seen everything up to the new one.
  have hfree : ∀ o, cs.ackFloor < o → o ≤ (cs.applyAck offset).ackFloor →
      o < cs.cursor ∧ (cs.applyAck offset).isPending o = false := by
    intro o ho hle
    by_cases hpending : cs.isPending offset
    · rw [ackFloor_applyAck hpending] at hle
      have := free_of_le_floorFrom ho hle
      rwa [cursor_applyAck] at this
    · rw [applyAck, if_neg hpending] at hle
      omega
  refine ⟨fun o ho => ?_, ?_, fun o ho hle => ?_⟩
  · rw [cursor_applyAck]
    exact h.pending_lt o (isPending_applyAck.1 ho).2
  · rw [cursor_applyAck]
    by_cases hmoved : cs.ackFloor < (cs.applyAck offset).ackFloor
    · exact .inr (hfree _ hmoved le_rfl).1
    · have hle : cs.ackFloor ≤ (cs.applyAck offset).ackFloor := ackFloor_le_applyEffect (.ack offset)
      omega
  by_cases hold : o ≤ cs.ackFloor
  · obtain ⟨hne, hpending⟩ := isPending_applyAck.1 ho
    obtain ⟨rfl, hfloor⟩ := h.done o hpending hold
    refine ⟨rfl, ?_⟩
    -- Offset 0 stays pending, so offset 1 does too and holds the floor.
    obtain heq | ⟨hone, hne'⟩ := hzero hpending
    · exact absurd heq.symm hne
    · rw [ackFloor_applyAck_of_blocked, hfloor]
      rw [hfloor]
      exact .inr (isPending_applyAck.2 ⟨hne'.symm, hone⟩)
  · rw [(hfree o (Nat.lt_of_not_le hold) hle).2] at ho
    cases ho

/-- Ordinary consumption keeps the order. -/
lemma InOrder.applyEffect {e : StateEffect} (h : cs.InOrder)
    (he : e.Orderly cs) : (cs.applyEffect e).InOrder := by
  -- A change of one entry moves neither position and settles nothing.
  have hentry : (cs.applyEffect e).cursor = cs.cursor → (cs.applyEffect e).ackFloor = cs.ackFloor →
      (∀ o, (cs.applyEffect e).isPending o = cs.isPending o) → (cs.applyEffect e).InOrder := by
    intro hcursor hfloor hpending
    refine ⟨?_, ?_, ?_⟩
    · simpa only [hcursor, hpending] using h.pending_lt
    · simpa only [hcursor, hfloor] using h.floor_lt
    · simpa only [FloorDone, hfloor, hpending] using h.done
  cases e with
  | deliver offset consumer ts => exact h.deliver he
  | ack offset => exact h.ack he
  | advanceFloor floor | setCursor cursor | restorePending offset consumer ts count => exact he.elim
  | _ =>
    refine hentry rfl rfl fun o => ?_
    rw [isPending_applyEffect, isPending_iff_holding, onHolding]
    try split
    all_goals simp

lemma inOrder_empty : ({} : ConsumerState).InOrder :=
  ⟨fun _ h => Bool.noConfusion h, .inl rfl, fun _ h => Bool.noConfusion h⟩

/-- The ack floor means what it says. In every run of calls that deliver in increasing order, and
that step over offset 0 only when it is done, everything up to the floor is done; and no further
call lowers the floor. -/
theorem ackFloor_means_done (calls : List StateCall)
    (h : Transition.Along applyEffect (fun cs e => e.Orderly cs) {} (StateCall.effects calls)) :
    let cs := Transition.run StateCall.onState ({} : ConsumerState) calls
    cs.FloorDone ∧ ∀ call, cs.ackFloor ≤ (StateCall.onState cs call).ackFloor := by
  intro cs
  constructor
  · have hrun : cs = run applyEffect {} (StateCall.effects calls) := StateCall.run_eq {} calls
    rw [hrun]
    exact (invariant_run (fun cs e hcs he => hcs.applyEffect he) inOrder_empty h).done
  · intro call
    rw [← StateCall.replay_records, replay_eq]
    exact ackFloor_le_foldl_applyEffect _

/-- Offsets 0 to 2 are delivered, and acknowledged as 2, 0, 1. -/
theorem ackFloor_means_done_outOfOrder :
    (Transition.run StateCall.onState ({} : ConsumerState)
      [.deliverBatch 0 [0, 1, 2] "a", .ack 0 2, .ackBatch 0 [0, 1]]).FloorDone :=
  (ackFloor_means_done [.deliverBatch 0 [0, 1, 2] "a", .ack 0 2, .ackBatch 0 [0, 1]] (by decide)).1

/-- Offsets 0 and 1 are delivered and 1 is acknowledged: the floor is 1 and offset 0 is pending. -/
theorem ackFloor_over_pending_zero :
    let cs := Transition.run StateCall.onState ({} : ConsumerState)
      [.deliver 0 0 "a", .deliver 0 1 "a", .ack 0 1]
    cs.ackFloor = 1 ∧ cs.isPending 0 = true ∧ ¬ cs.FloorDone := by
  refine ⟨by decide, by decide, fun h => ?_⟩
  have := h 0 (by decide) (by decide)
  revert this
  decide

end ConsumerState

end FluxMQ
