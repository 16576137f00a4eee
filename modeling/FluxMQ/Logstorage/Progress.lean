import FluxMQ.Library.Replay
import FluxMQ.Logstorage.OpLog

/-!
# The progress of a consumer state

What a group may not lose is its cursor, its ack floor and, for each pending offset, the consumer
that holds it and how often it was delivered. `SameProgress` says that two consumer states agree
on these; attempt times and the count of deliveries made are not part of it.

Each change acts on the cursor and on what is held at one offset without looking at anything else.
Only the ack floor depends on the rest: an acknowledgement steps it over the offsets below the
cursor that are not pending.
-/

namespace FluxMQ

open StateEffect List

/-- The consumer that holds an offset, and the deliveries charged to it. -/
abbrev Holding := String × UInt16

/-- What one change does to what is held at an offset. -/
def StateEffect.onHolding (offset : Nat) (held : Option Holding) : StateEffect → Option Holding
  | .deliver o consumerId _ => if o = offset then some (consumerId, 1) else held
  | .restorePending o consumerId _ count =>
    if o = offset then some (consumerId, if count = 0 then 1 else count) else held
  | .ack o => if o = offset then none else held
  | .nack o _ => if o = offset then held.map fun h => (h.1, h.2 + 1) else held
  | .claim o consumerId _ => if o = offset then held.map fun h => (consumerId, h.2 + 1) else held
  | .advanceFloor _ | .setCursor _ | .release _ _ => held

/-- What one change does to the cursor. -/
def StateEffect.onCursor (cursor : Nat) : StateEffect → Nat
  | .deliver offset _ _ => if cursor ≤ offset then offset + 1 else cursor
  | .setCursor position => position
  | _ => cursor

/-- The change settles what is held at the offset, whatever was held there. -/
def StateEffect.Resets (offset : Nat) : StateEffect → Prop
  | .deliver o _ _ | .restorePending o _ _ _ | .ack o => o = offset
  | _ => False

/-- The change charges a delivery to the offset. -/
def StateEffect.Charges (offset : Nat) : StateEffect → Prop
  | .nack o _ | .claim o _ _ => o = offset
  | _ => False

/-- The change moves the cursor to a given position. -/
def StateEffect.Seeks : StateEffect → Prop
  | .setCursor _ => True
  | _ => False

/-- The change acknowledges an offset. -/
def StateEffect.Acks : StateEffect → Prop
  | .ack _ => True
  | _ => False

namespace StateEffect

variable {offset : Nat} {e : StateEffect} {effects : List StateEffect}

lemma forgets_onHolding (h : e.Resets offset) : Replay.Forgets (onHolding offset) e := by
  intro held held'
  cases e <;> simp_all [Resets, onHolding]

variable {held : Option Holding}

/-- A change that neither settles nor charges an offset leaves it alone, and a charge to an offset
that nobody holds is none. -/
lemma onHolding_eq_self (hresets : ¬ e.Resets offset)
    (hcharges : e.Charges offset → held = none) : e.onHolding offset held = held := by
  cases e <;> simp_all [Resets, Charges, onHolding]

lemma isSome_onHolding (hack : e ≠ .ack offset)
    (h : held.isSome) : (e.onHolding offset held).isSome := by
  cases e <;> simp_all [onHolding] <;> split <;> simp_all

/-- What was held can be made to hold again. -/
lemma foldl_onHolding_foldl
    (h : ∀ e ∈ effects, e.Charges offset → (effects.foldl (onHolding offset) held).isSome →
      ∃ e' ∈ effects, e'.Resets offset) :
    effects.foldl (onHolding offset) (effects.foldl (onHolding offset) held) =
      effects.foldl (onHolding offset) held := by
  apply Replay.foldl_foldl
  by_cases hresets : ∃ e ∈ effects, e.Resets offset
  · obtain ⟨e, he, hreset⟩ := hresets
    exact .inl ⟨e, he, forgets_onHolding hreset⟩
  -- Nothing settles the offset, so it was charged only if nobody holds it.
  refine .inr fun e he => onHolding_eq_self (fun hreset => hresets ⟨e, he, hreset⟩) fun hcharge => ?_
  by_contra hheld
  exact hresets (h e he hcharge (Option.isSome_iff_ne_none.2 hheld))

lemma le_onCursor {cursor : Nat} (h : ¬ e.Seeks) : cursor ≤ onCursor cursor e := by
  cases e <;> simp_all [Seeks, onCursor]
  split <;> omega

/-- A cursor at or beyond where a change puts it is not moved by the change. -/
lemma onCursor_eq_self {cursor position : Nat} (h : ¬ e.Seeks)
    (hle : onCursor cursor e ≤ position) : onCursor position e = position := by
  cases e <;> simp_all [Seeks, onCursor]
  split at hle <;> omega

/-- A cursor that was only carried along by deliveries is not moved by them again. -/
lemma onCursor_foldl_eq_self {cursor : Nat} (hseeks : ∀ e ∈ effects, ¬ e.Seeks) (he : e ∈ effects) :
    onCursor (effects.foldl onCursor cursor) e = effects.foldl onCursor cursor := by
  obtain ⟨before, after, rfl⟩ := append_of_mem he
  rw [foldl_append, foldl_cons]
  -- After `e` the cursor is where `e` puts it, and later changes do not move it back.
  refine onCursor_eq_self (hseeks e he)
    (foldlRecOn (motive := fun c => onCursor (before.foldl onCursor cursor) e ≤ c)
      after onCursor le_rfl fun c hc e' he' => hc.trans (le_onCursor (hseeks e' ?_)))
  exact mem_append_right _ (mem_cons_of_mem _ he')

/-- Moving the cursor twice leads where moving it once does. -/
lemma foldl_onCursor_foldl {cursor : Nat} :
    effects.foldl onCursor (effects.foldl onCursor cursor) = effects.foldl onCursor cursor := by
  apply Replay.foldl_foldl
  by_cases hseeks : ∃ e ∈ effects, e.Seeks
  · obtain ⟨e, he, hseek⟩ := hseeks
    refine .inl ⟨e, he, fun c c' => ?_⟩
    cases e <;> simp_all [Seeks, onCursor]
  · push Not at hseeks
    exact .inr fun e he => onCursor_foldl_eq_self hseeks he

end StateEffect

namespace ConsumerState

variable {cs cs' : ConsumerState} {offset : Nat}

/-- What is held at an offset. -/
def holding (cs : ConsumerState) (offset : Nat) : Option Holding :=
  (cs.entryAt offset).map fun e => (e.consumerId, e.deliveryCount)

lemma isPending_iff_holding : cs.isPending offset = (cs.holding offset).isSome := by
  rw [holding, Option.isSome_map, isPending_eq]

/-! ### What one change does -/

/-- What is held at an offset after a change is a function of what was held there. -/
lemma holding_applyEffect (e : StateEffect) :
    (cs.applyEffect e).holding offset = e.onHolding offset (cs.holding offset) := by
  unfold holding
  cases e with
  | deliver o consumerId ts =>
    show ((cs.put ⟨o, consumerId, ts, 1, ts⟩).entryAt offset).map _ = _
    rw [entryAt_put]
    by_cases ho : o = offset <;> simp [onHolding, ho]
  | restorePending o consumerId ts count =>
    rw [applyEffect, applyRestorePending, entryAt_put]
    by_cases ho : o = offset <;> simp [onHolding, ho]
  | ack o =>
    rw [applyEffect, entryAt_applyAck]
    by_cases ho : o = offset <;> simp [onHolding, ho]
  | nack o ts =>
    rw [applyEffect, applyNack, entryAt_modifyEntry]
    by_cases ho : o = offset <;> simp [onHolding, ho, Function.comp_def]
  | claim o consumerId ts =>
    rw [applyEffect, applyClaim, entryAt_modifyEntry]
    by_cases ho : o = offset <;> simp [onHolding, ho, Function.comp_def]
  | release o ts =>
    rw [applyEffect, applyRelease, entryAt_modifyEntry]
    by_cases ho : o = offset <;> simp [onHolding, ho, Function.comp_def]
  | advanceFloor floor =>
    rw [applyEffect, applyAdvanceFloor]
    split <;> rfl
  | setCursor cursor => rfl

/-- The cursor after a change is a function of the cursor. -/
lemma cursor_applyEffect (e : StateEffect) : (cs.applyEffect e).cursor = e.onCursor cs.cursor := by
  cases e with
  | ack o => exact cursor_applyAck
  | advanceFloor floor =>
    rw [applyEffect, applyAdvanceFloor]
    split <;> rfl
  | _ => rfl

lemma holding_foldl_applyEffect (effects : List StateEffect) :
    (effects.foldl applyEffect cs).holding offset =
      effects.foldl (onHolding offset) (cs.holding offset) :=
  (foldl_hom (fun cs : ConsumerState => cs.holding offset) fun _ e => (holding_applyEffect e).symm).symm

lemma cursor_foldl_applyEffect (effects : List StateEffect) :
    (effects.foldl applyEffect cs).cursor = effects.foldl onCursor cs.cursor :=
  (foldl_hom cursor fun _ e => (cursor_applyEffect e).symm).symm

/-! ### The ack floor -/

lemma le_floorFrom (fuel floor : Nat) : floor ≤ cs.floorFrom fuel floor := by
  induction fuel generalizing floor with
  | zero => exact le_rfl
  | succ fuel ih =>
    rw [floorFrom]
    split
    · exact (Nat.le_succ floor).trans (ih (floor + 1))
    · exact le_rfl

/-- The loop that steps the floor reads the cursor and which offsets are pending. -/
lemma floorFrom_congr (hcursor : cs.cursor = cs'.cursor)
    (hpending : ∀ o, cs.isPending o = cs'.isPending o) (fuel floor : Nat) :
    cs.floorFrom fuel floor = cs'.floorFrom fuel floor := by
  induction fuel generalizing floor with
  | zero => rfl
  | succ fuel ih => rw [floorFrom, floorFrom, hcursor, hpending, ih]

/-- The floor stays where it is when the next offset is pending or not below the cursor. -/
lemma floorFrom_eq_self {fuel floor : Nat}
    (h : cs.cursor ≤ floor + 1 ∨ cs.isPending (floor + 1) = true) :
    cs.floorFrom fuel floor = floor := by
  cases fuel with
  | zero => rfl
  | succ fuel =>
    rw [floorFrom, if_neg]
    rintro ⟨hlt, hfree⟩
    rcases h with hle | hpending
    · omega
    · simp [hfree] at hpending

/-- The loop reads nothing that it changes. -/
lemma ackFloor_tryAdvanceAckFloor : cs.tryAdvanceAckFloor.ackFloor =
    cs.tryAdvanceAckFloor.floorFrom (cs.cursor - cs.ackFloor) cs.ackFloor := by
  show cs.floorFrom _ _ = cs.tryAdvanceAckFloor.floorFrom _ _
  apply floorFrom_congr
  · rfl
  · intro o
    rfl

lemma ackFloor_applyAck {o : Nat} (hpending : cs.isPending o) :
    (cs.applyAck o).ackFloor = (cs.applyAck o).floorFrom (cs.cursor - cs.ackFloor) cs.ackFloor := by
  rw [applyAck, if_pos hpending]
  exact ackFloor_tryAdvanceAckFloor

lemma ackFloor_applyAck_of_blocked {o : Nat}
    (h : cs.cursor ≤ cs.ackFloor + 1 ∨ (cs.applyAck o).isPending (cs.ackFloor + 1) = true) :
    (cs.applyAck o).ackFloor = cs.ackFloor := by
  by_cases hpending : cs.isPending o
  · rw [ackFloor_applyAck hpending]
    exact floorFrom_eq_self (by rwa [cursor_applyAck])
  · rw [applyAck, if_neg hpending]

lemma ackFloor_applyAdvanceFloor (floor : Nat) :
    (cs.applyAdvanceFloor floor).ackFloor = max cs.ackFloor floor := by
  rw [applyAdvanceFloor]
  split
  · rename_i h
    exact (max_eq_right h.le).symm
  · rename_i h
    exact (max_eq_left (not_lt.1 h)).symm

/-- The floor never falls. -/
lemma ackFloor_le_applyEffect (e : StateEffect) : cs.ackFloor ≤ (cs.applyEffect e).ackFloor := by
  cases e with
  | ack o =>
    by_cases hpending : cs.isPending o
    · rw [applyEffect, ackFloor_applyAck hpending]
      exact le_floorFrom _ _
    · rw [applyEffect, applyAck, if_neg hpending]
  | advanceFloor floor =>
    rw [applyEffect, ackFloor_applyAdvanceFloor]
    exact le_max_left _ _
  | _ => exact le_rfl

lemma ackFloor_le_foldl_applyEffect (effects : List StateEffect) :
    cs.ackFloor ≤ (effects.foldl applyEffect cs).ackFloor :=
  foldlRecOn (motive := fun cs' => cs.ackFloor ≤ cs'.ackFloor) effects applyEffect le_rfl
    fun _ h e _ => h.trans (ackFloor_le_applyEffect e)

/-- A floor that was restored is never fallen below. -/
lemma le_ackFloor_foldl_applyEffect {effects : List StateEffect} {floor : Nat}
    (h : .advanceFloor floor ∈ effects) : floor ≤ (effects.foldl applyEffect cs).ackFloor := by
  obtain ⟨before, after, rfl⟩ := append_of_mem h
  rw [foldl_append, foldl_cons]
  refine le_trans ?_ (ackFloor_le_foldl_applyEffect after)
  rw [applyEffect, ackFloor_applyAdvanceFloor]
  exact le_max_right _ _

/-- A change leaves the floor where it is if it does not restore a higher one, and if what it
acknowledges is not followed by a free offset below the cursor. -/
lemma ackFloor_applyEffect_eq_self {e : StateEffect}
    (hadvance : ∀ floor, e = .advanceFloor floor → floor ≤ cs.ackFloor)
    (hack : e.Acks → cs.cursor ≤ cs.ackFloor + 1 ∨
      ((cs.applyEffect e).holding (cs.ackFloor + 1)).isSome) :
    (cs.applyEffect e).ackFloor = cs.ackFloor := by
  cases e with
  | ack o =>
    refine ackFloor_applyAck_of_blocked ((hack trivial).imp_right fun h => ?_)
    rw [isPending_iff_holding]
    exact h
  | advanceFloor floor =>
    rw [applyEffect, ackFloor_applyAdvanceFloor]
    exact max_eq_left (hadvance floor rfl)
  | _ => rfl

/-! ### States of the same progress -/

/-- Two consumer states agree on everything a group may not lose. -/
structure SameProgress (cs cs' : ConsumerState) : Prop where
  cursor : cs.cursor = cs'.cursor
  ackFloor : cs.ackFloor = cs'.ackFloor
  holding : ∀ offset, cs.holding offset = cs'.holding offset

namespace SameProgress

lemma refl (cs : ConsumerState) : SameProgress cs cs := ⟨rfl, rfl, fun _ => rfl⟩

section

variable (h : SameProgress cs cs')
include h

lemma isPending (offset : Nat) : cs.isPending offset = cs'.isPending offset := by
  rw [isPending_iff_holding, isPending_iff_holding, h.holding]

/-- A change leads states of the same progress to states of the same progress. -/
lemma applyEffect (e : StateEffect) : SameProgress (cs.applyEffect e) (cs'.applyEffect e) := by
  have hcursor : (cs.applyEffect e).cursor = (cs'.applyEffect e).cursor := by
    rw [cursor_applyEffect, cursor_applyEffect, h.cursor]
  have hholding : ∀ offset, (cs.applyEffect e).holding offset = (cs'.applyEffect e).holding offset := by
    intro offset
    rw [holding_applyEffect, holding_applyEffect, h.holding]
  refine ⟨hcursor, ?_, hholding⟩
  cases e with
  | ack o =>
    simp only [ConsumerState.applyEffect] at hcursor hholding ⊢
    by_cases hpending : cs.isPending o
    · have hpending' : cs'.isPending o := h.isPending o ▸ hpending
      rw [ackFloor_applyAck hpending, ackFloor_applyAck hpending', h.cursor, h.ackFloor]
      exact floorFrom_congr hcursor
        (fun o => by rw [isPending_iff_holding, isPending_iff_holding, hholding]) _ _
    · have hpending' : ¬ cs'.isPending o := h.isPending o ▸ hpending
      rw [applyAck, if_neg hpending, applyAck, if_neg hpending', h.ackFloor]
  | advanceFloor floor =>
    simp only [ConsumerState.applyEffect, ackFloor_applyAdvanceFloor, h.ackFloor]
  | _ => exact h.ackFloor

/-- Replaying records leads states of the same progress to states of the same progress. -/
lemma replay (ops : List LogOperation) : SameProgress (cs.replay ops) (cs'.replay ops) := by
  rw [replay_eq, replay_eq]
  induction ops.flatMap LogOperation.effects generalizing cs cs' with
  | nil => exact h
  | cons e effects ih => exact ih (h.applyEffect e)

end

end SameProgress

end ConsumerState

end FluxMQ
