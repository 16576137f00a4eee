import FluxMQ.Library.Runs
import Mathlib.Order.Bounds.Basic

/-!
# The ledger of a consumer group

What a consumer group is for, without its storage: a cursor that separates the records handed out
from those still to come, a committed offset below which the log may be truncated, and the consumer
that holds each record handed out and not yet settled.

`Ledger.apply` performs one elementary change. Every operation of the manager is a run of such
changes (`FluxMQ.Consumer.Refinement`), so what the changes preserve holds of the broker.

* `Ledger.Legal`: the changes a manager may make. The cursor never moves back, a record is claimed
  at or behind the cursor, and the committed offset stays at or below the cursor.
* `Ledger.Bounded`: every held record lies below the cursor, and so does the committed offset.
* `Ledger.Safe`: no held record lies below the committed offset.
* `Ledger.Exact`: the committed offset is the smallest held one, or the cursor.
-/

namespace FluxMQ

/-- The state of a consumer group, without its storage. -/
structure Ledger where
  /-- Next offset to hand out. -/
  cursor : Nat
  /-- Offset below which the log may be truncated. -/
  committed : Nat
  /-- The consumer that holds the record at an offset, if one does. -/
  owner : Nat → Option String

/-- An elementary change of a ledger. -/
inductive Act where
  /-- Hand the record at `offset` out for the first time and step behind it. -/
  | claim (offset : Nat) (consumer : String)
  /-- Step the cursor over records nobody is given. -/
  | skip (next : Nat)
  /-- Hand a held record to another consumer. -/
  | handOver (offset : Nat) (consumer : String)
  /-- A held record is finished with. -/
  | settle (offset : Nat)
  /-- Move the committed offset. -/
  | commit (committed : Nat)

namespace Ledger

@[ext]
lemma ext {l l' : Ledger} (hcursor : l.cursor = l'.cursor) (hcommitted : l.committed = l'.committed)
    (howner : ∀ o, l.owner o = l'.owner o) : l = l' := by
  cases l
  cases l'
  simp only [mk.injEq]
  exact ⟨hcursor, hcommitted, funext howner⟩

/-- Perform one change. -/
def apply (l : Ledger) : Act → Ledger
  | .claim offset consumer =>
    { l with cursor := offset + 1, owner := Function.update l.owner offset (some consumer) }
  | .skip next => { l with cursor := next }
  | .handOver offset consumer =>
    { l with owner := Function.update l.owner offset (some consumer) }
  | .settle offset => { l with owner := Function.update l.owner offset none }
  | .commit committed => { l with committed }

/-- The record at an offset is held. -/
def Held (l : Ledger) (offset : Nat) : Prop :=
  (l.owner offset).isSome

/-- The changes a manager may make. -/
def Legal (l : Ledger) : Act → Prop
  | .claim offset _ => l.cursor ≤ offset
  | .skip next => l.cursor ≤ next
  | .handOver offset _ => l.Held offset
  | .settle _ => True
  | .commit committed => committed ≤ l.cursor

/-- Everything held, and the committed offset, lies at or below the cursor. -/
structure Bounded (l : Ledger) : Prop where
  held_lt : ∀ o, l.Held o → o < l.cursor
  committed_le : l.committed ≤ l.cursor

/-- No held record lies below the committed offset. -/
def Safe (l : Ledger) : Prop :=
  ∀ o, l.Held o → l.committed ≤ o

/-- The committed offset is the smallest held offset, or the cursor when nothing is held. -/
def Exact (l : Ledger) : Prop :=
  IsLeast {o | l.Held o} l.committed ∨ ((∀ o, ¬ l.Held o) ∧ l.committed = l.cursor)

section

variable (l : Ledger) (o offset : Nat) (consumer : String)

lemma held_claim : (l.apply (.claim offset consumer)).Held o ↔ o = offset ∨ l.Held o := by
  by_cases h : o = offset <;> simp [Held, apply, h]

lemma held_handOver : (l.apply (.handOver offset consumer)).Held o ↔ o = offset ∨ l.Held o := by
  by_cases h : o = offset <;> simp [Held, apply, h]

lemma held_settle : (l.apply (.settle offset)).Held o ↔ o ≠ offset ∧ l.Held o := by
  by_cases h : o = offset <;> simp [Held, apply, h]

end

variable {l l' : Ledger} {a : Act}

/-- A legal change never moves the cursor back. -/
lemma cursor_le_apply (h : l.Legal a) : l.cursor ≤ (l.apply a).cursor := by
  cases a with
  | claim offset consumer => exact Nat.le_succ_of_le h
  | skip next => exact h
  | handOver _ _ | settle _ | commit _ => exact le_rfl

/-- Legal changes keep everything below the cursor. -/
theorem Bounded.apply (hb : l.Bounded) (h : l.Legal a) : (l.apply a).Bounded := by
  have hcursor := cursor_le_apply h
  cases a with
  | claim offset consumer =>
    refine ⟨fun o ho => ?_, hb.committed_le.trans hcursor⟩
    rcases (held_claim l o offset consumer).1 ho with rfl | ho
    · exact Nat.lt_succ_self o
    · exact (hb.held_lt o ho).trans_le hcursor
  | skip next => exact ⟨fun o ho => (hb.held_lt o ho).trans_le hcursor, hb.committed_le.trans h⟩
  | handOver offset consumer =>
    refine ⟨fun o ho => ?_, hb.committed_le⟩
    rcases (held_handOver l o offset consumer).1 ho with rfl | ho
    · exact hb.held_lt o h
    · exact hb.held_lt o ho
  | settle offset =>
    exact ⟨fun o ho => hb.held_lt o ((held_settle l o offset).1 ho).2, hb.committed_le⟩
  | commit committed => exact ⟨hb.held_lt, h⟩

lemma Bounded.reaches (hb : l.Bounded)
    (h : Transition.Reaches Ledger.apply Ledger.Legal l l') : l'.Bounded :=
  Transition.invariant_reaches (fun _ _ hb ha => hb.apply ha) hb h

/-- The only change that can put a held record below the committed offset is a commit. -/
theorem Safe.apply (hs : l.Safe) (hb : l.Bounded) (h : l.Legal a)
    (hcommit : ∀ k, a = .commit k → ∀ o, l.Held o → k ≤ o) : (l.apply a).Safe := by
  cases a with
  | claim offset consumer =>
    intro o ho
    rcases (held_claim l o offset consumer).1 ho with rfl | ho
    · exact hb.committed_le.trans h
    · exact hs o ho
  | skip next => exact hs
  | handOver offset consumer =>
    intro o ho
    rcases (held_handOver l o offset consumer).1 ho with rfl | ho
    · exact hs o h
    · exact hs o ho
  | settle offset => exact fun o ho => hs o ((held_settle l o offset).1 ho).2
  | commit committed => exact hcommit committed rfl

/-- Settling a list of offsets. -/
lemma run_settle (l : Ledger) (offsets : List Nat) : Transition.run apply l (offsets.map .settle) =
    { l with owner := fun o => if o ∈ offsets then none else l.owner o } := by
  induction offsets generalizing l with
  | nil => rfl
  | cons offset rest ih =>
    rw [List.map_cons, Transition.run_cons, ih]
    refine ext rfl rfl fun o => ?_
    by_cases hrest : o ∈ rest
    · simp [hrest]
    · by_cases ho : o = offset <;> simp [hrest, ho, apply]

/-- A list of offsets that covers everything held can be settled, so that nothing is held. -/
lemma reaches_settle_all {P : Ledger → Act → Prop} {offsets : List Nat}
    (hP : ∀ l o, P l (.settle o)) (hcover : ∀ o, l.Held o → o ∈ offsets) :
    Transition.Reaches apply P l { l with owner := fun _ => none } := by
  refine ⟨offsets.map .settle, Transition.along_map hP, ?_⟩
  rw [run_settle]
  refine ext rfl rfl fun o => ?_
  by_cases ho : o ∈ offsets
  · exact if_pos ho
  · have hfree : l.owner o = none :=
      Option.not_isSome_iff_eq_none.1 fun hheld => ho (hcover o hheld)
    exact (if_neg ho).trans hfree

end Ledger

end FluxMQ
