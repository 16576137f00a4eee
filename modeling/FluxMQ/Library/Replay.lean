import Mathlib.Data.List.Basic

/-!
# Replaying changes that were made already

A log of changes is replayed over a state that may contain some of their effects. Nothing here
depends on what the states and changes are: a change is one step of a fold.

* `Replay.Forgets`: the result of a change does not depend on the state before it.
* `Replay.foldl_eq_of_forgets`: after such a change, where the replay started no longer matters.
* `Replay.foldl_foldl`: making the changes a second time changes nothing more.
-/

namespace Replay

variable {σ ε : Type*} {f : σ → ε → σ} {changes : List ε} {s t : σ}

/-- The result of the change does not depend on the state before it. -/
def Forgets (f : σ → ε → σ) (e : ε) : Prop :=
  ∀ s t, f s e = f t e

/-- Changes of which one forgets the state lead to one state from wherever they start. -/
theorem foldl_eq_of_forgets (h : ∃ e ∈ changes, Forgets f e) :
    changes.foldl f s = changes.foldl f t := by
  obtain ⟨e, he, hforgets⟩ := h
  obtain ⟨before, after, rfl⟩ := List.append_of_mem he
  simp only [List.foldl_append, List.foldl_cons]
  rw [hforgets]

/-- A state that no change alters is where the replay ends. -/
lemma foldl_eq_self (h : ∀ e ∈ changes, f s e = s) : changes.foldl f s = s := by
  induction changes with
  | nil => rfl
  | cons e changes ih =>
    rw [List.foldl_cons, h e List.mem_cons_self]
    exact ih fun e' he' => h e' (List.mem_cons_of_mem e he')

/-- Changes can be made twice if one of them forgets the state, or if none alters the state they
lead to. -/
theorem foldl_foldl
    (h : (∃ e ∈ changes, Forgets f e) ∨
      ∀ e ∈ changes, f (changes.foldl f s) e = changes.foldl f s) :
    changes.foldl f (changes.foldl f s) = changes.foldl f s := by
  rcases h with hforgets | hfixed
  · exact foldl_eq_of_forgets hforgets
  · exact foldl_eq_self hfixed

end Replay
