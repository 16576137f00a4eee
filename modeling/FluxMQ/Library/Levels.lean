import Mathlib.Data.List.TakeDrop
import Mathlib.Data.List.TakeWhile

/-!
# Texts as levels between separators

A text can be taken apart at its separators at once, as `List.splitOn` does, or at the first one, again
and again. Nothing here depends on what the letters are.

* `Levels.cut`: the text before the first separator, and what is behind it.
* `Levels.splitOn_of_none`, `Levels.splitOn_of_some`: splitting is cutting repeatedly.
* `Levels.splitOn_injective`: no two texts have the same levels.
-/

namespace Levels

open List

variable {α : Type*} [DecidableEq α] {sep : α} {s after : List α}

/-- The text before the first separator, and the text behind it if there is one. -/
def cut (sep : α) (s : List α) : List α × Option (List α) :=
  match s.span (· ≠ sep) with
  | (before, []) => (before, none)
  | (before, _ :: after) => (before, some after)

/-- What a cut consists of. -/
lemma cut_spec (sep : α) (s : List α) :
    (cut sep s = (s, none) ∧ sep ∉ s) ∨
      ∃ before after, cut sep s = (before, some after) ∧ s = before ++ sep :: after ∧ sep ∉ before := by
  have hbefore : sep ∉ s.takeWhile (· ≠ sep) := fun h => by simpa using mem_takeWhile_imp h
  have hs : s.takeWhile (· ≠ sep) ++ s.dropWhile (· ≠ sep) = s := takeWhile_append_dropWhile
  unfold cut
  rw [span_eq_takeWhile_dropWhile]
  cases hafter : s.dropWhile (· ≠ sep) with
  | nil =>
    rw [hafter, append_nil] at hs
    rw [hs] at hbefore ⊢
    exact .inl ⟨rfl, hbefore⟩
  | cons c after =>
    have hc : c = sep := by
      have hne : s.dropWhile (· ≠ sep) ≠ [] := by rw [hafter]; simp
      have hhead := head_dropWhile_not _ hne
      simp only [hafter, head_cons] at hhead
      simpa using hhead
    rw [hafter, hc] at hs
    exact .inr ⟨_, after, rfl, hs.symm, hbefore⟩

lemma cut_of_notMem (h : sep ∉ s) : cut sep s = (s, none) := by
  obtain ⟨hcut, -⟩ | ⟨before, after, -, hs, -⟩ := cut_spec sep s
  · exact hcut
  · exact absurd (by rw [hs]; simp) h

lemma cut_append {before : List α} (h : sep ∉ before) :
    cut sep (before ++ sep :: after) = (before, some after) := by
  have hbefore : ∀ c ∈ before, decide (c ≠ sep) = true := fun c hc =>
    decide_eq_true fun heq => h (heq ▸ hc)
  rw [cut, span_eq_takeWhile_dropWhile, takeWhile_append_of_pos hbefore,
    dropWhile_append_of_pos hbefore]
  simp

lemma length_of_cut (h : (cut sep s).2 = some after) : after.length < s.length := by
  obtain ⟨hcut, -⟩ | ⟨before, after', hcut, hs, -⟩ := cut_spec sep s
  · simp [hcut] at h
  · obtain rfl : after' = after := by simpa [hcut] using h
    rw [hs, length_append, length_cons]
    omega

/-- A text without a separator is one level. -/
theorem splitOn_of_none (h : (cut sep s).2 = none) : s.splitOn sep = [(cut sep s).1] := by
  obtain ⟨hcut, hsep⟩ | ⟨before, after, hcut, -⟩ := cut_spec sep s
  · rw [hcut, splitOn_eq_singleton hsep]
  · simp [hcut] at h

/-- Splitting at all separators is cutting at the first one and splitting the rest. -/
theorem splitOn_of_some (h : (cut sep s).2 = some after) :
    s.splitOn sep = (cut sep s).1 :: after.splitOn sep := by
  obtain ⟨hcut, -⟩ | ⟨before, after', hcut, hs, hsep⟩ := cut_spec sep s
  · simp [hcut] at h
  obtain rfl : after' = after := by simpa [hcut] using h
  rw [hcut]
  nth_rewrite 1 [hs]
  rw [splitOn_append_cons_self_of_not_mem hsep]

theorem splitOn_injective : Function.Injective (splitOn sep) := by
  intro s t h
  have hjoin := congrArg (intercalate [sep]) h
  rwa [intercalate_splitOn, intercalate_splitOn] at hjoin

/-- A letter of a level is a letter of the text. -/
lemma mem_of_mem_splitOn {level : List α} {c : α} (hlevel : level ∈ s.splitOn sep) (hc : c ∈ level) :
    c ∈ s := by
  induction hn : s.length using Nat.strong_induction_on generalizing s with
  | _ n ih =>
    obtain ⟨hcut, -⟩ | ⟨before, after, hcut, hs, -⟩ := cut_spec sep s
    · rw [splitOn_of_none (by rw [hcut]), hcut, mem_singleton] at hlevel
      subst hlevel
      exact hc
    have hrest : (cut sep s).2 = some after := by rw [hcut]
    rw [splitOn_of_some hrest, hcut, mem_cons] at hlevel
    rw [hs, mem_append, mem_cons]
    rcases hlevel with rfl | hlevel
    · exact .inl hc
    · exact .inr (.inr (ih _ (hn ▸ length_of_cut hrest) hlevel rfl))

end Levels
