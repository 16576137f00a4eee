import Mathlib.Data.List.Basic

/-!
# Intervals in a row

Things that each take an interval of numbers, from `lo` up to `hi`, and follow each other without a gap:
the records of a log in its batches, the batches in its segments, the bytes of a file.

* `Tiling.Tiles`: the intervals go from one number to another.
* `Tiling.Tiles.exists_split`: every number between lies in one of them.
* `Tiling.Tiles.split_le`: which divides those in front from those behind, as a binary search for it
  needs.
* `Tiling.Tiles.exists_filter`: those that end behind a number are the last ones.
-/

namespace Tiling

open List

variable {α : Type} {lo hi : α → Nat}

/-- The intervals follow each other without a gap from one number to another. -/
def Tiles (lo hi : α → Nat) : (start : Nat) → List α → (stop : Nat) → Prop
  | start, [], stop => start = stop
  | start, x :: xs, stop => lo x = start ∧ Tiles lo hi (hi x) xs stop

namespace Tiles

variable {start stop : Nat} {xs more front back : List α} {x : α}

lemma append_iff : Tiles lo hi start (xs ++ more) stop ↔
    ∃ mid, Tiles lo hi start xs mid ∧ Tiles lo hi mid more stop := by
  induction xs generalizing start with
  | nil => simp [Tiles]
  | cons x xs ih => simp [Tiles, ih, and_assoc]

lemma map_iff {β : Type} {f : β → α} {ys : List β} :
    Tiles lo hi start (ys.map f) stop ↔ Tiles (fun y => lo (f y)) (fun y => hi (f y)) start ys stop := by
  induction ys generalizing start with
  | nil => exact Iff.rfl
  | cons y ys ih => simp [Tiles, ih]

section

variable (h : Tiles lo hi start xs stop)
include h

lemma congr {lo' hi' : α → Nat} (hsame : ∀ x ∈ xs, lo' x = lo x ∧ hi' x = hi x) :
    Tiles lo' hi' start xs stop := by
  induction xs generalizing start with
  | nil => exact h
  | cons x xs ih =>
    obtain ⟨rfl, hrest⟩ := h
    rw [forall_mem_cons] at hsame
    rw [← hsame.1.2] at hrest
    exact ⟨hsame.1.1, ih hrest hsame.2⟩

/-- The first interval begins at the start. -/
lemma lo_head (hne : xs ≠ []) : lo (xs.head hne) = start := by
  cases xs with
  | nil => exact absurd rfl hne
  | cons x xs => exact h.1

/-- Each interval begins where the one before it ends. -/
lemma isChain : xs.IsChain fun x y => hi x = lo y := by
  induction xs generalizing start with
  | nil => exact List.IsChain.nil
  | cons x xs ih =>
    cases xs with
    | nil => exact List.IsChain.singleton x
    | cons y xs => exact List.IsChain.cons_cons h.2.1.symm (ih h.2)

/-- Intervals that are given the other way around are none. -/
lemma le (hle : ∀ x ∈ xs, lo x ≤ hi x) : start ≤ stop := by
  induction xs generalizing start with
  | nil => exact Nat.le_of_eq h
  | cons x xs ih =>
    obtain ⟨rfl, hrest⟩ := h
    exact Nat.le_trans (hle x mem_cons_self) (ih hrest fun y hy => hle y (mem_cons_of_mem x hy))

/-- An interval lies between the two ends. -/
lemma mem_le (hle : ∀ y ∈ xs, lo y ≤ hi y) (hx : x ∈ xs) : start ≤ lo x ∧ hi x ≤ stop := by
  obtain ⟨front, back, rfl⟩ := append_of_mem hx
  obtain ⟨mid, hfront, rfl, hback⟩ := append_iff.mp h
  exact ⟨hfront.le fun y hy => hle y (mem_append_left _ hy),
    hback.le fun y hy => hle y (mem_append_right _ (mem_cons_of_mem x hy))⟩

end

/-- What is in front of an interval ends before it, and what is behind begins after it. -/
theorem split_le (h : Tiles lo hi start (front ++ x :: back) stop)
    (hle : ∀ y ∈ front ++ x :: back, lo y ≤ hi y) :
    (∀ y ∈ front, start ≤ lo y ∧ hi y ≤ lo x) ∧ ∀ y ∈ back, hi x ≤ lo y ∧ hi y ≤ stop := by
  obtain ⟨mid, hfront, rfl, hback⟩ := append_iff.mp h
  exact ⟨fun y => hfront.mem_le fun z hz => hle z (mem_append_left _ hz),
    fun y => hback.mem_le fun z hz => hle z (mem_append_right _ (mem_cons_of_mem x hz))⟩

/-- Every number between the ends lies in an interval. -/
theorem exists_split (h : Tiles lo hi start xs stop) (n : Nat) (hge : start ≤ n) (hlt : n < stop) :
    ∃ front x back, xs = front ++ x :: back ∧ Tiles lo hi start front (lo x) ∧
      Tiles lo hi (hi x) back stop ∧ lo x ≤ n ∧ n < hi x := by
  induction xs generalizing start with
  | nil =>
    obtain rfl : start = stop := h
    omega
  | cons x xs ih =>
    obtain ⟨rfl, hrest⟩ := h
    rcases Nat.lt_or_ge n (hi x) with hin | hout
    · exact ⟨[], x, xs, rfl, rfl, hrest, hge, hin⟩
    · obtain ⟨front, y, back, rfl, hfront, hback, hn⟩ := ih hrest hout
      exact ⟨x :: front, y, back, rfl, ⟨rfl, hfront⟩, hback, hn⟩

section

variable (h : Tiles lo hi start xs stop) (hle : ∀ y ∈ xs, lo y ≤ hi y)
include h hle

/-- The intervals that end behind a number are the last ones. -/
theorem exists_filter (n : Nat) :
    ∃ front, xs = front ++ xs.filter (fun y => n < hi y) ∧ ∀ y ∈ front, hi y ≤ n := by
  induction xs generalizing start with
  | nil => exact ⟨[], rfl, nofun⟩
  | cons x xs ih =>
    obtain ⟨rfl, hrest⟩ := h
    have hle' : ∀ y ∈ xs, lo y ≤ hi y := fun y hy => hle y (mem_cons_of_mem x hy)
    rcases Nat.lt_or_ge n (hi x) with hlt | hge
    · -- The first one already ends behind it, and so do all that follow.
      refine ⟨[], ?_, nofun⟩
      rw [nil_append, eq_comm, filter_eq_self]
      intro y hy
      rw [decide_eq_true_eq]
      obtain rfl | hy := mem_cons.mp hy
      · exact hlt
      · have hafter := (hrest.mem_le hle' hy).1
        have := hle' y hy
        omega
    · obtain ⟨front, hfront, hends⟩ := ih hrest hle'
      refine ⟨x :: front, ?_, forall_mem_cons.mpr ⟨hge, hends⟩⟩
      rw [filter_cons_of_neg (by simpa using hge), cons_append, ← hfront]

/-- Each interval ends before those behind it. -/
lemma pairwise_le : xs.Pairwise fun x y => hi x ≤ lo y := by
  induction xs generalizing start with
  | nil => exact List.Pairwise.nil
  | cons x xs ih =>
    have hle' : ∀ y ∈ xs, lo y ≤ hi y := fun y hy => hle y (mem_cons_of_mem x hy)
    exact pairwise_cons.mpr ⟨fun y hy => (h.2.mem_le hle' hy).1, ih h.2 hle'⟩

/-- Intervals that are not empty, but for the last, are in order. -/
lemma pairwise_lt (hlt : ∀ y ∈ xs.dropLast, lo y < hi y) : xs.Pairwise fun x y => lo x < lo y := by
  induction xs generalizing start with
  | nil => exact List.Pairwise.nil
  | cons x xs ih =>
    obtain ⟨rfl, hrest⟩ := h
    have hle' : ∀ y ∈ xs, lo y ≤ hi y := fun y hy => hle y (mem_cons_of_mem x hy)
    cases xs with
    | nil => exact pairwise_singleton _ _
    | cons next xs =>
      rw [dropLast_cons_cons, forall_mem_cons] at hlt
      refine pairwise_cons.mpr ⟨fun y hy => ?_, ih hrest hle' hlt.2⟩
      exact Nat.lt_of_lt_of_le hlt.1 (hrest.mem_le hle' hy).1

end

end Tiles

/-! ### Slices

A list stands for the numbers from `start` on. -/

/-- What stands at the numbers from `a` up to `e`. -/
def slice (start : Nat) (xs : List α) (a e : Nat) : List α :=
  (xs.drop (a - start)).take (e - a)

variable {start a b c d mid e most : Nat} {xs taken : List α}

lemma slice_eq_nil (h : e ≤ a) : slice start xs a e = [] := by
  rw [slice, Nat.sub_eq_zero_of_le h, take_zero]

lemma slice_eq_nil_of_length_le (h : start + xs.length ≤ a) : slice start xs a e = [] := by
  rw [slice, drop_eq_nil_of_le (by omega), take_nil]

lemma slice_append (hstart : start ≤ a) (hmid : a ≤ mid) (he : mid ≤ e) :
    slice start xs a mid ++ slice start xs mid e = slice start xs a e := by
  have hdrop : mid - start = (a - start) + (mid - a) := by omega
  have htake : e - a = (mid - a) + (e - mid) := by omega
  rw [slice, slice, slice, hdrop, htake, ← drop_drop, take_add]

lemma slice_slice (hstart : start ≤ a) (hac : a ≤ c) (hdb : d ≤ b) :
    slice a (slice start xs a b) c d = slice start xs c d := by
  have hdrop : c - start = (a - start) + (c - a) := by omega
  have htake : min (d - c) (b - a - (c - a)) = d - c := by omega
  rw [slice, slice, slice, drop_take, take_take, hdrop, ← drop_drop, htake]

lemma slice_append_left (hstart : start ≤ a) (he : e ≤ start + xs.length) (more : List α) :
    slice start (xs ++ more) a e = slice start xs a e := by
  rcases Nat.lt_or_ge a e with hlt | hge
  · rw [slice, slice, drop_append_of_le_length (by omega), take_append_of_le_length]
    rw [length_drop]
    omega
  · rw [slice_eq_nil hge, slice_eq_nil hge]

lemma getElem?_slice (xs : List α) {n : Nat} (hstart : start ≤ a) (ha : a ≤ n) (he : n < e) :
    (slice start xs a e)[n - a]? = xs[n - start]? := by
  have hindex : a - start + (n - a) = n - start := by omega
  rw [slice, getElem?_take_of_lt (by omega), getElem?_drop, hindex]

/-- A loop that takes parts of a slice one after the other, up to `most`: when it stops, it has all
that was asked for. -/
lemma take_slice_of_done (hstart : start ≤ a) (hcurrent : a ≤ c)
    (htaken : taken = (slice start xs a (min c e)).take most)
    (hdone : ¬ (c < e ∧ taken.length < most)) : taken = (slice start xs a e).take most := by
  rcases Nat.lt_or_ge c e with hlt | hge
  · -- Enough has been taken.
    rw [Nat.min_eq_left (Nat.le_of_lt hlt)] at htaken
    have hfull : most ≤ (slice start xs a c).length := by
      have := congrArg List.length htaken
      rw [length_take] at this
      omega
    rw [← slice_append hstart hcurrent (Nat.le_of_lt hlt), take_append_of_le_length hfull]
    exact htaken
  · rw [Nat.min_eq_right hge] at htaken
    exact htaken

/-- The same loop goes on. -/
lemma take_slice_append (hstart : start ≤ a) (hmid : a ≤ mid) (he : mid ≤ e)
    (htaken : taken = (slice start xs a mid).take most) (hroom : taken.length < most) :
    taken ++ (slice start xs mid e).take (most - taken.length) = (slice start xs a e).take most := by
  -- There was room for all that has been taken.
  have hwhole : taken = slice start xs a mid := by
    rw [htaken, take_of_length_le]
    have := congrArg List.length htaken
    rw [length_take] at this
    omega
  rw [← slice_append hstart hmid he, ← hwhole, take_append, take_of_length_le (Nat.le_of_lt hroom)]

end Tiling
