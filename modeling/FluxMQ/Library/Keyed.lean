import Mathlib.Data.List.AList
import Mathlib.Data.List.Perm.Basic
import Mathlib.Algebra.Order.Ring.Int

/-!
# Lists whose elements carry distinct keys

A collection addressed by key is kept as a list. As long as no key occurs twice, removing or
changing the first element with a key is the same as removing or changing every element with it,
and looking a key up is membership.

* `IterationOrder`: an arbitrary order in which an unordered collection is walked.
* `List.updateFirst`: change the first element that satisfies a predicate.
* `List.eraseP_eq_filter_of_nodup`, `List.updateFirst_eq_map_of_nodup`: the first element is the
  only one.
* `List.find?_key_eq_some_iff`: lookup is membership.
* `List.append_cons_inj_of_first`: a list is determined by what follows it behind a separator.
* `AList.lookup_foldl_insert`: a table filled key by key.
-/

/-- An order in which the elements of an unordered collection are walked: some permutation of
the list that stands for it. -/
structure IterationOrder (α : Type*) where
  /-- The elements in the order of this walk. -/
  walk : List α → List α
  /-- A walk visits every element exactly once. -/
  perm : ∀ l, (walk l).Perm l

namespace IterationOrder

variable {α : Type*}

/-- The walk in the order of the list itself. -/
def listOrder (α : Type*) : IterationOrder α where
  walk := id
  perm := fun l => List.Perm.refl l

instance : Inhabited (IterationOrder α) := ⟨listOrder α⟩

@[simp]
lemma mem_walk (order : IterationOrder α) {l : List α} {a : α} : a ∈ order.walk l ↔ a ∈ l :=
  (order.perm l).mem_iff

end IterationOrder

namespace List

variable {α κ : Type*}

/-- Apply `f` to the first element that satisfies `q`. -/
def updateFirst (q : α → Bool) (f : α → α) : List α → List α
  | [] => []
  | a :: l => if q a then f a :: l else a :: updateFirst q f l

lemma mem_updateFirst {q : α → Bool} {f : α → α} {l : List α} {a : α}
    (h : a ∈ l.updateFirst q f) : a ∈ l ∨ ∃ b ∈ l, a = f b := by
  induction l with
  | nil => simp [updateFirst] at h
  | cons b l ih =>
    unfold updateFirst at h
    split at h
    · rcases mem_cons.1 h with rfl | h
      · exact Or.inr ⟨b, mem_cons_self, rfl⟩
      · exact Or.inl (mem_cons_of_mem b h)
    rcases mem_cons.1 h with rfl | h
    · exact Or.inl mem_cons_self
    · rcases ih h with h | ⟨c, hc, rfl⟩
      · exact Or.inl (mem_cons_of_mem b h)
      · exact Or.inr ⟨c, mem_cons_of_mem b hc, rfl⟩

variable {key : α → κ} {k : κ} {q : α → Bool} {f : α → α} {l : List α} {a : α}

private lemma filter_eq_self_of_key_not_mem (hq : ∀ a, q a → key a = k) (hk : k ∉ l.map key) :
    l.filter (fun a => !q a) = l := by
  refine filter_eq_self.2 fun a ha => ?_
  by_contra hqa
  exact hk (hq a (by simpa using hqa) ▸ mem_map_of_mem ha)

section

variable (hl : (l.map key).Nodup)
include hl

/-- With distinct keys, removing the first element with a key removes every one. -/
theorem eraseP_eq_filter_of_nodup (hq : ∀ a, q a → key a = k) :
    l.eraseP q = l.filter (fun a => !q a) := by
  induction l with
  | nil => rfl
  | cons a l ih =>
    rw [map_cons, nodup_cons] at hl
    by_cases hqa : q a
    · rw [eraseP_cons_of_pos hqa, filter_cons_of_neg (by simpa using hqa)]
      exact (filter_eq_self_of_key_not_mem hq (hq a hqa ▸ hl.1)).symm
    · rw [eraseP_cons_of_neg hqa, filter_cons_of_pos (by simpa using hqa), ih hl.2]

/-- With distinct keys, changing the first element with a key changes every one. -/
theorem updateFirst_eq_map_of_nodup (hq : ∀ a, q a → key a = k) :
    l.updateFirst q f = l.map (fun a => if q a then f a else a) := by
  induction l with
  | nil => rfl
  | cons a l ih =>
    rw [map_cons, nodup_cons] at hl
    by_cases hqa : q a
    · have hrest : l.map (fun a => if q a then f a else a) = l := by
        refine (map_congr_left fun b hb => ?_).trans (map_id l)
        have hqb : ¬ q b := fun hqb =>
          hl.1 ((hq a hqa).trans (hq b hqb).symm ▸ mem_map_of_mem hb)
        simp [hqb]
      simp [updateFirst, hqa, hrest]
    · simp [updateFirst, hqa, ih hl.2]

/-- With distinct keys, looking a key up finds exactly the element that carries it. -/
theorem find?_key_eq_some_iff [BEq κ] [LawfulBEq κ] :
    l.find? (fun a => key a == k) = some a ↔ a ∈ l ∧ key a = k := by
  constructor
  · intro h
    exact ⟨mem_of_find?_eq_some h, by simpa using find?_some h⟩
  rintro ⟨ha, rfl⟩
  cases hfind : l.find? (fun b => key b == key a) with
  | none => exact absurd (find?_eq_none.1 hfind a ha) (by simp)
  | some b =>
    have hb : key b = key a := by simpa using find?_some hfind
    rw [inj_on_of_nodup_map hl (mem_of_find?_eq_some hfind) ha hb]

/-- With distinct keys, lookup does not depend on the order of the list. -/
lemma find?_key_eq_of_perm [BEq κ] [LawfulBEq κ] {l' : List α} (h : l'.Perm l) :
    l'.find? (fun a => key a == k) = l.find? (fun a => key a == k) := by
  have hl' : (l'.map key).Nodup := (h.map key).nodup_iff.2 hl
  apply Option.ext
  intro a
  rw [find?_key_eq_some_iff hl, find?_key_eq_some_iff hl', h.mem_iff]

end

/-- In a list without repetitions, an element is found where it stands. -/
lemma idxOf?_eq_some_iff_getElem? [BEq α] [LawfulBEq α] (hl : l.Nodup) {i : ℕ} :
    l.idxOf? a = some i ↔ l[i]? = some a := by
  rw [idxOf?_eq_some_iff, getElem?_eq_some_iff]
  constructor
  · rintro ⟨hi, ha, -⟩
    exact ⟨hi, ha⟩
  rintro ⟨hi, ha⟩
  refine ⟨hi, ha, fun j hj hja => ?_⟩
  -- The element would stand at an earlier place, too.
  exact absurd ((hl.getElem_inj_iff).1 (hja.trans ha.symm)) (Nat.ne_of_lt hj)

/-- What comes before the first occurrence of an element is determined by the whole. -/
theorem append_cons_inj_of_first {c : α} {a b r t : List α} (ha : c ∉ a)
    (hb : c ∉ b) (h : a ++ c :: r = b ++ c :: t) : a = b ∧ r = t := by
  induction a generalizing b with
  | nil =>
    cases b with
    | nil => exact ⟨rfl, tail_eq_of_cons_eq h⟩
    | cons x b => exact absurd (head_eq_of_cons_eq h ▸ mem_cons_self) hb
  | cons x a ih =>
    cases b with
    | nil => exact absurd (head_eq_of_cons_eq h ▸ mem_cons_self) ha
    | cons y b =>
      obtain ⟨rfl, htail⟩ := cons.inj h
      obtain ⟨rfl, hrest⟩ := ih (fun hm => ha (mem_cons_of_mem _ hm))
        (fun hm => hb (mem_cons_of_mem _ hm)) htail
      exact ⟨rfl, hrest⟩

end List

namespace Nat

/-- A numeral determines its number. -/
lemma eq_of_toList_repr {n n' : Nat} (h : n.repr.toList = n'.repr.toList) : n = n' := by
  have hnumber := congrArg (fun digits => Nat.ofDigitChars 10 digits 0) h
  simpa [Nat.repr] using hnumber

/-- A numeral consists of digits. -/
lemma not_mem_repr {c : Char} (hc : c.isDigit = false) (n : Nat) : c ∉ n.repr.toList := by
  intro hmem
  have hdigit : c.isDigit := by
    refine isDigit_of_mem_toDigits (b := 10) (n := n) (by decide) (by decide) ?_
    simpa [Nat.repr] using hmem
  rw [hc] at hdigit
  cases hdigit

end Nat

namespace AList

variable {κ β γ : Type*} [DecidableEq κ] {key : β → κ} {value : AList (fun _ : κ => γ) → β → γ} {k : κ}
  {l : List β} (table : AList fun _ : κ => γ)

/-- Writes under other keys leave a key as it is. -/
lemma lookup_foldl_insert_of_ne (h : ∀ b ∈ l, key b ≠ k) :
    (l.foldl (fun table b => table.insert (key b) (value table b)) table).lookup k =
      table.lookup k := by
  induction l generalizing table with
  | nil => rfl
  | cons b l ih =>
    rw [List.foldl_cons, ih _ fun b hb => h b (List.mem_cons_of_mem _ hb),
      lookup_insert_ne (h b List.mem_cons_self).symm]

/-- A key that is written once holds what was written, into the table as it was then. -/
lemma exists_lookup_foldl_insert (hl : (l.map key).Nodup) {b : β} (hb : b ∈ l) :
    ∃ before, (l.foldl (fun table b => table.insert (key b) (value table b)) table).lookup (key b) =
      some (value before b) := by
  induction l generalizing table with
  | nil => exact absurd hb List.not_mem_nil
  | cons c l ih =>
    rw [List.map_cons, List.nodup_cons] at hl
    rcases List.mem_cons.1 hb with rfl | hb
    · refine ⟨table, ?_⟩
      rw [List.foldl_cons, lookup_foldl_insert_of_ne, lookup_insert]
      intro c hc heq
      exact hl.1 (heq ▸ List.mem_map_of_mem hc)
    · exact ih _ hl.2 hb

/-- The keys after some writes. -/
lemma mem_foldl_insert_iff :
    k ∈ l.foldl (fun table b => table.insert (key b) (value table b)) table ↔
      k ∈ table ∨ ∃ b ∈ l, key b = k := by
  induction l generalizing table with
  | nil => simp
  | cons b l ih =>
    rw [List.foldl_cons, ih, mem_insert]
    simp only [List.mem_cons, exists_eq_or_imp]
    rw [eq_comm, or_comm (a := key b = k), or_assoc]

/-- A table filled key by key. -/
theorem lookup_foldl_insert {f : κ → γ} {keys : List κ} (hk : k ∈ keys) :
    (keys.foldl (fun table k => table.insert k (f k)) table).lookup k = some (f k) := by
  induction keys generalizing table with
  | nil => exact absurd hk List.not_mem_nil
  | cons c keys ih =>
    by_cases htail : k ∈ keys
    · exact ih _ htail
    obtain rfl : k = c := (List.mem_cons.1 hk).resolve_right htail
    rw [List.foldl_cons]
    refine (lookup_foldl_insert_of_ne _ ?_).trans (lookup_insert table)
    rintro b hb rfl
    exact htail hb

/-- What is left after a removal was there. -/
lemma of_lookup_erase {table : AList fun _ : κ => γ} {k' : κ} {c : γ}
    (h : (table.erase k').lookup k = some c) : table.lookup k = some c := by
  by_cases hk : k = k'
  · rw [hk, lookup_erase] at h
    cases h
  · rwa [lookup_erase_ne hk] at h

end AList
