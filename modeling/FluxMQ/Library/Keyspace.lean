import FluxMQ.Library.Runs

/-!
# Key spaces

A table whose keys are texts and that is also searched and cleared by what keys begin with. Several users
share one table, each by keys of their own.

* `Keyspace.Table`: the entries, one for each key that is in use.
* `Keyspace.Change`: one change of the table, `Change.Touches` the keys that it can change.
* `Keyspace.scan`, `Keyspace.find`: what is found under keys with a given beginning, or under one key.
* `Keyspace.restrict_perform`: the entries under keys that no change touches stay as they are.
* `Keyspace.field`: a text is taken apart at the first separator.
-/

namespace Keyspace

open List

variable {κ ν : Type} [DecidableEq κ]

/-- The entries of a table. -/
abbrev Table (κ ν : Type) := List (List κ × ν)

/-- One change of a table. -/
inductive Change (κ ν : Type) where
  | put (key : List κ) (value : ν)
  | delete (key : List κ)
  /-- All keys with this beginning are deleted. -/
  | deleteAll (start : List κ)

/-- The entries whose keys have a property. -/
def restrict (P : List κ → Bool) (t : Table κ ν) : Table κ ν :=
  t.filter fun entry => P entry.1

/-- The table after a change. -/
def Change.apply (t : Table κ ν) : Change κ ν → Table κ ν
  | .put key value => (key, value) :: restrict (· ≠ key) t
  | .delete key => restrict (· ≠ key) t
  | .deleteAll start => restrict (fun key => !start.isPrefixOf key) t

/-- The change can make a difference to the key. -/
def Change.Touches : Change κ ν → List κ → Prop
  | .put key _, key' | .delete key, key' => key' = key
  | .deleteAll start, key' => start <+: key'

/-- The table after some changes. -/
def perform (t : Table κ ν) (changes : List (Change κ ν)) : Table κ ν :=
  changes.foldl Change.apply t

/-- What is found under the keys with a given beginning. -/
def scan (start : List κ) (t : Table κ ν) : Table κ ν :=
  restrict (fun key => start.isPrefixOf key) t

/-- What is found under one key. -/
def find (key : List κ) (t : Table κ ν) : Table κ ν :=
  restrict (· = key) t

section

variable {t : Table κ ν} {c : Change κ ν} {changes : List (Change κ ν)} {P Q : List κ → Bool}
  {entry : List κ × ν}

omit [DecidableEq κ] in
lemma restrict_cons :
    restrict P (entry :: t) = if P entry.1 then entry :: restrict P t else restrict P t :=
  filter_cons

omit [DecidableEq κ] in
lemma mem_restrict : entry ∈ restrict P t ↔ entry ∈ t ∧ P entry.1 = true := mem_filter

omit [DecidableEq κ] in
/-- What is restricted to keys with another property already is not changed. -/
lemma restrict_restrict_of_imp (h : ∀ key, P key = true → Q key = true) :
    restrict P (restrict Q t) = restrict P t := by
  simp only [restrict, filter_filter]
  refine filter_congr fun entry _ => ?_
  cases hP : P entry.1 with
  | false => rfl
  | true => rw [h _ hP]; rfl

/-- Entries under keys that a change does not touch stay as they are. -/
lemma restrict_apply (h : ∀ key, P key = true → ¬ c.Touches key) :
    restrict P (c.apply t) = restrict P t := by
  have hne (key : List κ) (hkey : ∀ key', P key' = true → ¬ key' = key) :
      restrict P (restrict (· ≠ key) t) = restrict P t :=
    restrict_restrict_of_imp fun key' hP => by simpa using hkey key' hP
  cases c with
  | put key value =>
    have hkey : P key = false := by
      by_contra hP
      exact h key (by simpa using hP) rfl
    rw [Change.apply, restrict_cons, hkey]
    exact hne key h
  | delete key => exact hne key h
  | deleteAll start =>
    rw [Change.apply]
    refine restrict_restrict_of_imp fun key hP => ?_
    have hstart := h key hP
    rw [Change.Touches, ← isPrefixOf_iff_prefix, Bool.not_eq_true] at hstart
    rw [hstart]
    rfl

/-- The entries under keys that no change touches stay as they are. -/
theorem restrict_perform (h : ∀ c ∈ changes, ∀ key, P key = true → ¬ c.Touches key) :
    restrict P (perform t changes) = restrict P t := by
  induction changes generalizing t with
  | nil => rfl
  | cons c changes ih =>
    calc restrict P (perform (c.apply t) changes)
        = restrict P (c.apply t) := ih fun c' hc' => h c' (mem_cons_of_mem _ hc')
      _ = restrict P t := restrict_apply (h c mem_cons_self)

/-- An entry is found where it is looked for. -/
lemma prefix_of_mem_scan {start : List κ} (h : entry ∈ scan start t) :
    entry ∈ t ∧ start <+: entry.1 := by
  obtain ⟨hmem, hstart⟩ := mem_restrict.1 h
  exact ⟨hmem, isPrefixOf_iff_prefix.1 hstart⟩

lemma key_of_mem_find {key : List κ} (h : entry ∈ find key t) : entry ∈ t ∧ entry.1 = key := by
  obtain ⟨hmem, hkey⟩ := mem_restrict.1 h
  exact ⟨hmem, by simpa using hkey⟩

/-- A table has an entry after some changes if it was there or was put there by one of them. -/
lemma mem_of_mem_perform (h : entry ∈ perform t changes) :
    entry ∈ t ∨ Change.put entry.1 entry.2 ∈ changes := by
  induction changes generalizing t with
  | nil => exact .inl h
  | cons c changes ih =>
    rcases ih h with hmem | hput
    · cases c with
      | put key value =>
        rcases mem_cons.1 hmem with rfl | hmem
        · exact .inr mem_cons_self
        · exact .inl (mem_restrict.1 hmem).1
      | delete key | deleteAll start =>
        rw [Change.apply] at hmem
        exact .inl (mem_restrict.1 hmem).1
    · exact .inr (mem_cons_of_mem _ hput)

end

/-- A text in two parts: what stands in front of the first separator, and the rest. -/
def field (p : κ → Bool) (text : List κ) : List κ × List κ :=
  (text.takeWhile p, text.dropWhile p)

omit [DecidableEq κ] in
lemma field_append_cons {p : κ → Bool} {a rest : List κ} {x : κ} (ha : ∀ c ∈ a, p c = true)
    (hx : p x = false) : field p (a ++ x :: rest) = (a, x :: rest) := by
  rw [field, takeWhile_append_of_pos ha, dropWhile_append_of_pos ha,
    takeWhile_cons_of_neg (by simp [hx]), dropWhile_cons_of_neg (by simp [hx]),
    append_nil]

end Keyspace
