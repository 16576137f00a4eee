import Mathlib.Data.List.Basic

/-!
# Tries over levels with two wildcards

A trie stores lists of values at paths. A path is a list of levels, two of which are set apart as
wildcards: `single` stands for any one level, and `multi` at the end of a path for any number of
levels.

What a trie holds is read off by `Trie.valuesAt`. The operations are specified by it and never by the
shape of the tree, so it makes no difference which empty nodes there are.

* `Trie.update`, `Trie.modify`, `Trie.prune`: three ways to change the values at a path, which differ
  in the empty nodes they leave.
* `Trie.Covers`: a path with wildcards matches a list of levels.
* `Trie.collect`: the values at the paths that match.
* `Trie.mem_collect`, `Trie.filter_collect`: it finds these and no others, and finds what is at one
  path only once.
-/

/-- A node with its values, and the nodes below it. -/
inductive Trie (κ ν : Type) where
  | node (children : List (κ × Trie κ ν)) (values : List ν)

namespace Trie

open List

variable {κ ν : Type}

/-- The trie without values. -/
def empty : Trie κ ν := .node [] []

def children : Trie κ ν → List (κ × Trie κ ν)
  | .node children _ => children

def values : Trie κ ν → List ν
  | .node _ values => values

/-- There is nothing at the node and no node below it. -/
def isBare (t : Trie κ ν) : Bool :=
  t.children.isEmpty && t.values.isEmpty

variable [DecidableEq κ]

/-- The node below along one level. -/
def child (t : Trie κ ν) (k : κ) : Option (Trie κ ν) :=
  (t.children.find? fun c => c.1 = k).map Prod.snd

/-- The node below along one level is replaced. -/
def setChild (t : Trie κ ν) (k : κ) (c : Trie κ ν) : Trie κ ν :=
  .node ((k, c) :: t.children.filter fun c => c.1 ≠ k) t.values

/-- The node below along one level is removed. -/
def removeChild (t : Trie κ ν) (k : κ) : Trie κ ν :=
  .node (t.children.filter fun c => c.1 ≠ k) t.values

/-- The values at a path. -/
def valuesAt : (t : Trie κ ν) → (path : List κ) → List ν
  | t, [] => t.values
  | t, k :: path =>
    match t.child k with
    | none => []
    | some c => valuesAt c path

/-- The values at a path are changed. Nodes that are missing on the way are made. -/
def update (f : List ν → List ν) : (path : List κ) → Trie κ ν → Trie κ ν
  | [], t => .node t.children (f t.values)
  | k :: path, t => t.setChild k (update f path ((t.child k).getD empty))

/-- The values at a path are changed if there is a node. -/
def modify (f : List ν → List ν) : (path : List κ) → Trie κ ν → Trie κ ν
  | [], t => .node t.children (f t.values)
  | k :: path, t =>
    match t.child k with
    | none => t
    | some c => t.setChild k (modify f path c)

/-- The values at a path are changed if there is a node. Nodes on the way that have become bare are
removed. -/
def prune (f : List ν → List ν) : (path : List κ) → Trie κ ν → Trie κ ν
  | [], t => .node t.children (f t.values)
  | k :: path, t =>
    match t.child k with
    | none => t
    | some c =>
      if (prune f path c).isBare then t.removeChild k else t.setChild k (prune f path c)

/-- The values at the paths that match a list of levels. -/
def collect (single multi : κ) : (levels : List κ) → Trie κ ν → List ν
  | [], t =>
    t.values ++ (match t.child multi with | some c => c.values | none => [])
  | level :: levels, t =>
    (match t.child level with | some c => collect single multi levels c | none => []) ++
    (match t.child single with | some c => collect single multi levels c | none => []) ++
    (match t.child multi with | some c => c.values | none => [])

/-- A path with wildcards matches a list of levels. -/
def Covers (single multi : κ) : (path levels : List κ) → Prop
  | [], levels => levels = []
  | k :: path, [] => k = multi ∧ path = []
  | k :: path, level :: levels =>
    (k = multi ∧ path = []) ∨ ((k = level ∨ k = single) ∧ Covers single multi path levels)

/-! ### Nodes -/

section

variable {t c : Trie κ ν} {k k' : κ} {path : List κ}

lemma find_filter_ne {l : List (κ × Trie κ ν)} (h : k' ≠ k) :
    ((l.filter fun c => c.1 ≠ k).find? fun c => c.1 = k') = l.find? fun c => c.1 = k' := by
  rw [find?_filter]
  congr 1
  funext c
  by_cases hc : c.1 = k'
  · simp [hc, h]
  · simp [hc]

lemma child_setChild : (t.setChild k c).child k' = if k' = k then some c else t.child k' := by
  by_cases h : k' = k
  · simp [child, setChild, children, h]
  · have hne : ¬ k = k' := fun heq => h heq.symm
    rw [if_neg h, child, child, setChild, children, find?_cons_of_neg (by simpa using hne),
      find_filter_ne h]

lemma child_removeChild : (t.removeChild k).child k' = if k' = k then none else t.child k' := by
  by_cases h : k' = k
  · simp [child, removeChild, children, h]
  · rw [if_neg h, child, child, removeChild, children, find_filter_ne h]

@[simp]
lemma child_empty : (empty : Trie κ ν).child k = none := rfl

@[simp]
lemma valuesAt_nil : t.valuesAt [] = t.values := by rw [valuesAt]

lemma valuesAt_cons :
    t.valuesAt (k :: path) = (match t.child k with | none => [] | some c => c.valuesAt path) := by
  rw [valuesAt]

@[simp]
lemma valuesAt_empty : (empty : Trie κ ν).valuesAt path = [] := by
  cases path with
  | nil => simp [empty, values]
  | cons k path => simp [valuesAt_cons]

lemma valuesAt_getD_child : ((t.child k).getD empty).valuesAt path = t.valuesAt (k :: path) := by
  rw [valuesAt_cons]
  cases t.child k <;> simp

lemma valuesAt_node {l : List (κ × Trie κ ν)} {vs : List ν} (h : path ≠ []) :
    (node l vs).valuesAt path = (node l []).valuesAt path := by
  cases path with
  | nil => exact absurd rfl h
  | cons k path => rfl

lemma valuesAt_setChild_cons : (t.setChild k c).valuesAt (k' :: path) =
    if k' = k then c.valuesAt path else t.valuesAt (k' :: path) := by
  rw [valuesAt_cons, child_setChild]
  by_cases h : k' = k
  · simp [h]
  · simp only [h, if_false]
    rw [valuesAt_cons]

lemma valuesAt_removeChild_cons :
    (t.removeChild k).valuesAt (k' :: path) = if k' = k then [] else t.valuesAt (k' :: path) := by
  rw [valuesAt_cons, child_removeChild]
  by_cases h : k' = k
  · simp [h]
  · simp only [h, if_false]
    rw [valuesAt_cons]

/-- Nothing is stored at or below a bare node. -/
lemma valuesAt_of_isBare (h : t.isBare = true) : t.valuesAt path = [] := by
  obtain ⟨l, vs⟩ := t
  simp only [isBare, children, values, Bool.and_eq_true, List.isEmpty_iff] at h
  obtain ⟨rfl, rfl⟩ := h
  exact valuesAt_empty

end

/-! ### Changing the values at a path -/

section

variable {f : List ν → List ν} {path other : List κ} {t : Trie κ ν}

/-- The observation that all changes at the root have in common. -/
lemma valuesAt_root {l : List (κ × Trie κ ν)} {vs : List ν} : (node l (f vs)).valuesAt other =
    if other = [] then f ((node l vs).valuesAt []) else (node l vs).valuesAt other := by
  by_cases h : other = []
  · simp [h, values]
  · rw [if_neg h, valuesAt_node h, ← valuesAt_node h]

/-- The child `k` has been replaced by one that differs from it at one path. -/
lemma valuesAt_replace {t' c : Trie κ ν} {k : κ} (hnil : t'.valuesAt [] = t.valuesAt [])
    (hcons : ∀ k' other, t'.valuesAt (k' :: other) =
      if k' = k then c.valuesAt other else t.valuesAt (k' :: other))
    (hchild : ∀ other, c.valuesAt other =
      if other = path then f (t.valuesAt (k :: path)) else t.valuesAt (k :: other)) :
    t'.valuesAt other =
      if other = k :: path then f (t.valuesAt (k :: path)) else t.valuesAt other := by
  cases other with
  | nil => simp [hnil]
  | cons k' other =>
    rw [hcons, hchild]
    by_cases h : k' = k
    · simp [h]
    · simp [h]

lemma valuesAt_update : (t.update f path).valuesAt other =
    if other = path then f (t.valuesAt path) else t.valuesAt other := by
  induction path generalizing other t with
  | nil => obtain ⟨l, vs⟩ := t; exact valuesAt_root
  | cons k path ih =>
    refine valuesAt_replace rfl (fun _ _ => valuesAt_setChild_cons) fun other => ?_
    rw [ih, valuesAt_getD_child, valuesAt_getD_child]

/-- A change of nothing into nothing need not make the nodes that are missing. -/
lemma valuesAt_modify (hf : f [] = []) : (t.modify f path).valuesAt other =
    if other = path then f (t.valuesAt path) else t.valuesAt other := by
  induction path generalizing other t with
  | nil => obtain ⟨l, vs⟩ := t; exact valuesAt_root
  | cons k path ih =>
    rw [modify]
    cases hchild : t.child k with
    | none =>
      by_cases h : other = k :: path
      · simp [h, valuesAt_cons, hchild, hf]
      · simp [h]
    | some c =>
      refine valuesAt_replace rfl (fun _ _ => valuesAt_setChild_cons) fun other => ?_
      simp [ih, valuesAt_cons, hchild]

/-- The nodes that are removed hold nothing. -/
lemma valuesAt_prune (hf : f [] = []) : (t.prune f path).valuesAt other =
    if other = path then f (t.valuesAt path) else t.valuesAt other := by
  induction path generalizing other t with
  | nil => obtain ⟨l, vs⟩ := t; exact valuesAt_root
  | cons k path ih =>
    rw [prune]
    cases hchild : t.child k with
    | none =>
      by_cases h : other = k :: path
      · simp [h, valuesAt_cons, hchild, hf]
      · simp [h]
    | some c =>
      dsimp only
      refine valuesAt_replace (c := c.prune f path) ?_ (fun k' other => ?_) fun other => ?_
      · by_cases hbare : (c.prune f path).isBare <;> simp [hbare, setChild, removeChild, values]
      · -- Removing a bare node looks like keeping it.
        by_cases hbare : (c.prune f path).isBare
        · rw [if_pos hbare, valuesAt_removeChild_cons, valuesAt_of_isBare hbare]
        · rw [if_neg hbare, valuesAt_setChild_cons]
      · simp [ih, valuesAt_cons, hchild]

end

/-! ### Matching -/

section

variable {single multi : κ} {t : Trie κ ν} {levels path : List κ} {v : ν} {p : ν → Bool}

lemma values_child : (match t.child multi with | some c => c.values | none => []) =
    t.valuesAt [multi] := by
  rw [valuesAt_cons]
  cases t.child multi <;> simp

lemma collect_child {k : κ} :
    (match t.child k with | some c => collect single multi levels c | none => []) =
      collect single multi levels ((t.child k).getD empty) := by
  cases t.child k with
  | some c => rfl
  | none => cases levels <;> simp [collect, empty, values, child, children]

lemma collect_nil : t.collect single multi [] = t.valuesAt [] ++ t.valuesAt [multi] := by
  rw [collect, values_child, valuesAt_nil]

lemma collect_cons {level : κ} :
    t.collect single multi (level :: levels) =
      ((t.child level).getD empty).collect single multi levels ++
        ((t.child single).getD empty).collect single multi levels ++ t.valuesAt [multi] := by
  rw [collect, values_child, collect_child, collect_child]

/-- The values found are those at the paths that match. -/
theorem mem_collect : v ∈ t.collect single multi levels ↔
    ∃ path, Covers single multi path levels ∧ v ∈ t.valuesAt path := by
  induction levels generalizing t with
  | nil =>
    rw [collect_nil, mem_append]
    constructor
    · rintro (h | h)
      · exact ⟨[], rfl, h⟩
      · exact ⟨[multi], ⟨rfl, rfl⟩, h⟩
    rintro ⟨path, hcovers, h⟩
    cases path with
    | nil => exact .inl h
    | cons k path => obtain ⟨rfl, rfl⟩ := hcovers; exact .inr h
  | cons level levels ih =>
    simp only [collect_cons, mem_append, ih, valuesAt_getD_child]
    constructor
    · rintro ((⟨path, hcovers, h⟩ | ⟨path, hcovers, h⟩) | h)
      · exact ⟨level :: path, .inr ⟨.inl rfl, hcovers⟩, h⟩
      · exact ⟨single :: path, .inr ⟨.inr rfl, hcovers⟩, h⟩
      · exact ⟨[multi], .inl ⟨rfl, rfl⟩, h⟩
    rintro ⟨path, hcovers, h⟩
    cases path with
    | nil => cases hcovers
    | cons k path =>
      rcases hcovers with ⟨rfl, rfl⟩ | ⟨rfl | rfl, hcovers⟩
      · exact .inr h
      · exact .inl (.inl ⟨path, hcovers, h⟩)
      · exact .inl (.inr ⟨path, hcovers, h⟩)

lemma filter_collect_eq_nil (h : ∀ path, Covers single multi path levels →
    (t.valuesAt path).filter p = []) : (t.collect single multi levels).filter p = [] := by
  rw [filter_eq_nil_iff]
  intro v hv
  obtain ⟨path, hcovers, hv⟩ := mem_collect.1 hv
  exact filter_eq_nil_iff.1 (h path hcovers) v hv

/-- Values that are at one path only are found once when the path matches. The levels matched must not
be wildcards, as the descent would go the same way twice. -/
theorem filter_collect (hne : single ≠ multi) (hsingle : single ∉ levels) (hmulti : multi ∉ levels)
    (hcovers : Covers single multi path levels)
    (honly : ∀ other, other ≠ path → (t.valuesAt other).filter p = []) :
    (t.collect single multi levels).filter p = (t.valuesAt path).filter p := by
  induction levels generalizing t path with
  | nil =>
    rw [collect_nil, filter_append]
    cases path with
    | nil => rw [honly [multi] (by simp), append_nil]
    | cons k path =>
      obtain ⟨rfl, rfl⟩ := hcovers
      rw [honly [] (by simp), nil_append]
  | cons level levels ih =>
    simp only [mem_cons, not_or] at hsingle hmulti
    rw [collect_cons, filter_append, filter_append]
    -- Along a level that the path does not begin with there is nothing to be found.
    have hother (k : κ) (hk : ∀ other, k :: other ≠ path) :
        (((t.child k).getD empty).collect single multi levels).filter p = [] := by
      refine filter_collect_eq_nil fun other _ => ?_
      rw [valuesAt_getD_child]
      exact honly _ (hk other)
    cases path with
    | nil => cases hcovers
    | cons k path =>
      have honly' (other : List κ) (h : other ≠ path) :
          (((t.child k).getD empty).valuesAt other).filter p = [] := by
        rw [valuesAt_getD_child]
        exact honly _ (by simpa using h)
      have hlast (h : multi ≠ k) : (t.valuesAt [multi]).filter p = [] := honly _ (by simp [h])
      rcases hcovers with ⟨rfl, rfl⟩ | ⟨rfl | rfl, hcovers⟩
      · rw [hother level (by simpa using Ne.symm hmulti.1), hother single (by simp [hne]),
          nil_append, nil_append]
      · rw [ih hsingle.2 hmulti.2 hcovers honly', hother single (by simp [hsingle.1]),
          hlast hmulti.1, append_nil, append_nil, valuesAt_getD_child]
      · rw [hother level (by simp [Ne.symm hsingle.1]), ih hsingle.2 hmulti.2 hcovers honly',
          hlast hne.symm, nil_append, append_nil, valuesAt_getD_child]

/-- Values that are at one path only are not found when the path does not match. -/
lemma filter_collect_of_not_covers (hcovers : ¬ Covers single multi path levels)
    (honly : ∀ other, other ≠ path → (t.valuesAt other).filter p = []) :
    (t.collect single multi levels).filter p = [] := by
  refine filter_collect_eq_nil fun other hother => honly other ?_
  rintro rfl
  exact hcovers hother

end

end Trie
