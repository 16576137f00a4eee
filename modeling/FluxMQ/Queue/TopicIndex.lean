import FluxMQ.Topics.Match

/-!
# The topic index of the queues

`patternTrie` and `TopicIndex` in `queue/storage/patterntrie.go` and `queue/storage/topic.go`. The
patterns that begin with `$` and the others are kept in a trie each, and a topic is looked up in one of
them only.

* `Halves`: the two tries, with `add` and `remove` for one pattern of one queue.
* `TopicIndex`: they are kept with the patterns of each queue, and hold these patterns and no others.
* `TopicIndex.addQueue`, `TopicIndex.removeQueue`, `TopicIndex.findMatching`.
* `TopicIndex.mem_findMatching`: a lookup gives the queues with a pattern that `TopicMatch` accepts.

The threshold at which the names found are kept in a map too makes no difference to what is found, and
is left out.
-/

namespace FluxMQ.Queue

open Topics List

/-! ### Patterns -/

/-- `dollarPatterns` and `plainPatterns`. -/
structure Halves where
  dollarPatterns : Trie Level String := .empty
  plainPatterns : Trie Level String := .empty

namespace Halves

/-- `patternsFor` a pattern or topic that begins with `$`, or does not. -/
def half (h : Halves) (dollar : Bool) : Trie Level String :=
  if dollar then h.dollarPatterns else h.plainPatterns

/-- One of the tries is changed. -/
def onHalf (h : Halves) (dollar : Bool) (f : Trie Level String → Trie Level String) : Halves :=
  if dollar then { h with dollarPatterns := f h.dollarPatterns }
  else { h with plainPatterns := f h.plainPatterns }

/-- `patternTrie.add` in the half that the pattern belongs to. -/
def add (h : Halves) (pattern queueName : String) : Halves :=
  h.onHalf (isDollar pattern) fun t =>
    t.update (fun queues => if queueName ∈ queues then queues else queues ++ [queueName])
      (levels pattern)

/-- `patternTrie.remove` in the half that the pattern belongs to. -/
def remove (h : Halves) (pattern queueName : String) : Halves :=
  h.onHalf (isDollar pattern) fun t => t.prune (fun queues => queues.erase queueName) (levels pattern)

/-- The queue is bound to the pattern at a place of one of the tries. -/
def Binds (h : Halves) (dollar : Bool) (path : List Level) (queueName : String) : Prop :=
  queueName ∈ (h.half dollar).valuesAt path

/-- No queue is bound twice to one pattern. -/
def Distinct (h : Halves) : Prop :=
  ∀ dollar path, ((h.half dollar).valuesAt path).Nodup

/-- A place of a trie is that of a pattern. -/
def IsPlace (dollar : Bool) (path : List Level) (pattern : String) : Prop :=
  isDollar pattern = dollar ∧ levels pattern = path

instance (dollar : Bool) (path : List Level) (pattern : String) :
    Decidable (IsPlace dollar path pattern) :=
  inferInstanceAs (Decidable (_ ∧ _))

section

variable {h : Halves} {dollar : Bool} {path : List Level} {pattern queueName q : String}
  {patterns : List String}

/-- A change of the queues at a pattern is seen at its place only. -/
lemma valuesAt_half_onHalf {f : Trie Level String → Trie Level String}
    {g : List String → List String} (hf : ∀ t path, (f t).valuesAt path =
      if path = levels pattern then g (t.valuesAt (levels pattern)) else t.valuesAt path) :
    ((h.onHalf (isDollar pattern) f).half dollar).valuesAt path =
      if IsPlace dollar path pattern then g ((h.half dollar).valuesAt path)
      else (h.half dollar).valuesAt path := by
  by_cases hdollar : isDollar pattern = dollar
  · subst hdollar
    have hhalf : (h.onHalf (isDollar pattern) f).half (isDollar pattern) =
        f (h.half (isDollar pattern)) := by
      cases hd : isDollar pattern <;> simp [onHalf, half]
    rw [hhalf, hf]
    by_cases hpath : path = levels pattern
    · simp [hpath, IsPlace]
    · simp [hpath, IsPlace, Ne.symm hpath]
  · have hhalf : (h.onHalf (isDollar pattern) f).half dollar = h.half dollar := by
      cases hd : isDollar pattern <;> cases dollar <;> simp_all [onHalf, half]
    rw [hhalf, if_neg fun hplace => hdollar hplace.1]

lemma valuesAt_add :
    ((h.add pattern queueName).half dollar).valuesAt path =
      if IsPlace dollar path pattern then
        if queueName ∈ (h.half dollar).valuesAt path then (h.half dollar).valuesAt path
        else (h.half dollar).valuesAt path ++ [queueName]
      else (h.half dollar).valuesAt path :=
  valuesAt_half_onHalf fun _ _ => Trie.valuesAt_update

lemma valuesAt_remove :
    ((h.remove pattern queueName).half dollar).valuesAt path =
      if IsPlace dollar path pattern then ((h.half dollar).valuesAt path).erase queueName
      else (h.half dollar).valuesAt path :=
  valuesAt_half_onHalf fun _ _ => Trie.valuesAt_prune rfl

lemma binds_add : (h.add pattern queueName).Binds dollar path q ↔
    h.Binds dollar path q ∨ (q = queueName ∧ IsPlace dollar path pattern) := by
  rw [Binds, valuesAt_add]
  by_cases hplace : IsPlace dollar path pattern
  · by_cases hmem : queueName ∈ (h.half dollar).valuesAt path
    · simp only [hplace, hmem, if_true, Binds, and_true]
      exact ⟨.inl, fun hq => hq.elim id fun hq => hq ▸ hmem⟩
    · simp [hplace, hmem, Binds]
  · simp [hplace, Binds]

theorem Distinct.add (hd : h.Distinct) : (h.add pattern queueName).Distinct := by
  intro dollar path
  rw [valuesAt_add]
  split
  · split
    · exact hd dollar path
    rename_i hmem
    exact nodup_append.2 ⟨hd dollar path, nodup_singleton _, by
      intro q hq q' hq' heq
      rw [mem_singleton.1 hq'] at heq
      exact hmem (heq ▸ hq)⟩
  · exact hd dollar path

lemma binds_remove (hd : h.Distinct) : (h.remove pattern queueName).Binds dollar path q ↔
    h.Binds dollar path q ∧ ¬ (q = queueName ∧ IsPlace dollar path pattern) := by
  rw [Binds, valuesAt_remove]
  by_cases hplace : IsPlace dollar path pattern
  · rw [if_pos hplace, (hd dollar path).mem_erase_iff]
    simp [hplace, Binds, and_comm]
  · simp [hplace, Binds]

theorem Distinct.remove (hd : h.Distinct) : (h.remove pattern queueName).Distinct := by
  intro dollar path
  rw [valuesAt_remove]
  split
  · exact (hd dollar path).erase _
  · exact hd dollar path

/-- A queue is bound to some of its patterns after the others. -/
lemma binds_foldl_add :
    (patterns.foldl (fun h pattern => h.add pattern queueName) h).Binds dollar path q ↔
      h.Binds dollar path q ∨ (q = queueName ∧ ∃ pattern ∈ patterns, IsPlace dollar path pattern) := by
  induction patterns generalizing h with
  | nil => simp
  | cons pattern patterns ih =>
    rw [foldl_cons, ih, binds_add]
    simp only [mem_cons, exists_eq_or_imp]
    tauto

lemma binds_foldl_remove (hd : h.Distinct) :
    (patterns.foldl (fun h pattern => h.remove pattern queueName) h).Binds dollar path q ↔
      h.Binds dollar path q ∧ ¬ (q = queueName ∧ ∃ pattern ∈ patterns, IsPlace dollar path pattern) := by
  induction patterns generalizing h with
  | nil => simp
  | cons pattern patterns ih =>
    rw [foldl_cons, ih hd.remove, binds_remove hd, and_assoc, ← not_or, ← and_or_left]
    simp only [mem_cons, exists_eq_or_imp]

lemma Distinct.foldl {change : Halves → String → Halves}
    (hchange : ∀ {h : Halves} {pattern}, h.Distinct → (change h pattern).Distinct) (hd : h.Distinct) :
    (patterns.foldl change h).Distinct := by
  induction patterns generalizing h with
  | nil => exact hd
  | cons pattern patterns ih => exact ih (hchange hd)

end

end Halves

/-! ### The index -/

/-- `TopicIndex`: the patterns of each queue, and the trie they are looked up in. -/
structure TopicIndex where
  /-- The patterns of each queue. -/
  queues : String → Option (List String)
  halves : Halves
  distinct : halves.Distinct
  /-- The tries bind a queue to its patterns and to nothing else. -/
  indexed : ∀ dollar path q, halves.Binds dollar path q ↔
    ∃ patterns, queues q = some patterns ∧ ∃ pattern ∈ patterns, Halves.IsPlace dollar path pattern

namespace TopicIndex

def newTopicIndex : TopicIndex where
  queues := fun _ => none
  halves := {}
  distinct := by
    intro dollar path
    cases dollar <;> simp [Halves.half]
  indexed := by
    intro dollar path q
    cases dollar <;> simp [Halves.Binds, Halves.half]

def removeQueue (idx : TopicIndex) (queueName : String) : TopicIndex where
  queues := Function.update idx.queues queueName none
  halves := ((idx.queues queueName).getD []).foldl (fun h pattern => h.remove pattern queueName)
    idx.halves
  distinct := idx.distinct.foldl Halves.Distinct.remove
  indexed := by
    intro dollar path q
    rw [Halves.binds_foldl_remove idx.distinct, idx.indexed]
    by_cases hq : q = queueName
    · subst hq
      rw [Function.update_self]
      constructor
      · rintro ⟨⟨patterns, hpatterns, hplace⟩, hnot⟩
        exact absurd ⟨rfl, by simpa [hpatterns] using hplace⟩ hnot
      · rintro ⟨patterns, hpatterns, -⟩
        cases hpatterns
    · rw [Function.update_of_ne hq]
      simp [hq]

/-- `AddQueue`, which takes the place of what the queue had before. -/
def addQueue (idx : TopicIndex) (queueName : String) (topicPatterns : List String) : TopicIndex where
  queues := Function.update idx.queues queueName (some topicPatterns)
  halves := topicPatterns.foldl (fun h pattern => h.add pattern queueName)
    (idx.removeQueue queueName).halves
  distinct := (idx.removeQueue queueName).distinct.foldl Halves.Distinct.add
  indexed := by
    intro dollar path q
    rw [Halves.binds_foldl_add, (idx.removeQueue queueName).indexed]
    by_cases hq : q = queueName
    · subst hq
      simp [removeQueue]
    · simp [removeQueue, hq]

/-- `matchedQueues.add`. -/
def addMatched (names : List String) (queueName : String) : List String :=
  if queueName ∈ names then names else names ++ [queueName]

def findMatching (idx : TopicIndex) (topic : String) : List String :=
  if topic = "" then []
  else ((idx.halves.half (isDollar topic)).collect ['+'] ['#'] (levels topic)).foldl addMatched []

lemma nodup_foldl_addMatched {names found : List String} (h : names.Nodup) :
    (found.foldl addMatched names).Nodup := by
  induction found generalizing names with
  | nil => exact h
  | cons q found ih =>
    refine ih ?_
    rw [addMatched]
    split
    · exact h
    rename_i hmem
    exact nodup_append.2 ⟨h, nodup_singleton _, by
      intro q' hq' q'' hq'' heq
      rw [mem_singleton.1 hq''] at heq
      exact hmem (heq ▸ hq')⟩

lemma mem_foldl_addMatched {names found : List String} {q : String} :
    q ∈ found.foldl addMatched names ↔ q ∈ names ∨ q ∈ found := by
  induction found generalizing names with
  | nil => simp
  | cons q' found ih =>
    have hadd : q ∈ addMatched names q' ↔ q ∈ names ∨ q = q' := by
      rw [addMatched]
      split
      · rename_i hmem
        exact ⟨.inl, fun h => h.elim id fun h => h ▸ hmem⟩
      · simp
    rw [foldl_cons, ih, hadd, mem_cons, or_assoc]

section

variable {idx : TopicIndex} {topic : String}

/-- A lookup gives no queue twice. -/
lemma nodup_findMatching : (idx.findMatching topic).Nodup := by
  unfold findMatching
  split
  · exact nodup_nil
  · exact nodup_foldl_addMatched nodup_nil

/-- A lookup gives the queues with a pattern that `TopicMatch` accepts. -/
theorem mem_findMatching {q : String} (hne : topic ≠ "")
    (hvalid : ∀ q patterns, idx.queues q = some patterns → validTopicFilters patterns = true) :
    q ∈ idx.findMatching topic ↔
      ∃ patterns, idx.queues q = some patterns ∧ ∃ pattern ∈ patterns, Topics.topicMatch pattern topic = true := by
  rw [findMatching, if_neg hne, mem_foldl_addMatched, Trie.mem_collect]
  -- A pattern covers the topic in the half that is looked at when `TopicMatch` accepts it.
  have hmatch (pattern : String) (hpattern : validTopicFilter pattern = true) :
      Topics.topicMatch pattern topic = true ↔
        isDollar pattern = isDollar topic ∧ Trie.Covers ['+'] ['#'] (levels pattern) (levels topic) := by
    rw [topicMatch_iff (ne_of_valid hpattern) hne, matchLevels_iff_covers (validLevels_of_valid hpattern)]
  constructor
  · rintro (h | ⟨path, hcovers, hbinds⟩)
    · cases h
    · obtain ⟨patterns, hpatterns, pattern, hmem, hdollar, rfl⟩ := (idx.indexed _ _ _).1 hbinds
      have hpattern := all_eq_true.1 (hvalid _ _ hpatterns) pattern hmem
      exact ⟨patterns, hpatterns, pattern, hmem, (hmatch pattern hpattern).2 ⟨hdollar, hcovers⟩⟩
  · rintro ⟨patterns, hpatterns, pattern, hmem, htm⟩
    have hpattern := all_eq_true.1 (hvalid _ _ hpatterns) pattern hmem
    obtain ⟨hdollar, hcovers⟩ := (hmatch pattern hpattern).1 htm
    exact .inr ⟨levels pattern, hcovers,
      (idx.indexed _ _ _).2 ⟨patterns, hpatterns, pattern, hmem, hdollar, rfl⟩⟩

end

end TopicIndex

end FluxMQ.Queue
